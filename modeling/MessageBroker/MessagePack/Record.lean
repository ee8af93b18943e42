import MessageBroker.MessagePack.Value
import MessageBroker.Text.Utf8

/-! What MessagePack values stand for: numbers, texts, lists, and records with
named fields. -/

namespace MessageBroker.MessagePack.Value

def toNat? : Value → Option Nat
  | .unsigned number => some number
  | .signed number => if 0 ≤ number then some number.toNat else none
  | _ => none

def toNatBelow? (bound : Nat) (value : Value) : Option Nat :=
  value.toNat?.filter fun number => number < bound

def toUInt8? (value : Value) : Option UInt8 :=
  (value.toNatBelow? UInt8.size).map .ofNat

def toUInt32? (value : Value) : Option UInt32 :=
  (value.toNatBelow? UInt32.size).map .ofNat

def toUInt64? (value : Value) : Option UInt64 :=
  (value.toNatBelow? UInt64.size).map .ofNat

def toBoolean? : Value → Option Bool
  | .boolean value => some value
  | _ => none

def toText? : Value → Option String
  | .text bytes => Text.ofUtf8? bytes
  | .binary bytes => Text.ofUtf8? bytes
  | _ => none

def toBytes? : Value → Option (List UInt8)
  | .array items => items.mapM toUInt8?
  | .binary bytes => some bytes
  | _ => none

/-- A list of things. No bytes are an empty list of anything. -/
def toList? (item? : Value → Option α) : Value → Option (List α)
  | .array items => items.mapM item?
  | .binary [] => some []
  | _ => none

def toOption? (some? : Value → Option α) : Value → Option (Option α)
  | .null => some none
  | value => (some? value).map some

/-- The place that a key has among field names. A key tells the name, or the
place itself; other names and numbers belong to no field. -/
def place? (names : List String) : Value → Option (Option Nat)
  | .text bytes => some (names.findIdx? fun name => Text.toUtf8 name == bytes)
  | .binary bytes => some (names.findIdx? fun name => Text.toUtf8 name == bytes)
  | .unsigned number => some (if number < names.length then some number else none)
  | _ => none

def placed? (names : List String) (entry : Value × Value) :
    Option (Option Nat × Value) :=
  (place? names entry.1).map fun place => (place, entry.2)

def atMostOne? : List α → Option (Option α)
  | [] => some none
  | [item] => some (some item)
  | _ => none

/-- The values of the named fields, from an array that has each of them or from
a map in any order. A map may have further entries, and lack fields. -/
def fields? (names : List String) : Value → Option (List (Option Value))
  | .array items =>
      if items.length = names.length then some (items.map some) else none
  | .map entries =>
      (entries.mapM (placed? names)).bind fun found =>
        (List.range names.length).mapM fun place =>
          atMostOne? ((found.filter fun entry =>
            entry.1 == some place).map Prod.snd)
  | _ => none

end MessageBroker.MessagePack.Value
