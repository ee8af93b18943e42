import MessageBroker.Collection.AssocList
import MessageBroker.Payload

/-! Who holds a payload. A handle holds the payload it stands for; an observer
only remembers it. A payload that nobody holds is gone. -/

namespace MessageBroker

structure Holders where
  handles : AssocList String Payload
  observers : AssocList String Nat
  lastSerial : Nat

namespace Holders

def empty : Holders where
  handles := .empty
  observers := .empty
  lastSerial := Payload.uncounted

def count (holders : Holders) (serial : Nat) : Nat :=
  holders.handles.values.countP fun payload => payload.serial == serial

def payload? (holders : Holders) (handle : String) : Option Payload :=
  holders.handles.get? handle

def create (holders : Holders) (handle : String) (bytes : List UInt8) :
    Holders := {
  holders with
  handles := holders.handles.insert handle ⟨bytes, holders.lastSerial + 1⟩
  lastSerial := holders.lastSerial + 1
}

def share (holders : Holders) (handle other : String) : Holders :=
  match holders.payload? handle with
  | none => holders
  | some payload =>
      { holders with handles := holders.handles.insert other payload }

def drop (holders : Holders) (handle : String) : Holders :=
  { holders with handles := holders.handles.erase handle }

def observe (holders : Holders) (handle observer : String) : Holders :=
  match holders.payload? handle with
  | none => holders
  | some payload =>
      { holders with
        observers := holders.observers.insert observer payload.serial }

/-- What an observer remembers, unless it is gone. -/
def observed? (holders : Holders) (observer : String) : Option Payload :=
  (holders.observers.get? observer).bind fun serial =>
    holders.handles.values.find? fun payload => payload.serial == serial

/-- Make a handle hold what an observer remembers, unless it is gone. -/
def revive (holders : Holders) (observer handle : String) : Holders :=
  match holders.observed? observer with
  | none => holders
  | some payload =>
      { holders with handles := holders.handles.insert handle payload }

def observedCount (holders : Holders) (observer : String) : Nat :=
  ((holders.observers.get? observer).map holders.count).getD 0

end Holders

end MessageBroker
