import MessageBroker.Json.Token

/-! JSON values, read from texts. Values may be nested to any depth. -/

namespace MessageBroker.Json

inductive Value where
  | null
  | boolean (value : Bool)
  | number (literal : List Char)
  | text (pieces : List Piece)
  | array (items : List Value)
  | object (members : List (List Piece × Value))

/-- A bracket that is open, with what stands in it so far, the last first. -/
inductive Frame where
  | array (items : List Value)
  /-- The value of the key is being read. -/
  | object (members : List (List Piece × Value)) (key : List Piece)

/-- What has just been read. -/
inductive Stage where
  | start
  | arrayOpened
  | objectOpened
  /-- Members and a comma. -/
  | members (members : List (List Piece × Value))
  | key (members : List (List Piece × Value)) (key : List Piece)
  | complete (value : Value)

structure Reading where
  stage : Stage
  stack : List Frame

namespace Reading

def enter (stack : List Frame) : Token → Option Reading
  | .openObject => some ⟨.objectOpened, stack⟩
  | .openArray => some ⟨.arrayOpened, stack⟩
  | .null => some ⟨.complete .null, stack⟩
  | .boolean value => some ⟨.complete (.boolean value), stack⟩
  | .number literal => some ⟨.complete (.number literal), stack⟩
  | .text pieces => some ⟨.complete (.text pieces), stack⟩
  | _ => none

def step : Reading → Token → Option Reading
  | ⟨.start, stack⟩, token => enter stack token
  | ⟨.arrayOpened, stack⟩, .closeArray =>
      some ⟨.complete (.array []), stack⟩
  | ⟨.arrayOpened, stack⟩, token => enter (.array [] :: stack) token
  | ⟨.objectOpened, stack⟩, .closeObject =>
      some ⟨.complete (.object []), stack⟩
  | ⟨.objectOpened, stack⟩, .text key => some ⟨.key [] key, stack⟩
  | ⟨.members members, stack⟩, .text key => some ⟨.key members key, stack⟩
  | ⟨.key members key, stack⟩, .colon =>
      some ⟨.start, .object members key :: stack⟩
  | ⟨.complete value, .array items :: stack⟩, .comma =>
      some ⟨.start, .array (value :: items) :: stack⟩
  | ⟨.complete value, .array items :: stack⟩, .closeArray =>
      some ⟨.complete (.array (value :: items).reverse), stack⟩
  | ⟨.complete value, .object members key :: stack⟩, .comma =>
      some ⟨.members ((key, value) :: members), stack⟩
  | ⟨.complete value, .object members key :: stack⟩, .closeObject =>
      some ⟨.complete (.object ((key, value) :: members).reverse), stack⟩
  | _, _ => none

def finished? : Reading → Option Value
  | ⟨.complete value, []⟩ => some value
  | _ => none

end Reading

def parse? (text : String) : Option Value :=
  (tokens? text.toList).bind fun tokens =>
    (tokens.foldlM Reading.step ⟨.start, []⟩).bind Reading.finished?

def isHighSurrogate (code : Nat) : Bool :=
  0xd800 ≤ code && code < 0xdc00

def isLowSurrogate (code : Nat) : Bool :=
  0xdc00 ≤ code && code < 0xe000

/-- The characters that pieces give. Surrogates must come in pairs. -/
def decodePieces? : List Piece → Option (List Char)
  | [] => some []
  | .char c :: rest => (decodePieces? rest).map fun chars => c :: chars
  | .unit code :: rest =>
      if isHighSurrogate code then
        match rest with
        | .unit low :: rest =>
            if isLowSurrogate low then
              (decodePieces? rest).map fun chars =>
                .ofNat (0x10000 + (code - 0xd800) * 0x400 + (low - 0xdc00)) ::
                  chars
            else none
        | _ => none
      else if isLowSurrogate code then none
      else (decodePieces? rest).map fun chars => .ofNat code :: chars

def textOf? (pieces : List Piece) : Option String :=
  (decodePieces? pieces).map String.ofList

def Value.toText? : Value → Option String
  | .text pieces => textOf? pieces
  | _ => none

/-- A number below a bound, written with digits only. -/
def Value.toNatBelow? (bound : Nat) : Value → Option Nat
  | .number literal =>
      let number := literal.foldl
        (fun number digit => 10 * number + (digit.toNat - '0'.toNat)) 0
      if literal.all Char.isDigit && number < bound then some number else none
  | _ => none

end MessageBroker.Json
