import MessageBroker.Checksum
import MessageBroker.Failure
import MessageBroker.Snapshot.Body

/-! Snapshot files: a mark, a version, the length of the body, the body, and
its checksum. -/

namespace MessageBroker.Snapshot

/-- The letters that every file begins with. -/
def magic : List UInt8 :=
  [0x54, 0x4d, 0x51, 0x53]

def version : UInt8 := 1

def overhead : Nat := 17

def frame (body : List UInt8) : List UInt8 :=
  magic ++ version :: Bytes.littleEndian 8 body.length ++ body ++
    Bytes.littleEndian 4 (Checksum.ofBytes body).toNat

def toFile (snapshot : Snapshot) : List UInt8 :=
  frame snapshot.encode

def take (count : Nat) (bytes : List UInt8) :
    Except Failure (List UInt8 × List UInt8) :=
  match Bytes.split? count bytes with
  | some parts => .ok parts
  | none => .error (.file .endsEarly)

/-- A reading with an account of the bytes asked for, a number for each
request. -/
structure Metered (α : Type) where
  requests : List Nat
  result : Except Failure α

namespace Metered

variable {α β : Type}

/-- What is asked for after a failure is never asked for. -/
def bind (first : Metered α) (next : α → Metered β) : Metered β :=
  match first.result with
  | .error failure => ⟨first.requests, .error failure⟩
  | .ok value =>
      ⟨first.requests ++ (next value).requests, (next value).result⟩

instance : Monad Metered where
  pure value := ⟨[], .ok value⟩
  bind := bind

instance : MonadExceptOf Failure Metered where
  throw failure := ⟨[], .error failure⟩
  tryCatch reading handle :=
    match reading.result with
    | .error failure =>
        ⟨reading.requests ++ (handle failure).requests, (handle failure).result⟩
    | .ok _ => reading

def take (count : Nat) (bytes : List UInt8) :
    Metered (List UInt8 × List UInt8) :=
  ⟨[count], Snapshot.take count bytes⟩

/-- The body of a file in which everything around it is as it must be. Each
part is looked at once the parts before it are right. -/
def unframe (file : List UInt8) : Metered (List UInt8) := do
  let (start, rest) ← take magic.length file
  if start ≠ magic then throw .unknownMagic
  let (number, rest) ← take 1 rest
  if number ≠ [version] then
    throw (.unsupportedVersion (.ofNat (Bytes.ofLittleEndian number)))
  let (length, rest) ← take 8 rest
  let length := Bytes.ofLittleEndian length
  if length + overhead ≠ file.length then
    throw (.lengthMismatch length file.length)
  let (body, rest) ← take length rest
  let (checksum, _) ← take 4 rest
  let expected : UInt32 := .ofNat (Bytes.ofLittleEndian checksum)
  let got := Checksum.ofBytes body
  if expected ≠ got then throw (.checksumMismatch expected got)
  return body

end Metered

def unframe (file : List UInt8) : Except Failure (List UInt8) :=
  (Metered.unframe file).result

def ofFile (file : List UInt8) : Except Failure Snapshot := do
  match decode? (← unframe file) with
  | some snapshot => return snapshot
  | none => throw .malformed

end MessageBroker.Snapshot
