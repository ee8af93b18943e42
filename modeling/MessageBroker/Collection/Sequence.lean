import MessageBroker.Collection.Arena

/-! Values in a row, linked through the slots of an arena. A value enters at
either end and leaves from anywhere, by its handle. -/

namespace MessageBroker

structure Link (α : Type u) where
  value : α
  newer : Option Handle
  older : Option Handle
  deriving DecidableEq

structure Sequence (α : Type u) where
  links : Arena (Link α)
  newest : Option Handle
  oldest : Option Handle

namespace Sequence

variable {α : Type u}

def empty (slots : SlotPolicy := .lowest) : Sequence α where
  links := .empty slots
  newest := none
  oldest := none

instance : Inhabited (Sequence α) := ⟨.empty⟩

def size (sequence : Sequence α) : Nat :=
  sequence.links.size

def isEmpty (sequence : Sequence α) : Bool :=
  sequence.size == 0

def get? (sequence : Sequence α) (handle : Handle) : Option α :=
  (sequence.links.get? handle).map Link.value

/-- The handle that the next value to enter will get. -/
def freshHandle (sequence : Sequence α) : Handle :=
  sequence.links.vacant

def setNewer (links : Arena (Link α)) (handle : Handle)
    (newer : Option Handle) : Arena (Link α) :=
  links.modify handle fun link => { link with newer := newer }

def setOlder (links : Arena (Link α)) (handle : Handle)
    (older : Option Handle) : Arena (Link α) :=
  links.modify handle fun link => { link with older := older }

/-- Enter at the newest end, with this handle. -/
def enterNewest (sequence : Sequence α) (slot : Handle) (value : α) :
    Sequence α :=
  let links := sequence.links.fill slot ⟨value, none, sequence.newest⟩
  match sequence.newest with
  | some previous => {
      sequence with
      links := setNewer links previous (some slot)
      newest := some slot
    }
  | none => ⟨links, some slot, some slot⟩

/-- Enter at the oldest end, to be the next to leave. -/
def enterOldest (sequence : Sequence α) (slot : Handle) (value : α) :
    Sequence α :=
  let links := sequence.links.fill slot ⟨value, sequence.oldest, none⟩
  match sequence.oldest with
  | some previous => {
      sequence with
      links := setOlder links previous (some slot)
      oldest := some slot
    }
  | none => ⟨links, some slot, some slot⟩

def pushNewest (sequence : Sequence α) (value : α) : Sequence α :=
  sequence.enterNewest sequence.freshHandle value

def pushOldest (sequence : Sequence α) (value : α) : Sequence α :=
  sequence.enterOldest sequence.freshHandle value

/-- Make the neighbours of a link that is going away point at each other. -/
def bypass (links : Arena (Link α)) (link : Link α) : Arena (Link α) :=
  let links :=
    match link.newer with
    | some newer => setOlder links newer link.older
    | none => links
  match link.older with
  | some older => setNewer links older link.newer
  | none => links

/-- Take a value out wherever it stands. -/
def remove? (sequence : Sequence α) (handle : Handle) :
    Option (α × Sequence α) :=
  (sequence.links.get? handle).map fun link => (link.value, {
    links := bypass (sequence.links.erase handle) link
    newest := if link.newer.isSome then sequence.newest else link.older
    oldest := if link.older.isSome then sequence.oldest else link.newer
  })

def oldest? (sequence : Sequence α) : Option (Handle × α) :=
  sequence.oldest.bind fun handle =>
    (sequence.get? handle).map fun value => (handle, value)

def popOldest? (sequence : Sequence α) : Option (Handle × α × Sequence α) :=
  sequence.oldest.bind fun handle =>
    (sequence.remove? handle).map fun (value, rest) => (handle, value, rest)

def clear (sequence : Sequence α) : Sequence α × Nat :=
  (⟨sequence.links.clear, none, none⟩, sequence.size)

/-- Follow the links towards the newest end for so many steps at most. -/
def walk (links : Arena (Link α)) : Nat → Option Handle → List (Handle × α)
  | 0, _ => []
  | _ + 1, none => []
  | steps + 1, some handle =>
      match links.get? handle with
      | none => []
      | some link => (handle, link.value) :: walk links steps link.newer

def entries (sequence : Sequence α) : List (Handle × α) :=
  walk sequence.links sequence.size sequence.oldest

def toList (sequence : Sequence α) : List α :=
  sequence.entries.map Prod.snd

end Sequence

end MessageBroker
