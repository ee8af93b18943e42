/-! Numbered slots for values. A slot whose value is taken away can be used
again. -/

namespace MessageBroker

abbrev Handle := Nat

/-- Which of the slots that are not in use a value gets. Since the choice may
depend on how many values have come before, a policy can follow any store of
slots. -/
structure SlotPolicy where
  choose : Nat → List Bool → Handle
  choose_vacant : ∀ earlier used, used[choose earlier used]? ≠ some true

namespace SlotPolicy

/-- The first slot that is not in use, which may be one past the end. -/
def lowest : SlotPolicy where
  choose _ used := used.findIdx (!·)
  choose_vacant _ used := by
    intro hused
    obtain ⟨hbound, htrue⟩ := List.getElem?_eq_some_iff.mp hused
    have hfirst := List.findIdx_getElem (w := hbound)
    rw [htrue] at hfirst
    cases hfirst

instance : Inhabited SlotPolicy := ⟨lowest⟩

/-- Take these slots one after another, each if it is not in use. -/
def following (slots : Nat → Handle) : SlotPolicy where
  choose earlier used :=
    if used[slots earlier]? = some true then lowest.choose earlier used
    else slots earlier
  choose_vacant earlier used := by
    split
    · exact lowest.choose_vacant earlier used
    · assumption

end SlotPolicy

structure Arena (α : Type u) where
  slots : List (Option α)
  policy : SlotPolicy
  /-- How many values have come in. -/
  entered : Nat

namespace Arena

variable {α : Type u}

def empty (policy : SlotPolicy := .lowest) : Arena α := ⟨[], policy, 0⟩

def get? (arena : Arena α) (handle : Handle) : Option α :=
  (arena.slots[handle]?).join

def size (arena : Arena α) : Nat :=
  arena.slots.countP Option.isSome

/-- The slot that the next value will get. -/
def vacant (arena : Arena α) : Handle :=
  arena.policy.choose arena.entered (arena.slots.map Option.isSome)

def fillAt (value : α) : Handle → List (Option α) → List (Option α)
  | 0, [] => [some value]
  | 0, _ :: rest => some value :: rest
  | slot + 1, [] => none :: fillAt value slot []
  | slot + 1, other :: rest => other :: fillAt value slot rest

/-- Put a value into this slot, whichever it is. -/
def fill (arena : Arena α) (slot : Handle) (value : α) : Arena α := {
  arena with
  slots := fillAt value slot arena.slots
  entered := arena.entered + 1
}

def modify (arena : Arena α) (handle : Handle) (change : α → α) : Arena α :=
  { arena with slots := arena.slots.modify handle (Option.map change) }

def erase (arena : Arena α) (handle : Handle) : Arena α :=
  { arena with slots := arena.slots.set handle none }

def clear (arena : Arena α) : Arena α :=
  { arena with slots := [] }

@[simp] theorem get?_clear (arena : Arena α) (handle : Handle) :
    arena.clear.get? handle = none := by
  simp [clear, get?]

theorem get?_vacant (arena : Arena α) : arena.get? arena.vacant = none := by
  have hvacant := arena.policy.choose_vacant arena.entered
    (arena.slots.map Option.isSome)
  rw [List.getElem?_map] at hvacant
  unfold get?
  cases hslot : arena.slots[arena.vacant]? with
  | none => rfl
  | some slot =>
      cases slot with
      | none => rfl
      | some value =>
          unfold vacant at hslot
          rw [hslot] at hvacant
          exact absurd rfl hvacant

theorem get?_fill (arena : Arena α) (slot handle : Handle) (value : α) :
    (arena.fill slot value).get? handle =
      if handle = slot then some value else arena.get? handle := by
  obtain ⟨slots, policy, entered⟩ := arena
  simp only [get?, fill]
  induction slot generalizing slots handle with
  | zero => cases slots <;> cases handle <;> simp [fillAt]
  | succ slot ih =>
      cases slots with
      | nil =>
          cases handle with
          | zero => simp [fillAt]
          | succ handle => simpa [fillAt] using ih handle []
      | cons other rest =>
          cases handle with
          | zero => simp [fillAt]
          | succ handle => simpa [fillAt] using ih handle rest

theorem get?_modify (arena : Arena α) (handle other : Handle)
    (change : α → α) :
    (arena.modify handle change).get? other =
      if other = handle then (arena.get? other).map change
      else arena.get? other := by
  simp only [get?, modify, List.getElem?_modify]
  by_cases h : handle = other
  · subst h
    cases hslot : arena.slots[handle]? with
    | none => simp
    | some slot => simp
  · have h' : ¬ other = handle := fun heq => h heq.symm
    simp [h, h']

theorem get?_erase (arena : Arena α) (handle other : Handle) :
    (arena.erase handle).get? other =
      if other = handle then none else arena.get? other := by
  simp only [get?, erase, List.getElem?_set]
  by_cases h : handle = other
  · by_cases hlength : other < arena.slots.length <;> simp [h, hlength]
  · have h' : ¬ other = handle := fun heq => h heq.symm
    simp [h, h']

end Arena

end MessageBroker
