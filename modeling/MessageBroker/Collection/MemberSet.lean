/-! Sets of members that remember the order of joining and can be rotated, so
that members are served in turn. -/

namespace MessageBroker

structure MemberSet (α : Type u) where
  items : List α
  nodup_items : items.Nodup

namespace MemberSet

variable {α : Type u}

def empty : MemberSet α := ⟨[], List.nodup_nil⟩

instance : Inhabited (MemberSet α) := ⟨empty⟩

def size (set : MemberSet α) : Nat :=
  set.items.length

def isEmpty (set : MemberSet α) : Bool :=
  set.items.isEmpty

def first? (set : MemberSet α) : Option α :=
  set.items.head?

def rotateItems (items : List α) : List α :=
  items.getLast?.toList ++ items.dropLast

theorem rotateItems_perm (items : List α) : (rotateItems items).Perm items := by
  unfold rotateItems
  cases hlast : items.getLast? with
  | none =>
      have : items = [] := by simpa using hlast
      simp [this]
  | some last =>
      obtain ⟨front, rfl⟩ := List.getLast?_eq_some_iff.mp hlast
      have hperm : ([last] ++ front).Perm (front ++ [last]) :=
        List.perm_append_comm
      simpa using hperm

/-- Move the last member to the front. As many rotations as there are members
bring each of them to the front once. -/
def rotate (set : MemberSet α) : MemberSet α where
  items := rotateItems set.items
  nodup_items := (rotateItems_perm set.items).nodup_iff.mpr set.nodup_items

theorem ext {first second : MemberSet α} (h : first.items = second.items) :
    first = second := by
  cases first
  cases second
  cases h
  rfl

@[simp] theorem mem_items_rotate {set : MemberSet α} {other : α} :
    other ∈ set.rotate.items ↔ other ∈ set.items :=
  (rotateItems_perm set.items).mem_iff

theorem items_rotate_ne_nil {set : MemberSet α} (h : set.items ≠ []) :
    set.rotate.items ≠ [] := by
  intro hnil
  apply h
  have hperm := rotateItems_perm set.items
  rw [show rotateItems set.items = [] from hnil] at hperm
  exact List.nil_perm.mp hperm

variable [DecidableEq α]

def contains (set : MemberSet α) (member : α) : Bool :=
  decide (member ∈ set.items)

def insert (set : MemberSet α) (member : α) : MemberSet α :=
  if present : member ∈ set.items then set
  else {
    items := set.items ++ [member]
    nodup_items := by
      rw [List.nodup_append]
      refine ⟨set.nodup_items, by simp, ?_⟩
      intro left hleft right hright heq
      simp at hright
      exact present (hright ▸ heq ▸ hleft)
  }

/-- Remove a member; the others keep their order. -/
def erase (set : MemberSet α) (member : α) : MemberSet α where
  items := set.items.filter (· != member)
  nodup_items := set.nodup_items.sublist List.filter_sublist

def ofList (members : List α) : MemberSet α :=
  members.foldl insert empty

@[simp] theorem contains_iff {set : MemberSet α} {member : α} :
    set.contains member = true ↔ member ∈ set.items := by
  simp [contains]

theorem items_insert (set : MemberSet α) (member : α) :
    (set.insert member).items =
      if member ∈ set.items then set.items else set.items ++ [member] := by
  unfold insert
  split <;> simp [*]

@[simp] theorem items_erase (set : MemberSet α) (member : α) :
    (set.erase member).items = set.items.filter (· != member) := rfl

@[simp] theorem mem_items_insert {set : MemberSet α} {member other : α} :
    other ∈ (set.insert member).items ↔ other ∈ set.items ∨ other = member := by
  rw [items_insert]
  split
  · constructor
    · exact Or.inl
    · rintro (h | rfl) <;> assumption
  · simp

@[simp] theorem mem_items_erase {set : MemberSet α} {member other : α} :
    other ∈ (set.erase member).items ↔ other ∈ set.items ∧ other ≠ member := by
  simp

theorem items_insert_ne_nil (set : MemberSet α) (member : α) :
    (set.insert member).items ≠ [] := by
  intro h
  have hmem : member ∈ (set.insert member).items :=
    mem_items_insert.mpr (Or.inr rfl)
  rw [h] at hmem
  cases hmem

end MemberSet

end MessageBroker
