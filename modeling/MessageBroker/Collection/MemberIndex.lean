import MessageBroker.Collection.AssocList
import MessageBroker.Collection.MemberSet

/-! Member sets under keys. A key whose last member leaves disappears. -/

namespace MessageBroker

structure MemberIndex (κ : Type u) (α : Type v) where
  groups : AssocList κ (MemberSet α)
  groups_nonempty : ∀ entry ∈ groups.entries, entry.2.items ≠ []

namespace MemberIndex

variable {κ : Type u} {α : Type v}

def empty : MemberIndex κ α := ⟨.empty, by simp [AssocList.empty]⟩

instance : Inhabited (MemberIndex κ α) := ⟨empty⟩

def isEmpty (index : MemberIndex κ α) : Bool :=
  index.groups.isEmpty

def size (index : MemberIndex κ α) : Nat :=
  index.groups.size

def pairs (index : MemberIndex κ α) : List (κ × α) :=
  index.groups.entries.flatMap fun entry =>
    entry.2.items.map fun member => (entry.1, member)

def toLists (index : MemberIndex κ α) : List (κ × List α) :=
  index.groups.entries.map fun entry => (entry.1, entry.2.items)

variable [DecidableEq κ]

def group? (index : MemberIndex κ α) (key : κ) : Option (MemberSet α) :=
  index.groups.get? key

/-- Members under a key, none if the key is absent. -/
def members (index : MemberIndex κ α) (key : κ) : List α :=
  ((index.group? key).map MemberSet.items).getD []

def eraseKey (index : MemberIndex κ α) (key : κ) : MemberIndex κ α where
  groups := index.groups.erase key
  groups_nonempty := by
    intro entry hentry
    exact index.groups_nonempty entry (List.mem_filter.mp hentry).1

def rotate (index : MemberIndex κ α) (key : κ) : MemberIndex κ α where
  groups := index.groups.modify key MemberSet.rotate
  groups_nonempty := by
    intro entry hentry
    obtain ⟨before, hbefore, rfl⟩ := List.mem_map.mp hentry
    have hne := index.groups_nonempty before hbefore
    split
    · exact MemberSet.items_rotate_ne_nil hne
    · exact hne

variable [DecidableEq α]

def contains (index : MemberIndex κ α) (key : κ) (member : α) : Bool :=
  (index.group? key).any fun set => set.contains member

/-- Append a member under a key, and the key if it is new. -/
def link (index : MemberIndex κ α) (key : κ) (member : α) :
    MemberIndex κ α where
  groups := index.groups.insert key
    (((index.group? key).getD .empty).insert member)
  groups_nonempty := by
    intro entry hentry
    unfold AssocList.insert at hentry
    split at hentry
    · obtain ⟨before, hbefore, rfl⟩ := List.mem_map.mp hentry
      split
      · exact MemberSet.items_insert_ne_nil _ _
      · exact index.groups_nonempty before hbefore
    · rcases List.mem_append.mp hentry with hold | hnew
      · exact index.groups_nonempty entry hold
      · obtain rfl : entry = _ := by simpa using hnew
        exact MemberSet.items_insert_ne_nil _ _

/-- Remove a member from under a key, and the key with its last member. -/
def unlink (index : MemberIndex κ α) (key : κ) (member : α) :
    MemberIndex κ α where
  groups := (index.groups.modify key fun set => set.erase member).filter
    fun _ set => !set.isEmpty
  groups_nonempty := by
    intro entry hentry hnil
    have hkept := (List.mem_filter.mp hentry).2
    simp [MemberSet.isEmpty, hnil] at hkept

end MemberIndex

end MessageBroker
