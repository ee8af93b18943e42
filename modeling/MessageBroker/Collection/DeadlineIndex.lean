import MessageBroker.Tag

/-! Items in the order of their deadlines. -/

namespace MessageBroker

/-- Items with a number of their own, which orders those of one deadline. -/
class Ranked (α : Type u) where
  rank : α → Nat
  rank_inj : ∀ {first second : α}, rank first = rank second → first = second

instance : Ranked Nat := ⟨id, id⟩

instance : Ranked Tag := ⟨Tag.toNat, Tag.toNat_inj.mp⟩

namespace DeadlineIndex

variable {α : Type u} [Ranked α]

/-- The earlier deadline comes first, and the lower rank among equals. -/
def Precedes (first second : Timestamp × α) : Prop :=
  first.1.toNat < second.1.toNat ∨
    (first.1.toNat = second.1.toNat ∧
      Ranked.rank first.2 < Ranked.rank second.2)

instance (first second : Timestamp × α) : Decidable (Precedes first second) :=
  inferInstanceAs (Decidable (_ ∨ _))

theorem Precedes.trans {first second third : Timestamp × α}
    (hfirst : Precedes first second) (hsecond : Precedes second third) :
    Precedes first third := by
  unfold Precedes at *
  omega

theorem Precedes.irrefl (entry : Timestamp × α) : ¬ Precedes entry entry := by
  unfold Precedes
  omega

theorem eq_or_precedes_of_not_precedes {first second : Timestamp × α}
    (h : ¬ Precedes first second) : first = second ∨ Precedes second first := by
  by_cases heq : first.1.toNat = second.1.toNat ∧
      Ranked.rank first.2 = Ranked.rank second.2
  · left
    exact Prod.ext (Timestamp.toNat_inj.mp heq.1) (Ranked.rank_inj heq.2)
  · right
    unfold Precedes at *
    omega

def insertOrdered (entry : Timestamp × α) :
    List (Timestamp × α) → List (Timestamp × α)
  | [] => [entry]
  | other :: rest =>
      if Precedes entry other then entry :: other :: rest
      else if Precedes other entry then other :: insertOrdered entry rest
      else other :: rest

theorem mem_insertOrdered {entry other : Timestamp × α}
    {list : List (Timestamp × α)} :
    other ∈ insertOrdered entry list ↔ other = entry ∨ other ∈ list := by
  induction list with
  | nil => simp [insertOrdered]
  | cons head rest ih =>
      unfold insertOrdered
      split
      · simp
      · rename_i hnot
        split
        · simp only [List.mem_cons, ih]
          constructor
          · rintro (h | h | h) <;> simp [h]
          · rintro (h | h | h) <;> simp [h]
        · rename_i hnot'
          have heq : entry = head :=
            (eq_or_precedes_of_not_precedes hnot).resolve_right hnot'
          simp [heq]

theorem pairwise_insertOrdered (entry : Timestamp × α)
    {list : List (Timestamp × α)} (h : list.Pairwise Precedes) :
    (insertOrdered entry list).Pairwise Precedes := by
  induction list with
  | nil => simp [insertOrdered]
  | cons head rest ih =>
      obtain ⟨hhead, hrest⟩ := List.pairwise_cons.mp h
      unfold insertOrdered
      split
      · rename_i hbefore
        refine List.pairwise_cons.mpr ⟨?_, h⟩
        intro other hother
        rcases List.mem_cons.mp hother with rfl | hmem
        · exact hbefore
        · exact hbefore.trans (hhead other hmem)
      · split
        · rename_i hafter
          refine List.pairwise_cons.mpr ⟨?_, ih hrest⟩
          intro other hother
          rcases mem_insertOrdered.mp hother with rfl | hmem
          · exact hafter
          · exact hhead other hmem
        · exact h

end DeadlineIndex

structure DeadlineIndex (α : Type u) [Ranked α] where
  entries : List (Timestamp × α)
  ordered : entries.Pairwise DeadlineIndex.Precedes

namespace DeadlineIndex

variable {α : Type u} [Ranked α]

def empty : DeadlineIndex α := ⟨[], List.Pairwise.nil⟩

instance : Inhabited (DeadlineIndex α) := ⟨empty⟩

def insert (index : DeadlineIndex α) (deadline : Timestamp) (item : α) :
    DeadlineIndex α where
  entries := insertOrdered (deadline, item) index.entries
  ordered := pairwise_insertOrdered _ index.ordered

def erase [DecidableEq α] (index : DeadlineIndex α) (deadline : Timestamp)
    (item : α) : DeadlineIndex α where
  entries := index.entries.filter (· != (deadline, item))
  ordered := index.ordered.sublist List.filter_sublist

/-- Entries whose deadline has passed, the earliest first. -/
def due (index : DeadlineIndex α) (now : Timestamp) : List (Timestamp × α) :=
  index.entries.takeWhile fun entry => entry.1 ≤ now

def later (index : DeadlineIndex α) (now : Timestamp) : DeadlineIndex α where
  entries := index.entries.dropWhile fun entry => entry.1 ≤ now
  ordered := index.ordered.sublist (List.dropWhile_sublist _)

@[simp] theorem mem_insert {index : DeadlineIndex α} {deadline : Timestamp}
    {item : α} {entry : Timestamp × α} :
    entry ∈ (index.insert deadline item).entries ↔
      entry = (deadline, item) ∨ entry ∈ index.entries :=
  mem_insertOrdered

@[simp] theorem mem_erase [DecidableEq α] {index : DeadlineIndex α}
    {deadline : Timestamp} {item : α} {entry : Timestamp × α} :
    entry ∈ (index.erase deadline item).entries ↔
      entry ∈ index.entries ∧ entry ≠ (deadline, item) := by
  simp [erase]

theorem due_append_later (index : DeadlineIndex α) (now : Timestamp) :
    index.due now ++ (index.later now).entries = index.entries :=
  List.takeWhile_append_dropWhile

end DeadlineIndex

end MessageBroker
