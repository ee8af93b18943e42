import Mathlib.Data.Finset.Basic
import Mathlib.Data.List.Rotate
import MessageBroker.Proofs.Collection.FiniteMap
import MessageBroker.Proofs.Collection.MemberIndex

/-! A member set is a finite set that lists its members in the order in which they
joined, turned by every rotation. -/

namespace MessageBroker

namespace MemberSet

variable {α : Type u}

inductive Call (α : Type u) where
  | insert (member : α)
  | remove (member : α)
  | contains (member : α)
  | rotate
  | first
  | clear

inductive Reply (α : Type u) where
  | truth (truth : Bool)
  | member (member : Option α)
  | done
  deriving DecidableEq

theorem rotateItems_concat (front : List α) (last : α) :
    rotateItems (front ++ [last]) = last :: front := by
  simp [rotateItems]

theorem rotate_rotateItems (items : List α) :
    (rotateItems items).rotate 1 = items := by
  rcases List.eq_nil_or_concat' items with rfl | ⟨front, last, rfl⟩
  · rfl
  · rw [rotateItems_concat, List.rotate_cons_succ, List.rotate_zero]

theorem rotateItems_eq (items : List α) :
    rotateItems items =
      if 1 < items.length then items.rotateRight 1 else items := by
  rcases List.eq_nil_or_concat' items with rfl | ⟨front, last, rfl⟩
  · rfl
  · rw [rotateItems_concat, List.length_append, List.length_singleton]
    split
    · rename_i hmany
      have hfront : front.length + 1 - 1 % (front.length + 1) =
          front.length := by
        rw [Nat.mod_eq_of_lt hmany, Nat.add_sub_cancel]
      unfold List.rotateRight
      simp only [List.length_append, List.length_singleton,
        if_neg (Nat.not_le.mpr hmany), hfront, List.drop_left,
        List.take_left, List.singleton_append]
    · rename_i hfew
      have hnil : front = [] := List.length_eq_zero_iff.mp (by omega)
      rw [hnil]
      rfl

variable [DecidableEq α]

def perform (set : MemberSet α) : Call α → Reply α × MemberSet α
  | .insert member => (.truth (!set.contains member), set.insert member)
  | .remove member => (.truth (set.contains member), set.erase member)
  | .contains member => (.truth (set.contains member), set)
  | .rotate => (.member set.rotate.first?, set.rotate)
  | .first => (.member set.first?, set)
  | .clear => (.done, .empty)

def run : MemberSet α → List (Call α) → List (Reply α) × MemberSet α
  | set, [] => ([], set)
  | set, call :: rest =>
      let (reply, next) := set.perform call
      let (replies, last) := next.run rest
      (reply :: replies, last)

/-! The same by positions, in items of which nothing else is known. -/

namespace Positional

def perform (items : List α) : Call α → Reply α × List α
  | .insert member =>
      if member ∈ items then (.truth false, items)
      else (.truth true, items ++ [member])
  | .remove member =>
      match items.idxOf? member with
      | some index => (.truth true, items.eraseIdx index)
      | none => (.truth false, items)
  | .contains member => (.truth (decide (member ∈ items)), items)
  | .rotate =>
      let turned := if 1 < items.length then items.rotateRight 1 else items
      (.member turned.head?, turned)
  | .first => (.member items.head?, items)
  | .clear => (.done, [])

def run : List α → List (Call α) → List (Reply α) × List α
  | items, [] => ([], items)
  | items, call :: rest =>
      let (reply, next) := perform items call
      let (replies, last) := run next rest
      (reply :: replies, last)

def collect (members : List α) : List α :=
  members.foldl (fun items member => (perform items (.insert member)).2) []

end Positional

def Call.onFinset (finset : Finset α) : Call α → Finset α
  | .insert member => Insert.insert member finset
  | .remove member => finset.erase member
  | .contains _ => finset
  | .rotate => finset
  | .first => finset
  | .clear => ∅

/-- How the members are listed before and after a call. -/
def Call.Arranges : Call α → List α → List α → Prop
  | .insert member, before, after =>
      after = if member ∈ before then before else before ++ [member]
  | .remove _, before, after => after.Sublist before
  | .contains _, before, after => after = before
  | .rotate, before, after => after.rotate 1 = before
  | .first, before, after => after = before
  | .clear, _, after => after = []

/-- What a finite set replies whose members are then listed in this order. -/
def Call.reply (finset : Finset α) (after : List α) : Call α → Reply α
  | .insert member => .truth (decide (member ∉ finset))
  | .remove member => .truth (decide (member ∈ finset))
  | .contains member => .truth (decide (member ∈ finset))
  | .rotate => .member after.head?
  | .first => .member after.head?
  | .clear => .done

/-- All members of a finite set, and none of them twice. -/
structure Lists (items : List α) (finset : Finset α) : Prop where
  nodup : items.Nodup
  mem_iff : ∀ member, member ∈ items ↔ member ∈ finset

/-- All replies, one after another, and how the members are listed after the last
call. -/
inductive Served : Finset α → List α → List (Call α) → List (Reply α) →
    List α → Prop
  | nil {finset : Finset α} {items : List α} (hlists : Lists items finset) :
      Served finset items [] [] items
  | cons {finset : Finset α} {items next last : List α} {call : Call α}
      {calls : List (Call α)} {replies : List (Reply α)}
      (hlists : Lists items finset) (harranges : call.Arranges items next)
      (hrest : Served (call.onFinset finset) next calls replies last) :
      Served finset items (call :: calls) (call.reply finset next :: replies)
        last

theorem positional_perform (set : MemberSet α) (call : Call α) :
    Positional.perform set.items call =
      ((set.perform call).1, (set.perform call).2.items) := by
  cases call with
  | insert member =>
      unfold Positional.perform perform contains
      rw [items_insert]
      by_cases hmem : member ∈ set.items <;> simp [hmem]
  | remove member =>
      have herase := List.erase_eq_eraseIdx set.items member
      rw [set.nodup_items.erase_eq_filter] at herase
      unfold Positional.perform perform contains
      dsimp only
      rw [items_erase, herase]
      cases hindex : set.items.idxOf? member with
      | none => simp [List.idxOf?_eq_none_iff.mp hindex]
      | some index =>
          have hmem : member ∈ set.items := by
            refine Decidable.not_not.mp fun habsent => ?_
            rw [List.idxOf?_eq_none_iff.mpr habsent] at hindex
            cases hindex
          simp [hmem]
  | contains member => rfl
  | rotate =>
      unfold Positional.perform
      dsimp only
      rw [← rotateItems_eq]
      rfl
  | first => rfl
  | clear => rfl

theorem positional_run (set : MemberSet α) (calls : List (Call α)) :
    Positional.run set.items calls =
      ((set.run calls).1, (set.run calls).2.items) := by
  induction calls generalizing set with
  | nil => rfl
  | cons call rest ih =>
      unfold Positional.run run
      rw [positional_perform]
      dsimp only
      rw [ih]

theorem ofList_concat (members : List α) (member : α) :
    ofList (members ++ [member]) = (ofList members).insert member := by
  unfold ofList
  rw [List.foldl_append]
  rfl

theorem positional_collect (members : List α) :
    Positional.collect members = (ofList members).items := by
  induction members using List.reverseRecOn with
  | nil => rfl
  | append_singleton members member ih =>
      have hinsert := congrArg Prod.snd
        ((ofList members).positional_perform (.insert member))
      rw [ofList_concat]
      unfold Positional.collect at ih ⊢
      rw [List.foldl_append, ih]
      exact hinsert

/-- Of members that are named more than once, the first mention counts. -/
theorem items_ofList (members : List α) :
    (ofList members).items = members.eraseDups := by
  induction members using List.reverseRecOn with
  | nil => rfl
  | append_singleton members member ih =>
      rw [ofList_concat, items_insert, MemberIndex.eraseDups_concat, ih]
      simp only [List.mem_eraseDups]

section

variable {set : MemberSet α} {finset : Finset α}

theorem mem_perform (hmem : ∀ member, member ∈ set.items ↔ member ∈ finset)
    (call : Call α) (member : α) :
    member ∈ (set.perform call).2.items ↔ member ∈ call.onFinset finset := by
  cases call with
  | insert added =>
      show member ∈ (set.insert added).items ↔ _
      rw [mem_items_insert, hmem, Call.onFinset, Finset.mem_insert, or_comm]
  | remove removed =>
      show member ∈ (set.erase removed).items ↔ _
      rw [mem_items_erase, hmem, Call.onFinset, Finset.mem_erase, and_comm]
  | contains other => exact hmem member
  | rotate => exact mem_items_rotate.trans (hmem member)
  | first => exact hmem member
  | clear =>
      exact ⟨fun h => absurd h List.not_mem_nil,
        fun h => absurd h (Finset.notMem_empty member)⟩

theorem arranges_perform (set : MemberSet α) (call : Call α) :
    call.Arranges set.items (set.perform call).2.items := by
  cases call with
  | insert member => exact set.items_insert member
  | remove member => exact List.filter_sublist
  | contains member => rfl
  | rotate => exact rotate_rotateItems set.items
  | first => rfl
  | clear => rfl

theorem reply_perform (hmem : ∀ member, member ∈ set.items ↔ member ∈ finset)
    (call : Call α) :
    (set.perform call).1 = call.reply finset (set.perform call).2.items := by
  have hcontains : ∀ member, set.contains member = decide (member ∈ finset) :=
    fun member => decide_eq_decide.mpr (hmem member)
  cases call with
  | insert member =>
      simp only [perform, Call.reply, hcontains, decide_not]
  | remove member => exact congrArg Reply.truth (hcontains member)
  | contains member => exact congrArg Reply.truth (hcontains member)
  | rotate => rfl
  | first => rfl
  | clear => rfl

theorem served_run (hmem : ∀ member, member ∈ set.items ↔ member ∈ finset)
    (calls : List (Call α)) :
    Served finset set.items calls (set.run calls).1
      (set.run calls).2.items := by
  induction calls generalizing set finset with
  | nil => exact .nil ⟨set.nodup_items, hmem⟩
  | cons call rest ih =>
      have hrest := ih (mem_perform hmem call)
      have hserved := Served.cons ⟨set.nodup_items, hmem⟩
        (set.arranges_perform call) hrest
      rw [← reply_perform hmem call] at hserved
      exact hserved

end

/-- What a member set collected from a list replies to calls, and what it lists after
them. -/
structure Keeps (members : List α) (calls : List (Call α))
    (replies : List (Reply α)) (set : MemberSet α) : Prop where
  run : (ofList members).run calls = (replies, set)
  positional :
    Positional.run (Positional.collect members) calls = (replies, set.items)
  collected : (ofList members).items = members.eraseDups
  finiteSet : Served members.toFinset (ofList members).items calls replies
    set.items

theorem keeps_run (members : List α) (calls : List (Call α)) :
    Keeps members calls ((ofList members).run calls).1
      ((ofList members).run calls).2 where
  run := rfl
  positional := by
    rw [positional_collect]
    exact positional_run (ofList members) calls
  collected := items_ofList members
  finiteSet := served_run
    (fun _ => mem_items_ofList.trans List.mem_toFinset.symm) calls

end MemberSet

/-- Whatever is done to an association and to a member set, the one replies as a
finite map and lists its keys in the order in which each was last added while it was
absent, and the other replies as a finite set and lists its members in the order of
their joining, turned by one at each rotation. -/
theorem ordered_containers_keep_contracts {κ : Type u} {ν : Type v}
    {α : Type w} [DecidableEq κ] [DecidableEq α]
    (assocCalls : List (AssocList.Call κ ν)) (members : List α)
    (memberCalls : List (MemberSet.Call α)) :
    (∃ replies list, AssocList.Keeps assocCalls replies list) ∧
      ∃ replies set, MemberSet.Keeps members memberCalls replies set :=
  ⟨⟨_, _, AssocList.keeps_run assocCalls⟩,
    ⟨_, _, MemberSet.keeps_run members memberCalls⟩⟩

end MessageBroker
