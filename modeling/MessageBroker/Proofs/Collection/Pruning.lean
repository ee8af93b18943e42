import MessageBroker.Channel
import MessageBroker.Proofs.Collection.FiniteSet
import MessageBroker.Route

/-! Unlinking in groups that are plain lists, where the member is removed first
and its key afterwards, if nobody is left under it. Since no group of an index is
empty, looking first comes to the same. -/

namespace MessageBroker

theorem AssocList.Positional.changeAt_middle {κ : Type u} {ν : Type v}
    (front : List (κ × ν)) (entry : κ × ν) (back : List (κ × ν))
    (change : ν → ν) :
    changeAt (front ++ entry :: back) front.length change =
      front ++ (entry.1, change entry.2) :: back :=
  List.modifyTailIdx_add _ 0 front _

namespace MemberIndex

variable {κ : Type u} {α : Type v}

theorem toLists_of_entries_eq {index : MemberIndex κ α} {key : κ}
    {front back : List (κ × MemberSet α)} {set : MemberSet α}
    (hentries : index.groups.entries = front ++ (key, set) :: back) :
    index.toLists =
      front.map (fun entry => (entry.1, entry.2.items)) ++
        (key, set.items) :: back.map fun entry => (entry.1, entry.2.items) := by
  unfold toLists
  rw [hentries, List.map_append, List.map_cons]

variable [DecidableEq κ] [DecidableEq α]

namespace Positional

open AssocList.Positional

/-- Remove a member from the group at a position, and then the group if it is
empty. -/
def removeAt (groups : List (κ × List α)) (position : Nat) (member : α) :
    List (κ × List α) :=
  let left := changeAt groups position (·.erase member)
  if valueAt? left position = some [] then left.eraseIdx position else left

/-- Remove a member from under a key, and tell whether it was there. -/
def remove (groups : List (κ × List α)) (key : κ) (member : α) :
    Bool × List (κ × List α) :=
  match position? groups key with
  | none => (false, groups)
  | some position =>
      (decide (member ∈ (valueAt? groups position).getD []),
        removeAt groups position member)

/-- Remove a member from under a key where it has to be. -/
def remove? (groups : List (κ × List α)) (key : κ) (member : α) :
    Option (List (κ × List α)) :=
  match position? groups key with
  | none => none
  | some position =>
      if member ∈ (valueAt? groups position).getD [] then
        some (removeAt groups position member)
      else none

theorem remove?_eq (groups : List (κ × List α)) (key : κ) (member : α) :
    remove? groups key member =
      if (remove groups key member).1 then some (remove groups key member).2
      else none := by
  unfold remove? remove
  split
  · rfl
  · simp only [decide_eq_true_eq]

end Positional

variable {index : MemberIndex κ α} {key : κ} {member : α}
  {front back : List (κ × MemberSet α)} {set : MemberSet α}

theorem entries_unlink_of_entries_eq
    (hentries : index.groups.entries = front ++ (key, set) :: back) :
    (index.unlink key member).groups.entries =
      front ++ (if (set.erase member).isEmpty then []
        else [(key, set.erase member)]) ++ back := by
  have hstay : ∀ entries : List (κ × MemberSet α),
      (∀ entry ∈ entries, entry ∈ index.groups.entries) →
        (entries.filter fun entry => !entry.2.isEmpty) = entries := by
    intro entries hall
    refine List.filter_eq_self.mpr fun entry hmem => ?_
    have hnonempty := index.groups_nonempty entry (hall entry hmem)
    simpa [MemberSet.isEmpty] using hnonempty
  have hfront := hstay front fun entry hmem =>
    hentries ▸ List.mem_append_left _ hmem
  have hback := hstay back fun entry hmem =>
    hentries ▸ List.mem_append_right _ (List.mem_cons_of_mem _ hmem)
  unfold unlink AssocList.filter
  dsimp only
  rw [AssocList.entries_modify_of_entries_eq hentries, List.filter_append,
    List.filter_cons, hfront, hback]
  cases (set.erase member).isEmpty <;> simp

theorem removeAt_of_entries_eq
    (hentries : index.groups.entries = front ++ (key, set) :: back) :
    Positional.removeAt index.toLists front.length member =
      (index.unlink key member).toLists := by
  have hlength : front.length =
      (front.map fun entry => (entry.1, entry.2.items)).length :=
    (List.length_map _).symm
  have hleft : set.items.erase member = (set.erase member).items :=
    set.nodup_items.erase_eq_filter member
  unfold Positional.removeAt
  rw [toLists_of_entries_eq hentries, hlength,
    AssocList.Positional.changeAt_middle]
  dsimp only
  rw [AssocList.Positional.valueAt?_middle, hleft,
    List.eraseIdx_append_of_length_le (Nat.le_refl _), Nat.sub_self]
  unfold toLists
  rw [entries_unlink_of_entries_eq hentries, List.map_append, List.map_append]
  obtain ⟨items, hnodup⟩ := set.erase member
  cases items with
  | nil => simp [MemberSet.isEmpty]
  | cons first others => simp [MemberSet.isEmpty]

/-- Removing first does what unlinking does, and tells whether the member was
there. -/
theorem remove_toLists (index : MemberIndex κ α) (key : κ) (member : α) :
    Positional.remove index.toLists key member =
      (index.contains key member, (index.unlink key member).toLists) := by
  have hposition : AssocList.Positional.position? index.toLists key =
      AssocList.Positional.position? index.groups.entries key := by
    unfold AssocList.Positional.position? toLists
    rw [List.findIdx?_map]
    rfl
  unfold Positional.remove
  rw [hposition]
  rcases index.groups.absent_or_entries_eq key with
    habsent | ⟨front, set, back, hentries⟩
  · have hnobody : index.contains key member = false := by
      unfold contains group?
      rw [habsent]
      rfl
    rw [AssocList.position?_of_absent habsent, hnobody,
      unlink_of_not_contains hnobody]
  · have hmembers :
        AssocList.Positional.valueAt? index.toLists front.length =
          some set.items := by
      rw [toLists_of_entries_eq hentries,
        ← List.length_map fun entry : κ × MemberSet α =>
          (entry.1, entry.2.items),
        AssocList.Positional.valueAt?_middle]
    have hcontains : index.contains key member = set.contains member := by
      unfold contains group?
      rw [AssocList.get?_of_entries_eq hentries]
      rfl
    rw [AssocList.position?_of_entries_eq hentries, hcontains]
    dsimp only
    rw [hmembers, removeAt_of_entries_eq hentries]
    rfl

theorem remove_toLists_of_absent (habsent : index.contains key member = false) :
    Positional.remove index.toLists key member = (false, index.toLists) := by
  rw [remove_toLists, habsent, unlink_of_not_contains habsent]

theorem remove?_toLists (index : MemberIndex κ α) (key : κ) (member : α) :
    Positional.remove? index.toLists key member =
      if index.contains key member then some (index.unlink key member).toLists
      else none := by
  rw [Positional.remove?_eq, remove_toLists]

end MemberIndex

/-! What fails if nothing was removed. -/

theorem Channel.unsubscribeTopic_removes (channel : Channel) (client : ClientId)
    (topic : String) :
    (channel.unsubscribeTopic client topic).map (·.topics.toLists) =
      match MemberIndex.Positional.remove channel.topics.toLists topic client with
      | (true, left) => .ok left
      | (false, _) => .error (.subscriptionNotFound channel.name topic) := by
  rw [MemberIndex.remove_toLists]
  unfold unsubscribeTopic hasTopic
  cases channel.topics.contains topic client <;> rfl

theorem Channel.unsubscribePattern_removes (channel : Channel)
    (client : ClientId) (pattern : String) :
    (channel.unsubscribePattern client pattern).map (·.patterns.toLists) =
      match MemberIndex.Positional.remove channel.patterns.toLists pattern
        client with
      | (true, left) => .ok left
      | (false, _) => .error (.subscriptionNotFound channel.name pattern) := by
  rw [MemberIndex.remove_toLists]
  unfold unsubscribePattern hasPattern
  cases channel.patterns.contains pattern client <;> rfl

theorem Route.unbind_removes (route : Route) (queue : QueueId) (key : String) :
    (route.unbind queue key).map (·.bindings.toLists) =
      match MemberIndex.Positional.remove? route.bindings.toLists key queue with
      | some left => .ok left
      | none => .error (.bindingNotFound route.name key) := by
  rw [MemberIndex.remove?_toLists]
  unfold unbind isBound
  cases route.bindings.contains key queue <;> rfl

end MessageBroker
