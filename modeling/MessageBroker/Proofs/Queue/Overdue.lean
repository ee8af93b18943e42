import Mathlib.Data.List.Sort
import MessageBroker.Proofs.Queue.Redelivery

/-! Messages whose hold is over, in the order in which a sweep deals with them,
and what the buffer makes of those that come back to it. -/

namespace MessageBroker

namespace Message

/-- When the hold on a message ends, with the tag of the message. A message that
nobody holds counts as one whose hold is over. -/
def holdEnd (message : Message) : Timestamp × Tag :=
  (message.heldUntil.getD ⟨0⟩, message.tag)

/-- The hold on the first message ends before that on the second. Where both end
together, the first has the lower tag. -/
def EndsBefore (first second : Message) : Prop :=
  DeadlineIndex.Precedes first.holdEnd second.holdEnd

instance (first second : Message) : Decidable (first.EndsBefore second) :=
  inferInstanceAs (Decidable (DeadlineIndex.Precedes _ _))

def returned (message : Message) : Message :=
  { message with heldUntil := none }

@[simp] theorem tag_returned (message : Message) :
    message.returned.tag = message.tag := rfl

def NoLater (first second : Message) : Prop :=
  ¬ second.EndsBefore first

instance : DecidableRel NoLater := fun first second =>
  inferInstanceAs (Decidable (¬ second.EndsBefore first))

theorem noLater_iff {first second : Message} :
    first.NoLater second ↔
      first.EndsBefore second ∨ first.holdEnd = second.holdEnd := by
  constructor
  · intro h
    exact (DeadlineIndex.eq_or_precedes_of_not_precedes h).symm.imp_right Eq.symm
  · rintro (hbefore | hsame) hafter
    · exact DeadlineIndex.Precedes.irrefl _ (hbefore.trans hafter)
    · unfold EndsBefore at hafter
      rw [hsame] at hafter
      exact DeadlineIndex.Precedes.irrefl _ hafter

instance : Std.Total NoLater where
  total first second := by
    by_cases hbefore : second.EndsBefore first
    · exact .inr (noLater_iff.mpr (.inl hbefore))
    · exact .inl hbefore

instance : IsTrans Message NoLater where
  trans first second third hfirst hsecond := by
    rw [noLater_iff] at *
    unfold EndsBefore at *
    rcases hfirst with hfirst | hfirst
    · rcases hsecond with hsecond | hsecond
      · exact .inl (hfirst.trans hsecond)
      · exact .inl (hsecond ▸ hfirst)
    · rw [hfirst]
      exact hsecond

end Message

namespace Queue

/-- The messages whose hold is over, the first hold to end first. -/
def overdue (queue : Queue) (now : Timestamp) : List Message :=
  (queue.heldMessages.filter fun message => message.isHoldOver now).insertionSort
    Message.NoLater

def unexpired (now : Timestamp) (messages : List Message) : List Message :=
  messages.filter fun message => !message.isExpired now

def lapsed (now : Timestamp) (messages : List Message) : List Message :=
  messages.filter fun message => message.isExpired now

/-- The messages that go back to the buffer if it has a place for them. -/
def returning (queue : Queue) (now : Timestamp) : List Message :=
  unexpired now (queue.overdue now)

def room (queue : Queue) : Nat :=
  queue.capacity - queue.size

variable {queue : Queue} {row : List (Handle × Message)} {now : Timestamp}
  {message : Message}

theorem unexpired_cons_of_expired (hexpired : message.isExpired now = true)
    (rest : List Message) :
    unexpired now (message :: rest) = unexpired now rest :=
  List.filter_cons_of_neg (by simp [hexpired])

theorem unexpired_cons (halive : message.isExpired now = false)
    (rest : List Message) :
    unexpired now (message :: rest) = message :: unexpired now rest :=
  List.filter_cons_of_pos (by simp [halive])

theorem lapsed_cons_of_expired (hexpired : message.isExpired now = true)
    (rest : List Message) :
    lapsed now (message :: rest) = message :: lapsed now rest := by
  unfold lapsed
  rw [List.filter_cons, if_pos hexpired]

theorem lapsed_cons (halive : message.isExpired now = false)
    (rest : List Message) : lapsed now (message :: rest) = lapsed now rest :=
  List.filter_cons_of_neg (by simp [halive])

theorem mem_overdue :
    message ∈ queue.overdue now ↔
      message ∈ queue.heldMessages ∧ message.isHoldOver now = true := by
  unfold overdue
  rw [List.mem_insertionSort, List.mem_filter]

theorem mem_returning :
    message ∈ queue.returning now ↔
      message ∈ queue.overdue now ∧ message.isExpired now = false := by
  unfold returning unexpired
  rw [List.mem_filter, Bool.not_eq_true']

namespace Keeps

theorem nodup_heldTags (h : queue.Keeps row) :
    (queue.heldMessages.map Message.tag).Nodup := by
  have htags := h.nodup_tags
  rw [List.map_append] at htags
  exact htags.of_append_right

theorem nodup_overdue (h : queue.Keeps row) (now : Timestamp) :
    ((queue.overdue now).map Message.tag).Nodup := by
  have hperm : (queue.overdue now).Perm
      (queue.heldMessages.filter fun message => message.isHoldOver now) :=
    List.perm_insertionSort _ _
  refine (hperm.map Message.tag).nodup_iff.mpr ?_
  exact h.nodup_heldTags.sublist (List.filter_sublist.map _)

theorem held_of_mem_overdue (h : queue.Keeps row)
    (hmem : message ∈ queue.overdue now) :
    queue.held.get? message.tag = some message :=
  h.mem_heldMessages.mp (mem_overdue.mp hmem).1

theorem pairwise_overdue (h : queue.Keeps row) (now : Timestamp) :
    (queue.overdue now).Pairwise Message.EndsBefore := by
  have hsorted : (queue.overdue now).Pairwise Message.NoLater :=
    List.pairwise_insertionSort Message.NoLater _
  have htags := List.pairwise_map.mp (h.nodup_overdue now)
  refine hsorted.imp₂ (fun first second hnoLater htag => ?_) htags
  rcases Message.noLater_iff.mp hnoLater with hbefore | hsame
  · exact hbefore
  · exact absurd (congrArg Prod.snd hsame) htag

theorem heldUntil_eq (h : queue.Keeps row)
    (hmem : message ∈ queue.heldMessages) :
    message.heldUntil = some message.holdEnd.1 := by
  obtain ⟨-, deadline, hdeadline⟩ := h.heldUntil (h.mem_heldMessages.mp hmem)
  unfold Message.holdEnd
  rw [hdeadline]
  rfl

theorem isHoldOver_iff (h : queue.Keeps row)
    (hmem : message ∈ queue.heldMessages) :
    message.isHoldOver now = true ↔ message.holdEnd.1 ≤ now := by
  unfold Message.isHoldOver
  rw [h.heldUntil_eq hmem]
  exact decide_eq_true_iff

theorem mem_holdDeadlines (h : queue.Keeps row) {hold : Timestamp × Tag} :
    hold ∈ queue.holdDeadlines.entries ↔
      ∃ message ∈ queue.heldMessages, message.holdEnd = hold := by
  obtain ⟨deadline, tag⟩ := hold
  rw [h.holds.deadlines]
  constructor
  · rintro ⟨message, hheld, hdeadline⟩
    obtain ⟨rfl, -⟩ := h.heldUntil hheld
    refine ⟨message, h.mem_heldMessages.mpr hheld, ?_⟩
    unfold Message.holdEnd
    rw [hdeadline]
    rfl
  · rintro ⟨message, hmem, hend⟩
    cases hend
    exact ⟨message, h.mem_heldMessages.mp hmem, h.heldUntil_eq hmem⟩

/-- The due entries of the index are the holds that are over. -/
theorem due_eq (h : queue.Keeps row) (now : Timestamp) :
    queue.holdDeadlines.due now =
      (queue.overdue now).map Message.holdEnd := by
  have hmessages : ((queue.overdue now).map Message.holdEnd).Pairwise
      DeadlineIndex.Precedes :=
    List.pairwise_map.mpr (h.pairwise_overdue now)
  have hindex : (queue.holdDeadlines.due now).Pairwise
      DeadlineIndex.Precedes :=
    queue.holdDeadlines.ordered.sublist (List.takeWhile_sublist _)
  refine List.Perm.eq_of_pairwise ?_ hindex hmessages ?_
  · intro first second _ _ hbefore hafter
    exact absurd (hbefore.trans hafter) (DeadlineIndex.Precedes.irrefl _)
  · have hnodup : ((queue.overdue now).map Message.holdEnd).Nodup := by
      refine List.Nodup.of_map Prod.snd ?_
      rw [List.map_map]
      exact h.nodup_overdue now
    refine (List.perm_ext_iff_of_nodup (DeadlineIndex.nodup_due _ _)
      hnodup).mpr fun hold => ?_
    rw [DeadlineIndex.mem_due, h.mem_holdDeadlines]
    constructor
    · rintro ⟨⟨message, hheld, rfl⟩, hover⟩
      refine List.mem_map.mpr ⟨message, mem_overdue.mpr ⟨hheld, ?_⟩, rfl⟩
      exact (h.isHoldOver_iff hheld).mpr hover
    · intro hmem
      obtain ⟨message, hoverdue, rfl⟩ := List.mem_map.mp hmem
      obtain ⟨hheld, hover⟩ := mem_overdue.mp hoverdue
      exact ⟨⟨message, hheld, rfl⟩, (h.isHoldOver_iff hheld).mp hover⟩

end Keeps

end Queue

end MessageBroker
