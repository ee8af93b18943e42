import MessageBroker.Proofs.Queue.Expiring
import MessageBroker.Proofs.Queue.Returning

/-! A sweep leaves nothing to do for another one at the same time. What it puts
back has not expired, and a hold that is over lasts only while the buffer is full
and evicts nothing. -/

namespace MessageBroker.Queue

/-- There is nothing that a sweep could do at this time. -/
structure Settled (queue : Queue) (now : Timestamp) : Prop where
  buffered : ∀ message ∈ queue.messages, message.isExpired now = false
  /-- A message whose hold is over waits for room that nothing makes. -/
  held : ∀ message ∈ queue.heldMessages, message.isHoldOver now = true →
    message.isExpired now = false ∧ queue.isFull = true ∧
      queue.settings.flags.forcePush = false

variable {queue : Queue} {row : List (Handle × Message)} {now : Timestamp}

theorem length_takenBack_of_waiting {message : Message}
    (hwaits : message ∈ queue.waiting now) :
    queue.settings.flags.forcePush = false ∧
      (queue.takenBack now).length = queue.room := by
  cases hforced : queue.settings.flags.forcePush with
  | true =>
      rw [waiting_of_forced hforced] at hwaits
      cases hwaits
  | false =>
      rw [waiting_of_kept hforced] at hwaits
      have hmore := List.length_pos_of_mem hwaits
      rw [List.length_drop] at hmore
      rw [takenBack_of_kept hforced, List.length_take]
      exact ⟨rfl, by omega⟩

theorem Keeps.settled_sweepUnconfirmed (h : queue.Keeps row)
    (hcapacity : 0 < queue.capacity) (hbounded : queue.size ≤ queue.capacity)
    (hfresh : ∀ message ∈ queue.messages, message.isExpired now = false) :
    (queue.sweepUnconfirmed now).1.Settled now := by
  have hmessages := h.messages_swept hcapacity hbounded now
  refine ⟨fun message hmem => ?_, fun message hmem hover => ?_⟩
  · rw [hmessages, List.mem_append, List.mem_reverse, List.mem_map] at hmem
    rcases hmem with ⟨back, hback, rfl⟩ | hbuffered
    · have hreturning := (queue.takenBack_sublist now).subset hback
      exact (mem_returning.mp hreturning).2
    · exact hfresh message (List.mem_of_mem_drop hbuffered)
  · obtain ⟨hheld, hstays⟩ :=
      (h.heldMessages_swept hcapacity hbounded now).mp hmem
    have hoverdue := mem_overdue.mpr ⟨hheld, hover⟩
    have hwaits := hstays.resolve_left (not_not_intro hoverdue)
    obtain ⟨hkept, hlength⟩ := length_takenBack_of_waiting hwaits
    have hreturning := waiting_subset_returning queue now hwaits
    obtain ⟨left, hleft⟩ := (h.ended_overdue hcapacity now).keeps
    have hsame := (refilled_endHolds now (queue, .zero)
      (queue.holdDeadlines.due now)).settings_eq
    change (queue.sweepUnconfirmed now).1.settings = queue.settings at hsame
    refine ⟨(mem_returning.mp hreturning).2, isFull_iff.mpr ?_, ?_⟩
    · -- Those taken back fill the room that there was, and nothing is evicted.
      rw [← hleft.buffers.length_messages, hmessages, excess_of_kept hkept]
      unfold capacity
      rw [hsame]
      simp only [List.length_append, List.length_reverse, List.length_map,
        hlength, Nat.min_zero, List.drop_zero, h.buffers.length_messages]
      unfold room capacity
      omega
    · rw [hsame]
      exact hkept

theorem Keeps.settled_sweep (h : queue.Keeps row)
    (hcapacity : 0 < queue.capacity) (hbounded : queue.size ≤ queue.capacity)
    (now : Timestamp) : (queue.sweep now).1.Settled now := by
  have hrest := h.sweepExpired now
  have hexpires := h.buffers.expiresExactly now
  have hsame := hexpires.others.capacity_eq
  have hfewer : (queue.sweepExpired now).1.size ≤ queue.size := by
    rw [← hrest.buffers.length_messages, ← h.buffers.length_messages,
      hexpires.kept]
    exact List.length_filter_le _ _
  refine hrest.settled_sweepUnconfirmed ?_ ?_ fun message hmem => ?_
  · rw [hsame]
    exact hcapacity
  · rw [hsame]
    exact Nat.le_trans hfewer hbounded
  · rw [hexpires.kept] at hmem
    have hlives := (List.mem_filter.mp hmem).2
    rw [← not_isExpired_eq, Bool.not_eq_true'] at hlives
    exact hlives

theorem Buffers.sweepExpired_of_fresh (h : queue.Buffers row)
    (hfresh : ∀ message ∈ queue.messages, message.isExpired now = false) :
    queue.sweepExpired now = (queue, 0) := by
  have hnone : (row.filter fun entry => entry.2.isExpired now) = [] := by
    refine List.filter_eq_nil_iff.mpr fun entry hentry => ?_
    have hmem : entry.2 ∈ queue.messages := by
      rw [h.messages_eq]
      exact List.mem_map_of_mem hentry
    rw [hfresh _ hmem]
    exact Bool.false_ne_true
  have hdue := h.perm_dueHandles now
  rw [hnone] at hdue
  have hempty : queue.expiring.due now = [] :=
    List.map_eq_nil_iff.mp hdue.eq_nil
  have hlater : queue.expiring.later now = queue.expiring := by
    have hall := queue.expiring.due_append_later now
    rw [hempty, List.nil_append] at hall
    cases hindex : queue.expiring
    rw [hindex] at hall
    unfold DeadlineIndex.later at hall ⊢
    rw [DeadlineIndex.mk.injEq]
    exact hall
  unfold Queue.sweepExpired
  rw [hempty, hlater]
  rfl

theorem foldl_endHold_of_waiting {ends : List Message}
    (hwait : ∀ message ∈ ends, queue.held.get? message.tag = some message ∧
      message.isExpired now = false ∧ queue.ensureRoom = (queue, false))
    (stats : SweepStats) :
    (ends.map Message.holdEnd).foldl (endHold now) (queue, stats) =
      (queue, stats) := by
  induction ends with
  | nil => rfl
  | cons message rest ih =>
      obtain ⟨⟨hheld, halive, hroom⟩, hrest⟩ := List.forall_mem_cons.mp hwait
      have hstays : endHold now (queue, stats) message.holdEnd =
          (queue, stats) := by
        unfold endHold Message.holdEnd
        simp only [hheld, halive, hroom, Bool.false_eq_true, if_false]
      rw [List.map_cons, List.foldl_cons, hstays]
      exact ih hrest

theorem ensureRoom_of_stuck (hfull : queue.isFull = true)
    (hkept : queue.settings.flags.forcePush = false) :
    queue.ensureRoom = (queue, false) := by
  unfold ensureRoom
  rw [if_pos hfull, hkept, if_neg Bool.false_ne_true]

theorem Keeps.sweep_of_settled (h : queue.Keeps row)
    (hsettled : queue.Settled now) : queue.sweep now = (queue, .zero) := by
  have hunconfirmed : queue.sweepUnconfirmed now = (queue, .zero) := by
    unfold sweepUnconfirmed
    rw [h.due_eq]
    refine foldl_endHold_of_waiting (fun message hmem => ?_) .zero
    obtain ⟨hheld, hover⟩ := mem_overdue.mp hmem
    obtain ⟨halive, hfull, hkept⟩ := hsettled.held message hheld hover
    exact ⟨h.mem_heldMessages.mp hheld, halive,
      ensureRoom_of_stuck hfull hkept⟩
  unfold sweep
  rw [h.buffers.sweepExpired_of_fresh hsettled.buffered]
  dsimp only
  rw [hunconfirmed]
  rfl

end MessageBroker.Queue
