import MessageBroker.Proofs.Broker.Refusal
import MessageBroker.Proofs.Broker.Stock
import MessageBroker.Proofs.Queue.Returning

/-! Sweeps over messages on hold in the queues of a broker. A queue that evicts
nothing takes back the first of those whose hold is over, and keeps the rest. One
that evicts has a place for every one of them, but may give it to another in the
same sweep. What comes back together stands in the reverse of the order in which
the holds ended. -/

namespace MessageBroker

section Pairs

variable {α : Type} {first second : α} {list : List α}

theorem pair_sublist_or (hfirst : first ∈ list) (hsecond : second ∈ list)
    (hapart : first ≠ second) :
    [first, second].Sublist list ∨ [second, first].Sublist list := by
  induction list with
  | nil => cases hfirst
  | cons head rest ih =>
      rcases List.mem_cons.mp hfirst with rfl | hfirstRest
      · have hlater := (List.mem_cons.mp hsecond).resolve_left hapart.symm
        exact .inl ((List.singleton_sublist.mpr hlater).cons_cons _)
      · rcases List.mem_cons.mp hsecond with rfl | hsecondRest
        · exact .inr ((List.singleton_sublist.mpr hfirstRest).cons_cons _)
        · exact (ih hfirstRest hsecondRest).imp (.cons head) (.cons head)

theorem not_pair_sublist_swap (hnodup : list.Nodup)
    (hbefore : [first, second].Sublist list) :
    ¬ [second, first].Sublist list := by
  induction list with
  | nil => cases hbefore
  | cons head rest ih =>
      obtain ⟨hfresh, hrest⟩ := List.nodup_cons.mp hnodup
      rw [List.cons_sublist_cons'] at hbefore ⊢
      rintro (hafter | ⟨rfl, hafter⟩) <;>
        rcases hbefore with hbefore | ⟨rfl, hbefore⟩
      case inl.inl => exact ih hrest hbefore hafter
      case inl.inr => exact hfresh (hafter.subset (by simp))
      case inr.inl => exact hfresh (hbefore.subset (by simp))
      case inr.inr => exact hfresh (List.singleton_sublist.mp hbefore)

end Pairs

namespace Queue

variable {queue : Queue} {row : List (Handle × Message)} {now : Timestamp}
  {message : Message}

/-- What a sweep makes of the messages on hold, where nothing is evicted. -/
structure SharesOut (queue : Queue) (now : Timestamp) (swept : Queue)
    (stats : SweepStats) : Prop where
  overdue : (queue.overdue now).Perm
    (queue.heldMessages.filter fun message => message.isHoldOver now)
  sorted : (queue.overdue now).Pairwise Message.EndsBefore
  room : queue.room = queue.capacity - queue.messages.length
  /-- Those that have expired are released. -/
  released : ∀ message ∈ queue.overdue now, message.isExpired now = true →
    swept.place message.tag = .gone
  /-- The first of the others take the room there is, in front of all that was
  buffered. -/
  messages : swept.messages =
    (((queue.returning now).take queue.room).map Message.returned).reverse ++
      queue.messages
  /-- The rest of them stay on hold, with those whose hold is not over. -/
  held : ∀ message, message ∈ swept.heldMessages ↔
    message ∈ queue.heldMessages ∧
      (message.isHoldOver now = false ∨
        message ∈ (queue.returning now).drop queue.room)
  coherent : swept.Coherent
  stats : stats = {
    expired := 0
    redelivered := ((queue.returning now).take queue.room).length
    dropped := (lapsed now (queue.overdue now)).length }

namespace Keeps

theorem place_of_lapsed (h : queue.Keeps row) (hcapacity : 0 < queue.capacity)
    (hbounded : queue.size ≤ queue.capacity)
    (hoverdue : message ∈ queue.overdue now)
    (hexpired : message.isExpired now = true) :
    (queue.sweepUnconfirmed now).1.place message.tag = .gone := by
  have hended := h.ended_overdue hcapacity now
  obtain ⟨left, hleft⟩ := hended.keeps
  have hheld := h.held_of_mem_overdue hoverdue
  have hnot : message ∉ queue.returning now := by
    intro hmem
    rw [(mem_returning.mp hmem).2] at hexpired
    cases hexpired
  refine hleft.place_eq_gone_iff.mpr ⟨?buffered, ?held⟩
  case buffered =>
    intro other hother htag
    rw [h.messages_swept hcapacity hbounded, List.mem_append, List.mem_reverse,
      List.mem_map] at hother
    rcases hother with ⟨back, hback, rfl⟩ | hbuffered
    · have hreturning := (queue.takenBack_sublist now).subset hback
      have hsame := h.held_of_mem_overdue (mem_returning.mp hreturning).1
      rw [Message.tag_returned] at htag
      rw [htag, hheld] at hsame
      cases hsame
      exact hnot hreturning
    · obtain ⟨handle, hentry⟩ :=
        h.mem_messages.mp (List.mem_of_mem_drop hbuffered)
      have hnone := h.apart _ hentry
      rw [htag, hheld] at hnone
      cases hnone
  case held =>
    cases hstill :
        (queue.sweepUnconfirmed now).1.held.get? message.tag with
    | none => rfl
    | some other =>
        obtain ⟨hbefore, hstays⟩ := (hended.held _ _).mp hstill
        rw [hheld] at hbefore
        cases hbefore
        rw [h.buffers.settle_overdue hcapacity hbounded] at hstays
        rcases hstays with hother | hwaits
        · exact absurd hoverdue hother
        · exact absurd (queue.waiting_subset_returning now hwaits) hnot

theorem sharesOut (h : queue.Keeps row) (hcapacity : 0 < queue.capacity)
    (hbounded : queue.size ≤ queue.capacity)
    (hkept : queue.settings.flags.forcePush = false) (now : Timestamp) :
    queue.SharesOut now (queue.sweepUnconfirmed now).1
      (queue.sweepUnconfirmed now).2 := by
  refine ⟨List.perm_insertionSort _ _, h.pairwise_overdue now, ?room,
    fun _ => h.place_of_lapsed hcapacity hbounded, ?messages, ?held, ?coherent,
    ?stats⟩
  case room =>
    unfold room
    rw [h.buffers.length_messages]
  case messages =>
    rw [h.messages_swept hcapacity hbounded, takenBack_of_kept hkept,
      excess_of_kept hkept, Nat.min_zero, List.drop_zero]
  case held =>
    intro message
    rw [h.heldMessages_swept hcapacity hbounded, waiting_of_kept hkept]
    refine and_congr_right fun hmem => or_congr_left ?_
    rw [mem_overdue, and_iff_right hmem, Bool.not_eq_true]
  case coherent =>
    obtain ⟨left, hleft⟩ := (h.ended_overdue hcapacity now).keeps
    exact hleft.coherent
  case stats =>
    rw [h.stats_swept hcapacity hbounded, waiting_of_kept hkept,
      List.length_take, List.length_drop]
    congr 1
    omega

end Keeps

/-- Every message that comes back finds a place of its own, or may wait for
one. -/
def HasPlaces (queue : Queue) (now : Timestamp) : Prop :=
  queue.settings.flags.forcePush = false ∨
    (queue.returning now).length ≤ max queue.room 1

namespace Keeps

theorem nodup_returning (h : queue.Keeps row) (now : Timestamp) :
    (queue.returning now).Nodup :=
  (h.nodup_overdue now).of_map.filter _

theorem filter_returning (h : queue.Keeps row) (hcapacity : 0 < queue.capacity)
    (hbounded : queue.size ≤ queue.capacity) (now : Timestamp) :
    ((queue.returning now).filter fun message =>
      message.returned ∈ (queue.sweepUnconfirmed now).1.messages).Perm
        (queue.takenBack now) := by
  have hnodup := h.nodup_returning now
  refine (List.perm_ext_iff_of_nodup (hnodup.filter _)
    (hnodup.sublist (queue.takenBack_sublist now))).mpr fun message => ?_
  rw [List.mem_filter, decide_eq_true_iff]
  constructor
  · rintro ⟨hmem, hbuffered⟩
    exact (h.returned_mem_messages_swept hcapacity hbounded
      (mem_returning.mp hmem).1).mp hbuffered
  · intro hback
    have hmem := (queue.takenBack_sublist now).subset hback
    exact ⟨hmem, (h.returned_mem_messages_swept hcapacity hbounded
      (mem_returning.mp hmem).1).mpr hback⟩

theorem all_stay_iff (h : queue.Keeps row) (hcapacity : 0 < queue.capacity)
    (hbounded : queue.size ≤ queue.capacity) (now : Timestamp) :
    (∀ message ∈ queue.returning now,
      message.returned ∈ (queue.sweepUnconfirmed now).1.messages ∨
        message ∈ (queue.sweepUnconfirmed now).1.heldMessages) ↔
      queue.HasPlaces now := by
  have hplace : ∀ message ∈ queue.returning now,
      (message.returned ∈ (queue.sweepUnconfirmed now).1.messages ∨
          message ∈ (queue.sweepUnconfirmed now).1.heldMessages) ↔
        message ∈ queue.takenBack now ∨ message ∈ queue.waiting now := by
    intro message hmem
    have hoverdue := (mem_returning.mp hmem).1
    rw [h.returned_mem_messages_swept hcapacity hbounded hoverdue,
      h.heldMessages_swept hcapacity hbounded,
      and_iff_right (mem_overdue.mp hoverdue).1,
      or_iff_right (not_not_intro hoverdue)]
  rw [forall₂_congr hplace]
  unfold HasPlaces
  cases hforced : queue.settings.flags.forcePush with
  | false =>
      rw [takenBack_of_kept hforced, waiting_of_kept hforced]
      refine iff_of_true (fun message hmem => ?_) (.inl rfl)
      rwa [← List.mem_append, List.take_append_drop]
  | true =>
      rw [takenBack_of_forced hforced, waiting_of_forced hforced,
        ← survivors_eq_self_iff]
      simp only [List.not_mem_nil, or_false, Bool.true_eq_false, false_or]
      constructor
      · intro hall
        have hfewer :=
          (List.subperm_of_subset (h.nodup_returning now) hall).length_le
        exact (survivors_sublist _ _).eq_of_length_le hfewer
      · intro hsame message hmem
        rwa [hsame]

theorem counted_iff (h : queue.Keeps row) (hcapacity : 0 < queue.capacity)
    (hbounded : queue.size ≤ queue.capacity) (now : Timestamp) :
    (queue.sweepUnconfirmed now).2.redelivered =
        ((queue.returning now).filter fun message =>
          message.returned ∈ (queue.sweepUnconfirmed now).1.messages).length ↔
      queue.HasPlaces now := by
  rw [(h.filter_returning hcapacity hbounded now).length_eq,
    h.stats_swept hcapacity hbounded]
  unfold HasPlaces
  cases hforced : queue.settings.flags.forcePush with
  | false =>
      rw [waiting_of_kept hforced, takenBack_of_kept hforced, List.length_take,
        List.length_drop]
      simp only [true_or, iff_true]
      omega
  | true =>
      rw [waiting_of_forced hforced, takenBack_of_forced hforced,
        List.length_nil, Nat.sub_zero, ← survivors_eq_self_iff]
      simp only [Bool.true_eq_false, false_or]
      constructor
      · intro hlength
        exact (survivors_sublist _ _).eq_of_length hlength.symm
      · intro hsame
        rw [hsame]

/-- Of two messages that come back together, the one whose hold ended last
stands in front. -/
theorem returned_order (h : queue.Keeps row) (hcapacity : 0 < queue.capacity)
    (hbounded : queue.size ≤ queue.capacity) {first second : Message}
    (hfirst : first ∈ queue.overdue now) (hsecond : second ∈ queue.overdue now)
    (hfirstBack : first.returned ∈ (queue.sweepUnconfirmed now).1.messages)
    (hsecondBack : second.returned ∈ (queue.sweepUnconfirmed now).1.messages)
    (hapart : first ≠ second) :
    [first.returned, second.returned].Sublist
        (queue.sweepUnconfirmed now).1.messages ↔
      second.EndsBefore first := by
  rw [h.returned_mem_messages_swept hcapacity hbounded hfirst] at hfirstBack
  rw [h.returned_mem_messages_swept hcapacity hbounded hsecond] at hsecondBack
  have hordered := (h.pairwise_overdue now).sublist
    ((queue.takenBack_sublist now).trans List.filter_sublist)
  have hreversed : ∀ {earlier later : Message},
      [earlier, later].Sublist (queue.takenBack now) →
        [later.returned, earlier.returned].Sublist
          (queue.sweepUnconfirmed now).1.messages := by
    intro earlier later hsublist
    rw [h.messages_swept hcapacity hbounded]
    exact (hsublist.map Message.returned).reverse.trans
      (List.sublist_append_left _ _)
  constructor
  · intro hfront
    rcases pair_sublist_or hfirstBack hsecondBack hapart with
      hbefore | hafter
    · obtain ⟨left, hleft⟩ := (h.ended_overdue hcapacity now).keeps
      have hnodup := hleft.nodup_messages
      exact absurd (hreversed hbefore) (not_pair_sublist_swap hnodup hfront)
    · exact List.pairwise_iff_forall_sublist.mp hordered hafter
  · intro hends
    rcases pair_sublist_or hfirstBack hsecondBack hapart with
      hbefore | hafter
    · have hsooner := List.pairwise_iff_forall_sublist.mp hordered hbefore
      exact absurd (hsooner.trans hends) (DeadlineIndex.Precedes.irrefl _)
    · exact hreversed hafter

end Keeps

end Queue

namespace Broker

variable {broker : Broker} {stamps : Nat} {id : QueueId} {queue : Queue}

theorem Reached.keeps_bounded (reached : Reached stamps broker)
    (hbound : stamps ≤ UInt32.size)
    (found : broker.queues.find? id = some queue) :
    (∃ row, queue.Keeps row) ∧ 0 < queue.capacity ∧
      queue.size ≤ queue.capacity :=
  ⟨(reached.stocked hbound).keeps id queue found,
    capacity_pos (reached.listed.queues.proper id queue found),
    (reached.limited id queue found).bounded⟩

/-- A queue that evicts nothing shares out the messages whose hold is over: some
have expired, the first of the others are taken back, the rest wait. -/
theorem Reached.sweep_sharesOut (reached : Reached stamps broker)
    (hbound : stamps ≤ UInt32.size)
    (found : broker.queues.find? id = some queue)
    (hkept : queue.settings.flags.forcePush = false) (now : Timestamp) :
    queue.SharesOut now (queue.sweepUnconfirmed now).1
      (queue.sweepUnconfirmed now).2 := by
  obtain ⟨⟨row, hkeeps⟩, hcapacity, hbounded⟩ :=
    reached.keeps_bounded hbound found
  exact hkeeps.sharesOut hcapacity hbounded hkept now

/-- One message has expired, one is taken back, one has to wait, and the hold on
the last is not over. -/
theorem Reached.sweep_sharesOut_full :
    (let broker := (idle .default ⟨0⟩).run [
      .createQueue "jobs" ⟨4, 64, ⟨true, false, false, false⟩⟩,
      .push ⟨1⟩ ⟨[1], 1⟩ 5, .push ⟨1⟩ ⟨[2], 2⟩ 0, .push ⟨1⟩ ⟨[3], 3⟩ 0,
      .push ⟨1⟩ ⟨[4], 4⟩ 0, .pop ⟨1⟩ 10, .pop ⟨1⟩ 11, .pop ⟨1⟩ 12,
      .pop ⟨1⟩ 30, .push ⟨1⟩ ⟨[5], 5⟩ 0, .push ⟨1⟩ ⟨[6], 6⟩ 0,
      .push ⟨1⟩ ⟨[7], 7⟩ 0]
    ∃ queue, broker.queues.find? ⟨1⟩ = some queue ∧
      (queue.sweepUnconfirmed ⟨20⟩).2 = ⟨0, 1, 1⟩ ∧
      (queue.sweepUnconfirmed ⟨20⟩).1.heldMessages.length = 2 ∧
      queue.SharesOut ⟨20⟩ (queue.sweepUnconfirmed ⟨20⟩).1
        (queue.sweepUnconfirmed ⟨20⟩).2) := by
  have hidle : Reached 0 (idle .default ⟨0⟩) :=
    .start (start_of_sound (by decide))
  intro broker
  have reached : Reached _ broker := hidle.run _
  refine ⟨_, rfl, by decide, by decide, ?_⟩
  exact reached.sweep_sharesOut (by decide)
    (show broker.queues.find? ⟨1⟩ = some _ from rfl) rfl ⟨20⟩

/-- A sweep loses none of the messages that go back to the buffer, and counts as
many as are buffered again, exactly if the queue does not evict or has a place
for each of them. -/
theorem Reached.sweep_loses_none_iff (reached : Reached stamps broker)
    (hbound : stamps ≤ UInt32.size)
    (found : broker.queues.find? id = some queue) (now : Timestamp) :
    ((∀ message ∈ queue.returning now,
        message.returned ∈ (queue.sweepUnconfirmed now).1.messages ∨
          message ∈ (queue.sweepUnconfirmed now).1.heldMessages) ↔
      queue.HasPlaces now) ∧
    ((queue.sweepUnconfirmed now).2.redelivered =
        ((queue.returning now).filter fun message =>
          message.returned ∈ (queue.sweepUnconfirmed now).1.messages).length ↔
      queue.HasPlaces now) := by
  obtain ⟨⟨row, hkeeps⟩, hcapacity, hbounded⟩ :=
    reached.keeps_bounded hbound found
  exact ⟨hkeeps.all_stay_iff hcapacity hbounded now,
    hkeeps.counted_iff hcapacity hbounded now⟩

theorem Reached.sweep_loses_none_iff_crowded :
    (let broker := (idle .default ⟨0⟩).run [
      .createQueue "jobs" ⟨1, 64, ⟨true, true, false, false⟩⟩,
      .push ⟨1⟩ ⟨[1], 1⟩ 0, .pop ⟨1⟩ 10, .push ⟨1⟩ ⟨[2], 2⟩ 0, .pop ⟨1⟩ 10]
    ∃ queue, broker.queues.find? ⟨1⟩ = some queue ∧
      (queue.returning ⟨10⟩).length = 2 ∧
      ¬ ∀ message ∈ queue.returning ⟨10⟩,
        message.returned ∈ (queue.sweepUnconfirmed ⟨10⟩).1.messages ∨
          message ∈ (queue.sweepUnconfirmed ⟨10⟩).1.heldMessages) := by
  have hidle : Reached 0 (idle .default ⟨0⟩) :=
    .start (start_of_sound (by decide))
  intro broker
  have reached : Reached _ broker := hidle.run _
  refine ⟨_, rfl, by decide, ?_⟩
  have hloses := reached.sweep_loses_none_iff (by decide)
    (show broker.queues.find? ⟨1⟩ = some _ from rfl) ⟨10⟩
  rw [hloses.1]
  unfold Queue.HasPlaces
  decide

/-- A queue that evicts drops the message that the same sweep has put back. -/
theorem not_sweep_loses_none :
    ¬ ∀ stamps broker, Reached stamps broker → stamps ≤ UInt32.size →
      ∀ id queue, broker.queues.find? id = some queue → ∀ now,
        ∀ message ∈ queue.heldMessages, message.isHoldOver now = true →
          message.isExpired now = false →
            message.returned ∈ (queue.sweepUnconfirmed now).1.messages ∨
              message ∈ (queue.sweepUnconfirmed now).1.heldMessages := by
  intro hall
  have hidle : Reached 0 (idle .default ⟨0⟩) :=
    .start (start_of_sound (by decide))
  have hstays := hall _ _ (hidle.run [
    .createQueue "jobs" ⟨1, 64, ⟨true, true, false, false⟩⟩,
    .push ⟨1⟩ ⟨[1], 1⟩ 0, .pop ⟨1⟩ 10, .push ⟨1⟩ ⟨[2], 2⟩ 0, .pop ⟨1⟩ 10])
    (by decide) ⟨1⟩ _ rfl ⟨10⟩ ⟨⟨[1], 1⟩, ⟨0⟩, none, some ⟨10⟩⟩ (by decide)
    (by decide) (by decide)
  revert hstays
  decide

/-- Of two messages that one sweep puts back, the earlier one stands in front of
the later one exactly if its hold ended after that of the later one. -/
theorem Reached.returned_in_order_iff (reached : Reached stamps broker)
    (hbound : stamps ≤ UInt32.size)
    (found : broker.queues.find? id = some queue) {now : Timestamp}
    {first second : Message} {firstEnd secondEnd : Timestamp}
    (hfirst : first ∈ queue.overdue now) (hsecond : second ∈ queue.overdue now)
    (hfirstEnd : first.heldUntil = some firstEnd)
    (hsecondEnd : second.heldUntil = some secondEnd)
    (hfirstBack : first.returned ∈ (queue.sweepUnconfirmed now).1.messages)
    (hsecondBack : second.returned ∈ (queue.sweepUnconfirmed now).1.messages)
    (hearlier : first.tag < second.tag) :
    [first.returned, second.returned].Sublist
        (queue.sweepUnconfirmed now).1.messages ↔
      secondEnd < firstEnd := by
  obtain ⟨⟨row, hkeeps⟩, hcapacity, hbounded⟩ :=
    reached.keeps_bounded hbound found
  have hapart : first ≠ second := by
    rintro rfl
    exact Nat.lt_irrefl _ hearlier
  have hafter : ¬ second.tag.toNat < first.tag.toNat := Nat.lt_asymm hearlier
  rw [hkeeps.returned_order hcapacity hbounded hfirst hsecond hfirstBack
    hsecondBack hapart]
  unfold Message.EndsBefore Message.holdEnd
  rw [hfirstEnd, hsecondEnd]
  change secondEnd.toNat < firstEnd.toNat ∨ secondEnd.toNat = firstEnd.toNat ∧
    second.tag.toNat < first.tag.toNat ↔ secondEnd.toNat < firstEnd.toNat
  omega

/-- The hold on the earlier message is the longer one. -/
theorem Reached.returned_in_order_iff_longer :
    (let broker := (idle .default ⟨0⟩).run [
      .createQueue "jobs" ⟨10, 64, ⟨true, false, false, false⟩⟩,
      .push ⟨1⟩ ⟨[1], 1⟩ 0, .push ⟨1⟩ ⟨[2], 2⟩ 0, .pop ⟨1⟩ 20, .pop ⟨1⟩ 10]
    ∃ queue, broker.queues.find? ⟨1⟩ = some queue ∧
      [Message.mk ⟨[1], 1⟩ ⟨0⟩ none none, ⟨⟨[2], 2⟩, ⟨1⟩, none, none⟩].Sublist
        (queue.sweepUnconfirmed ⟨20⟩).1.messages) := by
  have hidle : Reached 0 (idle .default ⟨0⟩) :=
    .start (start_of_sound (by decide))
  intro broker
  have reached : Reached _ broker := hidle.run _
  refine ⟨_, rfl, ?_⟩
  have horder := @Reached.returned_in_order_iff broker _ ⟨1⟩ _ reached
    (by decide) rfl ⟨20⟩ ⟨⟨[1], 1⟩, ⟨0⟩, none, some ⟨20⟩⟩
    ⟨⟨[2], 2⟩, ⟨1⟩, none, some ⟨10⟩⟩ ⟨20⟩ ⟨10⟩ (by decide) (by decide) rfl rfl
    (by decide) (by decide) (by decide)
  exact horder.mpr (by decide)

/-- Messages held for the same time come back in the reverse of the order in
which they were pushed. -/
theorem not_returned_in_order :
    ¬ ∀ stamps broker, Reached stamps broker → stamps ≤ UInt32.size →
      ∀ id queue, broker.queues.find? id = some queue → ∀ now,
        ∀ first ∈ queue.overdue now, ∀ second ∈ queue.overdue now,
          first.returned ∈ (queue.sweepUnconfirmed now).1.messages →
          second.returned ∈ (queue.sweepUnconfirmed now).1.messages →
          first.tag < second.tag →
            [first.returned, second.returned].Sublist
              (queue.sweepUnconfirmed now).1.messages := by
  intro hall
  have hidle : Reached 0 (idle .default ⟨0⟩) :=
    .start (start_of_sound (by decide))
  have hordered := hall _ _ (hidle.run [
    .createQueue "jobs" ⟨10, 64, ⟨true, false, false, false⟩⟩,
    .push ⟨1⟩ ⟨[1], 1⟩ 0, .push ⟨1⟩ ⟨[2], 2⟩ 0, .pop ⟨1⟩ 10, .pop ⟨1⟩ 10])
    (by decide) ⟨1⟩ _ rfl ⟨10⟩ ⟨⟨[1], 1⟩, ⟨0⟩, none, some ⟨10⟩⟩ (by decide)
    ⟨⟨[2], 2⟩, ⟨1⟩, none, some ⟨10⟩⟩ (by decide) (by decide) (by decide)
    (by decide)
  revert hordered
  decide

end Broker

end MessageBroker
