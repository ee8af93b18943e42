import MessageBroker.Proofs.Queue.Buffer
import MessageBroker.Proofs.Queue.Turn

/-! Messages come and go, and the members and bindings of the queue stay. -/

namespace MessageBroker.Queue

/-- The same queue, but for its messages. -/
def Refilled (before after : Queue) : Prop :=
  ∃ buffer expiring held holdDeadlines, after = {
    before with
    buffer := buffer
    expiring := expiring
    held := held
    holdDeadlines := holdDeadlines
  }

namespace Refilled

variable {first middle last : Queue}

theorem refl (queue : Queue) : Refilled queue queue := ⟨_, _, _, _, rfl⟩

theorem trans (hfirst : Refilled first middle)
    (hsecond : Refilled middle last) : Refilled first last := by
  obtain ⟨_, _, _, _, rfl⟩ := hfirst
  obtain ⟨_, _, _, _, rfl⟩ := hsecond
  exact ⟨_, _, _, _, rfl⟩

theorem id_eq (h : Refilled first last) : last.id = first.id := by
  obtain ⟨_, _, _, _, rfl⟩ := h
  rfl

theorem settings_eq (h : Refilled first last) :
    last.settings = first.settings := by
  obtain ⟨_, _, _, _, rfl⟩ := h
  rfl

end Refilled

theorem Rebuffered.refilled {before after : Queue}
    (h : Rebuffered before after) : Refilled before after := by
  obtain ⟨_, _, rfl⟩ := h
  exact ⟨_, _, _, _, rfl⟩

theorem refilled_hold (queue : Queue) (message : Message)
    (deadline : Timestamp) : Refilled queue (queue.hold message deadline) :=
  ⟨_, _, _, _, rfl⟩

theorem refilled_forgetHold (queue : Queue) (deadline : Timestamp) (tag : Tag) :
    Refilled queue (queue.forgetHold deadline tag) :=
  ⟨_, _, _, _, rfl⟩

theorem rebuffered_refill (queue : Queue) (message : Message) :
    Rebuffered queue (queue.refill message) := by
  unfold refill
  split
  · exact .refl queue
  · dsimp only
    split
    · exact (rebuffered_ensureRoom queue).trans (rebuffered_enterNewest _ _)
    · exact rebuffered_ensureRoom queue

theorem refilled_refill (queue : Queue) (message : Message) :
    Refilled queue (queue.refill message) :=
  (rebuffered_refill queue message).refilled

theorem refilled_pop (queue : Queue) (holdTime : UInt32) (now : Timestamp) :
    Refilled queue (queue.pop holdTime now).2 := by
  unfold pop
  split
  · exact .refl queue
  · rename_i message rest htake
    split
    · exact (rebuffered_takeOldest htake).refilled
    · exact (rebuffered_takeOldest htake).refilled.trans (refilled_hold _ _ _)

theorem refilled_confirm {queue next : Queue} {tag : Tag}
    (hconfirm : queue.confirm tag = .ok next) : Refilled queue next := by
  unfold confirm at hconfirm
  split at hconfirm
  · cases hconfirm
  · cases hconfirm
    exact ⟨_, _, _, _, rfl⟩

theorem refilled_endHold (now : Timestamp) (state : Queue × SweepStats)
    (hold : Timestamp × Tag) :
    Refilled state.1 (endHold now state hold).1 := by
  obtain ⟨queue, stats⟩ := state
  obtain ⟨deadline, tag⟩ := hold
  unfold endHold
  dsimp only
  split
  · exact ⟨_, _, _, _, rfl⟩
  · split
    · exact refilled_forgetHold _ _ _
    · split
      · exact ((rebuffered_ensureRoom queue).refilled.trans
          (refilled_forgetHold _ _ _)).trans (rebuffered_enterOldest _ _).refilled
      · exact (rebuffered_ensureRoom queue).refilled

theorem refilled_endHolds (now : Timestamp) (state : Queue × SweepStats)
    (due : List (Timestamp × Tag)) :
    Refilled state.1 (due.foldl (endHold now) state).1 := by
  induction due generalizing state with
  | nil => exact .refl state.1
  | cons hold rest ih =>
      exact (refilled_endHold now state hold).trans (ih (endHold now state hold))

theorem refilled_sweep (queue : Queue) (now : Timestamp) :
    Refilled queue (queue.sweep now).1 :=
  (rebuffered_sweepExpired queue now).refilled.trans
    (refilled_endHolds now (_, .zero) _)

/-- The same identifier, members and bindings. The turn among the message
subscribers may have passed on. -/
structure SameMembers (before after : Queue) : Prop where
  id : after.id = before.id
  settings : after.settings = before.settings
  declared : after.declared = before.declared
  messageSubscribers : ∀ client,
    client ∈ after.messageSubscribers.items ↔
      client ∈ before.messageSubscribers.items
  notifySubscribers : after.notifySubscribers = before.notifySubscribers
  bindings : after.bindings = before.bindings

theorem Refilled.sameMembers {before after : Queue}
    (h : Refilled before after) : SameMembers before after := by
  obtain ⟨_, _, _, _, rfl⟩ := h
  exact ⟨rfl, rfl, rfl, fun _ => Iff.rfl, rfl, rfl⟩

theorem sameMembers_dispatched (queue : Queue) :
    SameMembers queue queue.dispatched := by
  unfold dispatched
  split
  · exact ⟨rfl, rfl, rfl, fun _ => MemberSet.mem_items_rotate, rfl, rfl⟩
  · exact (Refilled.refl queue).sameMembers

theorem sameMembers_push (queue : Queue) (clock : TagClock) (payload : Payload)
    (timeToLive : UInt32) :
    SameMembers queue (queue.push clock payload timeToLive).state.1 := by
  rcases queue.push_cases clock payload timeToLive with
    ⟨-, hpush⟩ | ⟨-, -, hpush⟩ | ⟨-, -, -, hpush⟩ | ⟨-, -, -, hpush⟩ <;>
    rw [hpush]
  · exact (Refilled.refl queue).sameMembers
  · exact sameMembers_dispatched queue
  · exact ((rebuffered_ensureRoom queue).trans
      (rebuffered_enterNewest _ _)).refilled.sameMembers
  · exact (rebuffered_ensureRoom queue).refilled.sameMembers

theorem Turn.sameMembers {clock : TagClock} {queue next : Queue} {stamps : Nat}
    (h : queue.Turn clock stamps next) : SameMembers queue next := by
  cases h with
  | push payload timeToLive => exact sameMembers_push queue clock _ _
  | refuse payload timeToLive => exact sameMembers_push queue clock _ _
  | pop holdTime => exact (refilled_pop queue _ _).sameMembers
  | confirm confirmed => exact (refilled_confirm confirmed).sameMembers
  | purge => exact (rebuffered_purge queue).refilled.sameMembers
  | refill => exact (refilled_refill queue _).sameMembers

end MessageBroker.Queue
