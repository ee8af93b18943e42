import MessageBroker.Queue.Sweep

/-! What one operation may do to the messages of a queue. -/

namespace MessageBroker.Queue

/-- The ways a push can end: too large, passed on, buffered, or no room. -/
theorem push_cases (queue : Queue) (clock : TagClock) (payload : Payload)
    (timeToLive : UInt32) :
    (queue.isTooLarge payload = true ∧
      queue.push clock payload timeToLive =
        .refused (queue, clock)
          (.tooLarge payload.size queue.settings.maxMessageSize)) ∨
    (queue.isTooLarge payload = false ∧
      queue.messageSubscribers.isEmpty = false ∧
      queue.push clock payload timeToLive = {
        state := (queue.dispatched, clock.stamped)
        result := .ok ()
        signals := queue.dispatchSignals (.stamp clock payload timeToLive) ++
          queue.noticeSignals }) ∨
    (queue.isTooLarge payload = false ∧
      queue.messageSubscribers.isEmpty = true ∧ queue.ensureRoom.2 = true ∧
      queue.push clock payload timeToLive = {
        state := (queue.ensureRoom.1.enterNewest
          (.stamp clock payload timeToLive), clock.stamped)
        result := .ok ()
        signals := queue.noticeSignals }) ∨
    (queue.isTooLarge payload = false ∧
      queue.messageSubscribers.isEmpty = true ∧ queue.ensureRoom.2 = false ∧
      queue.push clock payload timeToLive =
        .refused (queue.ensureRoom.1, clock) (.full queue.name)) := by
  unfold push
  cases hlarge : queue.isTooLarge payload with
  | true => simp
  | false =>
      cases hnobody : queue.messageSubscribers.isEmpty with
      | false => simp
      | true => cases hroom : queue.ensureRoom.2 <;> simp [hroom]

theorem push_clock_of_ok {queue : Queue} {clock : TagClock} {payload : Payload}
    {timeToLive : UInt32}
    (haccepted : (queue.push clock payload timeToLive).result = .ok ()) :
    (queue.push clock payload timeToLive).state.2 = clock.stamped := by
  rcases queue.push_cases clock payload timeToLive with
    ⟨-, hpush⟩ | ⟨-, -, hpush⟩ | ⟨-, -, -, hpush⟩ | ⟨-, -, -, hpush⟩
  · rw [hpush] at haccepted
    cases haccepted
  · rw [hpush]
  · rw [hpush]
  · rw [hpush] at haccepted
    cases haccepted

theorem push_clock_of_error {queue : Queue} {clock : TagClock}
    {payload : Payload} {timeToLive : UInt32} {rejection : Rejection}
    (hrefused : (queue.push clock payload timeToLive).result =
      .error rejection) :
    (queue.push clock payload timeToLive).state.2 = clock := by
  rcases queue.push_cases clock payload timeToLive with
    ⟨-, hpush⟩ | ⟨-, -, hpush⟩ | ⟨-, -, -, hpush⟩ | ⟨-, -, -, hpush⟩
  · rw [hpush]
    rfl
  · rw [hpush] at hrefused
    cases hrefused
  · rw [hpush] at hrefused
    cases hrefused
  · rw [hpush]
    rfl

/-- A change of the messages that stamps so many tags. -/
inductive Turn (clock : TagClock) (queue : Queue) : Nat → Queue → Prop
  | push (payload : Payload) (timeToLive : UInt32)
      (accepted : (queue.push clock payload timeToLive).result = .ok ()) :
      Turn clock queue 1 (queue.push clock payload timeToLive).state.1
  | refuse (payload : Payload) (timeToLive : UInt32) (rejection : Rejection)
      (refused : (queue.push clock payload timeToLive).result =
        .error rejection) :
      Turn clock queue 0 (queue.push clock payload timeToLive).state.1
  | pop (holdTime : UInt32) :
      Turn clock queue 0 (queue.pop holdTime clock.now).2
  | confirm {tag : Tag} {next : Queue} (confirmed : queue.confirm tag = .ok next) :
      Turn clock queue 0 next
  | purge : Turn clock queue 0 queue.purge.1
  | refill {message : Message} (tag : message.tag = clock.nextTag)
      (free : message.heldUntil = none) :
      Turn clock queue 1 (queue.refill message)

end MessageBroker.Queue
