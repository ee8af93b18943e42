import MessageBroker.Proofs.Queue.Redelivery

/-! A queue that is used by itself, under whatever tags. Its index of messages
that can expire never names a handle that has been given up. -/

namespace MessageBroker

inductive Operation where
  | push (clock : TagClock) (payload : Payload) (timeToLive : UInt32)
  | refill (message : Message)
  | pop (holdTime : UInt32) (now : Timestamp)
  | confirm (tag : Tag)
  | purge
  | sweepExpired (now : Timestamp)
  | sweepUnconfirmed (now : Timestamp)
  | rename (name : String)
  | declare (client : ClientId)
  | undeclare (client : ClientId)
  | subscribe (client : ClientId) (noticesOnly : Bool)
  | unsubscribe (client : ClientId)
  | linkRoute (route : RouteId) (key : String)
  | unlinkRoute (route : RouteId) (key : String)

namespace Queue

def apply (queue : Queue) : Operation → Queue
  | .push clock payload timeToLive =>
      (queue.push clock payload timeToLive).state.1
  | .refill message => queue.refill message
  | .pop holdTime now => (queue.pop holdTime now).2
  | .confirm tag =>
      match queue.confirm tag with
      | .ok next => next
      | .error _ => queue
  | .purge => queue.purge.1
  | .sweepExpired now => (queue.sweepExpired now).1
  | .sweepUnconfirmed now => (queue.sweepUnconfirmed now).1
  | .rename name => queue.rename name
  | .declare client => queue.declare client
  | .undeclare client => queue.undeclare client
  | .subscribe client noticesOnly => queue.subscribe client noticesOnly
  | .unsubscribe client => queue.unsubscribe client
  | .linkRoute route key => queue.linkRoute route key
  | .unlinkRoute route key => queue.unlinkRoute route key

def applyAll (queue : Queue) (operations : List Operation) : Queue :=
  operations.foldl apply queue

/-- What can be found under a handle is what stands in the row, and the index
has exactly what can expire of it. -/
structure ExpiringExact (queue : Queue) : Prop where
  live : ∀ handle message,
    queue.buffer.get? handle = some message ↔
      (handle, message) ∈ queue.buffer.entries
  indexed : ∀ deadline handle,
    (deadline, handle) ∈ queue.expiring.entries ↔
      ∃ message, queue.buffer.get? handle = some message ∧
        message.expiresAt = some deadline

/-- The buffer, the messages on hold and both indexes agree, and no tag is in
use on both sides. -/
structure Coherent (queue : Queue) : Prop where
  expiring : queue.ExpiringExact
  holds : HoldsExact queue.held queue.holdDeadlines
  free : ∀ message ∈ queue.messages, message.heldUntil = none
  apart : ∀ message ∈ queue.messages, queue.held.get? message.tag = none

variable {queue : Queue} {row : List (Handle × Message)}

theorem Buffers.expiringExact (h : queue.Buffers row) : queue.ExpiringExact where
  live handle message := by
    rw [h.represents.get?_iff, h.entries_eq]
  indexed deadline handle := by
    rw [h.indexes]
    simp only [h.represents.get?_iff]

theorem Keeps.coherent (h : queue.Keeps row) : queue.Coherent where
  expiring := h.buffers.expiringExact
  holds := h.holds
  free message hmem := by
    obtain ⟨handle, hentry⟩ := h.mem_messages.mp hmem
    exact h.free _ hentry
  apart message hmem := by
    obtain ⟨handle, hentry⟩ := h.mem_messages.mp hmem
    exact h.apart _ hentry

namespace Buffers

theorem push (h : queue.Buffers row) (clock : TagClock) (payload : Payload)
    (timeToLive : UInt32) :
    ∃ row, (queue.push clock payload timeToLive).state.1.Buffers row := by
  rcases queue.push_cases clock payload timeToLive with
    ⟨-, hpush⟩ | ⟨-, -, hpush⟩ | ⟨-, -, -, hpush⟩ | ⟨-, -, -, hpush⟩ <;>
    rw [hpush]
  · exact ⟨row, h⟩
  · refine ⟨row, ?_⟩
    dsimp only
    unfold dispatched
    split
    · exact ⟨h.represents, h.indexes⟩
    · exact h
  · exact ⟨_, h.ensureRoom.enterNewest _⟩
  · exact ⟨_, h.ensureRoom⟩

theorem refill (h : queue.Buffers row) (message : Message) :
    ∃ row, (queue.refill message).Buffers row := by
  unfold Queue.refill
  split
  · exact ⟨row, h⟩
  · dsimp only
    split
    · exact ⟨_, h.ensureRoom.enterNewest message⟩
    · exact ⟨_, h.ensureRoom⟩

theorem pop (h : queue.Buffers row) (holdTime : UInt32) (now : Timestamp) :
    ∃ row, (queue.pop holdTime now).2.Buffers row := by
  unfold Queue.pop
  cases row with
  | nil =>
      rw [h.takeOldest?_nil]
      exact ⟨[], h⟩
  | cons entry rest =>
      obtain ⟨left, htake, hleft⟩ := h.takeOldest?_cons
      rw [htake]
      dsimp only
      split
      · exact ⟨rest, hleft⟩
      · exact ⟨rest, hleft.represents, hleft.indexes⟩

theorem confirm {next : Queue} {tag : Tag} (h : queue.Buffers row)
    (hconfirm : queue.confirm tag = .ok next) : next.Buffers row := by
  unfold Queue.confirm at hconfirm
  split at hconfirm
  · cases hconfirm
  · cases hconfirm
    exact ⟨h.represents, h.indexes⟩

/-- Where tags repeat, a hold may be missing by the time of its turn. -/
theorem endHolds (h : queue.Buffers row) (now : Timestamp) (stats : SweepStats)
    (due : List (Timestamp × Tag)) :
    ∃ row, (due.foldl (Queue.endHold now) (queue, stats)).1.Buffers row := by
  induction due generalizing queue row stats with
  | nil => exact ⟨row, h⟩
  | cons hold rest ih =>
      obtain ⟨left, hleft⟩ := h.endHold now stats hold
      exact ih hleft (Queue.endHold now (queue, stats) hold).2

theorem apply (h : queue.Buffers row) (operation : Operation) :
    ∃ row, (queue.apply operation).Buffers row := by
  cases operation with
  | push clock payload timeToLive => exact h.push clock payload timeToLive
  | refill message => exact h.refill message
  | pop holdTime now => exact h.pop holdTime now
  | confirm tag =>
      simp only [Queue.apply]
      split
      · rename_i next hconfirm
        exact ⟨row, h.confirm hconfirm⟩
      · exact ⟨row, h⟩
  | purge => exact ⟨[], buffers_purge queue⟩
  | sweepExpired now => exact ⟨_, h.sweepExpired now⟩
  | sweepUnconfirmed now => exact h.endHolds now .zero _
  | subscribe client noticesOnly =>
      refine ⟨row, ?_⟩
      simp only [Queue.apply, Queue.subscribe]
      split <;> exact ⟨h.represents, h.indexes⟩
  | rename | declare | undeclare | unsubscribe | linkRoute | unlinkRoute =>
      exact ⟨row, h.represents, h.indexes⟩

theorem applyAll (h : queue.Buffers row) (operations : List Operation) :
    ∃ row, (queue.applyAll operations).Buffers row := by
  induction operations generalizing queue row with
  | nil => exact ⟨row, h⟩
  | cons operation rest ih =>
      obtain ⟨left, hleft⟩ := h.apply operation
      exact ih hleft

end Buffers

end Queue

end MessageBroker
