import Mathlib.Data.List.DropRight
import MessageBroker.Proofs.Queue.Coherence

/-! All that a push does to a queue within its limits: whether the payload is
accepted, what the queue is like then, and who is told. -/

namespace MessageBroker.Queue

def verdict (queue : Queue) (payload : Payload) : Except Rejection Unit :=
  if queue.settings.maxMessageSize.toNat < payload.size then
    .error (.tooLarge payload.size queue.settings.maxMessageSize)
  else if queue.messageSubscribers.items = [] ∧
      queue.messages.length = queue.settings.maxMessages.toNat ∧
      queue.settings.flags.forcePush = false then
    .error (.full queue.name)
  else .ok ()

def accepting (queue : Queue) (message : Message) : Queue :=
  if queue.messageSubscribers.isEmpty then
    queue.ensureRoom.1.enterNewest message
  else queue.dispatched

def acceptingSignals (queue : Queue) (message : Message) : List Signal :=
  queue.dispatchSignals message ++ queue.noticeSignals

/-- Every push goes by the verdict on its payload. A refusal leaves no trace. -/
def FollowsVerdict (queue : Queue) : Prop :=
  ∀ clock payload timeToLive, queue.push clock payload timeToLive =
    match queue.verdict payload with
    | .error rejection => .refused (queue, clock) rejection
    | .ok () => {
        state := (queue.accepting (.stamp clock payload timeToLive),
          clock.stamped)
        result := .ok ()
        signals := queue.acceptingSignals (.stamp clock payload timeToLive) }

/-- A queue takes a message in by passing it on to its message subscribers, to
all of them or to the one whose turn it is, or by buffering it if it has
none. -/
inductive Takes (queue : Queue) (message : Message) :
    List ClientId → Queue → Prop
  | passOn (subscribed : queue.messageSubscribers.items ≠ [])
      (broadcasting : queue.settings.flags.roundRobin = false) :
      Takes queue message queue.messageSubscribers.items queue
  | passOnInTurn {front : List ClientId} {last : ClientId}
      (subscribed : queue.messageSubscribers.items = front ++ [last])
      (rotating : queue.settings.flags.roundRobin = true) :
      Takes queue message [last]
        { queue with messageSubscribers := queue.messageSubscribers.rotate }
  | buffer {next : Queue} (unsubscribed : queue.messageSubscribers.items = [])
      (others : Rebuffered queue next)
      (messages : next.messages =
        (queue.messages ++ [message]).rtake queue.settings.maxMessages.toNat)
      (indexed : next.ExpiringExact) :
      Takes queue message [] next

variable {queue : Queue} {row : List (Handle × Message)} {message : Message}

theorem isEmpty_messageSubscribers_iff :
    queue.messageSubscribers.isEmpty = true ↔
      queue.messageSubscribers.items = [] :=
  List.isEmpty_iff

theorem isTooLarge_iff {payload : Payload} :
    queue.isTooLarge payload = true ↔
      queue.settings.maxMessageSize.toNat < payload.size :=
  decide_eq_true_iff

theorem verdict_eq_ok_iff {payload : Payload} :
    queue.verdict payload = .ok () ↔
      ¬ queue.settings.maxMessageSize.toNat < payload.size ∧
      ¬ (queue.messageSubscribers.items = [] ∧
        queue.messages.length = queue.settings.maxMessages.toNat ∧
        queue.settings.flags.forcePush = false) := by
  unfold verdict
  split
  · simp [*]
  · split <;> simp [*]

theorem receivers_eq_nil (hnobody : queue.messageSubscribers.items = []) :
    queue.receivers = [] := by
  have hrotated : queue.messageSubscribers.rotate.items = [] := by
    show MemberSet.rotateItems _ = []
    rw [hnobody]
    rfl
  unfold receivers MemberSet.first?
  rw [hrotated, hnobody]
  exact ite_self _

theorem receivers_inTurn {front : List ClientId} {last : ClientId}
    (hitems : queue.messageSubscribers.items = front ++ [last])
    (hrotating : queue.settings.flags.roundRobin = true) :
    queue.receivers = [last] := by
  have hrotated : queue.messageSubscribers.rotate.items = last :: front := by
    show MemberSet.rotateItems _ = _
    rw [hitems]
    simp [MemberSet.rotateItems]
  unfold receivers MemberSet.first?
  rw [if_pos hrotating, hrotated]
  rfl

namespace Buffers

/-- A queue within its limits has no room exactly if it is full and keeps what
it has. -/
theorem lacksRoom_iff (h : queue.Buffers row)
    (hbounded : queue.size ≤ queue.capacity) (hpositive : 0 < queue.capacity) :
    queue.ensureRoom.2 = false ↔
      queue.messages.length = queue.settings.maxMessages.toNat ∧
        queue.settings.flags.forcePush = false := by
  rw [← Bool.not_eq_true, h.hasRoom_iff, h.length_messages]
  show _ ↔ queue.size = queue.capacity ∧ _
  constructor
  · intro hnone
    refine ⟨Nat.le_antisymm hbounded ?_, ?_⟩
    · exact Nat.not_lt.mp fun hfits => hnone (.inl hfits)
    · exact Bool.not_eq_true _ ▸ fun hforced => hnone (.inr ⟨hforced, hpositive⟩)
  · rintro ⟨hfull, hkept⟩ (hfits | ⟨hforced, -⟩)
    · omega
    · rw [hkept] at hforced
      cases hforced

theorem followsVerdict (h : queue.Buffers row)
    (hbounded : queue.size ≤ queue.capacity)
    (hpositive : 0 < queue.capacity) : queue.FollowsVerdict := by
  intro clock payload timeToLive
  unfold verdict accepting acceptingSignals
  rcases queue.push_cases clock payload timeToLive with
    ⟨hlarge, hpush⟩ | ⟨hfits, hsomebody, hpush⟩ |
    ⟨hfits, hnobody, hroom, hpush⟩ | ⟨hfits, hnobody, hroom, hpush⟩
  · rw [hpush, if_pos (isTooLarge_iff.mp hlarge)]
  · rw [← Bool.not_eq_true, isTooLarge_iff] at hfits
    have hsome : ¬ queue.messageSubscribers.items = [] := by
      rw [← isEmpty_messageSubscribers_iff, hsomebody]
      exact Bool.false_ne_true
    rw [hpush, if_neg hfits, if_neg fun hfull => hsome hfull.1, hsomebody]
    rfl
  · rw [← Bool.not_eq_true, isTooLarge_iff] at hfits
    have hspace : ¬ (queue.messages.length =
        queue.settings.maxMessages.toNat ∧
          queue.settings.flags.forcePush = false) := by
      rw [← h.lacksRoom_iff hbounded hpositive, hroom]
      exact nofun
    have hnone := isEmpty_messageSubscribers_iff.mp hnobody
    rw [hpush, if_neg hfits, if_neg fun hfull => hspace hfull.2, hnobody]
    unfold dispatchSignals
    rw [receivers_eq_nil hnone]
    rfl
  · rw [← Bool.not_eq_true, isTooLarge_iff] at hfits
    have hfull := (h.lacksRoom_iff hbounded hpositive).mp hroom
    rw [hpush, if_neg hfits,
      if_pos ⟨isEmpty_messageSubscribers_iff.mp hnobody, hfull⟩,
      h.ensureRoom_eq_self hpositive hroom]

theorem messages_enterNewest (h : queue.Buffers row)
    (hroom : queue.ensureRoom.2 = true) (message : Message) :
    (queue.ensureRoom.1.enterNewest message).messages =
      (queue.messages ++ [message]).rtake queue.settings.maxMessages.toNat := by
  have hlength := h.length_messages
  have hexcess : queue.excess =
      queue.messages.length + 1 - queue.settings.maxMessages.toNat := by
    show _ = _ - queue.capacity
    unfold excess
    rw [hlength]
    split
    · rfl
    · rename_i hkept
      rcases h.hasRoom_iff.mp hroom with hfits | ⟨hforced, -⟩
      · omega
      · exact absurd hforced hkept
  have hpositive : 0 < queue.settings.maxMessages.toNat := by
    show 0 < queue.capacity
    rcases h.hasRoom_iff.mp hroom with hfits | ⟨-, hpositive⟩
    · exact Nat.zero_lt_of_lt hfits
    · exact hpositive
  rw [(h.ensureRoom.enterNewest message).messages_eq, List.map_append,
    List.map_drop, ← h.messages_eq, hexcess]
  unfold List.rtake
  rw [List.length_append, List.length_singleton,
    List.drop_append_of_le_length (by omega)]
  rfl

theorem takes (h : queue.Buffers row)
    (hbounded : queue.size ≤ queue.capacity) (hpositive : 0 < queue.capacity)
    {payload : Payload} (haccepted : queue.verdict payload = .ok ())
    (message : Message) :
    queue.Takes message queue.receivers (queue.accepting message) := by
  obtain ⟨-, hfull⟩ := verdict_eq_ok_iff.mp haccepted
  unfold accepting
  split
  · rename_i hnobody
    have hnone := isEmpty_messageSubscribers_iff.mp hnobody
    have hroom : queue.ensureRoom.2 = true := by
      rw [← Bool.not_eq_false, h.lacksRoom_iff hbounded hpositive]
      exact fun hlacks => hfull ⟨hnone, hlacks⟩
    rw [receivers_eq_nil hnone]
    exact .buffer hnone
      ((rebuffered_ensureRoom queue).trans (rebuffered_enterNewest _ _))
      (h.messages_enterNewest hroom message)
      (h.ensureRoom.enterNewest message).expiringExact
  · rename_i hsomebody
    rw [isEmpty_messageSubscribers_iff] at hsomebody
    unfold dispatched
    split
    · rename_i hrotating
      obtain ⟨front, last, hitems⟩ :=
        (List.eq_nil_or_concat' _).resolve_left hsomebody
      rw [receivers_inTurn hitems hrotating]
      exact .passOnInTurn hitems hrotating
    · rename_i hbroadcasting
      unfold receivers
      rw [if_neg hbroadcasting]
      exact .passOn hsomebody (Bool.not_eq_true _ ▸ hbroadcasting)

end Buffers

end MessageBroker.Queue
