import MessageBroker.Broker.Capture
import MessageBroker.Proofs.Queue.Members

namespace MessageBroker

def MessageSnapshot.toMessage (saved : MessageSnapshot) (tag : Tag) :
    Message where
  payload := ⟨saved.payload, Payload.uncounted⟩
  tag := tag
  expiresAt := saved.expiresAt
  heldUntil := none

namespace Queue

def refillAll (queue : Queue) (clock : TagClock) :
    List MessageSnapshot → Queue
  | [] => queue
  | saved :: rest =>
      (queue.refill (saved.toMessage clock.nextTag)).refillAll clock.stamped rest

variable {queue : Queue} {row : List (Handle × Message)}

theorem rebuffered_refillAll (queue : Queue) (clock : TagClock)
    (messages : List MessageSnapshot) :
    Rebuffered queue (queue.refillAll clock messages) := by
  induction messages generalizing queue clock with
  | nil => exact .refl queue
  | cons saved rest ih => exact (rebuffered_refill queue _).trans (ih _ _)

theorem refilled_refillAll (queue : Queue) (clock : TagClock)
    (messages : List MessageSnapshot) :
    Refilled queue (queue.refillAll clock messages) :=
  (queue.rebuffered_refillAll clock messages).refilled

theorem Buffers.refill_of_fits (h : queue.Buffers row)
    (hroom : row.length < queue.capacity) {message : Message}
    (hfits : queue.isTooLarge message.payload = false) :
    (queue.refill message).Buffers
      (row ++ [(queue.buffer.freshHandle, message)]) := by
  have hnotFull : ¬ queue.isFull = true := by
    rw [isFull_iff, h.size_eq]
    exact Nat.not_le.mpr hroom
  have hroomy : queue.ensureRoom = (queue, true) := if_neg hnotFull
  unfold Queue.refill
  rw [if_neg (ne_true_of_eq_false hfits), hroomy]
  exact h.enterNewest message

theorem Buffers.refillAll (h : queue.Buffers row) (clock : TagClock)
    {messages : List MessageSnapshot}
    (hcount : row.length + messages.length ≤ queue.capacity)
    (hsizes : ∀ saved ∈ messages,
      saved.payload.length ≤ queue.settings.maxMessageSize.toNat) :
    (queue.refillAll clock messages).messages.map Message.capture =
      (row.map fun entry => entry.2.capture) ++ messages := by
  induction messages generalizing queue row clock with
  | nil =>
      rw [List.append_nil, Queue.refillAll, h.messages_eq, List.map_map]
      rfl
  | cons saved rest ih =>
      obtain ⟨hsize, hrest⟩ := List.forall_mem_cons.mp hsizes
      have hfits : queue.isTooLarge (saved.toMessage clock.nextTag).payload =
          false := decide_eq_false (Nat.not_lt.mpr hsize)
      have hsettings := (queue.refilled_refill
        (saved.toMessage clock.nextTag)).settings_eq
      rw [List.length_cons] at hcount
      have hnext := h.refill_of_fits (by omega) hfits
      have hlater := ih hnext clock.stamped ?_ ?_
      · rw [Queue.refillAll, hlater, List.map_append, List.append_assoc]
        rfl
      · unfold capacity
        rw [hsettings, List.length_append, List.length_singleton]
        unfold capacity at hcount
        omega
      · rw [hsettings]
        exact hrest

theorem capture_refillAll_create (id : QueueId) (slots : SlotPolicy)
    (clock : TagClock) {saved : QueueSnapshot}
    (hcount : saved.messages.length ≤ saved.settings.maxMessages.toNat)
    (hsizes : ∀ message ∈ saved.messages,
      message.payload.length ≤ saved.settings.maxMessageSize.toNat) :
    ((create id saved.name saved.settings slots).refillAll clock
      saved.messages).capture = saved := by
  have hrefilled := refilled_refillAll
    (create id saved.name saved.settings slots) clock saved.messages
  have hempty := buffers_create id saved.name saved.settings slots
  have hmessages := hempty.refillAll clock
    (Nat.le_trans (Nat.le_of_eq (Nat.zero_add _)) hcount) hsizes
  obtain ⟨_, _, _, _, hfinal⟩ := hrefilled
  unfold capture
  rw [hmessages, hfinal]
  rfl

end Queue

end MessageBroker
