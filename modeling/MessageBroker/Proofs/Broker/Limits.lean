import MessageBroker.Proofs.Broker.Refusal

/-! How much a queue can have: its settings lie within the configuration, and
what it buffers and holds lies within its settings. -/

namespace MessageBroker

namespace Queue

variable {queue : Queue} {row : List (Handle × Message)}

/-- The limits that a configuration sets to queues, and a queue to its
messages. -/
structure Bounded (config : Config) (queue : Queue) : Prop where
  maxMessages : 1 ≤ queue.settings.maxMessages ∧
    queue.settings.maxMessages ≤ config.maxQueueMessages
  maxMessageSize : 1 ≤ queue.settings.maxMessageSize ∧
    queue.settings.maxMessageSize ≤ config.maxMessageSize
  size : queue.size = queue.messages.length
  buffered : queue.messages.length ≤ queue.settings.maxMessages.toNat
  payloads : ∀ message ∈ queue.messages ++ queue.heldMessages,
    message.payload.size ≤ queue.settings.maxMessageSize.toNat

theorem admits_iff {message : Message} :
    queue.Admits message ↔
      message.payload.size ≤ queue.settings.maxMessageSize.toNat := by
  unfold Admits isTooLarge
  rw [decide_eq_false_iff_not, Nat.not_lt]

theorem Buffers.push_ne_full (h : queue.Buffers row)
    (hcapacity : 0 < queue.capacity)
    (hforced : queue.settings.flags.forcePush = true) (clock : TagClock)
    (payload : Payload) (timeToLive : UInt32) (name : String) :
    (queue.push clock payload timeToLive).result ≠ .error (.full name) := by
  have hroom := h.hasRoom_iff.mpr (.inr ⟨hforced, hcapacity⟩)
  rcases queue.push_cases clock payload timeToLive with
    ⟨-, hpush⟩ | ⟨-, -, hpush⟩ | ⟨-, -, -, hpush⟩ | ⟨-, -, hnone, -⟩
  · rw [hpush]
    exact nofun
  · rw [hpush]
    exact nofun
  · rw [hpush]
    exact nofun
  · rw [hroom] at hnone
    cases hnone

end Queue

namespace Broker

variable {broker : Broker} {stamps : Nat}

theorem bounded_of_limited {config : Config} {queue : Queue}
    (hproper : IsProperQueue config queue) (hlimited : queue.IsLimited) :
    queue.Bounded config := by
  obtain ⟨row, hrow⟩ := hlimited.row
  have hlength : queue.messages.length = row.length := by
    rw [hrow.messages_eq, List.length_map]
  obtain ⟨hmessages, hsize⟩ := queueFault?_eq_none_iff.mp hproper.settings
  refine ⟨hmessages, hsize, hrow.size_eq.trans hlength.symm, ?_, ?_⟩
  · rw [hlength]
    exact hlimited.bounds hrow
  · intro message hmem
    rcases List.mem_append.mp hmem with hbuffered | hheld
    · exact Queue.admits_iff.mp (hlimited.buffered message hbuffered)
    · exact Queue.admits_iff.mp (hlimited.held message hheld)

theorem Reached.push_ne_full (reached : Reached stamps broker) {id : QueueId}
    {queue : Queue} (found : broker.queues.find? id = some queue)
    (hforced : queue.settings.flags.forcePush = true) (payload : Payload)
    (timeToLive : UInt32) (name : String) :
    (broker.perform (.push id payload timeToLive)).result ≠
      .error (.rejected (.full name)) := by
  obtain ⟨row, hrow⟩ := (reached.limited id queue found).row
  have hcapacity := capacity_pos (reached.listed.queues.proper id queue found)
  have hpushed := hrow.push_ne_full hcapacity hforced broker.clock payload
    timeToLive name
  unfold Broker.perform push
  dsimp only
  rw [found]
  unfold Result.reply Outcome.lift
  dsimp only
  cases hresult : (queue.push broker.clock payload timeToLive).result with
  | ok value => exact nofun
  | error rejection =>
      intro hfull
      cases hfull
      exact hpushed hresult

/-- Whatever has been pushed, put back or restored, every queue keeps to its
limits, and one that evicts turns no message away for want of room. -/
theorem Reached.queues_bounded (reached : Reached stamps broker) :
    (broker.queues.All fun _ queue => queue.Bounded broker.config) ∧
    ∀ id queue, broker.queues.find? id = some queue →
      queue.settings.flags.forcePush = true →
      ∀ payload timeToLive name,
        (broker.perform (.push id payload timeToLive)).result ≠
          .error (.rejected (.full name)) := by
  constructor
  · intro id queue found
    exact bounded_of_limited (reached.listed.queues.proper id queue found)
      (reached.limited id queue found)
  · intro id queue found hforced payload timeToLive name
    exact reached.push_ne_full found hforced payload timeToLive name

/-- A message that comes back into a full queue takes the place of the oldest
one there. -/
theorem Reached.queues_bounded_redelivered :
    (let broker := (idle .default ⟨0⟩).run [
      .createQueue "jobs" ⟨2, 64, ⟨false, true, false, false⟩⟩,
      .push ⟨1⟩ ⟨[1], 1⟩ 0,
      .pop ⟨1⟩ 10,
      .push ⟨1⟩ ⟨[2], 2⟩ 0,
      .push ⟨1⟩ ⟨[3], 3⟩ 0,
      .tick ⟨10⟩]
    broker.messages.map (fun message => message.payload.bytes) = [[1], [3]] ∧
    (broker.queues.All fun _ queue => queue.Bounded broker.config) ∧
    (broker.perform (.push ⟨1⟩ ⟨[4], 4⟩ 0)).result ≠
      .error (.rejected (.full "jobs"))) := by
  have hidle : Reached 0 (idle .default ⟨0⟩) :=
    .start (start_of_sound (by decide))
  intro broker
  have reached : Reached _ broker := hidle.run _
  obtain ⟨hbounded, htaken⟩ := reached.queues_bounded
  exact ⟨rfl, hbounded, htaken ⟨1⟩ _ rfl rfl _ _ _⟩

end Broker

end MessageBroker
