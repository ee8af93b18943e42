import MessageBroker.Proofs.Broker.Limits
import MessageBroker.Proofs.Queue.Pushing

/-! A push from end to end, in every broker that can come about. -/

namespace MessageBroker

namespace Queue

theorem id_accepting (queue : Queue) (message : Message) :
    (queue.accepting message).id = queue.id := by
  unfold accepting dispatched
  split
  · exact (rebuffered_ensureRoom queue).refilled.id_eq
  · split <;> rfl

end Queue

namespace Queue.Takes

variable {queue next : Queue} {message : Message} {receivers : List ClientId}

theorem sublist (h : queue.Takes message receivers next) :
    receivers.Sublist queue.messageSubscribers.items := by
  cases h with
  | passOn => exact .refl _
  | passOnInTurn subscribed =>
      rw [subscribed]
      exact List.sublist_append_right _ _
  | buffer => exact List.nil_sublist _

theorem nodup (h : queue.Takes message receivers next)
    (hroles : queue.RolesApart) :
    (receivers ++ queue.notifySubscribers.items).Nodup := by
  refine List.nodup_append.mpr
    ⟨queue.messageSubscribers.nodup_items.sublist h.sublist,
      queue.notifySubscribers.nodup_items, ?_⟩
  rintro client hreceives other hnoticed rfl
  exact hroles client (h.sublist.subset hreceives) hnoticed

end Queue.Takes

namespace Broker

variable {broker : Broker} {stamps : Nat}

theorem push_eq (hnumbered : broker.Numbered) {id : QueueId} {queue : Queue}
    (found : broker.queues.find? id = some queue)
    (hfollows : queue.FollowsVerdict) (payload : Payload)
    (timeToLive : UInt32) :
    broker.push id payload timeToLive =
      match queue.verdict payload with
      | .error rejection => .refused broker (.rejected rejection)
      | .ok () => {
          state := {
            broker with
            clock := broker.clock.stamped
            queues := broker.queues.update id fun queue =>
              queue.accepting (.stamp broker.clock payload timeToLive) }
          result := .ok ()
          signals := queue.acceptingSignals
            (.stamp broker.clock payload timeToLive) } := by
  unfold push
  rw [found]
  dsimp only
  rw [hfollows]
  cases queue.verdict payload with
  | error rejection =>
      show Outcome.refused { broker with queues := broker.queues.put queue } _ = _
      rw [hnumbered.queues.put_self found]
  | ok =>
      show Outcome.mk { broker with
        clock := broker.clock.stamped
        queues := broker.queues.put _ } _ _ = _
      rw [hnumbered.queues.put_eq_update (fun queue => queue.accepting _)
        found (queue.id_accepting _)]

theorem Reached.followsVerdict (reached : Reached stamps broker) :
    broker.queues.All fun _ => Queue.FollowsVerdict := by
  intro id queue found
  have hlimited := reached.limited id queue found
  obtain ⟨row, hrow⟩ := hlimited.row
  exact hrow.followsVerdict hlimited.bounded
    (capacity_pos (reached.listed.queues.proper id queue found))

/-- All that a push into one of its queues does to a broker. -/
structure PushesExactly (broker : Broker) (id : QueueId) (queue : Queue)
    (payload : Payload) (timeToLive : UInt32) : Prop where
  verdict : (broker.push id payload timeToLive).result =
    (queue.verdict payload).mapError .rejected
  refused : ∀ rejection, queue.verdict payload = .error rejection →
    (broker.push id payload timeToLive).state = broker ∧
      (broker.push id payload timeToLive).signals = []
  /-- One tag is stamped. Receivers are handed the message, and then those who
  want to hear of pushes are told. -/
  accepted : queue.verdict payload = .ok () → ∃ receivers next,
    queue.Takes (.stamp broker.clock payload timeToLive) receivers next ∧
    (receivers ++ queue.notifySubscribers.items).Nodup ∧
    (broker.push id payload timeToLive).state = {
      broker with
      clock := broker.clock.stamped
      queues := broker.queues.update id fun _ => next } ∧
    (broker.push id payload timeToLive).signals =
      (receivers.map fun client => .deliver client
        (.message queue.name broker.clock.nextTag payload)) ++
      queue.notifySubscribers.items.map fun client =>
        .deliver client (.notice queue.name)

/-- Whatever came before, the verdict on a payload tells all that its push
does. -/
theorem Reached.push_exact (reached : Reached stamps broker) {id : QueueId}
    {queue : Queue} (found : broker.queues.find? id = some queue)
    (payload : Payload) (timeToLive : UInt32) :
    broker.PushesExactly id queue payload timeToLive := by
  have hpush := push_eq reached.consistent.numbered found
    (reached.followsVerdict id queue found) payload timeToLive
  refine {
    verdict := ?verdict
    refused := ?refused
    accepted := ?accepted
  }
  case verdict =>
    rw [hpush]
    cases queue.verdict payload <;> rfl
  case refused =>
    intro rejection hverdict
    rw [hpush, hverdict]
    exact ⟨rfl, rfl⟩
  case accepted =>
    intro hverdict
    have hlimited := reached.limited id queue found
    obtain ⟨row, hrow⟩ := hlimited.row
    have hpositive := capacity_pos (reached.listed.queues.proper id queue found)
    have htakes := hrow.takes hlimited.bounded hpositive hverdict
      (.stamp broker.clock payload timeToLive)
    have hroles := reached.consistent.memberships.roles id queue found
    rw [hpush, hverdict]
    refine ⟨_, _, htakes, htakes.nodup hroles, ?_, rfl⟩
    dsimp only
    rw [← Registry.update_const found]

/-- A queue that evicts buffers the message of a push and tells the one client
that wants to hear of it. -/
theorem Reached.push_exact_evicting :
    (let broker := (idle .default ⟨0⟩).run [
      .connect ⟨7⟩,
      .createQueue "jobs" ⟨1, 64, ⟨false, true, false, false⟩⟩,
      .subscribeQueue ⟨7⟩ ⟨1⟩ true,
      .push ⟨1⟩ ⟨[1], 1⟩ 100]
    ∃ queue, broker.queues.find? ⟨1⟩ = some queue ∧
      queue.verdict ⟨[2], 2⟩ = .ok () ∧
      broker.PushesExactly ⟨1⟩ queue ⟨[2], 2⟩ 0) := by
  have hidle : Reached 0 (idle .default ⟨0⟩) :=
    .start (start_of_sound (by decide))
  intro broker
  have reached : Reached _ broker := hidle.run _
  exact ⟨_, rfl, rfl, reached.push_exact rfl ⟨[2], 2⟩ 0⟩

end Broker

end MessageBroker
