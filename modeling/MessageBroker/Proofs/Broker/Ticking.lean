import MessageBroker.Proofs.Broker.Returning
import MessageBroker.Proofs.Collection.Keep
import MessageBroker.Proofs.Queue.Settled

/-! Ticks that are repeated. The first tick at a time does all that there is to do
at that time, so that the same tick once more finds every queue settled. -/

namespace MessageBroker.Broker

variable {broker : Broker} {stamps : Nat} {now : Timestamp}

/-- A tick does at once whatever there is to do at its time. -/
structure TicksOnce (broker : Broker) (now : Timestamp) : Prop where
  /-- The same tick again leaves the broker as it is. -/
  again : ((broker.tick now).state.tick now).state = (broker.tick now).state
  report : ((broker.tick now).state.tick now).result = .ok .zero
  buffered : ∀ id queue, (broker.tick now).state.queues.find? id = some queue →
    ∀ message ∈ queue.messages, ∀ deadline,
      message.expiresAt = some deadline → now < deadline
  held : ∀ id queue, (broker.tick now).state.queues.find? id = some queue →
    ∀ message ∈ queue.heldMessages, ∀ deadline,
      message.heldUntil = some deadline → deadline ≤ now →
        queue.isFull = true ∧ queue.settings.flags.forcePush = false
  silent : (broker.tick now).signals = []

/-- Every queue is such that a sweep at this time does nothing to it. -/
def IsSwept (broker : Broker) (now : Timestamp) : Prop :=
  broker.queues.All fun _ queue => queue.sweep now = (queue, .zero)

theorem Reached.settled_tick (reached : Reached stamps broker)
    (hbound : stamps ≤ UInt32.size) (now : Timestamp) :
    (broker.tick now).state.queues.All fun _ queue => queue.Settled now := by
  intro id swept hswept
  obtain ⟨queue, found, rfl⟩ := Option.map_eq_some_iff.mp
    ((Registry.find?_mapEntities _ _ _).symm.trans hswept)
  obtain ⟨⟨row, hkeeps⟩, hcapacity, hbounded⟩ :=
    reached.keeps_bounded hbound found
  exact hkeeps.settled_sweep hcapacity hbounded now

theorem Reached.isSwept_tick (reached : Reached stamps broker)
    (hbound : stamps ≤ UInt32.size) (now : Timestamp) :
    (broker.tick now).state.IsSwept now := by
  intro id queue found
  have hticked := (reached.perform (.tick now)).stocked hbound
  obtain ⟨row, hkeeps⟩ := hticked.keeps id queue found
  exact hkeeps.sweep_of_settled (reached.settled_tick hbound now id queue found)

theorem foldl_add_of_zero {reports : List SweepStats}
    (hnothing : ∀ report ∈ reports, report = .zero) :
    reports.foldl SweepStats.add .zero = .zero := by
  induction reports with
  | nil => rfl
  | cons report rest ih =>
      obtain ⟨rfl, hrest⟩ := List.forall_mem_cons.mp hnothing
      exact ih hrest

namespace IsSwept

theorem state_tick (h : broker.IsSwept now) :
    (broker.tick now).state =
      { broker with clock := broker.clock.advance now } := by
  have hqueues : (broker.queues.mapEntities fun queue => (queue.sweep now).1) =
      broker.queues :=
    Registry.mapEntities_eq_self fun id queue found =>
      congrArg Prod.fst (h id queue found)
  unfold tick
  rw [Outcome.state_done, hqueues]

theorem result_tick (h : broker.IsSwept now) :
    (broker.tick now).result = .ok .zero := by
  unfold tick
  rw [Outcome.result_done]
  refine congrArg Except.ok (foldl_add_of_zero fun report hmem => ?_)
  obtain ⟨queue, hqueue, rfl⟩ := List.mem_map.mp hmem
  obtain ⟨id, found⟩ := Registry.mem_toList.mp hqueue
  exact congrArg Prod.snd (h id queue found)

end IsSwept

/-- A second tick at the time of the first changes nothing and has nothing to
report. After the first nothing that has expired is buffered, and a hold that is
over lasts only in a full queue that evicts nothing. No tick delivers anything. -/
theorem Reached.ticksOnce (reached : Reached stamps broker)
    (hbound : stamps ≤ UInt32.size) (now : Timestamp) :
    broker.TicksOnce now := by
  have hswept := reached.isSwept_tick hbound now
  have hsettled := reached.settled_tick hbound now
  refine ⟨hswept.state_tick, hswept.result_tick, ?buffered, ?held, rfl⟩
  case buffered =>
    intro id queue found message hmem deadline hdeadline
    have halive := (hsettled id queue found).buffered message hmem
    rw [Message.isExpired, hdeadline, Option.any_some,
      decide_eq_false_iff_not, Timestamp.le_iff] at halive
    rw [Timestamp.lt_iff]
    omega
  case held =>
    intro id queue found message hmem deadline hdeadline hover
    have hisOver : message.isHoldOver now = true := by
      rw [Message.isHoldOver, hdeadline, Option.any_some]
      exact decide_eq_true hover
    exact ((hsettled id queue found).held message hmem hisOver).2

/-- Two queues in which holds are over: in the first one message is taken back and
another finds no room, in the second one message takes the place of another. A
third queue has a message that has expired. -/
theorem Reached.ticksOnce_crowded :
    (let broker := (idle .default ⟨0⟩).run [
      .createQueue "jobs" ⟨2, 64, ⟨true, false, false, false⟩⟩,
      .createQueue "news" ⟨1, 64, ⟨true, true, false, false⟩⟩,
      .createQueue "logs" ⟨4, 64, ⟨true, false, false, false⟩⟩,
      .push ⟨1⟩ ⟨[1], 1⟩ 0, .push ⟨1⟩ ⟨[2], 2⟩ 0, .pop ⟨1⟩ 10, .pop ⟨1⟩ 11,
      .push ⟨1⟩ ⟨[3], 3⟩ 0, .push ⟨2⟩ ⟨[4], 4⟩ 0, .pop ⟨2⟩ 12,
      .push ⟨2⟩ ⟨[5], 5⟩ 0, .push ⟨3⟩ ⟨[6], 6⟩ 9]
    (broker.tick ⟨20⟩).result = .ok ⟨1, 2, 0⟩ ∧
      ((broker.tick ⟨20⟩).state.queues.toList.map fun queue =>
        queue.heldMessages.length) = [1, 0, 0] ∧
      broker.TicksOnce ⟨20⟩) := by
  have hidle : Reached 0 (idle .default ⟨0⟩) :=
    .start (start_of_sound (by decide))
  intro broker
  have reached : Reached _ broker := hidle.run _
  exact ⟨by decide, by decide, reached.ticksOnce (by decide) ⟨20⟩⟩

end MessageBroker.Broker
