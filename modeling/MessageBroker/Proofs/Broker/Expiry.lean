import MessageBroker.Proofs.Broker.Contents

/-! Nothing that has expired is ever handed out. Taking a message does not look
at its deadline: that nothing expired is there to be taken rests on the sweep
that comes with each tick, and on the clock standing still between ticks. -/

namespace MessageBroker

/-- Not expired, unless the clock is at its end, where deadlines are cut off. -/
def Message.LivesAt (now : Timestamp) (message : Message) : Prop :=
  now < Timestamp.last → message.isExpired now = false

theorem Message.livesAt_stamp (clock : TagClock) (payload : Payload)
    (timeToLive : UInt32) :
    (stamp clock payload timeToLive).LivesAt clock.now := by
  intro hnow
  unfold isExpired stamp deadline?
  dsimp only
  split
  · rfl
  · rename_i hforever
    have hlast : Timestamp.last.toNat = UInt64.size - 1 := by decide
    have hpositive : 0 < timeToLive.toUInt64.toNat := by
      rw [UInt32.toNat_toUInt64]
      exact Nat.pos_of_ne_zero fun hzero =>
        hforever (UInt32.toNat_inj.mp hzero)
    have hafter := Timestamp.toNat_after clock.now timeToLive.toUInt64
    rw [Timestamp.lt_iff, hlast] at hnow
    rw [Option.any_some, decide_eq_false_iff_not, Timestamp.le_iff]
    omega

namespace Broker

variable {broker : Broker} {stamps : Nat}

/-- Nothing that has expired is buffered anywhere. -/
def IsFresh (broker : Broker) : Prop :=
  broker.queues.All fun _ queue =>
    queue.Stores (Message.LivesAt broker.now) fun _ => True

theorem isFresh_tick (h : broker.IsLimited) (now : Timestamp) :
    (broker.tick now).state.IsFresh := by
  intro id swept hswept
  obtain ⟨queue, found, rfl⟩ :=
    Option.map_eq_some_iff.mp ((Registry.find?_mapEntities _ _ _).symm.trans hswept)
  have hstores : queue.Stores (fun _ => True) fun _ => True :=
    (h id queue found).mono (fun _ _ => trivial) fun _ _ => trivial
  have hfresh := hstores.sweep now fun _ _ _ => trivial
  exact hfresh.mono (fun _ hlives _ => hlives.2) fun _ _ => trivial

namespace IsFresh

theorem settles {after : Broker} (h : broker.IsFresh)
    (hsettles : Settles broker after) : after.IsFresh := by
  unfold IsFresh now
  rw [hsettles.clock]
  exact hsettles.all h (fun _ _ hsame hqueue => hqueue.sameContents hsame)
    fun _ hvacant => .of_vacant hvacant

theorem putQueue (h : broker.IsFresh) (hnumbered : broker.Numbered)
    {id : QueueId} {queue next : Queue} {clock : TagClock}
    (found : broker.queues.find? id = some queue)
    (hid : next.id = queue.id) (hnow : clock.now = broker.now)
    (hnext : next.Stores (Message.LivesAt broker.now) fun _ => True) :
    IsFresh { broker.putQueue next with clock := clock } := by
  intro other entry hentry
  have hput := hnumbered.queues.find?_put found hid other
  have hclock : now { broker.putQueue next with clock := clock } = broker.now :=
    hnow
  rw [hclock]
  replace hentry : (broker.queues.put next).find? other = some entry := hentry
  rw [hput] at hentry
  split at hentry
  · cases hentry
    exact hnext
  · exact h other entry hentry

theorem push (h : broker.IsFresh) (hnumbered : broker.Numbered) (id : QueueId)
    (payload : Payload) (timeToLive : UInt32) :
    (broker.push id payload timeToLive).state.IsFresh := by
  unfold Broker.push
  split
  · exact h
  · rename_i queue found
    refine h.putQueue hnumbered found
      (Queue.sameMembers_push queue _ _ _).id ?_ ?_
    · rcases queue.push_cases broker.clock payload timeToLive with
        ⟨-, hpush⟩ | ⟨-, -, hpush⟩ | ⟨-, -, -, hpush⟩ | ⟨-, -, -, hpush⟩ <;>
        rw [hpush] <;> rfl
    · exact (h id queue found).push broker.clock payload timeToLive
        fun _ => Message.livesAt_stamp broker.clock payload timeToLive

theorem pop (h : broker.IsFresh) (hnumbered : broker.Numbered) (id : QueueId)
    (holdTime : UInt32) : (broker.pop id holdTime).state.IsFresh := by
  unfold Broker.pop
  split
  · exact h
  · rename_i queue found
    exact h.putQueue hnumbered found (Queue.refilled_pop queue _ _).id_eq rfl
      ((h id queue found).pop holdTime broker.now fun _ _ _ => trivial)

theorem confirm (h : broker.IsFresh) (hnumbered : broker.Numbered)
    (id : QueueId) (tag : Tag) : (broker.confirm id tag).state.IsFresh := by
  unfold Broker.confirm
  split
  · exact h
  · rename_i queue found
    split
    · exact h
    · rename_i next confirmed
      exact h.putQueue hnumbered found
        (Queue.refilled_confirm confirmed).id_eq rfl
        ((h id queue found).confirm confirmed)

theorem purge (h : broker.IsFresh) (hnumbered : broker.Numbered)
    (id : QueueId) : (broker.purge id).state.IsFresh := by
  unfold Broker.purge
  split
  · exact h
  · rename_i queue found
    exact h.putQueue hnumbered found rfl rfl (h id queue found).purge

theorem fanout {fanout : Fanout} (h : fanout.broker.IsFresh)
    (hnumbered : fanout.broker.Numbered) (payload : Payload)
    (timeToLive : UInt32) (targets : List QueueId) :
    (targets.foldl (Fanout.next payload timeToLive) fanout).broker.IsFresh := by
  induction targets generalizing fanout with
  | nil => exact h
  | cons target rest ih =>
      have hpush := edits_push hnumbered target payload timeToLive
      have hpushed := h.push hnumbered target payload timeToLive
      exact ih hpushed (hnumbered.edits hpush)

theorem publishRoute (h : broker.IsFresh) (hnumbered : broker.Numbered)
    (id : RouteId) (key : String) (payload : Payload) (timeToLive : UInt32) :
    (broker.publishRoute id key payload timeToLive).state.IsFresh := by
  unfold Broker.publishRoute
  split
  · exact h
  · rename_i route found
    split
    · exact h
    · rename_i targets next htargets
      have hput :=
        (gains_putTargets hnumbered found htargets).arrangements
      have hturned := h.settles (settles_arrangements hnumbered hput)
      exact hturned.fanout (hnumbered.edits hput.edits) payload timeToLive
        targets

theorem perform (h : broker.IsFresh) (reached : Reached stamps broker)
    (command : Command) : (broker.perform command).state.IsFresh := by
  have hnumbered := reached.consistent.numbered
  cases command with
  | push queue payload timeToLive =>
      exact h.push hnumbered queue payload timeToLive
  | pop queue holdTime => exact h.pop hnumbered queue holdTime
  | confirm queue tag => exact h.confirm hnumbered queue tag
  | purge queue => exact h.purge hnumbered queue
  | publishRoute route key payload timeToLive =>
      exact h.publishRoute hnumbered route key payload timeToLive
  | tick now => exact isFresh_tick reached.limited now
  | _ =>
      exact h.settles (settles_arrangements hnumbered
        (arrangements_perform reached.consistent rfl))

theorem run (h : broker.IsFresh) (reached : Reached stamps broker)
    (commands : List Command) : (broker.run commands).IsFresh := by
  induction commands generalizing stamps broker with
  | nil => exact h
  | cons command rest ih =>
      exact ih (h.perform reached command) (reached.perform command)

end IsFresh

/-- What is buffered, what can be seen and what can be taken has not expired at
the time of the broker. -/
structure KeepsNothingExpired (broker : Broker) : Prop where
  buffered : ∀ id queue, broker.queues.find? id = some queue →
    ∀ message ∈ queue.messages, message.expiresAt = none ∨
      ∃ deadline, message.expiresAt = some deadline ∧ broker.now < deadline
  peeked : ∀ id message, broker.peek id = .ok (some message) →
    message.isExpired broker.now = false
  popped : ∀ id holdTime message,
    (broker.pop id holdTime).result = .ok (some message) →
      message.isExpired broker.now = false

theorem IsFresh.keepsNothingExpired (h : broker.IsFresh)
    (hnow : broker.now < .last) : broker.KeepsNothingExpired := by
  have hfresh : ∀ id queue, broker.queues.find? id = some queue →
      ∀ message ∈ queue.messages, message.isExpired broker.now = false :=
    fun id queue found message hmem =>
      (h id queue found).buffered message hmem hnow
  refine ⟨?_, ?_, ?_⟩
  · intro id queue found message hmem
    have hlives := hfresh id queue found message hmem
    cases hexpires : message.expiresAt with
    | none => exact .inl rfl
    | some deadline =>
        refine .inr ⟨deadline, rfl, ?_⟩
        simpa [Message.isExpired, hexpires, Timestamp.lt_iff, Timestamp.le_iff]
          using hlives
  · intro id message hpeek
    unfold peek at hpeek
    split at hpeek
    · cases hpeek
    · rename_i queue found
      obtain ⟨row, hrow⟩ := (h id queue found).row
      have hhead : queue.peek? = some message := Except.ok.inj hpeek
      rw [hrow.peek?_eq] at hhead
      exact hfresh id queue found message (List.mem_of_mem_head? hhead)
  · intro id holdTime message hpop
    unfold Broker.pop at hpop
    split at hpop
    · cases hpop
    · rename_i queue found
      obtain ⟨row, hrow⟩ := (h id queue found).row
      obtain ⟨buffered, hmem, heldUntil, rfl⟩ :=
        hrow.of_pop (Except.ok.inj hpop)
      exact hfresh id queue found buffered hmem

/-- A broker that was started keeps nothing that has expired, whatever is asked
of it and however its clock goes, as long as the clock does not read the last
time there is. One that was restored does so from its first tick on: a snapshot
may hold what has expired since. -/
theorem keepsNothingExpired_run (config : Config)
    (slots : QueueId → SlotPolicy) :
    (∀ (now : Timestamp) (broker : Broker) (commands : List Command),
      start config now slots = .ok broker →
      (broker.run commands).now < .last →
        (broker.run commands).KeepsNothingExpired) ∧
    ∀ (wallClock : Timestamp) (snapshot : Snapshot) (broker : Broker)
      (earlier later : List Command) (time : Timestamp),
      restore config wallClock snapshot slots = .ok broker →
      (broker.run (earlier ++ .tick time :: later)).now < .last →
        (broker.run (earlier ++ .tick time :: later)).KeepsNothingExpired := by
  constructor
  · intro now broker commands hstart hnow
    have hfresh : (idle config now slots).IsFresh := Registry.all_empty
    rw [← eq_idle_of_start hstart] at hfresh
    exact (hfresh.run (.start hstart) commands).keepsNothingExpired hnow
  · intro wallClock snapshot broker earlier later time hrestore hnow
    have reached := (Reached.restore hrestore).run earlier
    have hfresh := isFresh_tick reached.limited time
    have hlater := hfresh.run (reached.perform (.tick time)) later
    rw [run_append] at hnow ⊢
    exact hlater.keepsNothingExpired hnow

/-- A message that has expired by the time that its queue is restored. -/
def staleSnapshot : Snapshot where
  takenAt := ⟨10⟩
  queues := [⟨"jobs", ⟨10, 64, ⟨true, false, false, true⟩⟩,
    [⟨[1], some ⟨20⟩⟩]⟩]
  routes := []
  channels := []

theorem keepsNothingExpired_run_redelivered :
    (let broker := (idle .default ⟨0⟩).run [
      .createQueue "jobs" ⟨10, 64, ⟨true, false, false, false⟩⟩,
      .push ⟨1⟩ ⟨[1], 1⟩ 100, .push ⟨1⟩ ⟨[2], 2⟩ 6, .pop ⟨1⟩ 5, .tick ⟨7⟩]
    broker.peek ⟨1⟩ = .ok (some ⟨⟨[1], 1⟩, ⟨0⟩, some ⟨100⟩, none⟩) ∧
      broker.KeepsNothingExpired) ∧
    ∃ broker, restore .default ⟨50⟩ staleSnapshot = .ok broker ∧
      broker.peek ⟨1⟩ ≠ .ok none ∧
      (broker.run [.tick ⟨51⟩]).KeepsNothingExpired := by
  obtain ⟨hstarted, hrestored⟩ :=
    keepsNothingExpired_run .default fun _ => .lowest
  obtain ⟨broker, hrestore, hpeek, hnow⟩ :
      ∃ broker, restore .default ⟨50⟩ staleSnapshot = .ok broker ∧
        broker.peek ⟨1⟩ ≠ .ok none ∧
        (broker.run [.tick ⟨51⟩]).now < .last :=
    ⟨_, rfl, by decide, by decide⟩
  refine ⟨⟨rfl, ?_⟩, broker, hrestore, hpeek, ?_⟩
  · exact hstarted ⟨0⟩ _ _ (start_of_sound (by decide)) (by decide)
  · exact hrestored ⟨50⟩ _ _ [] [] ⟨51⟩ hrestore hnow

end Broker

end MessageBroker
