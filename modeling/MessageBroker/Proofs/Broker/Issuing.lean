import MessageBroker.Proofs.Broker.AutoDelete
import MessageBroker.Proofs.Broker.Naming
import MessageBroker.Proofs.Broker.Order
import MessageBroker.Proofs.Broker.Refusal

/-! Identifiers are given out once: every creation takes the next number, for
whatever kind of entity, and none is ever taken back. -/

namespace MessageBroker.Broker

def Has (broker : Broker) : Entity → Prop
  | .queue id => ∃ queue, broker.queues.find? id = some queue
  | .route id => ∃ route, broker.routes.find? id = some route
  | .channel id => ∃ channel, broker.channels.find? id = some channel

def entities (broker : Broker) : List Entity :=
  broker.queues.entities.keys.map .queue ++
    (broker.routes.entities.keys.map .route ++
      broker.channels.entities.keys.map .channel)

def created? (broker : Broker) : Command → Option Entity
  | .createQueue name settings =>
      (broker.createQueue name settings).result.toOption.map .queue
  | .createRoute name flags =>
      (broker.createRoute name flags).result.toOption.map .route
  | .createChannel name flags =>
      (broker.createChannel name flags).result.toOption.map .channel
  | _ => none

/-- The identifiers that a run gives out, in order. -/
def creations (broker : Broker) : List Command → List Entity
  | [] => []
  | command :: rest =>
      (broker.created? command).toList ++
        (broker.perform command).state.creations rest

variable {broker middle after origin : Broker} {entity other : Entity}
  {issued : List Entity} {stamps : Nat}

theorem has_iff_standing? :
    broker.Has entity ↔ ∃ standing, broker.standing? entity = some standing := by
  cases entity <;> simp [Has, standing?]

theorem mem_entities_iff : entity ∈ broker.entities ↔ broker.Has entity := by
  cases entity <;> simp [entities, Has, Registry.mem_keys]

theorem nodup_entities (broker : Broker) : broker.entities.Nodup := by
  have hqueues : (broker.queues.entities.keys.map Entity.queue).Nodup :=
    broker.queues.entities.nodup_keys.map fun _ _ => Entity.queue.inj
  have hroutes : (broker.routes.entities.keys.map Entity.route).Nodup :=
    broker.routes.entities.nodup_keys.map fun _ _ => Entity.route.inj
  have hchannels : (broker.channels.entities.keys.map Entity.channel).Nodup :=
    broker.channels.entities.nodup_keys.map fun _ _ => Entity.channel.inj
  refine hqueues.append (hroutes.append hchannels ?_) ?_
  · simp [List.disjoint_left]
  · simp [List.disjoint_left]

/-- Every number up to the last has been given out once, and every entity has one
of them. -/
structure Issued (broker : Broker) (issued : List Entity) : Prop where
  numbers : (issued.map Entity.number).Perm (List.range' 1 broker.lastNumber)
  has : ∀ entity, broker.Has entity → entity ∈ issued

/-- One more entity, under the next number. -/
structure Creates (broker : Broker) (entity : Entity) (after : Broker) :
    Prop where
  number : entity.number = broker.lastNumber + 1
  lastNumber : after.lastNumber = broker.lastNumber + 1
  has_iff : ∀ other, after.Has other ↔ other = entity ∨ broker.Has other

namespace Issued

theorem same (h : broker.Issued issued)
    (hlast : after.lastNumber = broker.lastNumber)
    (hhas : ∀ entity, after.Has entity → broker.Has entity) :
    after.Issued issued where
  numbers := hlast ▸ h.numbers
  has entity hthere := h.has entity (hhas entity hthere)

theorem creates (h : broker.Issued issued)
    (hcreates : broker.Creates entity after) :
    after.Issued (issued ++ [entity]) where
  numbers := by
    rw [hcreates.lastNumber, List.range'_concat, List.map_append,
      List.map_singleton, hcreates.number, Nat.one_mul, Nat.add_comm 1]
    exact h.numbers.append_right _
  has other hthere := by
    rw [List.mem_append, List.mem_singleton]
    exact ((hcreates.has_iff other).mp hthere).symm.imp_left (h.has other)

theorem perm {entities : List Entity} (h : broker.Issued issued)
    (hperm : issued.Perm entities) : broker.Issued entities where
  numbers := (hperm.map Entity.number).symm.trans h.numbers
  has entity hthere := hperm.mem_iff.mp (h.has entity hthere)

theorem nodup_numbers (h : broker.Issued issued) :
    (issued.map Entity.number).Nodup :=
  h.numbers.nodup_iff.mpr List.nodup_range'

theorem number_mem (h : broker.Issued issued) (hmem : entity ∈ issued) :
    1 ≤ entity.number ∧ entity.number ≤ broker.lastNumber := by
  have hnumber := h.numbers.mem_iff.mp (List.mem_map_of_mem hmem)
  obtain ⟨hpositive, hbound⟩ := List.mem_range'_1.mp hnumber
  exact ⟨hpositive, by omega⟩

theorem lastNumber_eq (h : broker.Issued issued) :
    broker.lastNumber = issued.length := by
  have hlength := h.numbers.length_eq
  rw [List.length_map, List.length_range'] at hlength
  exact hlength.symm

end Issued

theorem creates_addQueue (queue : Queue)
    (hid : queue.id = ⟨broker.lastNumber + 1⟩) :
    broker.Creates (.queue queue.id) {
      broker with
      queues := broker.queues.add queue
      lastNumber := broker.lastNumber + 1
    } where
  number := congrArg QueueId.number hid
  lastNumber := rfl
  has_iff other := by
    cases other with
    | queue other =>
        rw [Entity.queue.injEq]
        exact Registry.exists_find?_add
    | route other => simp [Has]
    | channel other => simp [Has]

theorem creates_addRoute (route : Route)
    (hid : route.id = ⟨broker.lastNumber + 1⟩) :
    broker.Creates (.route route.id) {
      broker with
      routes := broker.routes.add route
      lastNumber := broker.lastNumber + 1
    } where
  number := congrArg RouteId.number hid
  lastNumber := rfl
  has_iff other := by
    cases other with
    | queue other => simp [Has]
    | route other =>
        rw [Entity.route.injEq]
        exact Registry.exists_find?_add
    | channel other => simp [Has]

theorem creates_addChannel (channel : Channel)
    (hid : channel.id = ⟨broker.lastNumber + 1⟩) :
    broker.Creates (.channel channel.id) {
      broker with
      channels := broker.channels.add channel
      lastNumber := broker.lastNumber + 1
    } where
  number := congrArg ChannelId.number hid
  lastNumber := rfl
  has_iff other := by
    cases other with
    | queue other => simp [Has]
    | route other => simp [Has]
    | channel other =>
        rw [Entity.channel.injEq]
        exact Registry.exists_find?_add

theorem creates_createQueue {name : String} {settings : QueueSettings}
    {id : QueueId}
    (hcreated : (broker.createQueue name settings).result = .ok id) :
    broker.Creates (.queue id) (broker.createQueue name settings).state := by
  unfold createQueue at hcreated ⊢
  split at hcreated
  · cases hcreated
  · split at hcreated
    · cases hcreated
    · split at hcreated
      · cases hcreated
      · rename_i hvalid hfresh _ hsound
        cases hcreated
        simp only [if_neg hvalid, if_neg hfresh]
        exact creates_addQueue (.create _ name settings _) rfl

theorem creates_createRoute {name : String} {flags : RouteFlags} {id : RouteId}
    (hcreated : (broker.createRoute name flags).result = .ok id) :
    broker.Creates (.route id) (broker.createRoute name flags).state := by
  unfold createRoute at hcreated ⊢
  split at hcreated
  · cases hcreated
  · split at hcreated
    · cases hcreated
    · rename_i hvalid hfresh
      cases hcreated
      rw [if_neg hvalid, if_neg hfresh]
      exact creates_addRoute (.create _ name flags) rfl

theorem creates_createChannel {name : String} {flags : ChannelFlags}
    {id : ChannelId}
    (hcreated : (broker.createChannel name flags).result = .ok id) :
    broker.Creates (.channel id) (broker.createChannel name flags).state := by
  unfold createChannel at hcreated ⊢
  split at hcreated
  · cases hcreated
  · split at hcreated
    · cases hcreated
    · rename_i hvalid hfresh
      cases hcreated
      rw [if_neg hvalid, if_neg hfresh]
      exact creates_addChannel (.create _ name flags _) rfl

theorem lastNumber_withdrawals (h : Withdrawals broker after) :
    after.lastNumber = broker.lastNumber := by
  induction h with
  | refl => rfl
  | tail _ withdrawal ih =>
      refine Eq.trans ?_ ih
      cases withdrawal <;> rfl

theorem lastNumber_push (broker : Broker) (id : QueueId) (payload : Payload)
    (timeToLive : UInt32) :
    (broker.push id payload timeToLive).state.lastNumber =
      broker.lastNumber := by
  unfold push
  split <;> rfl

theorem lastNumber_fanout (fanout : Fanout) (payload : Payload)
    (timeToLive : UInt32) (targets : List QueueId) :
    (targets.foldl (Fanout.next payload timeToLive) fanout).broker.lastNumber =
      fanout.broker.lastNumber := by
  induction targets generalizing fanout with
  | nil => rfl
  | cons target rest ih =>
      rw [List.foldl_cons, ih]
      exact lastNumber_push fanout.broker target payload timeToLive

theorem lastNumber_publishRoute (broker : Broker) (id : RouteId) (key : String)
    (payload : Payload) (timeToLive : UInt32) :
    (broker.publishRoute id key payload timeToLive).state.lastNumber =
      broker.lastNumber := by
  unfold publishRoute
  split
  · rfl
  · split
    · rfl
    · exact lastNumber_fanout _ payload timeToLive _

def isCreation : Command → Bool
  | .createQueue .. | .createRoute .. | .createChannel .. => true
  | _ => false

theorem lastNumber_perform (h : broker.Consistent) {command : Command}
    (hother : isCreation command = false) :
    (broker.perform command).state.lastNumber = broker.lastNumber := by
  by_cases hwithdraws : isWithdrawal command = true
  · exact lastNumber_withdrawals (withdrawals_perform h hwithdraws)
  · cases command with
    | publishRoute route key payload timeToLive =>
        exact broker.lastNumber_publishRoute route key payload timeToLive
    | push queue payload timeToLive =>
        exact broker.lastNumber_push queue payload timeToLive
    | createQueue | createRoute | createChannel => cases hother
    | eject | deleteQueue | undeclareQueue | unsubscribeQueue | deleteRoute
    | unbind | deleteChannel | unsubscribeTopic | unsubscribePattern | flush =>
        exact absurd rfl hwithdraws
    | _ =>
        simp only [perform, Result.reply, Outcome.lift, connect, renameQueue,
          renameRoute, renameChannel, declareQueue, subscribeQueue, bind,
          subscribeTopic, subscribePattern, pop, confirm, purge, tick,
          publishChannel]
        repeat' split
        all_goals rfl

theorem has_of_perform (h : broker.Consistent) (command : Command)
    (hissued : entity.number ≤ broker.lastNumber)
    (hthere : (broker.perform command).state.Has entity) :
    broker.Has entity := by
  rw [has_iff_standing?] at hthere ⊢
  obtain ⟨now, hnow⟩ := hthere
  by_cases hwithdraws : isWithdrawal command = true
  · have hfading := fades_perform h hwithdraws entity
    rw [hnow] at hfading
    obtain ⟨before, hbefore, -⟩ := hfading.exists_loses
    exact ⟨before, hbefore⟩
  · have hgrows := grows_perform h.numbered (Bool.eq_false_iff.mpr hwithdraws)
    have hgrowing := hgrows.standings entity
    rw [hnow] at hgrowing
    obtain ⟨before, hbefore, -⟩ :=
      hgrowing.exists_within (Nat.not_lt.mpr hissued)
    exact ⟨before, hbefore⟩

theorem lastNumber_le_perform (h : broker.Consistent) (command : Command) :
    broker.lastNumber ≤ (broker.perform command).state.lastNumber := by
  by_cases hwithdraws : isWithdrawal command = true
  · have hleft := lastNumber_withdrawals (withdrawals_perform h hwithdraws)
    exact Nat.le_of_eq hleft.symm
  · exact (grows_perform h.numbered (Bool.eq_false_iff.mpr hwithdraws)).lastNumber

theorem not_has_run (h : broker.Consistent)
    (hissued : entity.number ≤ broker.lastNumber) (hgone : ¬ broker.Has entity)
    (commands : List Command) : ¬ (broker.run commands).Has entity := by
  induction commands generalizing broker with
  | nil => exact hgone
  | cons command rest ih =>
      exact ih (h.edits (edits_perform h command))
        (Nat.le_trans hissued (lastNumber_le_perform h command))
        fun hthere => hgone (has_of_perform h command hissued hthere)

theorem Issued.perform_quiet (h : broker.Issued issued)
    (hconsistent : broker.Consistent) {command : Command}
    (hother : isCreation command = false) :
    (broker.perform command).state.Issued issued := by
  have hlast := lastNumber_perform hconsistent hother
  refine h.same hlast fun entity hthere => ?_
  obtain ⟨standing, hstanding⟩ := has_iff_standing?.mp hthere
  have hafter := hconsistent.edits (edits_perform hconsistent command)
  refine has_of_perform hconsistent command ?_ hthere
  rw [← hlast]
  exact hafter.numbered.number_le hstanding

theorem Issued.create {ι : Type} {result : Result ι} {kind : ι → Entity}
    (h : broker.Issued issued) (hspares : result.Spares broker)
    (hcreates : ∀ id, result.result = .ok id →
      broker.Creates (kind id) result.state) :
    result.state.Issued
      (issued ++ (result.result.toOption.map kind).toList) := by
  cases hcreated : result.result with
  | error failure =>
      rw [(hspares.of_error failure hcreated).1]
      exact (List.append_nil issued).symm ▸ h
  | ok id => exact h.creates (hcreates id hcreated)

theorem Issued.perform (h : broker.Issued issued)
    (hconsistent : broker.Consistent) (command : Command) :
    (broker.perform command).state.Issued
      (issued ++ (broker.created? command).toList) := by
  cases command with
  | createQueue name settings =>
      exact h.create (spares_createQueue broker name settings)
        fun _ => creates_createQueue
  | createRoute name flags =>
      exact h.create (spares_createRoute broker name flags)
        fun _ => creates_createRoute
  | createChannel name flags =>
      exact h.create (spares_createChannel broker name flags)
        fun _ => creates_createChannel
  | _ =>
      refine (List.append_nil issued).symm ▸ h.perform_quiet hconsistent ?_
      rfl

theorem Issued.run (h : broker.Issued issued) (hconsistent : broker.Consistent)
    (commands : List Command) :
    (broker.run commands).Issued (issued ++ broker.creations commands) := by
  induction commands generalizing broker issued with
  | nil =>
      rw [creations, List.append_nil]
      exact h
  | cons command rest ih =>
      rw [creations, ← List.append_assoc]
      exact ih (h.perform hconsistent command)
        (hconsistent.edits (edits_perform hconsistent command))

/-- All that has been given out is there. -/
def IsWhole (broker : Broker) : Prop :=
  ∃ issued, broker.Issued issued ∧ ∀ entity ∈ issued, broker.Has entity

namespace IsWhole

theorem issued_entities (h : broker.IsWhole) :
    broker.Issued broker.entities := by
  obtain ⟨issued, hissued, hthere⟩ := h
  refine hissued.perm ?_
  rw [List.perm_ext_iff_of_nodup hissued.nodup_numbers.of_map
    broker.nodup_entities]
  intro entity
  rw [mem_entities_iff]
  exact ⟨hthere entity, hissued.has entity⟩

theorem idle (config : Config) (now : Timestamp)
    (slots : QueueId → SlotPolicy) :
    (Broker.idle config now slots).IsWhole := by
  refine ⟨[], ⟨.refl _, fun entity hthere => ?_⟩, nofun⟩
  cases entity <;> exact absurd hthere nofun

theorem creates (h : broker.IsWhole) (hcreates : broker.Creates entity after) :
    after.IsWhole := by
  obtain ⟨issued, hissued, hthere⟩ := h
  refine ⟨issued ++ [entity], hissued.creates hcreates, fun other hmem => ?_⟩
  rw [List.mem_append, List.mem_singleton] at hmem
  exact (hcreates.has_iff other).mpr (hmem.symm.imp_right (hthere other))

theorem same (h : broker.IsWhole) (hlast : after.lastNumber = broker.lastNumber)
    (hhas : ∀ entity, after.Has entity ↔ broker.Has entity) :
    after.IsWhole := by
  obtain ⟨issued, hissued, hthere⟩ := h
  refine ⟨issued, hissued.same hlast fun entity => (hhas entity).mp, ?_⟩
  exact fun entity hmem => (hhas entity).mpr (hthere entity hmem)

end IsWhole

theorem isWhole_updateQueue (h : broker.IsWhole) (id : QueueId)
    (change : Queue → Queue) (clock : TagClock) :
    IsWhole {
      broker with
      queues := broker.queues.update id change
      clock := clock
    } := by
  refine h.same rfl fun entity => ?_
  cases entity with
  | queue other => exact Registry.exists_find?_update
  | route other => exact Iff.rfl
  | channel other => exact Iff.rfl

theorem isWhole_bind (h : broker.IsWhole) (route : RouteId) (queue : QueueId)
    (key : String) : (broker.bind route queue key).state.IsWhole := by
  unfold bind
  split
  · exact h
  · split
    · exact h
    · split
      · exact h
      · refine h.same rfl fun entity => ?_
        cases entity with
        | queue other => exact Registry.exists_find?_update
        | route other => exact Registry.exists_find?_update
        | channel other => exact Iff.rfl

theorem Origin.isWhole (h : Origin stamps origin) : origin.IsWhole := by
  cases h with
  | start started =>
      cases eq_idle_of_start started
      exact .idle _ _ _
  | restore restored =>
      exact restored_kept .idle
        (fun h hcreated => h.creates (creates_createQueue hcreated))
        (fun id _ h => isWhole_updateQueue h id _ _)
        (fun h hcreated => h.creates (creates_createRoute hcreated))
        (fun route queue key h => isWhole_bind h route queue key)
        (fun h hcreated => h.creates (creates_createChannel hcreated)) restored

/-- Names and identifiers lead to what has them, and no identifier is given out
twice, or leads anywhere once what had it is gone. -/
structure Registers (broker : Broker) (issued : List Entity) : Prop where
  listed : broker.Listed
  numbered : broker.Numbered
  lastNumber : broker.lastNumber = issued.length
  distinct : (issued.map Entity.number).Nodup
  bounded : ∀ entity ∈ issued,
    1 ≤ entity.number ∧ entity.number ≤ broker.lastNumber
  complete : ∀ entity, broker.Has entity → entity ∈ issued
  stays_gone : ∀ entity ∈ issued, ¬ broker.Has entity →
    ∀ later, ¬ (broker.run later).Has entity

theorem Origin.registers (h : Origin stamps origin) (commands : List Command) :
    (origin.run commands).Registers
      (origin.entities ++ origin.creations commands) := by
  have hconsistent := h.reached.consistent
  have reached := h.reached.run commands
  have hissued := h.isWhole.issued_entities.run hconsistent commands
  refine {
    listed := reached.listed
    numbered := reached.consistent.numbered
    lastNumber := hissued.lastNumber_eq
    distinct := hissued.nodup_numbers
    bounded := fun _ => hissued.number_mem
    complete := hissued.has
    stays_gone := ?_
  }
  intro entity hmem hgone later
  exact not_has_run reached.consistent (hissued.number_mem hmem).2 hgone later

/-- A name that is free again leads to a new identifier, and the old one leads
nowhere, before a flush and after it. -/
theorem Origin.registers_recreated :
    (let settings : QueueSettings := ⟨10, 64, ⟨false, false, false, false⟩⟩
    let origin := idle .default ⟨0⟩
    let commands := [
      .createQueue "jobs" settings, .createRoute "jobs" ⟨false, false, false⟩,
      .deleteQueue ⟨1⟩, .createQueue "jobs" settings]
    let broker := origin.run commands
    broker.queues.idOf? "jobs" = some ⟨3⟩ ∧
      origin.entities ++ origin.creations commands =
        [.queue ⟨1⟩, .route ⟨2⟩, .queue ⟨3⟩] ∧
      broker.Registers [.queue ⟨1⟩, .route ⟨2⟩, .queue ⟨3⟩] ∧
      ¬ (broker.run [.flush, .createQueue "jobs" settings]).Has
        (.queue ⟨1⟩)) := by
  intro settings origin commands broker
  have horigin : Origin 0 origin := .start (start_of_sound (by decide))
  have hissued : origin.entities ++ origin.creations commands =
      [.queue ⟨1⟩, .route ⟨2⟩, .queue ⟨3⟩] := by decide
  have hregisters := horigin.registers commands
  rw [hissued] at hregisters
  refine ⟨by decide, hissued, hregisters, ?_⟩
  refine hregisters.stays_gone _ List.mem_cons_self ?_ _
  have hgone : ⟨1⟩ ∉ broker.queues.entities.keys := by decide
  exact fun hthere => hgone (Registry.mem_keys.mpr hthere)

end MessageBroker.Broker
