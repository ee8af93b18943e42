import Mathlib.Algebra.GroupWithZero.Nat
import MessageBroker.Broker.Restore
import MessageBroker.Proofs.Broker.Steps

/-! The brokers that can come about: started or restored, and then run. All of
them are reached by edits of an empty one. -/

namespace MessageBroker.Broker

def idle (config : Config) (now : Timestamp)
    (slots : QueueId → SlotPolicy := fun _ => .lowest) : Broker where
  config := config
  clock := .start now
  queues := .empty
  routes := .empty
  channels := .empty
  clients := .empty
  lastNumber := 0
  slots := slots

theorem start_of_sound {config : Config} {now : Timestamp}
    {slots : QueueId → SlotPolicy} (hsound : config.fault? = none) :
    start config now slots = .ok (idle config now slots) := by
  unfold start Config.validate
  rw [hsound]
  rfl

theorem eq_idle_of_start {config : Config} {now : Timestamp}
    {slots : QueueId → SlotPolicy} {broker : Broker}
    (hstart : start config now slots = .ok broker) :
    broker = idle config now slots := by
  cases hfault : config.fault? with
  | none =>
      rw [start_of_sound hfault] at hstart
      cases hstart
      rfl
  | some fault =>
      unfold start Config.validate at hstart
      rw [hfault] at hstart
      cases hstart

theorem consistent_idle (config : Config) (now : Timestamp)
    (slots : QueueId → SlotPolicy) : (idle config now slots).Consistent := by
  have hnothing : ∀ {κ ι ν μ : Type} [DecidableEq κ] [DecidableEq ι]
      {lists : ν → ι → Prop} {listsBack : μ → κ → Prop},
      Mirrored (.empty : AssocList κ ν) (.empty : AssocList ι μ) lists
        listsBack :=
    Mirrored.of_nothing (fun _ _ => AssocList.not_holds_empty)
      fun _ _ => AssocList.not_holds_empty
  exact {
    numbered := ⟨Registry.keyed_empty, Registry.keyed_empty,
      Registry.keyed_empty⟩
    memberships := ⟨hnothing, hnothing, fun _ => hnothing, fun _ => hnothing,
      Registry.all_empty⟩
    bindings := fun _ => hnothing
  }

/-- A broker that comes about after so many tags have been stamped. -/
inductive Reached : Nat → Broker → Prop
  | start {config : Config} {now : Timestamp} {slots : QueueId → SlotPolicy}
      {broker : Broker} (started : start config now slots = .ok broker) :
      Reached 0 broker
  | restore {config : Config} {wallClock : Timestamp} {snapshot : Snapshot}
      {slots : QueueId → SlotPolicy} {broker : Broker}
      (restored : restore config wallClock snapshot slots = .ok broker) :
      Reached snapshot.messageCount broker
  | perform {stamps : Nat} {broker : Broker} (command : Command)
      (reached : Reached stamps broker) :
      Reached (stamps + broker.stamps command) (broker.perform command).state

def runStamps (broker : Broker) : List Command → Nat
  | [] => 0
  | command :: rest =>
      broker.stamps command + (broker.perform command).state.runStamps rest

theorem Reached.run {stamps : Nat} {broker : Broker}
    (reached : Reached stamps broker) (commands : List Command) :
    Reached (stamps + broker.runStamps commands) (broker.run commands) := by
  induction commands generalizing stamps broker with
  | nil => exact reached
  | cons command rest ih =>
      have hrest := ih (reached.perform command)
      rw [Nat.add_assoc] at hrest
      exact hrest

variable {broker after : Broker}

theorem runStamps_append (broker : Broker) (earlier later : List Command) :
    broker.runStamps (earlier ++ later) =
      broker.runStamps earlier + (broker.run earlier).runStamps later := by
  induction earlier generalizing broker with
  | nil => exact (Nat.zero_add _).symm
  | cons command rest ih =>
      rw [List.cons_append, runStamps, runStamps, ih, Nat.add_assoc]
      rfl

theorem run_append (broker : Broker) (earlier later : List Command) :
    broker.run (earlier ++ later) = (broker.run earlier).run later :=
  List.foldl_append

theorem edits_run (h : broker.Consistent) (commands : List Command) :
    Edits broker (broker.runStamps commands) (broker.run commands) := by
  induction commands generalizing broker with
  | nil => exact .refl
  | cons command rest ih =>
      have hfirst := edits_perform h command
      exact hfirst.trans (ih (h.edits hfirst))

theorem bind_eq_ok {ε α β : Type} {first : Except ε α} {next : α → Except ε β}
    {result : β} (hbind : first.bind next = .ok result) :
    ∃ value, first = .ok value ∧ next value = .ok result := by
  cases first with
  | error failure => cases hbind
  | ok value => exact ⟨value, rfl, hbind⟩

theorem map_eq_ok {ε α β : Type} {first : Except ε α} {change : α → β}
    {result : β} (hmap : first.map change = .ok result) :
    ∃ value, first = .ok value ∧ change value = result := by
  cases first with
  | error failure => cases hmap
  | ok value => exact ⟨value, rfl, Except.ok.inj hmap⟩

theorem require_eq_ok {α : Type} {result : Result α} {value : α}
    (hrequire : result.require = .ok (value, after)) :
    result.result = .ok value ∧ result.state = after := by
  obtain ⟨found, hresult, hpair⟩ := map_eq_ok hrequire
  cases hpair
  exact ⟨hresult, rfl⟩

/-- What rebuilds a broker, with the number of tags that it stamps. Messages only
enter queues, and none is taken from them. -/
inductive Restoration (broker : Broker) : Nat → Broker → Prop
  | refl : Restoration broker 0 broker
  | arrange {stamps : Nat} {middle after : Broker}
      (earlier : Restoration broker stamps middle)
      (arrangement : Arrangement middle after) : Restoration broker stamps after
  | refill {stamps : Nat} {middle : Broker} {id : QueueId} {queue : Queue}
      {message : Message} (earlier : Restoration broker stamps middle)
      (found : middle.queues.find? id = some queue)
      (tag : message.tag = middle.clock.nextTag)
      (free : message.heldUntil = none) :
      Restoration broker (stamps + 1) {
        middle with
        queues := middle.queues.update id fun _ => queue.refill message
        clock := (middle.clock.nextTags 1).2
      }

namespace Restoration

variable {first middle last : Broker} {stamps more : Nat}

theorem edits (h : Restoration first stamps last) : Edits first stamps last := by
  induction h with
  | refl => exact .refl
  | arrange _ arrangement ih => exact ih.tail (.arrange arrangement)
  | refill _ found tag free ih =>
      exact ih.tail (.move (.turnQueue found (.refill tag free)))

theorem trans (hfirst : Restoration first stamps middle)
    (hsecond : Restoration middle more last) :
    Restoration first (stamps + more) last := by
  induction hsecond with
  | refl => exact hfirst
  | arrange _ arrangement ih => exact ih.arrange arrangement
  | refill _ found tag free ih => exact ih.refill found tag free

theorem of_arrangements (h : Arrangements first last) :
    Restoration first 0 last := by
  induction h with
  | refl => exact .refl
  | tail _ arrangement ih => exact ih.arrange arrangement

end Restoration

theorem restoration_foldlM {σ : Type}
    {step : Broker → σ → Except Failure Broker} (count : σ → Nat)
    (items : List σ) (h : broker.Consistent)
    (hstep : ∀ (broker next : Broker) (item : σ), broker.Consistent →
      step broker item = .ok next → Restoration broker (count item) next)
    (hfold : items.foldlM step broker = .ok after) :
    Restoration broker (items.map count).sum after := by
  induction items generalizing broker with
  | nil =>
      cases hfold
      exact .refl
  | cons item rest ih =>
      rw [List.foldlM_cons] at hfold
      obtain ⟨next, hnext, hrest⟩ := bind_eq_ok hfold
      have hfirst := hstep broker next item h hnext
      exact hfirst.trans (ih (h.edits hfirst.edits) hrest)

theorem find?_createQueue {name : String} {settings : QueueSettings}
    {id : QueueId} (hcreate : (broker.createQueue name settings).result = .ok id) :
    (broker.createQueue name settings).state.queues.find? id =
      some (.create id name settings (broker.slots id)) := by
  unfold createQueue at hcreate ⊢
  split at hcreate
  · cases hcreate
  · split at hcreate
    · cases hcreate
    · split at hcreate
      · cases hcreate
      · rename_i hvalid hfresh _ hsound
        cases hcreate
        simp only [if_neg hvalid, if_neg hfresh]
        exact (Registry.find?_add _ _ _).trans (if_pos rfl)

theorem restoration_messages {id : QueueId} {queue : Queue}
    (found : broker.queues.find? id = some queue)
    (messages : List MessageSnapshot) :
    Restoration broker messages.length
      (messages.foldl (restoreMessage id) broker) := by
  induction messages generalizing broker queue with
  | nil => exact .refl
  | cons saved rest ih =>
      have hstep : Restoration broker 1 (restoreMessage id broker saved) := by
        simp only [restoreMessage]
        rw [← Registry.update_const found]
        exact .refill .refl found rfl rfl
      have hfound : (restoreMessage id broker saved).queues.find? id =
          some (queue.refill _) :=
        (Registry.find?_update _ _ _ _).trans (by rw [if_pos rfl, found]; rfl)
      rw [List.length_cons, Nat.add_comm]
      exact hstep.trans (ih hfound)

theorem restoration_queue {saved : QueueSnapshot}
    (hrestore : restoreQueue broker saved = .ok after) :
    Restoration broker saved.messages.length after := by
  obtain ⟨⟨id, created⟩, hcreate, rfl⟩ := map_eq_ok hrestore
  obtain ⟨hresult, rfl⟩ := require_eq_ok hcreate
  have hcreated :=
    (extension_createQueue broker saved.name saved.settings).arrangements
  have hall := (Restoration.of_arrangements hcreated).trans
    (restoration_messages (find?_createQueue hresult) saved.messages)
  rw [Nat.zero_add] at hall
  exact hall

theorem restoration_binding (h : broker.Consistent) {route : RouteId}
    {binding : String × String}
    (hrestore : restoreBinding route broker binding = .ok after) :
    Restoration broker 0 after := by
  unfold restoreBinding at hrestore
  dsimp only at hrestore
  split at hrestore
  · cases hrestore
    exact .refl
  · rename_i queue _
    obtain ⟨⟨done, bound⟩, hbind, rfl⟩ := map_eq_ok hrestore
    obtain ⟨-, rfl⟩ := require_eq_ok hbind
    exact .of_arrangements
      (extension_bind h.numbered route queue binding.1).arrangements

theorem restoration_route (h : broker.Consistent) {saved : RouteSnapshot}
    (hrestore : restoreRoute broker saved = .ok after) :
    Restoration broker 0 after := by
  obtain ⟨⟨id, created⟩, hcreate, hbindings⟩ := bind_eq_ok hrestore
  obtain ⟨-, rfl⟩ := require_eq_ok hcreate
  have hcreated := Restoration.of_arrangements
    (extension_createRoute broker saved.name saved.flags).arrangements
  have hbound := restoration_foldlM (fun _ => 0) _ (h.edits hcreated.edits)
    (fun _ _ _ h hstep => restoration_binding h hstep) hbindings
  rw [List.map_const', List.sum_replicate_nat, Nat.mul_zero] at hbound
  exact hcreated.trans hbound

theorem restoration_channel {saved : ChannelSnapshot}
    (hrestore : restoreChannel broker saved = .ok after) :
    Restoration broker 0 after := by
  obtain ⟨⟨id, created⟩, hcreate, rfl⟩ := map_eq_ok hrestore
  obtain ⟨-, rfl⟩ := require_eq_ok hcreate
  exact .of_arrangements
    (extension_createChannel broker saved.name saved.flags).arrangements

theorem restoration_restore {config : Config} {wallClock : Timestamp}
    {snapshot : Snapshot} {slots : QueueId → SlotPolicy}
    (hrestore : Broker.restore config wallClock snapshot slots = .ok after) :
    ∃ now, Restoration (idle config now slots) snapshot.messageCount after := by
  obtain ⟨origin, hstart, hrestore⟩ := bind_eq_ok hrestore
  obtain ⟨withQueues, hqueues, hrestore⟩ := bind_eq_ok hrestore
  obtain ⟨withRoutes, hroutes, hchannels⟩ := bind_eq_ok hrestore
  cases eq_idle_of_start hstart
  have h := consistent_idle config (wallClock.latest snapshot.takenAt) slots
  have hfirst := restoration_foldlM (fun saved => saved.messages.length) _ h
    (fun _ _ _ _ hstep => restoration_queue hstep) hqueues
  have hlater := h.edits hfirst.edits
  have hsecond := restoration_foldlM (fun _ => 0) _ hlater
    (fun _ _ _ h hstep => restoration_route h hstep) hroutes
  have hthird := restoration_foldlM (fun _ => 0) _ (hlater.edits hsecond.edits)
    (fun _ _ _ _ hstep => restoration_channel hstep) hchannels
  rw [List.map_const', List.sum_replicate_nat, Nat.mul_zero] at hsecond hthird
  refine ⟨wallClock.latest snapshot.takenAt, ?_⟩
  have hcount : snapshot.messageCount =
      (snapshot.queues.map fun saved => saved.messages.length).sum :=
    List.length_flatMap
  rw [hcount]
  exact (hfirst.trans hsecond).trans hthird

/-- What steps that go well build up holds after all of them. -/
theorem good_of_foldlM {σ τ ε : Type} {step : τ → σ → Except ε τ}
    (good : List σ → τ → Prop) {items : List σ} {state last : τ}
    (hstate : good [] state)
    (hstep : ∀ done item state next, good done state →
      step state item = .ok next → good (done ++ [item]) next)
    (hfold : items.foldlM step state = .ok last) : good items last := by
  have hrest : ∀ rest done state, good done state →
      rest.foldlM step state = .ok last → good (done ++ rest) last := by
    intro rest
    induction rest with
    | nil =>
        intro done state hgood hfold
        cases hfold
        rwa [List.append_nil]
    | cons item rest ih =>
        intro done state hgood hfold
        rw [List.foldlM_cons] at hfold
        obtain ⟨next, hnext, hlater⟩ := bind_eq_ok hfold
        rw [List.append_cons]
        exact ih _ next (hstep done item state next hgood hnext) hlater
  exact hrest items [] state hstate hfold

theorem foldlM_kept {σ : Type} {step : Broker → σ → Except Failure Broker}
    {property : Broker → Prop} (items : List σ) (h : property broker)
    (hstep : ∀ {broker next : Broker} {item : σ}, property broker →
      step broker item = .ok next → property next)
    (hfold : items.foldlM step broker = .ok after) : property after :=
  good_of_foldlM (fun _ => property) h (fun _ _ _ _ => hstep) hfold

theorem restored_kept {property : Broker → Prop} {config : Config}
    {wallClock : Timestamp} {snapshot : Snapshot} {slots : QueueId → SlotPolicy}
    (hidle : ∀ config now slots, property (idle config now slots))
    (hqueue : ∀ {broker name settings id}, property broker →
      (broker.createQueue name settings).result = .ok id →
      property (broker.createQueue name settings).state)
    (hmessage : ∀ {broker} id saved, property broker →
      property (restoreMessage id broker saved))
    (hroute : ∀ {broker name flags id}, property broker →
      (broker.createRoute name flags).result = .ok id →
      property (broker.createRoute name flags).state)
    (hbind : ∀ {broker} route queue key, property broker →
      property (broker.bind route queue key).state)
    (hchannel : ∀ {broker name flags id}, property broker →
      (broker.createChannel name flags).result = .ok id →
      property (broker.createChannel name flags).state)
    (hrestore : Broker.restore config wallClock snapshot slots = .ok after) :
    property after := by
  obtain ⟨origin, hstart, hrestore⟩ := bind_eq_ok hrestore
  obtain ⟨withQueues, hqueues, hrestore⟩ := bind_eq_ok hrestore
  obtain ⟨withRoutes, hroutes, hchannels⟩ := bind_eq_ok hrestore
  cases eq_idle_of_start hstart
  have hfirst : property withQueues := by
    refine foldlM_kept _ (hidle _ _ _) (fun h hstep => ?_) hqueues
    obtain ⟨⟨id, created⟩, hcreate, rfl⟩ := map_eq_ok hstep
    obtain ⟨hresult, rfl⟩ := require_eq_ok hcreate
    exact List.foldlRecOn _ _ (hqueue h hresult)
      fun _ hkept saved _ => hmessage id saved hkept
  have hsecond : property withRoutes := by
    refine foldlM_kept _ hfirst (fun h hstep => ?_) hroutes
    obtain ⟨⟨id, created⟩, hcreate, hbindings⟩ := bind_eq_ok hstep
    obtain ⟨hresult, rfl⟩ := require_eq_ok hcreate
    refine foldlM_kept _ (hroute h hresult) (fun hkept hlink => ?_) hbindings
    unfold restoreBinding at hlink
    dsimp only at hlink
    split at hlink
    · cases hlink
      exact hkept
    · obtain ⟨⟨done, bound⟩, hbound, rfl⟩ := map_eq_ok hlink
      obtain ⟨-, rfl⟩ := require_eq_ok hbound
      exact hbind _ _ _ hkept
  refine foldlM_kept _ hsecond (fun h hstep => ?_) hchannels
  obtain ⟨⟨id, created⟩, hcreate, rfl⟩ := map_eq_ok hstep
  obtain ⟨hresult, rfl⟩ := require_eq_ok hcreate
  exact hchannel h hresult

theorem Reached.edits {stamps : Nat} (reached : Reached stamps broker) :
    ∃ config now slots, Edits (idle config now slots) stamps broker := by
  induction reached with
  | start started =>
      cases eq_idle_of_start started
      exact ⟨_, _, _, .refl⟩
  | restore restored =>
      obtain ⟨now, hrestored⟩ := restoration_restore restored
      exact ⟨_, now, _, hrestored.edits⟩
  | perform command reached ih =>
      obtain ⟨config, now, slots, hedits⟩ := ih
      have h := (consistent_idle config now slots).edits hedits
      exact ⟨config, now, slots, hedits.trans (edits_perform h command)⟩

/-- What an empty broker has and every edit keeps, every broker has. -/
theorem Reached.kept {stamps : Nat} {property : Broker → Prop}
    (reached : Reached stamps broker)
    (hidle : ∀ config now slots, property (idle config now slots))
    (hedit : ∀ {broker after : Broker} {stamps : Nat}, property broker →
      broker.Numbered → Edit broker stamps after → property after) :
    property broker := by
  obtain ⟨config, now, slots, hedits⟩ := reached.edits
  exact hedits.kept (consistent_idle config now slots).numbered
    (hidle config now slots) hedit

theorem Reached.consistent {stamps : Nat} (reached : Reached stamps broker) :
    broker.Consistent := by
  obtain ⟨config, now, slots, hedits⟩ := reached.edits
  exact (consistent_idle config now slots).edits hedits

end MessageBroker.Broker
