import MessageBroker.Broker.Capture
import MessageBroker.Proofs.Broker.Contents
import MessageBroker.Proofs.Broker.Naming

/-! What a snapshot that was taken from a broker is like: its names are distinct
and valid, its queues keep to limits that the configuration allows, and its
bindings name queues of its own. -/

namespace MessageBroker

structure QueueSnapshot.IsFaithful (config : Config) (queue : QueueSnapshot) :
    Prop where
  name : Name.isValid queue.name = true
  settings : Broker.queueFault? config queue.settings = none
  durable : queue.settings.flags.durable = true
  count : queue.messages.length ≤ queue.settings.maxMessages.toNat
  sizes : ∀ message ∈ queue.messages,
    message.payload.length ≤ queue.settings.maxMessageSize.toNat

structure BindingSnapshot.IsFaithful (names : List String)
    (binding : BindingSnapshot) : Prop where
  nonempty : binding.queues ≠ []
  nodup : binding.queues.Nodup
  known : ∀ name ∈ binding.queues, name ∈ names

structure RouteSnapshot.IsFaithful (names : List String)
    (route : RouteSnapshot) : Prop where
  name : Name.isValid route.name = true
  durable : route.flags.durable = true
  keys : (route.bindings.map BindingSnapshot.key).Nodup
  bindings : ∀ binding ∈ route.bindings, binding.IsFaithful names

structure Snapshot.IsFaithful (config : Config) (snapshot : Snapshot) :
    Prop where
  queueNames : (snapshot.queues.map QueueSnapshot.name).Nodup
  queues : ∀ queue ∈ snapshot.queues, queue.IsFaithful config
  routeNames : (snapshot.routes.map RouteSnapshot.name).Nodup
  routes : ∀ route ∈ snapshot.routes,
    route.IsFaithful (snapshot.queues.map QueueSnapshot.name)
  channelNames : (snapshot.channels.map ChannelSnapshot.name).Nodup
  channels : ∀ channel ∈ snapshot.channels, Name.isValid channel.name = true

namespace Broker

variable {broker after : Broker} {stamps : Nat}

theorem config_edit (hedit : Edit broker stamps after) :
    after.config = broker.config := by
  cases hedit with
  | arrange arrangement =>
      cases arrangement with
      | enrol enrolment => cases enrolment <;> rfl
      | withdraw withdrawal => cases withdrawal <;> rfl
      | keepUp upkeep => cases upkeep <;> rfl
  | move traffic => cases traffic <;> rfl

theorem config_edits (hedits : Edits broker stamps after) :
    after.config = broker.config := by
  induction hedits with
  | refl => rfl
  | tail _ edit ih => exact (config_edit edit).trans ih

theorem sound_of_start {config : Config} {now : Timestamp}
    {slots : QueueId → SlotPolicy}
    (hstart : start config now slots = .ok broker) :
    broker.config.fault? = none := by
  cases hfault : config.fault? with
  | none =>
      rw [eq_idle_of_start hstart]
      exact hfault
  | some fault =>
      unfold start Config.validate at hstart
      rw [hfault] at hstart
      cases hstart

theorem Reached.sound (reached : Reached stamps broker) :
    broker.config.fault? = none := by
  induction reached with
  | start started => exact sound_of_start started
  | restore restored =>
      obtain ⟨origin, hstart, -⟩ := bind_eq_ok restored
      obtain ⟨now, hrestored⟩ := restoration_restore restored
      have hsound := sound_of_start hstart
      rw [eq_idle_of_start hstart] at hsound
      rw [config_edits hrestored.edits]
      exact hsound
  | perform command reached ih =>
      rw [config_edits (edits_perform reached.consistent command)]
      exact ih

theorem durableName?_eq_some_iff {id : QueueId} {name : String} :
    broker.durableName? id = some name ↔
      ∃ queue, broker.queues.find? id = some queue ∧
        queue.settings.flags.durable = true ∧ queue.name = name := by
  unfold durableName?
  rw [Option.map_eq_some_iff]
  simp only [Option.filter_eq_some_iff, and_assoc]

theorem names_captured {ι ε σ : Type} [Named ι ε] (entities : List ε)
    {capture : ε → σ} {name : σ → String}
    (hname : ∀ entity, name (capture entity) = Named.name entity) :
    (entities.map capture).map name = entities.map Named.name := by
  rw [List.map_map]
  exact List.map_congr_left fun entity _ => hname entity

end Broker

end MessageBroker
