import MessageBroker.Proofs.Broker.Contents
import MessageBroker.Proofs.Broker.Naming

/-! An operation that fails changes nothing and tells nobody. Only a publish
through a route may fail after some of its targets have accepted. -/

namespace MessageBroker

namespace Outcome

variable {σ : Type u} {ε : Type v} {α : Type w}

/-- If it is a failure, the state is as it was before, and nothing is
signalled. -/
structure Spares (outcome : Outcome σ ε α) (before : σ) : Prop where
  of_error : ∀ error, outcome.result = .error error →
    outcome.state = before ∧ outcome.signals = []

@[simp] theorem spares_refused (before : σ) (error : ε) :
    (refused before error : Outcome σ ε α).Spares before :=
  ⟨fun _ _ => ⟨rfl, rfl⟩⟩

theorem spares_of_ok {outcome : Outcome σ ε α} {before : σ} {value : α}
    (hok : outcome.result = .ok value) : outcome.Spares before := by
  refine ⟨fun error herror => ?_⟩
  rw [hok] at herror
  cases herror

@[simp] theorem spares_done (before after : σ) (value : α) :
    (done after value : Outcome σ ε α).Spares before :=
  spares_of_ok rfl

theorem Spares.lift {τ : Type u'} {δ : Type v'} {β : Type w'}
    {outcome : Outcome σ ε α} {before : σ} (h : outcome.Spares before)
    (widen : σ → τ) (error : ε → δ) (value : α → β) :
    (outcome.lift widen error value).Spares (widen before) := by
  refine ⟨fun failure hfailure => ?_⟩
  unfold Outcome.lift at hfailure ⊢
  dsimp only at hfailure ⊢
  cases hresult : outcome.result with
  | ok result =>
      rw [hresult] at hfailure
      cases hfailure
  | error cause =>
      obtain ⟨hstate, hsignals⟩ := h.of_error cause hresult
      exact ⟨congrArg widen hstate, hsignals⟩

end Outcome

open Outcome (spares_of_ok spares_refused)

namespace Queue

variable {queue : Queue} {row : List (Handle × Message)}

theorem Buffers.spares_push (h : queue.Buffers row)
    (hcapacity : 0 < queue.capacity) (clock : TagClock) (payload : Payload)
    (timeToLive : UInt32) :
    (queue.push clock payload timeToLive).Spares (queue, clock) := by
  rcases queue.push_cases clock payload timeToLive with
    ⟨-, hpush⟩ | ⟨-, -, hpush⟩ | ⟨-, -, -, hpush⟩ | ⟨-, -, hroom, hpush⟩ <;>
    rw [hpush]
  · exact spares_refused _ _
  · exact spares_of_ok rfl
  · exact spares_of_ok rfl
  · rw [h.ensureRoom_eq_self hcapacity hroom]
    exact spares_refused _ _

end Queue

theorem Channel.spares_publish (channel : Channel) (topic : String)
    (payload : Payload) :
    (channel.publish topic payload).Spares channel := by
  unfold publish
  split
  · exact spares_refused _ _
  · exact spares_of_ok rfl

namespace Broker

variable {broker : Broker} {stamps : Nat}

theorem capacity_pos {config : Config} {queue : Queue}
    (h : IsProperQueue config queue) : 0 < queue.capacity := by
  obtain ⟨⟨hpositive, -⟩, -⟩ := queueFault?_eq_none_iff.mp h.settings
  exact UInt32.le_iff_toNat_le.mp hpositive

theorem Reached.spares_push (reached : Reached stamps broker) (id : QueueId)
    (payload : Payload) (timeToLive : UInt32) :
    (broker.push id payload timeToLive).Spares broker := by
  unfold push
  split
  · exact spares_refused _ _
  · rename_i queue found
    obtain ⟨row, hrow⟩ := (reached.limited id queue found).row
    have hcapacity := capacity_pos (reached.listed.queues.proper id queue found)
    have hpushed := hrow.spares_push hcapacity broker.clock payload timeToLive
    have hput := reached.consistent.numbered.queues.put_self found
    have hlifted := hpushed.lift
      (fun after => { broker.putQueue after.1 with clock := after.2 })
      Failure.rejected fun _ => ()
    dsimp only [putQueue] at hlifted
    rw [hput] at hlifted
    exact hlifted

theorem spares_pop (broker : Broker) (id : QueueId) (holdTime : UInt32) :
    (broker.pop id holdTime).Spares broker := by
  unfold pop
  repeat' split
  all_goals simp

theorem spares_confirm (broker : Broker) (id : QueueId) (tag : Tag) :
    (broker.confirm id tag).Spares broker := by
  unfold confirm
  repeat' split
  all_goals simp

theorem spares_purge (broker : Broker) (id : QueueId) :
    (broker.purge id).Spares broker := by
  unfold purge
  repeat' split
  all_goals simp

/-- A publish through a route that cannot begin spares the broker. Once it has
begun, some target may have accepted before another refuses. -/
theorem publishRoute_error (broker : Broker) (id : RouteId) (key : String)
    (payload : Payload) (timeToLive : UInt32) :
    (broker.publishRoute id key payload timeToLive).Spares broker ∨
    ∃ route failed,
      (broker.publishRoute id key payload timeToLive).result =
        .error (.deliveryFailed route failed) := by
  unfold publishRoute
  split
  · exact .inl (spares_refused _ _)
  · split
    · exact .inl (spares_refused _ _)
    · dsimp only
      split
      · exact .inl (spares_of_ok rfl)
      · exact .inr ⟨_, _, rfl⟩

theorem Reached.spares_publishChannel (reached : Reached stamps broker)
    (id : ChannelId) (topic : String) (payload : Payload) :
    (broker.publishChannel id topic payload).Spares broker := by
  unfold publishChannel
  split
  · exact spares_refused _ _
  · rename_i channel found
    have hput := reached.consistent.numbered.channels.put_self found
    have hlifted := (channel.spares_publish topic payload).lift
      broker.putChannel Failure.rejected fun count => count
    unfold putChannel at hlifted
    rw [hput] at hlifted
    exact hlifted

theorem spares_createQueue (broker : Broker) (name : String)
    (settings : QueueSettings) :
    (broker.createQueue name settings).Spares broker := by
  unfold createQueue
  repeat' split
  all_goals simp

theorem spares_deleteQueue (broker : Broker) (id : QueueId) :
    (broker.deleteQueue id).Spares broker := by
  unfold deleteQueue
  repeat' split
  all_goals simp

theorem spares_renameQueue (broker : Broker) (id : QueueId) (name : String) :
    (broker.renameQueue id name).Spares broker := by
  unfold renameQueue
  repeat' split
  all_goals simp

theorem spares_createRoute (broker : Broker) (name : String)
    (flags : RouteFlags) : (broker.createRoute name flags).Spares broker := by
  unfold createRoute
  repeat' split
  all_goals simp

theorem spares_deleteRoute (broker : Broker) (id : RouteId) :
    (broker.deleteRoute id).Spares broker := by
  unfold deleteRoute
  repeat' split
  all_goals simp

theorem spares_renameRoute (broker : Broker) (id : RouteId) (name : String) :
    (broker.renameRoute id name).Spares broker := by
  unfold renameRoute
  repeat' split
  all_goals simp

theorem spares_createChannel (broker : Broker) (name : String)
    (flags : ChannelFlags) :
    (broker.createChannel name flags).Spares broker := by
  unfold createChannel
  repeat' split
  all_goals simp

theorem spares_deleteChannel (broker : Broker) (id : ChannelId) :
    (broker.deleteChannel id).Spares broker := by
  unfold deleteChannel
  repeat' split
  all_goals simp

theorem spares_renameChannel (broker : Broker) (id : ChannelId)
    (name : String) :
    (broker.renameChannel id name).Spares broker := by
  unfold renameChannel
  repeat' split
  all_goals simp

theorem spares_connect (broker : Broker) (client : ClientId) :
    (broker.connect client).Spares broker := by
  unfold connect
  repeat' split
  all_goals simp

theorem spares_eject (broker : Broker) (client : ClientId) :
    (broker.eject client).Spares broker := by
  unfold eject
  split
  · simp
  · exact spares_of_ok rfl

theorem spares_declareQueue (broker : Broker) (client : ClientId)
    (id : QueueId) :
    (broker.declareQueue client id).Spares broker := by
  unfold declareQueue
  repeat' split
  all_goals simp

theorem spares_undeclareQueue (broker : Broker) (client : ClientId)
    (id : QueueId) : (broker.undeclareQueue client id).Spares broker := by
  unfold undeclareQueue
  repeat' split
  all_goals simp

theorem spares_subscribeQueue (broker : Broker) (client : ClientId)
    (id : QueueId) (noticesOnly : Bool) :
    (broker.subscribeQueue client id noticesOnly).Spares broker := by
  unfold subscribeQueue
  repeat' split
  all_goals simp

theorem spares_unsubscribeQueue (broker : Broker) (client : ClientId)
    (id : QueueId) : (broker.unsubscribeQueue client id).Spares broker := by
  unfold unsubscribeQueue
  repeat' split
  all_goals simp

theorem spares_bind (broker : Broker) (id : RouteId) (queue : QueueId)
    (key : String) : (broker.bind id queue key).Spares broker := by
  unfold bind
  repeat' split
  all_goals simp

theorem spares_unbind (broker : Broker) (id : RouteId) (queue : QueueId)
    (key : String) : (broker.unbind id queue key).Spares broker := by
  unfold unbind
  repeat' split
  all_goals simp

theorem spares_subscribeTopic (broker : Broker) (client : ClientId)
    (id : ChannelId) (topic : String) :
    (broker.subscribeTopic client id topic).Spares broker := by
  unfold subscribeTopic
  repeat' split
  all_goals simp

theorem spares_subscribePattern (broker : Broker) (client : ClientId)
    (id : ChannelId) (pattern : String) :
    (broker.subscribePattern client id pattern).Spares broker := by
  unfold subscribePattern
  repeat' split
  all_goals simp

theorem spares_unsubscribeTopic (broker : Broker) (client : ClientId)
    (id : ChannelId) (topic : String) :
    (broker.unsubscribeTopic client id topic).Spares broker := by
  unfold unsubscribeTopic
  repeat' split
  all_goals simp

theorem spares_unsubscribePattern (broker : Broker) (client : ClientId)
    (id : ChannelId) (pattern : String) :
    (broker.unsubscribePattern client id pattern).Spares broker := by
  unfold unsubscribePattern
  repeat' split
  all_goals simp

theorem spares_reply {α : Type} {result : Result α} (h : result.Spares broker)
    (reply : α → Reply) : (result.reply reply).Spares broker :=
  h.lift (fun broker => broker) (fun failure => failure) reply

theorem Reached.spares_perform (reached : Reached stamps broker)
    (command : Command) :
    (broker.perform command).Spares broker ∨
    ∃ id key payload timeToLive route failed,
      command = .publishRoute id key payload timeToLive ∧
      (broker.perform command).result =
        .error (.deliveryFailed route failed) := by
  cases command with
  | publishRoute id key payload timeToLive =>
      rcases broker.publishRoute_error id key payload timeToLive with
        hspares | ⟨route, failed, hfailed⟩
      · exact .inl (spares_reply hspares _)
      · refine .inr ⟨id, key, payload, timeToLive, route, failed, rfl, ?_⟩
        simp only [Broker.perform, Result.reply, Outcome.lift, hfailed]
  | push queue payload timeToLive =>
      exact .inl (spares_reply (reached.spares_push queue payload timeToLive) _)
  | publishChannel channel topic payload =>
      exact .inl
        (spares_reply (reached.spares_publishChannel channel topic payload) _)
  | connect client => exact .inl (spares_reply (spares_connect ..) _)
  | eject client => exact .inl (spares_reply (spares_eject ..) _)
  | createQueue name settings =>
      exact .inl (spares_reply (spares_createQueue ..) _)
  | deleteQueue queue => exact .inl (spares_reply (spares_deleteQueue ..) _)
  | renameQueue queue name =>
      exact .inl (spares_reply (spares_renameQueue ..) _)
  | declareQueue client queue =>
      exact .inl (spares_reply (spares_declareQueue ..) _)
  | undeclareQueue client queue =>
      exact .inl (spares_reply (spares_undeclareQueue ..) _)
  | subscribeQueue client queue noticesOnly =>
      exact .inl (spares_reply (spares_subscribeQueue ..) _)
  | unsubscribeQueue client queue =>
      exact .inl (spares_reply (spares_unsubscribeQueue ..) _)
  | peek queue => exact .inl ⟨fun _ _ => ⟨rfl, rfl⟩⟩
  | pop queue holdTime => exact .inl (spares_reply (spares_pop ..) _)
  | confirm queue tag => exact .inl (spares_reply (spares_confirm ..) _)
  | purge queue => exact .inl (spares_reply (spares_purge ..) _)
  | createRoute name flags =>
      exact .inl (spares_reply (spares_createRoute ..) _)
  | deleteRoute route => exact .inl (spares_reply (spares_deleteRoute ..) _)
  | renameRoute route name =>
      exact .inl (spares_reply (spares_renameRoute ..) _)
  | bind route queue key => exact .inl (spares_reply (spares_bind ..) _)
  | unbind route queue key => exact .inl (spares_reply (spares_unbind ..) _)
  | createChannel name flags =>
      exact .inl (spares_reply (spares_createChannel ..) _)
  | deleteChannel channel =>
      exact .inl (spares_reply (spares_deleteChannel ..) _)
  | renameChannel channel name =>
      exact .inl (spares_reply (spares_renameChannel ..) _)
  | subscribeTopic client channel topic =>
      exact .inl (spares_reply (spares_subscribeTopic ..) _)
  | subscribePattern client channel pattern =>
      exact .inl (spares_reply (spares_subscribePattern ..) _)
  | unsubscribeTopic client channel topic =>
      exact .inl (spares_reply (spares_unsubscribeTopic ..) _)
  | unsubscribePattern client channel pattern =>
      exact .inl (spares_reply (spares_unsubscribePattern ..) _)
  | tick now => exact .inl (spares_of_ok rfl)
  | flush => exact .inl (spares_of_ok rfl)

/-- An operation that fails leaves the whole broker as it was, and tells the
clients nothing, unless it is a publish whose delivery failed in part. -/
theorem Reached.perform_error (reached : Reached stamps broker)
    {command : Command} {failure : Failure}
    (hfailure : (broker.perform command).result = .error failure)
    (hother : ∀ id key payload timeToLive route failed,
      command = .publishRoute id key payload timeToLive →
        failure ≠ .deliveryFailed route failed) :
    (broker.perform command).state = broker ∧
      (broker.perform command).signals = [] := by
  rcases reached.spares_perform command with
    hspares | ⟨id, key, payload, timeToLive, route, failed, hcommand, hfailed⟩
  · exact hspares.of_error failure hfailure
  · rw [hfailed] at hfailure
    cases hfailure
    exact absurd rfl (hother id key payload timeToLive route failed hcommand)

/-- A queue that is full and does not evict turns a message away. -/
theorem Reached.perform_error_full :
    (let broker := (idle .default ⟨0⟩).run [
      .createQueue "jobs" ⟨1, 64, ⟨true, false, false, false⟩⟩,
      .push ⟨1⟩ ⟨[1], 1⟩ 100]
    let outcome := broker.perform (.push ⟨1⟩ ⟨[2], 2⟩ 0)
    outcome.result = .error (.rejected (.full "jobs")) ∧
      outcome.state = broker ∧ outcome.signals = []) := by
  have hidle : Reached 0 (idle .default ⟨0⟩) :=
    .start (start_of_sound (by decide))
  intro broker outcome
  have reached : Reached _ broker := hidle.run _
  have hfull : outcome.result = .error (.rejected (.full "jobs")) := rfl
  refine ⟨hfull, reached.perform_error hfull ?_⟩
  rintro _ _ _ _ _ _ ⟨⟩

end Broker

end MessageBroker
