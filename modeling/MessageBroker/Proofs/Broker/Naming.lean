import MessageBroker.Proofs.Broker.Reached
import MessageBroker.Proofs.Broker.Settling
import MessageBroker.Proofs.Collection.Naming

/-! Names of one kind are distinct and valid, and every queue has settings that
the configuration allows. -/

namespace MessageBroker

namespace Queue

theorem Refilled.name_eq {before after : Queue} (h : Refilled before after) :
    after.name = before.name := by
  obtain ⟨_, _, _, _, rfl⟩ := h
  rfl

theorem name_subscribe (queue : Queue) (client : ClientId)
    (noticesOnly : Bool) :
    (queue.subscribe client noticesOnly).name = queue.name := by
  unfold subscribe
  split <;> rfl

theorem name_dispatched (queue : Queue) : queue.dispatched.name = queue.name := by
  unfold dispatched
  split <;> rfl

theorem name_push (queue : Queue) (clock : TagClock) (payload : Payload)
    (timeToLive : UInt32) :
    (queue.push clock payload timeToLive).state.1.name = queue.name := by
  rcases queue.push_cases clock payload timeToLive with
    ⟨-, hpush⟩ | ⟨-, -, hpush⟩ | ⟨-, -, -, hpush⟩ | ⟨-, -, -, hpush⟩ <;>
    rw [hpush]
  · rfl
  · exact queue.name_dispatched
  · exact ((rebuffered_ensureRoom queue).trans
      (rebuffered_enterNewest _ _)).refilled.name_eq
  · exact (rebuffered_ensureRoom queue).refilled.name_eq

theorem Turn.name_eq {clock : TagClock} {queue next : Queue} {stamps : Nat}
    (h : queue.Turn clock stamps next) : next.name = queue.name := by
  cases h with
  | push payload timeToLive => exact name_push queue clock _ _
  | refuse payload timeToLive => exact name_push queue clock _ _
  | pop holdTime => exact (refilled_pop queue _ _).name_eq
  | confirm confirmed => exact (refilled_confirm confirmed).name_eq
  | purge => rfl
  | refill => exact (refilled_refill queue _).name_eq

end Queue

theorem Channel.name_advanced (channel : Channel) (topic : String) :
    (channel.advanced topic).name = channel.name := by
  unfold advanced
  split <;> rfl

namespace Broker

theorem one_le_of_ne_zero {limit : UInt32} (hzero : limit ≠ 0) : 1 ≤ limit := by
  rw [UInt32.le_iff_toNat_le]
  refine Nat.pos_of_ne_zero fun hnone => hzero ?_
  exact UInt32.toNat_inj.mp hnone

theorem queueFault?_eq_none_iff {config : Config} {settings : QueueSettings} :
    queueFault? config settings = none ↔
      (1 ≤ settings.maxMessages ∧
        settings.maxMessages ≤ config.maxQueueMessages) ∧
      1 ≤ settings.maxMessageSize ∧
        settings.maxMessageSize ≤ config.maxMessageSize := by
  have hrange : ∀ value limit : UInt32,
      ¬ (value = 0 ∨ limit < value) ↔ 1 ≤ value ∧ value ≤ limit := by
    intro value limit
    rw [not_or, UInt32.not_lt]
    refine and_congr_left' ⟨one_le_of_ne_zero, ?_⟩
    rintro hpositive rfl
    exact absurd hpositive (by decide)
  rw [← hrange, ← hrange]
  unfold queueFault?
  split
  · rename_i houtside
    exact ⟨nofun, fun h => absurd houtside h.1⟩
  · rename_i hmessages
    split
    · rename_i houtside
      exact ⟨nofun, fun h => absurd houtside h.2⟩
    · rename_i hsize
      exact ⟨fun _ => ⟨hmessages, hsize⟩, fun _ => rfl⟩

structure IsProperQueue (config : Config) (queue : Queue) : Prop where
  name : Name.isValid queue.name = true
  settings : queueFault? config queue.settings = none

theorem IsProperQueue.congr {config : Config} {queue next : Queue}
    (h : IsProperQueue config queue) (hname : next.name = queue.name)
    (hsettings : next.settings = queue.settings) :
    IsProperQueue config next :=
  ⟨hname ▸ h.name, hsettings ▸ h.settings⟩

structure Listed (broker : Broker) : Prop where
  queues : broker.queues.Lists (IsProperQueue broker.config)
  routes : broker.routes.Lists fun route => Name.isValid route.name = true
  channels : broker.channels.Lists fun channel =>
    Name.isValid channel.name = true

namespace Listed

variable {broker after : Broker} {stamps : Nat}

theorem enrolment (h : broker.Listed) (hnumbered : broker.Numbered)
    (henrol : Enrolment broker after) : after.Listed := by
  cases henrol with
  | connect => exact ⟨h.queues, h.routes, h.channels⟩
  | addQueue valid fresh sound =>
      exact ⟨h.queues.add hnumbered.freshQueue fresh ⟨valid, sound⟩, h.routes,
        h.channels⟩
  | addRoute valid fresh =>
      exact ⟨h.queues, h.routes.add hnumbered.freshRoute fresh valid,
        h.channels⟩
  | addChannel valid fresh =>
      exact ⟨h.queues, h.routes,
        h.channels.add hnumbered.freshChannel fresh valid⟩
  | declare =>
      exact ⟨h.queues.update _ fun _ _ => ⟨rfl, fun hproper =>
        hproper.congr rfl rfl⟩, h.routes, h.channels⟩
  | @subscribe client id queue noticesOnly =>
      refine ⟨h.queues.update _ fun queue _ => ?_, h.routes, h.channels⟩
      have hname := queue.name_subscribe client noticesOnly
      exact ⟨hname, fun hproper => hproper.congr hname
        (queue.sameContents_subscribe client noticesOnly).settings⟩
  | bind =>
      exact ⟨h.queues.update _ fun _ _ => ⟨rfl, fun hproper =>
        hproper.congr rfl rfl⟩, h.routes.update _ fun _ _ => ⟨rfl, id⟩,
        h.channels⟩
  | subscribeTopic =>
      exact ⟨h.queues, h.routes, h.channels.update _ fun _ _ => ⟨rfl, id⟩⟩
  | subscribePattern =>
      exact ⟨h.queues, h.routes, h.channels.update _ fun _ _ => ⟨rfl, id⟩⟩

theorem withdrawal (h : broker.Listed) (hnumbered : broker.Numbered)
    (hwithdraw : Withdrawal broker after) : after.Listed := by
  cases hwithdraw with
  | leave => exact ⟨h.queues, h.routes, h.channels⟩
  | dropQueue found =>
      exact ⟨h.queues.erase found (hnumbered.queues.id_eq found),
        h.routes.foldl_update _ fun _ _ => ⟨rfl, id⟩, h.channels⟩
  | dropRoute found =>
      exact ⟨h.queues.foldl_update _ fun _ _ => ⟨rfl, fun hproper =>
        hproper.congr rfl rfl⟩,
        h.routes.erase found (hnumbered.routes.id_eq found), h.channels⟩
  | dropChannel found =>
      exact ⟨h.queues, h.routes,
        h.channels.erase found (hnumbered.channels.id_eq found)⟩
  | undeclare =>
      exact ⟨h.queues.update _ fun _ _ => ⟨rfl, fun hproper =>
        hproper.congr rfl rfl⟩, h.routes, h.channels⟩
  | unsubscribe =>
      exact ⟨h.queues.update _ fun _ _ => ⟨rfl, fun hproper =>
        hproper.congr rfl rfl⟩, h.routes, h.channels⟩
  | unbind =>
      exact ⟨h.queues.update _ fun _ _ => ⟨rfl, fun hproper =>
        hproper.congr rfl rfl⟩, h.routes.update _ fun _ _ => ⟨rfl, id⟩,
        h.channels⟩
  | unsubscribeTopic =>
      exact ⟨h.queues, h.routes, h.channels.update _ fun _ _ => ⟨rfl, id⟩⟩
  | unsubscribePattern =>
      exact ⟨h.queues, h.routes, h.channels.update _ fun _ _ => ⟨rfl, id⟩⟩
  | flush => exact ⟨.empty, .empty, .empty⟩

theorem upkeep (h : broker.Listed) (hnumbered : broker.Numbered)
    (hkeep : Upkeep broker after) : after.Listed := by
  cases hkeep with
  | renameQueue found valid fresh =>
      exact ⟨h.queues.rename found (hnumbered.queues.id_eq found) fresh rfl
        ⟨valid, (h.queues.proper _ _ found).settings⟩, h.routes, h.channels⟩
  | renameRoute found valid fresh =>
      exact ⟨h.queues, h.routes.rename found (hnumbered.routes.id_eq found)
        fresh rfl valid, h.channels⟩
  | renameChannel found valid fresh =>
      exact ⟨h.queues, h.routes, h.channels.rename found
        (hnumbered.channels.id_eq found) fresh rfl valid⟩
  | rotateRoute =>
      exact ⟨h.queues, h.routes.update _ fun _ _ => ⟨rfl, id⟩, h.channels⟩
  | rotateChannel id topic =>
      refine ⟨h.queues, h.routes, h.channels.update _ fun channel _ => ?_⟩
      have hname := channel.name_advanced topic
      exact ⟨hname, fun hproper => hname ▸ hproper⟩

theorem edit (h : broker.Listed) (hnumbered : broker.Numbered)
    (hedit : Edit broker stamps after) : after.Listed := by
  cases hedit with
  | arrange arrangement =>
      cases arrangement with
      | enrol enrolment => exact h.enrolment hnumbered enrolment
      | withdraw withdrawal => exact h.withdrawal hnumbered withdrawal
      | keepUp upkeep => exact h.upkeep hnumbered upkeep
  | move traffic =>
      cases traffic with
      | turnQueue found turn =>
          refine ⟨h.queues.update _ fun queue hqueue => ?_, h.routes,
            h.channels⟩
          rw [found] at hqueue
          cases hqueue
          exact ⟨turn.name_eq, fun hproper => hproper.congr turn.name_eq
            turn.sameMembers.settings⟩
      | tick now =>
          refine ⟨h.queues.mapEntities fun queue => ?_, h.routes, h.channels⟩
          have hswept := Queue.refilled_sweep queue now
          exact ⟨hswept.name_eq, fun hproper => hproper.congr hswept.name_eq
            hswept.settings_eq⟩

theorem edits (h : broker.Listed) (hnumbered : broker.Numbered)
    (hedits : Edits broker stamps after) : after.Listed :=
  hedits.kept hnumbered h .edit

end Listed

theorem Reached.listed {stamps : Nat} {broker : Broker}
    (reached : Reached stamps broker) : broker.Listed :=
  reached.kept (fun _ _ _ => ⟨.empty, .empty, .empty⟩) .edit

end Broker

end MessageBroker
