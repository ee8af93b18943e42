import MessageBroker.Proofs.Broker.Edit
import MessageBroker.Proofs.Queue.Members

/-! Every entity stands under its own identifier, and the next number is one
that no entity has. -/

namespace MessageBroker.Broker

structure Numbered (broker : Broker) : Prop where
  queues : broker.queues.Keyed fun id => id.number ≤ broker.lastNumber
  routes : broker.routes.Keyed fun id => id.number ≤ broker.lastNumber
  channels : broker.channels.Keyed fun id => id.number ≤ broker.lastNumber

namespace Numbered

variable {broker after : Broker} {stamps : Nat}

theorem freshQueue (h : broker.Numbered) :
    broker.queues.find? ⟨broker.lastNumber + 1⟩ = none :=
  h.queues.find?_eq_none (Nat.not_succ_le_self _)

theorem freshRoute (h : broker.Numbered) :
    broker.routes.find? ⟨broker.lastNumber + 1⟩ = none :=
  h.routes.find?_eq_none (Nat.not_succ_le_self _)

theorem freshChannel (h : broker.Numbered) :
    broker.channels.find? ⟨broker.lastNumber + 1⟩ = none :=
  h.channels.find?_eq_none (Nat.not_succ_le_self _)

theorem enrolment (h : broker.Numbered) (henrol : Enrolment broker after) :
    after.Numbered := by
  cases henrol with
  | connect => exact ⟨h.queues, h.routes, h.channels⟩
  | addQueue =>
      exact ⟨(h.queues.mono fun _ => Nat.le_succ_of_le).add (Nat.le_refl _),
        h.routes.mono fun _ => Nat.le_succ_of_le,
        h.channels.mono fun _ => Nat.le_succ_of_le⟩
  | addRoute =>
      exact ⟨h.queues.mono fun _ => Nat.le_succ_of_le,
        (h.routes.mono fun _ => Nat.le_succ_of_le).add (Nat.le_refl _),
        h.channels.mono fun _ => Nat.le_succ_of_le⟩
  | addChannel =>
      exact ⟨h.queues.mono fun _ => Nat.le_succ_of_le,
        h.routes.mono fun _ => Nat.le_succ_of_le,
        (h.channels.mono fun _ => Nat.le_succ_of_le).add (Nat.le_refl _)⟩
  | declare => exact ⟨h.queues.update _ fun _ _ => rfl, h.routes, h.channels⟩
  | subscribe noticesOnly =>
      refine ⟨h.queues.update _ ?_, h.routes, h.channels⟩
      intro queue _
      unfold Queue.subscribe
      split <;> rfl
  | bind =>
      exact ⟨h.queues.update _ fun _ _ => rfl, h.routes.update _ fun _ _ => rfl,
        h.channels⟩
  | subscribeTopic =>
      exact ⟨h.queues, h.routes, h.channels.update _ fun _ _ => rfl⟩
  | subscribePattern =>
      exact ⟨h.queues, h.routes, h.channels.update _ fun _ _ => rfl⟩

theorem withdrawal (h : broker.Numbered) (hwithdraw : Withdrawal broker after) :
    after.Numbered := by
  cases hwithdraw with
  | leave => exact ⟨h.queues, h.routes, h.channels⟩
  | dropQueue =>
      refine ⟨h.queues.erase _, ?_, h.channels⟩
      apply List.foldlRecOn (motive := fun routes : Registry RouteId Route =>
        routes.Keyed fun id => id.number ≤ broker.lastNumber)
      · exact h.routes
      · intro routes hroutes binding _
        exact hroutes.update _ fun _ _ => rfl
  | dropRoute =>
      refine ⟨?_, h.routes.erase _, h.channels⟩
      apply List.foldlRecOn (motive := fun queues : Registry QueueId Queue =>
        queues.Keyed fun id => id.number ≤ broker.lastNumber)
      · exact h.queues
      · intro queues hqueues binding _
        exact hqueues.update _ fun _ _ => rfl
  | dropChannel => exact ⟨h.queues, h.routes, h.channels.erase _⟩
  | undeclare => exact ⟨h.queues.update _ fun _ _ => rfl, h.routes, h.channels⟩
  | unsubscribe =>
      exact ⟨h.queues.update _ fun _ _ => rfl, h.routes, h.channels⟩
  | unbind =>
      exact ⟨h.queues.update _ fun _ _ => rfl, h.routes.update _ fun _ _ => rfl,
        h.channels⟩
  | unsubscribeTopic =>
      exact ⟨h.queues, h.routes, h.channels.update _ fun _ _ => rfl⟩
  | unsubscribePattern =>
      exact ⟨h.queues, h.routes, h.channels.update _ fun _ _ => rfl⟩
  | flush =>
      exact ⟨Registry.keyed_empty, Registry.keyed_empty, Registry.keyed_empty⟩

theorem upkeep (h : broker.Numbered) (hkeep : Upkeep broker after) :
    after.Numbered := by
  cases hkeep with
  | renameQueue found =>
      exact ⟨h.queues.rename found rfl, h.routes, h.channels⟩
  | renameRoute found =>
      exact ⟨h.queues, h.routes.rename found rfl, h.channels⟩
  | renameChannel found =>
      exact ⟨h.queues, h.routes, h.channels.rename found rfl⟩
  | rotateRoute => exact ⟨h.queues, h.routes.update _ fun _ _ => rfl, h.channels⟩
  | rotateChannel =>
      refine ⟨h.queues, h.routes, h.channels.update _ ?_⟩
      intro channel _
      unfold Channel.advanced
      split <;> rfl

theorem arrangement (h : broker.Numbered)
    (harrange : Arrangement broker after) : after.Numbered := by
  cases harrange with
  | enrol enrolment => exact h.enrolment enrolment
  | withdraw withdrawal => exact h.withdrawal withdrawal
  | keepUp upkeep => exact h.upkeep upkeep

theorem traffic (h : broker.Numbered) (hmove : Traffic broker stamps after) :
    after.Numbered := by
  cases hmove with
  | turnQueue found turn =>
      refine ⟨h.queues.update _ ?_, h.routes, h.channels⟩
      intro queue hqueue
      rw [found] at hqueue
      cases hqueue
      exact turn.sameMembers.id
  | tick now =>
      exact ⟨h.queues.mapEntities fun queue =>
        (queue.refilled_sweep now).id_eq, h.routes, h.channels⟩

theorem edit (h : broker.Numbered) (hedit : Edit broker stamps after) :
    after.Numbered := by
  cases hedit with
  | arrange arrangement => exact h.arrangement arrangement
  | move traffic => exact h.traffic traffic

theorem edits (h : broker.Numbered) (hedits : Edits broker stamps after) :
    after.Numbered := by
  induction hedits with
  | refl => exact h
  | tail _ edit ih => exact ih.edit edit

end Numbered

theorem Edits.kept {broker after : Broker} {stamps : Nat}
    {property : Broker → Prop} (hedits : Edits broker stamps after)
    (hnumbered : broker.Numbered) (h : property broker)
    (hedit : ∀ {broker after : Broker} {stamps : Nat}, property broker →
      broker.Numbered → Edit broker stamps after → property after) :
    property after := by
  induction hedits with
  | refl => exact h
  | tail edits edit ih => exact hedit ih (hnumbered.edits edits) edit

end MessageBroker.Broker
