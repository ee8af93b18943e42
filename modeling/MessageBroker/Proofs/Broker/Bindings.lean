import MessageBroker.Proofs.Broker.Numbering
import MessageBroker.Proofs.Broker.Sides
import MessageBroker.Proofs.Collection.Mirror

/-! Bindings are the same seen from the route and from the queue, through every
edit. -/

namespace MessageBroker

namespace Route

variable {route : Route} {queue other : QueueId} {key another : String}

theorem isBound_bind :
    (route.bind queue key).isBound other another = true ↔
      route.isBound other another = true ∨ (another = key ∧ other = queue) :=
  MemberIndex.contains_link

theorem isBound_unlink :
    (route.unlink queue key).isBound other another = true ↔
      route.isBound other another = true ∧
        ¬ (another = key ∧ other = queue) :=
  MemberIndex.contains_unlink

theorem isBound_rotate :
    (route.rotate key).isBound other another = route.isBound other another :=
  MemberIndex.contains_rotate

end Route

namespace Broker

def BindingsMirrored (broker : Broker) : Prop :=
  ∀ key, Mirrored broker.routes.entities broker.queues.entities
    (fun route queue => route.isBound queue key = true)
    (fun queue route => queue.bindings.contains key route = true)

namespace BindingsMirrored

variable {broker after : Broker} {stamps : Nat}

theorem enrolment (h : broker.BindingsMirrored) (hnumbered : broker.Numbered)
    (henrol : Enrolment broker after) : after.BindingsMirrored := by
  intro another
  cases henrol with
  | connect => exact h another
  | addQueue =>
      exact (h another).insertRight hnumbered.freshQueue
        fun _ => Bool.false_ne_true
  | addRoute =>
      exact (h another).insertLeft hnumbered.freshRoute
        fun _ => Bool.false_ne_true
  | addChannel => exact h another
  | declare => exact (h another).modifyRight fun _ _ => Iff.rfl
  | subscribe =>
      apply (h another).modifyRight
      intro _ _
      rw [Queue.bindings_subscribe]
  | bind key foundRoute foundQueue =>
      exact (h another).linkWhen (AssocList.contains_of_get? foundRoute)
        (AssocList.contains_of_get? foundQueue) (fun _ _ => Route.isBound_bind)
        (fun _ _ => MemberIndex.contains_link)
  | subscribeTopic => exact h another
  | subscribePattern => exact h another

theorem detachQueue (h : broker.BindingsMirrored) {id : QueueId}
    {queue : Queue} (found : broker.queues.find? id = some queue)
    (hid : queue.id = id) : (broker.detachQueue queue).BindingsMirrored := by
  subst hid
  intro key
  simp only [Broker.detachQueue]
  rw [Registry.entities_foldl_update]
  apply Mirrored.symm
  refine (h key).symm.drop (fun binding => key = binding.1) _ ?_ ?_
  · intro binding route item
    exact Route.isBound_unlink
  · intro route hlisted
    have hbound := (AssocList.holds_iff_of_get? found).mp hlisted
    exact ⟨(key, route), MemberIndex.mem_pairs.mpr hbound, rfl, rfl⟩

theorem removeRoute (h : broker.BindingsMirrored) {id : RouteId}
    {route : Route} (found : broker.routes.find? id = some route)
    (hid : route.id = id) : (broker.removeRoute route).BindingsMirrored := by
  subst hid
  intro key
  simp only [Broker.removeRoute]
  rw [Registry.entities_foldl_update]
  refine (h key).drop (fun binding => key = binding.1) _ ?_ ?_
  · intro binding queue item
    exact MemberIndex.contains_unlink
  · intro queue hlisted
    have hbound := (AssocList.holds_iff_of_get? found).mp hlisted
    exact ⟨(key, queue), MemberIndex.mem_pairs.mpr hbound, rfl, rfl⟩

theorem withdrawal (h : broker.BindingsMirrored) (hnumbered : broker.Numbered)
    (hwithdraw : Withdrawal broker after) : after.BindingsMirrored := by
  cases hwithdraw with
  | leave => exact h
  | dropQueue found =>
      exact h.detachQueue found (hnumbered.queues.id_eq found)
  | dropRoute found => exact h.removeRoute found (hnumbered.routes.id_eq found)
  | dropChannel => exact h
  | undeclare => exact fun key => (h key).modifyRight fun _ _ => Iff.rfl
  | unsubscribe => exact fun key => (h key).modifyRight fun _ _ => Iff.rfl
  | unbind queue key found =>
      exact fun another => (h another).unlinkWhen
        (fun _ _ => Route.isBound_unlink) (fun _ _ => MemberIndex.contains_unlink)
  | unsubscribeTopic => exact h
  | unsubscribePattern => exact h
  | flush =>
      exact fun key => Mirrored.of_nothing (fun _ _ => AssocList.not_holds_empty)
        fun _ _ => AssocList.not_holds_empty

theorem upkeep (h : broker.BindingsMirrored) (hnumbered : broker.Numbered)
    (hkeep : Upkeep broker after) : after.BindingsMirrored := by
  intro key
  cases hkeep with
  | @renameQueue id queue name found =>
      have hid : queue.id = id := hnumbered.queues.id_eq found
      subst hid
      exact (h key).replaceRight found fun _ => Iff.rfl
  | @renameRoute id route name found =>
      have hid : route.id = id := hnumbered.routes.id_eq found
      subst hid
      exact (h key).replaceLeft found fun _ => Iff.rfl
  | renameChannel => exact h key
  | rotateRoute =>
      refine (h key).modifyLeft fun _ _ => ?_
      rw [Route.isBound_rotate]
  | rotateChannel => exact h key

theorem traffic (h : broker.BindingsMirrored)
    (hmove : Traffic broker stamps after) : after.BindingsMirrored := by
  intro key
  cases hmove with
  | turnQueue found turn =>
      refine (h key).replaceRight found fun _ => ?_
      rw [turn.sameMembers.bindings]
  | tick now =>
      refine (h key).mapRight fun queue _ => ?_
      rw [(queue.refilled_sweep now).sameMembers.bindings]

theorem arrangement (h : broker.BindingsMirrored) (hnumbered : broker.Numbered)
    (harrange : Arrangement broker after) : after.BindingsMirrored := by
  cases harrange with
  | enrol enrolment => exact h.enrolment hnumbered enrolment
  | withdraw withdrawal => exact h.withdrawal hnumbered withdrawal
  | keepUp upkeep => exact h.upkeep hnumbered upkeep

theorem edits (h : broker.BindingsMirrored) (hnumbered : broker.Numbered)
    (hedits : Edits broker stamps after) : after.BindingsMirrored := by
  induction hedits with
  | refl => exact h
  | tail edits edit ih =>
      cases edit with
      | arrange arrangement =>
          exact ih.arrangement (hnumbered.edits edits) arrangement
      | move traffic => exact ih.traffic traffic

end BindingsMirrored

end Broker

end MessageBroker
