import MessageBroker.Proofs.Broker.Bindings
import MessageBroker.Proofs.Broker.Memberships

/-! Operations that only take away: each is a run of withdrawals, with all that
it draws after it. -/

namespace MessageBroker.Broker

/-- Everything stands in its place and names only what is there. -/
structure Consistent (broker : Broker) : Prop where
  numbered : broker.Numbered
  memberships : broker.MembershipsMirrored
  bindings : broker.BindingsMirrored

theorem Consistent.edits {broker after : Broker} {stamps : Nat}
    (h : broker.Consistent) (hedits : Edits broker stamps after) :
    after.Consistent where
  numbered := h.numbered.edits hedits
  memberships := h.memberships.edits h.numbered hedits
  bindings := h.bindings.edits h.numbered hedits

abbrev Withdrawals (broker after : Broker) : Prop :=
  Relation.ReflTransGen Withdrawal broker after

namespace Withdrawals

variable {broker after : Broker}

theorem arrangements (h : Withdrawals broker after) :
    Arrangements broker after := by
  induction h with
  | refl => exact .refl
  | tail _ withdrawal ih => exact ih.tail (.withdraw withdrawal)

theorem edits (h : Withdrawals broker after) : Edits broker 0 after :=
  Arrangements.edits h.arrangements

theorem numbered (h : Withdrawals broker after) (hnumbered : broker.Numbered) :
    after.Numbered :=
  hnumbered.edits h.edits

theorem consistent (h : Withdrawals broker after)
    (hconsistent : broker.Consistent) : after.Consistent :=
  hconsistent.edits h.edits

end Withdrawals

variable {broker : Broker}

theorem withdrawals_autoDeleteRoute (broker : Broker) (id : RouteId) :
    Withdrawals broker (broker.autoDeleteRoute id) := by
  unfold autoDeleteRoute
  split
  · exact .refl
  · rename_i route found
    split
    · exact .single (.dropRoute found)
    · exact .refl

theorem update_unlink_of_not_isBound {routes : Registry RouteId Route}
    {id : RouteId} {queue : QueueId} {key : String}
    (hunbound : ∀ route, routes.find? id = some route →
      route.isBound queue key = false) :
    (routes.update id fun route => route.unlink queue key) = routes := by
  unfold Registry.update
  rw [AssocList.modify_eq_self]
  intro route found
  unfold Route.unlink
  rw [MemberIndex.unlink_of_not_contains (hunbound route found)]

theorem unbind_eq_ok {route next : Route} {queue : QueueId} {key : String}
    (hunbind : route.unbind queue key = .ok next) :
    route.isBound queue key = true ∧ next = route.unlink queue key := by
  unfold Route.unbind at hunbind
  split at hunbind
  · rename_i hbound
    cases hunbind
    exact ⟨hbound, rfl⟩
  · cases hunbind

theorem fst_unbindRemoved {routes : Registry RouteId Route}
    {issued : RouteId → Prop} (hkeyed : routes.Keyed issued) (queue : QueueId)
    (touched : List RouteId) (binding : String × RouteId) :
    (unbindRemoved queue (routes, touched) binding).1 =
      routes.update binding.2 fun route => route.unlink queue binding.1 := by
  obtain ⟨key, id⟩ := binding
  unfold unbindRemoved
  dsimp only
  split
  · rename_i habsent
    rw [update_unlink_of_not_isBound]
    intro route found
    rw [habsent] at found
    cases found
  · rename_i route found
    cases hunbind : route.unbind queue key with
    | ok next =>
        obtain ⟨-, rfl⟩ := unbind_eq_ok hunbind
        exact hkeyed.put_eq_update (fun route => route.unlink queue key) found
          rfl
    | error failure =>
        dsimp only
        rw [update_unlink_of_not_isBound]
        intro other hother
        rw [found] at hother
        cases hother
        rw [Bool.eq_false_iff]
        intro hbound
        rw [Route.unbind, if_pos hbound] at hunbind
        cases hunbind

theorem fst_foldl_unbindRemoved {routes : Registry RouteId Route}
    {issued : RouteId → Prop} (hkeyed : routes.Keyed issued) (queue : QueueId)
    (bindings : List (String × RouteId)) (touched : List RouteId) :
    (bindings.foldl (unbindRemoved queue) (routes, touched)).1 =
      bindings.foldl (fun routes binding =>
        routes.update binding.2 fun route => route.unlink queue binding.1)
        routes := by
  induction bindings generalizing routes touched with
  | nil => rfl
  | cons binding rest ih =>
      have hstep := fst_unbindRemoved hkeyed queue touched binding
      have hnext : (routes.update binding.2 fun route =>
          route.unlink queue binding.1).Keyed issued :=
        hkeyed.update _ fun _ _ => rfl
      rw [List.foldl_cons, List.foldl_cons, ← hstep]
      rw [← hstep] at hnext
      exact ih hnext _

/-- The queue goes first, and then the routes that it leaves without a
binding. -/
theorem withdrawals_removeQueue (hnumbered : broker.Numbered) {id : QueueId}
    {queue : Queue} (found : broker.queues.find? id = some queue) :
    Withdrawals broker (broker.removeQueue queue) := by
  unfold removeQueue
  dsimp only
  rw [fst_foldl_unbindRemoved hnumbered.routes]
  apply List.foldlRecOn (motive := Withdrawals broker)
  · exact .single (.dropQueue found)
  · intro middle hmiddle route _
    exact hmiddle.trans (withdrawals_autoDeleteRoute middle route)

theorem withdrawals_autoDeleteQueue (hnumbered : broker.Numbered)
    (id : QueueId) : Withdrawals broker (broker.autoDeleteQueue id) := by
  unfold autoDeleteQueue
  split
  · exact .refl
  · rename_i queue found
    split
    · exact withdrawals_removeQueue hnumbered found
    · exact .refl

theorem withdrawals_autoDeleteChannel (broker : Broker) (id : ChannelId) :
    Withdrawals broker (broker.autoDeleteChannel id) := by
  unfold autoDeleteChannel
  split
  · exact .refl
  · rename_i channel found
    split
    · exact .single (.dropChannel found)
    · exact .refl

theorem withdrawals_deleteQueue (hnumbered : broker.Numbered) (id : QueueId) :
    Withdrawals broker (broker.deleteQueue id).state := by
  unfold deleteQueue
  split
  · exact .refl
  · rename_i queue found
    exact withdrawals_removeQueue hnumbered found

theorem withdrawals_deleteRoute (broker : Broker) (id : RouteId) :
    Withdrawals broker (broker.deleteRoute id).state := by
  unfold deleteRoute
  split
  · exact .refl
  · rename_i route found
    exact .single (.dropRoute found)

theorem withdrawals_deleteChannel (broker : Broker) (id : ChannelId) :
    Withdrawals broker (broker.deleteChannel id).state := by
  unfold deleteChannel
  split
  · exact .refl
  · rename_i channel found
    exact .single (.dropChannel found)

theorem undeclareQueue_cases (hnumbered : broker.Numbered) (client : ClientId)
    (id : QueueId) :
    ((broker.undeclareQueue client id).state = broker ∧
      ¬ (broker.clients.contains client = true ∧
        broker.queues.entities.Holds id fun queue =>
          client ∈ queue.declared.items)) ∨
    ∃ queue, broker.queues.find? id = some queue ∧
      client ∈ queue.declared.items ∧
      (broker.undeclareQueue client id).state = autoDeleteQueue {
        broker with
        queues := broker.queues.update id fun queue => queue.undeclare client
        clients := broker.clients.modify client fun links =>
          links.removeDeclared id
      } id := by
  unfold undeclareQueue
  split
  · rename_i hunknown
    left
    refine ⟨rfl, fun hmember => ?_⟩
    simp [hmember.1] at hunknown
  · split
    · rename_i habsent
      exact .inl ⟨rfl, fun hmember =>
        AssocList.not_holds_of_get? habsent hmember.2⟩
    · rename_i queue found
      split
      · rename_i hstranger
        left
        refine ⟨rfl, fun hmember => ?_⟩
        have hlisted := (AssocList.holds_iff_of_get? found).mp hmember.2
        simp [Queue.isDeclared_iff.mpr hlisted] at hstranger
      · rename_i hlisted
        have hmember : client ∈ queue.declared.items :=
          Queue.isDeclared_iff.mp (by simpa using hlisted)
        have hput : broker.queues.put (queue.undeclare client) =
            broker.queues.update id fun queue => queue.undeclare client :=
          hnumbered.queues.put_eq_update (fun queue => queue.undeclare client)
            found rfl
        right
        refine ⟨queue, found, hmember, ?_⟩
        simp only [Outcome.state_done, putQueue, modifyLinks, hput]

theorem unsubscribeQueue_cases (hnumbered : broker.Numbered)
    (client : ClientId) (id : QueueId) :
    ((broker.unsubscribeQueue client id).state = broker ∧
      ¬ (broker.clients.contains client = true ∧
        broker.queues.entities.Holds id (Queue.Subscribes · client))) ∨
    ∃ queue, broker.queues.find? id = some queue ∧
      (broker.unsubscribeQueue client id).state = {
        broker with
        queues := broker.queues.update id fun queue => queue.unsubscribe client
        clients := broker.clients.modify client fun links =>
          links.removeSubscribed id
      } := by
  unfold unsubscribeQueue
  split
  · rename_i hunknown
    left
    refine ⟨rfl, fun hmember => ?_⟩
    simp [hmember.1] at hunknown
  · split
    · rename_i habsent
      exact .inl ⟨rfl, fun hmember =>
        AssocList.not_holds_of_get? habsent hmember.2⟩
    · rename_i queue found
      split
      · rename_i hstranger
        left
        refine ⟨rfl, fun hmember => ?_⟩
        have hlisted := (AssocList.holds_iff_of_get? found).mp hmember.2
        simp [Queue.isSubscribed_iff.mpr hlisted] at hstranger
      · have hput : broker.queues.put (queue.unsubscribe client) =
            broker.queues.update id fun queue => queue.unsubscribe client :=
          hnumbered.queues.put_eq_update (fun queue => queue.unsubscribe client)
            found rfl
        right
        refine ⟨queue, found, ?_⟩
        simp only [Outcome.state_done, putQueue, modifyLinks, hput]

theorem unsubscribeTopic_cases (hnumbered : broker.Numbered)
    (client : ClientId) (id : ChannelId) (topic : String) :
    ((broker.unsubscribeTopic client id topic).state = broker ∧
      ¬ (broker.clients.contains client = true ∧
        broker.channels.entities.Holds id fun channel =>
          channel.hasTopic client topic = true)) ∨
    ∃ channel, broker.channels.find? id = some channel ∧
      channel.hasTopic client topic = true ∧
      (broker.unsubscribeTopic client id topic).state = autoDeleteChannel {
        broker with
        channels := broker.channels.update id fun channel =>
          { channel with topics := channel.topics.unlink topic client }
        clients := broker.clients.modify client fun links =>
          links.removeTopic id topic
      } id := by
  unfold unsubscribeTopic Channel.unsubscribeTopic
  split
  · rename_i hunknown
    left
    refine ⟨rfl, fun hmember => ?_⟩
    simp [hmember.1] at hunknown
  · split
    · rename_i habsent
      exact .inl ⟨rfl, fun hmember =>
        AssocList.not_holds_of_get? habsent hmember.2⟩
    · rename_i channel found
      by_cases hlisted : channel.hasTopic client topic = true
      · have hput := hnumbered.channels.put_eq_update
          (fun channel => { channel with
            topics := channel.topics.unlink topic client }) found rfl
        right
        refine ⟨channel, found, hlisted, ?_⟩
        simp only [if_pos hlisted, Outcome.state_done, putChannel, modifyLinks,
          hput]
      · left
        rw [if_neg hlisted]
        exact ⟨rfl, fun hmember =>
          hlisted ((AssocList.holds_iff_of_get? found).mp hmember.2)⟩

theorem unsubscribePattern_cases (hnumbered : broker.Numbered)
    (client : ClientId) (id : ChannelId) (pattern : String) :
    ((broker.unsubscribePattern client id pattern).state = broker ∧
      ¬ (broker.clients.contains client = true ∧
        broker.channels.entities.Holds id fun channel =>
          channel.hasPattern client pattern = true)) ∨
    ∃ channel, broker.channels.find? id = some channel ∧
      channel.hasPattern client pattern = true ∧
      (broker.unsubscribePattern client id pattern).state = autoDeleteChannel {
        broker with
        channels := broker.channels.update id fun channel =>
          { channel with patterns := channel.patterns.unlink pattern client }
        clients := broker.clients.modify client fun links =>
          links.removePattern id pattern
      } id := by
  unfold unsubscribePattern Channel.unsubscribePattern
  split
  · rename_i hunknown
    left
    refine ⟨rfl, fun hmember => ?_⟩
    simp [hmember.1] at hunknown
  · split
    · rename_i habsent
      exact .inl ⟨rfl, fun hmember =>
        AssocList.not_holds_of_get? habsent hmember.2⟩
    · rename_i channel found
      by_cases hlisted : channel.hasPattern client pattern = true
      · have hput := hnumbered.channels.put_eq_update
          (fun channel => { channel with
            patterns := channel.patterns.unlink pattern client }) found rfl
        right
        refine ⟨channel, found, hlisted, ?_⟩
        simp only [if_pos hlisted, Outcome.state_done, putChannel, modifyLinks,
          hput]
      · left
        rw [if_neg hlisted]
        exact ⟨rfl, fun hmember =>
          hlisted ((AssocList.holds_iff_of_get? found).mp hmember.2)⟩

theorem withdrawals_undeclareQueue (hnumbered : broker.Numbered)
    (client : ClientId) (id : QueueId) :
    Withdrawals broker (broker.undeclareQueue client id).state := by
  rcases undeclareQueue_cases hnumbered client id with
    ⟨hsame, -⟩ | ⟨queue, found, -, hstate⟩
  · rw [hsame]
  · have hstep := Withdrawal.undeclare client found
    rw [hstate]
    exact .head hstep
      (withdrawals_autoDeleteQueue (hnumbered.withdrawal hstep) id)

theorem withdrawals_unsubscribeQueue (hnumbered : broker.Numbered)
    (client : ClientId) (id : QueueId) :
    Withdrawals broker (broker.unsubscribeQueue client id).state := by
  rcases unsubscribeQueue_cases hnumbered client id with
    ⟨hsame, -⟩ | ⟨queue, found, hstate⟩
  · rw [hsame]
  · rw [hstate]
    exact .single (.unsubscribe client found)

theorem withdrawals_unsubscribeTopic (hnumbered : broker.Numbered)
    (client : ClientId) (id : ChannelId) (topic : String) :
    Withdrawals broker (broker.unsubscribeTopic client id topic).state := by
  rcases unsubscribeTopic_cases hnumbered client id topic with
    ⟨hsame, -⟩ | ⟨channel, found, -, hstate⟩
  · rw [hsame]
  · rw [hstate]
    exact .head (.unsubscribeTopic client topic found)
      (withdrawals_autoDeleteChannel _ id)

theorem withdrawals_unsubscribePattern (hnumbered : broker.Numbered)
    (client : ClientId) (id : ChannelId) (pattern : String) :
    Withdrawals broker (broker.unsubscribePattern client id pattern).state := by
  rcases unsubscribePattern_cases hnumbered client id pattern with
    ⟨hsame, -⟩ | ⟨channel, found, -, hstate⟩
  · rw [hsame]
  · rw [hstate]
    exact .head (.unsubscribePattern client pattern found)
      (withdrawals_autoDeleteChannel _ id)

theorem withdrawals_unbind (hnumbered : broker.Numbered) (id : RouteId)
    (queue : QueueId) (key : String) :
    Withdrawals broker (broker.unbind id queue key).state := by
  unfold unbind
  split
  · exact .refl
  · rename_i route found
    split
    · exact .refl
    · rename_i next hunbind
      obtain ⟨-, rfl⟩ := unbind_eq_ok hunbind
      have hput : broker.routes.put (route.unlink queue key) =
          broker.routes.update id fun route => route.unlink queue key :=
        hnumbered.routes.put_eq_update (fun route => route.unlink queue key)
          found rfl
      simp only [Outcome.state_done, hput]
      exact .head (.unbind queue key found) (withdrawals_autoDeleteRoute _ id)

end MessageBroker.Broker
