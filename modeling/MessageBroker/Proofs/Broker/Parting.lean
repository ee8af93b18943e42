import MessageBroker.Proofs.Broker.Issuing
import MessageBroker.Proofs.Collection.Keep

/-! What is left of a broker without one client and without the entities that
go. Every step of a client's leaving takes away what is left out here, and
nothing else. -/

namespace MessageBroker

/-- The queue without a client and without some of its routes. Its messages stay
as they are. -/
def Queue.without (queue : Queue) (client : ClientId)
    (stays : RouteId → Bool) : Queue := {
  queue with
  declared := queue.declared.erase client
  messageSubscribers := queue.messageSubscribers.erase client
  notifySubscribers := queue.notifySubscribers.erase client
  bindings := queue.bindings.keep stays
}

def Route.keepQueues (route : Route) (stays : QueueId → Bool) : Route :=
  { route with bindings := route.bindings.keep stays }

def Channel.without (channel : Channel) (client : ClientId) : Channel := {
  channel with
  topics := channel.topics.keep (· != client)
  patterns := channel.patterns.keep (· != client)
}

def ClientLinks.keepQueues (links : ClientLinks) (stays : QueueId → Bool) :
    ClientLinks := {
  links with
  declaredQueues := links.declaredQueues.keep stays
  subscribedQueues := links.subscribedQueues.keep stays
}

/-- The broker without a client and with only those entities that stay. -/
def Broker.without (broker : Broker) (client : ClientId)
    (stays : Entity → Bool) : Broker := {
  broker with
  queues := (broker.queues.keep fun id => stays (.queue id)).mapEntities
    fun queue => queue.without client fun route => stays (.route route)
  routes := (broker.routes.keep fun id => stays (.route id)).mapEntities
    fun route => route.keepQueues fun queue => stays (.queue queue)
  channels := (broker.channels.keep fun id => stays (.channel id)).mapEntities
    fun channel => channel.without client
  clients := (broker.clients.erase client).mapValues
    fun links => links.keepQueues fun queue => stays (.queue queue)
}

theorem Queue.without_undeclare (queue : Queue) (client : ClientId)
    (stays : RouteId → Bool) :
    (queue.undeclare client).without client stays =
      queue.without client stays := by
  simp only [without, undeclare, MemberSet.erase_erase]

theorem Queue.without_unsubscribe (queue : Queue) (client : ClientId)
    (stays : RouteId → Bool) :
    (queue.unsubscribe client).without client stays =
      queue.without client stays := by
  simp only [without, unsubscribe, MemberSet.erase_erase]

theorem Route.keepQueues_unlink {stays : QueueId → Bool} {queue : QueueId}
    (hgone : stays queue = false) (route : Route) (key : String) :
    (route.unlink queue key).keepQueues stays = route.keepQueues stays := by
  simp only [keepQueues, unlink, MemberIndex.keep_unlink stays hgone]

theorem Channel.without_unlinkTopic (channel : Channel) (client : ClientId)
    (topic : String) :
    without {
        channel with
        topics := channel.topics.unlink topic client
      } client = channel.without client := by
  simp only [without, MemberIndex.keep_ne_unlink]

theorem Channel.without_unlinkPattern (channel : Channel) (client : ClientId)
    (pattern : String) :
    without {
        channel with
        patterns := channel.patterns.unlink pattern client
      } client = channel.without client := by
  simp only [without, MemberIndex.keep_ne_unlink]

theorem ClientLinks.keepQueues_forgetQueue {stays : QueueId → Bool}
    {queue : QueueId} (hgone : stays queue = false) (links : ClientLinks) :
    (links.forgetQueue queue).keepQueues stays = links.keepQueues stays := by
  simp only [keepQueues, forgetQueue, removeDeclared, removeSubscribed,
    MemberSet.keep_erase stays hgone]

theorem Queue.without_eq_self {queue : Queue} {client : ClientId}
    {stays : RouteId → Bool} (hdeclared : client ∉ queue.declared.items)
    (hsubscribed : ¬ queue.Subscribes client)
    (hbindings : ∀ key route, queue.bindings.contains key route = true →
      stays route = true) : queue.without client stays = queue := by
  obtain ⟨hmessages, hnotices⟩ := not_or.mp hsubscribed
  simp only [without, MemberSet.erase_of_not_mem hdeclared,
    MemberSet.erase_of_not_mem hmessages, MemberSet.erase_of_not_mem hnotices,
    MemberIndex.keep_eq_self hbindings]

theorem Route.keepQueues_eq_self {route : Route} {stays : QueueId → Bool}
    (hbindings : ∀ key queue, route.isBound queue key = true →
      stays queue = true) : route.keepQueues stays = route := by
  simp only [keepQueues, MemberIndex.keep_eq_self hbindings]

theorem Channel.without_eq_self {channel : Channel} {client : ClientId}
    (htopics : ∀ topic, ¬ channel.hasTopic client topic = true)
    (hpatterns : ∀ pattern, ¬ channel.hasPattern client pattern = true) :
    channel.without client = channel := by
  have hsameTopics : channel.topics.keep (· != client) = channel.topics := by
    apply MemberIndex.keep_eq_self
    intro topic other hlisted
    exact bne_iff_ne.mpr fun hsame => htopics topic (hsame ▸ hlisted)
  have hsamePatterns : channel.patterns.keep (· != client) =
      channel.patterns := by
    apply MemberIndex.keep_eq_self
    intro pattern other hlisted
    exact bne_iff_ne.mpr fun hsame => hpatterns pattern (hsame ▸ hlisted)
  simp only [without, hsameTopics, hsamePatterns]

theorem ClientLinks.keepQueues_eq_self {links : ClientLinks}
    {stays : QueueId → Bool}
    (hdeclared : ∀ id ∈ links.declaredQueues.items, stays id = true)
    (hsubscribed : ∀ id ∈ links.subscribedQueues.items, stays id = true) :
    links.keepQueues stays = links := by
  simp only [keepQueues, MemberSet.keep_eq_self hdeclared,
    MemberSet.keep_eq_self hsubscribed]

namespace Broker

variable {broker middle after : Broker} {client : ClientId}
  {stays : Entity → Bool}

theorem has_without {entity : Entity} :
    (broker.without client stays).Has entity ↔
      stays entity = true ∧ broker.Has entity := by
  cases entity with
  | queue id => exact Registry.exists_find?_keep
  | route id => exact Registry.exists_find?_keep
  | channel id => exact Registry.exists_find?_keep

theorem without_updateQueue {id : QueueId} {change : Queue → Queue}
    {forget : ClientLinks → ClientLinks}
    (hview : ∀ queue stays,
      (change queue).without client stays = queue.without client stays) :
    without {
        broker with
        queues := broker.queues.update id change
        clients := broker.clients.modify client forget
      } client stays = broker.without client stays := by
  unfold without
  rw [Registry.mapEntities_keep_update fun queue => hview queue _,
    AssocList.erase_modify_self]

theorem without_updateChannel {id : ChannelId} {change : Channel → Channel}
    {forget : ClientLinks → ClientLinks}
    (hview : ∀ channel : Channel,
      (change channel).without client = channel.without client) :
    without {
        broker with
        channels := broker.channels.update id change
        clients := broker.clients.modify client forget
      } client stays = broker.without client stays := by
  unfold without
  rw [Registry.mapEntities_keep_update hview, AssocList.erase_modify_self]

/-- Everything stands in its place and under its name. -/
structure Orderly (broker : Broker) : Prop where
  consistent : broker.Consistent
  listed : broker.Listed

theorem Orderly.withdrawals (h : broker.Orderly)
    (hleft : Withdrawals broker after) : after.Orderly where
  consistent := hleft.consistent h.consistent
  listed := h.listed.edits h.consistent.numbered hleft.edits

theorem without_detachQueue (h : broker.Orderly) {id : QueueId} {queue : Queue}
    (found : broker.queues.find? id = some queue)
    (hgone : stays (.queue id) = false) :
    (broker.detachQueue queue).without client stays =
      broker.without client stays := by
  have hid : queue.id = id := h.consistent.numbered.queues.id_eq found
  have hqueues := Registry.keep_erase h.listed.queues
    (fun id => stays (.queue id)) found hid hgone
  subst hid
  unfold without detachQueue
  dsimp only
  rw [hqueues, Registry.mapEntities_keep_foldl_update,
    AssocList.mapValues_erase_foldl_modify]
  · exact fun links => links.keepQueues_forgetQueue hgone
  · exact fun binding route => route.keepQueues_unlink hgone binding.1

theorem without_removeRoute (h : broker.Orderly) {id : RouteId} {route : Route}
    (found : broker.routes.find? id = some route)
    (hempty : route.isEmpty = true) (hgone : stays (.route id) = false) :
    (broker.removeRoute route).without client stays =
      broker.without client stays := by
  have hid : route.id = id := h.consistent.numbered.routes.id_eq found
  have hnone : route.bindings.pairs = [] :=
    MemberIndex.pairs_eq_nil_iff.mpr hempty
  have hroutes := Registry.keep_erase h.listed.routes
    (fun id => stays (.route id)) found hid hgone
  simp only [without, removeRoute, hnone, List.foldl_nil, hroutes]

theorem without_removeChannel (h : broker.Orderly) {id : ChannelId}
    {channel : Channel} (found : broker.channels.find? id = some channel)
    (hunused : channel.isUnused = true) (hgone : stays (.channel id) = false) :
    (broker.removeChannel channel).without client stays =
      broker.without client stays := by
  have hid : channel.id = id := h.consistent.numbered.channels.id_eq found
  obtain ⟨htopics, hpatterns⟩ := Bool.and_eq_true_iff.mp hunused
  have hnone : channel.topics.pairs ++ channel.patterns.pairs = [] := by
    rw [MemberIndex.pairs_eq_nil_iff.mpr htopics,
      MemberIndex.pairs_eq_nil_iff.mpr hpatterns]
    rfl
  have hchannels := Registry.keep_erase h.listed.channels
    (fun id => stays (.channel id)) found hid hgone
  simp only [without, removeChannel, hnone, List.foldl_nil, hchannels]

/-- Withdrawals that cannot be seen once the client and all that has gone are
left out. -/
structure Parting (client : ClientId) (broker after : Broker) : Prop where
  withdrawals : Withdrawals broker after
  same : ∀ stays : Entity → Bool,
    (∀ entity, stays entity = true → after.Has entity) →
      after.without client stays = broker.without client stays

namespace Parting

theorem refl (broker : Broker) : Parting client broker broker :=
  ⟨.refl, fun _ _ => rfl⟩

theorem has (h : Parting client broker after) {entity : Entity}
    (hthere : after.Has entity) : broker.Has entity := by
  have hstands : ∀ entity, (after.standing? entity).isSome = true ↔
      after.Has entity := fun _ =>
    Option.isSome_iff_exists.trans has_iff_standing?.symm
  have hsame := h.same _ fun entity => (hstands entity).mp
  have hkept : (after.without client fun entity =>
      (after.standing? entity).isSome).Has entity :=
    has_without.mpr ⟨(hstands entity).mpr hthere, hthere⟩
  rw [hsame] at hkept
  exact (has_without.mp hkept).2

theorem trans (hfirst : Parting client broker middle)
    (hsecond : Parting client middle after) : Parting client broker after where
  withdrawals := hfirst.withdrawals.trans hsecond.withdrawals
  same stays hstays :=
    (hsecond.same stays hstays).trans (hfirst.same stays fun entity hstay =>
      hsecond.has (hstays entity hstay))

theorem of_removal (target : Entity) (hwithdraw : Withdrawal broker after)
    (hgone : ¬ after.Has target)
    (hsame : ∀ stays : Entity → Bool, stays target = false →
      after.without client stays = broker.without client stays) :
    Parting client broker after where
  withdrawals := .single hwithdraw
  same stays hstays := by
    apply hsame
    rw [Bool.eq_false_iff]
    exact fun hstay => hgone (hstays target hstay)

theorem foldl {σ : Type} {step : Broker → σ → Broker} (items : List σ)
    (h : broker.Orderly)
    (hstep : ∀ (broker : Broker) (item : σ), broker.Orderly →
      Parting client broker (step broker item)) :
    Parting client broker (items.foldl step broker) := by
  induction items generalizing broker with
  | nil => exact .refl broker
  | cons item rest ih =>
      have hfirst := hstep broker item h
      exact hfirst.trans (ih (h.withdrawals hfirst.withdrawals))

end Parting

theorem parting_autoDeleteRoute (h : broker.Orderly) (id : RouteId) :
    Parting client broker (broker.autoDeleteRoute id) := by
  unfold autoDeleteRoute
  split
  · exact .refl broker
  · rename_i route found
    have hid : Named.id route = id := h.consistent.numbered.routes.id_eq found
    split
    · rename_i hgoes
      obtain ⟨-, hempty⟩ := Bool.and_eq_true_iff.mp hgoes
      apply Parting.of_removal (.route id) (.dropRoute found)
      · rintro ⟨other, hother⟩
        rw [removeRoute, Registry.find?_erase, if_pos hid.symm] at hother
        cases hother
      · exact fun _ => without_removeRoute h found hempty
    · exact .refl broker

theorem parting_autoDeleteChannel (h : broker.Orderly) (id : ChannelId) :
    Parting client broker (broker.autoDeleteChannel id) := by
  unfold autoDeleteChannel
  split
  · exact .refl broker
  · rename_i channel found
    have hid : Named.id channel = id :=
      h.consistent.numbered.channels.id_eq found
    split
    · rename_i hgoes
      obtain ⟨-, hunused⟩ := Bool.and_eq_true_iff.mp hgoes
      apply Parting.of_removal (.channel id) (.dropChannel found)
      · rintro ⟨other, hother⟩
        rw [removeChannel, Registry.find?_erase, if_pos hid.symm] at hother
        cases hother
      · exact fun _ => without_removeChannel h found hunused
    · exact .refl broker

theorem parting_removeQueue (h : broker.Orderly) {id : QueueId} {queue : Queue}
    (found : broker.queues.find? id = some queue) :
    Parting client broker (broker.removeQueue queue) := by
  have hid : Named.id queue = id := h.consistent.numbered.queues.id_eq found
  have hdetach : Parting client broker (broker.detachQueue queue) := by
    apply Parting.of_removal (.queue id) (.dropQueue found)
    · rintro ⟨other, hother⟩
      rw [detachQueue, Registry.find?_erase, if_pos hid.symm] at hother
      cases hother
    · exact fun _ => without_detachQueue h found
  rw [removeQueue_eq h.consistent.numbered]
  refine hdetach.trans (.foldl _ (h.withdrawals hdetach.withdrawals) ?_)
  exact fun _ route h => parting_autoDeleteRoute h route

theorem parting_autoDeleteQueue (h : broker.Orderly) (id : QueueId) :
    Parting client broker (broker.autoDeleteQueue id) := by
  unfold autoDeleteQueue
  split
  · exact .refl broker
  · rename_i queue found
    split
    · exact parting_removeQueue h found
    · exact .refl broker

theorem parting_undeclareQueue (h : broker.Orderly) (client : ClientId)
    (id : QueueId) :
    Parting client broker (broker.undeclareQueue client id).state := by
  rcases undeclareQueue_cases h.consistent.numbered client id with
    ⟨hsame, -⟩ | ⟨queue, found, -, hstate⟩
  · rw [hsame]
    exact .refl broker
  · have hstep := Withdrawal.undeclare client found
    rw [hstate]
    exact .trans ⟨.single hstep, fun _ _ => without_updateQueue fun queue =>
      queue.without_undeclare client⟩
      (parting_autoDeleteQueue (h.withdrawals (.single hstep)) id)

theorem parting_unsubscribeQueue (h : broker.Orderly) (client : ClientId)
    (id : QueueId) :
    Parting client broker (broker.unsubscribeQueue client id).state := by
  rcases unsubscribeQueue_cases h.consistent.numbered client id with
    ⟨hsame, -⟩ | ⟨queue, found, hstate⟩
  · rw [hsame]
    exact .refl broker
  · rw [hstate]
    exact ⟨.single (.unsubscribe client found), fun _ _ =>
      without_updateQueue fun queue => queue.without_unsubscribe client⟩

theorem parting_unsubscribeTopic (h : broker.Orderly) (client : ClientId)
    (id : ChannelId) (topic : String) :
    Parting client broker (broker.unsubscribeTopic client id topic).state := by
  rcases unsubscribeTopic_cases h.consistent.numbered client id topic with
    ⟨hsame, -⟩ | ⟨channel, found, -, hstate⟩
  · rw [hsame]
    exact .refl broker
  · have hstep := Withdrawal.unsubscribeTopic client topic found
    rw [hstate]
    exact .trans ⟨.single hstep, fun _ _ => without_updateChannel
      fun channel => channel.without_unlinkTopic client topic⟩
      (parting_autoDeleteChannel (h.withdrawals (.single hstep)) id)

theorem parting_unsubscribePattern (h : broker.Orderly) (client : ClientId)
    (id : ChannelId) (pattern : String) :
    Parting client broker
      (broker.unsubscribePattern client id pattern).state := by
  rcases unsubscribePattern_cases h.consistent.numbered client id pattern with
    ⟨hsame, -⟩ | ⟨channel, found, -, hstate⟩
  · rw [hsame]
    exact .refl broker
  · have hstep := Withdrawal.unsubscribePattern client pattern found
    rw [hstate]
    exact .trans ⟨.single hstep, fun _ _ => without_updateChannel
      fun channel => channel.without_unlinkPattern client pattern⟩
      (parting_autoDeleteChannel (h.withdrawals (.single hstep)) id)

theorem parting_leaveAll (h : broker.Orderly) (client : ClientId)
    (links : ClientLinks) :
    Parting client broker (broker.leaveAll client links) := by
  have hsubscribed := Parting.foldl links.subscribedQueues.items h
    fun _ id h => parting_unsubscribeQueue h client id
  have hunsubscribed := h.withdrawals hsubscribed.withdrawals
  have hdeclared := Parting.foldl links.declaredQueues.items hunsubscribed
    fun _ id h => by
      have hfirst := parting_undeclareQueue h client id
      exact hfirst.trans
        (parting_autoDeleteQueue (h.withdrawals hfirst.withdrawals) id)
  have hundeclared := hunsubscribed.withdrawals hdeclared.withdrawals
  have htopics := Parting.foldl links.topics.pairs hundeclared
    fun _ pair h => parting_unsubscribeTopic h client pair.1 pair.2
  have hpatterns := Parting.foldl links.patterns.pairs
    (hundeclared.withdrawals htopics.withdrawals)
    fun _ pair h => parting_unsubscribePattern h client pair.1 pair.2
  exact ((hsubscribed.trans hdeclared).trans htopics).trans hpatterns

theorem parting_eject (h : broker.Orderly) (client : ClientId) :
    Parting client broker (broker.eject client).state := by
  refine ⟨withdrawals_eject h.consistent client, fun stays hstays => ?_⟩
  unfold eject at hstays ⊢
  split
  · rfl
  · rename_i links hlinks
    rw [hlinks] at hstays
    have hleft := (parting_leaveAll h client links).same stays
      fun entity hstay => by cases entity <;> exact hstays _ hstay
    rw [← hleft]
    simp only [without, AssocList.erase_erase]

end Broker

end MessageBroker
