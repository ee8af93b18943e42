import MessageBroker.Proofs.Broker.Naming

/-! Deliveries go to clients that are connected and have asked for them, under
the names that things have. -/

namespace MessageBroker

namespace Registry

variable {ι : Type u} {ε : Type v} [DecidableEq ι] [Named ι ε]
  {registry : Registry ι ε} {property : ε → Prop} {name : String} {id : ι}
  {entity : ε}

/-- The name leads to an entity that has it, and the property. -/
def HoldsNamed (registry : Registry ι ε) (name : String)
    (property : ε → Prop) : Prop :=
  ∃ id entity, registry.idOf? name = some id ∧
    registry.find? id = some entity ∧ Named.name entity = name ∧
    property entity

theorem Lists.holdsNamed {proper : ε → Prop} (h : registry.Lists proper)
    (found : registry.find? id = some entity) (hproperty : property entity) :
    registry.HoldsNamed (Named.name entity) property :=
  ⟨id, entity, h.idOf? found, found, rfl, hproperty⟩

theorem holdsNamed_update {change : ε → ε}
    (hname : ∀ entity, registry.find? id = some entity →
      Named.name (change entity) = Named.name entity)
    (hproperty : ∀ entity, registry.find? id = some entity →
      (property (change entity) ↔ property entity)) :
    (registry.update id change).HoldsNamed name property ↔
      registry.HoldsNamed name property := by
  constructor
  · rintro ⟨other, entity, hid, hfound, rfl, hholds⟩
    rw [find?_update] at hfound
    split at hfound
    · rename_i hsame
      subst hsame
      obtain ⟨before, hbefore, rfl⟩ := Option.map_eq_some_iff.mp hfound
      have hsamename := hname before hbefore
      exact ⟨other, before, hid, hbefore, hsamename.symm,
        (hproperty before hbefore).mp hholds⟩
    · exact ⟨other, entity, hid, hfound, rfl, hholds⟩
  · rintro ⟨other, entity, hid, hfound, rfl, hholds⟩
    by_cases hsame : other = id
    · subst hsame
      exact ⟨other, change entity, hid, find?_update_self hfound change,
        hname entity hfound, (hproperty entity hfound).mpr hholds⟩
    · refine ⟨other, entity, hid, ?_, rfl, hholds⟩
      rw [find?_update_ne registry hsame, hfound]

end Registry

theorem Queue.mem_receivers {queue : Queue} {client : ClientId}
    (hmem : client ∈ queue.receivers) :
    client ∈ queue.messageSubscribers.items := by
  unfold receivers at hmem
  split at hmem
  · exact MemberSet.mem_items_rotate.mp
      (List.mem_of_mem_head? (Option.mem_toList.mp hmem))
  · exact hmem

/-- A delivery of a queue goes to whoever listens to it in the matching role. -/
inductive Queue.HandsOut (queue : Queue) (client : ClientId) :
    Delivery → Prop
  | message (tag : Tag) (payload : Payload)
      (hlistens : client ∈ queue.messageSubscribers.items) :
      queue.HandsOut client (.message queue.name tag payload)
  | notice (hlistens : client ∈ queue.notifySubscribers.items) :
      queue.HandsOut client (.notice queue.name)

theorem Queue.handsOut_push {queue : Queue} {clock : TagClock}
    {payload : Payload} {timeToLive : UInt32} {client : ClientId}
    {delivery : Delivery}
    (hmem : .deliver client delivery ∈
      (queue.push clock payload timeToLive).signals) :
    queue.HandsOut client delivery := by
  have hnotice : .deliver client delivery ∈ queue.noticeSignals →
      queue.HandsOut client delivery := by
    intro hmem
    obtain ⟨_, hlistens, heq⟩ := List.mem_map.mp hmem
    cases heq
    exact .notice hlistens
  rcases queue.push_cases clock payload timeToLive with
    ⟨-, hpush⟩ | ⟨-, -, hpush⟩ | ⟨-, -, -, hpush⟩ | ⟨-, -, -, hpush⟩ <;>
    rw [hpush] at hmem
  · cases hmem
  · rcases List.mem_append.mp hmem with hdispatched | hnoticed
    · obtain ⟨_, hreceives, heq⟩ := List.mem_map.mp hdispatched
      cases heq
      exact .message _ _ (mem_receivers hreceives)
    · exact hnotice hnoticed
  · exact hnotice hmem
  · cases hmem

theorem Channel.hasTopic_of_mem_topicReceivers {channel : Channel}
    {client : ClientId} {topic : String}
    (hmem : client ∈ channel.topicReceivers topic) :
    channel.hasTopic client topic = true := by
  unfold topicReceivers at hmem
  split at hmem
  · cases hmem
  · rename_i clients hgroup
    refine MemberIndex.contains_iff_holds.mpr ⟨clients, hgroup, ?_⟩
    split at hmem
    · exact MemberSet.mem_items_rotate.mp
        (List.mem_of_mem_head? (Option.mem_toList.mp hmem))
    · exact hmem

inductive Channel.HandsOut (channel : Channel) (client : ClientId) :
    Delivery → Prop
  | topic (topic : String) (payload : Payload)
      (hlistens : channel.hasTopic client topic = true) :
      channel.HandsOut client (.topic channel.name topic payload)
  | pattern (topic pattern : String) (payload : Payload)
      (hlistens : channel.hasPattern client pattern = true)
      (hmatches : Glob.isMatch pattern topic = true) :
      channel.HandsOut client (.pattern channel.name topic pattern payload)

theorem Channel.handsOut_publish {channel : Channel} {topic : String}
    {payload : Payload} {client : ClientId} {delivery : Delivery}
    (hmem : .deliver client delivery ∈
      (channel.publish topic payload).signals) :
    channel.HandsOut client delivery := by
  unfold publish at hmem
  split at hmem
  · cases hmem
  · rcases List.mem_append.mp hmem with htopic | hpattern
    · obtain ⟨_, hreceives, heq⟩ := List.mem_map.mp htopic
      cases heq
      exact .topic _ _ (hasTopic_of_mem_topicReceivers hreceives)
    · obtain ⟨⟨pattern, clients⟩, hgroup, hsignal⟩ :=
        List.mem_flatMap.mp hpattern
      dsimp only at hsignal
      split at hsignal
      · rename_i hmatches
        obtain ⟨_, hlistens, heq⟩ := List.mem_map.mp hsignal
        cases heq
        have hlisted := AssocList.get?_eq_some_iff.mpr hgroup
        exact .pattern _ _ _
          (MemberIndex.contains_iff_holds.mpr ⟨clients, hlisted, hlistens⟩)
          hmatches
      · cases hsignal

namespace Broker

def Listens (broker : Broker) (client : ClientId) : Delivery → Prop
  | .message name _ _ => broker.queues.HoldsNamed name fun queue =>
      client ∈ queue.messageSubscribers.items
  | .notice name => broker.queues.HoldsNamed name fun queue =>
      client ∈ queue.notifySubscribers.items
  | .topic name topic _ => broker.channels.HoldsNamed name fun channel =>
      channel.hasTopic client topic = true
  | .pattern name topic pattern _ =>
      Glob.isMatch pattern topic = true ∧
        broker.channels.HoldsNamed name fun channel =>
          channel.hasPattern client pattern = true

def Addresses (broker : Broker) (client : ClientId) (delivery : Delivery) :
    Prop :=
  broker.clients.contains client = true ∧ broker.Listens client delivery

variable {broker middle after : Broker} {client : ClientId}
  {delivery : Delivery}

theorem addresses_of_queue (h : broker.Consistent) (hlisted : broker.Listed)
    {id : QueueId} {queue : Queue} (found : broker.queues.find? id = some queue)
    (hhands : queue.HandsOut client delivery) :
    broker.Addresses client delivery := by
  have hconnected : queue.Subscribes client →
      broker.clients.contains client = true := by
    intro hsubscribes
    have hlinks := (h.memberships.subscribed id client).mp
      ⟨queue, found, hsubscribes⟩
    exact hlinks.present
  cases hhands with
  | message tag payload hlistens =>
      exact ⟨hconnected (.inl hlistens),
        hlisted.queues.holdsNamed found hlistens⟩
  | notice hlistens =>
      exact ⟨hconnected (.inr hlistens),
        hlisted.queues.holdsNamed found hlistens⟩

theorem addresses_of_channel (h : broker.Consistent) (hlisted : broker.Listed)
    {id : ChannelId} {channel : Channel}
    (found : broker.channels.find? id = some channel)
    (hhands : channel.HandsOut client delivery) :
    broker.Addresses client delivery := by
  cases hhands with
  | topic topic payload hlistens =>
      have hlinks := (h.memberships.topics topic id client).mp
        ⟨channel, found, hlistens⟩
      exact ⟨hlinks.present, hlisted.channels.holdsNamed found hlistens⟩
  | pattern topic pattern payload hlistens hmatches =>
      have hlinks := (h.memberships.patterns pattern id client).mp
        ⟨channel, found, hlistens⟩
      exact ⟨hlinks.present, hmatches,
        hlisted.channels.holdsNamed found hlistens⟩

/-- Everyone is connected as before and listens to the same. -/
def SameListeners (broker after : Broker) : Prop :=
  ∀ client delivery, after.Addresses client delivery ↔
    broker.Addresses client delivery

theorem SameListeners.refl (broker : Broker) : SameListeners broker broker :=
  fun _ _ => .rfl

theorem SameListeners.trans (hfirst : SameListeners broker middle)
    (hsecond : SameListeners middle after) : SameListeners broker after :=
  fun client delivery =>
    (hsecond client delivery).trans (hfirst client delivery)

theorem sameListeners_putQueue (hnumbered : broker.Numbered) {id : QueueId}
    {queue next : Queue} (found : broker.queues.find? id = some queue)
    (hsame : Queue.SameMembers queue next) (hname : next.name = queue.name)
    {clock : TagClock} :
    SameListeners broker { broker.putQueue next with clock := clock } := by
  have hput := hnumbered.queues.put_eq_update (fun _ => next) found hsame.id
  simp only [putQueue, hput]
  have hkept : ∀ {name : String} {property : Queue → Prop},
      (property next ↔ property queue) →
      ((broker.queues.update id fun _ => next).HoldsNamed name property ↔
        broker.queues.HoldsNamed name property) := by
    intro name property hproperty
    refine Registry.holdsNamed_update ?_ ?_
    · rintro _ hfound
      cases found.symm.trans hfound
      exact hname
    · rintro _ hfound
      cases found.symm.trans hfound
      exact hproperty
  intro client delivery
  refine and_congr_right fun _ => ?_
  cases delivery with
  | message => exact hkept (hsame.messageSubscribers client)
  | notice => exact hkept (by rw [hsame.notifySubscribers])
  | topic => exact .rfl
  | pattern => exact .rfl

theorem sameListeners_push (hnumbered : broker.Numbered) (id : QueueId)
    (payload : Payload) (timeToLive : UInt32) :
    SameListeners broker (broker.push id payload timeToLive).state := by
  unfold push
  split
  · exact .refl broker
  · rename_i queue found
    exact sameListeners_putQueue hnumbered found
      (Queue.sameMembers_push queue _ _ _) (Queue.name_push queue _ _ _)

theorem addresses_push (h : broker.Consistent) (hlisted : broker.Listed)
    {id : QueueId} {payload : Payload} {timeToLive : UInt32}
    (hmem : .deliver client delivery ∈
      (broker.push id payload timeToLive).signals) :
    broker.Addresses client delivery := by
  unfold push at hmem
  split at hmem
  · cases hmem
  · rename_i queue found
    exact addresses_of_queue h hlisted found (Queue.handsOut_push hmem)

theorem sameListeners_putRoute (broker : Broker) (route : Route) :
    SameListeners broker (broker.putRoute route) := by
  intro client delivery
  cases delivery <;> exact .rfl

theorem addresses_fanout (fanout : Fanout) (h : fanout.broker.Consistent)
    (hlisted : fanout.broker.Listed) (payload : Payload) (timeToLive : UInt32)
    (targets : List QueueId) :
    let last := targets.foldl (Fanout.next payload timeToLive) fanout
    SameListeners fanout.broker last.broker ∧
      ∀ client delivery, .deliver client delivery ∈ last.signals →
        .deliver client delivery ∈ fanout.signals ∨
          fanout.broker.Addresses client delivery := by
  induction targets generalizing fanout with
  | nil => exact ⟨.refl _, fun _ _ => .inl⟩
  | cons target rest ih =>
      have hedits := edits_push h.numbered target payload timeToLive
      obtain ⟨hsame, hlater⟩ := ih (fanout.next payload timeToLive target)
        (h.edits hedits) (hlisted.edits h.numbered hedits)
      have hfirst := sameListeners_push h.numbered target payload timeToLive
      refine ⟨hfirst.trans hsame, fun client delivery hmem => ?_⟩
      rcases hlater client delivery hmem with hnext | haddresses
      · rcases List.mem_append.mp hnext with hearlier | hpushed
        · exact .inl hearlier
        · exact .inr (addresses_push h hlisted hpushed)
      · exact .inr ((hfirst client delivery).mp haddresses)

theorem addresses_publishRoute (h : broker.Consistent)
    (hlisted : broker.Listed) (id : RouteId) (key : String) (payload : Payload)
    (timeToLive : UInt32) :
    SameListeners broker
        (broker.publishRoute id key payload timeToLive).state ∧
      ∀ client delivery, .deliver client delivery ∈
        (broker.publishRoute id key payload timeToLive).signals →
          broker.Addresses client delivery := by
  unfold publishRoute
  split
  · exact ⟨.refl broker, fun _ _ => nofun⟩
  · rename_i route found
    split
    · exact ⟨.refl broker, fun _ _ => nofun⟩
    · rename_i targets next htargets
      have hput :=
        (gains_putTargets h.numbered found htargets).arrangements.edits
      have hturned := sameListeners_putRoute broker next
      obtain ⟨hsame, haddressed⟩ := addresses_fanout
        ⟨broker.putRoute next, 0, []⟩ (h.edits hput)
        (hlisted.edits h.numbered hput) payload timeToLive targets
      refine ⟨hturned.trans hsame, fun client delivery hmem => ?_⟩
      rcases haddressed client delivery hmem with hnone | haddresses
      · cases hnone
      · exact (hturned client delivery).mp haddresses

theorem sameListeners_publishChannel (hnumbered : broker.Numbered)
    (id : ChannelId) (topic : String) (payload : Payload) :
    SameListeners broker (broker.publishChannel id topic payload).state := by
  rcases publishChannel_cases hnumbered id topic payload with hstate | hstate
  · rw [hstate]
    exact .refl broker
  · rw [hstate]
    intro client delivery
    refine and_congr_right fun _ => ?_
    cases delivery with
    | message => exact .rfl
    | notice => exact .rfl
    | topic =>
        refine Registry.holdsNamed_update ?_ ?_
        · exact fun entity _ => entity.name_advanced topic
        · exact fun entity _ => by rw [Channel.hasTopic_advanced]
    | pattern =>
        refine and_congr_right fun _ => Registry.holdsNamed_update ?_ ?_
        · exact fun entity _ => entity.name_advanced topic
        · exact fun entity _ => by rw [Channel.hasPattern_advanced]

theorem addresses_publishChannel (h : broker.Consistent)
    (hlisted : broker.Listed) {id : ChannelId} {topic : String}
    {payload : Payload}
    (hmem : .deliver client delivery ∈
      (broker.publishChannel id topic payload).signals) :
    broker.Addresses client delivery := by
  unfold publishChannel at hmem
  split at hmem
  · cases hmem
  · rename_i channel found
    exact addresses_of_channel h hlisted found (Channel.handsOut_publish hmem)

def isPublishing : Command → Bool
  | .push .. | .publishRoute .. | .publishChannel .. => true
  | _ => false

theorem signals_eject (broker : Broker) (client : ClientId) :
    (broker.eject client).signals = [] ∨
      (broker.eject client).signals = [.disconnect client] := by
  unfold eject
  split
  · exact .inl rfl
  · exact .inr rfl

theorem not_deliver_mem_signals {command : Command}
    (hquiet : isPublishing command = false) (client : ClientId)
    (delivery : Delivery) :
    .deliver client delivery ∉ (broker.perform command).signals := by
  have hsignals : (broker.perform command).signals = [] ∨
      ∃ client, (broker.perform command).signals = [.disconnect client] := by
    cases command with
    | eject client =>
        exact (broker.signals_eject client).imp_right fun h => ⟨client, h⟩
    | push | publishRoute | publishChannel => cases hquiet
    | _ =>
        left
        simp only [perform, Result.reply, Outcome.lift, connect, createQueue,
          deleteQueue, renameQueue, declareQueue, undeclareQueue,
          subscribeQueue, unsubscribeQueue, pop, confirm, purge, createRoute,
          deleteRoute, renameRoute, bind, unbind, createChannel, deleteChannel,
          renameChannel, subscribeTopic, subscribePattern, unsubscribeTopic,
          unsubscribePattern, tick]
        repeat' split
        all_goals rfl
  intro hmem
  rcases hsignals with hnone | ⟨other, hdisconnect⟩
  · rw [hnone] at hmem
    cases hmem
  · rw [hdisconnect] at hmem
    cases List.mem_singleton.mp hmem

theorem addresses_perform (h : broker.Consistent) (hlisted : broker.Listed)
    {command : Command}
    (hmem : .deliver client delivery ∈ (broker.perform command).signals) :
    broker.Addresses client delivery ∧
      (broker.perform command).state.Addresses client delivery := by
  have hpublishing : isPublishing command = true := by
    by_contra hquiet
    exact not_deliver_mem_signals (Bool.eq_false_iff.mpr hquiet) client delivery
      hmem
  cases command with
  | push queue payload timeToLive =>
      have haddresses := addresses_push h hlisted hmem
      exact ⟨haddresses, (sameListeners_push h.numbered queue payload
        timeToLive client delivery).mpr haddresses⟩
  | publishRoute route key payload timeToLive =>
      obtain ⟨hsame, haddressed⟩ :=
        addresses_publishRoute h hlisted route key payload timeToLive
      have haddresses := haddressed client delivery hmem
      exact ⟨haddresses, (hsame client delivery).mpr haddresses⟩
  | publishChannel channel topic payload =>
      have haddresses := addresses_publishChannel h hlisted hmem
      exact ⟨haddresses, (sameListeners_publishChannel h.numbered channel topic
        payload client delivery).mpr haddresses⟩
  | _ => cases hpublishing

end Broker

end MessageBroker
