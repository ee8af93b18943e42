import MessageBroker.Proofs.Broker.Numbering
import MessageBroker.Proofs.Broker.Sides
import MessageBroker.Proofs.Collection.Mirror

/-! Memberships are the same seen from the entity and from the client, through
every edit. -/

namespace MessageBroker.Broker

structure MembershipsMirrored (broker : Broker) : Prop where
  declared : Mirrored broker.queues.entities broker.clients
    (fun queue client => client ∈ queue.declared.items)
    (fun links id => id ∈ links.declaredQueues.items)
  subscribed : Mirrored broker.queues.entities broker.clients Queue.Subscribes
    (fun links id => id ∈ links.subscribedQueues.items)
  topics : ∀ topic, Mirrored broker.channels.entities broker.clients
    (fun channel client => channel.hasTopic client topic = true)
    (fun links id => links.hasTopic id topic = true)
  patterns : ∀ pattern, Mirrored broker.channels.entities broker.clients
    (fun channel client => channel.hasPattern client pattern = true)
    (fun links id => links.hasPattern id pattern = true)
  roles : broker.queues.All fun _ => Queue.RolesApart

namespace MembershipsMirrored

variable {broker after : Broker} {stamps : Nat}

theorem enrolment (h : broker.MembershipsMirrored)
    (hnumbered : broker.Numbered) (henrol : Enrolment broker after) :
    after.MembershipsMirrored := by
  cases henrol with
  | connect fresh =>
      exact {
        declared := h.declared.insertRight fresh fun _ => List.not_mem_nil
        subscribed := h.subscribed.insertRight fresh fun _ => List.not_mem_nil
        topics := fun topic =>
          (h.topics topic).insertRight fresh fun _ => Bool.false_ne_true
        patterns := fun pattern =>
          (h.patterns pattern).insertRight fresh fun _ => Bool.false_ne_true
        roles := h.roles
      }
  | addQueue =>
      exact {
        declared := h.declared.insertLeft hnumbered.freshQueue
          fun _ => Queue.not_mem_declared_create
        subscribed := h.subscribed.insertLeft hnumbered.freshQueue
          fun _ => Queue.not_subscribes_create
        topics := h.topics
        patterns := h.patterns
        roles := h.roles.add Queue.rolesApart_create
      }
  | addRoute => exact ⟨h.declared, h.subscribed, h.topics, h.patterns, h.roles⟩
  | addChannel =>
      exact {
        declared := h.declared
        subscribed := h.subscribed
        topics := fun topic => (h.topics topic).insertLeft
          hnumbered.freshChannel fun _ => Bool.false_ne_true
        patterns := fun pattern => (h.patterns pattern).insertLeft
          hnumbered.freshChannel fun _ => Bool.false_ne_true
        roles := h.roles
      }
  | declare connected found =>
      exact {
        declared := h.declared.link (AssocList.contains_of_get? found) connected
          (fun _ _ => Queue.mem_declared_declare)
          (fun _ _ => MemberSet.mem_items_insert)
        subscribed := h.subscribed.modifyBoth (fun _ _ => Iff.rfl)
          (fun _ _ => Iff.rfl)
        topics := fun topic => (h.topics topic).modifyRight fun _ _ => Iff.rfl
        patterns := fun pattern =>
          (h.patterns pattern).modifyRight fun _ _ => Iff.rfl
        roles := h.roles.update fun _ _ hroles => hroles
      }
  | subscribe noticesOnly connected found =>
      exact {
        declared := h.declared.modifyBoth
          (fun _ _ => by rw [Queue.declared_subscribe]) (fun _ _ => Iff.rfl)
        subscribed := h.subscribed.link (AssocList.contains_of_get? found)
          connected (fun _ _ => Queue.subscribes_subscribe)
          (fun _ _ => MemberSet.mem_items_insert)
        topics := fun topic => (h.topics topic).modifyRight fun _ _ => Iff.rfl
        patterns := fun pattern =>
          (h.patterns pattern).modifyRight fun _ _ => Iff.rfl
        roles := h.roles.update fun _ _ hroles => hroles.subscribe
      }
  | bind =>
      exact {
        declared := h.declared.modifyLeft fun _ _ => Iff.rfl
        subscribed := h.subscribed.modifyLeft fun _ _ => Iff.rfl
        topics := h.topics
        patterns := h.patterns
        roles := h.roles.update fun _ _ hroles => hroles
      }
  | subscribeTopic topic connected found =>
      exact {
        declared := h.declared.modifyRight fun _ _ => Iff.rfl
        subscribed := h.subscribed.modifyRight fun _ _ => Iff.rfl
        topics := fun another =>
          (h.topics another).linkWhen (AssocList.contains_of_get? found)
            connected (fun _ _ => Channel.hasTopic_subscribeTopic)
            (fun _ _ => ClientLinks.hasTopic_addTopic)
        patterns := fun pattern =>
          (h.patterns pattern).modifyBoth (fun _ _ => Iff.rfl)
            (fun _ _ => Iff.rfl)
        roles := h.roles
      }
  | subscribePattern pattern connected found =>
      exact {
        declared := h.declared.modifyRight fun _ _ => Iff.rfl
        subscribed := h.subscribed.modifyRight fun _ _ => Iff.rfl
        topics := fun topic =>
          (h.topics topic).modifyBoth (fun _ _ => Iff.rfl) (fun _ _ => Iff.rfl)
        patterns := fun another =>
          (h.patterns another).linkWhen (AssocList.contains_of_get? found)
            connected (fun _ _ => Channel.hasPattern_subscribePattern)
            (fun _ _ => ClientLinks.hasPattern_addPattern)
        roles := h.roles
      }

theorem detachQueue (h : broker.MembershipsMirrored) {id : QueueId}
    {queue : Queue} (found : broker.queues.find? id = some queue)
    (hid : queue.id = id) : (broker.detachQueue queue).MembershipsMirrored := by
  subst hid
  refine {
    declared := h.declared.dropKey _
      (fun _ _ _ => ClientLinks.mem_declared_forgetQueue) ?_
    subscribed := h.subscribed.dropKey _
      (fun _ _ _ => ClientLinks.mem_subscribed_forgetQueue) ?_
    topics := fun topic => (h.topics topic).foldlRight _ fun _ _ _ => Iff.rfl
    patterns := fun pattern =>
      (h.patterns pattern).foldlRight _ fun _ _ _ => Iff.rfl
    roles := h.roles.erase queue
  }
  · intro client hlisted
    have hclient := (AssocList.holds_iff_of_get? found).mp hlisted
    exact ⟨client, List.mem_append_left _ hclient, rfl⟩
  · intro client hlisted
    have hclient := (AssocList.holds_iff_of_get? found).mp hlisted
    rw [Queue.subscribes_iff_mem_subscribers] at hclient
    exact ⟨client, List.mem_append_right _ hclient, rfl⟩

theorem removeRoute (h : broker.MembershipsMirrored) (route : Route) :
    (broker.removeRoute route).MembershipsMirrored where
  declared := by
    simp only [Broker.removeRoute]
    rw [Registry.entities_foldl_update]
    exact h.declared.foldlLeft _ fun _ _ _ => Iff.rfl
  subscribed := by
    simp only [Broker.removeRoute]
    rw [Registry.entities_foldl_update]
    exact h.subscribed.foldlLeft _ fun _ _ _ => Iff.rfl
  topics := h.topics
  patterns := h.patterns
  roles := h.roles.foldl_update _ fun _ _ hroles => hroles

theorem removeChannel (h : broker.MembershipsMirrored) {id : ChannelId}
    {channel : Channel} (found : broker.channels.find? id = some channel)
    (hid : channel.id = id) :
    (broker.removeChannel channel).MembershipsMirrored := by
  subst hid
  refine {
    declared := h.declared.foldlRight _ fun _ _ _ => Iff.rfl
    subscribed := h.subscribed.foldlRight _ fun _ _ _ => Iff.rfl
    topics := fun topic => (h.topics topic).dropKey _
      (fun _ _ _ => ClientLinks.hasTopic_forgetChannel) ?_
    patterns := fun pattern => (h.patterns pattern).dropKey _
      (fun _ _ _ => ClientLinks.hasPattern_forgetChannel) ?_
    roles := h.roles
  }
  · intro client hlisted
    have hclient := (AssocList.holds_iff_of_get? found).mp hlisted
    exact ⟨(topic, client),
      List.mem_append_left _ (MemberIndex.mem_pairs.mpr hclient), rfl⟩
  · intro client hlisted
    have hclient := (AssocList.holds_iff_of_get? found).mp hlisted
    exact ⟨(pattern, client),
      List.mem_append_right _ (MemberIndex.mem_pairs.mpr hclient), rfl⟩

theorem flush (broker : Broker) : broker.flush.MembershipsMirrored where
  declared := Mirrored.of_nothing (fun _ _ => AssocList.not_holds_empty) (by
    intro id client hlisted
    obtain ⟨_, -, hmem⟩ := AssocList.holds_mapValues.mp hlisted
    cases hmem)
  subscribed := Mirrored.of_nothing (fun _ _ => AssocList.not_holds_empty) (by
    intro id client hlisted
    obtain ⟨_, -, hmem⟩ := AssocList.holds_mapValues.mp hlisted
    cases hmem)
  topics topic := Mirrored.of_nothing (fun _ _ => AssocList.not_holds_empty) (by
    intro id client hlisted
    obtain ⟨_, -, htopic⟩ := AssocList.holds_mapValues.mp hlisted
    cases htopic)
  patterns pattern :=
    Mirrored.of_nothing (fun _ _ => AssocList.not_holds_empty) (by
      intro id client hlisted
      obtain ⟨_, -, hpattern⟩ := AssocList.holds_mapValues.mp hlisted
      cases hpattern)
  roles := Registry.all_empty

theorem withdrawal (h : broker.MembershipsMirrored)
    (hnumbered : broker.Numbered) (hwithdraw : Withdrawal broker after) :
    after.MembershipsMirrored := by
  cases hwithdraw with
  | leave unlinked =>
      have hempty := fun links hlinks =>
        ClientLinks.isEmpty_iff.mp (unlinked links hlinks)
      exact {
        declared := h.declared.eraseRight fun id ⟨links, hlinks, hmem⟩ =>
          (hempty links hlinks).1 id hmem
        subscribed := h.subscribed.eraseRight fun id ⟨links, hlinks, hmem⟩ =>
          (hempty links hlinks).2.1 id hmem
        topics := fun topic =>
          (h.topics topic).eraseRight fun id ⟨links, hlinks, htopic⟩ =>
            (hempty links hlinks).2.2.1 id topic htopic
        patterns := fun pattern =>
          (h.patterns pattern).eraseRight fun id ⟨links, hlinks, hpattern⟩ =>
            (hempty links hlinks).2.2.2 id pattern hpattern
        roles := h.roles
      }
  | dropQueue found =>
      exact h.detachQueue found (hnumbered.queues.id_eq found)
  | dropRoute => exact h.removeRoute _
  | dropChannel found =>
      exact h.removeChannel found (hnumbered.channels.id_eq found)
  | undeclare client found =>
      exact {
        declared := h.declared.unlink
          (fun _ _ => Queue.mem_declared_undeclare)
          (fun _ _ => MemberSet.mem_items_erase)
        subscribed := h.subscribed.modifyBoth (fun _ _ => Iff.rfl)
          (fun _ _ => Iff.rfl)
        topics := fun topic => (h.topics topic).modifyRight fun _ _ => Iff.rfl
        patterns := fun pattern =>
          (h.patterns pattern).modifyRight fun _ _ => Iff.rfl
        roles := h.roles.update fun _ _ hroles => hroles
      }
  | unsubscribe client found =>
      exact {
        declared := h.declared.modifyBoth (fun _ _ => Iff.rfl)
          (fun _ _ => Iff.rfl)
        subscribed := h.subscribed.unlink
          (fun _ _ => Queue.subscribes_unsubscribe)
          (fun _ _ => MemberSet.mem_items_erase)
        topics := fun topic => (h.topics topic).modifyRight fun _ _ => Iff.rfl
        patterns := fun pattern =>
          (h.patterns pattern).modifyRight fun _ _ => Iff.rfl
        roles := h.roles.update fun _ _ hroles => hroles.unsubscribe
      }
  | unbind =>
      exact {
        declared := h.declared.modifyLeft fun _ _ => Iff.rfl
        subscribed := h.subscribed.modifyLeft fun _ _ => Iff.rfl
        topics := h.topics
        patterns := h.patterns
        roles := h.roles.update fun _ _ hroles => hroles
      }
  | unsubscribeTopic client topic found =>
      exact {
        declared := h.declared.modifyRight fun _ _ => Iff.rfl
        subscribed := h.subscribed.modifyRight fun _ _ => Iff.rfl
        topics := fun another => (h.topics another).unlinkWhen
          (fun _ _ => MemberIndex.contains_unlink)
          (fun _ _ => ClientLinks.hasTopic_removeTopic)
        patterns := fun pattern =>
          (h.patterns pattern).modifyBoth (fun _ _ => Iff.rfl)
            (fun _ _ => Iff.rfl)
        roles := h.roles
      }
  | unsubscribePattern client pattern found =>
      exact {
        declared := h.declared.modifyRight fun _ _ => Iff.rfl
        subscribed := h.subscribed.modifyRight fun _ _ => Iff.rfl
        topics := fun topic =>
          (h.topics topic).modifyBoth (fun _ _ => Iff.rfl) (fun _ _ => Iff.rfl)
        patterns := fun another => (h.patterns another).unlinkWhen
          (fun _ _ => MemberIndex.contains_unlink)
          (fun _ _ => ClientLinks.hasPattern_removePattern)
        roles := h.roles
      }
  | flush => exact flush broker

theorem upkeep (h : broker.MembershipsMirrored) (hnumbered : broker.Numbered)
    (hkeep : Upkeep broker after) : after.MembershipsMirrored := by
  cases hkeep with
  | @renameQueue id queue name found =>
      have hid : queue.id = id := hnumbered.queues.id_eq found
      subst hid
      have hroles : (queue.rename name).RolesApart := h.roles _ queue found
      exact {
        declared := h.declared.replaceLeft found fun _ => Iff.rfl
        subscribed := h.subscribed.replaceLeft found fun _ => Iff.rfl
        topics := h.topics
        patterns := h.patterns
        roles := h.roles.rename hroles
      }
  | renameRoute => exact ⟨h.declared, h.subscribed, h.topics, h.patterns, h.roles⟩
  | @renameChannel id channel name found =>
      have hid : channel.id = id := hnumbered.channels.id_eq found
      subst hid
      exact {
        declared := h.declared
        subscribed := h.subscribed
        topics := fun topic =>
          (h.topics topic).replaceLeft found fun _ => Iff.rfl
        patterns := fun pattern =>
          (h.patterns pattern).replaceLeft found fun _ => Iff.rfl
        roles := h.roles
      }
  | rotateRoute => exact ⟨h.declared, h.subscribed, h.topics, h.patterns, h.roles⟩
  | rotateChannel =>
      exact {
        declared := h.declared
        subscribed := h.subscribed
        topics := fun topic => (h.topics topic).modifyLeft fun _ _ => by
          rw [Channel.hasTopic_advanced]
        patterns := fun pattern => (h.patterns pattern).modifyLeft fun _ _ => by
          rw [Channel.hasPattern_advanced]
        roles := h.roles
      }

theorem traffic (h : broker.MembershipsMirrored)
    (hmove : Traffic broker stamps after) : after.MembershipsMirrored := by
  cases hmove with
  | turnQueue found turn =>
      exact {
        declared := h.declared.replaceLeft found
          fun _ => turn.sameMembers.mem_declared
        subscribed := h.subscribed.replaceLeft found
          fun _ => turn.sameMembers.subscribes
        topics := h.topics
        patterns := h.patterns
        roles := h.roles.update fun _ _ _ =>
          turn.sameMembers.rolesApart (h.roles _ _ found)
      }
  | tick now =>
      exact {
        declared := h.declared.mapLeft fun queue _ =>
          (queue.refilled_sweep now).sameMembers.mem_declared
        subscribed := h.subscribed.mapLeft fun queue _ =>
          (queue.refilled_sweep now).sameMembers.subscribes
        topics := h.topics
        patterns := h.patterns
        roles := h.roles.mapEntities fun _ queue _ =>
          (queue.refilled_sweep now).sameMembers.rolesApart
      }

theorem arrangement (h : broker.MembershipsMirrored) (hnumbered : broker.Numbered)
    (harrange : Arrangement broker after) : after.MembershipsMirrored := by
  cases harrange with
  | enrol enrolment => exact h.enrolment hnumbered enrolment
  | withdraw withdrawal => exact h.withdrawal hnumbered withdrawal
  | keepUp upkeep => exact h.upkeep hnumbered upkeep

theorem edits (h : broker.MembershipsMirrored) (hnumbered : broker.Numbered)
    (hedits : Edits broker stamps after) : after.MembershipsMirrored := by
  induction hedits with
  | refl => exact h
  | tail edits edit ih =>
      cases edit with
      | arrange arrangement =>
          exact ih.arrangement (hnumbered.edits edits) arrangement
      | move traffic => exact ih.traffic traffic

end MembershipsMirrored

end MessageBroker.Broker
