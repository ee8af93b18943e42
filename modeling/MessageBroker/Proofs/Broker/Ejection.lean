import MessageBroker.Broker.Clients
import MessageBroker.Proofs.Broker.Withdrawals

/-! A client that leaves takes back every membership, so that nothing names it
once it is gone. -/

namespace MessageBroker

namespace ClientLinks

theorem within_empty (links : ClientLinks) : Within empty links where
  declared _ hmem := absurd hmem List.not_mem_nil
  subscribed _ hmem := absurd hmem List.not_mem_nil
  topics _ _ htopic := absurd htopic Bool.false_ne_true
  patterns _ _ hpattern := absurd hpattern Bool.false_ne_true

theorem within_removeDeclared (links : ClientLinks) (id : QueueId) :
    Within (links.removeDeclared id) links where
  declared _ hmem := (MemberSet.mem_items_erase.mp hmem).1
  subscribed _ hmem := hmem
  topics _ _ htopic := htopic
  patterns _ _ hpattern := hpattern

theorem within_removeSubscribed (links : ClientLinks) (id : QueueId) :
    Within (links.removeSubscribed id) links where
  declared _ hmem := hmem
  subscribed _ hmem := (MemberSet.mem_items_erase.mp hmem).1
  topics _ _ htopic := htopic
  patterns _ _ hpattern := hpattern

theorem within_removeTopic (links : ClientLinks) (id : ChannelId)
    (topic : String) : Within (links.removeTopic id topic) links where
  declared _ hmem := hmem
  subscribed _ hmem := hmem
  topics _ _ htopic := (hasTopic_removeTopic.mp htopic).1
  patterns _ _ hpattern := hpattern

theorem within_removePattern (links : ClientLinks) (id : ChannelId)
    (pattern : String) : Within (links.removePattern id pattern) links where
  declared _ hmem := hmem
  subscribed _ hmem := hmem
  topics _ _ htopic := htopic
  patterns _ _ hpattern := (hasPattern_removePattern.mp hpattern).1

theorem within_forgetQueue (links : ClientLinks) (id : QueueId) :
    Within (links.forgetQueue id) links :=
  (within_removeSubscribed _ id).trans (within_removeDeclared links id)

theorem within_forgetChannel (links : ClientLinks) (id : ChannelId) :
    Within (links.forgetChannel id) links where
  declared _ hmem := hmem
  subscribed _ hmem := hmem
  topics _ _ htopic := (hasTopic_forgetChannel.mp htopic).1
  patterns _ _ hpattern := (hasPattern_forgetChannel.mp hpattern).1

end ClientLinks

abbrev Clients := AssocList ClientId ClientLinks

namespace Clients

def Within (fewer more : Clients) : Prop :=
  ∀ client links, fewer.get? client = some links →
    ∃ before, more.get? client = some before ∧ links.Within before

variable {first second third : Clients}

theorem Within.refl (clients : Clients) : Within clients clients :=
  fun _ links hlinks => ⟨links, hlinks, .refl links⟩

theorem Within.trans (hfirst : Within first second)
    (hsecond : Within second third) : Within first third := by
  intro client links hlinks
  obtain ⟨middle, hmiddle, hwithin⟩ := hfirst client links hlinks
  obtain ⟨before, hbefore, hmore⟩ := hsecond client middle hmiddle
  exact ⟨before, hbefore, hwithin.trans hmore⟩

theorem Within.holds (h : Within first second) {client : ClientId}
    {property : ClientLinks → Prop}
    (hmono : ∀ fewer more : ClientLinks, fewer.Within more →
      property fewer → property more)
    (hholds : first.Holds client property) : second.Holds client property := by
  obtain ⟨links, hlinks, hproperty⟩ := hholds
  obtain ⟨before, hbefore, hwithin⟩ := h client links hlinks
  exact ⟨before, hbefore, hmono links before hwithin hproperty⟩

theorem within_modify (clients : Clients) (client : ClientId)
    {change : ClientLinks → ClientLinks}
    (hchange : ∀ links, (change links).Within links) :
    Within (clients.modify client change) clients := by
  intro other links hlinks
  rw [AssocList.get?_modify] at hlinks
  split at hlinks
  · obtain ⟨before, hbefore, rfl⟩ := Option.map_eq_some_iff.mp hlinks
    exact ⟨before, hbefore, hchange before⟩
  · exact ⟨links, hlinks, .refl links⟩

theorem within_foldl_modify {σ : Type u} (clients : Clients) (steps : List σ)
    (target : σ → ClientId) {change : ClientLinks → ClientLinks}
    (hchange : ∀ links, (change links).Within links) :
    Within (steps.foldl
      (fun clients step => clients.modify (target step) change) clients)
      clients := by
  apply List.foldlRecOn (motive := fun after : Clients => Within after clients)
  · exact .refl clients
  · intro middle hmiddle step _
    exact (within_modify middle (target step) hchange).trans hmiddle

theorem within_erase (clients : Clients) (client : ClientId) :
    Within (clients.erase client) clients := by
  intro other links hlinks
  rw [AssocList.get?_erase] at hlinks
  split at hlinks
  · cases hlinks
  · exact ⟨links, hlinks, .refl links⟩

theorem within_empty (clients : Clients) :
    Within (clients.mapValues fun _ => .empty) clients := by
  intro client links hlinks
  rw [AssocList.get?_mapValues] at hlinks
  obtain ⟨before, hbefore, rfl⟩ := Option.map_eq_some_iff.mp hlinks
  exact ⟨before, hbefore, ClientLinks.within_empty before⟩

end Clients

namespace Broker

variable {broker after : Broker} {client : ClientId}

theorem Withdrawal.clients_within (h : Withdrawal broker after) :
    Clients.Within after.clients broker.clients := by
  cases h with
  | leave => exact Clients.within_erase _ _
  | dropQueue =>
      exact Clients.within_foldl_modify _ _ id fun links =>
        links.within_forgetQueue _
  | dropRoute => exact .refl _
  | dropChannel =>
      exact Clients.within_foldl_modify _ _ Prod.snd fun links =>
        links.within_forgetChannel _
  | undeclare =>
      exact Clients.within_modify _ _ fun links => links.within_removeDeclared _
  | unsubscribe =>
      exact Clients.within_modify _ _ fun links =>
        links.within_removeSubscribed _
  | unbind => exact .refl _
  | unsubscribeTopic =>
      exact Clients.within_modify _ _ fun links => links.within_removeTopic _ _
  | unsubscribePattern =>
      exact Clients.within_modify _ _ fun links =>
        links.within_removePattern _ _
  | flush => exact Clients.within_empty _

theorem Withdrawals.clients_within (h : Withdrawals broker after) :
    Clients.Within after.clients broker.clients := by
  induction h with
  | refl => exact .refl _
  | tail _ withdrawal ih => exact withdrawal.clients_within.trans ih

/-! One step of leaving: the membership is gone afterwards, whether the step
succeeds or finds it gone already. -/

theorem unsubscribeQueue_forgets (h : broker.Consistent) (client : ClientId)
    (id : QueueId) :
    ¬ (broker.unsubscribeQueue client id).state.clients.Holds client fun links =>
      id ∈ links.subscribedQueues.items := by
  intro hholds
  rcases unsubscribeQueue_cases h.numbered client id with
    ⟨hsame, hstranger⟩ | ⟨queue, found, hstate⟩
  · rw [hsame] at hholds
    exact hstranger ⟨hholds.present, (h.memberships.subscribed id client).mpr hholds⟩
  · rw [hstate] at hholds
    obtain ⟨links, -, hmem⟩ := AssocList.holds_modify.mp hholds
    rw [if_pos rfl] at hmem
    exact (MemberSet.mem_items_erase.mp hmem).2 rfl

theorem undeclareQueue_forgets (h : broker.Consistent) (client : ClientId)
    (id : QueueId) :
    ¬ (broker.undeclareQueue client id).state.clients.Holds client fun links =>
      id ∈ links.declaredQueues.items := by
  intro hholds
  rcases undeclareQueue_cases h.numbered client id with
    ⟨hsame, hstranger⟩ | ⟨queue, found, -, hstate⟩
  · rw [hsame] at hholds
    exact hstranger ⟨hholds.present, (h.memberships.declared id client).mpr hholds⟩
  · rw [hstate] at hholds
    have hleft := withdrawals_autoDeleteQueue
      (h.numbered.withdrawal (.undeclare client found)) id
    replace hholds := hleft.clients_within.holds
      (fun _ _ hwithin => hwithin.declared id) hholds
    obtain ⟨links, -, hmem⟩ := AssocList.holds_modify.mp hholds
    rw [if_pos rfl] at hmem
    exact (MemberSet.mem_items_erase.mp hmem).2 rfl

theorem unsubscribeTopic_forgets (h : broker.Consistent) (client : ClientId)
    (id : ChannelId) (topic : String) :
    ¬ (broker.unsubscribeTopic client id topic).state.clients.Holds client
      fun links => links.hasTopic id topic = true := by
  intro hholds
  rcases unsubscribeTopic_cases h.numbered client id topic with
    ⟨hsame, hstranger⟩ | ⟨channel, found, -, hstate⟩
  · rw [hsame] at hholds
    exact hstranger ⟨hholds.present, (h.memberships.topics topic id client).mpr hholds⟩
  · rw [hstate] at hholds
    replace hholds := (withdrawals_autoDeleteChannel _ id).clients_within.holds
      (fun _ _ hwithin => hwithin.topics id topic) hholds
    obtain ⟨links, -, htopic⟩ := AssocList.holds_modify.mp hholds
    rw [if_pos rfl, ClientLinks.hasTopic_removeTopic] at htopic
    exact htopic.2 ⟨rfl, rfl⟩

theorem unsubscribePattern_forgets (h : broker.Consistent) (client : ClientId)
    (id : ChannelId) (pattern : String) :
    ¬ (broker.unsubscribePattern client id pattern).state.clients.Holds client
      fun links => links.hasPattern id pattern = true := by
  intro hholds
  rcases unsubscribePattern_cases h.numbered client id pattern with
    ⟨hsame, hstranger⟩ | ⟨channel, found, -, hstate⟩
  · rw [hsame] at hholds
    exact hstranger
      ⟨hholds.present, (h.memberships.patterns pattern id client).mpr hholds⟩
  · rw [hstate] at hholds
    replace hholds := (withdrawals_autoDeleteChannel _ id).clients_within.holds
      (fun _ _ hwithin => hwithin.patterns id pattern) hholds
    obtain ⟨links, -, hpattern⟩ := AssocList.holds_modify.mp hholds
    rw [if_pos rfl, ClientLinks.hasPattern_removePattern] at hpattern
    exact hpattern.2 ⟨rfl, rfl⟩

/-- Steps that each make one item go, and none of which brings one back. -/
theorem withdrawals_foldl {σ : Type u} {step : Broker → σ → Broker}
    (client : ClientId) (named : σ → ClientLinks → Prop) (items : List σ)
    (h : broker.Consistent)
    (hstep : ∀ (broker : Broker) (item : σ), broker.Consistent →
      Withdrawals broker (step broker item))
    (hforgets : ∀ (broker : Broker) (item : σ), broker.Consistent →
      ¬ (step broker item).clients.Holds client (named item))
    (hmono : ∀ (item : σ) (fewer more : ClientLinks), fewer.Within more →
      named item fewer → named item more) :
    Withdrawals broker (items.foldl step broker) ∧
      ∀ item ∈ items,
        ¬ (items.foldl step broker).clients.Holds client (named item) := by
  induction items generalizing broker with
  | nil => exact ⟨.refl, by simp⟩
  | cons item rest ih =>
      have hfirst := hstep broker item h
      obtain ⟨hrest, hgone⟩ := ih (hfirst.consistent h)
      refine ⟨hfirst.trans hrest, ?_⟩
      intro other hother
      rcases List.mem_cons.mp hother with rfl | hlater
      · intro hholds
        exact hforgets broker other h
          (hrest.clients_within.holds (hmono other) hholds)
      · exact hgone other hlater

theorem withdrawals_undeclareAutoDelete (h : broker.Consistent)
    (client : ClientId) (id : QueueId) :
    Withdrawals broker
        ((broker.undeclareQueue client id).state.autoDeleteQueue id) ∧
      ¬ ((broker.undeclareQueue client id).state.autoDeleteQueue
        id).clients.Holds client fun links =>
          id ∈ links.declaredQueues.items := by
  have hleft := withdrawals_undeclareQueue h.numbered client id
  have hlast := withdrawals_autoDeleteQueue (hleft.consistent h).numbered id
  refine ⟨hleft.trans hlast, fun hholds => ?_⟩
  exact undeclareQueue_forgets h client id
    (hlast.clients_within.holds (fun _ _ hwithin => hwithin.declared id) hholds)

theorem withdrawals_leaveAll (h : broker.Consistent) {links : ClientLinks}
    (hlinks : broker.clients.get? client = some links) :
    Withdrawals broker (broker.leaveAll client links) ∧
      ∀ left, (broker.leaveAll client links).clients.get? client = some left →
        left.isEmpty = true := by
  obtain ⟨hfirst, hsubscribed⟩ := withdrawals_foldl client
    (fun id links => id ∈ links.subscribedQueues.items)
    links.subscribedQueues.items h
    (fun broker id h => withdrawals_unsubscribeQueue h.numbered client id)
    (fun broker id h => unsubscribeQueue_forgets h client id)
    (fun id _ _ hwithin => hwithin.subscribed id)
  obtain ⟨hsecond, hdeclared⟩ := withdrawals_foldl client
    (fun id links => id ∈ links.declaredQueues.items)
    links.declaredQueues.items (hfirst.consistent h)
    (fun broker id h => (withdrawals_undeclareAutoDelete h client id).1)
    (fun broker id h => (withdrawals_undeclareAutoDelete h client id).2)
    (fun id _ _ hwithin => hwithin.declared id)
  obtain ⟨hthird, htopics⟩ := withdrawals_foldl client
    (fun pair links => links.hasTopic pair.1 pair.2 = true)
    links.topics.pairs (hsecond.consistent (hfirst.consistent h))
    (fun broker pair h =>
      withdrawals_unsubscribeTopic h.numbered client pair.1 pair.2)
    (fun broker pair h => unsubscribeTopic_forgets h client pair.1 pair.2)
    (fun pair _ _ hwithin => hwithin.topics pair.1 pair.2)
  obtain ⟨hfourth, hpatterns⟩ := withdrawals_foldl client
    (fun pair links => links.hasPattern pair.1 pair.2 = true)
    links.patterns.pairs
    (hthird.consistent (hsecond.consistent (hfirst.consistent h)))
    (fun broker pair h =>
      withdrawals_unsubscribePattern h.numbered client pair.1 pair.2)
    (fun broker pair h => unsubscribePattern_forgets h client pair.1 pair.2)
    (fun pair _ _ hwithin => hwithin.patterns pair.1 pair.2)
  have hlate : Withdrawals _ (broker.leaveAll client links) :=
    hthird.trans hfourth
  have hlater : Withdrawals _ (broker.leaveAll client links) :=
    hsecond.trans hlate
  have hall : Withdrawals broker (broker.leaveAll client links) :=
    hfirst.trans hlater
  -- Each walk clears one kind of membership, and the later ones add none.
  refine ⟨hall, fun left hleft => ?_⟩
  obtain ⟨before, hbefore, hwithin⟩ := hall.clients_within client left hleft
  rw [hlinks] at hbefore
  cases hbefore
  refine ClientLinks.isEmpty_iff.mpr ⟨?_, ?_, ?_, ?_⟩
  · intro id hid
    exact hdeclared id (hwithin.declared id hid)
      (hlate.clients_within.holds (fun _ _ hwithin => hwithin.declared id)
        ⟨left, hleft, hid⟩)
  · intro id hid
    exact hsubscribed id (hwithin.subscribed id hid)
      (hlater.clients_within.holds (fun _ _ hwithin => hwithin.subscribed id)
        ⟨left, hleft, hid⟩)
  · intro id topic htopic
    exact htopics (id, topic)
      (MemberIndex.mem_pairs.mpr (hwithin.topics id topic htopic))
      (hfourth.clients_within.holds
        (fun _ _ hwithin => hwithin.topics id topic) ⟨left, hleft, htopic⟩)
  · intro id pattern hpattern
    exact hpatterns (id, pattern)
      (MemberIndex.mem_pairs.mpr (hwithin.patterns id pattern hpattern))
      ⟨left, hleft, hpattern⟩

theorem withdrawals_eject (h : broker.Consistent) (client : ClientId) :
    Withdrawals broker (broker.eject client).state := by
  unfold eject
  split
  · exact .refl
  · rename_i links hlinks
    obtain ⟨hall, hempty⟩ := withdrawals_leaveAll h hlinks
    exact hall.tail (.leave hempty)

end Broker

end MessageBroker
