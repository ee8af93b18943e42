import MessageBroker.Channel
import MessageBroker.ClientLinks
import MessageBroker.Proofs.Collection.MemberIndex
import MessageBroker.Proofs.Queue.Members

/-! What an entity lists, and what the links of a client name, after a change
to either. -/

namespace MessageBroker

namespace Queue

def Subscribes (queue : Queue) (client : ClientId) : Prop :=
  client ∈ queue.messageSubscribers.items ∨
    client ∈ queue.notifySubscribers.items

def RolesApart (queue : Queue) : Prop :=
  ∀ client, client ∈ queue.messageSubscribers.items →
    client ∉ queue.notifySubscribers.items

variable {queue : Queue} {client other : ClientId}

theorem not_mem_declared_create {id : QueueId} {name : String}
    {settings : QueueSettings} {slots : SlotPolicy} :
    client ∉ (create id name settings slots).declared.items :=
  List.not_mem_nil

theorem not_subscribes_create {id : QueueId} {name : String}
    {settings : QueueSettings} {slots : SlotPolicy} :
    ¬ (create id name settings slots).Subscribes client := by
  simp [create, Subscribes, MemberSet.empty]

theorem rolesApart_create {id : QueueId} {name : String}
    {settings : QueueSettings} {slots : SlotPolicy} :
    (create id name settings slots).RolesApart := by
  intro client hmessage
  cases hmessage

theorem mem_declared_declare :
    other ∈ (queue.declare client).declared.items ↔
      other ∈ queue.declared.items ∨ other = client := by
  simp [declare]

theorem mem_declared_undeclare :
    other ∈ (queue.undeclare client).declared.items ↔
      other ∈ queue.declared.items ∧ other ≠ client := by
  simp [undeclare]

theorem subscribes_iff_mem_subscribers :
    queue.Subscribes client ↔ client ∈ queue.subscribers :=
  List.mem_append.symm

theorem isDeclared_iff :
    queue.isDeclared client = true ↔ client ∈ queue.declared.items :=
  MemberSet.contains_iff

theorem isSubscribed_iff :
    queue.isSubscribed client = true ↔ queue.Subscribes client := by
  simp [isSubscribed, Subscribes]

theorem subscribes_subscribe {noticesOnly : Bool} :
    (queue.subscribe client noticesOnly).Subscribes other ↔
      queue.Subscribes other ∨ other = client := by
  unfold subscribe Subscribes
  by_cases hclient : other = client <;> cases noticesOnly <;> simp [hclient]

theorem subscribes_unsubscribe :
    (queue.unsubscribe client).Subscribes other ↔
      queue.Subscribes other ∧ other ≠ client := by
  simp [unsubscribe, Subscribes, or_and_right]

theorem declared_subscribe {noticesOnly : Bool} :
    (queue.subscribe client noticesOnly).declared = queue.declared := by
  unfold subscribe
  split <;> rfl

theorem bindings_subscribe {noticesOnly : Bool} :
    (queue.subscribe client noticesOnly).bindings = queue.bindings := by
  unfold subscribe
  split <;> rfl

theorem RolesApart.subscribe (h : queue.RolesApart) {noticesOnly : Bool} :
    (queue.subscribe client noticesOnly).RolesApart := by
  intro other
  have hother := h other
  unfold Queue.subscribe
  by_cases hclient : other = client
  · cases noticesOnly <;> simp [hclient]
  · cases noticesOnly <;> simpa [hclient] using hother

theorem RolesApart.unsubscribe (h : queue.RolesApart) :
    (queue.unsubscribe client).RolesApart := by
  intro other hmessage hnotice
  rw [Queue.unsubscribe, MemberSet.mem_items_erase] at hmessage hnotice
  exact h other hmessage.1 hnotice.1

theorem SameMembers.rolesApart {before after : Queue}
    (hsame : SameMembers before after) (h : before.RolesApart) :
    after.RolesApart := by
  intro client hmessage
  rw [hsame.notifySubscribers]
  exact h client ((hsame.messageSubscribers client).mp hmessage)

theorem SameMembers.subscribes {before after : Queue}
    (hsame : SameMembers before after) :
    after.Subscribes client ↔ before.Subscribes client := by
  unfold Subscribes
  rw [hsame.messageSubscribers, hsame.notifySubscribers]

theorem SameMembers.mem_declared {before after : Queue}
    (hsame : SameMembers before after) :
    client ∈ after.declared.items ↔ client ∈ before.declared.items := by
  rw [hsame.declared]

end Queue

namespace Channel

variable {channel : Channel} {client other : ClientId} {topic another : String}

theorem hasTopic_subscribeTopic :
    (channel.subscribeTopic client topic).hasTopic other another = true ↔
      channel.hasTopic other another = true ∨
        (another = topic ∧ other = client) :=
  MemberIndex.contains_link

theorem hasPattern_subscribePattern :
    (channel.subscribePattern client topic).hasPattern other another = true ↔
      channel.hasPattern other another = true ∨
        (another = topic ∧ other = client) :=
  MemberIndex.contains_link

theorem hasTopic_advanced :
    (channel.advanced topic).hasTopic client another =
      channel.hasTopic client another := by
  unfold advanced
  split
  · exact MemberIndex.contains_rotate
  · rfl

theorem hasPattern_advanced :
    (channel.advanced topic).hasPattern client another =
      channel.hasPattern client another := by
  unfold advanced
  split <;> rfl

end Channel

namespace ClientLinks

variable {links : ClientLinks}

/-- Every membership named by the one is named by the other. -/
structure Within (fewer more : ClientLinks) : Prop where
  declared : ∀ id ∈ fewer.declaredQueues.items, id ∈ more.declaredQueues.items
  subscribed : ∀ id ∈ fewer.subscribedQueues.items,
    id ∈ more.subscribedQueues.items
  topics : ∀ id topic, fewer.hasTopic id topic = true →
    more.hasTopic id topic = true
  patterns : ∀ id pattern, fewer.hasPattern id pattern = true →
    more.hasPattern id pattern = true

theorem hasTopic_addTopic {id other : ChannelId} {topic another : String} :
    (links.addTopic id topic).hasTopic other another = true ↔
      links.hasTopic other another = true ∨ (another = topic ∧ other = id) := by
  rw [and_comm (a := another = topic)]
  exact MemberIndex.contains_link

theorem hasPattern_addPattern {id other : ChannelId}
    {pattern another : String} :
    (links.addPattern id pattern).hasPattern other another = true ↔
      links.hasPattern other another = true ∨
        (another = pattern ∧ other = id) := by
  rw [and_comm (a := another = pattern)]
  exact MemberIndex.contains_link

theorem hasTopic_removeTopic {id other : ChannelId} {topic another : String} :
    (links.removeTopic id topic).hasTopic other another = true ↔
      links.hasTopic other another = true ∧
        ¬ (another = topic ∧ other = id) := by
  rw [and_comm (a := another = topic)]
  exact MemberIndex.contains_unlink

theorem hasPattern_removePattern {id other : ChannelId}
    {pattern another : String} :
    (links.removePattern id pattern).hasPattern other another = true ↔
      links.hasPattern other another = true ∧
        ¬ (another = pattern ∧ other = id) := by
  rw [and_comm (a := another = pattern)]
  exact MemberIndex.contains_unlink

theorem mem_declared_forgetQueue {id other : QueueId} :
    other ∈ (links.forgetQueue id).declaredQueues.items ↔
      other ∈ links.declaredQueues.items ∧ other ≠ id :=
  MemberSet.mem_items_erase

theorem mem_subscribed_forgetQueue {id other : QueueId} :
    other ∈ (links.forgetQueue id).subscribedQueues.items ↔
      other ∈ links.subscribedQueues.items ∧ other ≠ id :=
  MemberSet.mem_items_erase

theorem hasTopic_forgetChannel {id other : ChannelId} {topic : String} :
    (links.forgetChannel id).hasTopic other topic = true ↔
      links.hasTopic other topic = true ∧ other ≠ id :=
  MemberIndex.contains_eraseKey

theorem hasPattern_forgetChannel {id other : ChannelId} {pattern : String} :
    (links.forgetChannel id).hasPattern other pattern = true ↔
      links.hasPattern other pattern = true ∧ other ≠ id :=
  MemberIndex.contains_eraseKey

theorem Within.refl (links : ClientLinks) : Within links links :=
  ⟨fun _ => id, fun _ => id, fun _ _ => id, fun _ _ => id⟩

theorem Within.trans {first second third : ClientLinks}
    (hfirst : Within first second) (hsecond : Within second third) :
    Within first third where
  declared id hid := hsecond.declared id (hfirst.declared id hid)
  subscribed id hid := hsecond.subscribed id (hfirst.subscribed id hid)
  topics id topic htopic :=
    hsecond.topics id topic (hfirst.topics id topic htopic)
  patterns id pattern hpattern :=
    hsecond.patterns id pattern (hfirst.patterns id pattern hpattern)

theorem isEmpty_iff :
    links.isEmpty = true ↔
      (∀ id, id ∉ links.declaredQueues.items) ∧
      (∀ id, id ∉ links.subscribedQueues.items) ∧
      (∀ id topic, links.hasTopic id topic ≠ true) ∧
      (∀ id pattern, links.hasPattern id pattern ≠ true) := by
  simp only [isEmpty, Bool.and_eq_true, MemberIndex.isEmpty_iff,
    MemberSet.isEmpty, List.isEmpty_iff, List.eq_nil_iff_forall_not_mem,
    and_assoc, ne_eq, Bool.not_eq_true]
  rfl

end ClientLinks

end MessageBroker
