import MessageBroker.Proofs.Broker.Reached

/-! In every broker that can come about, memberships and bindings read the same
from both sides. -/

namespace MessageBroker

def MemberIndex.Tidy {κ α : Type} [DecidableEq κ] (index : MemberIndex κ α) :
    Prop :=
  ∀ key set, index.group? key = some set →
    set.items ≠ [] ∧ set.items.Nodup

theorem MemberIndex.tidy {κ α : Type} [DecidableEq κ]
    (index : MemberIndex κ α) : index.Tidy := by
  intro key set hgroup
  have hmem := AssocList.get?_eq_some_iff.mp hgroup
  exact ⟨index.groups_nonempty _ hmem, set.nodup_items⟩

namespace Broker

variable {stamps : Nat} {broker : Broker}

/-- Whoever stands on one side stands on the other, where both are there. In no
list is anyone twice, and no list under a key is empty. -/
theorem Reached.memberships_mirrored (reached : Reached stamps broker) :
    (∀ client id,
      (∃ queue, broker.queues.find? id = some queue ∧
        queue.isDeclared client = true) ↔
      ∃ links, broker.clients.get? client = some links ∧
        links.declaredQueues.contains id = true) ∧
    (∀ client id,
      (∃ queue, broker.queues.find? id = some queue ∧
        (queue.messageSubscribers.contains client = true ∨
          queue.notifySubscribers.contains client = true)) ↔
      ∃ links, broker.clients.get? client = some links ∧
        links.subscribedQueues.contains id = true) ∧
    (∀ client id topic,
      (∃ channel, broker.channels.find? id = some channel ∧
        channel.topics.contains topic client = true) ↔
      ∃ links, broker.clients.get? client = some links ∧
        links.topics.contains id topic = true) ∧
    (∀ client id pattern,
      (∃ channel, broker.channels.find? id = some channel ∧
        channel.patterns.contains pattern client = true) ↔
      ∃ links, broker.clients.get? client = some links ∧
        links.patterns.contains id pattern = true) ∧
    (∀ id queue, broker.queues.find? id = some queue →
      (∀ client, ¬ (queue.messageSubscribers.contains client = true ∧
        queue.notifySubscribers.contains client = true)) ∧
      queue.declared.items.Nodup ∧ queue.messageSubscribers.items.Nodup ∧
      queue.notifySubscribers.items.Nodup) ∧
    (∀ id channel, broker.channels.find? id = some channel →
      channel.topics.Tidy ∧ channel.patterns.Tidy) ∧
    (∀ client links, broker.clients.get? client = some links →
      links.declaredQueues.items.Nodup ∧ links.subscribedQueues.items.Nodup ∧
      links.topics.Tidy ∧ links.patterns.Tidy) := by
  have h := reached.consistent.memberships
  refine ⟨?declared, ?subscribed, ?topics, ?patterns, ?queues, ?channels,
    ?clients⟩
  case declared =>
    intro client id
    simp only [Queue.isDeclared_iff, MemberSet.contains_iff]
    exact h.declared id client
  case subscribed =>
    intro client id
    simp only [MemberSet.contains_iff]
    exact h.subscribed id client
  case topics =>
    intro client id topic
    exact h.topics topic id client
  case patterns =>
    intro client id pattern
    exact h.patterns pattern id client
  case queues =>
    intro id queue found
    refine ⟨?_, queue.declared.nodup_items, queue.messageSubscribers.nodup_items,
      queue.notifySubscribers.nodup_items⟩
    rintro client ⟨hmessages, hnotices⟩
    rw [MemberSet.contains_iff] at hmessages hnotices
    exact h.roles id queue found client hmessages hnotices
  case channels =>
    intro id channel _
    exact ⟨channel.topics.tidy, channel.patterns.tidy⟩
  case clients =>
    intro client links _
    exact ⟨links.declaredQueues.nodup_items, links.subscribedQueues.nodup_items,
      links.topics.tidy, links.patterns.tidy⟩

theorem Reached.memberships_mirrored_declared :
    (let broker := (idle .default ⟨0⟩).run [
      .connect ⟨7⟩,
      .createQueue "jobs" ⟨10, 64, ⟨true, false, false, false⟩⟩,
      .declareQueue ⟨7⟩ ⟨1⟩]
    ∃ queue, broker.queues.find? ⟨1⟩ = some queue ∧
      queue.isDeclared ⟨7⟩ = true) := by
  have hidle : Reached 0 (idle .default ⟨0⟩) :=
    .start (start_of_sound (by decide))
  exact ((hidle.run _).memberships_mirrored.1 ⟨7⟩ ⟨1⟩).mpr ⟨_, rfl, rfl⟩

/-- A queue that is there has a route under a key if and only if the route is
there and has the queue under that key. -/
theorem Reached.bindings_mirrored (reached : Reached stamps broker) :
    (∀ route queue key,
      (∃ entry, broker.routes.find? route = some entry ∧
        entry.bindings.contains key queue = true) ↔
      ∃ entry, broker.queues.find? queue = some entry ∧
        entry.bindings.contains key route = true) ∧
    (∀ route entry, broker.routes.find? route = some entry →
      entry.bindings.Tidy) ∧
    (∀ queue entry, broker.queues.find? queue = some entry →
      entry.bindings.Tidy) := by
  have h := reached.consistent.bindings
  refine ⟨?_, fun _ entry _ => entry.bindings.tidy,
    fun _ entry _ => entry.bindings.tidy⟩
  intro route queue key
  exact h key route queue

theorem Reached.bindings_mirrored_bound :
    (let broker := (idle .default ⟨0⟩).run [
      .createQueue "jobs" ⟨10, 64, ⟨true, false, false, false⟩⟩,
      .createRoute "work" ⟨true, false, false⟩,
      .bind ⟨2⟩ ⟨1⟩ "urgent"]
    ∃ entry, broker.queues.find? ⟨1⟩ = some entry ∧
      entry.bindings.contains "urgent" ⟨2⟩ = true) := by
  have hidle : Reached 0 (idle .default ⟨0⟩) :=
    .start (start_of_sound (by decide))
  exact ((hidle.run _).bindings_mirrored.1 ⟨2⟩ ⟨1⟩ "urgent").mp ⟨_, rfl, rfl⟩

end Broker

end MessageBroker
