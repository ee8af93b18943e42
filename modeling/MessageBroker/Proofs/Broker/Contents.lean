import MessageBroker.Proofs.Broker.Reached
import MessageBroker.Proofs.Broker.Settling
import MessageBroker.Proofs.Queue.Contents

/-! Every queue of a broker keeps to its limits: it never has more messages than
it may buffer, and none that is too large for it. -/

namespace MessageBroker

namespace Queue

variable {queue next : Queue} {buffered held : Message → Prop}

theorem Stores.of_vacant (hvacant : queue.IsVacant) :
    queue.Stores buffered held := by
  have hnothing : ∀ message, message ∉ queue.heldMessages := by
    intro message hmem
    obtain ⟨tag, hheld⟩ := mem_heldMessages.mp hmem
    have hgone := hvacant.gone tag
    rw [hvacant.keeps.place_eq_awaiting_iff.mpr hheld] at hgone
    cases hgone
  exact hvacant.keeps.buffers.stores (Nat.zero_le _) (by simp)
    fun message hmem => absurd hmem (hnothing message)

theorem Stores.sameContents (h : queue.Stores buffered held)
    (hsame : queue.SameContents next) : next.Stores buffered held := by
  obtain ⟨row, hrow⟩ := h.row
  have hnext : next.Buffers row :=
    ⟨hsame.buffer ▸ hrow.represents, hsame.expiring ▸ hrow.indexes⟩
  refine hnext.stores ?_ (h.of_mem hrow) ?_
  · unfold capacity
    rw [hsame.settings]
    exact h.bounds hrow
  · unfold heldMessages
    rw [hsame.held]
    exact h.held

def Admits (queue : Queue) (message : Message) : Prop :=
  queue.isTooLarge message.payload = false

theorem admits_congr (hsettings : next.settings = queue.settings) :
    next.Admits = queue.Admits := by
  unfold Admits isTooLarge
  rw [hsettings]

def IsLimited (queue : Queue) : Prop :=
  queue.Stores queue.Admits queue.Admits

namespace IsLimited

theorem of_stores (h : next.Stores queue.Admits queue.Admits)
    (hsettings : next.settings = queue.settings) : next.IsLimited := by
  unfold IsLimited
  rw [admits_congr hsettings]
  exact h

theorem sameContents (h : queue.IsLimited) (hsame : queue.SameContents next) :
    next.IsLimited :=
  of_stores (Stores.sameContents h hsame) hsame.settings

theorem turn {clock : TagClock} {stamps : Nat} (h : queue.IsLimited)
    (hturn : queue.Turn clock stamps next) : next.IsLimited := by
  refine of_stores ?_ hturn.sameMembers.settings
  cases hturn with
  | push payload timeToLive => exact Stores.push h clock _ _ fun hfits => hfits
  | refuse payload timeToLive => exact Stores.push h clock _ _ fun hfits => hfits
  | pop holdTime => exact Stores.pop h _ _ fun _ _ hfits => hfits
  | confirm confirmed => exact Stores.confirm h confirmed
  | purge => exact Stores.purge h
  | refill => exact Stores.refill h fun hfits => hfits

theorem sweep (h : queue.IsLimited) (now : Timestamp) :
    (queue.sweep now).1.IsLimited := by
  have hswept := Stores.sweep h now fun _ hfits _ => hfits
  exact of_stores (hswept.mono (fun _ => And.left) fun _ hfits => hfits)
    (refilled_sweep queue now).settings_eq

end IsLimited

end Queue

namespace Broker

variable {broker after : Broker}

theorem Settles.all {property : Queue → Prop} (h : Settles broker after)
    (hall : broker.queues.All fun _ => property)
    (hsame : ∀ queue next, queue.SameContents next → property queue →
      property next)
    (hvacant : ∀ queue, queue.IsVacant → property queue) :
    after.queues.All fun _ => property := by
  intro id next hnext
  rcases h.queues id next hnext with ⟨queue, found, hkept⟩ | ⟨-, hnew⟩
  · exact hsame queue next hkept (hall id queue found)
  · exact hvacant next hnew

def IsLimited (broker : Broker) : Prop :=
  broker.queues.All fun _ => Queue.IsLimited

namespace IsLimited

theorem edit {stamps : Nat} (h : broker.IsLimited)
    (hnumbered : broker.Numbered) (hedit : Edit broker stamps after) :
    after.IsLimited := by
  cases hedit with
  | arrange arrangement =>
      exact (settles_arrangement hnumbered arrangement).all h
        (fun _ _ hsame hqueue => hqueue.sameContents hsame)
        fun _ hvacant => .of_vacant hvacant
  | move traffic =>
      cases traffic with
      | turnQueue found turn =>
          exact h.update fun queue hqueue hlimited => by
            rw [found] at hqueue
            cases hqueue
            exact hlimited.turn turn
      | tick now =>
          exact h.mapEntities fun _ _ _ hlimited => hlimited.sweep now

end IsLimited

theorem Reached.limited {stamps : Nat} (reached : Reached stamps broker) :
    broker.IsLimited :=
  reached.kept (fun _ _ _ => Registry.all_empty) .edit

end Broker

end MessageBroker
