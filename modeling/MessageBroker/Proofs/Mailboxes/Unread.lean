import MessageBroker.Mailboxes
import MessageBroker.Proofs.Collection.AssocList

/-! What each operation does to what is pending, and to who is registered. A
mailbox that is open loses nothing but what is received from it, whether its
client is registered or not. -/

namespace MessageBroker

def Mailbox.unread? (box : Mailbox) : Option (List Delivery) :=
  if box.isOpen then some box.pending else none

def Received.deliveries : Received → List Delivery
  | delivery received => [received]
  | empty => []
  | disconnected => []

namespace Mailboxes

def unread? (mailboxes : Mailboxes) (id : MailboxId) : Option (List Delivery) :=
  (mailboxes.boxes.get? id).bind Mailbox.unread?

def pendingIn (mailboxes : Mailboxes) (id : MailboxId) : List Delivery :=
  ((mailboxes.boxes.get? id).map Mailbox.pending).getD []

def nextId (mailboxes : Mailboxes) : MailboxId := ⟨mailboxes.lastNumber + 1⟩

/-- The mailbox that takes a delivery to a client: the one that is registered,
if it is open and not full. -/
def taker? (mailboxes : Mailboxes) (client : ClientId) : Option MailboxId :=
  (mailboxes.registered.get? client).filter fun id =>
    (mailboxes.unread? id).any fun pending =>
      pending.length < mailboxes.capacity

def revise (mailboxes : Mailboxes) (id : MailboxId)
    (change : List Delivery → List Delivery) : Mailboxes := {
  mailboxes with
  boxes := mailboxes.boxes.modify id fun box =>
    { box with pending := change box.pending }
}

/-- Mailboxes are numbered, hold no more than they can, and belong to the
clients that are registered with them. -/
structure Sound (mailboxes : Mailboxes) : Prop where
  issued : ∀ id box, mailboxes.boxes.get? id = some box →
    id.number ≤ mailboxes.lastNumber
  bounded : ∀ id box, mailboxes.boxes.get? id = some box →
    box.pending.length ≤ mailboxes.capacity
  owned : ∀ client id, mailboxes.registered.get? client = some id →
    ∃ box, mailboxes.boxes.get? id = some box ∧ box.client = client

variable {mailboxes next : Mailboxes} {client : ClientId} {id : MailboxId}
  {box : Mailbox} {pending : List Delivery}

theorem unread?_of_get? (hbox : mailboxes.boxes.get? id = some box) :
    mailboxes.unread? id = box.unread? := by
  unfold unread?
  rw [hbox]
  rfl

theorem pendingIn_of_get? (hbox : mailboxes.boxes.get? id = some box) :
    mailboxes.pendingIn id = box.pending := by
  unfold pendingIn
  rw [hbox]
  rfl

theorem pendingIn_of_absent (habsent : mailboxes.boxes.get? id = none) :
    mailboxes.pendingIn id = [] := by
  unfold pendingIn
  rw [habsent]
  rfl

theorem pendingIn_of_unread? (hunread : mailboxes.unread? id = some pending) :
    mailboxes.pendingIn id = pending := by
  obtain ⟨box, hbox, hopen⟩ := Option.bind_eq_some_iff.mp hunread
  rw [pendingIn_of_get? hbox]
  unfold Mailbox.unread? at hopen
  split at hopen
  · exact Option.some.inj hopen
  · cases hopen

theorem taker?_eq_some_iff :
    mailboxes.taker? client = some id ↔
      mailboxes.registered.get? client = some id ∧
        ∃ pending, mailboxes.unread? id = some pending ∧
          pending.length < mailboxes.capacity := by
  unfold taker?
  simp only [Option.filter_eq_some_iff, Option.any_eq_true, decide_eq_true_eq]

theorem isConnected_iff :
    mailboxes.isConnected id = true ↔
      ∃ client, mailboxes.registered.get? client = some id := by
  unfold isConnected
  rw [List.contains_iff_mem, AssocList.mem_values]

theorem get?_boxes_revise (mailboxes : Mailboxes) (id other : MailboxId)
    (change : List Delivery → List Delivery) :
    (mailboxes.revise id change).boxes.get? other =
      if other = id then (mailboxes.boxes.get? other).map fun box =>
        { box with pending := change box.pending }
      else mailboxes.boxes.get? other :=
  AssocList.get?_modify _ _ _ _

theorem get?_boxes_unregister (mailboxes : Mailboxes) (client : ClientId)
    (other : MailboxId) :
    (mailboxes.unregister client).boxes.get? other =
      if mailboxes.registered.get? client = some other then
        (mailboxes.boxes.get? other).filter Mailbox.isOpen
      else mailboxes.boxes.get? other := by
  unfold unregister
  cases hregistered : mailboxes.registered.get? client with
  | none => rfl
  | some id =>
      apply Option.ext
      intro box
      dsimp only
      rw [AssocList.get?_filter_of_mem]
      by_cases hother : id = other
      · subst hother
        simp
      · simp [hother, Ne.symm hother]

theorem get?_registered_unregister (mailboxes : Mailboxes)
    (client other : ClientId) :
    (mailboxes.unregister client).registered.get? other =
      if other = client then none else mailboxes.registered.get? other := by
  unfold unregister
  split
  · rename_i hnone
    split
    · rename_i hclient
      rw [hclient, hnone]
    · rfl
  · exact AssocList.get?_erase _ _ _

@[simp] theorem capacity_unregister (mailboxes : Mailboxes)
    (client : ClientId) :
    (mailboxes.unregister client).capacity = mailboxes.capacity := by
  unfold unregister
  split <;> rfl

@[simp] theorem lastNumber_unregister (mailboxes : Mailboxes)
    (client : ClientId) :
    (mailboxes.unregister client).lastNumber = mailboxes.lastNumber := by
  unfold unregister
  split <;> rfl

theorem get?_boxes_register (mailboxes : Mailboxes) (client : ClientId)
    (other : MailboxId) :
    (mailboxes.register client).1.boxes.get? other =
      if other = mailboxes.nextId then some ⟨client, [], true⟩
      else (mailboxes.unregister client).boxes.get? other :=
  AssocList.get?_insert _ _ _ _

theorem get?_registered_register (mailboxes : Mailboxes)
    (client other : ClientId) :
    (mailboxes.register client).1.registered.get? other =
      if other = client then some mailboxes.nextId
      else mailboxes.registered.get? other := by
  unfold register
  dsimp only
  rw [AssocList.get?_insert, get?_registered_unregister]
  split <;> rfl

/-- What becomes of a delivery: it is taken; or it is dropped, and the client
stays as it is; or it is dropped because nobody will receive it, and the client
is unregistered. -/
theorem Sound.deliver_cases (h : mailboxes.Sound) (client : ClientId)
    (delivery : Delivery) :
    (∃ id, mailboxes.taker? client = some id ∧
      mailboxes.deliver client delivery =
        mailboxes.revise id (· ++ [delivery])) ∨
    (mailboxes.taker? client = none ∧
      (∀ id, mailboxes.registered.get? client = some id →
        mailboxes.unread? id ≠ none) ∧
      mailboxes.deliver client delivery = mailboxes.countDropped) ∨
    (mailboxes.taker? client = none ∧
      (mailboxes.registered.get? client).bind mailboxes.unread? = none ∧
      mailboxes.deliver client delivery =
        (mailboxes.unregister client).countDropped) := by
  cases hregistered : mailboxes.registered.get? client with
  | none =>
      have hnobody : mailboxes.taker? client = none := by
        unfold taker?
        rw [hregistered]
        rfl
      refine .inr (.inl ⟨hnobody, nofun, ?_⟩)
      unfold deliver
      rw [hregistered]
  | some id =>
      obtain ⟨box, hbox, -⟩ := h.owned client id hregistered
      have hunread := unread?_of_get? hbox
      have htaker : mailboxes.taker? client =
          if box.isOpen = true ∧ box.pending.length < mailboxes.capacity then
            some id
          else none := by
        unfold taker?
        rw [hregistered, Option.filter_some, hunread]
        unfold Mailbox.unread?
        cases box.isOpen <;> simp
      have hdeliver : mailboxes.deliver client delivery =
          if !box.isOpen then (mailboxes.unregister client).countDropped
          else if mailboxes.capacity ≤ box.pending.length then
            mailboxes.countDropped
          else mailboxes.revise id (· ++ [delivery]) := by
        unfold deliver revise
        rw [hregistered, ← AssocList.insert_eq_modify hbox]
        dsimp only
        rw [hbox]
      rw [htaker, hdeliver, Option.bind_some, hunread]
      unfold Mailbox.unread?
      cases hopen : box.isOpen with
      | false => exact .inr (.inr ⟨rfl, rfl, rfl⟩)
      | true =>
          by_cases hroom : box.pending.length < mailboxes.capacity
          · refine .inl ⟨id, if_pos ⟨rfl, hroom⟩, ?_⟩
            exact if_neg (Nat.not_le_of_lt hroom)
          · refine .inr (.inl ⟨if_neg (hroom ·.2), ?_,
              if_pos (Nat.le_of_not_lt hroom)⟩)
            rintro other ⟨⟩
            rw [hunread]
            unfold Mailbox.unread?
            rw [hopen]
            exact nofun

theorem Sound.get?_registered_deliver (h : mailboxes.Sound) (client : ClientId)
    (delivery : Delivery) (other : ClientId) :
    (mailboxes.deliver client delivery).registered.get? other =
      if other = client ∧
          (mailboxes.registered.get? client).bind mailboxes.unread? = none then
        none
      else mailboxes.registered.get? other := by
  rcases h.deliver_cases client delivery with
    ⟨id, htaker, hdeliver⟩ | ⟨htaker, hheard, hdeliver⟩ |
      ⟨htaker, hunheard, hdeliver⟩ <;> rw [hdeliver]
  · obtain ⟨hregistered, pending, hpending, -⟩ := taker?_eq_some_iff.mp htaker
    rw [hregistered, Option.bind_some, hpending]
    simp [revise]
  · split
    · rename_i hboth
      obtain ⟨rfl, hnone⟩ := hboth
      cases hregistered : mailboxes.registered.get? other with
      | none => exact hregistered
      | some id =>
          rw [hregistered] at hnone
          exact absurd hnone (hheard id hregistered)
    · rfl
  · rw [hunheard]
    simp only [and_true]
    exact get?_registered_unregister _ _ _

theorem Sound.lastNumber_deliver (h : mailboxes.Sound) (client : ClientId)
    (delivery : Delivery) :
    (mailboxes.deliver client delivery).lastNumber = mailboxes.lastNumber := by
  rcases h.deliver_cases client delivery with
    ⟨id, -, hdeliver⟩ | ⟨-, -, hdeliver⟩ | ⟨-, -, hdeliver⟩ <;> rw [hdeliver]
  · rfl
  · rfl
  · exact lastNumber_unregister mailboxes client

theorem revise_eq_self {change : List Delivery → List Delivery}
    (hsame : change (mailboxes.pendingIn id) = mailboxes.pendingIn id) :
    mailboxes.revise id change = mailboxes := by
  unfold revise
  rw [AssocList.modify_eq_self]
  intro box hbox
  unfold pendingIn at hsame
  rw [hbox] at hsame
  exact congrArg (Mailbox.mk box.client · box.isOpen) hsame

theorem receive_eq (mailboxes : Mailboxes) (id : MailboxId) :
    (mailboxes.receive id).1.deliveries = (mailboxes.pendingIn id).take 1 ∧
      (mailboxes.receive id).2 = mailboxes.revise id List.tail := by
  unfold receive
  cases hbox : mailboxes.boxes.get? id with
  | none =>
      have hnothing := pendingIn_of_absent hbox
      rw [revise_eq_self (by rw [hnothing]; rfl), hnothing]
      exact ⟨rfl, rfl⟩
  | some box =>
      have hpending := pendingIn_of_get? hbox
      dsimp only
      split
      · rename_i delivery rest hmore
        rw [hpending, hmore]
        refine ⟨rfl, ?_⟩
        unfold revise
        rw [← AssocList.insert_eq_modify hbox, hmore]
        rfl
      · rename_i hnothing
        rw [hnothing] at hpending
        rw [revise_eq_self (by rw [hpending]; rfl), hpending]
        exact ⟨by split <;> rfl, rfl⟩

theorem drain_eq (mailboxes : Mailboxes) (id : MailboxId) :
    mailboxes.drain id =
      (mailboxes.pendingIn id, mailboxes.revise id fun _ => []) := by
  unfold drain
  cases hbox : mailboxes.boxes.get? id with
  | none =>
      have hnothing := pendingIn_of_absent hbox
      rw [revise_eq_self hnothing.symm, hnothing]
  | some box =>
      rw [pendingIn_of_get? hbox]
      unfold revise
      rw [← AssocList.insert_eq_modify hbox]

theorem get?_boxes_close (mailboxes : Mailboxes) (id other : MailboxId) :
    (mailboxes.close id).boxes.get? other =
      if other = id then
        if mailboxes.isConnected id then
          (mailboxes.boxes.get? other).map fun box =>
            { box with isOpen := false }
        else none
      else mailboxes.boxes.get? other := by
  unfold close
  split
  · exact AssocList.get?_modify _ _ _ _
  · exact AssocList.get?_erase _ _ _

structure Alike (first second : Mailboxes) : Prop where
  capacity : second.capacity = first.capacity
  registered : second.registered = first.registered
  dropped : second.dropped = first.dropped
  lastNumber : second.lastNumber = first.lastNumber

theorem alike_close (mailboxes : Mailboxes) (id : MailboxId) :
    Alike mailboxes (mailboxes.close id) := by
  unfold close
  split <;> exact ⟨rfl, rfl, rfl, rfl⟩

namespace Sound

theorem countDropped (h : mailboxes.Sound) : mailboxes.countDropped.Sound :=
  ⟨h.issued, h.bounded, h.owned⟩

theorem revise (h : mailboxes.Sound) {change : List Delivery → List Delivery}
    (hroom : ∀ box, mailboxes.boxes.get? id = some box →
      (change box.pending).length ≤ mailboxes.capacity) :
    (mailboxes.revise id change).Sound := by
  refine ⟨?issued, ?bounded, ?owned⟩
  case issued =>
    intro other box hbox
    rw [get?_boxes_revise] at hbox
    split at hbox
    · obtain ⟨before, hbefore, -⟩ := Option.map_eq_some_iff.mp hbox
      exact h.issued other before hbefore
    · exact h.issued other box hbox
  case bounded =>
    intro other box hbox
    rw [get?_boxes_revise] at hbox
    split at hbox
    · rename_i hother
      obtain ⟨before, hbefore, rfl⟩ := Option.map_eq_some_iff.mp hbox
      exact hroom before (hother ▸ hbefore)
    · exact h.bounded other box hbox
  case owned =>
    intro client other hregistered
    obtain ⟨box, hbox, hclient⟩ := h.owned client other hregistered
    rw [get?_boxes_revise, hbox]
    split
    · exact ⟨_, rfl, hclient⟩
    · exact ⟨box, rfl, hclient⟩

theorem unregister (h : mailboxes.Sound) (client : ClientId) :
    (mailboxes.unregister client).Sound := by
  have hbefore : ∀ id box,
      (mailboxes.unregister client).boxes.get? id = some box →
        mailboxes.boxes.get? id = some box := by
    intro id box hbox
    rw [get?_boxes_unregister] at hbox
    split at hbox
    · exact (Option.filter_eq_some_iff.mp hbox).1
    · exact hbox
  refine ⟨?issued, ?bounded, ?owned⟩
  case issued =>
    intro id box hbox
    rw [lastNumber_unregister]
    exact h.issued id box (hbefore id box hbox)
  case bounded =>
    intro id box hbox
    rw [capacity_unregister]
    exact h.bounded id box (hbefore id box hbox)
  case owned =>
    intro other id hregistered
    rw [get?_registered_unregister] at hregistered
    split at hregistered
    · cases hregistered
    · rename_i hother
      obtain ⟨box, hbox, hclient⟩ := h.owned other id hregistered
      refine ⟨box, ?_, hclient⟩
      rw [get?_boxes_unregister, if_neg, hbox]
      -- A mailbox has one client only.
      intro hsame
      obtain ⟨own, hown, rfl⟩ := h.owned client id hsame
      rw [hbox] at hown
      cases hown
      exact hother hclient.symm

theorem register (h : mailboxes.Sound) (client : ClientId) :
    (mailboxes.register client).1.Sound := by
  have hleft := h.unregister client
  refine ⟨?issued, ?bounded, ?owned⟩
  case issued =>
    intro id box hbox
    rw [get?_boxes_register] at hbox
    split at hbox
    · subst id
      exact Nat.le_refl _
    · have hissued := hleft.issued id box hbox
      rw [lastNumber_unregister] at hissued
      exact Nat.le_succ_of_le hissued
  case bounded =>
    intro id box hbox
    rw [get?_boxes_register] at hbox
    split at hbox
    · cases hbox
      exact Nat.zero_le _
    · exact hleft.bounded id box hbox
  case owned =>
    intro other id hregistered
    rw [get?_registered_register] at hregistered
    rw [get?_boxes_register]
    split at hregistered
    · rename_i hother
      cases hregistered
      rw [if_pos rfl]
      exact ⟨_, rfl, hother.symm⟩
    · rename_i hother
      have hstill :
          (mailboxes.unregister client).registered.get? other = some id := by
        rw [get?_registered_unregister, if_neg hother]
        exact hregistered
      obtain ⟨box, hbox, hclient⟩ := hleft.owned other id hstill
      have hissued := hleft.issued id box hbox
      rw [lastNumber_unregister] at hissued
      rw [if_neg]
      · exact ⟨box, hbox, hclient⟩
      · rintro rfl
        exact Nat.not_succ_le_self _ hissued

theorem deliver (h : mailboxes.Sound) (client : ClientId)
    (delivery : Delivery) :
    (mailboxes.deliver client delivery).Sound := by
  rcases h.deliver_cases client delivery with
    ⟨id, htaker, hdeliver⟩ | ⟨-, -, hdeliver⟩ | ⟨-, -, hdeliver⟩ <;>
    rw [hdeliver]
  · obtain ⟨-, pending, hunread, hroom⟩ := taker?_eq_some_iff.mp htaker
    refine h.revise fun box hbox => ?_
    rw [← pendingIn_of_unread? hunread, pendingIn_of_get? hbox] at hroom
    rw [List.length_append, List.length_singleton]
    exact hroom
  · exact h.countDropped
  · exact (h.unregister client).countDropped

theorem close (h : mailboxes.Sound) (id : MailboxId) :
    (mailboxes.close id).Sound := by
  have hbefore : ∀ other box,
      (mailboxes.close id).boxes.get? other = some box →
        ∃ before, mailboxes.boxes.get? other = some before ∧
          before.pending = box.pending := by
    intro other box hbox
    rw [get?_boxes_close] at hbox
    split at hbox
    · split at hbox
      · obtain ⟨before, hbefore, rfl⟩ := Option.map_eq_some_iff.mp hbox
        exact ⟨before, hbefore, rfl⟩
      · cases hbox
    · exact ⟨box, hbox, rfl⟩
  refine ⟨?issued, ?bounded, ?owned⟩
  case issued =>
    intro other box hbox
    obtain ⟨before, hget, -⟩ := hbefore other box hbox
    rw [(alike_close mailboxes id).lastNumber]
    exact h.issued other before hget
  case bounded =>
    intro other box hbox
    obtain ⟨before, hget, hpending⟩ := hbefore other box hbox
    rw [(alike_close mailboxes id).capacity, ← hpending]
    exact h.bounded other before hget
  case owned =>
    intro client other hregistered
    rw [(alike_close mailboxes id).registered] at hregistered
    obtain ⟨box, hbox, hclient⟩ := h.owned client other hregistered
    rw [get?_boxes_close, hbox]
    split
    · subst other
      rw [if_pos (isConnected_iff.mpr ⟨client, hregistered⟩)]
      exact ⟨_, rfl, hclient⟩
    · exact ⟨box, rfl, hclient⟩

end Sound

end Mailboxes

end MessageBroker
