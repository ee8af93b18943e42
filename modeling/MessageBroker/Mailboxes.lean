import MessageBroker.Collection.AssocList
import MessageBroker.Delivery

/-! Bounded mailboxes for clients. The sending side of a mailbox is there while
its client is registered, the receiving side until it is closed; either can go
first. -/

namespace MessageBroker

structure MailboxId where
  number : Nat
  deriving DecidableEq

structure Mailbox where
  client : ClientId
  pending : List Delivery
  isOpen : Bool
  deriving DecidableEq

structure Mailboxes where
  capacity : Nat
  boxes : AssocList MailboxId Mailbox
  /-- The mailbox that deliveries to a client go to. -/
  registered : AssocList ClientId MailboxId
  /-- Deliveries that reached no mailbox. -/
  dropped : Nat
  lastNumber : Nat

inductive Received where
  | delivery (delivery : Delivery)
  | empty
  | disconnected
  deriving DecidableEq

namespace Mailboxes

/-- A mailbox holds one delivery at least. -/
def create (capacity : Nat) : Mailboxes where
  capacity := max capacity 1
  boxes := .empty
  registered := .empty
  dropped := 0
  lastNumber := 0

def isRegistered (mailboxes : Mailboxes) (client : ClientId) : Bool :=
  mailboxes.registered.contains client

def isConnected (mailboxes : Mailboxes) (id : MailboxId) : Bool :=
  mailboxes.registered.values.contains id

/-- Stop delivering to a client. What is pending can still be received; a
mailbox without either side is gone. -/
def unregister (mailboxes : Mailboxes) (client : ClientId) : Mailboxes :=
  match mailboxes.registered.get? client with
  | none => mailboxes
  | some id => {
      mailboxes with
      registered := mailboxes.registered.erase client
      boxes := mailboxes.boxes.filter fun other box =>
        other != id || box.isOpen
    }

/-- Open a new mailbox for a client, in place of the one before. -/
def register (mailboxes : Mailboxes) (client : ClientId) :
    Mailboxes × MailboxId :=
  let left := mailboxes.unregister client
  let id : MailboxId := ⟨mailboxes.lastNumber + 1⟩
  ({
    left with
    boxes := left.boxes.insert id ⟨client, [], true⟩
    registered := left.registered.insert client id
    lastNumber := mailboxes.lastNumber + 1
  }, id)

def close (mailboxes : Mailboxes) (id : MailboxId) : Mailboxes :=
  if mailboxes.isConnected id then {
    mailboxes with
    boxes := mailboxes.boxes.modify id fun box => { box with isOpen := false }
  }
  else { mailboxes with boxes := mailboxes.boxes.erase id }

def countDropped (mailboxes : Mailboxes) : Mailboxes :=
  { mailboxes with dropped := mailboxes.dropped + 1 }

/-- Put a delivery into the client's mailbox. It is dropped if there is none,
if it is full, or if nobody will receive; in the last case the client is
unregistered. -/
def deliver (mailboxes : Mailboxes) (client : ClientId) (delivery : Delivery) :
    Mailboxes :=
  match mailboxes.registered.get? client with
  | none => mailboxes.countDropped
  | some id =>
      match mailboxes.boxes.get? id with
      | none => mailboxes.countDropped
      | some box =>
          if !box.isOpen then (mailboxes.unregister client).countDropped
          else if mailboxes.capacity ≤ box.pending.length then
            mailboxes.countDropped
          else {
            mailboxes with
            boxes := mailboxes.boxes.insert id
              { box with pending := box.pending ++ [delivery] }
          }

def receive (mailboxes : Mailboxes) (id : MailboxId) : Received × Mailboxes :=
  match mailboxes.boxes.get? id with
  | none => (.disconnected, mailboxes)
  | some box =>
      match box.pending with
      | delivery :: rest => (.delivery delivery, {
          mailboxes with
          boxes := mailboxes.boxes.insert id { box with pending := rest }
        })
      | [] =>
          (if mailboxes.isConnected id then .empty else .disconnected,
            mailboxes)

def drain (mailboxes : Mailboxes) (id : MailboxId) :
    List Delivery × Mailboxes :=
  match mailboxes.boxes.get? id with
  | none => ([], mailboxes)
  | some box => (box.pending, {
      mailboxes with
      boxes := mailboxes.boxes.insert id { box with pending := [] }
    })

def accept (mailboxes : Mailboxes) : Signal → Mailboxes
  | .deliver client delivery => mailboxes.deliver client delivery
  | .disconnect client => mailboxes.unregister client

def acceptAll (mailboxes : Mailboxes) (signals : List Signal) : Mailboxes :=
  signals.foldl accept mailboxes

/-- Start again with nobody registered. Mailboxes that are open can still be
read. -/
def renew (mailboxes : Mailboxes) (capacity : Nat) : Mailboxes where
  capacity := max capacity 1
  boxes := mailboxes.boxes.filter fun _ box => box.isOpen
  registered := .empty
  dropped := 0
  lastNumber := mailboxes.lastNumber

/-- How many pending deliveries carry a payload of this serial number. -/
def holders (mailboxes : Mailboxes) (serial : Nat) : Nat :=
  (mailboxes.boxes.values.flatMap Mailbox.pending).countP fun delivery =>
    delivery.payload?.any fun payload => payload.serial == serial

end Mailboxes

end MessageBroker
