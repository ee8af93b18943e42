import MessageBroker.Proofs.Mailboxes.Views

/-! A mailbox that was given out is open until it is closed. What comes into it
until then is received or pending, and what comes into none is counted. -/

namespace MessageBroker.Mailboxes

namespace Seen

end Seen

namespace Session

/-- What a call has for a mailbox: a delivery to the client that is registered
with it, while it has room. -/
def admits (session : Session) (id : MailboxId) : Call → List Delivery
  | .accept (.deliver client delivery) =>
      if session.mailboxes.registered.get? client = some id ∧
          (session.mailboxes.pendingIn id).length <
            session.mailboxes.capacity then [delivery]
      else []
  | _ => []

def loses (session : Session) : Call → Bool
  | .accept (.deliver client _) => (session.mailboxes.taker? client).isNone
  | _ => false

def lost : Session → List Call → Nat
  | _, [] => 0
  | session, call :: rest =>
      (session.loses call).toNat + lost (session.step call) rest

/-- A mailbox is open, or has not been given out so far. -/
def Awaits (session : Session) (id : MailboxId) : Prop :=
  session.mailboxes.unread? id ≠ none ∨
    session.mailboxes.lastNumber < id.number

variable {session next : Session} {client : ClientId} {id : MailboxId}
  {turn : Nat}

theorem Awaits.before (hawaits : next.Awaits id)
    (hlast : session.mailboxes.lastNumber ≤ next.mailboxes.lastNumber)
    (hopen : (next.seen id).unread? ≠ none → (session.seen id).unread? ≠ none) :
    session.Awaits id :=
  hawaits.imp hopen (Nat.lt_of_le_of_lt hlast)

namespace Sound

end Sound

/-- The third delivery finds the mailbox full, the fourth comes after one has
been received. -/
example :
    ((start 2).run [.register ⟨1⟩, .accept (.deliver ⟨1⟩ (.notice "a")),
      .accept (.deliver ⟨1⟩ (.notice "b")), .accept (.deliver ⟨1⟩ (.notice "c")),
      .receive ⟨1⟩ 0, .accept (.deliver ⟨1⟩ (.notice "d"))]).view ⟨1⟩ =
    ⟨true, [⟨[.notice "a"], some [.notice "b", .notice "d"]⟩]⟩ := by
  rfl

end Session

end MessageBroker.Mailboxes
