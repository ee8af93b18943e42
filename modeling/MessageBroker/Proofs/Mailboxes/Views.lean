import MessageBroker.Proofs.Mailboxes.Session

/-! What a client sees: whether it is registered, and its mailboxes. It can tell
from its own calls alone, whatever other clients do. -/

namespace MessageBroker.Mailboxes

structure View where
  isRegistered : Bool
  seen : List Seen
  deriving DecidableEq

namespace View

def revise (view : View) (turn : Nat) (change : Seen → Seen) : View :=
  { view with seen := view.seen.modify turn change }

def current? (view : View) : Option (List Delivery) :=
  if view.isRegistered then view.seen.getLast?.bind Seen.unread? else none

def step (capacity : Nat) (view : View) : Call → View
  | .register _ => ⟨true, view.seen ++ [.fresh]⟩
  | .unregister _ => { view with isRegistered := false }
  | .accept (.deliver _ delivery) =>
      match view.current? with
      | none => { view with isRegistered := false }
      | some pending =>
          if pending.length < capacity then
            view.revise (view.seen.length - 1) (·.enter delivery)
          else view
  | .accept (.disconnect _) => { view with isRegistered := false }
  | .receive _ turn => view.revise turn (·.take .first)
  | .drain _ turn => view.revise turn (·.take .all)
  | .close _ turn => view.revise turn Seen.close

end View

namespace Session

def view (session : Session) (client : ClientId) : View :=
  ⟨session.mailboxes.isRegistered client,
    (session.givenTo client).map session.seen⟩

variable {session next : Session} {client : ClientId} {id : MailboxId}
  {turn : Nat}

namespace Sound

/-! The calls of other clients change nothing for a client. -/

section Others

variable {other : ClientId}

end Others

/-! A client's own calls change what it sees. -/

end Sound

end Session

end MessageBroker.Mailboxes
