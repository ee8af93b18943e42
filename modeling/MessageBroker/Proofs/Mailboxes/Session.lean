import MessageBroker.Proofs.Mailboxes.Unread

/-! Mailboxes in the hands of the clients they were given to. Every call
concerns one client, and changes what is in one of that client's mailboxes at
most. -/

namespace MessageBroker.Mailboxes

/-- What is asked of mailboxes. A client calls its mailboxes by turn, the first
that it was given being number zero. -/
inductive Call where
  | register (client : ClientId)
  | unregister (client : ClientId)
  | accept (signal : Signal)
  | receive (client : ClientId) (turn : Nat)
  | drain (client : ClientId) (turn : Nat)
  | close (client : ClientId) (turn : Nat)

def Call.client : Call → ClientId
  | register client => client
  | unregister client => client
  | accept (.deliver client _) => client
  | accept (.disconnect client) => client
  | receive client _ => client
  | drain client _ => client
  | close client _ => client

structure Session where
  mailboxes : Mailboxes
  /-- The mailboxes that were given out, each with its client. -/
  given : List (ClientId × MailboxId)
  /-- What has been received, each with the mailbox that it came from. -/
  readings : List (MailboxId × Delivery)

/-- How what is pending is divided into what is received and what is left. -/
structure Division where
  received : List Delivery → List Delivery
  left : List Delivery → List Delivery
  whole : ∀ pending, received pending ++ left pending = pending

namespace Division

def first : Division where
  received := List.take 1
  left := List.tail
  whole pending := by cases pending <;> rfl

def all : Division where
  received pending := pending
  left _ := []
  whole := List.append_nil

theorem length_left_le (division : Division) (pending : List Delivery) :
    (division.left pending).length ≤ pending.length := by
  have hlength := congrArg List.length (division.whole pending)
  rw [List.length_append] at hlength
  omega

end Division

/-- What has been received from a mailbox, and what still can be. -/
structure Seen where
  read : List Delivery
  unread? : Option (List Delivery)
  deriving DecidableEq

namespace Seen

def fresh : Seen := ⟨[], some []⟩

def enter (seen : Seen) (delivery : Delivery) : Seen :=
  { seen with unread? := seen.unread?.map (· ++ [delivery]) }

def take (seen : Seen) (division : Division) : Seen :=
  match seen.unread? with
  | none => seen
  | some pending =>
      ⟨seen.read ++ division.received pending, some (division.left pending)⟩

def close (seen : Seen) : Seen :=
  { seen with unread? := none }

end Seen

namespace Session

def start (capacity : Nat) : Session := ⟨create capacity, [], []⟩

def givenTo (session : Session) (client : ClientId) : List MailboxId :=
  (session.given.filter fun entry => entry.1 = client).map Prod.snd

def readFrom (session : Session) (id : MailboxId) : List Delivery :=
  (session.readings.filter fun entry => entry.1 = id).map Prod.snd

def seen (session : Session) (id : MailboxId) : Seen :=
  ⟨session.readFrom id, session.mailboxes.unread? id⟩

def receiver? (session : Session) (client : ClientId) (turn : Nat) :
    Option MailboxId :=
  (session.givenTo client)[turn]?.filter fun id =>
    (session.mailboxes.unread? id).isSome

def step (session : Session) : Call → Session
  | .register client =>
      let (mailboxes, id) := session.mailboxes.register client
      { session with
        mailboxes := mailboxes
        given := session.given ++ [(client, id)] }
  | .unregister client =>
      { session with mailboxes := session.mailboxes.unregister client }
  | .accept signal =>
      { session with mailboxes := session.mailboxes.accept signal }
  | .receive client turn =>
      match session.receiver? client turn with
      | none => session
      | some id =>
          let (received, mailboxes) := session.mailboxes.receive id
          { session with
            mailboxes := mailboxes
            readings := session.readings ++
              received.deliveries.map fun delivery => (id, delivery) }
  | .drain client turn =>
      match session.receiver? client turn with
      | none => session
      | some id =>
          let (deliveries, mailboxes) := session.mailboxes.drain id
          { session with
            mailboxes := mailboxes
            readings := session.readings ++
              deliveries.map fun delivery => (id, delivery) }
  | .close client turn =>
      match session.receiver? client turn with
      | none => session
      | some id => { session with mailboxes := session.mailboxes.close id }

def run (session : Session) (calls : List Call) : Session :=
  calls.foldl step session

/-- Every mailbox was given to one client, once, and the one that a client is
registered with is the last it was given. -/
structure Sound (session : Session) : Prop where
  mailboxes : session.mailboxes.Sound
  nodup : (session.given.map Prod.snd).Nodup
  issued : ∀ entry ∈ session.given,
    entry.2.number ≤ session.mailboxes.lastNumber
  read : ∀ entry ∈ session.readings,
    entry.1.number ≤ session.mailboxes.lastNumber
  last : ∀ client id, session.mailboxes.registered.get? client = some id →
    (session.givenTo client).getLast? = some id

variable {session : Session} {client : ClientId} {id : MailboxId} {turn : Nat}

theorem mem_givenTo :
    id ∈ session.givenTo client ↔ (client, id) ∈ session.given := by
  unfold givenTo
  simp

theorem givenTo_register (session : Session) (client other : ClientId) :
    (session.step (.register client)).givenTo other =
      session.givenTo other ++
        if client = other then [session.mailboxes.nextId] else [] := by
  unfold givenTo step
  simp only [List.filter_append, List.map_append]
  congr 1
  by_cases hclient : client = other
  · simp [hclient, register, nextId]
  · simp [hclient]

def take (session : Session) (client : ClientId) (turn : Nat)
    (division : Division) : Session :=
  match session.receiver? client turn with
  | none => session
  | some id => {
      session with
      mailboxes := session.mailboxes.revise id division.left
      readings := session.readings ++
        (division.received (session.mailboxes.pendingIn id)).map
          fun delivery => (id, delivery)
    }

theorem step_receive (session : Session) (client : ClientId) (turn : Nat) :
    session.step (.receive client turn) = session.take client turn .first := by
  unfold take
  cases hreceiver : session.receiver? client turn with
  | none => simp only [step, hreceiver]
  | some id =>
      simp only [step, hreceiver, receive_eq]
      rfl

theorem step_drain (session : Session) (client : ClientId) (turn : Nat) :
    session.step (.drain client turn) = session.take client turn .all := by
  unfold take
  cases hreceiver : session.receiver? client turn with
  | none => simp only [step, hreceiver]
  | some id =>
      simp only [step, hreceiver, drain_eq]
      rfl

namespace Sound

end Sound

theorem receiver?_eq_some_iff :
    session.receiver? client turn = some id ↔
      (session.givenTo client)[turn]? = some id ∧
        ∃ pending, session.mailboxes.unread? id = some pending := by
  unfold receiver?
  rw [Option.filter_eq_some_iff, Option.isSome_iff_exists]

namespace Sound

theorem keep (h : session.Sound) {next : Session}
    (hmailboxes : next.mailboxes.Sound) (hgiven : next.given = session.given)
    (hlast : next.mailboxes.lastNumber = session.mailboxes.lastNumber)
    (hread : ∀ entry ∈ next.readings,
      entry.1.number ≤ session.mailboxes.lastNumber)
    (hregistered : ∀ client id,
      next.mailboxes.registered.get? client = some id →
        session.mailboxes.registered.get? client = some id) : next.Sound := by
  refine ⟨hmailboxes, ?_, ?_, ?_, ?_⟩
  · rw [hgiven]
    exact h.nodup
  · rw [hgiven, hlast]
    exact h.issued
  · rw [hlast]
    exact hread
  · intro client id hnext
    unfold givenTo
    rw [hgiven]
    exact h.last client id (hregistered client id hnext)

theorem take (h : session.Sound) (client : ClientId) (turn : Nat)
    (division : Division) : (session.take client turn division).Sound := by
  unfold Session.take
  cases hreceiver : session.receiver? client turn with
  | none => exact h
  | some id =>
      obtain ⟨hturn, -⟩ := receiver?_eq_some_iff.mp hreceiver
      have hgiven := mem_givenTo.mp (List.mem_of_getElem? hturn)
      have hrevised : (session.mailboxes.revise id division.left).Sound := by
        refine h.mailboxes.revise fun box hbox => ?_
        exact Nat.le_trans (division.length_left_le _)
          (h.mailboxes.bounded id box hbox)
      refine h.keep hrevised rfl rfl ?_ fun _ _ hsame => hsame
      intro entry hentry
      rcases List.mem_append.mp hentry with hold | hnew
      · exact h.read entry hold
      · obtain ⟨delivery, -, rfl⟩ := List.mem_map.mp hnew
        exact h.issued _ hgiven

theorem register (h : session.Sound) (client : ClientId) :
    (session.step (.register client)).Sound := by
  have hbelow : ∀ {number : Nat}, number ≤ session.mailboxes.lastNumber →
      number ≤ session.mailboxes.lastNumber + 1 := Nat.le_succ_of_le
  refine ⟨h.mailboxes.register client, ?nodup, ?issued, ?read, ?last⟩
  case nodup =>
    change ((session.given ++
      [(client, session.mailboxes.nextId)]).map Prod.snd).Nodup
    rw [List.map_append, List.nodup_append]
    refine ⟨h.nodup, by simp, ?_⟩
    rintro id hold new hnew rfl
    obtain ⟨entry, hentry, rfl⟩ := List.mem_map.mp hold
    have hnext : entry.2 = session.mailboxes.nextId := by simpa using hnew
    have hissued := h.issued entry hentry
    rw [hnext] at hissued
    exact Nat.not_succ_le_self _ hissued
  case issued =>
    intro entry hentry
    rcases List.mem_append.mp hentry with hold | hnew
    · exact hbelow (h.issued entry hold)
    · rw [List.mem_singleton.mp hnew]
      exact Nat.le_refl _
  case read => exact fun entry hentry => hbelow (h.read entry hentry)
  case last =>
    intro other id hregistered
    change (session.mailboxes.register client).1.registered.get? other =
      some id at hregistered
    rw [get?_registered_register] at hregistered
    rw [givenTo_register]
    by_cases hother : other = client
    · rw [if_pos hother] at hregistered
      rw [if_pos hother.symm, ← hregistered]
      exact List.getLast?_concat
    · rw [if_neg hother] at hregistered
      rw [if_neg (Ne.symm hother), List.append_nil]
      exact h.last other id hregistered

theorem unregister (h : session.Sound) (client : ClientId) :
    (session.step (.unregister client)).Sound := by
  refine h.keep (h.mailboxes.unregister client) rfl
    (lastNumber_unregister _ _) h.read fun other id hregistered => ?_
  change (session.mailboxes.unregister client).registered.get? other =
    some id at hregistered
  rw [get?_registered_unregister] at hregistered
  split at hregistered
  · cases hregistered
  · exact hregistered

theorem deliver (h : session.Sound) (client : ClientId) (delivery : Delivery) :
    (session.step (.accept (.deliver client delivery))).Sound := by
  refine h.keep (h.mailboxes.deliver client delivery) rfl
    (h.mailboxes.lastNumber_deliver client delivery) h.read
    fun other id hregistered => ?_
  change (session.mailboxes.deliver client delivery).registered.get? other =
    some id at hregistered
  rw [h.mailboxes.get?_registered_deliver] at hregistered
  split at hregistered
  · cases hregistered
  · exact hregistered

theorem step (h : session.Sound) (call : Call) : (session.step call).Sound := by
  cases call with
  | register client => exact h.register client
  | unregister client => exact h.unregister client
  | accept signal =>
      cases signal with
      | deliver client delivery => exact h.deliver client delivery
      | disconnect client => exact h.unregister client
  | receive client turn =>
      rw [step_receive]
      exact h.take client turn .first
  | drain client turn =>
      rw [step_drain]
      exact h.take client turn .all
  | close client turn =>
      cases hreceiver : session.receiver? client turn with
      | none =>
          simp only [Session.step, hreceiver]
          exact h
      | some id =>
          simp only [Session.step, hreceiver]
          have halike := alike_close session.mailboxes id
          refine h.keep (h.mailboxes.close id) rfl halike.lastNumber h.read
            fun other mailbox hregistered => ?_
          rwa [halike.registered] at hregistered

theorem run (h : session.Sound) (calls : List Call) :
    (session.run calls).Sound := by
  unfold Session.run
  induction calls generalizing session with
  | nil => exact h
  | cons call rest ih => exact ih (h.step call)

end Sound

end Session

end MessageBroker.Mailboxes
