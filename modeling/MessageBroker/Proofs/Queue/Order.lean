import MessageBroker.Proofs.Queue.Contents

/-! The order in which messages leave a queue. Messages that have been handed
out and came back stand first. Behind them stand the others, in the order of
their tags. -/

namespace MessageBroker

/-- What came back stands before what was never handed out, and that lies in the
order of its tags, above everything handed out so far. -/
structure InTurn (handedOut : List Tag) (returned fresh : List Message) :
    Prop where
  known : ∀ message ∈ returned, message.tag ∈ handedOut
  above : ∀ message ∈ fresh, ∀ tag ∈ handedOut, tag < message.tag
  sorted : fresh.Pairwise fun first second => first.tag < second.tag

def LinedUp (handedOut : List Tag) (messages : List Message) : Prop :=
  ∃ returned fresh, messages = returned ++ fresh ∧
    InTurn handedOut returned fresh

namespace LinedUp

variable {handedOut : List Tag} {messages fewer : List Message}
  {message : Message}

theorem nil (handedOut : List Tag) : LinedUp handedOut [] :=
  ⟨[], [], rfl, by simp, by simp, .nil⟩

theorem sublist (h : LinedUp handedOut messages)
    (hsub : fewer.Sublist messages) : LinedUp handedOut fewer := by
  obtain ⟨returned, fresh, rfl, h⟩ := h
  obtain ⟨front, back, rfl, hfront, hback⟩ := List.sublist_append_iff.mp hsub
  refine ⟨front, back, rfl, ?_, ?_, h.sorted.sublist hback⟩
  · exact fun message hmem => h.known message (hfront.subset hmem)
  · exact fun message hmem => h.above message (hback.subset hmem)

theorem append (h : LinedUp handedOut messages)
    (hnew : ∀ tag ∈ handedOut, tag < message.tag)
    (hlast : ∀ other ∈ messages, other.tag < message.tag) :
    LinedUp handedOut (messages ++ [message]) := by
  obtain ⟨returned, fresh, rfl, h⟩ := h
  refine ⟨returned, fresh ++ [message], List.append_assoc _ _ _, h.known,
    ?_, ?_⟩
  · intro other hmem
    rcases List.mem_append.mp hmem with hold | hsame
    · exact h.above other hold
    · rw [List.mem_singleton.mp hsame]
      exact hnew
  · refine List.pairwise_append.mpr ⟨h.sorted, List.pairwise_singleton _ _, ?_⟩
    intro other hother last hsame
    rw [List.mem_singleton.mp hsame]
    exact hlast other (List.mem_append_right _ hother)

theorem cons (h : LinedUp handedOut messages)
    (hback : message.tag ∈ handedOut) :
    LinedUp handedOut (message :: messages) := by
  obtain ⟨returned, fresh, rfl, h⟩ := h
  refine ⟨message :: returned, fresh, rfl, ?_, h.above, h.sorted⟩
  exact List.forall_mem_cons.mpr ⟨hback, h.known⟩

theorem head (h : LinedUp handedOut (message :: messages)) :
    message.tag ∈ handedOut ∨ ∀ tag ∈ handedOut, tag < message.tag := by
  obtain ⟨returned, fresh, hsplit, h⟩ := h
  rcases List.cons_eq_append_iff.mp hsplit with
    ⟨rfl, rfl⟩ | ⟨rest, rfl, -⟩
  · exact .inr (h.above message List.mem_cons_self)
  · exact .inl (h.known message List.mem_cons_self)

theorem tail (h : LinedUp handedOut (message :: messages)) :
    LinedUp (handedOut ++ [message.tag]) messages := by
  obtain ⟨returned, fresh, hsplit, h⟩ := h
  have hmore : ∀ rest : List Message,
      (∀ other ∈ rest, other.tag ∈ handedOut) →
      ∀ other ∈ rest, other.tag ∈ handedOut ++ [message.tag] :=
    fun rest hrest other hmem => List.mem_append_left _ (hrest other hmem)
  rcases List.cons_eq_append_iff.mp hsplit with
    ⟨rfl, rfl⟩ | ⟨rest, rfl, rfl⟩
  · obtain ⟨hfirst, hsorted⟩ := List.pairwise_cons.mp h.sorted
    refine ⟨[], messages, rfl, by simp, ?_, hsorted⟩
    intro other hmem tag htag
    rcases List.mem_append.mp htag with hold | hsame
    · exact h.above other (List.mem_cons_of_mem _ hmem) tag hold
    · rw [List.mem_singleton.mp hsame]
      exact hfirst other hmem
  · obtain ⟨hback, hrest⟩ := List.forall_mem_cons.mp h.known
    refine ⟨rest, fresh, rfl, hmore rest hrest, ?_, h.sorted⟩
    intro other hmem tag htag
    rcases List.mem_append.mp htag with hold | hsame
    · exact h.above other hmem tag hold
    · rw [List.mem_singleton.mp hsame]
      exact h.above other hmem _ hback

theorem split (h : LinedUp handedOut messages) :
    ∃ returned fresh, messages = returned ++ fresh ∧
      (∀ message ∈ returned, message.tag ∈ handedOut) ∧
      (∀ message ∈ fresh, message.tag ∉ handedOut) := by
  obtain ⟨returned, fresh, hsplit, h⟩ := h
  refine ⟨returned, fresh, hsplit, h.known, fun message hmem hout => ?_⟩
  exact Nat.lt_irrefl _ (h.above message hmem message.tag hout)

end LinedUp

namespace Queue

/-- The messages of a queue after so many of its tags have been handed out. -/
structure InOrder (queue : Queue) (handedOut : List Tag) : Prop where
  stores : queue.Stores (fun _ => True) fun message => message.tag ∈ handedOut
  linedUp : LinedUp handedOut queue.messages

variable {queue next : Queue} {handedOut : List Tag} {message : Message}

theorem Buffers.messages_ensureRoom {row : List (Handle × Message)}
    (h : queue.Buffers row) :
    queue.ensureRoom.1.messages.Sublist queue.messages := by
  rw [h.messages_eq, h.ensureRoom.messages_eq]
  exact (List.drop_sublist _ _).map _

namespace InOrder

theorem ensureRoom (h : queue.InOrder handedOut) :
    queue.ensureRoom.1.InOrder handedOut := by
  obtain ⟨row, hrow⟩ := h.stores.row
  exact ⟨h.stores.ensureRoom, h.linedUp.sublist hrow.messages_ensureRoom⟩

theorem enterNewest (h : queue.InOrder handedOut)
    (hroom : queue.ensureRoom.2 = true)
    (hnew : ∀ tag ∈ handedOut, tag < message.tag)
    (hlast : ∀ other ∈ queue.messages, other.tag < message.tag) :
    (queue.ensureRoom.1.enterNewest message).InOrder handedOut := by
  obtain ⟨row, hrow⟩ := h.stores.row
  refine ⟨h.stores.enterNewest hroom trivial, ?_⟩
  have hentered := (hrow.ensureRoom.enterNewest message).messages_eq
  rw [List.map_append, ← hrow.ensureRoom.messages_eq] at hentered
  rw [hentered]
  exact h.ensureRoom.linedUp.append hnew fun other hother =>
    hlast other (hrow.messages_ensureRoom.subset hother)

theorem push (h : queue.InOrder handedOut) {clock : TagClock}
    {payload : Payload} {timeToLive : UInt32}
    (hnew : (queue.push clock payload timeToLive).result = .ok () →
      (∀ tag ∈ handedOut, tag < clock.nextTag) ∧
        ∀ other ∈ queue.messages, other.tag < clock.nextTag) :
    (queue.push clock payload timeToLive).state.1.InOrder handedOut := by
  rcases queue.push_cases clock payload timeToLive with
    ⟨-, hpush⟩ | ⟨-, -, hpush⟩ | ⟨-, -, hroom, hpush⟩ | ⟨-, -, -, hpush⟩ <;>
    rw [hpush] at hnew ⊢
  · exact h
  · refine ⟨h.stores.dispatched, ?_⟩
    have hmessages : queue.dispatched.messages = queue.messages := by
      unfold dispatched
      split <;> rfl
    exact hmessages ▸ h.linedUp
  · obtain ⟨habove, hlast⟩ := hnew rfl
    exact h.enterNewest hroom habove hlast
  · exact h.ensureRoom

theorem refill (h : queue.InOrder handedOut)
    (hnew : ∀ tag ∈ handedOut, tag < message.tag)
    (hlast : ∀ other ∈ queue.messages, other.tag < message.tag) :
    (queue.refill message).InOrder handedOut := by
  unfold Queue.refill
  split
  · exact h
  · dsimp only
    split
    · rename_i hroom
      exact h.enterNewest hroom hnew hlast
    · exact h.ensureRoom

theorem pop (h : queue.InOrder handedOut) (holdTime : UInt32)
    (now : Timestamp) :
    (queue.pop holdTime now).1.map Message.tag =
        queue.messages.head?.map Message.tag ∧
      (queue.pop holdTime now).2.InOrder
        (handedOut ++ ((queue.pop holdTime now).1.map Message.tag).toList) := by
  obtain ⟨row, hrow⟩ := h.stores.row
  have hmessages := hrow.messages_eq
  have hlinedUp := h.linedUp
  unfold Queue.pop
  cases row with
  | nil =>
      rw [hrow.takeOldest?_nil, hmessages]
      refine ⟨rfl, ?_⟩
      rw [Option.map_none, Option.toList_none, List.append_nil]
      exact h
  | cons entry rest =>
      obtain ⟨left, htake, hleft⟩ := hrow.takeOldest?_cons
      rw [List.map_cons] at hmessages
      rw [hmessages] at hlinedUp
      have hrest : left.InOrder (handedOut ++ [entry.2.tag]) := by
        refine ⟨hleft.stores ?_ (fun _ _ => trivial) ?_, ?_⟩
        · rw [(rebuffered_takeOldest htake).capacity_eq]
          exact Nat.le_of_succ_le (h.stores.bounds hrow)
        · unfold heldMessages
          rw [(rebuffered_takeOldest htake).held_eq]
          exact fun held hheld =>
            List.mem_append_left _ (h.stores.held held hheld)
        · rw [hleft.messages_eq]
          exact hlinedUp.tail
      have hout : entry.2.tag ∈ handedOut ++ [entry.2.tag] :=
        List.mem_append_right _ List.mem_cons_self
      rw [htake, hmessages]
      dsimp only
      split
      · exact ⟨rfl, hrest⟩
      · exact ⟨rfl, hrest.stores.hold _ hout, hrest.linedUp⟩

theorem confirm {tag : Tag} (h : queue.InOrder handedOut)
    (hconfirm : queue.confirm tag = .ok next) : next.InOrder handedOut := by
  refine ⟨h.stores.confirm hconfirm, ?_⟩
  unfold Queue.confirm at hconfirm
  split at hconfirm
  · cases hconfirm
  · cases hconfirm
    exact h.linedUp

theorem purge (h : queue.InOrder handedOut) :
    queue.purge.1.InOrder handedOut :=
  ⟨h.stores.purge, .nil handedOut⟩

theorem sweepExpired (h : queue.InOrder handedOut) (now : Timestamp) :
    (queue.sweepExpired now).1.InOrder handedOut := by
  obtain ⟨row, hrow⟩ := h.stores.row
  refine ⟨(h.stores.sweepExpired now).mono (fun _ _ => trivial)
    fun _ hout => hout, ?_⟩
  have hlinedUp := h.linedUp
  rw [hrow.messages_eq] at hlinedUp
  rw [(hrow.sweepExpired now).messages_eq]
  exact hlinedUp.sublist (List.filter_sublist.map _)

theorem endHold (h : queue.InOrder handedOut) (now : Timestamp)
    (stats : SweepStats) (hold : Timestamp × Tag) :
    (Queue.endHold now (queue, stats) hold).1.InOrder handedOut := by
  refine ⟨h.stores.endHold now (fun _ _ _ => trivial) stats hold, ?_⟩
  obtain ⟨deadline, tag⟩ := hold
  cases hheld : queue.held.get? tag with
  | none =>
      unfold Queue.endHold
      dsimp only
      rw [hheld]
      exact h.linedUp
  | some message =>
      have hroomy := h.ensureRoom.linedUp
      rcases endHold_cases deadline now hheld stats with
        ⟨-, hnext⟩ | ⟨-, -, hnext⟩ | ⟨-, -, hnext⟩ <;> rw [hnext]
      · exact h.linedUp
      · obtain ⟨row, hrow⟩ := h.stores.row
        have hleft := hrow.ensureRoom.forgetHold deadline tag
        have hentered :=
          (hleft.enterOldest { message with heldUntil := none }).messages_eq
        rw [List.map_cons, ← hrow.ensureRoom.messages_eq] at hentered
        rw [hentered]
        have hout : message.tag ∈ handedOut := h.stores.of_held hheld
        exact hroomy.cons hout
      · exact hroomy

theorem sweep (h : queue.InOrder handedOut) (now : Timestamp) :
    (queue.sweep now).1.InOrder handedOut := by
  refine List.foldlRecOn _ (Queue.endHold now)
    (motive := fun state : Queue × SweepStats => state.1.InOrder handedOut)
    (h.sweepExpired now) ?_
  rintro ⟨middle, stats⟩ hmiddle hold -
  exact hmiddle.endHold now stats hold

end InOrder

end Queue

end MessageBroker
