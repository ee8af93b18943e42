import MessageBroker.Proofs.Queue.Redelivery

/-! What the messages of a queue have in common, buffered and on hold, and that
the queue never buffers more of them than it may. -/

namespace MessageBroker.Queue

/-- A buffer within its limit, with a property of what is buffered and one of
what is on hold. -/
structure Stores (queue : Queue) (buffered held : Message → Prop) : Prop where
  row : ∃ row, queue.Buffers row
  bounded : queue.size ≤ queue.capacity
  buffered : ∀ message ∈ queue.messages, buffered message
  held : ∀ message ∈ queue.heldMessages, held message

variable {queue next : Queue} {row : List (Handle × Message)}
  {buffered held : Message → Prop} {message : Message}

theorem Buffers.stores (h : queue.Buffers row)
    (hbounded : row.length ≤ queue.capacity)
    (hbuffered : ∀ entry ∈ row, buffered entry.2)
    (hheld : ∀ message ∈ queue.heldMessages, held message) :
    queue.Stores buffered held where
  row := ⟨row, h⟩
  bounded := h.size_eq.symm ▸ hbounded
  buffered := by
    rw [h.messages_eq]
    exact List.forall_mem_map.mpr hbuffered
  held := hheld

theorem Buffers.length_kept_lt (h : queue.Buffers row)
    (hroom : queue.ensureRoom.2 = true) :
    (row.drop queue.excess).length < queue.capacity := by
  have hsize := h.size_eq
  rw [List.length_drop]
  unfold excess
  rcases h.hasRoom_iff.mp hroom with hfits | ⟨hforced, hpositive⟩
  · split <;> omega
  · rw [if_pos hforced]
    omega

theorem mem_heldMessages {message : Message} :
    message ∈ queue.heldMessages ↔
      ∃ tag, queue.held.get? tag = some message :=
  AssocList.mem_values

theorem Buffers.peek?_eq (h : queue.Buffers row) :
    queue.peek? = queue.messages.head? := by
  unfold peek?
  rw [h.represents.oldest?_eq, h.messages_eq, List.head?_map]

theorem Buffers.of_pop (h : queue.Buffers row) {holdTime : UInt32}
    {now : Timestamp} (htaken : (queue.pop holdTime now).1 = some message) :
    ∃ buffered ∈ queue.messages, ∃ heldUntil,
      message = { buffered with heldUntil := heldUntil } := by
  unfold Queue.pop at htaken
  rw [h.messages_eq]
  cases row with
  | nil =>
      rw [h.takeOldest?_nil] at htaken
      cases htaken
  | cons entry rest =>
      obtain ⟨left, htake, -⟩ := h.takeOldest?_cons
      rw [htake] at htaken
      dsimp only at htaken
      split at htaken
      · cases htaken
        exact ⟨entry.2, List.mem_cons_self, _, rfl⟩
      · cases htaken
        exact ⟨entry.2, List.mem_cons_self, _, rfl⟩

namespace Stores

theorem bounds (h : queue.Stores buffered held) (hrow : queue.Buffers row) :
    row.length ≤ queue.capacity :=
  hrow.size_eq ▸ h.bounded

theorem of_mem (h : queue.Stores buffered held) (hrow : queue.Buffers row) :
    ∀ entry ∈ row, buffered entry.2 := by
  have hbuffered := h.buffered
  rw [hrow.messages_eq] at hbuffered
  exact List.forall_mem_map.mp hbuffered

theorem of_held (h : queue.Stores buffered held) {tag : Tag}
    (hheld : queue.held.get? tag = some message) : held message :=
  h.held message (mem_heldMessages.mpr ⟨tag, hheld⟩)

theorem mono {buffered' held' : Message → Prop}
    (h : queue.Stores buffered held)
    (hbuffered : ∀ message, buffered message → buffered' message)
    (hheld : ∀ message, held message → held' message) :
    queue.Stores buffered' held' where
  row := h.row
  bounded := h.bounded
  buffered message hmem := hbuffered message (h.buffered message hmem)
  held message hmem := hheld message (h.held message hmem)

theorem ensureRoom (h : queue.Stores buffered held) :
    queue.ensureRoom.1.Stores buffered held := by
  obtain ⟨row, hrow⟩ := h.row
  have hroomy := rebuffered_ensureRoom queue
  refine hrow.ensureRoom.stores ?_ ?_ ?_
  · rw [hroomy.capacity_eq, List.length_drop]
    exact Nat.le_trans (Nat.sub_le _ _) (h.bounds hrow)
  · intro entry hentry
    exact h.of_mem hrow entry (List.mem_of_mem_drop hentry)
  · unfold heldMessages
    rw [hroomy.held_eq]
    exact h.held

theorem enterNewest (h : queue.Stores buffered held)
    (hroom : queue.ensureRoom.2 = true) (hmessage : buffered message) :
    (queue.ensureRoom.1.enterNewest message).Stores buffered held := by
  obtain ⟨row, hrow⟩ := h.row
  refine (hrow.ensureRoom.enterNewest message).stores ?_ ?_ h.ensureRoom.held
  · rw [List.length_append, List.length_singleton,
      (rebuffered_enterNewest _ _).capacity_eq,
      (rebuffered_ensureRoom queue).capacity_eq]
    exact hrow.length_kept_lt hroom
  · intro entry hentry
    rcases List.mem_append.mp hentry with hold | hnew
    · exact h.of_mem hrow entry (List.mem_of_mem_drop hold)
    · rw [List.mem_singleton.mp hnew]
      exact hmessage

theorem held_erase (h : queue.Stores buffered held) (tag : Tag) :
    ∀ message ∈ (queue.held.erase tag).values, held message := by
  intro message hmem
  obtain ⟨other, hheld⟩ := AssocList.mem_values.mp hmem
  rw [AssocList.get?_erase] at hheld
  split at hheld
  · cases hheld
  · exact h.of_held hheld

theorem forgetHold (h : queue.Stores buffered held) (deadline : Timestamp)
    (tag : Tag) : (queue.forgetHold deadline tag).Stores buffered held := by
  obtain ⟨row, hrow⟩ := h.row
  exact (hrow.forgetHold deadline tag).stores (h.bounds hrow) (h.of_mem hrow)
    (h.held_erase tag)

theorem enterOldest (h : queue.Stores buffered held)
    (hroom : queue.ensureRoom.2 = true) (hmessage : buffered message)
    (deadline : Timestamp) (tag : Tag) :
    ((queue.ensureRoom.1.forgetHold deadline tag).enterOldest message).Stores
      buffered held := by
  obtain ⟨row, hrow⟩ := h.row
  have hleft := h.ensureRoom.forgetHold deadline tag
  refine ((hrow.ensureRoom.forgetHold deadline tag).enterOldest message).stores
    ?_ ?_ hleft.held
  · rw [List.length_cons, (rebuffered_enterOldest _ _).capacity_eq]
    exact Nat.le_trans (hrow.length_kept_lt hroom)
      (Nat.le_of_eq (rebuffered_ensureRoom queue).capacity_eq.symm)
  · intro entry hentry
    rcases List.mem_cons.mp hentry with rfl | hold
    · exact hmessage
    · exact h.of_mem hrow entry (List.mem_of_mem_drop hold)

theorem dispatched (h : queue.Stores buffered held) :
    queue.dispatched.Stores buffered held := by
  obtain ⟨row, hrow⟩ := h.row
  unfold Queue.dispatched
  split
  · exact ⟨⟨row, hrow.represents, hrow.indexes⟩, h.bounded, h.buffered, h.held⟩
  · exact h

theorem push (h : queue.Stores buffered held) (clock : TagClock)
    (payload : Payload) (timeToLive : UInt32)
    (hstamped : queue.isTooLarge payload = false →
      buffered (.stamp clock payload timeToLive)) :
    (queue.push clock payload timeToLive).state.1.Stores buffered held := by
  rcases queue.push_cases clock payload timeToLive with
    ⟨-, hpush⟩ | ⟨-, -, hpush⟩ | ⟨hfits, -, hroom, hpush⟩ | ⟨-, -, -, hpush⟩ <;>
    rw [hpush]
  · exact h
  · exact h.dispatched
  · exact h.enterNewest hroom (hstamped hfits)
  · exact h.ensureRoom

theorem refill (h : queue.Stores buffered held)
    (hmessage : queue.isTooLarge message.payload = false → buffered message) :
    (queue.refill message).Stores buffered held := by
  unfold Queue.refill
  split
  · exact h
  · rename_i hfits
    dsimp only
    split
    · rename_i hroom
      exact h.enterNewest hroom (hmessage (eq_false_of_ne_true hfits))
    · exact h.ensureRoom

theorem hold (h : queue.Stores buffered held) (deadline : Timestamp)
    (hmessage : held { message with heldUntil := deadline }) :
    (queue.hold message deadline).Stores buffered held := by
  obtain ⟨row, hrow⟩ := h.row
  have hnext : (queue.hold message deadline).Buffers row :=
    ⟨hrow.represents, hrow.indexes⟩
  refine hnext.stores (h.bounds hrow) (h.of_mem hrow) ?_
  intro other hmem
  obtain ⟨tag, hheld⟩ := mem_heldMessages.mp hmem
  rw [show (queue.hold message deadline).held = queue.held.insert message.tag
    { message with heldUntil := deadline } from rfl,
    AssocList.get?_insert] at hheld
  split at hheld
  · cases hheld
    exact hmessage
  · exact h.of_held hheld

theorem pop (h : queue.Stores buffered held) (holdTime : UInt32)
    (now : Timestamp)
    (htaken : ∀ message deadline, buffered message →
      held { message with heldUntil := some deadline }) :
    (queue.pop holdTime now).2.Stores buffered held := by
  obtain ⟨row, hrow⟩ := h.row
  have hbounds := h.bounds hrow
  have hmem := h.of_mem hrow
  unfold Queue.pop
  cases row with
  | nil =>
      rw [hrow.takeOldest?_nil]
      exact h
  | cons entry rest =>
      obtain ⟨left, htake, hleft⟩ := hrow.takeOldest?_cons
      have hrest : left.Stores buffered held := by
        refine hleft.stores ?_ ?_ ?_
        · rw [(rebuffered_takeOldest htake).capacity_eq]
          exact Nat.le_of_succ_le hbounds
        · exact fun other hother => hmem other (List.mem_cons_of_mem _ hother)
        · unfold heldMessages
          rw [(rebuffered_takeOldest htake).held_eq]
          exact h.held
      rw [htake]
      dsimp only
      split
      · exact hrest
      · exact hrest.hold _ (htaken _ _ (hmem entry List.mem_cons_self))

theorem confirm {tag : Tag} (h : queue.Stores buffered held)
    (hconfirm : queue.confirm tag = .ok next) :
    next.Stores buffered held := by
  unfold Queue.confirm at hconfirm
  split at hconfirm
  · cases hconfirm
  · cases hconfirm
    obtain ⟨row, hrow⟩ := h.row
    exact ⟨⟨row, hrow.represents, hrow.indexes⟩, h.bounded, h.buffered,
      h.held_erase tag⟩

theorem purge (h : queue.Stores buffered held) :
    queue.purge.1.Stores buffered held :=
  (buffers_purge queue).stores (Nat.zero_le _) (by simp) h.held

theorem sweepExpired (h : queue.Stores buffered held) (now : Timestamp) :
    (queue.sweepExpired now).1.Stores
      (fun message => buffered message ∧ message.isExpired now = false)
      held := by
  obtain ⟨row, hrow⟩ := h.row
  refine (hrow.sweepExpired now).stores ?_ ?_ h.held
  · exact Nat.le_trans (List.length_filter_le _ _) (h.bounds hrow)
  · intro entry hentry
    obtain ⟨hmem, hfresh⟩ := List.mem_filter.mp hentry
    exact ⟨h.of_mem hrow entry hmem, by simpa using hfresh⟩

theorem endHold (h : queue.Stores buffered held) (now : Timestamp)
    (hback : ∀ message, held message → message.isExpired now = false →
      buffered { message with heldUntil := none })
    (stats : SweepStats) (hold : Timestamp × Tag) :
    (Queue.endHold now (queue, stats) hold).1.Stores buffered held := by
  obtain ⟨deadline, tag⟩ := hold
  cases hheld : queue.held.get? tag with
  | none =>
      obtain ⟨row, hrow⟩ := h.row
      unfold Queue.endHold
      dsimp only
      rw [hheld]
      exact ⟨⟨row, hrow.represents, hrow.indexes⟩, h.bounded, h.buffered,
        h.held⟩
  | some message =>
      rcases endHold_cases deadline now hheld stats with
        ⟨-, hnext⟩ | ⟨hfresh, hroom, hnext⟩ | ⟨-, -, hnext⟩ <;> rw [hnext]
      · exact h.forgetHold deadline tag
      · exact h.enterOldest hroom (hback message (h.of_held hheld) hfresh) _ _
      · exact h.ensureRoom

theorem endHolds (h : queue.Stores buffered held) (now : Timestamp)
    (hback : ∀ message, held message → message.isExpired now = false →
      buffered { message with heldUntil := none })
    (stats : SweepStats) (due : List (Timestamp × Tag)) :
    (due.foldl (Queue.endHold now) (queue, stats)).1.Stores buffered held := by
  induction due generalizing queue stats with
  | nil => exact h
  | cons hold rest ih =>
      exact ih (h.endHold now hback stats hold)
        (Queue.endHold now (queue, stats) hold).2

theorem sweep (h : queue.Stores buffered held) (now : Timestamp)
    (hback : ∀ message, held message → message.isExpired now = false →
      buffered { message with heldUntil := none }) :
    (queue.sweep now).1.Stores
      (fun message => buffered message ∧ message.isExpired now = false)
      held :=
  (h.sweepExpired now).endHolds now
    (fun message hheld hfresh => ⟨hback message hheld hfresh, hfresh⟩) .zero _

end Stores

end MessageBroker.Queue
