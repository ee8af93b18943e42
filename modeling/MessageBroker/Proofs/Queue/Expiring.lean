import MessageBroker.Proofs.Queue.Coherence

/-! A sweep for expired messages is a filter on the buffer. It reads only the
index of messages that can expire, and every handle it finds there is that of a
message that goes. -/

namespace MessageBroker.Queue

variable {queue : Queue} {row : List (Handle × Message)}

/-- What a sweep for expired messages does to a queue. -/
structure ExpiresExactly (queue : Queue) (now : Timestamp) : Prop where
  kept : (queue.sweepExpired now).1.messages =
    queue.messages.filter fun message =>
      message.expiresAt.all fun deadline => now < deadline
  counted : (queue.sweepExpired now).2 +
    (queue.sweepExpired now).1.messages.length = queue.messages.length
  /-- Every round of the sweep takes a message out. -/
  rounds : (queue.expiring.due now).length = (queue.sweepExpired now).2
  others : Rebuffered queue (queue.sweepExpired now).1

theorem not_isExpired_eq (message : Message) (now : Timestamp) :
    (!message.isExpired now) =
      message.expiresAt.all fun deadline => now < deadline := by
  unfold Message.isExpired
  cases message.expiresAt with
  | none => rfl
  | some deadline =>
      simp only [Option.any_some, Option.all_some, ← decide_not,
        Timestamp.lt_iff, Timestamp.le_iff, Nat.not_le]

theorem count_removeHandles {buffer : Sequence Message}
    (h : buffer.Represents row) (handles : List Handle) :
    (removeHandles buffer handles).2 +
      (removeHandles buffer handles).1.size = buffer.size := by
  induction handles generalizing buffer row with
  | nil => exact Nat.zero_add _
  | cons handle rest ih =>
      unfold removeHandles
      by_cases hmem : handle ∈ row.map Prod.fst
      · obtain ⟨⟨handle, message⟩, hentry, rfl⟩ := List.mem_map.mp hmem
        obtain ⟨front, back, rfl⟩ := List.append_of_mem hentry
        obtain ⟨remaining, hremove, hremaining⟩ := h.remove
        have hcount := ih hremaining
        have hbefore := h.size
        have hafter := hremaining.size
        rw [List.length_append, List.length_cons] at hbefore
        rw [List.length_append] at hafter
        rw [hremove]
        dsimp only
        omega
      · rw [h.remove?_eq_none hmem]
        exact ih h

namespace Buffers

theorem nodup_dueHandles (h : queue.Buffers row) (now : Timestamp) :
    ((queue.expiring.due now).map Prod.snd).Nodup := by
  refine (queue.expiring.nodup_due now).map_on ?_
  rintro ⟨first, handle⟩ hfirst ⟨second, _⟩ hsecond rfl
  obtain ⟨message, hmem, hdeadline⟩ :=
    (h.indexes _ _).mp (DeadlineIndex.mem_due.mp hfirst).1
  obtain ⟨other, hother, hagain⟩ :=
    (h.indexes _ _).mp (DeadlineIndex.mem_due.mp hsecond).1
  obtain rfl := h.represents.value_unique hmem hother
  rw [Option.some.inj (hdeadline.symm.trans hagain)]

/-- What is due in the index are the handles of the messages that have expired,
each once. -/
theorem perm_dueHandles (h : queue.Buffers row) (now : Timestamp) :
    ((queue.expiring.due now).map Prod.snd).Perm
      ((row.filter fun entry => entry.2.isExpired now).map Prod.fst) := by
  have hexpired : ((row.filter fun entry =>
      entry.2.isExpired now).map Prod.fst).Nodup :=
    h.represents.nodup.sublist (List.filter_sublist.map _)
  refine (List.perm_ext_iff_of_nodup (h.nodup_dueHandles now) hexpired).mpr
    fun handle => ?_
  constructor
  · intro hdue
    obtain ⟨⟨deadline, handle⟩, hfirst, rfl⟩ := List.mem_map.mp hdue
    obtain ⟨message, hmem, -⟩ :=
      (h.indexes _ _).mp (DeadlineIndex.mem_due.mp hfirst).1
    exact List.mem_map.mpr
      ⟨_, List.mem_filter.mpr ⟨hmem, (h.mem_due_iff hmem now).mp hdue⟩, rfl⟩
  · intro hgoes
    obtain ⟨⟨handle, message⟩, hentry, rfl⟩ := List.mem_map.mp hgoes
    obtain ⟨hmem, hpassed⟩ := List.mem_filter.mp hentry
    exact (h.mem_due_iff hmem now).mpr hpassed

theorem expiresExactly (h : queue.Buffers row) (now : Timestamp) :
    queue.ExpiresExactly now := by
  have hswept := h.sweepExpired now
  have hcounted : (queue.sweepExpired now).2 +
      (queue.sweepExpired now).1.messages.length = queue.messages.length := by
    rw [hswept.length_messages, h.length_messages]
    exact count_removeHandles h.represents _
  refine {
    kept := ?kept
    counted := hcounted
    rounds := ?rounds
    others := rebuffered_sweepExpired queue now
  }
  case kept =>
    rw [hswept.messages_eq, h.messages_eq, List.filter_map]
    exact congrArg (List.map Prod.snd)
      (List.filter_congr fun entry _ => not_isExpired_eq entry.2 now)
  case rounds =>
    have hdue := (h.perm_dueHandles now).length_eq
    rw [List.length_map, List.length_map] at hdue
    have hall := List.length_eq_length_filter_add
      (l := row) fun entry => entry.2.isExpired now
    rw [hswept.messages_eq, h.messages_eq, List.length_map,
      List.length_map] at hcounted
    omega

end Buffers

/-- However its slots are chosen and were used before, a queue releases exactly the messages
that have expired, and keeps the others in their order. -/
theorem sweepExpired_exact (id : QueueId) (name : String)
    (settings : QueueSettings) (slots : SlotPolicy)
    (operations : List Operation) (now : Timestamp) :
    ((create id name settings slots).applyAll operations).ExpiresExactly
      now := by
  obtain ⟨row, hrow⟩ :=
    (buffers_create id name settings slots).applyAll operations
  exact hrow.expiresExactly now

end MessageBroker.Queue
