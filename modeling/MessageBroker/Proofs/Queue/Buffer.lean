import MessageBroker.Proofs.Collection.DeadlineIndex
import MessageBroker.Proofs.Collection.Sequence
import MessageBroker.Queue.Sweep

/-! The buffer of a queue as a row of messages, with the index of those that can
expire, through everything that moves messages into it or out of it. -/

namespace MessageBroker

theorem Message.isExpired_iff {message : Message} {now : Timestamp} :
    message.isExpired now = true ↔
      ∃ deadline, message.expiresAt = some deadline ∧ deadline ≤ now := by
  unfold isExpired
  cases message.expiresAt <;> simp

namespace Queue

/-- The same queue, but for its buffer and the index over it. -/
def Rebuffered (before after : Queue) : Prop :=
  ∃ buffer expiring, after = {
    before with
    buffer := buffer
    expiring := expiring
  }

namespace Rebuffered

variable {first middle last : Queue}

theorem refl (queue : Queue) : Rebuffered queue queue := ⟨_, _, rfl⟩

theorem trans (hfirst : Rebuffered first middle)
    (hsecond : Rebuffered middle last) : Rebuffered first last := by
  obtain ⟨_, _, rfl⟩ := hfirst
  obtain ⟨_, _, rfl⟩ := hsecond
  exact ⟨_, _, rfl⟩

theorem settings_eq (h : Rebuffered first last) :
    last.settings = first.settings := by
  obtain ⟨_, _, rfl⟩ := h
  rfl

theorem capacity_eq (h : Rebuffered first last) :
    last.capacity = first.capacity := by
  obtain ⟨_, _, rfl⟩ := h
  rfl

theorem held_eq (h : Rebuffered first last) : last.held = first.held := by
  obtain ⟨_, _, rfl⟩ := h
  rfl

theorem holdDeadlines_eq (h : Rebuffered first last) :
    last.holdDeadlines = first.holdDeadlines := by
  obtain ⟨_, _, rfl⟩ := h
  rfl

end Rebuffered

/-- The index has exactly the messages of a row that can expire, under their
handles. -/
def Indexes (index : DeadlineIndex Handle) (row : List (Handle × Message)) :
    Prop :=
  ∀ deadline handle,
    (deadline, handle) ∈ index.entries ↔
      ∃ message, (handle, message) ∈ row ∧ message.expiresAt = some deadline

theorem Indexes.enter {index : DeadlineIndex Handle}
    {row after : List (Handle × Message)} {handle : Handle} {message : Message}
    (h : Indexes index row)
    (hrow : ∀ entry, entry ∈ after ↔ entry = (handle, message) ∨ entry ∈ row) :
    Indexes (match message.expiresAt with
      | some deadline => index.insert deadline handle
      | none => index) after := by
  intro deadline other
  cases hexpires : message.expiresAt with
  | none =>
      dsimp only
      rw [h]
      constructor
      · rintro ⟨found, hmem, hdeadline⟩
        exact ⟨found, (hrow _).mpr (.inr hmem), hdeadline⟩
      · rintro ⟨found, hmem, hdeadline⟩
        rcases (hrow _).mp hmem with heq | hold
        · cases heq
          rw [hexpires] at hdeadline
          cases hdeadline
        · exact ⟨found, hold, hdeadline⟩
  | some expiry =>
      rw [DeadlineIndex.mem_insert, h]
      constructor
      · rintro (heq | ⟨found, hmem, hdeadline⟩)
        · cases heq
          exact ⟨message, (hrow _).mpr (.inl rfl), hexpires⟩
        · exact ⟨found, (hrow _).mpr (.inr hmem), hdeadline⟩
      · rintro ⟨found, hmem, hdeadline⟩
        rcases (hrow _).mp hmem with heq | hold
        · cases heq
          rw [hexpires] at hdeadline
          cases hdeadline
          exact .inl rfl
        · exact .inr ⟨found, hold, hdeadline⟩

theorem Indexes.leave {index : DeadlineIndex Handle}
    {rest : List (Handle × Message)} {handle : Handle} {message : Message}
    (h : Indexes index ((handle, message) :: rest))
    (hgone : handle ∉ rest.map Prod.fst) :
    Indexes (match message.expiresAt with
      | some deadline => index.erase deadline handle
      | none => index) rest := by
  intro deadline other
  have hstays : (∃ found, (other, found) ∈ rest ∧
      found.expiresAt = some deadline) → other ≠ handle := by
    rintro ⟨found, hmem, -⟩ rfl
    exact hgone (List.mem_map.mpr ⟨_, hmem, rfl⟩)
  cases hexpires : message.expiresAt with
  | none =>
      dsimp only
      rw [h]
      constructor
      · rintro ⟨found, hmem, hdeadline⟩
        rcases List.mem_cons.mp hmem with heq | hold
        · cases heq
          rw [hexpires] at hdeadline
          cases hdeadline
        · exact ⟨found, hold, hdeadline⟩
      · rintro ⟨found, hmem, hdeadline⟩
        exact ⟨found, List.mem_cons_of_mem _ hmem, hdeadline⟩
  | some expiry =>
      rw [DeadlineIndex.mem_erase, h]
      constructor
      · rintro ⟨⟨found, hmem, hdeadline⟩, hne⟩
        rcases List.mem_cons.mp hmem with heq | hold
        · cases heq
          rw [hexpires] at hdeadline
          cases hdeadline
          exact absurd rfl hne
        · exact ⟨found, hold, hdeadline⟩
      · intro hfound
        refine ⟨?_, fun heq => hstays hfound (congrArg Prod.snd heq)⟩
        obtain ⟨found, hmem, hdeadline⟩ := hfound
        exact ⟨found, List.mem_cons_of_mem _ hmem, hdeadline⟩

/-- The queue buffers this row, the oldest message first. -/
structure Buffers (queue : Queue) (row : List (Handle × Message)) : Prop where
  represents : queue.buffer.Represents row
  indexes : Indexes queue.expiring row

theorem buffers_create (id : QueueId) (name : String)
    (settings : QueueSettings) (slots : SlotPolicy) :
    (create id name settings slots).Buffers [] where
  represents := Sequence.represents_empty slots
  indexes deadline handle := by simp [create, DeadlineIndex.empty]

theorem buffers_purge (queue : Queue) : queue.purge.1.Buffers [] where
  represents := queue.buffer.represents_clear
  indexes deadline handle := by simp [purge, DeadlineIndex.empty]

/-- How many messages have to go for one more to fit, where the queue lets
them go. -/
def excess (queue : Queue) : Nat :=
  if queue.settings.flags.forcePush then queue.size + 1 - queue.capacity else 0

theorem isFull_iff {queue : Queue} :
    queue.isFull = true ↔ queue.capacity ≤ queue.size := by
  unfold isFull
  exact decide_eq_true_iff

theorem rebuffered_enterNewest (queue : Queue) (message : Message) :
    Rebuffered queue (queue.enterNewest message) :=
  ⟨_, _, rfl⟩

theorem rebuffered_enterOldest (queue : Queue) (message : Message) :
    Rebuffered queue (queue.enterOldest message) :=
  ⟨_, _, rfl⟩

theorem rebuffered_takeOldest {queue rest : Queue} {message : Message}
    (htake : queue.takeOldest? = some (message, rest)) :
    Rebuffered queue rest := by
  obtain ⟨popped, -, htaken⟩ := Option.map_eq_some_iff.mp htake
  cases htaken
  exact ⟨_, _, rfl⟩

theorem rebuffered_evictOldest (most : Nat) (queue : Queue) :
    Rebuffered queue (evictOldest most queue).1 := by
  induction most generalizing queue with
  | zero => exact .refl queue
  | succ most ih =>
      unfold evictOldest
      split
      · split
        · rename_i message rest htake
          exact (rebuffered_takeOldest htake).trans (ih rest)
        · exact .refl queue
      · exact .refl queue

theorem rebuffered_ensureRoom (queue : Queue) :
    Rebuffered queue queue.ensureRoom.1 := by
  unfold ensureRoom
  split
  · split
    · exact rebuffered_evictOldest _ _
    · exact .refl queue
  · exact .refl queue

theorem rebuffered_sweepExpired (queue : Queue) (now : Timestamp) :
    Rebuffered queue (queue.sweepExpired now).1 :=
  ⟨_, _, rfl⟩

theorem rebuffered_purge (queue : Queue) : Rebuffered queue queue.purge.1 :=
  ⟨_, _, rfl⟩

theorem filter_not_mem_cons {row : List (Handle × Message)} {handle : Handle}
    (habsent : handle ∉ row.map Prod.fst) (rest : List Handle) :
    (row.filter fun entry => entry.1 ∉ handle :: rest) =
      row.filter fun entry => entry.1 ∉ rest := by
  refine List.filter_congr fun entry hentry => ?_
  have hne : entry.1 ≠ handle := by
    rintro rfl
    exact habsent (List.mem_map_of_mem hentry)
  simp [hne]

theorem represents_removeHandles {buffer : Sequence Message}
    {row : List (Handle × Message)} (h : buffer.Represents row)
    (handles : List Handle) :
    (removeHandles buffer handles).1.Represents
      (row.filter fun entry => entry.1 ∉ handles) := by
  induction handles generalizing buffer row with
  | nil =>
      rw [List.filter_eq_self.mpr (by simp)]
      exact h
  | cons handle rest ih =>
      unfold removeHandles
      by_cases hmem : handle ∈ row.map Prod.fst
      · obtain ⟨⟨handle, message⟩, hentry, rfl⟩ := List.mem_map.mp hmem
        obtain ⟨front, back, rfl⟩ := List.append_of_mem hentry
        obtain ⟨remaining, hremove, hremaining⟩ := h.remove
        have hkept := filter_not_mem_cons h.parted.1 rest
        have hskip : ((front ++ (handle, message) :: back).filter fun entry =>
              entry.1 ∉ handle :: rest) =
            (front ++ back).filter fun entry => entry.1 ∉ handle :: rest := by
          simp
        rw [hremove, hskip, hkept]
        exact ih hremaining
      · rw [h.remove?_eq_none hmem, filter_not_mem_cons hmem]
        exact ih h

namespace Buffers

variable {queue : Queue} {row : List (Handle × Message)}

theorem entries_eq (h : queue.Buffers row) : queue.buffer.entries = row :=
  h.represents.entries_eq

theorem messages_eq (h : queue.Buffers row) :
    queue.messages = row.map Prod.snd := by
  unfold messages Sequence.toList
  rw [h.entries_eq]

theorem size_eq (h : queue.Buffers row) : queue.size = row.length :=
  h.represents.size

theorem length_messages (h : queue.Buffers row) :
    queue.messages.length = queue.size := by
  rw [h.messages_eq, List.length_map, h.size_eq]

theorem enterNewest (h : queue.Buffers row) (message : Message) :
    (queue.enterNewest message).Buffers
      (row ++ [(queue.buffer.freshHandle, message)]) where
  represents := h.represents.pushNewest message
  indexes := by
    refine h.indexes.enter fun entry => ?_
    rw [List.mem_append, List.mem_singleton]
    exact or_comm

theorem enterOldest (h : queue.Buffers row) (message : Message) :
    (queue.enterOldest message).Buffers
      ((queue.buffer.freshHandle, message) :: row) where
  represents := h.represents.pushOldest message
  indexes := h.indexes.enter fun _ => List.mem_cons

theorem takeOldest?_nil (h : queue.Buffers []) : queue.takeOldest? = none := by
  unfold takeOldest?
  rw [h.represents.popOldest?_nil]
  rfl

theorem takeOldest?_cons {handle : Handle} {message : Message}
    (h : queue.Buffers ((handle, message) :: row)) :
    ∃ rest, queue.takeOldest? = some (message, rest) ∧ rest.Buffers row := by
  obtain ⟨buffer, hpop, hbuffer⟩ := h.represents.popOldest?_cons
  unfold takeOldest?
  rw [hpop]
  have hgone := (List.nodup_cons.mp h.represents.nodup).1
  exact ⟨_, rfl, hbuffer, h.indexes.leave hgone⟩

theorem evictOldest (h : queue.Buffers row) {most : Nat}
    (hmost : row.length ≤ most) :
    (Queue.evictOldest most queue).1.Buffers
      (row.drop (row.length + 1 - queue.capacity)) ∧
    (Queue.evictOldest most queue).2 = decide (0 < queue.capacity) := by
  induction most generalizing queue row with
  | zero =>
      obtain rfl := List.eq_nil_of_length_eq_zero (Nat.le_zero.mp hmost)
      refine ⟨by simpa [Queue.evictOldest] using h, ?_⟩
      simp [Queue.evictOldest, isFull, h.size_eq, Nat.pos_iff_ne_zero]
  | succ most ih =>
      unfold Queue.evictOldest
      by_cases hfull : queue.isFull = true
      · rw [if_pos hfull]
        rw [isFull_iff, h.size_eq] at hfull
        -- A full queue without a message has no capacity at all.
        cases row with
        | nil =>
            rw [h.takeOldest?_nil]
            have hnone : queue.capacity = 0 := Nat.le_zero.mp hfull
            exact ⟨by simpa using h, by simp [hnone]⟩
        | cons entry rest =>
            obtain ⟨next, htake, hnext⟩ := h.takeOldest?_cons
            rw [htake]
            have hkept := ih hnext (Nat.le_of_succ_le_succ hmost)
            rw [(rebuffered_takeOldest htake).capacity_eq] at hkept
            have hdrop : (entry :: rest).length + 1 - queue.capacity =
                (rest.length + 1 - queue.capacity) + 1 := by
              rw [List.length_cons] at hfull ⊢
              omega
            rw [hdrop, List.drop_succ_cons]
            exact hkept
      · rw [if_neg hfull]
        rw [isFull_iff, h.size_eq, Nat.not_le] at hfull
        have hdrop : row.length + 1 - queue.capacity = 0 := by omega
        rw [hdrop]
        exact ⟨h, (decide_eq_true (Nat.zero_lt_of_lt hfull)).symm⟩

theorem ensureRoom (h : queue.Buffers row) :
    queue.ensureRoom.1.Buffers (row.drop queue.excess) := by
  unfold Queue.ensureRoom excess
  rw [h.size_eq]
  by_cases hfull : queue.isFull = true
  · rw [if_pos hfull]
    split
    · exact (h.evictOldest (Nat.le_refl _)).1
    · exact h
  · rw [if_neg hfull]
    rw [isFull_iff, h.size_eq, Nat.not_le] at hfull
    have hdrop : row.length + 1 - queue.capacity = 0 := by omega
    simp only [hdrop, ite_self, List.drop_zero]
    exact h

theorem hasRoom_iff (h : queue.Buffers row) :
    queue.ensureRoom.2 = true ↔
      queue.size < queue.capacity ∨
        (queue.settings.flags.forcePush = true ∧ 0 < queue.capacity) := by
  unfold Queue.ensureRoom
  by_cases hfull : queue.isFull = true
  · rw [if_pos hfull]
    rw [isFull_iff] at hfull
    have hevict := (h.evictOldest (Nat.le_of_eq h.size_eq.symm)).2
    split
    · rename_i hforced
      simp [hevict, hforced, Nat.not_lt.mpr hfull]
    · rename_i hkept
      simp [hkept, Nat.not_lt.mpr hfull]
  · rw [if_neg hfull]
    rw [isFull_iff, Nat.not_le] at hfull
    simp [hfull]

theorem ensureRoom_eq_self (h : queue.Buffers row)
    (hcapacity : 0 < queue.capacity) (hroom : queue.ensureRoom.2 = false) :
    queue.ensureRoom.1 = queue := by
  have hnone : ¬ queue.ensureRoom.2 = true := by
    rw [hroom]
    exact Bool.false_ne_true
  rw [h.hasRoom_iff] at hnone
  unfold Queue.ensureRoom
  split
  · split
    · rename_i hforced
      exact absurd (.inr ⟨hforced, hcapacity⟩) hnone
    · rfl
  · rfl

theorem mem_due_iff (h : queue.Buffers row) {handle : Handle}
    {message : Message} (hmem : (handle, message) ∈ row) (now : Timestamp) :
    handle ∈ (queue.expiring.due now).map Prod.snd ↔
      message.isExpired now = true := by
  rw [Message.isExpired_iff]
  constructor
  · intro hdue
    obtain ⟨⟨deadline, handle⟩, hfirst, rfl⟩ := List.mem_map.mp hdue
    obtain ⟨hentry, hpassed⟩ := DeadlineIndex.mem_due.mp hfirst
    obtain ⟨found, hfound, hdeadline⟩ := (h.indexes _ _).mp hentry
    cases h.represents.value_unique hmem hfound
    exact ⟨deadline, hdeadline, hpassed⟩
  · rintro ⟨deadline, hdeadline, hpassed⟩
    have hentry := (h.indexes deadline handle).mpr ⟨message, hmem, hdeadline⟩
    exact List.mem_map.mpr
      ⟨_, DeadlineIndex.mem_due.mpr ⟨hentry, hpassed⟩, rfl⟩

theorem sweepExpired (h : queue.Buffers row) (now : Timestamp) :
    (queue.sweepExpired now).1.Buffers
      (row.filter fun entry => !entry.2.isExpired now) where
  represents := by
    have hkept : (row.filter fun entry => !entry.2.isExpired now) =
        row.filter fun entry =>
          entry.1 ∉ (queue.expiring.due now).map Prod.snd := by
      refine List.filter_congr fun entry hentry => ?_
      have hdue := h.mem_due_iff hentry now
      cases hexpired : entry.2.isExpired now with
      | true =>
          exact (decide_eq_false (not_not_intro (hdue.mpr hexpired))).symm
      | false =>
          have habsent : entry.1 ∉ (queue.expiring.due now).map Prod.snd := by
            intro hmem
            rw [hdue.mp hmem] at hexpired
            cases hexpired
          exact (decide_eq_true habsent).symm
    rw [hkept]
    exact represents_removeHandles h.represents _
  indexes deadline handle := by
    refine DeadlineIndex.mem_later.trans ?_
    rw [h.indexes]
    simp only [List.mem_filter]
    constructor
    · rintro ⟨⟨message, hmem, hdeadline⟩, hpending⟩
      refine ⟨message, ⟨hmem, ?_⟩, hdeadline⟩
      simp [Message.isExpired, hdeadline, hpending]
    · rintro ⟨message, ⟨hmem, hpending⟩, hdeadline⟩
      refine ⟨⟨message, hmem, hdeadline⟩, fun hpassed => ?_⟩
      simp [Message.isExpired, hdeadline, hpassed] at hpending

end Buffers

end Queue

end MessageBroker
