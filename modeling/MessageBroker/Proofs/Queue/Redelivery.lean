import MessageBroker.Proofs.Queue.Lifecycle

/-! Holds that run out, one after the other. The due holds are listed before the
first of them ends, and each is still there when its turn comes. -/

namespace MessageBroker.Queue

variable {queue next : Queue} {row : List (Handle × Message)}
  {deadline now : Timestamp} {tag : Tag} {message : Message}

theorem endHold_eq (deadline now : Timestamp)
    (hheld : queue.held.get? tag = some message) (stats : SweepStats) :
    (message.isExpired now = true ∧
      endHold now (queue, stats) (deadline, tag) =
        (queue.forgetHold deadline tag,
          { stats with dropped := stats.dropped + 1 })) ∨
    (message.isExpired now = false ∧ queue.ensureRoom.2 = true ∧
      endHold now (queue, stats) (deadline, tag) =
        ((queue.ensureRoom.1.forgetHold deadline tag).enterOldest
            { message with heldUntil := none },
          { stats with redelivered := stats.redelivered + 1 })) ∨
    (message.isExpired now = false ∧ queue.ensureRoom.2 = false ∧
      endHold now (queue, stats) (deadline, tag) =
        (queue.ensureRoom.1, stats)) := by
  unfold endHold
  dsimp only
  rw [hheld]
  dsimp only
  cases message.isExpired now with
  | true => exact .inl ⟨rfl, rfl⟩
  | false =>
      cases hroom : queue.ensureRoom.2 with
      | true => exact .inr (.inl ⟨rfl, rfl, by simp⟩)
      | false => exact .inr (.inr ⟨rfl, rfl, by simp⟩)

theorem endHold_cases (deadline now : Timestamp)
    (hheld : queue.held.get? tag = some message) (stats : SweepStats) :
    (message.isExpired now = true ∧
      (endHold now (queue, stats) (deadline, tag)).1 =
        queue.forgetHold deadline tag) ∨
    (message.isExpired now = false ∧ queue.ensureRoom.2 = true ∧
      (endHold now (queue, stats) (deadline, tag)).1 =
        (queue.ensureRoom.1.forgetHold deadline tag).enterOldest
          { message with heldUntil := none }) ∨
    (message.isExpired now = false ∧ queue.ensureRoom.2 = false ∧
      (endHold now (queue, stats) (deadline, tag)).1 = queue.ensureRoom.1) :=
  (endHold_eq deadline now hheld stats).imp
    (And.imp_right (congrArg Prod.fst))
    (Or.imp (And.imp_right (And.imp_right (congrArg Prod.fst)))
      (And.imp_right (And.imp_right (congrArg Prod.fst))))

theorem Buffers.forgetHold (h : queue.Buffers row) (deadline : Timestamp)
    (tag : Tag) : (queue.forgetHold deadline tag).Buffers row :=
  ⟨h.represents, h.indexes⟩

/-- Whatever tags there are, the end of a hold leaves the index in step. -/
theorem Buffers.endHold (h : queue.Buffers row) (now : Timestamp)
    (stats : SweepStats) (hold : Timestamp × Tag) :
    ∃ row, (Queue.endHold now (queue, stats) hold).1.Buffers row := by
  obtain ⟨deadline, tag⟩ := hold
  cases hheld : queue.held.get? tag with
  | none =>
      unfold Queue.endHold
      dsimp only
      rw [hheld]
      exact ⟨row, h.represents, h.indexes⟩
  | some message =>
      rcases endHold_cases deadline now hheld stats with
        ⟨-, hnext⟩ | ⟨-, -, hnext⟩ | ⟨-, -, hnext⟩ <;> rw [hnext]
      · exact ⟨row, h.forgetHold deadline tag⟩
      · exact ⟨_, (h.ensureRoom.forgetHold deadline tag).enterOldest _⟩
      · exact ⟨_, h.ensureRoom⟩

theorem Buffers.isFull_endHold (h : queue.Buffers row)
    (hfull : queue.isFull = true) (deadline now : Timestamp)
    (hheld : queue.held.get? tag = some message) (stats : SweepStats) :
    (Queue.endHold now (queue, stats) (deadline, tag)).1.isFull = true := by
  rcases endHold_cases deadline now hheld stats with
    ⟨-, hnext⟩ | ⟨-, -, hnext⟩ | ⟨-, hroom, hnext⟩ <;> rw [hnext]
  · exact hfull
  · have hleft := h.ensureRoom.forgetHold deadline tag
    rw [(hleft.enterOldest _).isFull_iff_length,
      (rebuffered_enterOldest _ _).capacity_eq, List.length_cons]
    have hcapacity := (rebuffered_ensureRoom queue).capacity_eq
    exact Nat.le_trans (Nat.le_of_eq hcapacity) (h.capacity_le_kept hfull)
  · exact h.isFull_ensureRoom hfull hroom

theorem mem_holdDeadlines_endHold (hheld : queue.held.get? tag = some message)
    (stats : SweepStats) {entry : Timestamp × Tag}
    (hmem : entry ∈ queue.holdDeadlines.entries)
    (hother : entry ≠ (deadline, tag)) :
    entry ∈ (endHold now (queue, stats) (deadline, tag)).1.holdDeadlines.entries
    := by
  have hroomy := (rebuffered_ensureRoom queue).holdDeadlines_eq
  rcases endHold_cases deadline now hheld stats with
    ⟨-, hnext⟩ | ⟨-, -, hnext⟩ | ⟨-, -, hnext⟩ <;> rw [hnext]
  · exact DeadlineIndex.mem_erase.mpr ⟨hmem, hother⟩
  · refine DeadlineIndex.mem_erase.mpr ⟨?_, hother⟩
    rw [hroomy]
    exact hmem
  · rw [hroomy]
    exact hmem

theorem Keeps.redeliver (h : queue.Keeps row)
    (hheld : queue.held.get? tag = some message)
    (hdeadline : message.heldUntil = some deadline) :
    (∃ row, ((queue.ensureRoom.1.forgetHold deadline tag).enterOldest
        { message with heldUntil := none }).Keeps row) ∧
    ∀ other, ((queue.ensureRoom.1.forgetHold deadline tag).enterOldest
        { message with heldUntil := none }).place other =
      if other = tag then .buffered { message with heldUntil := none }
      else queue.ensureRoom.1.place other := by
  have hroomy := h.ensureRoom
  have hstill : queue.ensureRoom.1.held.get? tag = some message := by
    rw [(rebuffered_ensureRoom queue).held_eq]
    exact hheld
  have hleft := hroomy.forgetHold hstill hdeadline
  obtain ⟨htag, -⟩ := h.heldUntil hheld
  have hnew : ∀ entry ∈ row.drop queue.excess,
      entry.2.tag ≠ { message with heldUntil := none }.tag := by
    intro entry hentry heq
    have hnone := hroomy.apart entry hentry
    rw [heq, htag, hstill] at hnone
    cases hnone
  have hfree : (queue.ensureRoom.1.forgetHold deadline tag).held.get?
      { message with heldUntil := none }.tag = none := by
    refine (AssocList.get?_erase _ _ _).trans (if_pos ?_)
    exact htag
  have hkeeps := hleft.enterOldest rfl hnew hfree
  refine ⟨⟨_, hkeeps⟩, fun other => ?_⟩
  rw [hleft.place_enter (rebuffered_enterOldest _ _) hkeeps (List.Perm.refl _),
    hroomy.place_forgetHold hstill hdeadline]
  dsimp only
  rw [htag]
  by_cases hother : other = tag
  · rw [if_pos hother, if_pos hother]
  · rw [if_neg hother, if_neg hother, if_neg hother]

theorem Keeps.moves_endHold (h : queue.Keeps row)
    (hdue : (deadline, tag) ∈ queue.holdDeadlines.entries)
    (hpassed : deadline ≤ now) (stats : SweepStats) :
    Moves (.sweep now) queue
      (endHold now (queue, stats) (deadline, tag)).1 := by
  obtain ⟨message, hheld, hdeadline⟩ := (h.holds.deadlines _ _).mp hdue
  have hawaiting := h.place_eq_awaiting_iff.mpr hheld
  have hover : message.isHoldOver now = true := by
    simp [Message.isHoldOver, hdeadline, hpassed]
  have hfull := fun hfull =>
    h.buffers.isFull_endHold hfull deadline now hheld stats
  have hsettings :=
    (refilled_endHold now (queue, stats) (deadline, tag)).settings_eq
  rcases endHold_cases deadline now hheld stats with
    ⟨hexpired, hnext⟩ | ⟨halive, -, hnext⟩ | ⟨halive, -, hnext⟩ <;>
    rw [hnext] at hfull hsettings ⊢
  case inl =>
    refine ⟨⟨row, h.forgetHold hheld hdeadline⟩, fun other => ?_⟩
    rw [h.place_forgetHold hheld hdeadline]
    split
    · rename_i htag
      rw [htag, hawaiting]
      exact .single (.released hover hexpired)
    · exact .refl
  case inr.inl =>
    obtain ⟨hkeeps, hplace⟩ := h.redeliver hheld hdeadline
    refine ⟨hkeeps, fun other => ?_⟩
    rw [hplace]
    split
    · rename_i htag
      rw [htag, hawaiting]
      exact .single (.redelivered hover halive)
    · exact h.passages_ensureRoom rfl hsettings hfull other
  case inr.inr =>
    exact ⟨⟨_, h.ensureRoom⟩, h.passages_ensureRoom rfl hsettings hfull⟩

theorem Moves.trans {act : Act} {first middle last : Queue}
    (hfirst : Moves act first middle) (hsecond : Moves act middle last)
    (hsettings : last.settings = middle.settings)
    (hfull : middle.isFull = true → last.isFull = true) :
    Moves act first last where
  keeps := hsecond.keeps
  passages tag :=
    ((hfirst.passages tag).later hsettings hfull).trans (hsecond.passages tag)

theorem Keeps.moves_endHolds (h : queue.Keeps row)
    {due : List (Timestamp × Tag)} (hnodup : due.Nodup)
    (hdue : ∀ hold ∈ due,
      hold ∈ queue.holdDeadlines.entries ∧ hold.1 ≤ now) (stats : SweepStats) :
    Moves (.sweep now) queue (due.foldl (endHold now) (queue, stats)).1 ∧
    (queue.isFull = true →
      (due.foldl (endHold now) (queue, stats)).1.isFull = true) := by
  induction due generalizing queue row stats with
  | nil => exact ⟨h.moves_refl _, fun hfull => hfull⟩
  | cons hold rest ih =>
      obtain ⟨deadline, tag⟩ := hold
      obtain ⟨hother, hrest⟩ := List.nodup_cons.mp hnodup
      obtain ⟨hmem, hpassed⟩ := hdue _ List.mem_cons_self
      obtain ⟨message, hheld, -⟩ := (h.holds.deadlines _ _).mp hmem
      have hfirst := h.moves_endHold hmem hpassed stats
      obtain ⟨left, hkeeps⟩ := hfirst.keeps
      -- No hold is listed twice, so the first to end takes no other with it.
      have hstill : ∀ hold ∈ rest,
          hold ∈ (endHold now (queue, stats)
            (deadline, tag)).1.holdDeadlines.entries ∧ hold.1 ≤ now := by
        intro hold hhold
        obtain ⟨hentry, hover⟩ := hdue hold (List.mem_cons_of_mem _ hhold)
        refine ⟨mem_holdDeadlines_endHold hheld stats hentry ?_, hover⟩
        rintro rfl
        exact hother hhold
      obtain ⟨hlater, hfull⟩ := ih hkeeps hrest hstill
        (endHold now (queue, stats) (deadline, tag)).2
      have hsettings := (refilled_endHolds now
        (endHold now (queue, stats) (deadline, tag)) rest).settings_eq
      refine ⟨hfirst.trans hlater hsettings hfull, fun hwasFull => ?_⟩
      exact hfull (h.buffers.isFull_endHold hwasFull deadline now hheld stats)

theorem Keeps.moves_sweep (h : queue.Keeps row) (now : Timestamp) :
    Moves (.sweep now) queue (queue.sweep now).1 := by
  -- The list of due holds is that of the queue without its expired messages.
  have hfirst := h.moves_sweepExpired now
  obtain ⟨left, hkeeps⟩ := hfirst.keeps
  obtain ⟨hsecond, hfull⟩ := hkeeps.moves_endHolds
    (DeadlineIndex.nodup_due _ now) (fun _ => DeadlineIndex.mem_due.mp) .zero
  have hsettings := (refilled_endHolds now ((queue.sweepExpired now).1, .zero)
    ((queue.sweepExpired now).1.holdDeadlines.due now)).settings_eq
  exact hfirst.trans hsecond hsettings hfull

end MessageBroker.Queue
