import MessageBroker.Proofs.Clock

/-! What a tag says about the tick that it was stamped in. While the clock does
not go backwards and stays in one window of 2^32 milliseconds, a tag is made up of
the millisecond and of how many tags were stamped in it before. -/

namespace MessageBroker.TagClock

def Step.time? : Step → Option Timestamp
  | .advance now => some now
  | .stamp => none

def times (start : Timestamp) (steps : List Step) : List Timestamp :=
  start :: steps.filterMap Step.time?

/-- A tag, with what there was when it was stamped. -/
structure Stamping where
  tag : Tag
  now : Timestamp
  /-- Tags stamped before it since the clock was last moved. -/
  inTick : Nat
  /-- Tags stamped before it since the clock last showed another time. -/
  inMilli : Nat
  deriving DecidableEq

/-- What is stamped on the way, in order, where so many tags have been stamped in
this tick and in this millisecond. -/
def stampings : TagClock → (inTick inMilli : Nat) → List Step → List Stamping
  | _, _, _, [] => []
  | clock, _, inMilli, .advance now :: rest =>
      (clock.advance now).stampings 0
        (if now = clock.now then inMilli else 0) rest
  | clock, inTick, inMilli, .stamp :: rest =>
      ⟨clock.nextTag, clock.now, inTick, inMilli⟩ ::
        clock.stamped.stampings (inTick + 1) (inMilli + 1) rest

theorem map_tag_stampings (clock : TagClock) (inTick inMilli : Nat)
    (steps : List Step) :
    (clock.stampings inTick inMilli steps).map Stamping.tag =
      clock.issued steps := by
  induction steps generalizing clock inTick inMilli with
  | nil => rfl
  | cons step rest ih =>
      cases step with
      | advance now => exact ih ..
      | stamp => exact congrArg (clock.nextTag :: ·) (ih ..)

/-- The first tag of the clock's millisecond. -/
def floor (clock : TagClock) : Nat :=
  clock.now.toNat % UInt32.size * UInt32.size

/-- So many tags have been stamped in the clock's millisecond, and they lie close
together from the first one on. -/
structure Filled (clock : TagClock) (inMilli : Nat) : Prop where
  counter : clock.counter.toNat ≤ inMilli
  below : ∀ last, clock.lastTag = some last →
    last.toNat < clock.floor + inMilli
  reached : 0 < inMilli → ∃ last, clock.lastTag = some last ∧
    last.toNat + 1 = clock.floor + inMilli

variable {clock : TagClock} {inTick inMilli count : Nat} {now : Timestamp}

theorem filled_start (now : Timestamp) : (start now).Filled 0 where
  counter := Nat.le_refl 0
  below _ hlast := nomatch hlast
  reached h := absurd h (Nat.lt_irrefl 0)

@[simp] theorem floor_stamped (clock : TagClock) :
    clock.stamped.floor = clock.floor := rfl

theorem floor_le_ceiling (clock : TagClock) : clock.floor ≤ ceiling := by
  have hmillis := Nat.mod_lt clock.now.toNat (show 0 < UInt32.size by decide)
  exact Nat.mul_le_mul_right _ (Nat.le_sub_one_of_lt hmillis)

theorem floor_add_size_le {window : Nat} (hnow : clock.now < now)
    (hbefore : clock.now.toNat / UInt32.size = window)
    (hafter : now.toNat / UInt32.size = window) :
    clock.floor + UInt32.size ≤ (clock.advance now).floor := by
  rw [Timestamp.lt_iff] at hnow
  simp only [floor, now_advance, UInt32.size] at *
  omega

namespace Filled

theorem within (h : clock.Filled inMilli) : clock.Within inMilli where
  counter := h.counter
  lastTag last hlast :=
    Nat.lt_of_lt_of_le (h.below last hlast)
      (Nat.add_le_add_right clock.floor_le_ceiling _)

/-- The clock is moved, but shows the same time. -/
theorem stall (h : clock.Filled inMilli) :
    (clock.advance clock.now).Filled inMilli where
  counter := Nat.zero_le _
  below := h.below
  reached := h.reached

theorem advance {window : Nat} (h : clock.Filled inMilli)
    (hcount : inMilli ≤ UInt32.size) (hnow : clock.now < now)
    (hbefore : clock.now.toNat / UInt32.size = window)
    (hafter : now.toNat / UInt32.size = window) :
    (clock.advance now).Filled 0 where
  counter := Nat.le_refl 0
  below last hlast := by
    have hbelow := h.below last hlast
    have hfloor := floor_add_size_le hnow hbefore hafter
    omega
  reached h := absurd h (Nat.lt_irrefl 0)

/-- The counter and the last tag come to the same, wherever the counter was
restarted. -/
theorem toNat_nextTag (h : clock.Filled inMilli)
    (hcount : inMilli < UInt32.size) :
    clock.nextTag.toNat = clock.floor + inMilli := by
  have hraw : clock.rawTag.toNat = clock.floor + clock.counter.toNat :=
    Tag.toNat_compose _ _
  have hcounter := h.counter
  unfold nextTag
  cases hlast : clock.lastTag with
  | none =>
      have hnone : inMilli = 0 := Nat.eq_zero_of_not_pos fun hsome => by
        obtain ⟨last, hstamped, -⟩ := h.reached hsome
        rw [hlast] at hstamped
        cases hstamped
      show clock.rawTag.toNat = _
      omega
  | some last =>
      have hbelow := h.below last hlast
      have hreached : 0 < inMilli → last.toNat + 1 = clock.floor + inMilli := by
        intro hsome
        obtain ⟨other, hstamped, hnext⟩ := h.reached hsome
        cases hlast.symm.trans hstamped
        exact hnext
      dsimp only
      split
      · rename_i hbehind
        have hbehind : clock.rawTag.toNat ≤ last.toNat := hbehind
        rw [h.within.toNat_next hcount hlast]
        omega
      · rename_i hahead
        have hahead : ¬clock.rawTag.toNat ≤ last.toNat := hahead
        omega

theorem stamped (h : clock.Filled inMilli) (hcount : inMilli < UInt32.size) :
    clock.stamped.Filled (inMilli + 1) where
  counter := (h.within.stamped hcount).counter
  below last hlast := by
    cases hlast
    rw [floor_stamped, h.toNat_nextTag hcount]
    exact Nat.lt_succ_self _
  reached _ := by
    refine ⟨clock.nextTag, rfl, ?_⟩
    rw [floor_stamped, h.toNat_nextTag hcount, Nat.add_assoc]

end Filled

/-- What a tag says. -/
structure Stamping.Exact (stamping : Stamping) : Prop where
  millis : stamping.tag.millis.toNat = stamping.now.toNat % UInt32.size
  counter : stamping.tag.counter.toNat = stamping.inMilli

theorem Filled.exact (h : clock.Filled inMilli) (hcount : inMilli < UInt32.size)
    (inTick : Nat) :
    Stamping.Exact ⟨clock.nextTag, clock.now, inTick, inMilli⟩ := by
  have htag := h.toNat_nextTag hcount
  constructor
  · rw [Tag.toNat_millis, htag]
    simp only [floor, UInt32.size] at *
    omega
  · rw [Tag.toNat_counter, htag]
    simp only [floor, UInt32.size] at *
    omega

/-- Times that the clock is moved to, none of them earlier than the one before, and
all of them in one window. -/
structure Forward (window : Nat) (times : List Timestamp) : Prop where
  ordered : times.Pairwise (· ≤ ·)
  inWindow : ∀ time ∈ times, time.toNat / UInt32.size = window

theorem Forward.tail {window : Nat} {times : List Timestamp} {time : Timestamp}
    (h : Forward window (time :: times)) : Forward window times where
  ordered := (List.pairwise_cons.mp h.ordered).2
  inWindow other hother := h.inWindow other (List.mem_cons_of_mem _ hother)

theorem Filled.move {window : Nat} {steps : List Step}
    (h : clock.Filled inMilli) (hcount : inMilli ≤ UInt32.size)
    (hforward : Forward window (times clock.now (.advance now :: steps))) :
    (clock.advance now).Filled (if now = clock.now then inMilli else 0) := by
  have hle : clock.now ≤ now :=
    (List.pairwise_cons.mp hforward.ordered).1 now List.mem_cons_self
  split
  · rename_i hsame
    rw [hsame]
    exact h.stall
  · rename_i hmoved
    have hlt : clock.now < now := by
      refine Nat.lt_of_le_of_ne hle fun heq => ?_
      exact hmoved (Timestamp.toNat_inj.mp heq).symm
    exact h.advance hcount hlt
      (hforward.inWindow _ List.mem_cons_self)
      (hforward.inWindow _ (List.mem_cons_of_mem _ List.mem_cons_self))

theorem exact_of_mem_stampings {window : Nat} {steps : List Step}
    {stamping : Stamping} (h : clock.Filled inMilli)
    (hcount : inMilli + steps.count .stamp ≤ UInt32.size)
    (hforward : Forward window (times clock.now steps))
    (hmem : stamping ∈ clock.stampings inTick inMilli steps) :
    stamping.Exact := by
  induction steps generalizing clock inTick inMilli with
  | nil => cases hmem
  | cons step rest ih =>
      cases step with
      | advance now =>
          have hother : Step.advance now ≠ .stamp := nofun
          rw [List.count_cons_of_ne hother] at hcount
          have hfilled := h.move (by omega) hforward
          refine ih hfilled ?_ hforward.tail hmem
          split <;> omega
      | stamp =>
          rw [List.count_cons_self] at hcount
          have hroom : inMilli < UInt32.size := by omega
          rcases List.mem_cons.mp hmem with rfl | hlater
          · exact h.exact hroom _
          · exact ih (h.stamped hroom) (by omega) hforward hlater

/-- Where every move is to a later time, a tick is a millisecond. -/
theorem inMilli_of_mem_stampings {steps : List Step} {stamping : Stamping}
    (hforward : (times clock.now steps).Pairwise (· < ·))
    (hmem : stamping ∈ clock.stampings inTick inTick steps) :
    stamping.inMilli = stamping.inTick := by
  induction steps generalizing clock inTick with
  | nil => cases hmem
  | cons step rest ih =>
      cases step with
      | advance now =>
          obtain ⟨hnow, hrest⟩ := List.pairwise_cons.mp hforward
          have hmoved : now ≠ clock.now := by
            rintro rfl
            exact Nat.lt_irrefl _ (hnow _ List.mem_cons_self)
          rw [stampings, if_neg hmoved] at hmem
          have hrest : (times (clock.advance now).now rest).Pairwise (· < ·) :=
            hrest
          exact ih hrest hmem
      | stamp =>
          have hrest : (times clock.stamped.now rest).Pairwise (· < ·) :=
            hforward
          rcases List.mem_cons.mp hmem with rfl | hlater
          · rfl
          · exact ih hrest hlater

/-- While the clock does not go backwards and stays in one window, every tag has
the millisecond that the clock shows, and counts the tags stamped in it before,
also where the clock stands still and its counter starts again. Where every move is
to a later time, these are the tags stamped in the same tick. -/
theorem tags_name_ticks (now : Timestamp) {window : Nat} {steps : List Step}
    (hcount : steps.count .stamp ≤ UInt32.size)
    (hforward : Forward window (times now steps)) :
    ((start now).stampings 0 0 steps).map Stamping.tag =
        (start now).issued steps ∧
      ∀ stamping ∈ (start now).stampings 0 0 steps,
        stamping.tag.millis.toNat = stamping.now.toNat % UInt32.size ∧
        stamping.tag.counter.toNat = stamping.inMilli ∧
        ((times now steps).Pairwise (· < ·) →
          stamping.tag.counter.toNat = stamping.inTick) := by
  refine ⟨map_tag_stampings _ _ _ _, fun stamping hmem => ?_⟩
  have hexact : stamping.Exact :=
    exact_of_mem_stampings (filled_start now) (by omega) hforward hmem
  refine ⟨hexact.millis, hexact.counter, fun hlater => ?_⟩
  rw [hexact.counter]
  exact inMilli_of_mem_stampings hlater hmem

/-- A clock that stands still twice at the last millisecond but one of the second
window, and then moves on. -/
theorem tags_name_ticks_stalled :
    let steps : List Step := [.stamp, .stamp, .advance ⟨8589934590⟩, .stamp,
      .advance ⟨8589934590⟩, .stamp, .advance ⟨8589934591⟩, .stamp, .stamp]
    (steps.count .stamp ≤ UInt32.size ∧
      Forward 1 (times ⟨8589934590⟩ steps)) ∧
    ((start ⟨8589934590⟩).issued steps).map
        (fun tag => (tag.millis.toNat, tag.counter.toNat)) =
      [(4294967294, 0), (4294967294, 1), (4294967294, 2), (4294967294, 3),
        (4294967295, 0), (4294967295, 1)] ∧
    ∀ stamping ∈ (start ⟨8589934590⟩).stampings 0 0 steps,
      stamping.tag.millis.toNat = stamping.now.toNat % UInt32.size := by
  intro steps
  have hcount : steps.count .stamp ≤ UInt32.size := by decide
  have hforward : Forward 1 (times ⟨8589934590⟩ steps) :=
    ⟨by decide, by decide⟩
  refine ⟨⟨hcount, hforward⟩, by decide, fun stamping hmem => ?_⟩
  exact ((tags_name_ticks _ hcount hforward).2 stamping hmem).1

end MessageBroker.TagClock
