import MessageBroker.Tag

/-! As long as no more than 2^32 tags have been stamped, every tag lies above
all tags before it, whatever times the clock is moved to. -/

namespace MessageBroker.TagClock

/-- The tag of the last clock reading with a counter of zero. Each tag stamped
raises the highest tag there can be by one. -/
def ceiling : Nat := (UInt32.size - 1) * UInt32.size

/-- What holds once so many tags have been stamped. -/
structure Within (clock : TagClock) (count : Nat) : Prop where
  counter : clock.counter.toNat ≤ count
  lastTag : ∀ last, clock.lastTag = some last → last.toNat < ceiling + count

/-- The clock has handed this tag out, or a later one. -/
def Stamped (clock : TagClock) (tag : Tag) : Prop :=
  ∃ last, clock.lastTag = some last ∧ tag ≤ last

variable {clock : TagClock} {count : Nat} {tag : Tag}

theorem within_start (now : Timestamp) : (start now).Within 0 where
  counter := Nat.le_refl 0
  lastTag _ hlast := nomatch hlast

theorem Within.advance (h : clock.Within count) (now : Timestamp) :
    (clock.advance now).Within count where
  counter := Nat.zero_le count
  lastTag := h.lastTag

theorem toNat_rawTag_le (clock : TagClock) :
    clock.rawTag.toNat ≤ ceiling + clock.counter.toNat := by
  have hmillis := Nat.mod_lt clock.now.millis.toNat
    (show 0 < UInt32.size by decide)
  rw [rawTag, Tag.toNat_compose]
  exact Nat.add_le_add_right
    (Nat.mul_le_mul_right _ (Nat.le_sub_one_of_lt hmillis)) _

theorem Within.toNat_next (h : clock.Within count)
    (hcount : count < UInt32.size) {last : Tag}
    (hlast : clock.lastTag = some last) : last.next.toNat = last.toNat + 1 := by
  have hbound := h.lastTag last hlast
  have hfits : last.toNat + 1 < 2 ^ 64 := by
    simp only [ceiling, UInt32.size] at hbound hcount
    omega
  unfold Tag.next Tag.toNat
  rw [UInt64.toNat_add]
  exact Nat.mod_eq_of_lt hfits

theorem Within.last_lt_nextTag (h : clock.Within count)
    (hcount : count < UInt32.size) {last : Tag}
    (hlast : clock.lastTag = some last) : last < clock.nextTag := by
  unfold nextTag
  rw [hlast]
  dsimp only
  split
  · show last.toNat < last.next.toNat
    rw [h.toNat_next hcount hlast]
    exact Nat.lt_succ_self _
  · rename_i hahead
    exact Nat.lt_of_not_le hahead

theorem Within.toNat_nextTag_le (h : clock.Within count)
    (hcount : count < UInt32.size) : clock.nextTag.toNat ≤ ceiling + count := by
  have hraw := Nat.le_trans clock.toNat_rawTag_le
    (Nat.add_le_add_left h.counter ceiling)
  unfold nextTag
  cases hlast : clock.lastTag with
  | none => exact hraw
  | some last =>
      dsimp only
      split
      · rw [h.toNat_next hcount hlast]
        exact h.lastTag last hlast
      · exact hraw

theorem Within.stamped (h : clock.Within count) (hcount : count < UInt32.size) :
    clock.stamped.Within (count + 1) where
  counter := by
    show (clock.counter + 1).toNat ≤ count + 1
    rw [UInt32.toNat_add]
    exact Nat.le_trans (Nat.mod_le _ _) (Nat.succ_le_succ h.counter)
  lastTag last hlast := by
    rw [lastTag_stamped] at hlast
    cases hlast
    exact Nat.lt_succ_of_le (h.toNat_nextTag_le hcount)

theorem Stamped.lt_nextTag (h : clock.Within count)
    (hcount : count < UInt32.size) (hstamped : clock.Stamped tag) :
    tag < clock.nextTag := by
  obtain ⟨last, hlast, hle⟩ := hstamped
  exact Nat.lt_of_le_of_lt hle (h.last_lt_nextTag hcount hlast)

theorem Stamped.ne_nextTag (h : clock.Within count)
    (hcount : count < UInt32.size) (hstamped : clock.Stamped tag) :
    tag ≠ clock.nextTag := by
  rintro rfl
  exact Nat.lt_irrefl _ (hstamped.lt_nextTag h hcount)

theorem stamped_nextTag (clock : TagClock) :
    clock.stamped.Stamped clock.nextTag :=
  ⟨clock.nextTag, rfl, Nat.le_refl _⟩

theorem Stamped.stamped (h : clock.Within count) (hcount : count < UInt32.size)
    (hstamped : clock.Stamped tag) : clock.stamped.Stamped tag :=
  ⟨clock.nextTag, rfl, Nat.le_of_lt (hstamped.lt_nextTag h hcount)⟩

theorem Within.nextTags {more : Nat} (h : clock.Within count)
    (hbound : count + more ≤ UInt32.size) :
    (clock.nextTags more).2.Within (count + more) := by
  induction more generalizing clock count with
  | zero => exact h
  | succ more ih =>
      have hlast := ih (h.stamped (by omega)) (by omega)
      rw [Nat.add_right_comm] at hlast
      exact hlast

theorem Stamped.nextTags {more : Nat} (h : clock.Within count)
    (hbound : count + more ≤ UInt32.size) (hstamped : clock.Stamped tag) :
    (clock.nextTags more).2.Stamped tag := by
  induction more generalizing clock count with
  | zero => exact hstamped
  | succ more ih =>
      have hcount : count < UInt32.size := by omega
      exact ih (h.stamped hcount) (by omega) (hstamped.stamped h hcount)

end MessageBroker.TagClock
