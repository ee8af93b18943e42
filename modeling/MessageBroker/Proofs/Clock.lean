import MessageBroker.Proofs.Tag

/-! Runs of the clock. Tags and counters of fixed width are as good as numbers
without a bound, as long as no more than 2^32 tags are stamped. -/

namespace MessageBroker.TagClock

inductive Step where
  | advance (now : Timestamp)
  | stamp
  deriving DecidableEq

def issued : TagClock → List Step → List Tag
  | _, [] => []
  | clock, .advance now :: rest => (clock.advance now).issued rest
  | clock, .stamp :: rest => clock.nextTag :: clock.stamped.issued rest

theorem length_issued (clock : TagClock) (steps : List Step) :
    (clock.issued steps).length = steps.count .stamp := by
  induction steps generalizing clock with
  | nil => rfl
  | cons step rest ih =>
      cases step with
      | advance now => simpa [issued] using ih _
      | stamp => simpa [issued] using ih _

/-- A clock whose counter and whose tags are numbers that never run out. -/
structure Endless where
  now : Timestamp
  counter : Nat
  last? : Option Nat

namespace Endless

def start (now : Timestamp) : Endless where
  now := now
  counter := 0
  last? := none

def advance (clock : Endless) (now : Timestamp) : Endless :=
  { clock with now := now, counter := 0 }

def raw (clock : Endless) : Nat :=
  clock.now.toNat % UInt32.size * UInt32.size + clock.counter

def next (clock : Endless) : Nat :=
  match clock.last? with
  | none => clock.raw
  | some last => max clock.raw (last + 1)

def stamped (clock : Endless) : Endless :=
  { clock with counter := clock.counter + 1, last? := some clock.next }

def issued : Endless → List Step → List Nat
  | _, [] => []
  | clock, .advance now :: rest => (clock.advance now).issued rest
  | clock, .stamp :: rest => clock.next :: clock.stamped.issued rest

theorem lt_next {clock : Endless} {last : Nat} (hlast : clock.last? = some last) :
    last < clock.next := by
  unfold next
  rw [hlast]
  exact Nat.le_max_right _ _

theorem lt_of_mem_issued {clock : Endless} {last number : Nat}
    {steps : List Step} (hlast : clock.last? = some last)
    (hmem : number ∈ clock.issued steps) : last < number := by
  induction steps generalizing clock last with
  | nil => cases hmem
  | cons step rest ih =>
      cases step with
      | advance now =>
          change number ∈ (clock.advance now).issued rest at hmem
          refine ih ?_ hmem
          exact hlast
      | stamp =>
          have hnext := lt_next hlast
          rcases List.mem_cons.mp hmem with rfl | hlater
          · exact hnext
          · exact Nat.lt_trans hnext (ih rfl hlater)

theorem pairwise_issued (clock : Endless) (steps : List Step) :
    (clock.issued steps).Pairwise (· < ·) := by
  induction steps generalizing clock with
  | nil => exact .nil
  | cons step rest ih =>
      cases step with
      | advance now => exact ih _
      | stamp =>
          exact List.pairwise_cons.mpr ⟨fun _ => lt_of_mem_issued rfl, ih _⟩

end Endless

/-- The clock is at the same point as the endless one, after so many tags. -/
structure Follows (clock : TagClock) (endless : Endless) (count : Nat) :
    Prop where
  within : clock.Within count
  now : clock.now = endless.now
  /-- The counter may have wrapped around, but only with the last tag that there
  can be. -/
  counter : clock.counter.toNat = endless.counter % UInt32.size
  counted : endless.counter ≤ count
  last : clock.lastTag.map Tag.toNat = endless.last?

variable {clock : TagClock} {endless : Endless} {count : Nat}

theorem follows_start (now : Timestamp) :
    (start now).Follows (.start now) 0 where
  within := within_start now
  now := rfl
  counter := rfl
  counted := Nat.le_refl 0
  last := rfl

namespace Follows

theorem advance (h : clock.Follows endless count) (now : Timestamp) :
    (clock.advance now).Follows (endless.advance now) count where
  within := h.within.advance now
  now := rfl
  counter := rfl
  counted := Nat.zero_le count
  last := h.last

theorem toNat_rawTag (h : clock.Follows endless count)
    (hcount : count < UInt32.size) : clock.rawTag.toNat = endless.raw := by
  have hcounter : endless.counter % UInt32.size = endless.counter :=
    Nat.mod_eq_of_lt (Nat.lt_of_le_of_lt h.counted hcount)
  rw [rawTag, Tag.toNat_compose, h.counter, hcounter, h.now]
  rfl

theorem toNat_nextTag (h : clock.Follows endless count)
    (hcount : count < UInt32.size) : clock.nextTag.toNat = endless.next := by
  have hraw := h.toNat_rawTag hcount
  have hlast := h.last
  unfold nextTag Endless.next
  rw [← hlast]
  cases hbefore : clock.lastTag with
  | none => exact hraw
  | some last =>
      have hnext := h.within.toNat_next hcount hbefore
      dsimp only [Option.map_some]
      split
      · rename_i hbehind
        rw [hnext, ← hraw]
        exact (Nat.max_eq_right (Nat.le_succ_of_le hbehind)).symm
      · rename_i hahead
        rw [← hraw]
        exact (Nat.max_eq_left (Nat.lt_of_not_le hahead)).symm

theorem stamped (h : clock.Follows endless count)
    (hcount : count < UInt32.size) :
    clock.stamped.Follows endless.stamped (count + 1) where
  within := h.within.stamped hcount
  now := h.now
  counter := by
    show (clock.counter + 1).toNat = (endless.counter + 1) % UInt32.size
    rw [UInt32.toNat_add, h.counter]
    exact Nat.mod_add_mod _ _ _
  counted := Nat.succ_le_succ h.counted
  last := congrArg some (h.toNat_nextTag hcount)

theorem issued {steps : List Step} (h : clock.Follows endless count)
    (hbound : count + steps.count .stamp ≤ UInt32.size) :
    (clock.issued steps).map Tag.toNat = endless.issued steps := by
  induction steps generalizing clock endless count with
  | nil => rfl
  | cons step rest ih =>
      cases step with
      | advance now =>
          have hother : Step.advance now ≠ .stamp := nofun
          rw [List.count_cons_of_ne hother] at hbound
          exact ih (h.advance now) hbound
      | stamp =>
          rw [List.count_cons_self] at hbound
          have hcount : count < UInt32.size := by omega
          have hrest := ih (h.stamped hcount) (by omega)
          rw [TagClock.issued, List.map_cons, hrest, h.toNat_nextTag hcount]
          rfl

end Follows

/-- Whatever times the clock is moved to, every tag lies above all tags before
it, and neither a counter nor a tag wraps around: the tags are the numbers of the
endless clock. -/
theorem issued_increasing (now : Timestamp) {steps : List Step}
    (hcount : steps.count .stamp ≤ UInt32.size) :
    ((start now).issued steps).length = steps.count .stamp ∧
    ((start now).issued steps).map Tag.toNat = (Endless.start now).issued steps ∧
    ((start now).issued steps).Pairwise (· < ·) ∧
    ((start now).issued steps).Nodup := by
  have hnumbers : ((start now).issued steps).map Tag.toNat =
      (Endless.start now).issued steps :=
    (follows_start now).issued (by omega)
  have hincreasing : ((start now).issued steps).Pairwise (· < ·) := by
    have hendless := (Endless.start now).pairwise_issued steps
    rw [← hnumbers, List.pairwise_map] at hendless
    exact hendless
  refine ⟨length_issued _ _, hnumbers, hincreasing, hincreasing.imp ?_⟩
  rintro first second hlt rfl
  exact Nat.lt_irrefl _ hlt

/-- A clock that starts at the last millisecond of its window falls back to the
first one, and is moved back in time after that. -/
theorem issued_increasing_backwards :
    (let steps : List Step :=
      [.stamp, .advance ⟨4294967296⟩, .stamp, .stamp, .advance ⟨7⟩, .stamp]
    steps.count .stamp ≤ UInt32.size ∧
      (start ⟨4294967295⟩).issued steps =
        [⟨18446744069414584320⟩, ⟨18446744069414584321⟩,
          ⟨18446744069414584322⟩, ⟨18446744069414584323⟩] ∧
      ((start ⟨4294967295⟩).issued steps).Pairwise (· < ·)) := by
  intro steps
  have hcount : steps.count .stamp ≤ UInt32.size := by decide
  exact ⟨hcount, by decide, (issued_increasing _ hcount).2.2.1⟩

end MessageBroker.TagClock
