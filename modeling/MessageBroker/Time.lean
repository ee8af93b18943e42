/-! Points in time, in milliseconds since the epoch. -/

namespace MessageBroker

structure Timestamp where
  millis : UInt64
  deriving DecidableEq

namespace Timestamp

def toNat (time : Timestamp) : Nat :=
  time.millis.toNat

theorem toNat_lt (time : Timestamp) : time.toNat < UInt64.size :=
  time.millis.toNat_lt

theorem toNat_inj {first second : Timestamp} :
    first.toNat = second.toNat ↔ first = second := by
  constructor
  · intro h
    cases first
    cases second
    exact congrArg Timestamp.mk (UInt64.toNat_inj.mp h)
  · rintro rfl
    rfl

instance : LT Timestamp := ⟨fun first second => first.toNat < second.toNat⟩

instance : LE Timestamp := ⟨fun first second => first.toNat ≤ second.toNat⟩

instance (first second : Timestamp) : Decidable (first < second) :=
  inferInstanceAs (Decidable (first.toNat < second.toNat))

instance (first second : Timestamp) : Decidable (first ≤ second) :=
  inferInstanceAs (Decidable (first.toNat ≤ second.toNat))

theorem lt_iff {first second : Timestamp} :
    first < second ↔ first.toNat < second.toNat := Iff.rfl

theorem le_iff {first second : Timestamp} :
    first ≤ second ↔ first.toNat ≤ second.toNat := Iff.rfl

def last : Timestamp := ⟨0xFFFFFFFFFFFFFFFF⟩

/-- The point `amount` milliseconds later, or the last one if that lies beyond
it. -/
def after (time : Timestamp) (amount : UInt64) : Timestamp :=
  if time.toNat + amount.toNat < UInt64.size then ⟨time.millis + amount⟩ else last

theorem toNat_after (time : Timestamp) (amount : UInt64) :
    (time.after amount).toNat =
      min (time.toNat + amount.toNat) (UInt64.size - 1) := by
  unfold after
  split
  · rename_i h
    have hsum : (time.millis + amount).toNat = time.toNat + amount.toNat := by
      rw [UInt64.toNat_add]
      exact Nat.mod_eq_of_lt h
    simp only [toNat, UInt64.size] at *
    omega
  · have hlast : last.toNat = UInt64.size - 1 := by decide
    omega

def latest (first second : Timestamp) : Timestamp :=
  if first ≤ second then second else first

end Timestamp

end MessageBroker
