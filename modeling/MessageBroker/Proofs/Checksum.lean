import Mathlib.Data.Nat.Bitwise
import MessageBroker.Checksum

/-! A checksum tells bytes apart that differ in one place: what a byte does to
the register can be undone, whatever the byte and the register are. -/

namespace MessageBroker.Checksum

theorem and_one_eq_one_iff {register : UInt32} :
    register &&& 1 = 1 ↔ register.toNat % 2 = 1 := by
  rw [← UInt32.toNat_inj, UInt32.toNat_and]
  change register.toNat &&& 1 = 1 ↔ register.toNat % 2 = 1
  rw [Nat.and_one_is_mod]

theorem toNat_shift_even {register : UInt32} (h : register.toNat % 2 = 0) :
    (shift register).toNat = register.toNat / 2 := by
  have hodd : ¬ register &&& 1 = 1 := by
    rw [and_one_eq_one_iff]
    omega
  unfold shift
  rw [if_neg hodd, UInt32.toNat_shiftRight]
  exact Nat.shiftRight_eq_div_pow _ 1

theorem toNat_shift_odd {register : UInt32} (h : register.toNat % 2 = 1) :
    (shift register).toNat = register.toNat / 2 ^^^ polynomial.toNat := by
  unfold shift
  rw [if_pos (and_one_eq_one_iff.mpr h), UInt32.toNat_xor,
    UInt32.toNat_shiftRight]
  exact congrArg (· ^^^ polynomial.toNat) (Nat.shiftRight_eq_div_pow _ 1)

/-- The polynomial has the highest bit, and half a register has not. -/
theorem xor_polynomial_ne {first second : Nat} (hfirst : first < 2 ^ 31)
    (hsecond : second < 2 ^ 31) : first ^^^ polynomial.toNat ≠ second := by
  intro heq
  have hpolynomial : first ^^^ second = polynomial.toNat := by
    rw [← heq, ← Nat.xor_assoc, Nat.xor_self, Nat.zero_xor]
  have hlow := Nat.xor_lt_two_pow hfirst hsecond
  have hhigh : 2 ^ 31 ≤ polynomial.toNat := by decide
  omega

theorem shift_injective : Function.Injective shift := by
  intro first second heq
  replace heq := congrArg UInt32.toNat heq
  have hfirst := first.toNat_lt
  have hsecond := second.toNat_lt
  apply UInt32.toNat_inj.mp
  rcases Nat.mod_two_eq_zero_or_one first.toNat with heven | hodd
  · rw [toNat_shift_even heven] at heq
    rcases Nat.mod_two_eq_zero_or_one second.toNat with heven' | hodd'
    · rw [toNat_shift_even heven'] at heq
      omega
    · rw [toNat_shift_odd hodd'] at heq
      exact absurd heq.symm (xor_polynomial_ne (by omega) (by omega))
  · rw [toNat_shift_odd hodd] at heq
    rcases Nat.mod_two_eq_zero_or_one second.toNat with heven' | hodd'
    · rw [toNat_shift_even heven'] at heq
      exact absurd heq (xor_polynomial_ne (by omega) (by omega))
    · rw [toNat_shift_odd hodd'] at heq
      have hhalves := Nat.xor_left_inj.mp heq
      omega

theorem repeat_shift_injective (times : Nat) :
    Function.Injective (Nat.repeat shift times) := by
  induction times with
  | zero => exact fun _ _ heq => heq
  | succ times ih => exact fun _ _ heq => ih (shift_injective heq)

theorem absorb_injective (byte : UInt8) :
    Function.Injective fun register => absorb register byte := by
  intro first second heq
  exact (UInt32.xor_left_inj _).mp (repeat_shift_injective 8 heq)

theorem absorb_byte_injective (register : UInt32) :
    Function.Injective (absorb register) := by
  intro first second heq
  have hbytes := (UInt32.xor_right_inj _).mp (repeat_shift_injective 8 heq)
  have hnat := congrArg UInt32.toNat hbytes
  rw [UInt8.toNat_toUInt32, UInt8.toNat_toUInt32] at hnat
  exact UInt8.toNat_inj.mp hnat

/-- Registers that differ still differ after any further bytes. -/
theorem foldl_absorb_injective (bytes : List UInt8) :
    Function.Injective fun register => bytes.foldl absorb register := by
  induction bytes with
  | nil => exact fun _ _ heq => heq
  | cons byte rest ih => exact fun _ _ heq => absorb_injective byte (ih heq)

theorem ofBytes_ne {first second : UInt8} (hne : first ≠ second)
    (front back : List UInt8) :
    ofBytes (front ++ first :: back) ≠ ofBytes (front ++ second :: back) := by
  intro heq
  unfold ofBytes at heq
  have hregisters := UInt32.not_inj.mp heq
  rw [List.foldl_append, List.foldl_append] at hregisters
  exact hne (absorb_byte_injective _ (foldl_absorb_injective back hregisters))

end MessageBroker.Checksum
