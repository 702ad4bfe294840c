import Mathlib.Data.Nat.Bitwise

/-!
# Fields of a machine word

Decoders read an instruction word through shifts and masks.  These lemmas turn
such a field into a quotient and a remainder of the value of the word, where
linear arithmetic decides how fields overlap.
-/

namespace RetroCpu
namespace BitField

variable {w : Nat}

/-- Masking with `2 ^ k - 1` keeps the value modulo `2 ^ k`. -/
theorem toNat_and_mask (x : BitVec w) (k : Nat) (hk : k < w) :
    (x &&& BitVec.ofNat w (2 ^ k - 1)).toNat = x.toNat % 2 ^ k := by
  have hlt : (2 : Nat) ^ k - 1 < 2 ^ w :=
    lt_of_lt_of_le (Nat.sub_lt (Nat.two_pow_pos k) (by decide))
      (Nat.pow_le_pow_right (by decide) hk.le)
  rw [BitVec.toNat_and, BitVec.toNat_ofNat, Nat.mod_eq_of_lt hlt, Nat.and_two_pow_sub_one_eq_mod]

/-- A field of `k` bits from bit `a` upwards. -/
theorem toNat_field (x : BitVec w) (a k : Nat) (hk : k < w) :
    ((x >>> a) &&& BitVec.ofNat w (2 ^ k - 1)).toNat = x.toNat / 2 ^ a % 2 ^ k := by
  rw [toNat_and_mask _ k hk, BitVec.toNat_ushiftRight, Nat.shiftRight_eq_div_pow]

theorem mask_eq_iff (x : BitVec w) (k c : Nat) (hk : k < w) (hc : c < 2 ^ w) :
    x &&& BitVec.ofNat w (2 ^ k - 1) = BitVec.ofNat w c ↔ x.toNat % 2 ^ k = c := by
  rw [← BitVec.toNat_inj, toNat_and_mask x k hk, BitVec.toNat_ofNat, Nat.mod_eq_of_lt hc]

theorem field_eq_iff (x : BitVec w) (a k c : Nat) (hk : k < w) (hc : c < 2 ^ w) :
    (x >>> a) &&& BitVec.ofNat w (2 ^ k - 1) = BitVec.ofNat w c ↔
      x.toNat / 2 ^ a % 2 ^ k = c := by
  rw [← BitVec.toNat_inj, toNat_field x a k hk, BitVec.toNat_ofNat, Nat.mod_eq_of_lt hc]

/-- Testing one bit. -/
theorem and_bit_eq_zero (x : BitVec w) (k : Nat) (hk : k < w) :
    x &&& BitVec.ofNat w (2 ^ k) = 0 ↔ x.toNat / 2 ^ k % 2 = 0 := by
  have hbit : x.getLsbD k = decide (x.toNat / 2 ^ k % 2 = 1) := by
    rw [BitVec.getLsbD, Nat.testBit_eq_decide_div_mod_eq]
  have hpow : BitVec.ofNat w (2 ^ k) = BitVec.twoPow w k := by
    apply BitVec.eq_of_toNat_eq
    rw [BitVec.toNat_ofNat, BitVec.toNat_twoPow]
  have hne : BitVec.twoPow w k ≠ 0#w := by
    intro h
    have h' := congrArg BitVec.toNat h
    rw [BitVec.toNat_twoPow, Nat.mod_eq_of_lt (Nat.pow_lt_pow_right (by decide) hk)] at h'
    exact absurd h' (Nat.two_pow_pos k).ne'
  rw [hpow, BitVec.and_twoPow, hbit]
  by_cases h1 : x.toNat / 2 ^ k % 2 = 1
  · simpa [h1] using hne
  · have h0 : x.toNat / 2 ^ k % 2 = 0 := by omega
    simp [h0]

end BitField
end RetroCpu
