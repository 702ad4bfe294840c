import Mathlib.Algebra.Order.Ring.Int
import RetroCpu.Lib.CheckedBuild

/-!
# Checked operators on signed numbers

A bit vector of a signed type stands for an integer.  While the integers stay in the range of
the type, the checked operators do to the bit vectors what the operators of the integers do.
-/

namespace RetroCpu
namespace CheckedBuild

variable {S : Type} {w : Nat} {x y : Int}

/-- A number of a signed type of `w` bits. -/
def Fits (w : Nat) (x : Int) : Prop := -2 ^ (w - 1) ≤ x ∧ x < 2 ^ (w - 1)

instance Fits.decidable (w : Nat) (x : Int) : Decidable (Fits w x) :=
  inferInstanceAs (Decidable (_ ∧ _))

theorem toInt_ofInt_of_fits (hw : 0 < w) (h : Fits w x) : (BitVec.ofInt w x).toInt = x :=
  BitVec.toInt_ofInt_eq_self hw h.1 h.2

theorem fits_toInt (hw : 0 < w) (v : BitVec w) : Fits w v.toInt := by
  obtain ⟨n, rfl⟩ : ∃ n, w = n + 1 := ⟨w - 1, by omega⟩
  exact ⟨BitVec.le_toInt v, BitVec.toInt_lt⟩

/-- The low bits of a number that they hold. -/
theorem toInt_setWidth_of_fits {n : Nat} (hn : 0 < n) (hnw : n ≤ w) {v : BitVec w}
    (h : Fits n v.toInt) : (v.setWidth n).toInt = v.toInt := by
  have hlow : v.setWidth n = BitVec.ofInt n v.toInt := by
    rw [← BitVec.signExtend_eq_setWidth_of_le _ hnw]
    rfl
  rw [hlow, toInt_ofInt_of_fits hn h]

section Operators

variable (hw : 0 < w) (hx : Fits w x) (hy : Fits w y) (s : S)

include hw hx hy in
theorem addS_run (h : Fits w (x + y)) :
    (addS (BitVec.ofInt w x) (BitVec.ofInt w y)).run s = .ok (BitVec.ofInt w (x + y), s) := by
  have hrange : BitVec.saddOverflow (BitVec.ofInt w x) (BitVec.ofInt w y) = false := by
    have hlow := h.1
    have hhigh := h.2
    rw [BitVec.saddOverflow, toInt_ofInt_of_fits hw hx, toInt_ofInt_of_fits hw hy]
    simp only [ge_iff_le, Bool.or_eq_false_iff, decide_eq_false_iff_not]
    omega
  rw [BitVec.ofInt_add]
  exact if_pos hrange

include hw hx hy in
theorem subS_run (h : Fits w (x - y)) :
    (subS (BitVec.ofInt w x) (BitVec.ofInt w y)).run s = .ok (BitVec.ofInt w (x - y), s) := by
  have hrange : BitVec.ssubOverflow (BitVec.ofInt w x) (BitVec.ofInt w y) = false := by
    have hlow := h.1
    have hhigh := h.2
    rw [BitVec.ssubOverflow, toInt_ofInt_of_fits hw hx, toInt_ofInt_of_fits hw hy]
    simp only [ge_iff_le, Bool.or_eq_false_iff, decide_eq_false_iff_not]
    omega
  rw [Int.sub_eq_add_neg, BitVec.ofInt_add, BitVec.ofInt_neg, ← BitVec.sub_eq_add_neg]
  exact if_pos hrange

include hw hx hy in
theorem mulS_run (h : Fits w (x * y)) :
    (mulS (BitVec.ofInt w x) (BitVec.ofInt w y)).run s = .ok (BitVec.ofInt w (x * y), s) := by
  have hrange : BitVec.smulOverflow (BitVec.ofInt w x) (BitVec.ofInt w y) = false := by
    have hlow := h.1
    have hhigh := h.2
    rw [BitVec.smulOverflow, toInt_ofInt_of_fits hw hx, toInt_ofInt_of_fits hw hy]
    simp only [ge_iff_le, Bool.or_eq_false_iff, decide_eq_false_iff_not]
    omega
  rw [BitVec.ofInt_mul]
  exact if_pos hrange

include hw hx in
theorem negS_run (h : Fits w (-x)) :
    (negS (BitVec.ofInt w x)).run s = .ok (BitVec.ofInt w (-x), s) := by
  have hrange : BitVec.negOverflow (BitVec.ofInt w x) = false := by
    have hhigh := h.2
    rw [BitVec.negOverflow, toInt_ofInt_of_fits hw hx]
    simp only [beq_eq_false_iff_ne, ne_eq]
    omega
  rw [BitVec.ofInt_neg]
  exact if_pos hrange

/-- The least number of the type has no opposite. -/
theorem negS_least (hw : 0 < w) :
    (negS (BitVec.ofInt w (-2 ^ (w - 1)))).run s = .error .overflow := by
  have hleast : Fits w (-2 ^ (w - 1)) := by
    have hpos : (0 : Int) < 2 ^ (w - 1) := Int.pow_pos (by decide)
    exact ⟨Int.le_refl _, by omega⟩
  have hover : BitVec.negOverflow (BitVec.ofInt w (-2 ^ (w - 1))) = true := by
    rw [BitVec.negOverflow, toInt_ofInt_of_fits hw hleast]
    simp
  exact if_neg (by rw [hover]; exact Bool.noConfusion)

end Operators

theorem ofInt_shiftLeft (x : Int) (k : Nat) :
    BitVec.ofInt w x <<< k = BitVec.ofInt w (x * 2 ^ k) := by
  rw [BitVec.shiftLeft_eq_mul_twoPow, BitVec.ofInt_mul]
  congr 1
  apply BitVec.eq_of_toNat_eq
  rw [BitVec.toNat_twoPow, BitVec.toNat_ofInt]
  have hcast : ((2 : Int) ^ k % ((2 ^ w : Nat) : Int)) = ((2 ^ k % 2 ^ w : Nat) : Int) := by
    push_cast
    rfl
  rw [hcast, Int.toNat_natCast]

section Order

variable (hw : 0 < w) (hx : Fits w x) (hy : Fits w y)

include hw hx hy in
theorem slt_ofInt : (BitVec.ofInt w x).slt (BitVec.ofInt w y) = decide (x < y) := by
  rw [BitVec.slt, toInt_ofInt_of_fits hw hx, toInt_ofInt_of_fits hw hy]

include hw hx hy in
theorem sle_ofInt : (BitVec.ofInt w x).sle (BitVec.ofInt w y) = decide (x ≤ y) := by
  rw [BitVec.sle, toInt_ofInt_of_fits hw hx, toInt_ofInt_of_fits hw hy]

end Order

end CheckedBuild
end RetroCpu
