import Mathlib.Algebra.Order.Ring.Int
import Mathlib.Logic.Relation
import Mathlib.Tactic.Ring

/-!
# Words, carries and chains of digits

A word of `b` values holds a number modulo `b`.  This module states when a sum or a
difference that was computed in words is exact, and what a chain of digit-wise steps
computes, where each step hands a carry to the next:

* `signed` reads a word in two's complement, `Fits` says that a number has such a word;
* `Columns` are the steps of a chain, `Columns.value_eq` and `Columns.carry_eq` its result;
* `Chain` is a run of a machine whose steps compute the digits, with other steps between
  them that keep the carry.

The columns of an addition are the sums of two digits, those of a subtraction the
differences; a borrow is a negative carry.
-/

namespace RetroCpu
namespace Carry

section Words

/-- The word `x` of `b` values, read in two's complement. -/
def signed (b x : Int) : Int := if 2 * x < b then x else x - b

/-- The number `x` has a two's complement word of `b` values. -/
def Fits (b x : Int) : Prop := -b ≤ 2 * x ∧ 2 * x < b

instance (b x : Int) : Decidable (Fits b x) := instDecidableAnd

end Words

section Columns

/-- The value of digits in base `b`, the least significant digit first. -/
def value (b : Int) : List Int → Int
  | [] => 0
  | d :: ds => d + b * value b ds

@[simp] theorem value_nil (b : Int) : value b [] = 0 := rfl

@[simp] theorem value_cons (b d : Int) (ds : List Int) :
    value b (d :: ds) = d + b * value b ds := rfl

/-- Columns made of two digits each, the second with a factor. -/
theorem value_columns (b c : Int) {xs ys : List Int} (h : xs.length = ys.length) :
    value b ((xs.zip ys).map fun p => p.1 + c * p.2) = value b xs + c * value b ys := by
  induction xs generalizing ys with
  | nil =>
      cases ys with
      | nil => simp
      | cons y ys => cases h
  | cons x xs ih =>
      cases ys with
      | nil => cases h
      | cons y ys =>
          rw [List.zip_cons_cons, List.map_cons, value_cons, value_cons, value_cons,
            ih (Nat.succ.inj h)]
          ring

/-- One column: the digit `d` and the outgoing carry `k'` of the value `z` with the
incoming carry `k`. -/
structure Column (b k z d k' : Int) : Prop where
  digit_nonneg : 0 ≤ d
  digit_lt : d < b
  sum : d + b * k' = z + k

/-- A chain of columns, the least significant one first. -/
inductive Columns (b : Int) : Int → List Int → List Int → Int → Prop
  | nil (k : Int) : Columns b k [] [] k
  | cons {k z d k' k'' : Int} {zs ds : List Int} (head : Column b k z d k')
      (tail : Columns b k' zs ds k'') : Columns b k (z :: zs) (d :: ds) k''

variable {b k k' : Int} {zs ds : List Int}

theorem Columns.length_eq (h : Columns b k zs ds k') : ds.length = zs.length := by
  induction h with
  | nil => rfl
  | cons _ _ ih => rw [List.length_cons, List.length_cons, ih]

/-- The digits and the last carry make up the value of the columns. -/
theorem Columns.sum (h : Columns b k zs ds k') :
    value b ds + b ^ zs.length * k' = value b zs + k := by
  induction h with
  | nil k => simp
  | @cons k z d k' k'' zs ds head tail ih =>
      calc value b (d :: ds) + b ^ (z :: zs).length * k''
          = d + b * (value b ds + b ^ zs.length * k'') := by
            rw [value_cons, List.length_cons, pow_succ]
            ring
        _ = d + b * (value b zs + k') := by rw [ih]
        _ = (d + b * k') + b * value b zs := by ring
        _ = value b (z :: zs) + k := by
            rw [head.sum, value_cons]
            ring

theorem Columns.value_bounds (h : Columns b k zs ds k') (hb : 0 < b) :
    0 ≤ value b ds ∧ value b ds < b ^ zs.length := by
  induction h with
  | nil => simp
  | @cons k z d k' k'' zs ds head tail ih =>
      obtain ⟨h0, hlt⟩ := ih
      have hd0 := head.digit_nonneg
      have hd := head.digit_lt
      have hmul : 0 ≤ b * value b ds := mul_nonneg hb.le h0
      have hstep : b * (value b ds + 1) ≤ b * b ^ zs.length :=
        mul_le_mul_of_nonneg_left hlt hb.le
      rw [mul_add, mul_one] at hstep
      rw [value_cons, List.length_cons, pow_succ, mul_comm (b ^ zs.length) b]
      constructor <;> omega

variable (h : Columns b k zs ds k') (hb : 0 < b)
include h hb

/-- The digits are the value of the columns modulo the width of the chain. -/
theorem Columns.value_eq : value b ds = (value b zs + k) % b ^ zs.length := by
  obtain ⟨h0, hlt⟩ := h.value_bounds hb
  rw [← h.sum, Int.add_mul_emod_self_left, Int.emod_eq_of_lt h0 hlt]

/-- The last carry is what the digits do not hold. -/
theorem Columns.carry_eq : k' = (value b zs + k) / b ^ zs.length := by
  obtain ⟨h0, hlt⟩ := h.value_bounds hb
  have hpos : (0 : Int) < b ^ zs.length := pow_pos hb _
  rw [← h.sum, Int.add_mul_ediv_left _ _ hpos.ne', Int.ediv_eq_zero_of_lt h0 hlt, zero_add]

omit h hb in
/-- The last carry `f`, or none, says whether the number `z` is out of the range of `w`
values. -/
theorem carry_iff {f z w : Int} {E : Bool} (hf : f = 1 ∨ f = -1) (hw : 0 < w)
    (hcarry : f * (if E = true then 1 else 0) = z / w) : E = true ↔ z < 0 ∨ w ≤ z := by
  have hlow := Int.mul_ediv_self_le hw.ne' (x := z)
  have hhigh := Int.lt_mul_ediv_self_add hw (x := z)
  rw [← hcarry] at hlow hhigh
  cases E with
  | false =>
      simp only [Bool.false_eq_true, if_false, mul_zero] at hlow hhigh
      exact iff_of_false Bool.false_ne_true (by omega)
  | true =>
      refine iff_of_true rfl ?_
      rcases hf with rfl | rfl
      · simp only [if_true, mul_one] at hlow hhigh
        exact .inr hlow
      · simp only [if_true, mul_one, mul_neg] at hlow hhigh
        exact .inl (by omega)

end Columns

section Chain

variable {S κ δ : Type} (between : S → S → Prop) (step : S → S → κ → δ → Prop)

/-- A run that computes one digit after the other: before each digit any number of steps
`between`, then a step that turns the operands `x` of a column into a digit `d`. -/
inductive Chain : S → List κ → List δ → S → Prop
  | nil (s : S) : Chain s [] [] s
  | cons {s t u v : S} {x : κ} {d : δ} {xs : List κ} {ds : List δ}
      (before : Relation.ReflTransGen between s t) (head : step t u x d)
      (tail : Chain u xs ds v) : Chain s (x :: xs) (d :: ds) v

variable {between : S → S → Prop} {step : S → S → κ → δ → Prop} {carry : S → Int}
  {column : κ → Int} {digit : δ → Int} {b : Int} (hkeep : ∀ s t, between s t → carry t = carry s)
include hkeep

theorem carry_between {s t : S} (h : Relation.ReflTransGen between s t) :
    carry t = carry s := by
  induction h with
  | refl => rfl
  | tail _ hstep ih => rw [hkeep _ _ hstep, ih]

/-- A run whose steps compute columns, and keep the carry between them, computes a chain
of columns. -/
theorem Chain.columns {s v : S} {xs : List κ} {ds : List δ}
    (hstep : ∀ t u x d, step t u x d → Column b (carry t) (column x) (digit d) (carry u))
    (h : Chain between step s xs ds v) :
    Columns b (carry s) (xs.map column) (ds.map digit) (carry v) := by
  induction h with
  | nil s => exact .nil _
  | @cons s t u v x d xs ds before head tail ih =>
      have hcolumn := hstep t u x d head
      rw [carry_between hkeep before] at hcolumn
      exact .cons hcolumn ih

end Chain

end Carry
end RetroCpu
