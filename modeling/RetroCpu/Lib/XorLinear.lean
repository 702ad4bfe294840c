import Mathlib.Data.FinEnum
import Mathlib.Data.Nat.Prime.Basic
import Mathlib.Dynamics.PeriodicPts.Lemmas

/-!
# Maps of words that respect exclusive or, and Galois registers

Such a map is known by its columns, the images of the words with one bit.  `compose` and `power`
work on columns, so that a high iterate is found by squaring.  A register goes through all words
other than 0 in one cycle when the iterate with their number is the identity and no smaller one
fixes 1, which is tested at the prime divisors of that number.
-/

namespace RetroCpu
namespace XorLinear

variable {w : Nat}

/-- The map respects exclusive or. -/
def IsLinear (f : BitVec w → BitVec w) : Prop := ∀ x y, f (x ^^^ y) = f x ^^^ f y

section Columns

/-- The columns of a map: the images of the words with one bit. -/
def columns (f : BitVec w → BitVec w) : List (BitVec w) :=
  (List.range w).map fun i => f (BitVec.twoPow w i)

/-- The map with given columns. -/
def apply : List (BitVec w) → BitVec w → BitVec w
  | [], _ => 0
  | c :: cs, x => (if x.getLsbD 0 then c else 0) ^^^ apply cs (x >>> 1)

/-- The columns of one map after another. -/
def compose (cs ds : List (BitVec w)) : List (BitVec w) := ds.map (apply cs)

/-- The number with given binary digits, the highest first. -/
def value (bits : List Bool) : Nat := bits.foldl (fun n b => 2 * n + b.toNat) 0

/-- The columns of an iterate, its number given by the binary digits. -/
def power (cs : List (BitVec w)) (bits : List Bool) : List (BitVec w) :=
  bits.foldl (fun ds b => if b then compose cs (compose ds ds) else compose ds ds) (columns id)

variable {f g : BitVec w → BitVec w}

theorem IsLinear.zero (hf : IsLinear f) : f 0 = 0 := by
  have h := hf 0 0
  rw [BitVec.xor_self] at h
  exact h.trans BitVec.xor_self

theorem isLinear_id : IsLinear (id : BitVec w → BitVec w) := fun _ _ => rfl

theorem IsLinear.iterate (hf : IsLinear f) (n : Nat) : IsLinear f^[n] := by
  induction n with
  | zero => exact isLinear_id
  | succ n ih =>
      intro x y
      rw [Function.iterate_succ_apply, Function.iterate_succ_apply, Function.iterate_succ_apply,
        hf, ih]

theorem xor_swap (a b c d : BitVec w) : a ^^^ b ^^^ (c ^^^ d) = a ^^^ c ^^^ (b ^^^ d) := by
  ac_rfl

theorem isLinear_apply (cs : List (BitVec w)) : IsLinear (apply cs) := by
  intro x y
  induction cs generalizing x y with
  | nil => exact (BitVec.xor_self).symm
  | cons c cs ih =>
      have hbit : (if (x ^^^ y).getLsbD 0 then c else 0) =
          (if x.getLsbD 0 then c else 0) ^^^ (if y.getLsbD 0 then c else 0) := by
        rw [BitVec.getLsbD_xor]
        cases x.getLsbD 0 <;> cases y.getLsbD 0 <;> simp
      rw [apply, apply, apply, hbit, BitVec.ushiftRight_xor_distrib, ih, xor_swap]

theorem apply_compose (cs ds : List (BitVec w)) (x : BitVec w) :
    apply (compose cs ds) x = apply cs (apply ds x) := by
  induction ds generalizing x with
  | nil => exact (isLinear_apply cs).zero.symm
  | cons d ds ih =>
      rw [compose, List.map_cons, apply, apply, isLinear_apply cs, ← ih (x >>> 1)]
      congr 1
      split
      · rfl
      · exact (isLinear_apply cs).zero.symm

/-- The bits from the `k`-th on, the `k`-th taken apart. -/
theorem shiftRight_step (x : BitVec w) (k : Nat) :
    x >>> k <<< k = (if x.getLsbD k then BitVec.twoPow w k else 0) ^^^ x >>> (k + 1) <<< (k + 1) := by
  apply BitVec.eq_of_getLsbD_eq
  intro i hi
  have hbit : (if x.getLsbD k then BitVec.twoPow w k else 0).getLsbD i =
      (decide (k = i) && x.getLsbD i) := by
    by_cases hki : k = i
    · subst hki
      cases hx : x.getLsbD k <;> simp [hi]
    · cases hx : x.getLsbD k <;> simp [hki]
  rw [BitVec.getLsbD_xor, hbit]
  simp only [BitVec.getLsbD_shiftLeft, BitVec.getLsbD_ushiftRight, hi, decide_true, Bool.true_and]
  rcases Nat.lt_trichotomy i k with hlt | rfl | hgt
  · simp [hlt, Nat.lt_succ_of_lt hlt, Nat.ne_of_gt hlt]
  · simp
  · have hle : ¬ i < k := Nat.not_lt.mpr hgt.le
    have hle' : ¬ i < k + 1 := Nat.not_lt.mpr hgt
    simp [hle, hle', Nat.ne_of_lt hgt, Nat.add_sub_cancel' hgt.le, Nat.add_sub_cancel' hgt]

theorem apply_columns_from (hf : IsLinear f) (x : BitVec w) (m k : Nat) (hm : k + m = w) :
    apply ((List.range' k m).map fun i => f (BitVec.twoPow w i)) (x >>> k) = f (x >>> k <<< k) := by
  induction m generalizing k with
  | zero =>
      have hzero : x >>> k = 0 := by
        rw [Nat.add_zero] at hm
        rw [hm]
        exact BitVec.ushiftRight_eq_zero (Nat.le_refl w)
      rw [hzero]
      exact (hf.zero.symm.trans (congrArg f (BitVec.zero_shiftLeft k).symm))
  | succ m ih =>
      rw [List.range'_succ, List.map_cons, apply, ← BitVec.shiftRight_add,
        ih (k + 1) (by omega), shiftRight_step x k, hf]
      congr 1
      rw [BitVec.getLsbD_ushiftRight, Nat.add_zero]
      split
      · rfl
      · exact hf.zero.symm

theorem apply_columns (hf : IsLinear f) (x : BitVec w) : apply (columns f) x = f x := by
  have h := apply_columns_from hf x w 0 (Nat.zero_add w)
  rwa [← List.range_eq_range', BitVec.ushiftRight_zero, BitVec.shiftLeft_zero] at h

theorem apply_power (hf : IsLinear f) (bits : List Bool) (x : BitVec w) :
    apply (power (columns f) bits) x = f^[value bits] x := by
  induction bits using List.reverseRecOn generalizing x with
  | nil => exact apply_columns isLinear_id x
  | append_singleton bits b ih =>
      have hsquare (y : BitVec w) :
          apply (compose (power (columns f) bits) (power (columns f) bits)) y =
            f^[2 * value bits] y := by
        rw [apply_compose, ih, ih, ← Function.iterate_add_apply, Nat.two_mul]
      have hpower : power (columns f) (bits ++ [b]) =
          if b then compose (columns f) (compose (power (columns f) bits) (power (columns f) bits))
          else compose (power (columns f) bits) (power (columns f) bits) := by
        rw [power, List.foldl_append]
        rfl
      have hvalue : value (bits ++ [b]) = 2 * value bits + b.toNat := by
        rw [value, List.foldl_append]
        rfl
      rw [hpower, hvalue]
      cases b with
      | false => exact hsquare x
      | true =>
          rw [if_pos rfl, apply_compose, apply_columns hf, hsquare]
          exact (Function.iterate_succ_apply' f _ x).symm

end Columns

section Cycles

variable {α : Type} {f : α → α} {x y z : α} {n : Nat}

/-- The period is known from the iterate that returns and from its parts by one prime. -/
theorem minimalPeriod_eq (hn : f^[n] x = x)
    (hparts : ∀ p, p.Prime → p ∣ n → f^[n / p] x ≠ x) : Function.minimalPeriod f x = n := by
  have hdvd : Function.minimalPeriod f x ∣ n := Function.IsPeriodicPt.minimalPeriod_dvd hn
  by_contra hne
  obtain ⟨m, hm⟩ := hdvd
  have hm1 : m ≠ 1 := by
    rintro rfl
    exact hne (by rw [hm, Nat.mul_one])
  obtain ⟨p, hp, q, rfl⟩ := Nat.exists_prime_and_dvd hm1
  have hquot : n / p = Function.minimalPeriod f x * q := by
    rw [hm, Nat.mul_left_comm, Nat.mul_div_cancel_left _ hp.pos]
  refine hparts p hp ⟨Function.minimalPeriod f x * q, by rw [hm, Nat.mul_left_comm]⟩ ?_
  rw [hquot]
  exact (Function.isPeriodicPt_minimalPeriod f x).mul_const q

/-- A cycle with as many points as there are other than the fixed one goes through them all. -/
theorem cycle_covers [Fintype α] (hz : f z = z) (hper : Function.minimalPeriod f x = n)
    (hcard : Fintype.card α = n + 1) (hx : x ≠ z) (hy : y ≠ z) :
    ∃ k < n, f^[k] x = y := by
  classical
  have haway (k : Nat) (hk : k < n) : f^[k] x ≠ z := by
    intro hkz
    have hback : f^[n] x = z := by
      rw [← Nat.sub_add_cancel hk.le, Function.iterate_add_apply, hkz]
      exact Function.iterate_fixed hz _
    rw [← hper, Function.iterate_minimalPeriod] at hback
    exact hx hback
  have hsub : (Finset.range n).image (fun k => f^[k] x) ⊆ Finset.univ.erase z := by
    intro v hv
    obtain ⟨k, hk, rfl⟩ := Finset.mem_image.mp hv
    exact Finset.mem_erase.mpr ⟨haway k (Finset.mem_range.mp hk), Finset.mem_univ _⟩
  have hinj : Set.InjOn (fun k => f^[k] x) (Finset.range n : Set Nat) := by
    intro j hj k hk heq
    refine Function.iterate_injOn_Iio_minimalPeriod (f := f) (x := x) ?_ ?_ heq
    · rw [hper]
      exact Finset.mem_range.mp hj
    · rw [hper]
      exact Finset.mem_range.mp hk
  have hall : (Finset.range n).image (fun k => f^[k] x) = Finset.univ.erase z := by
    refine Finset.eq_of_subset_of_card_le hsub ?_
    rw [Finset.card_image_of_injOn hinj, Finset.card_range,
      Finset.card_erase_of_mem (Finset.mem_univ z), Finset.card_univ, hcard, Nat.add_sub_cancel]
  have hmem : y ∈ (Finset.range n).image (fun k => f^[k] x) := by
    rw [hall]
    exact Finset.mem_erase.mpr ⟨hy, Finset.mem_univ _⟩
  obtain ⟨k, hk, hky⟩ := Finset.mem_image.mp hmem
  exact ⟨k, Finset.mem_range.mp hk, hky⟩

end Cycles

section Registers

/-- A step of a Galois register, which moves to the right. -/
def galois (taps x : BitVec w) : BitVec w := if x.getLsbD 0 then x >>> 1 ^^^ taps else x >>> 1

theorem xor_cancel (a b c : BitVec w) : a ^^^ b = a ^^^ c ^^^ (b ^^^ c) := by
  rw [xor_swap, BitVec.xor_self, BitVec.xor_zero]

theorem isLinear_galois (taps : BitVec w) : IsLinear (galois taps) := by
  intro x y
  rw [galois, galois, galois, BitVec.getLsbD_xor, BitVec.ushiftRight_xor_distrib]
  cases x.getLsbD 0 <;> cases y.getLsbD 0
  · rfl
  · exact BitVec.xor_assoc _ _ _
  · simp only [Bool.xor_false, if_true, Bool.false_eq_true, if_false]
    ac_rfl
  · exact xor_cancel _ _ taps

/-- All words other than 0 stand on one cycle. -/
structure FullCycle (f : BitVec w → BitVec w) : Prop where
  zero : f 0 = 0
  period : ∀ x, x ≠ 0 → Function.minimalPeriod f x = 2 ^ w - 1
  covers : ∀ x y, x ≠ 0 → y ≠ 0 → ∃ k < 2 ^ w - 1, f^[k] x = y

theorem fullCycle {f : BitVec w → BitVec w} (hf : IsLinear f) (hw : 0 < w) (bits : List Bool)
    (hbits : value bits = 2 ^ w - 1) (hid : apply (power (columns f) bits) 1 = 1)
    (hparts : ∀ p, p.Prime → p ∣ 2 ^ w - 1 →
      ∃ bits, value bits = (2 ^ w - 1) / p ∧ apply (power (columns f) bits) 1 ≠ 1) :
    FullCycle f := by
  have hpow : 2 ≤ 2 ^ w := Nat.le_self_pow (Nat.ne_of_gt hw) 2
  have hpos : 0 < 2 ^ w - 1 := by omega
  have hone : (1 : BitVec w) ≠ 0 := by
    intro h
    have h1 : 1 % 2 ^ w = 0 % 2 ^ w := congrArg BitVec.toNat h
    rw [Nat.mod_eq_of_lt hpow, Nat.zero_mod] at h1
    exact absurd h1 Nat.one_ne_zero
  have hperiod : Function.minimalPeriod f 1 = 2 ^ w - 1 := by
    refine minimalPeriod_eq ?_ fun p hp hdvd => ?_
    · rw [← hbits, ← apply_power hf]
      exact hid
    · obtain ⟨bits', hbits', hne⟩ := hparts p hp hdvd
      rw [← hbits', ← apply_power hf]
      exact hne
  have hcard : Fintype.card (BitVec w) = 2 ^ w - 1 + 1 := by
    rw [← FinEnum.card_eq_fintypeCard, FinEnum.card_bitVec]
    omega
  have hcovers {y : BitVec w} (hy : y ≠ 0) : ∃ k < 2 ^ w - 1, f^[k] 1 = y :=
    cycle_covers hf.zero hperiod hcard hone hy
  have hmem : (1 : BitVec w) ∈ Function.periodicPts f :=
    Function.minimalPeriod_pos_iff_mem_periodicPts.mp (hperiod ▸ hpos)
  have hall (x : BitVec w) (hx : x ≠ 0) : Function.minimalPeriod f x = 2 ^ w - 1 := by
    obtain ⟨k, _, rfl⟩ := hcovers hx
    rw [Function.minimalPeriod_apply_iterate hmem, hperiod]
  exact ⟨hf.zero, hall, fun x y hx hy => cycle_covers hf.zero (hall x hx) hcard hx hy⟩

namespace FullCycle

variable {f : BitVec w → BitVec w} {x y : BitVec w}

theorem pos (h : FullCycle f) (hx : x ≠ 0) : 0 < 2 ^ w - 1 := by
  obtain ⟨k, hk, -⟩ := h.covers x x hx hx
  exact Nat.zero_lt_of_lt hk

theorem iterate_eq_iff (h : FullCycle f) (hx : x ≠ 0) (i j : Nat) :
    f^[i] x = f^[j] x ↔ i % (2 ^ w - 1) = j % (2 ^ w - 1) := by
  have hpos := h.pos hx
  rw [← h.period x hx] at hpos ⊢
  rw [← Function.iterate_mod_minimalPeriod_eq (n := i),
    ← Function.iterate_mod_minimalPeriod_eq (n := j)]
  exact Function.iterate_eq_iterate_iff_of_lt_minimalPeriod (Nat.mod_lt i hpos) (Nat.mod_lt j hpos)

/-- A register that does not stand at 0 never comes there. -/
theorem iterate_ne_zero (h : FullCycle f) (hx : x ≠ 0) (i : Nat) : f^[i] x ≠ 0 := by
  intro hzero
  obtain ⟨m, hm⟩ : ∃ m, i + m = (2 ^ w - 1) * (i + 1) := by
    refine ⟨(2 ^ w - 1) * (i + 1) - i, Nat.add_sub_cancel' ?_⟩
    exact (Nat.le_succ i).trans (Nat.le_mul_of_pos_left _ (h.pos hx))
  have hback : f^[i + m] x = x := by
    rw [hm, ← h.period x hx]
    exact (Function.isPeriodicPt_minimalPeriod f x).mul_const (i + 1)
  rw [Nat.add_comm, Function.iterate_add_apply, hzero, Function.iterate_fixed h.zero] at hback
  exact hx hback.symm

end FullCycle

end Registers

end XorLinear
end RetroCpu
