import RetroCpu.EmuRs.Tms9995Runs
import RetroCpu.Lib.SignedChecked

/-!
# Divisions of the Rust TMS9995 core

`div_overflow` and `divs_overflow` decide before the division whether the quotient fits in a
word.  They are right for every dividend and divisor, except that the negation in
`divs_overflow` overflows for the least dividend of 32 bits.
-/

namespace RetroCpu
namespace EmuRs
namespace Tms9995

open CheckedBuild

variable {β κ S : Type}

section Quotients

variable {d m : Int}

/-- The bound of `divs_overflow` for a dividend and a divisor of the given signs. -/
def quotientBound (d m : Int) : Int :=
  if 0 ≤ d then
    if 0 < m then m * 2 ^ 15 - 1 else -m * 2 ^ 15 + -m - 1
  else if 0 < m then m * 2 ^ 15 + m - 1
  else -m * 2 ^ 15 - 1

theorem natAbs_tdiv_lt (hm : m ≠ 0) (n : Nat) : (d.tdiv m).natAbs < n ↔ d.natAbs < n * m.natAbs := by
  rw [Int.natAbs_tdiv]
  exact Nat.div_lt_iff_lt_mul (Int.natAbs_pos.mpr hm)

theorem tdiv_sign (d m : Int) :
    (0 ≤ d ∧ 0 < m ∨ d < 0 ∧ m < 0 → 0 ≤ d.tdiv m) ∧
      (0 ≤ d ∧ m < 0 ∨ d < 0 ∧ 0 < m → d.tdiv m ≤ 0) := by
  constructor
  · rintro (⟨hd, hm⟩ | ⟨hd, hm⟩)
    · exact Int.tdiv_nonneg hd (Int.le_of_lt hm)
    · rw [← Int.neg_tdiv_neg]
      exact Int.tdiv_nonneg (by omega) (by omega)
  · rintro (⟨hd, hm⟩ | ⟨hd, hm⟩)
    · exact Int.tdiv_nonpos_of_nonneg_of_nonpos hd (Int.le_of_lt hm)
    · rw [← Int.neg_tdiv_neg]
      exact Int.tdiv_nonpos_of_nonneg_of_nonpos (by omega) (by omega)

/-- The quotient is a signed word exactly when the dividend is within the bound. -/
theorem fits_tdiv_iff (hm : m ≠ 0) :
    Fits 16 (d.tdiv m) ↔ (if 0 ≤ d then d else -d) ≤ quotientBound d m := by
  have hlow := natAbs_tdiv_lt (d := d) hm (2 ^ 15)
  have hhigh := natAbs_tdiv_lt (d := d) hm (2 ^ 15 + 1)
  obtain ⟨hnonneg, hnonpos⟩ := tdiv_sign d m
  unfold quotientBound Fits
  rcases lt_or_ge d 0 with hd | hd <;> rcases lt_or_gt_of_ne hm with hm' | hm'
  · have hq := hnonneg (.inr ⟨hd, hm'⟩)
    rw [if_neg (by omega), if_neg (by omega), if_neg (by omega)]
    omega
  · have hq := hnonpos (.inr ⟨hd, hm'⟩)
    rw [if_neg (by omega), if_neg (by omega), if_pos hm']
    omega
  · have hq := hnonpos (.inl ⟨hd, hm'⟩)
    rw [if_pos hd, if_pos hd, if_neg (by omega)]
    omega
  · have hq := hnonneg (.inl ⟨hd, hm'⟩)
    rw [if_pos hd, if_pos hd, if_pos hm']
    omega

end Quotients

section Overflow

variable (w1 w2 divisor : U16)

theorem join_words : (w1.setWidth 32 <<< 16 ||| w2.setWidth 32 : U32) = w1 ++ w2 := by
  apply BitVec.eq_of_getLsbD_eq
  intro i hi
  simp only [BitVec.getLsbD_or, BitVec.getLsbD_shiftLeft, BitVec.getLsbD_setWidth,
    BitVec.getLsbD_append]
  by_cases h : i < 16
  · simp [h, hi]
  · have h2 : w2.getLsbD i = false := BitVec.getLsbD_of_ge _ _ (by omega)
    simp [h, hi, h2, show i - 16 < 32 by omega]

theorem fits_word (v : U16) : Fits 32 v.toInt := by
  obtain ⟨hlow, hhigh⟩ := fits_toInt (by decide) v
  exact ⟨by omega, by omega⟩

/-- The test of `divs_overflow` for a dividend that has an opposite. -/
theorem divsOverflow_run (h : divisor.toInt = 0 ∨ (w1 ++ w2).toInt ≠ -2 ^ 31) (s : S) :
    (divsOverflow w1 w2 divisor : PanicM S Bool).run s =
      .ok (decide (divisor.toInt = 0 ∨ ¬ Fits 16 ((w1 ++ w2).toInt.tdiv divisor.toInt)), s) := by
  have hm := fits_word divisor
  have hd : Fits 32 (w1 ++ w2).toInt := fits_toInt (by decide) (w1 ++ w2)
  obtain ⟨hmlow, hmhigh⟩ := fits_toInt (by decide) divisor
  have hdivs : (divisor.signExtend 32 : U32) = BitVec.ofInt 32 divisor.toInt := rfl
  have hdividend : w1 ++ w2 = BitVec.ofInt 32 (w1 ++ w2).toInt := (BitVec.ofInt_toInt).symm
  have hzero : (0 : U32) = BitVec.ofInt 32 0 := rfl
  have hone : (1 : U32) = BitVec.ofInt 32 1 := rfl
  have hfits0 : Fits 32 0 := by decide
  have hfits1 : Fits 32 1 := by decide
  rw [divsOverflow, join_words, hdivs, hzero, hone]
  generalize (w1 ++ w2).toInt = d at h hd hdividend
  rw [hdividend]
  generalize divisor.toInt = m at h hm hmlow hmhigh
  by_cases hm0 : m = 0
  · rw [if_pos (congrArg _ hm0), decide_eq_true (.inl hm0)]
    rfl
  have hne : BitVec.ofInt 32 m ≠ BitVec.ofInt 32 0 := by
    intro heq
    have heq := congrArg BitVec.toInt heq
    rw [toInt_ofInt_of_fits (by decide) hm, toInt_ofInt_of_fits (by decide) hfits0] at heq
    exact hm0 heq
  have hmin := h.resolve_left hm0
  have hiff := fits_tdiv_iff (d := d) hm0
  have hquotient : (m = 0 ∨ ¬ Fits 16 (d.tdiv m)) ↔
      quotientBound d m < if 0 ≤ d then d else -d := by
    rw [hiff]
    omega
  unfold quotientBound at hquotient
  obtain ⟨hdlow, hdhigh⟩ := hd
  rw [if_neg hne, sle_ofInt (by decide) hfits0 ⟨hdlow, hdhigh⟩, slt_ofInt (by decide) hfits0 hm,
    ofInt_shiftLeft]
  by_cases hd0 : 0 ≤ d <;> by_cases hmpos : 0 < m
  · have hbound : Fits 32 (m * 2 ^ 15 - 1) := ⟨by omega, by omega⟩
    rw [if_pos hd0, if_pos hmpos, if_pos hd0] at hquotient
    rw [if_pos (decide_eq_true hd0), if_pos (decide_eq_true hmpos), run_bind_ok (subS_run (by decide) ⟨by omega, by omega⟩ hfits1 s hbound),
      slt_ofInt (by decide) hbound ⟨hdlow, hdhigh⟩]
    exact congrArg (fun b => Except.ok (b, s)) (decide_eq_decide.mpr hquotient.symm)
  · have hneg : Fits 32 (-m) := ⟨by omega, by omega⟩
    have hshift : Fits 32 (-m * 2 ^ 15) := ⟨by omega, by omega⟩
    have hsum : Fits 32 (-m * 2 ^ 15 + -m) := ⟨by omega, by omega⟩
    have hbound : Fits 32 (-m * 2 ^ 15 + -m - 1) := ⟨by omega, by omega⟩
    rw [if_pos hd0, if_neg hmpos, if_pos hd0] at hquotient
    rw [if_pos (decide_eq_true hd0), if_neg (by simpa using hmpos), run_bind_ok (negS_run (by decide) hm s hneg),
      run_bind_ok (negS_run (by decide) hm s hneg), ofInt_shiftLeft,
      run_bind_ok (addS_run (by decide) hshift hneg s hsum),
      run_bind_ok (subS_run (by decide) hsum hfits1 s hbound),
      slt_ofInt (by decide) hbound ⟨hdlow, hdhigh⟩]
    exact congrArg (fun b => Except.ok (b, s)) (decide_eq_decide.mpr hquotient.symm)
  · have hneg : Fits 32 (-d) := ⟨by omega, by omega⟩
    have hshift : Fits 32 (m * 2 ^ 15) := ⟨by omega, by omega⟩
    have hsum : Fits 32 (m * 2 ^ 15 + m) := ⟨by omega, by omega⟩
    have hbound : Fits 32 (m * 2 ^ 15 + m - 1) := ⟨by omega, by omega⟩
    rw [if_neg hd0, if_pos hmpos, if_neg hd0] at hquotient
    rw [if_neg (by simpa using hd0),
      run_bind_ok (negS_run (by decide) ⟨hdlow, hdhigh⟩ s hneg), if_pos (decide_eq_true hmpos),
      run_bind_ok (addS_run (by decide) hshift hm s hsum),
      run_bind_ok (subS_run (by decide) hsum hfits1 s hbound),
      slt_ofInt (by decide) hbound hneg]
    exact congrArg (fun b => Except.ok (b, s)) (decide_eq_decide.mpr hquotient.symm)
  · have hneg : Fits 32 (-d) := ⟨by omega, by omega⟩
    have hnegm : Fits 32 (-m) := ⟨by omega, by omega⟩
    have hshift : Fits 32 (-m * 2 ^ 15) := ⟨by omega, by omega⟩
    have hbound : Fits 32 (-m * 2 ^ 15 - 1) := ⟨by omega, by omega⟩
    rw [if_neg hd0, if_neg hmpos, if_neg hd0] at hquotient
    rw [if_neg (by simpa using hd0),
      run_bind_ok (negS_run (by decide) ⟨hdlow, hdhigh⟩ s hneg), if_neg (by simpa using hmpos),
      run_bind_ok (negS_run (by decide) hm s hnegm), ofInt_shiftLeft,
      run_bind_ok (subS_run (by decide) hshift hfits1 s hbound),
      slt_ofInt (by decide) hbound hneg]
    exact congrArg (fun b => Except.ok (b, s)) (decide_eq_decide.mpr hquotient.symm)

/-- The least dividend has no opposite. -/
theorem divsOverflow_least (hm : divisor.toInt ≠ 0) (h : (w1 ++ w2).toInt = -2 ^ 31) (s : S) :
    (divsOverflow w1 w2 divisor : PanicM S Bool).run s = .error .overflow := by
  have hm32 := fits_word divisor
  have hdivs : (divisor.signExtend 32 : U32) = BitVec.ofInt 32 divisor.toInt := rfl
  have hdividend : w1 ++ w2 = BitVec.ofInt 32 (-2 ^ 31) := by
    rw [← h, BitVec.ofInt_toInt]
  have hne : BitVec.ofInt 32 divisor.toInt ≠ (0 : U32) := by
    intro heq
    have heq := congrArg BitVec.toInt heq
    rw [toInt_ofInt_of_fits (by decide) hm32] at heq
    exact hm heq
  rw [divsOverflow, join_words, hdivs, hdividend, if_neg hne, if_neg (by decide)]
  exact run_bind_error (negS_least s (by decide))

end Overflow

section Instructions

/-- The two divisions. -/
inductive DivOp where
  | div
  | divs
deriving DecidableEq, Repr

namespace DivOp

variable (op : DivOp) (bus : Tms9995Bus β)

/-- The code of a division. -/
def divide : U16 → M β κ Unit :=
  match op with
  | div => execDiv bus
  | divs => execDivs bus

/-- The code of the multiplication that a division undoes. -/
def multiply : U16 → M β κ Unit :=
  match op with
  | div => execMpy bus
  | divs => execMpys bus

/-- The number that the bits stand for. -/
def value {w : Nat} (v : BitVec w) : Int :=
  match op with
  | div => v.toNat
  | divs => v.toInt

/-- A number that one word holds. -/
def FitsWord (q : Int) : Prop :=
  match op with
  | div => 0 ≤ q ∧ q < 2 ^ 16
  | divs => Fits 16 q

instance FitsWord.decidable (q : Int) : Decidable (op.FitsWord q) :=
  match op with
  | div => inferInstanceAs (Decidable (_ ∧ _))
  | divs => Fits.decidable 16 q

/-- The dividend in R0 and R1. -/
def dividend (t : Core β κ) : Int := op.value (t.reg bus 0 ++ t.reg bus 1)

/-- The number that the operand of the instruction word stands for. -/
def operand (ir : U16) (s : Core β κ) : Int :=
  op.value (wordAt bus (sourceOf bus ir false s).2 (sourceOf bus ir false s).1)

/-- What a division in range leaves of the state `t` behind its operand. -/
structure Divided (d m : Int) (t s' : Core β κ) : Prop where
  quotient : op.value (s'.reg bus 0) = d.tdiv m
  product : d = op.value (s'.reg bus 0) * m + op.value (s'.reg bus 1)
  remainder : (op.value (s'.reg bus 1)).natAbs < m.natAbs
  sign : op.value (s'.reg bus 1) ≠ 0 → (op.value (s'.reg bus 1) < 0 ↔ d < 0)
  status : s'.st = t.st &&& ~~~ST_OV
  others : ∀ n, 2 ≤ n → n < 16 → s'.reg bus n = t.reg bus n

/-- The division returns, sets OV alone when the quotient is not a word, and divides
exactly otherwise. -/
def Exact (ir : U16) (s : Core β κ) : Prop :=
  let t := (sourceOf bus ir false s).2
  let d := op.dividend bus t
  let m := op.operand bus ir s
  if m = 0 ∨ ¬ op.FitsWord (d.tdiv m) then
    (op.divide bus ir).run s = .ok ((), { t with st := t.st ||| ST_OV })
  else ∃ s', (op.divide bus ir).run s = .ok ((), s') ∧ op.Divided bus d m t s'

/-- Behind a multiplication by `m`, the division of its R0 and R1 by `m` clears OV and gives
back what R0 was, with remainder 0. -/
def Restores (ir : U16) (s : Core β κ) : Prop :=
  op.operand bus ir s ≠ 0 →
    ∃ s1, (op.multiply bus ir).run s = .ok ((), s1) ∧
      ∀ (ir' : U16) (s2 : Core β κ), op.operand bus ir' s2 = op.operand bus ir s →
        op.dividend bus (sourceOf bus ir' false s2).2 = op.dividend bus s1 →
        ∃ s3, (op.divide bus ir').run s2 = .ok ((), s3) ∧ flag s3.st ST_OV = false ∧
          s3.reg bus 0 = (sourceOf bus ir false s).2.reg bus 0 ∧ s3.reg bus 1 = 0

end DivOp

section Registers

theorem regAt_even {n : Nat} (hn : n < 16) (s : Core β κ) :
    (s.regAt n &&& 0xfffe).toNat = (s.wp.toNat / 2 * 2 + n * 2) % 2 ^ 16 := by
  have hwp := s.wp.isLt
  have h2 : (2 : U16).toNat = 2 := rfl
  rw [and_fffe, Core.regAt, BitVec.toNat_add, BitVec.toNat_mul, BitVec.toNat_ofNat, h2]
  omega

theorem regAt_even_inj {n k : Nat} (hn : n < 16) (hk : k < 16) {s : Core β κ}
    (h : s.regAt n &&& 0xfffe = s.regAt k &&& 0xfffe) : n = k := by
  have h := congrArg BitVec.toNat h
  rw [regAt_even hn, regAt_even hk] at h
  omega

/-- The state behind a write to a workspace register. -/
def Core.setReg (bus : Tms9995Bus β) (s : Core β κ) (n : Nat) (v : U16) : Core β κ :=
  { s with mem := bus.writeWord s.mem (s.regAt n) v }

variable {bus : Tms9995Bus β} {n : Nat}

theorem setReg_run (hn : n < 16) (v : U16) (s : Core β κ) :
    (writeReg bus n v).run s = .ok ((), s.setReg bus n v) :=
  writeReg_run bus hn v s

theorem reg_setReg (hmem : bus.Memory) {k : Nat} (hn : n < 16) (hk : k < 16) (v : U16)
    (s : Core β κ) : (s.setReg bus n v).reg bus k = if k = n then v else s.reg bus k := by
  have hread := hmem.readWord_writeWord s.mem (s.regAt n) v (s.regAt k)
  refine hread.trans ?_
  by_cases hkn : k = n
  · rw [if_pos hkn, hkn, if_pos rfl]
  · rw [if_neg hkn, if_neg fun h => hkn (regAt_even_inj hk hn h)]
    rfl

/-- The end of a division in range. -/
def store (bus : Tms9995Bus β) (q r : U16) : M β κ Unit := do
  setSt fun st => st &&& ~~~ST_OV
  writeReg bus 0 q
  writeReg bus 1 r

theorem store_run (hmem : bus.Memory) (q r : U16) (t : Core β κ) :
    ∃ s', (store bus q r).run t = .ok ((), s') ∧ s'.reg bus 0 = q ∧ s'.reg bus 1 = r ∧
      s'.st = t.st &&& ~~~ST_OV ∧ ∀ n, 2 ≤ n → n < 16 → s'.reg bus n = t.reg bus n := by
  have hrun : (store bus q r).run t = .ok ((), _) :=
    (run_bind_ok (setSt_run _ t)).trans ((run_bind_ok (setReg_run (by decide) q _)).trans
      (setReg_run (by decide) r _))
  refine ⟨_, hrun, ?_, ?_, rfl, ?_⟩
  · rw [reg_setReg hmem (by decide) (by decide), if_neg (by decide),
      reg_setReg hmem (by decide) (by decide), if_pos rfl]
  · rw [reg_setReg hmem (by decide) (by decide), if_pos rfl]
  · intro n hlow hn
    rw [reg_setReg hmem (by decide) hn, if_neg (by omega),
      reg_setReg hmem (by decide) hn, if_neg (by omega)]
    rfl

end Registers

section Quotient

variable {d m : Int}

/-- Quotient and remainder of a division that truncates. -/
theorem tdiv_tmod (d : Int) (hm : m ≠ 0) :
    d = d.tdiv m * m + d.tmod m ∧ (d.tmod m).natAbs < m.natAbs ∧
      (d.tmod m ≠ 0 → (d.tmod m < 0 ↔ d < 0)) := by
  refine ⟨?_, ?_, ?_⟩
  · have := Int.mul_tdiv_add_tmod d m
    rw [Int.mul_comm]
    exact this.symm
  · rw [Int.natAbs_tmod]
    exact Nat.mod_lt _ (Int.natAbs_pos.mpr hm)
  · intro hne
    rcases lt_or_ge d 0 with hd | hd
    · have hneg := Int.tmod_nonneg m (a := -d) (by omega)
      rw [Int.neg_tmod] at hneg
      omega
    · have := Int.tmod_nonneg m hd
      omega

end Quotient

section Words

variable {hi lo m : U16}

theorem toNat_words (hi lo : U16) : (hi ++ lo).toNat = hi.toNat * 2 ^ 16 + lo.toNat := by
  rw [BitVec.toNat_append, ← Nat.shiftLeft_add_eq_or_of_lt lo.isLt, Nat.shiftLeft_eq]

theorem toInt_words (hi lo : U16) : (hi ++ lo).toInt = hi.toInt * 2 ^ 16 + lo.toNat := by
  have hhi := hi.isLt
  have hlo := lo.isLt
  rw [BitVec.toInt_eq_toNat_cond, toNat_words, BitVec.toInt_eq_toNat_cond]
  split_ifs <;> push_cast <;> omega

/-- The test of `div_overflow` is right. -/
theorem divOverflow_eq :
    divOverflow hi lo m =
      decide ((m.toNat : Int) = 0 ∨ ¬ DivOp.div.FitsWord (((hi ++ lo).toNat : Int).tdiv m.toNat)) := by
  have hdiv : (((hi ++ lo).toNat : Int).tdiv m.toNat) = ((hi ++ lo).toNat / m.toNat : Nat) := rfl
  rw [divOverflow, hdiv, toNat_words]
  by_cases hm : m = 0
  · rw [if_pos hm, hm]
    rfl
  have hpos : 0 < m.toNat := Nat.pos_of_ne_zero fun h => hm (BitVec.eq_of_toNat_eq h)
  have hlo := lo.isLt
  have hlt : (hi.toNat * 2 ^ 16 + lo.toNat) / m.toNat < 2 ^ 16 ↔ hi.toNat < m.toNat := by
    rw [Nat.div_lt_iff_lt_mul hpos]
    omega
  rw [if_neg hm]
  apply decide_eq_decide.mpr
  rw [ge_iff_le, BitVec.le_def]
  simp only [DivOp.FitsWord]
  generalize (hi.toNat * 2 ^ 16 + lo.toNat) / m.toNat = q at hlt
  omega

/-- Quotient and remainder of unsigned words. -/
theorem unsigned_words (hm : (m.toNat : Int) ≠ 0)
    (hfits : DivOp.div.FitsWord (((hi ++ lo).toNat : Int).tdiv m.toNat)) :
    DivOp.div.value (((hi ++ lo) / m.setWidth 32 : U32).setWidth 16 : U16) =
        ((hi ++ lo).toNat : Int).tdiv m.toNat ∧
      DivOp.div.value (((hi ++ lo) % m.setWidth 32 : U32).setWidth 16 : U16) =
        ((hi ++ lo).toNat : Int).tmod m.toNat := by
  have hwide : (m.setWidth 32 : U32).toNat = m.toNat := BitVec.toNat_setWidth_of_le (by decide)
  have hmod : (hi ++ lo).toNat % m.toNat < m.toNat := Nat.mod_lt _ (by omega)
  have hlt := m.isLt
  have hq : (hi ++ lo).toNat / m.toNat < 2 ^ 16 := Int.ofNat_lt.mp hfits.2
  refine ⟨congrArg Int.ofNat ?_, congrArg Int.ofNat ?_⟩
  · rw [BitVec.toNat_setWidth, BitVec.toNat_udiv, hwide]
    exact Nat.mod_eq_of_lt hq
  · rw [BitVec.toNat_setWidth, BitVec.toNat_umod, hwide]
    exact Nat.mod_eq_of_lt (by omega)

/-- Quotient and remainder of signed words. -/
theorem signed_words (hm : m.toInt ≠ 0) (hfits : Fits 16 ((hi ++ lo).toInt.tdiv m.toInt)) :
    ((m.signExtend 32 : U32) ≠ 0 ∧ BitVec.sdivOverflow (hi ++ lo) (m.signExtend 32) = false) ∧
      DivOp.divs.value (((hi ++ lo).sdiv (m.signExtend 32)).setWidth 16 : U16) =
        (hi ++ lo).toInt.tdiv m.toInt ∧
      DivOp.divs.value (((hi ++ lo).srem (m.signExtend 32)).setWidth 16 : U16) =
        (hi ++ lo).toInt.tmod m.toInt := by
  have hwide : (m.signExtend 32 : U32).toInt = m.toInt :=
    BitVec.toInt_signExtend_of_le (by decide)
  obtain ⟨hlow, hhigh⟩ := fits_toInt (by decide) m
  obtain ⟨-, hmod, -⟩ := tdiv_tmod (hi ++ lo).toInt hm
  have hq : ((hi ++ lo).sdiv (m.signExtend 32)).toInt = (hi ++ lo).toInt.tdiv m.toInt := by
    rw [BitVec.toInt_sdiv, hwide]
    exact Int.bmod_eq_of_le (by have := hfits.1; omega) (by have := hfits.2; omega)
  have hr : ((hi ++ lo).srem (m.signExtend 32)).toInt = (hi ++ lo).toInt.tmod m.toInt := by
    rw [BitVec.toInt_srem, hwide]
  refine ⟨⟨?_, ?_⟩, ?_, ?_⟩
  · intro h
    rw [h] at hwide
    exact hm hwide.symm
  · rw [BitVec.sdivOverflow_eq]
    by_contra hover
    obtain ⟨hleast, hones⟩ := by simpa using hover
    have hmone : m.toInt = -1 := by rw [← hwide, hones]; decide
    have hd : (hi ++ lo).toInt = -2 ^ 31 := by rw [hleast]; decide
    rw [hmone, hd] at hfits
    exact absurd hfits (by decide)
  · rw [← hq]
    exact toInt_setWidth_of_fits (by decide) (by decide) (by rw [hq]; exact hfits)
  · rw [← hr]
    exact toInt_setWidth_of_fits (by decide) (by decide) (by rw [hr]; exact ⟨by omega, by omega⟩)

end Words

theorem ensure_run {p : Prop} [Decidable p] (hp : p) (why : Panic) {α : Type} (a : α) (s : S) :
    (ensure p why a).run s = .ok (a, s) :=
  if_pos hp

section Runs

variable {bus : Tms9995Bus β} (op : DivOp) (ir : U16) (s : Core β κ)

theorem source_inWorkspace : (sourceOf bus ir false s).1.InWorkspace :=
  named_inWorkspace bus _ _ (nibble_lt _) _ _

theorem source_run :
    (sourceEa bus ir false).run s = .ok ((sourceOf bus ir false s).1, (sourceOf bus ir false s).2) :=
  sourceEa_run bus ir false s

/-- `divs_overflow` negates a dividend that has no opposite. -/
def DivOp.NegatesLeast (bus : Tms9995Bus β) : Prop :=
  op = .divs ∧ op.operand bus ir s ≠ 0 ∧ op.dividend bus (sourceOf bus ir false s).2 = -2 ^ 31

instance : Decidable (op.NegatesLeast ir s bus) := inferInstanceAs (Decidable (_ ∧ _))

variable {op ir s}

/-- The test of `divs_overflow` is right behind the operand. -/
theorem divs_test (h : ¬ DivOp.divs.NegatesLeast ir s bus) :
    DivOp.divs.operand bus ir s = 0 ∨ DivOp.divs.dividend bus (sourceOf bus ir false s).2 ≠ -2 ^ 31 := by
  by_contra hcon
  obtain ⟨hm, hd⟩ := not_or.mp hcon
  exact h ⟨rfl, hm, not_not.mp hd⟩

theorem divide_overflow (h : ¬ op.NegatesLeast ir s bus)
    (hover : op.operand bus ir s = 0 ∨
      ¬ op.FitsWord ((op.dividend bus (sourceOf bus ir false s).2).tdiv (op.operand bus ir s))) :
    (op.divide bus ir).run s =
      .ok ((), { (sourceOf bus ir false s).2 with st := (sourceOf bus ir false s).2.st ||| ST_OV }) := by
  cases op with
  | div =>
      rw [DivOp.divide, execDiv, run_bind_ok (source_run ir s),
        run_bind_ok (readWordEa_run bus (source_inWorkspace ir s) _),
        run_bind_ok (reg_run bus (by decide) _), run_bind_ok (reg_run bus (by decide) _),
        if_pos (divOverflow_eq.trans (decide_eq_true hover))]
      rfl
  | divs =>
      rw [DivOp.divide, execDivs, run_bind_ok (source_run ir s),
        run_bind_ok (readWordEa_run bus (source_inWorkspace ir s) _),
        run_bind_ok (reg_run bus (by decide) _), run_bind_ok (reg_run bus (by decide) _),
        run_bind_ok (divsOverflow_run _ _ _ (divs_test h) _)]
      exact congrArg (StateT.run · _) (if_pos (decide_eq_true hover))

theorem divide_inRange (h : ¬ op.NegatesLeast ir s bus) (hm : op.operand bus ir s ≠ 0)
    (hfits : op.FitsWord
      ((op.dividend bus (sourceOf bus ir false s).2).tdiv (op.operand bus ir s))) :
    ∃ q r, (op.divide bus ir).run s = (store bus q r).run (sourceOf bus ir false s).2 ∧
      op.value q = (op.dividend bus (sourceOf bus ir false s).2).tdiv (op.operand bus ir s) ∧
      op.value r = (op.dividend bus (sourceOf bus ir false s).2).tmod (op.operand bus ir s) := by
  have hover := not_or.mpr ⟨hm, not_not.mpr hfits⟩
  cases op with
  | div =>
      have hno : ¬ divOverflow ((sourceOf bus ir false s).2.reg bus 0)
          ((sourceOf bus ir false s).2.reg bus 1)
          (wordAt bus (sourceOf bus ir false s).2 (sourceOf bus ir false s).1) = true := by
        rw [divOverflow_eq]
        exact fun hov => hover (of_decide_eq_true hov)
      have hdivisor := divisor_ne_zero hno
      obtain ⟨hq, hr⟩ := unsigned_words hm hfits
      refine ⟨_, _, ?_, hq, hr⟩
      rw [DivOp.divide, execDiv, run_bind_ok (source_run ir s),
        run_bind_ok (readWordEa_run bus (source_inWorkspace ir s) _),
        run_bind_ok (reg_run bus (by decide) _), run_bind_ok (reg_run bus (by decide) _),
        if_neg hno, join_words]
      exact (run_bind_ok (ensure_run hdivisor _ _ _)).trans (run_bind_ok (ensure_run hdivisor _ _ _))
  | divs =>
      obtain ⟨hdivisor, hq, hr⟩ := signed_words hm hfits
      refine ⟨_, _, ?_, hq, hr⟩
      rw [DivOp.divide, execDivs, run_bind_ok (source_run ir s),
        run_bind_ok (readWordEa_run bus (source_inWorkspace ir s) _),
        run_bind_ok (reg_run bus (by decide) _), run_bind_ok (reg_run bus (by decide) _),
        run_bind_ok (divsOverflow_run _ _ _ (divs_test h) _), join_words]
      refine (congrArg (StateT.run · _) (if_neg fun hov => hover (of_decide_eq_true hov))).trans ?_
      exact (run_bind_ok (ensure_run hdivisor _ _ _)).trans (run_bind_ok (ensure_run hdivisor _ _ _))

theorem divide_least (h : op.NegatesLeast ir s bus) :
    (op.divide bus ir).run s = .error .overflow := by
  obtain ⟨rfl, hm, hd⟩ := h
  rw [DivOp.divide, execDivs, run_bind_ok (source_run ir s),
    run_bind_ok (readWordEa_run bus (source_inWorkspace ir s) _),
    run_bind_ok (reg_run bus (by decide) _), run_bind_ok (reg_run bus (by decide) _)]
  exact run_bind_error (divsOverflow_least _ _ _ hm hd _)

theorem not_exact_of_least (h : op.NegatesLeast ir s bus) : ¬ op.Exact bus ir s := by
  intro hexact
  have hstop := divide_least h
  by_cases hover : op.operand bus ir s = 0 ∨
      ¬ op.FitsWord ((op.dividend bus (sourceOf bus ir false s).2).tdiv (op.operand bus ir s))
  · have hrun := (if_pos hover).mp hexact
    rw [hstop] at hrun
    cases hrun
  · obtain ⟨s', hrun, -⟩ := (if_neg hover).mp hexact
    rw [hstop] at hrun
    cases hrun

theorem exact_of_opposite (hmem : bus.Memory) (h : ¬ op.NegatesLeast ir s bus) :
    op.Exact bus ir s := by
  by_cases hover : op.operand bus ir s = 0 ∨
      ¬ op.FitsWord ((op.dividend bus (sourceOf bus ir false s).2).tdiv (op.operand bus ir s))
  · exact (if_pos hover).mpr (divide_overflow h hover)
  · obtain ⟨hm, hfits⟩ := not_or.mp hover
    obtain ⟨q, r, hrun, hq, hr⟩ := divide_inRange h hm (not_not.mp hfits)
    obtain ⟨s', hstore, h0, h1, hst, hothers⟩ := store_run hmem q r (sourceOf bus ir false s).2
    obtain ⟨hprod, hrem, hsign⟩ :=
      tdiv_tmod (op.dividend bus (sourceOf bus ir false s).2) hm
    rw [← hq, ← h0, ← hr, ← h1] at hprod
    rw [← hr, ← h1] at hrem hsign
    exact (if_neg hover).mpr ⟨s', hrun.trans hstore,
      ⟨(congrArg op.value h0).trans hq, hprod, hrem, hsign, hst, hothers⟩⟩

end Runs

section Products

variable {bus : Tms9995Bus β} {op : DivOp} {ir : U16} {s : Core β κ}

theorem value_inj (op : DivOp) {w : Nat} {v v' : BitVec w} (h : op.value v = op.value v') : v = v' := by
  cases op with
  | div => exact BitVec.eq_of_toNat_eq (Int.ofNat_inj.mp h)
  | divs => exact BitVec.eq_of_toInt_eq h

theorem fitsWord_value (v : U16) : op.FitsWord (op.value v) := by
  cases op with
  | div => exact ⟨Int.natCast_nonneg _, Int.ofNat_lt.mpr v.isLt⟩
  | divs => exact fits_toInt (by decide) v

theorem product_halves (p : U32) : ((p >>> 16).setWidth 16 : U16) ++ (p.setWidth 16 : U16) = p := by
  apply BitVec.eq_of_getLsbD_eq
  intro i hi
  rw [BitVec.getLsbD_append, BitVec.getLsbD_setWidth, BitVec.getLsbD_setWidth,
    BitVec.getLsbD_ushiftRight]
  by_cases h : i < 16
  · simp [h]
  · simp [h, show i - 16 < 16 by omega, show 16 + (i - 16) = i by omega]

theorem signed_halves (p : U32) :
    ((p.sshiftRight 16 &&& 0xffff).setWidth 16 : U16) = (p >>> 16).setWidth 16 ∧
      ((p &&& 0xffff).setWidth 16 : U16) = p.setWidth 16 := by
  constructor
  · apply BitVec.eq_of_getLsbD_eq
    intro i hi
    rw [BitVec.getLsbD_setWidth, BitVec.getLsbD_and, BitVec.getLsbD_sshiftRight,
      BitVec.getLsbD_setWidth, BitVec.getLsbD_ushiftRight]
    interval_cases i <;> simp
  · apply BitVec.eq_of_getLsbD_eq
    intro i hi
    rw [BitVec.getLsbD_setWidth, BitVec.getLsbD_and, BitVec.getLsbD_setWidth]
    interval_cases i <;> simp

theorem unsigned_product (a b : U16) :
    DivOp.div.value (a.setWidth 32 * b.setWidth 32 : U32) =
      DivOp.div.value a * DivOp.div.value b := by
  have hlt := of_decide_eq_false (mul_words_no_overflow a b)
  have hmul : (a.setWidth 32 * b.setWidth 32 : U32).toNat = a.toNat * b.toNat := by
    rw [BitVec.toNat_mul, Nat.mod_eq_of_lt (Nat.lt_of_not_ge hlt),
      BitVec.toNat_setWidth_of_le (by decide), BitVec.toNat_setWidth_of_le (by decide)]
  exact congrArg Int.ofNat hmul

/-- The end of a multiplication. -/
theorem product_run (hmem : bus.Memory) (p : U32) (t : Core β κ) :
    ∃ s1, (do
        writeReg bus 0 ((p >>> 16).setWidth 16)
        writeReg bus 1 (p.setWidth 16) : M β κ Unit).run t = .ok ((), s1) ∧
      s1.reg bus 0 ++ s1.reg bus 1 = p := by
  refine ⟨_, (run_bind_ok (setReg_run (by decide) _ t)).trans (setReg_run (by decide) _ _), ?_⟩
  rw [reg_setReg hmem (by decide) (by decide), if_neg (by decide),
    reg_setReg hmem (by decide) (by decide), if_pos rfl,
    reg_setReg hmem (by decide) (by decide), if_pos rfl]
  exact product_halves p

/-- A multiplication leaves the product in R0 and R1. -/
theorem multiply_run (op : DivOp) (ir : U16) (s : Core β κ) (hmem : bus.Memory) :
    ∃ s1, (op.multiply bus ir).run s = .ok ((), s1) ∧
      op.dividend bus s1 =
        op.value ((sourceOf bus ir false s).2.reg bus 0) * op.operand bus ir s := by
  let t := (sourceOf bus ir false s).2
  let m := wordAt bus t (sourceOf bus ir false s).1
  cases op with
  | div =>
      obtain ⟨s1, hrun, hproduct⟩ :=
        product_run hmem ((t.reg bus 0).setWidth 32 * m.setWidth 32 : U32) t
      refine ⟨s1, ?_, ?_⟩
      · rw [DivOp.multiply, execMpy, run_bind_ok (source_run ir s),
          run_bind_ok (readWordEa_run bus (source_inWorkspace ir s) _),
          run_bind_ok (reg_run bus (by decide) _)]
        exact (run_bind_ok (ensure_run (mul_words_no_overflow _ _) _ _ _)).trans hrun
      · rw [DivOp.dividend, hproduct]
        exact unsigned_product _ _
  | divs =>
      have hprod : Fits 32 ((t.reg bus 0).toInt * m.toInt) := by
        have hlow := BitVec.le_toInt_mul_toInt (x := t.reg bus 0) (y := m)
        have hhigh := BitVec.toInt_mul_toInt_le (x := t.reg bus 0) (y := m)
        exact ⟨by omega, by omega⟩
      obtain ⟨s1, hrun, hproduct⟩ :=
        product_run hmem (BitVec.ofInt 32 ((t.reg bus 0).toInt * m.toInt)) t
      refine ⟨s1, ?_, ?_⟩
      · rw [DivOp.multiply, execMpys, run_bind_ok (source_run ir s),
          run_bind_ok (readWordEa_run bus (source_inWorkspace ir s) _),
          run_bind_ok (reg_run bus (by decide) _)]
        refine (run_bind_ok (mulS_run (by decide) (fits_word _) (fits_word _) _ hprod)).trans ?_
        rw [(signed_halves _).1, (signed_halves _).2]
        exact hrun
      · rw [DivOp.dividend, hproduct]
        exact toInt_ofInt_of_fits (by decide) hprod

theorem restores (hmem : bus.Memory) : op.Restores bus ir s := by
  intro hm
  obtain ⟨s1, hrun, hprod⟩ := multiply_run op ir s hmem
  refine ⟨s1, hrun, ?_⟩
  intro ir' s2 hoperand hdividend
  have hquot : (op.dividend bus (sourceOf bus ir' false s2).2).tdiv (op.operand bus ir' s2) =
      op.value ((sourceOf bus ir false s).2.reg bus 0) := by
    rw [hdividend, hprod, hoperand]
    exact Int.mul_tdiv_cancel _ hm
  have hrem : (op.dividend bus (sourceOf bus ir' false s2).2).tmod (op.operand bus ir' s2) = 0 := by
    rw [hdividend, hprod, hoperand]
    exact Int.mul_tmod_left _ _
  have hopposite : ¬ op.NegatesLeast ir' s2 bus := by
    rintro ⟨rfl, -, hleast⟩
    have hlow := BitVec.le_toInt_mul_toInt (x := (sourceOf bus ir false s).2.reg bus 0)
      (y := wordAt bus (sourceOf bus ir false s).2 (sourceOf bus ir false s).1)
    have hproduct := (hdividend.symm.trans hleast).symm.trans hprod
    simp only [DivOp.operand, DivOp.value] at hproduct
    omega
  obtain ⟨q, r, hdivide, hq, hr⟩ := divide_inRange hopposite (hoperand ▸ hm)
    (by rw [hquot]; exact fitsWord_value _)
  obtain ⟨s3, hstore, h0, h1, hst, -⟩ := store_run hmem q r (sourceOf bus ir' false s2).2
  refine ⟨s3, hdivide.trans hstore, ?_, ?_, ?_⟩
  · rw [hst, flag_ov]
    simp [ST_OV]
  · rw [h0]
    exact value_inj op (hq.trans hquot)
  · rw [h1]
    apply value_inj op
    rw [hr, hrem]
    cases op <;> rfl

end Products

/-- A core whose R0, R1 and R2 hold the given words. -/
def holding (w0 w1 w2 : U16) : Core (U16 → U8) Unit where
  pc := 0
  wp := 0x0100
  st := 0
  idle := false
  mem := ram.writeWord (ram.writeWord (ram.writeWord (fun _ => 0) 0x0100 w0) 0x0102 w1) 0x0104 w2
  cru := ()

end Instructions

end Tms9995
end EmuRs
end RetroCpu
