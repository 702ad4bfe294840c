import RetroCpu.EmuRs.Tms9995Runs

/-!
# Shifts of the Rust TMS9995 core

The loop of `shift_op` has a closed form for each of the four kinds.  A count of 0 in the
instruction stands for the low four bits of `R0`; the core takes the high four bits.
-/

namespace RetroCpu
namespace EmuRs
namespace Tms9995

open CheckedBuild

section ClosedForm

/-- The sign bit changes at a step of a shift to the left. -/
def SignChanges (v : U16) (n : Nat) : Prop := ∃ i < n, (v <<< i).msb ≠ (v <<< (i + 1)).msb

instance (v : U16) (n : Nat) : Decidable (SignChanges v n) := by
  unfold SignChanges
  infer_instance

/-- A shift by `n` places at once: SRA, SRL, SLA and SRC. -/
def shifted (kind n : Nat) (v : U16) : Shifted :=
  match kind with
  | 0 => ⟨v.sshiftRight n, v.getLsbD (n - 1), false⟩
  | 1 => ⟨v >>> n, v.getLsbD (n - 1), false⟩
  | 2 => ⟨v <<< n, v.getLsbD (16 - n), SignChanges v n⟩
  | _ => ⟨v.rotateRight n, v.getLsbD (n - 1), false⟩

theorem low_bit (v : U16) : decide (v &&& 1 ≠ 0) = v.getLsbD 0 := flag_bit v 0 (by decide)

theorem high_bit (v : U16) : decide (v &&& 0x8000 ≠ 0) = v.getLsbD 15 := flag_bit v 15 (by decide)

/-- One place to the right, with a bit that enters. -/
theorem getLsbD_enter (v : U16) (b : Bool) {i : Nat} (hi : i < 16) :
    ((v >>> 1) ||| (if b then 0x8000 else 0)).getLsbD i =
      if i = 15 then b else v.getLsbD (i + 1) := by
  cases b <;> interval_cases i <;> simp

variable (v : U16)

theorem sra_round (n : Nat) :
    (v.sshiftRight n >>> 1) ||| (if v.getLsbD 15 then 0x8000 else 0) = v.sshiftRight (n + 1) := by
  have hmsb : v.msb = v.getLsbD 15 := BitVec.msb_eq_getLsbD_last v
  apply BitVec.eq_of_getLsbD_eq
  intro i hi
  rw [getLsbD_enter _ _ hi, BitVec.getLsbD_sshiftRight, BitVec.getLsbD_sshiftRight, hmsb]
  by_cases h15 : i = 15
  · rw [if_pos h15, if_neg (by omega), decide_eq_false (by omega)]
    rfl
  · rw [if_neg h15, decide_eq_false (by omega), decide_eq_false (by omega),
      show n + (i + 1) = n + 1 + i by omega]

theorem getLsbD_rotate (n : Nat) {i : Nat} (hi : i < 16) :
    (v.rotateRight n).getLsbD i = v.getLsbD ((i + n) % 16) := by
  rw [BitVec.getLsbD_rotateRight]
  by_cases hlow : i < 16 - n % 16
  · rw [decide_eq_true hlow, cond_true]
    congr 1
    omega
  · rw [decide_eq_false hlow, cond_false, decide_eq_true hi, Bool.true_and]
    congr 1
    omega

theorem src_round (n : Nat) :
    (v.rotateRight n >>> 1) ||| (if (v.rotateRight n).getLsbD 0 then 0x8000 else 0) =
      v.rotateRight (n + 1) := by
  apply BitVec.eq_of_getLsbD_eq
  intro i hi
  rw [getLsbD_enter _ _ hi, getLsbD_rotate _ _ hi]
  by_cases h15 : i = 15
  · rw [if_pos h15, getLsbD_rotate _ _ (by omega)]
    congr 1
    omega
  · rw [if_neg h15, getLsbD_rotate _ _ (by omega)]
    congr 1
    omega

/-- The sign changes at the step behind `n` others, or before. -/
theorem signChanges_succ (n : Nat) :
    SignChanges v (n + 1) ↔ (v <<< n).msb ≠ (v <<< (n + 1)).msb ∨ SignChanges v n := by
  constructor
  · rintro ⟨i, hi, hne⟩
    by_cases hin : i = n
    · exact .inl (hin ▸ hne)
    · exact .inr ⟨i, by omega, hne⟩
  · rintro (hne | ⟨i, hi, hne⟩)
    · exact ⟨n, by omega, hne⟩
    · exact ⟨i, by omega, hne⟩

/-- A round of the loop is one more place. -/
theorem round_shifted (kind : U16) (hkind : kind.toNat < 4) {n : Nat} (hn : n < 16) (c : Bool) :
    shiftRound kind (v.getLsbD 15)
        ⟨(shifted kind.toNat n v).v, c, (shifted kind.toNat n v).overflow⟩ =
      shifted kind.toNat (n + 1) v := by
  unfold shiftRound
  generalize kind.toNat = k at hkind
  match k, hkind with
  | 0, _ =>
      have hbit : (v.sshiftRight n).getLsbD 0 = v.getLsbD n := by
        rw [BitVec.getLsbD_sshiftRight, if_pos (by omega)]
        rfl
      simp only [shifted, low_bit, hbit, sra_round, Nat.add_sub_cancel]
  | 1, _ =>
      have hbit : (v >>> n).getLsbD 0 = v.getLsbD n := by rw [BitVec.getLsbD_ushiftRight, Nat.add_zero]
      simp only [shifted, low_bit, hbit, BitVec.shiftRight_add, Nat.add_sub_cancel]
  | 2, _ =>
      have hv : (v <<< n) <<< 1 &&& 0xffff = v <<< (n + 1) := by
        rw [BitVec.shiftLeft_add]
        exact BitVec.and_allOnes
      have hcarry : (v <<< n).getLsbD 15 = v.getLsbD (16 - (n + 1)) := by
        rw [BitVec.getLsbD_shiftLeft, decide_eq_true (by omega), decide_eq_false (by omega),
          show 15 - n = 16 - (n + 1) by omega]
        rfl
      have hmsb (x : U16) : x.getLsbD 15 = x.msb := (BitVec.msb_eq_getLsbD_last x).symm
      have hoverflow : (if (v <<< n).msb ≠ (v <<< (n + 1)).msb then true
          else decide (SignChanges v n)) = decide (SignChanges v (n + 1)) := by
        by_cases hne : (v <<< n).msb ≠ (v <<< (n + 1)).msb
        · rw [if_pos hne, decide_eq_true ((signChanges_succ v n).mpr (.inl hne))]
        · rw [if_neg hne, decide_eq_decide]
          exact ⟨fun h => (signChanges_succ v n).mpr (.inr h),
            fun h => ((signChanges_succ v n).mp h).resolve_left hne⟩
      simp only [shifted, high_bit, hv, hmsb, hoverflow]
      rw [← hcarry, hmsb]
  | 3, _ =>
      have hbit : (v.rotateRight n).getLsbD 0 = v.getLsbD n := by
        rw [getLsbD_rotate _ _ (by omega), Nat.zero_add, Nat.mod_eq_of_lt hn]
      have hround := src_round v n
      rw [hbit] at hround
      simp only [shifted, low_bit, hbit, hround, Nat.add_sub_cancel]

theorem shifted_zero (kind : U16) (hkind : kind.toNat < 4) :
    (shifted kind.toNat 0 v).v = v ∧ (shifted kind.toNat 0 v).overflow = false := by
  have hsign : ¬ SignChanges v 0 := by
    rintro ⟨i, hi, -⟩
    omega
  have hrotate : v.rotateRight 0 = v := by
    apply BitVec.eq_of_getLsbD_eq
    intro i hi
    rw [getLsbD_rotate _ _ hi, Nat.add_zero, Nat.mod_eq_of_lt hi]
  generalize kind.toNat = k at hkind
  match k, hkind with
  | 0, _ => exact ⟨BitVec.sshiftRight_zero, rfl⟩
  | 1, _ => exact ⟨BitVec.ushiftRight_zero _, rfl⟩
  | 2, _ => exact ⟨BitVec.shiftLeft_zero _, by rw [shifted, decide_eq_false hsign]⟩
  | 3, _ => exact ⟨hrotate, rfl⟩

/-- The loop shifts by its count at once. -/
theorem loop_shifted (kind : U16) (hkind : kind.toNat < 4) {n : Nat} (h1 : 1 ≤ n) (h16 : n ≤ 16) :
    (shiftRound kind (v.getLsbD 15))^[n] ⟨v, false, false⟩ = shifted kind.toNat n v := by
  induction n, h1 using Nat.le_induction with
  | base =>
      obtain ⟨hv, hov⟩ := shifted_zero v kind hkind
      have hround := round_shifted v kind hkind (n := 0) (by omega) false
      rw [hv, hov] at hround
      exact hround
  | succ n _ ih =>
      rw [Function.iterate_succ_apply', ih (by omega)]
      exact round_shifted v kind hkind (by omega) _

end ClosedForm

section Counts

/-- The counts `m < n` shift a value alike. -/
def Stationary (kind m n : Nat) (v : U16) : Prop :=
  match kind with
  | 0 => ∀ i, m ≤ i + 1 → i < 16 → v.getLsbD i = v.getLsbD 15
  | 1 => ∀ i, m ≤ i + 1 → i < 16 → v.getLsbD i = false
  | 2 => ∀ i, i + m ≤ 16 → v.getLsbD i = false
  | _ => v.rotateRight (n - m) = v

variable {v : U16} {m n : Nat}

/-- A sequence that repeats itself and ends in a constant is this constant. -/
theorem constant_of_repeats {f : Nat → Bool} {c : Bool} {k : Nat} (hk : 0 < k)
    (hrepeat : ∀ i, m ≤ i → f i = f (i + k)) (hend : ∀ i, 16 ≤ i → f i = c) :
    ∀ i, m ≤ i → f i = c := by
  have hback : ∀ d i, m ≤ i → 16 ≤ i + d → f i = c := by
    intro d
    induction d with
    | zero => exact fun i _ h => hend i h
    | succ d ih =>
        intro i hi h
        rw [hrepeat i hi]
        exact ih (i + k) (by omega) (by omega)
  exact fun i hi => hback 16 i hi (by omega)

/-- The bits that a shift to the right sees. -/
def rightBit (kind : Nat) (v : U16) (i : Nat) : Bool :=
  if i < 16 then v.getLsbD i else if kind = 0 then v.getLsbD 15 else false

theorem shifted_bit (kind : Nat) (hkind : kind < 2) (n : Nat) {i : Nat} (hi : i < 16) :
    (shifted kind n v).v.getLsbD i = rightBit kind v (i + n) := by
  have hmsb : v.msb = v.getLsbD 15 := BitVec.msb_eq_getLsbD_last v
  unfold rightBit
  match kind, hkind with
  | 0, _ =>
      rw [shifted, BitVec.getLsbD_sshiftRight, decide_eq_false (by omega), hmsb, Nat.add_comm n i]
      rfl
  | 1, _ =>
      rw [shifted, BitVec.getLsbD_ushiftRight, Nat.add_comm n i]
      by_cases h : i + n < 16
      · rw [if_pos h]
      · rw [if_neg h, if_neg (by omega), BitVec.getLsbD_of_ge _ _ (by omega)]

/-- The values and carries of two shifts to the right. -/
theorem right_stationary (kind : Nat) (hkind : kind < 2) (h1 : 1 ≤ m) (hmn : m < n) (hn : n ≤ 16) :
    ((shifted kind m v).v = (shifted kind n v).v ∧
      (shifted kind m v).carry = (shifted kind n v).carry) ↔
      ∀ i, m ≤ i + 1 → rightBit kind v i = rightBit kind v 16 := by
  have hcarry (k : Nat) : (shifted kind k v).carry = v.getLsbD (k - 1) := by
    match kind, hkind with
    | 0, _ => rfl
    | 1, _ => rfl
  have hend : ∀ i, 16 ≤ i → rightBit kind v i = rightBit kind v 16 := by
    intro i hi
    exact (if_neg (by omega)).trans (if_neg (by omega)).symm
  have hlow {i : Nat} (hi : i < 16) : rightBit kind v i = v.getLsbD i := if_pos hi
  constructor
  · rintro ⟨hv, hc⟩
    have hconst : ∀ i, m ≤ i → rightBit kind v i = rightBit kind v 16 := by
      refine constant_of_repeats (k := n - m) (by omega) (fun i hi => ?_) hend
      by_cases h16 : i - m < 16
      · have hbit := congrArg (BitVec.getLsbD · (i - m)) hv
        simp only [shifted_bit kind hkind _ h16] at hbit
        rwa [show i - m + m = i by omega, show i - m + n = i + (n - m) by omega] at hbit
      · exact (hend i (by omega)).trans (hend _ (by omega)).symm
    intro i hi
    by_cases him : m ≤ i
    · exact hconst i him
    · obtain rfl : i = m - 1 := by omega
      rw [hcarry, hcarry, ← hlow (by omega), ← hlow (by omega)] at hc
      rw [hc]
      exact hconst _ (by omega)
  · intro h
    constructor
    · apply BitVec.eq_of_getLsbD_eq
      intro i hi
      rw [shifted_bit kind hkind _ hi, shifted_bit kind hkind _ hi]
      exact (h _ (by omega)).trans (h _ (by omega)).symm
    · rw [hcarry, hcarry, ← hlow (by omega), ← hlow (by omega)]
      exact (h _ (by omega)).trans (h _ (by omega)).symm

/-- Two shifts to the left. -/
theorem left_stationary (h1 : 1 ≤ m) (hmn : m < n) (hn : n ≤ 16) :
    shifted 2 m v = shifted 2 n v ↔ ∀ i, i + m ≤ 16 → v.getLsbD i = false := by
  have hbit (k : Nat) {i : Nat} (hi : i < 16) :
      (v <<< k).getLsbD i = if i < k then false else v.getLsbD (i - k) := by
    rw [BitVec.getLsbD_shiftLeft, decide_eq_true hi]
    split_ifs with h <;> simp [h]
  constructor
  · intro h
    have hv : v <<< m = v <<< n := congrArg Shifted.v h
    have hc : v.getLsbD (16 - m) = v.getLsbD (16 - n) := congrArg Shifted.carry h
    have hlow : ∀ d i, i < d → i + m < 16 → v.getLsbD i = false := by
      intro d
      induction d with
      | zero =>
          intro i hi
          omega
      | succ d ih =>
          intro i hi him
          have hi' := congrArg (BitVec.getLsbD · (i + m)) hv
          simp only [hbit _ him, if_neg (show ¬ i + m < m by omega), Nat.add_sub_cancel] at hi'
          by_cases hin : i + m < n
          · rwa [if_pos hin] at hi'
          · rw [if_neg hin] at hi'
            rw [hi']
            exact ih _ (by omega) (by omega)
    intro i hi
    by_cases him : i + m < 16
    · exact hlow (i + 1) i (by omega) him
    · obtain rfl : i = 16 - m := by omega
      rw [hc]
      exact hlow 17 _ (by omega) (by omega)
  · intro h
    have hv : v <<< m = v <<< n := by
      apply BitVec.eq_of_getLsbD_eq
      intro i hi
      rw [hbit _ hi, hbit _ hi]
      split_ifs with him hin hin
      · rfl
      · omega
      · exact h _ (by omega)
      · exact (h _ (by omega)).trans (h _ (by omega)).symm
    have hc : v.getLsbD (16 - m) = v.getLsbD (16 - n) :=
      (h _ (by omega)).trans (h _ (by omega)).symm
    have hmsb (i : Nat) (hi : m ≤ i + 1) : (v <<< i).msb = false := by
      rw [BitVec.msb_eq_getLsbD_last, hbit _ (by omega)]
      split_ifs with hlt
      · rfl
      · exact h _ (by omega)
    have hsign : SignChanges v m ↔ SignChanges v n := by
      constructor
      · rintro ⟨i, hi, hne⟩
        exact ⟨i, by omega, hne⟩
      · rintro ⟨i, hi, hne⟩
        by_cases him : i < m
        · exact ⟨i, him, hne⟩
        · rw [hmsb i (by omega), hmsb (i + 1) (by omega)] at hne
          exact absurd rfl hne
    simp only [shifted, hv, hc, hsign]

/-- Two rotations. -/
theorem rotate_stationary (h1 : 1 ≤ m) (hmn : m < n) (hn : n ≤ 16) :
    ((v.rotateRight m) = (v.rotateRight n) ∧ v.getLsbD (m - 1) = v.getLsbD (n - 1)) ↔
      v.rotateRight (n - m) = v := by
  constructor
  · rintro ⟨hv, -⟩
    apply BitVec.eq_of_getLsbD_eq
    intro i hi
    have hbit := congrArg (BitVec.getLsbD · ((i + (16 - m)) % 16)) hv
    simp only [getLsbD_rotate _ _ (Nat.mod_lt _ (show 0 < 16 by omega))] at hbit
    rw [getLsbD_rotate _ _ hi, show (i + (n - m)) % 16 = ((i + (16 - m)) % 16 + n) % 16 by omega,
      ← hbit]
    congr 1
    omega
  · intro h
    have hbit (i : Nat) (hi : i < 16) : v.getLsbD i = v.getLsbD ((i + (n - m)) % 16) := by
      conv => lhs; rw [← h]
      exact getLsbD_rotate _ _ hi
    constructor
    · apply BitVec.eq_of_getLsbD_eq
      intro i hi
      rw [getLsbD_rotate _ _ hi, getLsbD_rotate _ _ hi, hbit _ (Nat.mod_lt _ (by omega))]
      congr 1
      omega
    · rw [hbit (m - 1) (by omega)]
      congr 1
      omega

end Counts

section Steps

variable {β κ : Type} (bus : Tms9995Bus β) (cru : Tms9995Cru κ)

/-- The words of the shifts. -/
def ShiftWord (ir : U16) : Prop := ir.toNat / 1024 = 2

instance (ir : U16) : Decidable (ShiftWord ir) := inferInstanceAs (Decidable (_ = _))

/-- SRA, SRL, SLA and SRC. -/
def kindOf (ir : U16) : Nat := ir.toNat / 256 % 4

def shiftedReg (ir : U16) : Nat := ir.toNat % 16

/-- A count field, 0 standing for a nibble of `R0`, and 0 there for 16. -/
def countOf (ir : U16) (nibble : Nat) : Nat :=
  if ir.toNat / 16 % 16 ≠ 0 then ir.toNat / 16 % 16 else if nibble = 0 then 16 else nibble

/-- The count that is documented: the low four bits of `R0`. -/
def documentedCount (ir r0 : U16) : Nat := countOf ir (r0.toNat % 16)

/-- The count that the core reads: the high four bits of `R0`. -/
def readCount (ir r0 : U16) : Nat := countOf ir (r0.toNat / 4096)

theorem countOf_range (ir : U16) {nibble : Nat} (h : nibble < 16) :
    1 ≤ countOf ir nibble ∧ countOf ir nibble ≤ 16 := by
  unfold countOf
  split_ifs <;> omega

theorem shiftCount_run (ir : U16) (s : Core β κ) :
    (shiftCount bus ir).run s = .ok (readCount ir (s.reg bus 0), s) := by
  have hfield : ((ir >>> 4) &&& (0x000f : U16)).toNat = ir.toNat / 16 % 16 :=
    BitField.toNat_field ir 4 4 (by decide)
  have hr0 := (s.reg bus 0).isLt
  have hnibble : ((s.reg bus 0 >>> 12) &&& (0x000f : U16)).toNat = (s.reg bus 0).toNat / 4096 := by
    have h := BitField.toNat_field (s.reg bus 0) 12 4 (by decide)
    rw [Nat.mod_eq_of_lt (by omega)] at h
    exact h
  unfold shiftCount readCount countOf
  simp only [hfield]
  by_cases h0 : ir.toNat / 16 % 16 = 0
  · rw [if_pos h0, if_neg (not_not.mpr h0), run_bind_ok (reg_run bus (by omega) s)]
    simp only [hnibble]
    rfl
  · rw [if_neg h0, if_pos h0]
    rfl

/-- The status that `set_lae_word` leaves. -/
def laeStatus (st v : U16) : U16 :=
  setFlag (setFlag (setFlag st ST_LGT (v ≠ 0)) ST_AGT (v &&& 0x8000 = 0 ∧ v ≠ 0)) ST_EQ (v = 0)

theorem setLaeWord_run (v : U16) (s : Core β κ) :
    (setLaeWord v).run s = .ok ((), { s with st := laeStatus s.st v }) := rfl

/-- The status behind a shift. -/
def shiftStatus (kind : Nat) (st : U16) (x : Shifted) : U16 :=
  let carried := setFlag (laeStatus st x.v) ST_C x.carry
  if kind = 2 then setFlag carried ST_OV x.overflow else carried

theorem flag_c_shiftStatus (kind : Nat) (st : U16) (x : Shifted) :
    flag (shiftStatus kind st x) ST_C = x.carry := by
  rw [flag_c, shiftStatus]
  by_cases h : kind = 2
  · rw [if_pos h, getLsbD_setFlag _ _ _ (by omega), getLsbD_setFlag _ _ _ (by omega)]
    rfl
  · rw [if_neg h, getLsbD_setFlag _ _ _ (by omega)]
    rfl

theorem flag_ov_shiftStatus (st : U16) (x : Shifted) :
    flag (shiftStatus 2 st x) ST_OV = x.overflow := by
  rw [flag_ov, shiftStatus, if_pos rfl, getLsbD_setFlag _ _ _ (by omega)]
  rfl

theorem shiftOp_run (ir : U16) (s : Core β κ) :
    (shiftOp bus ir).run s = .ok ((), { s with
      st := shiftStatus (kindOf ir) s.st
        (shifted (kindOf ir) (readCount ir (s.reg bus 0)) (s.reg bus (shiftedReg ir)))
      mem := bus.writeWord s.mem (s.regAt (shiftedReg ir))
        (shifted (kindOf ir) (readCount ir (s.reg bus 0)) (s.reg bus (shiftedReg ir))).v }) := by
  have hreg : (ir &&& (0x000f : U16)).toNat = shiftedReg ir :=
    BitField.toNat_and_mask ir 4 (by decide)
  have hkind : ((ir >>> 8) &&& (0x0003 : U16)).toNat = kindOf ir :=
    BitField.toNat_field ir 8 2 (by decide)
  have hlt : shiftedReg ir < 16 := Nat.mod_lt _ (by omega)
  have hr0 := (s.reg bus 0).isLt
  obtain ⟨h1, h16⟩ : 1 ≤ readCount ir (s.reg bus 0) ∧ readCount ir (s.reg bus 0) ≤ 16 :=
    countOf_range ir (by omega)
  have hloop := loop_shifted (s.reg bus (shiftedReg ir)) ((ir >>> 8) &&& (0x0003 : U16))
    (by rw [hkind]; exact Nat.mod_lt _ (by omega)) (n := readCount ir (s.reg bus 0)) h1 h16
  have hisSla : ((ir >>> 8) &&& (0x0003 : U16)) = 2 ↔ kindOf ir = 2 := by
    rw [← BitVec.toNat_inj, hkind]
    rfl
  unfold shiftOp
  rw [hreg, run_bind_ok (shiftCount_run bus ir s)]
  dsimp only
  rw [run_bind_ok (reg_run bus hlt s), high_bit, hloop, hkind, run_bind_ok (setLaeWord_run _ _)]
  unfold shiftStatus
  by_cases hk : kindOf ir = 2
  · rw [if_pos (hisSla.mpr hk), if_pos hk]
    exact writeReg_run bus hlt _ _
  · rw [if_neg fun h => hk (hisSla.mp h), if_neg hk]
    exact writeReg_run bus hlt _ _

/-- The result and the carry of a shift by `n` places. -/
def ClosedForm (kind n : Nat) (v r : U16) (carry : Bool) : Prop :=
  match kind with
  | 0 => r.toInt = v.toInt / 2 ^ n ∧ carry = v.getLsbD (n - 1)
  | 1 => r.toNat = v.toNat / 2 ^ n ∧ carry = v.getLsbD (n - 1)
  | 2 => r.toNat = v.toNat * 2 ^ n % 2 ^ 16 ∧ carry = v.getLsbD (16 - n)
  | _ => r = v.rotateRight n ∧ carry = v.getLsbD (n - 1)

theorem closedForm_iff {kind : Nat} (hkind : kind < 4) (n : Nat) (v r : U16) (carry : Bool) :
    ClosedForm kind n v r carry ↔ r = (shifted kind n v).v ∧ carry = (shifted kind n v).carry := by
  match kind, hkind with
  | 0, _ =>
      have hvalue : (v.sshiftRight n).toInt = v.toInt / 2 ^ n := by
        rw [BitVec.toInt_sshiftRight, Int.shiftRight_eq_div_pow]
        norm_cast
      rw [ClosedForm, shifted, ← hvalue, BitVec.toInt_inj]
  | 1, _ =>
      have hvalue : (v >>> n).toNat = v.toNat / 2 ^ n := by
        rw [BitVec.toNat_ushiftRight, Nat.shiftRight_eq_div_pow]
      rw [ClosedForm, shifted, ← hvalue, BitVec.toNat_inj]
  | 2, _ =>
      have hvalue : (v <<< n).toNat = v.toNat * 2 ^ n % 2 ^ 16 := by
        rw [BitVec.toNat_shiftLeft, Nat.shiftLeft_eq]
      rw [ClosedForm, shifted, ← hvalue, BitVec.toNat_inj]
  | 3, _ => rfl

/-- A shift by the documented count: the register, C, and OV of SLA. -/
def ShiftExact (ir : U16) (s : Core β κ) : Prop :=
  let v := s.reg bus (shiftedReg ir)
  let n := documentedCount ir (s.reg bus 0)
  ∃ c, stepOn bus cru ir s = .ok (.ok .running, c) ∧
    ClosedForm (kindOf ir) n v (c.reg bus (shiftedReg ir)) (flag c.st ST_C) ∧
    (kindOf ir = 2 → (flag c.st ST_OV = true ↔ SignChanges v n))

/-- The two counts are one, or both shift the value alike. -/
def CountKept (ir : U16) (s : Core β κ) : Prop :=
  let n := documentedCount ir (s.reg bus 0)
  let m := readCount ir (s.reg bus 0)
  m = n ∨ Stationary (kindOf ir) (min m n) (max m n) (s.reg bus (shiftedReg ir))

/-- Two shifts agree in what is observed of them. -/
def SameShift (kind m n : Nat) (v : U16) : Prop :=
  (shifted kind m v).v = (shifted kind n v).v ∧
    (shifted kind m v).carry = (shifted kind n v).carry ∧
    (kind = 2 → (shifted kind m v).overflow = (shifted kind n v).overflow)

theorem right_alike_iff (kind : Nat) (hkind : kind < 2) {m n : Nat} (h1 : 1 ≤ m) (hmn : m < n)
    (hn : n ≤ 16) (v : U16) : SameShift kind m n v ↔
      ∀ i, m ≤ i + 1 → i < 16 → v.getLsbD i = rightBit kind v 16 := by
  have hright := right_stationary (v := v) kind hkind h1 hmn hn
  constructor
  · rintro ⟨hv, hc, -⟩ i hi h16
    rw [← hright.mp ⟨hv, hc⟩ i hi]
    exact (if_pos h16).symm
  · intro h
    obtain ⟨hv, hc⟩ := hright.mpr fun i hi => by
      by_cases h16 : i < 16
      · exact (if_pos h16).trans (h i hi h16)
      · exact (if_neg h16).trans (if_neg (by omega)).symm
    exact ⟨hv, hc, fun h2 => absurd h2 (by omega)⟩

theorem sameShift_iff {kind : Nat} (hkind : kind < 4) {m n : Nat} (h1 : 1 ≤ m) (hmn : m < n)
    (hn : n ≤ 16) (v : U16) : SameShift kind m n v ↔ Stationary kind m n v := by
  match kind, hkind with
  | 0, _ => exact right_alike_iff 0 (by omega) h1 hmn hn v
  | 1, _ => exact right_alike_iff 1 (by omega) h1 hmn hn v
  | 2, _ =>
      rw [Stationary, ← left_stationary h1 hmn hn]
      constructor
      · rintro ⟨hv, hc, hov⟩
        exact Shifted.mk.injEq .. ▸ ⟨hv, hc, hov rfl⟩
      · intro h
        exact ⟨congrArg _ h, congrArg _ h, fun _ => congrArg _ h⟩
  | 3, _ =>
      refine Iff.trans ?_ (rotate_stationary h1 hmn hn)
      exact and_congr_right fun _ => and_iff_left fun h => absurd h (by omega)

theorem SameShift.symm {kind m n : Nat} {v : U16} (h : SameShift kind m n v) :
    SameShift kind n m v :=
  ⟨h.1.symm, h.2.1.symm, fun h2 => (h.2.2 h2).symm⟩

theorem sameShift_iff_counts {kind : Nat} (hkind : kind < 4) {m n : Nat} (hm : 1 ≤ m ∧ m ≤ 16)
    (hn : 1 ≤ n ∧ n ≤ 16) (v : U16) :
    SameShift kind m n v ↔ m = n ∨ Stationary kind (min m n) (max m n) v := by
  rcases Nat.lt_trichotomy m n with h | rfl | h
  · rw [Nat.min_eq_left (by omega), Nat.max_eq_right (by omega),
      ← sameShift_iff hkind hm.1 h hn.2 v]
    exact (or_iff_right (by omega)).symm
  · exact iff_of_true ⟨rfl, rfl, fun _ => rfl⟩ (.inl rfl)
  · rw [Nat.min_eq_right (by omega), Nat.max_eq_left (by omega),
      ← sameShift_iff hkind hn.1 h hm.2 v]
    exact ⟨fun h' => .inr h'.symm, fun h' => (h'.resolve_left (by omega)).symm⟩

/-- The register and the status behind a shift. -/
theorem shift_result (hbus : bus.Memory) (ir : U16) (hir : ShiftWord ir) (s : Core β κ) :
    ∃ c, stepOn bus cru ir s = .ok (.ok .running, c) ∧
      c.reg bus (shiftedReg ir) =
        (shifted (kindOf ir) (readCount ir (s.reg bus 0)) (s.reg bus (shiftedReg ir))).v ∧
      c.st = shiftStatus (kindOf ir) s.st
        (shifted (kindOf ir) (readCount ir (s.reg bus 0)) (s.reg bus (shiftedReg ir))) :=
  ⟨_, stepOn_of bus cru (fun _ => decode_shift bus cru hir)
    (shiftOp_run bus ir { s with pc := s.pc + 2 }),
    (hbus.readWord_writeWord _ _ _ _).trans (if_pos rfl), rfl⟩

/-- A shift does what is documented when the count that is read shifts like the documented one. -/
theorem shifts_closed (hbus : bus.Memory) (ir : U16) (hir : ShiftWord ir) (s : Core β κ) :
    ShiftExact bus cru ir s ↔ CountKept bus ir s := by
  have hkind : kindOf ir < 4 := Nat.mod_lt _ (by omega)
  have hr0 := (s.reg bus 0).isLt
  have hread : 1 ≤ readCount ir (s.reg bus 0) ∧ readCount ir (s.reg bus 0) ≤ 16 :=
    countOf_range ir (by omega)
  have hdoc : 1 ≤ documentedCount ir (s.reg bus 0) ∧ documentedCount ir (s.reg bus 0) ≤ 16 :=
    countOf_range ir (by omega)
  have hcounts := sameShift_iff_counts hkind hread hdoc (s.reg bus (shiftedReg ir))
  obtain ⟨c, hstep, hresult, hst⟩ := shift_result bus cru hbus ir hir s
  have hov (h2 : kindOf ir = 2) : flag c.st ST_OV =
      (shifted 2 (readCount ir (s.reg bus 0)) (s.reg bus (shiftedReg ir))).overflow := by
    rw [hst, h2, flag_ov_shiftStatus]
  refine Iff.trans ?_ hcounts
  unfold ShiftExact
  dsimp only
  constructor
  · rintro ⟨c', hstep', hclosed, hsign⟩
    rw [hstep] at hstep'
    cases hstep'
    obtain ⟨hv, hcarry⟩ := (closedForm_iff hkind _ _ _ _).mp hclosed
    refine ⟨hresult.symm.trans hv, ?_, fun h2 => ?_⟩
    · rw [← hcarry, hst, flag_c_shiftStatus]
    · have hdecide := (hsign h2)
      rw [hov h2] at hdecide
      rw [h2, Bool.eq_iff_iff, hdecide]
      exact decide_eq_true_iff.symm
  · rintro ⟨hv, hcarry, hoverflow⟩
    refine ⟨c, hstep, (closedForm_iff hkind _ _ _ _).mpr ⟨hresult.trans hv, ?_⟩, fun h2 => ?_⟩
    · rw [hst, flag_c_shiftStatus, hcarry]
    · have hsame := hoverflow h2
      rw [h2] at hsame
      rw [hov h2, hsame]
      exact decide_eq_true_iff

end Steps

section Counts

/-- `R0` holds 3 and `R1` holds 0x0010. -/
def countInR0 : Core (U16 → U8) Tms9995CruBus where
  pc := 0x1000
  wp := 0x0100
  st := 0
  idle := false
  mem a := if a = 0x0101 then 3 else if a = 0x0103 then 0x10 else 0
  cru := ⟨fun _ => false, 0, 0⟩

/-- `SRL R1,0` -/
def srlByR0 : U16 := 0x0901

theorem shifts_closed_srlByR0 :
    ShiftExact ram cruBus srlByR0 countInR0 ↔ CountKept ram srlByR0 countInR0 :=
  shifts_closed ram cruBus ram_memory srlByR0 (by decide) countInR0

/-- The register is shifted by 16 places and not by 3. -/
theorem count_misread :
    ¬ ∀ (ir : U16) (s : Core (U16 → U8) Tms9995CruBus), ShiftWord ir →
      ShiftExact ram cruBus ir s := by
  intro h
  obtain ⟨c, hstep, hclosed, -⟩ := h srlByR0 countInR0 (by decide)
  obtain ⟨c', hstep', hresult, -⟩ := shift_result ram cruBus ram_memory srlByR0
    (by decide) countInR0
  rw [hstep] at hstep'
  cases hstep'
  have hvalue := hclosed.1
  rw [hresult] at hvalue
  exact absurd hvalue (by decide)

end Counts

end Tms9995
end EmuRs
end RetroCpu
