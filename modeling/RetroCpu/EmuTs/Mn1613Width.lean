import Mathlib.Algebra.Order.Ring.Int
import RetroCpu.EmuTs.Mn1613Exec

/-!
# Register widths of the TypeScript MN1613 core

The registers are unbounded numbers; `Bounded` says that each holds an integer of
its width.  The bounds of `OSR` and `SBRB` are parameters, because not every writer
of these registers masks to the same width.
-/

namespace RetroCpu
namespace EmuTs
namespace Mn1613

open Js Prog RetroCpu.Mn1613

/-- An integer from 0 to `m`. -/
def Within (m v : Int) : Prop := 0 ≤ v ∧ v ≤ m

section Within

variable {a b m n : Int}

theorem Within.mono (h : Within m a) (hmn : m ≤ n) : Within n a := ⟨h.1, h.2.trans hmn⟩

theorem within_zero (hm : 0 ≤ m) : Within m 0 := ⟨le_refl 0, hm⟩

theorem within_num (x : BitVec 16) : Within 0xffff (num x) := by
  have h0 := num_nonneg x
  have h1 := num_lt x
  constructor
  · exact h0
  · omega

/-- The words are the numbers of 16 bits. -/
theorem Within.exists_word (h : Within 0xffff a) : ∃ x : BitVec 16, a = num x :=
  ⟨BitVec.ofInt 16 a, (num_ofInt h.1 (by have := h.2; omega)).symm⟩

theorem within_land_word (a : Int) : Within 0xffff (land a 0xffff) := by
  rw [land_ffff]
  constructor <;> omega

theorem within_land_byte (a : Int) : Within 0xff (land a 0xff) := by
  rw [land_ff]
  constructor <;> omega

theorem within_land_nibble (a : Int) : Within 0xf (land a 0xf) := by
  rw [land_f]
  constructor <;> omega

theorem within_lor (ha : Within 0xffff a) (hb : Within 0xffff b) : Within 0xffff (lor a b) := by
  obtain ⟨x, rfl⟩ := ha.exists_word
  obtain ⟨y, rfl⟩ := hb.exists_word
  rw [lor_num x y (by decide)]
  exact within_num _

theorem within_land (ha : Within 0xffff a) (hb : Within 0xffff b) : Within 0xffff (land a b) := by
  obtain ⟨x, rfl⟩ := ha.exists_word
  obtain ⟨y, rfl⟩ := hb.exists_word
  rw [land_num x y (by decide)]
  exact within_num _

/-- Masking an arbitrary number with a word gives a word. -/
theorem within_land_any (a : Int) (hb : Within 0xffff b) : Within 0xffff (land a b) := by
  have hmask : land a b = land (land a 0xffff) b := by
    obtain ⟨y, rfl⟩ := hb.exists_word
    have hy : toBits (num y) = y.setWidth 32 := toBits_num y
    simp only [land, hy]
    congr 1
    have hand : (65535#32) &&& y.setWidth 32 = y.setWidth 32 := by
      apply BitVec.eq_of_toNat_eq
      have hlt := y.isLt
      rw [BitVec.toNat_and, BitVec.toNat_setWidth, Nat.mod_eq_of_lt (by omega), Nat.and_comm]
      exact Nat.and_two_pow_sub_one_of_lt_two_pow hlt
    have hff : toBits 0xffff = 65535#32 := by decide
    have hround : toBits (toBits a &&& toBits 0xffff).toInt = toBits a &&& toBits 0xffff :=
      toBits_toInt _
    rw [hround, hff, BitVec.and_assoc, hand]
  rw [hmask]
  exact within_land (within_land_word a) hb

theorem within_shl (k : Nat) (ha : Within m a) (hm : m * 2 ^ k ≤ 0xffff) (hk : k < 32) :
    Within 0xffff (shl a (no_index (OfNat.ofNat k))) := by
  have hpow : (1 : Int) ≤ 2 ^ k := by exact_mod_cast Nat.one_le_two_pow
  have hlt : a * 2 ^ k ≤ 0xffff := le_trans (mul_le_mul_of_nonneg_right ha.2 (by omega)) hm
  have hpos : 0 ≤ a * 2 ^ k := mul_nonneg ha.1 (by omega)
  have hword : a ≤ 0xffff := le_trans (le_mul_of_one_le_right ha.1 hpow) hlt
  have hw : Within 0xffff a := ⟨ha.1, hword⟩
  obtain ⟨x, rfl⟩ := hw.exists_word
  rw [shl_ofNat x k hk (by omega)]
  exact ⟨hpos, hlt⟩

theorem within_ite {c : Prop} [Decidable c] (ha : Within m a) (hb : Within m b) :
    Within m (if c then a else b) := by
  split_ifs
  · exact ha
  · exact hb

theorem within_update {k : Nat} {f : Fin k → Int} (hf : ∀ j, Within m (f j)) (i : Fin k)
    (ha : Within m a) (j : Fin k) : Within m (Function.update f i a j) := by
  rcases eq_or_ne j i with rfl | hj
  · rw [Function.update_self]
    exact ha
  · rw [Function.update_of_ne hj]
    exact hf j

end Within

/-- Every register holds an integer of its width, `OSR` up to `osrMax` and `SBRB` up to
`sbrbMax`. -/
structure Bounded (osrMax sbrbMax : Int) (r : CPURegister) : Prop where
  R : ∀ i, Within 0xffff (r.R i)
  SP : Within 0xffff r.SP
  STR : Within 0xffff r.STR
  IC : Within 0xffff r.IC
  CSBR : Within 0xf r.CSBR
  SSBR : Within 0xf r.SSBR
  TSR0 : Within 0xf r.TSR0
  TSR1 : Within 0xf r.TSR1
  OSR : ∀ i, Within osrMax (r.OSR i)
  NPP : Within 0xff r.NPP
  IISR : Within 0xffff r.IISR
  SBRB : Within sbrbMax r.SBRB
  ICB : Within 0xffff r.ICB

theorem bounded_initial {o b : Int} (ho : 0 ≤ o) (hb : 0 ≤ b) :
    Bounded o b CPURegister.initial := by
  constructor <;> simp [CPURegister.initial, Within, ho, hb]

section Values

theorem within_getUint16 (mem : Mem) (p : Int) : Within 0xffff (getUint16 mem p) := by
  unfold getUint16
  split_ifs
  · constructor <;> decide
  · exact within_num _

theorem within_dswp (v : Int) : Within 0xffff (dswp v) := by
  have hnibble (x : Int) (k : Nat) (hm : 0xf * 2 ^ k ≤ (0xffff : Int)) (hk : k < 32) :
      Within 0xffff (shl (land x 0xf) (no_index (OfNat.ofNat k))) :=
    within_shl k (within_land_nibble x) hm hk
  refine within_lor (within_lor (within_lor ?_ ?_) ?_) ?_
  · exact hnibble _ 12 (by decide) (by decide)
  · exact hnibble _ 8 (by decide) (by decide)
  · exact hnibble _ 4 (by decide) (by decide)
  · exact (within_land_nibble v).mono (by decide)

theorem within_srbt (v : Int) : Within 0xffff (srbt v).1 := by
  unfold srbt
  cases h : srbtBits.find? (fun b => land (ushr v b) 1 ≠ 0) with
  | none =>
      have h16 : Within 0xffff (0x10 : Int) := ⟨by decide, by decide⟩
      exact h16
  | some b =>
      have hb := List.mem_of_find?_eq_some h
      simp only [srbtBits, List.mem_cons, List.not_mem_nil, or_false] at hb
      have hpos : Within 0xffff (15 - b) := by
        constructor <;> omega
      exact hpos

/-- Both words of a floating-point result have 16 bits. -/
theorem within_fpToWords (v : Float) :
    Within 0xffff (fpToWords v).w0 ∧ Within 0xffff (fpToWords v).w1 := by
  have hzero : Within 0xffff (0 : Int) := within_zero (by decide)
  have hpack (sign exp mant : Int) (hs : Within 1 sign) :
      Within 0xffff (fpPack sign exp mant).w0 ∧ Within 0xffff (fpPack sign exp mant).w1 := by
    have hexp : Within 0x7f (land exp 0x7f) := by
      have h : land exp 0x7f = exp % 128 := land_mask exp (k := 7) (by decide)
      rw [h]
      constructor <;> omega
    constructor
    · refine within_lor (within_lor ?_ ?_) ((within_land_byte _).mono (by decide))
      · exact within_shl 15 hs (by decide) (by decide)
      · exact within_shl 8 hexp (by decide) (by decide)
    · exact within_land_word _
  have h0 : Within 1 (0 : Int) := within_zero (by decide)
  have h1 : Within 1 (1 : Int) := ⟨by decide, by decide⟩
  unfold fpToWords
  simp only
  split_ifs
  all_goals first | exact ⟨hzero, hzero⟩ | exact hpack _ _ _ h0 | exact hpack _ _ _ h1

/-- Reading back a word that was written. -/
theorem getUint16_setUint16 (mem : Mem) {p v : Int} (hp : Within 0x3ffff p)
    (hv : Within 0xffff v) : getUint16 (setUint16 mem p v) p = v := by
  have hlt := hp.2
  rw [getUint16, if_neg (by simp only [MEM_WORDS]; omega), setUint16,
    if_pos (by simp only [MEM_WORDS]; omega), Function.update_self]
  exact num_ofInt hv.1 (by have := hv.2; omega)

theorem getUint16_setUint16_ne (mem : Mem) {p q v : Int} (hp : Within 0x3ffff p)
    (hq : Within 0x3ffff q) (hpq : p ≠ q) :
    getUint16 (setUint16 mem p v) q = getUint16 mem q := by
  have hlt := hp.2
  have hlt' := hq.2
  have hne : BitVec.ofInt 18 q ≠ BitVec.ofInt 18 p := by
    intro h
    have hnum := congrArg num h
    rw [num_ofInt hq.1 (by omega), num_ofInt hp.1 (by omega)] at hnum
    exact hpq hnum.symm
  have hin : p * 2 + 1 < MEM_WORDS * 2 := by simp only [MEM_WORDS]; omega
  have hout : ¬ q * 2 + 1 ≥ MEM_WORDS * 2 := by simp only [MEM_WORDS]; omega
  rw [getUint16, getUint16, if_neg hout, if_neg hout, setUint16, if_pos hin,
    Function.update_of_ne hne]

end Values

end Mn1613
end EmuTs
end RetroCpu
