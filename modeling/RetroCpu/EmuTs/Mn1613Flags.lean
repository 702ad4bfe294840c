import RetroCpu.EmuTs.Mn1613Width
import RetroCpu.Lib.Carry

/-!
# The flags of the TypeScript MN1613 core

E and V are two bits of `STR`.  The additions and subtractions of the core compute them
from unbounded numbers: E from the number itself, V from the sign bits of the operands and
the result.  On words both are the carry and the signed overflow.
-/

namespace RetroCpu
namespace EmuTs
namespace Mn1613

open Js Prog Carry

/-- The flag E. -/
def CPURegister.E (r : CPURegister) : Bool := land r.STR STR_E ≠ 0

/-- The flag V. -/
def CPURegister.V (r : CPURegister) : Bool := land r.STR STR_OVF ≠ 0

/-- What `setE` does to the registers. -/
def CPURegister.withE (r : CPURegister) (v : Bool) : CPURegister :=
  { r with STR := if v then lor r.STR STR_E else land r.STR (land (lnot STR_E) 0xffff) }

/-- What `setOVF` does to the registers. -/
def CPURegister.withV (r : CPURegister) (v : Bool) : CPURegister :=
  { r with STR := if v then lor r.STR STR_OVF else land r.STR (land (lnot STR_OVF) 0xffff) }

section Bits

variable {r : CPURegister} {v : Bool}

theorem E_eq (r : CPURegister) : r.E = (toBits r.STR).getLsbD 15 := by
  have h := land_bit_ne_zero r.STR (k := 15) (by decide)
  cases hbit : (toBits r.STR).getLsbD 15 with
  | false => exact decide_eq_false (mt h.mp (by rw [hbit]; exact Bool.false_ne_true))
  | true => exact decide_eq_true (h.mpr hbit)

theorem V_eq (r : CPURegister) : r.V = (toBits r.STR).getLsbD 13 := by
  have h := land_bit_ne_zero r.STR (k := 13) (by decide)
  cases hbit : (toBits r.STR).getLsbD 13 with
  | false => exact decide_eq_false (mt h.mp (by rw [hbit]; exact Bool.false_ne_true))
  | true => exact decide_eq_true (h.mpr hbit)

/-- The flag E of a status word. -/
theorem E_iff : r.E = true ↔ r.STR / 32768 % 2 = 1 := by
  rw [E_eq, toBits_getLsbD r.STR (by decide)]
  exact decide_eq_true_iff

theorem V_iff : r.V = true ↔ r.STR / 8192 % 2 = 1 := by
  rw [V_eq, toBits_getLsbD r.STR (by decide)]
  exact decide_eq_true_iff

/-- The bits of the status word after `setE`. -/
theorem toBits_withE :
    toBits (r.withE v).STR =
      if v then toBits r.STR ||| 0x8000#32 else toBits r.STR &&& 0x7fff#32 := by
  have hset : toBits STR_E = 0x8000#32 := by decide
  have hclear : toBits (land (lnot STR_E) 0xffff) = 0x7fff#32 := by decide
  cases v with
  | false => exact (toBits_land _ _).trans (by rw [hclear]; rfl)
  | true => exact (toBits_lor _ _).trans (by rw [hset]; rfl)

theorem toBits_withV :
    toBits (r.withV v).STR =
      if v then toBits r.STR ||| 0x2000#32 else toBits r.STR &&& 0xdfff#32 := by
  have hset : toBits STR_OVF = 0x2000#32 := by decide
  have hclear : toBits (land (lnot STR_OVF) 0xffff) = 0xdfff#32 := by decide
  cases v with
  | false => exact (toBits_land _ _).trans (by rw [hclear]; rfl)
  | true => exact (toBits_lor _ _).trans (by rw [hset]; rfl)

@[simp] theorem E_withE : (r.withE v).E = v := by
  rw [E_eq, toBits_withE]
  cases v <;> simp

@[simp] theorem V_withV : (r.withV v).V = v := by
  rw [V_eq, toBits_withV]
  cases v <;> simp

@[simp] theorem V_withE : (r.withE v).V = r.V := by
  rw [V_eq, V_eq, toBits_withE]
  cases v <;> simp

@[simp] theorem E_withV : (r.withV v).E = r.E := by
  rw [E_eq, E_eq, toBits_withV]
  cases v <;> simp

theorem within_withE (h : Within 0xffff r.STR) : Within 0xffff (r.withE v).STR := by
  cases v with
  | false => exact within_land_any _ (by constructor <;> decide)
  | true => exact within_lor h (by constructor <;> decide)

theorem within_withV (h : Within 0xffff r.STR) : Within 0xffff (r.withV v).STR := by
  cases v with
  | false => exact within_land_any _ (by constructor <;> decide)
  | true => exact within_lor h (by constructor <;> decide)

/-- Two status words with the same bits are the same. -/
theorem eq_of_toBits {x y : Int} (hx : Within 0xffff x) (hy : Within 0xffff y)
    (h : toBits x = toBits y) : x = y := by
  obtain ⟨v, rfl⟩ := hx.exists_word
  obtain ⟨w, rfl⟩ := hy.exists_word
  rw [toBits_num, toBits_num] at h
  have hval := congrArg BitVec.toNat h
  have hv := v.isLt
  have hw := w.isLt
  rw [BitVec.toNat_setWidth, BitVec.toNat_setWidth, Nat.mod_eq_of_lt (by omega),
    Nat.mod_eq_of_lt (by omega)] at hval
  rw [num_inj]
  exact BitVec.eq_of_toNat_eq hval

/-- A mask that contains the bits of `x`. -/
theorem and_mask_self {x m : BitVec 32} (h : ∀ i, x.getLsbD i = true → m.getLsbD i = true) :
    x &&& m = x := by
  apply BitVec.eq_of_getLsbD_eq
  intro i hi
  have hbit := h i
  rw [BitVec.getLsbD_and]
  cases hx : x.getLsbD i with
  | false => rfl
  | true => rw [hbit hx, Bool.and_true]

theorem or_mask_self {x m : BitVec 32} (h : ∀ i < 32, m.getLsbD i = true → x.getLsbD i = true) :
    x ||| m = x := by
  apply BitVec.eq_of_getLsbD_eq
  intro i hi
  have hbit := h i hi
  rw [BitVec.getLsbD_or]
  cases hm : m.getLsbD i with
  | false => rw [Bool.or_false]
  | true => rw [hbit hm, Bool.or_true]

/-- The bits of a status word are below bit 16. -/
theorem lt_of_bit {i : Nat} (h : Within 0xffff r.STR) (hi : (toBits r.STR).getLsbD i = true) :
    i < 16 := by
  obtain ⟨w, hw⟩ := h.exists_word
  rw [hw, toBits_num, BitVec.getLsbD_setWidth] at hi
  by_contra hge
  rw [BitVec.getLsbD_of_ge w i (by omega), Bool.and_false] at hi
  cases hi

/-- Assigning the value that E already has changes nothing. -/
theorem withE_self (h : Within 0xffff r.STR) : r.withE r.E = r := by
  have hclear : ∀ i < 16, i ≠ 15 → (0x7fff#32).getLsbD i = true := by decide
  have hset : ∀ i < 32, (0x8000#32).getLsbD i = true → i = 15 := by decide
  have hSTR : (r.withE r.E).STR = r.STR := by
    apply eq_of_toBits (within_withE h) h
    rw [toBits_withE, E_eq]
    cases hbit : (toBits r.STR).getLsbD 15 with
    | false =>
        refine and_mask_self fun i hi => hclear i (lt_of_bit h hi) ?_
        rintro rfl
        rw [hbit] at hi
        cases hi
    | true =>
        refine or_mask_self fun i hi hm => ?_
        rw [hset i hi hm, hbit]
  exact congrArg (fun x => { r with STR := x }) hSTR

theorem withV_self (h : Within 0xffff r.STR) : r.withV r.V = r := by
  have hclear : ∀ i < 16, i ≠ 13 → (0xdfff#32).getLsbD i = true := by decide
  have hset : ∀ i < 32, (0x2000#32).getLsbD i = true → i = 13 := by decide
  have hSTR : (r.withV r.V).STR = r.STR := by
    apply eq_of_toBits (within_withV h) h
    rw [toBits_withV, V_eq]
    cases hbit : (toBits r.STR).getLsbD 13 with
    | false =>
        refine and_mask_self fun i hi => hclear i (lt_of_bit h hi) ?_
        rintro rfl
        rw [hbit] at hi
        cases hi
    | true =>
        refine or_mask_self fun i hi hm => ?_
        rw [hset i hi hm, hbit]
  exact congrArg (fun x => { r with STR := x }) hSTR

end Bits

section Operations

variable {σ : Type} (s : Cpu σ)

theorem setE_run (v : Bool) :
    (setE v).run s = ((), { s with reg := s.reg.withE v }) := rfl

theorem setOVF_run (v : Bool) :
    (setOVF v).run s = ((), { s with reg := s.reg.withV v }) := rfl

theorem flagE_run : (flagE : M σ Bool).run s = (s.reg.E, s) := rfl

/-- The carry that an instruction includes, for a carry field `c`. -/
def CPURegister.carryIn (r : CPURegister) (c : Int) : Int := if c = 0 ∧ r.E then 1 else 0

theorem carryIn_run (c : Int) :
    (carryIn c : M σ Bool).run s = (decide (s.reg.carryIn c = 1), s) := by
  rw [carryIn, run_ite, CPURegister.carryIn]
  by_cases hc : c = 0
  · rw [if_pos hc, flagE_run]
    cases hE : s.reg.E with
    | false => rw [if_neg fun h => Bool.false_ne_true h.2]; rfl
    | true => rw [if_pos ⟨hc, rfl⟩]; rfl
  · rw [if_neg hc, if_neg fun h => hc h.1]
    rfl

/-- The carry is 0 or 1. -/
theorem carryIn_cases (r : CPURegister) (c : Int) : r.carryIn c = 0 ∨ r.carryIn c = 1 := by
  rw [CPURegister.carryIn]
  split_ifs
  · exact .inr rfl
  · exact .inl rfl

/-- The carry as the code computes it. -/
theorem carryIn_ite (r : CPURegister) (c : Int) :
    (if decide (r.carryIn c = 1) = true then 1 else 0 : Int) = r.carryIn c := by
  rcases carryIn_cases r c with h | h <;> rw [h] <;> rfl

variable {a b : Int}

/-- The signed overflow of an addition, from the sign bits. -/
theorem add_overflow (ha : Within 0xffff a) (hb : Within 0xffff b) :
    land (land (lnot (lxor a b)) (lxor a (a + b))) 0x8000 ≠ 0 ↔
      ¬ Fits 65536 (signed 65536 a + signed 65536 b) := by
  obtain ⟨ha0, ha1⟩ := ha
  obtain ⟨hb0, hb1⟩ := hb
  rw [land_sign_ne_zero, toBits_land, toBits_lnot, toBits_lxor, toBits_lxor,
    BitVec.getLsbD_and, BitVec.getLsbD_not, BitVec.getLsbD_xor, BitVec.getLsbD_xor,
    toBits_getLsbD a (by decide), toBits_getLsbD b (by decide),
    toBits_getLsbD (a + b) (by decide)]
  simp only [signed, Fits]
  by_cases hx : 32768 ≤ a <;> by_cases hy : 32768 ≤ b
  all_goals grind

/-- The signed overflow of a subtraction, from the sign bits. -/
theorem sub_overflow (ha : Within 0xffff a) (hb : Within 0xffff b) :
    land (land (lxor a b) (lxor a (a - b))) 0x8000 ≠ 0 ↔
      ¬ Fits 65536 (signed 65536 a - signed 65536 b) := by
  obtain ⟨ha0, ha1⟩ := ha
  obtain ⟨hb0, hb1⟩ := hb
  rw [land_sign_ne_zero, toBits_land, toBits_lxor, toBits_lxor,
    BitVec.getLsbD_and, BitVec.getLsbD_xor, BitVec.getLsbD_xor,
    toBits_getLsbD a (by decide), toBits_getLsbD b (by decide),
    toBits_getLsbD (a - b) (by decide)]
  simp only [signed, Fits]
  by_cases hx : 32768 ≤ a <;> by_cases hy : 32768 ≤ b
  all_goals grind

/-- The registers after `add`. -/
def addFlags (r : CPURegister) (a b : Int) : CPURegister :=
  (r.withE (a + b > 0xffff)).withV
    (land (land (lnot (lxor a b)) (lxor a (a + b))) 0x8000 ≠ 0)

/-- The registers after `sub`. -/
def subFlags (r : CPURegister) (a b : Int) : CPURegister :=
  (r.withE (a - b < 0)).withV (land (land (lxor a b) (lxor a (a - b))) 0x8000 ≠ 0)

theorem add_run (a b : Int) :
    (add a b).run s = (land (a + b) 0xffff, { s with reg := addFlags s.reg a b }) := rfl

theorem sub_run (a b : Int) :
    (sub a b).run s = (land (a - b) 0xffff, { s with reg := subFlags s.reg a b }) := rfl

variable {r : CPURegister}

theorem E_of_STR {r r' : CPURegister} (h : r'.STR = r.STR) : r'.E = r.E := by
  rw [E_eq, E_eq, h]

theorem V_of_STR {r r' : CPURegister} (h : r'.STR = r.STR) : r'.V = r.V := by
  rw [V_eq, V_eq, h]

theorem addFlags_E : (addFlags r a b).E = true ↔ 65536 ≤ a + b := by
  rw [addFlags, E_withV, E_withE, decide_eq_true_iff]
  omega

theorem addFlags_V (ha : Within 0xffff a) (hb : Within 0xffff b) :
    (addFlags r a b).V = true ↔ ¬ Fits 65536 (signed 65536 a + signed 65536 b) := by
  rw [addFlags, V_withV, decide_eq_true_iff]
  exact add_overflow ha hb

theorem subFlags_E : (subFlags r a b).E = true ↔ a - b < 0 := by
  rw [subFlags, E_withV, E_withE, decide_eq_true_iff]

theorem subFlags_V (ha : Within 0xffff a) (hb : Within 0xffff b) :
    (subFlags r a b).V = true ↔ ¬ Fits 65536 (signed 65536 a - signed 65536 b) := by
  rw [subFlags, V_withV, decide_eq_true_iff]
  exact sub_overflow ha hb

end Operations

end Mn1613
end EmuTs
end RetroCpu
