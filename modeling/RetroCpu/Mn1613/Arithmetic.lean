import RetroCpu.Mn1613.Operands

/-!
# Integer additions and subtractions of the MN1613

The instructions that set E and V from a sum or a difference, in words or, for AD and SD,
in double words.  `MN1613.mdc` lists both flags for each of them.
-/

namespace RetroCpu
namespace Mn1613

open Js Prog Carry
open EmuTs.Mn1613

/-- The integer additions and subtractions that set flags, with the fields of their words:
registers `R0`..`R4`, `SP`, `STR`, pointers `R1`..`R4`, and a carry field that is 0 when
the carry is included. -/
inductive IntegerInsn
  | A (d s : Fin 7)
  | S (d s : Fin 7)
  | AWR (i : Fin 4)
  | SWR (i : Fin 4)
  | AWI (d : Fin 7)
  | SWI (d : Fin 7)
  | NEG (c : Fin 2) (d : Fin 7)
  | AD (c : Fin 2) (i : Fin 4)
  | SD (c : Fin 2) (i : Fin 4)
deriving DecidableEq, Repr

namespace IntegerInsn

/-- The instruction word, with the skip code `k`. -/
def word (insn : IntegerInsn) (k : Fin 16) : Int :=
  match insn with
  | A d s => fieldWord 0x0b d (k * 16 + (8 + s))
  | S d s => fieldWord 0x0b d (k * 16 + s)
  | AWR i => fieldWord 0x0b 7 (k * 16 + (8 + i))
  | SWR i => fieldWord 0x0b 7 (k * 16 + i)
  | AWI d => fieldWord 0x0b d (k * 16 + 15)
  | SWI d => fieldWord 0x0b d (k * 16 + 7)
  | NEG c d => fieldWord 0x03 7 (k * 16 + (c * 8 + d))
  | AD c i => fieldWord 0x09 7 (k * 16 + (c * 8 + 4 + i))
  | SD c i => fieldWord 0x08 7 (k * 16 + (c * 8 + 4 + i))

/-- The number of values of the operands. -/
def base : IntegerInsn → Int
  | AD _ _ => 2 ^ 32
  | SD _ _ => 2 ^ 32
  | _ => 2 ^ 16

/-- 1 for an addition, -1 for a subtraction. -/
def factor : IntegerInsn → Int
  | A _ _ => 1
  | AWR _ => 1
  | AWI _ => 1
  | AD _ _ => 1
  | _ => -1

/-- The operand on the left, which NEG lacks. -/
def left (insn : IntegerInsn) (r : CPURegister) : Int :=
  match insn with
  | A d _ => general r d
  | S d _ => general r d
  | AWI d => general r d
  | SWI d => general r d
  | AWR _ => r.R 0
  | SWR _ => r.R 0
  | NEG _ _ => 0
  | AD _ _ => doubleRegister r
  | SD _ _ => doubleRegister r

/-- The operand on the right: a register, a memory word, a double word or the second word
of the instruction. -/
def right (insn : IntegerInsn) (c : View) : Int :=
  match insn with
  | A _ s => general c.1 s
  | S _ s => general c.1 s
  | AWI _ => codeValue c c.1.IC
  | SWI _ => codeValue c c.1.IC
  | AWR i => codeValue c (c.1.R i.succ)
  | SWR i => codeValue c (c.1.R i.succ)
  | NEG _ d => general c.1 d
  | AD _ i => codeLong c (c.1.R i.succ)
  | SD _ i => codeLong c (c.1.R i.succ)

/-- The carry or borrow that is included. -/
def carry (insn : IntegerInsn) (r : CPURegister) : Int :=
  match insn with
  | NEG c _ => r.carryIn c
  | AD c _ => r.carryIn c
  | SD c _ => r.carryIn c
  | _ => 0

/-- The result of the operation on unsigned numbers. -/
def unsignedResult (insn : IntegerInsn) (c : View) : Int :=
  insn.left c.1 + insn.factor * (insn.right c + insn.carry c.1)

/-- The result of the operation on signed numbers. -/
def signedResult (insn : IntegerInsn) (c : View) : Int :=
  signed insn.base (insn.left c.1) +
    insn.factor * (signed insn.base (insn.right c) + insn.carry c.1)

/-- Where the result is stored. -/
def stored (insn : IntegerInsn) (r : CPURegister) : Int :=
  match insn with
  | A d _ => general r d
  | S d _ => general r d
  | AWI d => general r d
  | SWI d => general r d
  | NEG _ d => general r d
  | AWR _ => r.R 0
  | SWR _ => r.R 0
  | AD _ _ => doubleRegister r
  | SD _ _ => doubleRegister r

/-- The registers `r` hold the exact outcome of the instruction on `c`: the result modulo
the number of values, its carry or borrow in E, and in V whether the signed result does not
fit. -/
structure Exact (insn : IntegerInsn) (c : View) (r : CPURegister) : Prop where
  result : insn.stored r = insn.unsignedResult c % insn.base
  carry : r.E = true ↔ insn.unsignedResult c < 0 ∨ insn.base ≤ insn.unsignedResult c
  overflow : r.V = true ↔ ¬ Fits insn.base (insn.signedResult c)

/-- The result of FIX does not fit. -/
def fixOverflows (r : CPURegister) : Bool :=
  let v := trunc (fpFromWords (r.R 0) (r.R 1))
  v > 32767 ∨ v < -32768

/-- The result of FLT does not fit. -/
def fltOverflows (r : CPURegister) : Bool :=
  (fpToWords (toDouble (if r.R 0 < 0x8000 then r.R 0 else r.R 0 - 0x10000))).overflow

/-- The two flag bits of the word `v` are the carry and the overflow of the operation. -/
def FlagsMatch (insn : IntegerInsn) (c : View) (v : Int) : Prop :=
  (v / 32768 % 2 = 1 ↔ insn.unsignedResult c < 0 ∨ insn.base ≤ insn.unsignedResult c) ∧
    (v / 8192 % 2 = 1 ↔ ¬ Fits insn.base (insn.signedResult c))

/-- When the code is exact: a result stored in `STR` has the right flag bits, NEG negates 0
(and for `R4`, `SP` and `STR`, where its codes are executed as FIX or FLT, without a borrow
and without an overflow of the conversion), and AD and SD do not overflow. -/
def Sound (insn : IntegerInsn) (c : View) : Prop :=
  match insn with
  | A d _ => d = 6 → insn.FlagsMatch c (insn.unsignedResult c % 65536)
  | S d _ => d = 6 → insn.FlagsMatch c (insn.unsignedResult c % 65536)
  | AWI d => d = 6 → insn.FlagsMatch c (insn.unsignedResult c % 65536)
  | SWI d => d = 6 → insn.FlagsMatch c (insn.unsignedResult c % 65536)
  | AWR _ => True
  | SWR _ => True
  | NEG carry d =>
      general c.1 d = 0 ∧ (4 ≤ d.val → c.1.carryIn carry = 0 ∧
        (if carry = 0 then fixOverflows c.1 else fltOverflows c.1) = false)
  | AD _ _ => Fits insn.base (insn.signedResult c)
  | SD _ _ => Fits insn.base (insn.signedResult c)

end IntegerInsn

section Outcome

variable {σ : Type} (bd : Board σ) (s : Cpu σ)

/-- The outcome of an addition into the register `d`. -/
def addInto (r : CPURegister) (d : Fin 7) (a b : Int) : CPURegister :=
  put (addFlags r a b) d (land (land (a + b) 0xffff) 0xffff)

/-- The outcome of a subtraction into the register `d`. -/
def subInto (r : CPURegister) (d : Fin 7) (a b : Int) : CPURegister :=
  put (subFlags r a b) d (land (land (a - b) 0xffff) 0xffff)

variable (k : Fin 16)

/-- The arms of A, S, AWI and SWI. -/
theorem leaves_register (d t : Fin 7) :
    Leaves ((exec0b bd d (k * 16 + (8 + t))).run s).2
        (addInto s.reg d (general s.reg d) (general s.reg t)) ∧
      Leaves ((exec0b bd d (k * 16 + t)).run s).2
        (subInto s.reg d (general s.reg d) (general s.reg t)) := by
  constructor
  · obtain ⟨hk, h2, h3, h10, h7, h4⟩ := low_fields (j := 8 + (t.val : Int)) (skip_range k)
      (by omega)
    have ht : (8 + (t.val : Int)) % 8 = t.val := by omega
    have h3' : (8 + (t.val : Int)) / 8 = 1 := by omega
    rw [exec0b, hk, h2, h3, h10, h7, ht, h3', if_neg (register_ne d), if_neg (by omega),
      if_neg (by omega), if_pos rfl, run_bind, gr_run, run_bind, run_bind, gr_run, add_run]
    exact leaves_swSkip bd _ d k _
  · obtain ⟨hk, h2, h3, h10, h7, h4⟩ := low_fields (j := (t.val : Int)) (skip_range k)
      (by omega)
    have ht : (t.val : Int) % 8 = t.val := by omega
    have h3' : (t.val : Int) / 8 = 0 := by omega
    rw [exec0b, hk, h2, h3, h10, h7, ht, h3', if_neg (register_ne d), if_neg (by omega),
      if_neg (by omega), if_neg (by omega), run_bind, gr_run, run_bind, run_bind, gr_run, sub_run]
    exact leaves_swSkip bd _ d k _

theorem Leaves.of_fetch {f : CPURegister → CPURegister} {s' : Cpu σ}
    (hf : ∀ r ic, ∃ ic', f { r with IC := ic } = { f r with IC := ic' })
    (h : Leaves s' (f ((fetch bd).run s).2.reg)) : Leaves s' (f s.reg) := by
  obtain ⟨ic, hic⟩ := h
  obtain ⟨ic', hic'⟩ := hf s.reg (land (s.reg.IC + 1) 0xffff)
  refine ⟨ic, hic.trans ?_⟩
  exact congrArg (fun r : CPURegister => { r with IC := ic }) hic'

theorem put_IC (r : CPURegister) (d : Fin 7) (v ic : Int) :
    put { r with IC := ic } d v = { put r d v with IC := ic } := by
  obtain ⟨d, hd⟩ := d
  interval_cases d <;> rfl

theorem leaves_immediate (d : Fin 7) :
    Leaves ((exec0b bd d (k * 16 + 15)).run s).2
        (addInto s.reg d (general s.reg d) (codeValue (view s) s.reg.IC)) ∧
      Leaves ((exec0b bd d (k * 16 + 7)).run s).2
        (subInto s.reg d (general s.reg d) (codeValue (view s) s.reg.IC)) := by
  constructor
  · obtain ⟨hk, h2, h3, h10, h7, h4⟩ := low_fields (skip_range k)
      (show 0 ≤ (15 : Int) ∧ (15 : Int) < 16 by decide)
    refine Leaves.of_fetch bd s (f := fun r => addInto r d (general s.reg d)
      (codeValue (view s) s.reg.IC)) (fun r ic => ⟨ic, put_IC (addFlags r _ _) d _ ic⟩) ?_
    rw [exec0b, hk, h2, h3, h10, h7, if_neg (register_ne d), if_pos (by decide), run_bind,
      fetch_value, run_bind, gr_run, run_bind, add_run, general_fetch]
    exact leaves_swSkip bd _ d k _
  · obtain ⟨hk, h2, h3, h10, h7, h4⟩ := low_fields (skip_range k)
      (show 0 ≤ (7 : Int) ∧ (7 : Int) < 16 by decide)
    refine Leaves.of_fetch bd s (f := fun r => subInto r d (general s.reg d)
      (codeValue (view s) s.reg.IC)) (fun r ic => ⟨ic, put_IC (subFlags r _ _) d _ ic⟩) ?_
    rw [exec0b, hk, h2, h3, h10, h7, if_neg (register_ne d), if_neg (by decide),
      if_pos (by decide), run_bind, fetch_value, run_bind, gr_run, run_bind, sub_run, general_fetch]
    exact leaves_swSkip bd _ d k _

theorem land_land_word (x : Int) : land (land x 0xffff) 0xffff = land x 0xffff := by
  rw [land_ffff, land_ffff, Int.emod_emod]

/-- The arms of AWR and SWR. -/
theorem leaves_pointer (i : Fin 4) :
    Leaves ((exec0b bd 7 (k * 16 + (8 + i))).run s).2
        (addInto s.reg 0 (s.reg.R 0) (codeValue (view s) (s.reg.R i.succ))) ∧
      Leaves ((exec0b bd 7 (k * 16 + i)).run s).2
        (subInto s.reg 0 (s.reg.R 0) (codeValue (view s) (s.reg.R i.succ))) := by
  constructor
  · obtain ⟨hk, h2, h3, h10, h7, h4⟩ := low_fields (j := 8 + (i.val : Int)) (skip_range k)
      (by omega)
    have hi : (8 + (i.val : Int)) % 4 = i.val := by omega
    have h2' : (8 + (i.val : Int)) / 4 = 2 := by omega
    rw [exec0b, hk, h2, h3, h10, h7, hi, h2', if_pos rfl, if_neg (by omega), if_pos rfl, run_bind,
      run_bind, run_bind, run_bind, ri_run, rdC_value, add_run, addInto,
      land_land_word]
    exact leaves_setR0Skip bd _ k _
  · obtain ⟨hk, h2, h3, h10, h7, h4⟩ := low_fields (j := (i.val : Int)) (skip_range k)
      (by omega)
    have hi : (i.val : Int) % 4 = i.val := by omega
    have h2' : (i.val : Int) / 4 = 0 := by omega
    rw [exec0b, hk, h2, h3, h10, h7, hi, h2', if_pos rfl, if_neg (by omega), if_neg (by decide),
      if_pos rfl, run_bind, run_bind, run_bind, run_bind, ri_run, rdC_value, sub_run,
      subInto, land_land_word]
    exact leaves_setR0Skip bd _ k _

/-- NEG subtracts twice: the register from 0, and the borrow from the result. -/
def negFlags (r : CPURegister) (x e : Int) : CPURegister :=
  subFlags (subFlags r 0 x) (land (0 - x) 0xffff) e

variable (c : Fin 2)

/-- The arm of NEG, for the registers that the decoder takes for it. -/
theorem leaves_neg {d : Fin 7} (hd : d.val < 4) :
    Leaves ((exec03 bd 7 (k * 16 + (c * 8 + d))).run s).2
      (put (negFlags s.reg (general s.reg d) (s.reg.carryIn c)) d
        (land (land (land (0 - general s.reg d) 0xffff - s.reg.carryIn c) 0xffff) 0xffff)) := by
  obtain ⟨hk, h2, h3, h10, h7, h4⟩ := low_fields (j := c.val * 8 + (d.val : Int)) (skip_range k)
    (by omega)
  have hbit2 : land (ushr ((k.val : Int) * 16 + (c.val * 8 + d.val)) 2) 1 = 0 := by
    rw [ushr_div 2 (by decide) (by omega) (by omega), land_1]
    omega
  have hc : ((c.val : Int) * 8 + d.val) / 8 = c.val := by omega
  have hd' : ((c.val : Int) * 8 + d.val) % 8 = d.val := by omega
  rw [exec03, hk, hbit2, h3, h7, hc, hd', if_neg (by decide), if_neg (by decide), run_bind,
    carryIn_run, carryIn_ite, run_bind, gr_run, run_bind, sub_run, run_bind, sub_run, run_bind,
    sw_run]
  exact leaves_skipIf bd _ k _

/-- What FIX and FLT leave in the registers that NEG names with their codes. -/
structure Converted (r r' : CPURegister) (overflows : Bool) : Prop where
  E : r'.E = false
  V : r'.V = overflows
  R4 : r'.R 4 = r.R 4
  SP : r'.SP = r.SP
  STR : r.STR = 0 → overflows = false → r'.STR = 0

theorem leaves_fix (kkkk : Int) : ∃ r', Leaves ((execFix bd kkkk).run s).2 r' ∧
    Converted s.reg r' (IntegerInsn.fixOverflows s.reg) := by
  rw [execFix, run_bind, fpDecode, reg_run, run_bind, setE_run, run_bind, setOVF_run, run_bind,
    setR_run, run_bind, reg_run]
  refine ⟨_, leaves_skipIf bd _ kkkk _, ?_⟩
  constructor
  · exact E_withV.trans E_withE
  · exact V_withV
  · rfl
  · rfl
  · intro hSTR hov
    change ((s.reg.withE false).withV (IntegerInsn.fixOverflows s.reg)).STR = 0
    rw [hov]
    change land (land s.reg.STR _) _ = 0
    rw [hSTR]
    rfl

theorem fpEncode_run (v : Float) :
    (fpEncode v).run s =
      (let R := Function.update (Function.update s.reg.R 0 (fpToWords v).w0) 1 (fpToWords v).w1
       let r : CPURegister := { s.reg with R := R }
       ((), { s with reg := r.withV (fpToWords v).overflow })) := rfl

/-- FLT sets V before it clears E. -/
theorem leaves_flt (kkkk : Int) : ∃ r', Leaves ((execFlt bd kkkk).run s).2 r' ∧
    Converted s.reg r' (IntegerInsn.fltOverflows s.reg) := by
  rw [execFlt, run_bind, reg_run, run_bind, fpEncode_run, run_bind, setE_run, run_bind, dr0,
    reg_run]
  refine ⟨_, leaves_skipIf bd _ kkkk _, ?_⟩
  constructor
  · exact E_withE
  · exact V_withE.trans V_withV
  · rfl
  · rfl
  · intro hSTR hov
    change ((s.reg.withV (IntegerInsn.fltOverflows s.reg)).withE false).STR = 0
    rw [hov]
    change land (land s.reg.STR _) _ = 0
    rw [hSTR]
    rfl

/-- The codes of NEG that are executed as conversions. -/
theorem leaves_conversion {d : Fin 7} (hd : 4 ≤ d.val) :
    ∃ r', Leaves ((exec03 bd 7 (k * 16 + (c * 8 + d))).run s).2 r' ∧ Converted s.reg r'
      (if c = 0 then IntegerInsn.fixOverflows s.reg else IntegerInsn.fltOverflows s.reg) := by
  have hd7 := d.isLt
  obtain ⟨hk, h2, h3, h10, h7, h4⟩ := low_fields (j := c.val * 8 + (d.val : Int)) (skip_range k)
    (by omega)
  have hbit2 : land (ushr ((k.val : Int) * 16 + (c.val * 8 + d.val)) 2) 1 = 1 := by
    rw [ushr_div 2 (by decide) (by omega) (by omega), land_1]
    omega
  have hc : ((c.val : Int) * 8 + d.val) / 8 = c.val := by omega
  rw [exec03, hk, hbit2, h3, hc, if_neg (by decide), if_pos rfl]
  by_cases hfix : c = 0
  · rw [if_pos (by rw [hfix]; rfl), if_pos hfix]
    exact leaves_fix bd s k
  · rw [if_neg (by omega), if_neg hfix]
    exact leaves_flt bd s k

/-- The double-word arms. -/
theorem leaves_AD (i : Fin 4) :
    Leaves ((exec09 bd 7 (k * 16 + (c * 8 + 4 + i))).run s).2
      (let d := doubleRegister s.reg + codeLong (view s) (s.reg.R i.succ) + s.reg.carryIn c
       putDouble ((s.reg.withE (d > 0xffffffff)).withV false) (ushr d 0)) := by
  obtain ⟨hk, h2, h3, h10, h7, h4⟩ := low_fields (j := c.val * 8 + 4 + (i.val : Int))
    (skip_range k) (by omega)
  have hc : ((c.val : Int) * 8 + 4 + i.val) / 8 = c.val := by omega
  have hi : ((c.val : Int) * 8 + 4 + i.val) % 4 = i.val := by omega
  obtain ⟨s₁, s₂, hread₁, hread₂, hview⟩ := rdC_long bd s (s.reg.R i.succ)
  have hreg : s₂.reg = s.reg := congrArg Prod.fst hview
  rw [exec09, hk, h3, h10, hc, hi, if_pos ⟨rfl, h4.mpr (by omega)⟩, run_bind, ri_run, run_bind,
    hread₁, run_bind, hread₂, run_bind, carryIn_run, carryIn_ite, run_bind, reg_run, run_bind,
    setE_run, run_bind, setOVF_run, run_bind, setDR0_run, run_bind, hreg]
  exact leaves_skipIf bd _ k _

theorem leaves_SD (i : Fin 4) :
    Leaves ((exec08 bd 7 (k * 16 + (c * 8 + 4 + i))).run s).2
      (let d := doubleRegister s.reg - codeLong (view s) (s.reg.R i.succ) - s.reg.carryIn c
       putDouble ((s.reg.withE (d < 0)).withV false) (if d < 0 then d + 0x100000000 else d)) := by
  obtain ⟨hk, h2, h3, h10, h7, h4⟩ := low_fields (j := c.val * 8 + 4 + (i.val : Int))
    (skip_range k) (by omega)
  have hc : ((c.val : Int) * 8 + 4 + i.val) / 8 = c.val := by omega
  have hi : ((c.val : Int) * 8 + 4 + i.val) % 4 = i.val := by omega
  obtain ⟨s₁, s₂, hread₁, hread₂, hview⟩ := rdC_long bd s (s.reg.R i.succ)
  have hreg : s₂.reg = s.reg := congrArg Prod.fst hview
  rw [exec08, hk, h3, h10, hc, hi, if_pos ⟨rfl, h4.mpr (by omega)⟩, run_bind, ri_run, run_bind,
    hread₁, run_bind, hread₂, run_bind, carryIn_run, carryIn_ite, run_bind, reg_run, run_bind,
    setE_run, run_bind, setOVF_run, run_bind, setDR0_run, run_bind, hreg]
  exact leaves_skipIf bd _ k _

end Outcome

section Exactness

variable {σ : Type} {insn : IntegerInsn} {c : View} {s' : Cpu σ} {r f : CPURegister} {d : Fin 7}
  {a b v : Int}

/-- An outcome that is exact but for the register `STR`, which the result may overwrite. -/
theorem exact_register (hl : Leaves s' (put f d v)) (hstored : ∀ r, insn.stored r = general r d)
    (hv : v = insn.unsignedResult c % insn.base)
    (hE : f.E = true ↔ insn.unsignedResult c < 0 ∨ insn.base ≤ insn.unsignedResult c)
    (hV : f.V = true ↔ ¬ Fits insn.base (insn.signedResult c)) :
    insn.Exact c s'.reg ↔ (d = 6 → insn.FlagsMatch c v) := by
  obtain ⟨ic, hreg⟩ := hl
  have hgeneral : general s'.reg d = v := by
    rw [hreg, ← general_put (r := f) (d := d) (v := v)]
    obtain ⟨d, hd⟩ := d
    interval_cases d <;> rfl
  have hresult : insn.stored s'.reg = insn.unsignedResult c % insn.base := by
    rw [hstored, hgeneral, hv]
  by_cases hd : d = 6
  · subst hd
    have hSTR : s'.reg.STR = v := hgeneral
    constructor
    · intro h _
      exact ⟨(by rw [← hSTR]; exact E_iff.symm.trans h.carry),
        (by rw [← hSTR]; exact V_iff.symm.trans h.overflow)⟩
    · intro h
      obtain ⟨hcarry, hoverflow⟩ := h rfl
      exact ⟨hresult, E_iff.trans (by rw [hSTR]; exact hcarry),
        V_iff.trans (by rw [hSTR]; exact hoverflow)⟩
  · have hSTR : s'.reg.STR = f.STR := by
      rw [hreg]
      exact put_STR hd
    refine iff_of_true ⟨hresult, ?_, ?_⟩ fun h => absurd h hd
    · rw [E_of_STR hSTR]
      exact hE
    · rw [V_of_STR hSTR]
      exact hV

/-- An addition into a register. -/
theorem exact_addInto (hl : Leaves s' (addInto r d a b)) (ha : Within 0xffff a)
    (hb : Within 0xffff b) (hstored : ∀ r, insn.stored r = general r d)
    (hbase : insn.base = 65536) (hu : insn.unsignedResult c = a + b)
    (hs : insn.signedResult c = signed 65536 a + signed 65536 b) :
    insn.Exact c s'.reg ↔ (d = 6 → insn.FlagsMatch c (insn.unsignedResult c % 65536)) := by
  have ha0 := ha.1
  have hb0 := hb.1
  have hv : land (land (a + b) 0xffff) 0xffff = insn.unsignedResult c % insn.base := by
    rw [hu, hbase, land_ffff, land_ffff, Int.emod_emod]
  have h := exact_register (c := c) hl hstored hv
    (addFlags_E.trans (by rw [hu, hbase]; omega)) ((addFlags_V ha hb).trans (by rw [hs, hbase]))
  rw [hv, hbase] at h
  exact h

/-- A subtraction into a register. -/
theorem exact_subInto (hl : Leaves s' (subInto r d a b)) (ha : Within 0xffff a)
    (hb : Within 0xffff b) (hstored : ∀ r, insn.stored r = general r d)
    (hbase : insn.base = 65536) (hu : insn.unsignedResult c = a - b)
    (hs : insn.signedResult c = signed 65536 a - signed 65536 b) :
    insn.Exact c s'.reg ↔ (d = 6 → insn.FlagsMatch c (insn.unsignedResult c % 65536)) := by
  have ha1 := ha.2
  have hb0 := hb.1
  have hv : land (land (a - b) 0xffff) 0xffff = insn.unsignedResult c % insn.base := by
    rw [hu, hbase, land_ffff, land_ffff, Int.emod_emod]
  have h := exact_register (c := c) hl hstored hv
    (subFlags_E.trans (by rw [hu, hbase]; omega)) ((subFlags_V ha hb).trans (by rw [hs, hbase]))
  rw [hv, hbase] at h
  exact h

variable {k : Fin 16} {e : Int}

theorem neg_results {carry : Fin 2} (hgeneral : general c.1 d = a)
    (hcarry : c.1.carryIn carry = e) :
    (IntegerInsn.NEG carry d).base = 65536 ∧
      (IntegerInsn.NEG carry d).unsignedResult c = -(a + e) ∧
      (IntegerInsn.NEG carry d).signedResult c = -(signed 65536 a + e) := by
  refine ⟨rfl, ?_, ?_⟩
  · change 0 + -1 * (general c.1 d + c.1.carryIn carry) = -(a + e)
    rw [hgeneral, hcarry]
    omega
  · change signed 65536 0 + -1 * (signed 65536 (general c.1 d) + c.1.carryIn carry) = _
    rw [hgeneral, hcarry, show signed 65536 0 = 0 by decide]
    omega

/-- NEG of the registers that it reaches is exact for 0 only. -/
theorem exact_neg {carry : Fin 2} (hd : d.val < 4) (ha : Within 0xffff a)
    (he : e = 0 ∨ e = 1) (hgeneral : general c.1 d = a) (hcarry : c.1.carryIn carry = e)
    (hl : Leaves s' (put (negFlags r a e) d
      (land (land (land (0 - a) 0xffff - e) 0xffff) 0xffff))) :
    (IntegerInsn.NEG carry d).Exact c s'.reg ↔ a = 0 := by
  obtain ⟨ha0, ha1⟩ := ha
  obtain ⟨ic, hreg⟩ := hl
  have hne : d ≠ 6 := by
    rintro rfl
    exact absurd hd (by decide)
  obtain ⟨hbase, hu, hs⟩ := neg_results hgeneral hcarry
  have hSTR : s'.reg.STR = (negFlags r a e).STR := by
    rw [hreg]
    exact put_STR hne
  have hE : s'.reg.E = true ↔ land (0 - a) 0xffff - e < 0 := by
    rw [E_of_STR hSTR]
    exact subFlags_E
  have hV : s'.reg.V = true ↔
      ¬ Fits 65536 (signed 65536 (land (0 - a) 0xffff) - signed 65536 e) := by
    rw [V_of_STR hSTR]
    exact subFlags_V (within_land_word _) (by rcases he with rfl | rfl <;> exact ⟨by decide, by decide⟩)
  have hstored : general s'.reg d = land (land (land (0 - a) 0xffff - e) 0xffff) 0xffff := by
    rw [hreg]
    exact general_put
  simp only [land_ffff] at hE hV hstored
  constructor
  · intro h
    have hcarry := hE.symm.trans h.carry
    rw [hu, hbase] at hcarry
    rcases he with rfl | rfl <;> omega
  · rintro rfl
    refine ⟨?_, ?_, ?_⟩
    · rw [IntegerInsn.stored, hstored, hu, hbase]
      omega
    · rw [hE, hu, hbase]
      rcases he with rfl | rfl <;> omega
    · rw [hV, hs, hbase]
      rcases he with rfl | rfl <;> decide

/-- The codes of NEG that are executed as conversions. -/
theorem exact_conversion {carry : Fin 2} {ov : Bool} (hd : 4 ≤ d.val) (ha : Within 0xffff a)
    (he : e = 0 ∨ e = 1) (hgeneral : general c.1 d = a) (hcarry : c.1.carryIn carry = e)
    (hl : Leaves s' r) (hr : Converted c.1 r ov) :
    (IntegerInsn.NEG carry d).Exact c s'.reg ↔ a = 0 ∧ e = 0 ∧ ov = false := by
  obtain ⟨ha0, ha1⟩ := ha
  obtain ⟨ic, hreg⟩ := hl
  obtain ⟨hbase, hu, hs⟩ := neg_results hgeneral hcarry
  have hSTR : s'.reg.STR = r.STR := by rw [hreg]
  have hE : s'.reg.E = false := (E_of_STR hSTR).trans hr.E
  have hV : s'.reg.V = ov := (V_of_STR hSTR).trans hr.V
  constructor
  · intro h
    have hnone : ¬ (-(a + e) < 0 ∨ 65536 ≤ -(a + e)) := by
      rw [← hu, ← hbase, ← h.carry, hE]
      exact Bool.false_ne_true
    have hzero : a = 0 ∧ e = 0 := by omega
    refine ⟨hzero.1, hzero.2, ?_⟩
    have hov := h.overflow
    rw [hV, hs, hbase, hzero.1, hzero.2] at hov
    cases hval : ov with
    | false => rfl
    | true => exact absurd (hov.mp hval) (by decide)
  · rintro ⟨rfl, rfl, rfl⟩
    refine ⟨?_, ?_, ?_⟩
    · rw [hu, hbase]
      change general s'.reg d = 0
      rw [hreg, ← hgeneral]
      obtain ⟨d, hlt⟩ := d
      interval_cases d
      · exact hr.R4
      · exact hr.SP
      · exact (hr.STR hgeneral rfl).trans hgeneral.symm
    · rw [hE, hu, hbase]
      decide
    · rw [hV, hs, hbase]
      decide

/-- What a double-word operation leaves. -/
theorem double_outcome {e : Bool} (h0 : 0 ≤ v) (hlt : v < 2 ^ 32)
    (hl : Leaves s' (putDouble ((r.withE e).withV false) v)) :
    doubleRegister s'.reg = v ∧ s'.reg.E = e ∧ s'.reg.V = false := by
  obtain ⟨ic, hreg⟩ := hl
  have hSTR : s'.reg.STR = ((r.withE e).withV false).STR := by
    rw [hreg]
    rfl
  refine ⟨?_, (E_of_STR hSTR).trans (E_withV.trans E_withE), (V_of_STR hSTR).trans V_withV⟩
  rw [hreg]
  exact doubleRegister_putDouble (r := (r.withE e).withV false) h0 hlt

/-- A double-word operation is exact when V, which it clears, is right. -/
theorem exact_double {e : Bool} (hstored : ∀ r, insn.stored r = doubleRegister r)
    (hbase : insn.base = 2 ^ 32) (h0 : 0 ≤ v) (hlt : v < 2 ^ 32)
    (hv : v = insn.unsignedResult c % 2 ^ 32)
    (he : e = true ↔ insn.unsignedResult c < 0 ∨ 2 ^ 32 ≤ insn.unsignedResult c)
    (hl : Leaves s' (putDouble ((r.withE e).withV false) v)) :
    insn.Exact c s'.reg ↔ Fits insn.base (insn.signedResult c) := by
  obtain ⟨hdouble, hE, hV⟩ := double_outcome h0 hlt hl
  constructor
  · intro h
    by_contra hfit
    have hset := h.overflow.mpr hfit
    rw [hV] at hset
    cases hset
  · intro hfit
    refine ⟨?_, ?_, ?_⟩
    · rw [hstored, hdouble, hv, hbase]
    · rw [hE, he, hbase]
    · rw [hV]
      exact iff_of_false Bool.false_ne_true fun h => h hfit

end Exactness

section Main

variable {σ : Type} (bd : Board σ)

theorem sum_eq (x y : Int) : x + 1 * (y + 0) = x + y := by omega

theorem difference_eq (x y : Int) : x + -1 * (y + 0) = x - y := by omega

/-- Carry and overflow exactness: from every state whose registers are in their widths, an
integer addition or subtraction stores the exact result and sets E and V exactly, if and
only if it is one of the cases in which the code is sound. -/
theorem integer_exact {o b : Int} (insn : IntegerInsn) (k : Fin 16) (s : Cpu σ)
    (hs : Bounded o b s.reg) :
    insn.Exact (view s) (after bd (insn.word k) s).reg ↔ insn.Sound (view s) := by
  have hk := skip_range k
  have hgeneral := fun d => within_general hs d
  have hcode := fun la => within_codeValue (view s) la
  cases insn with
  | A d t =>
      rw [after, IntegerInsn.word, execute_0b bd (by omega) (by omega)]
      exact exact_addInto (leaves_register bd s k d t).1 (hgeneral d) (hgeneral t) (fun _ => rfl)
        rfl (sum_eq _ _) (sum_eq _ _)
  | S d t =>
      rw [after, IntegerInsn.word, execute_0b bd (by omega) (by omega)]
      exact exact_subInto (leaves_register bd s k d t).2 (hgeneral d) (hgeneral t) (fun _ => rfl)
        rfl (difference_eq _ _) (difference_eq _ _)
  | AWI d =>
      rw [after, IntegerInsn.word, execute_0b bd (by omega) (by omega)]
      exact exact_addInto (leaves_immediate bd s k d).1 (hgeneral d) (hcode _) (fun _ => rfl)
        rfl (sum_eq _ _) (sum_eq _ _)
  | SWI d =>
      rw [after, IntegerInsn.word, execute_0b bd (by omega) (by omega)]
      exact exact_subInto (leaves_immediate bd s k d).2 (hgeneral d) (hcode _) (fun _ => rfl)
        rfl (difference_eq _ _) (difference_eq _ _)
  | AWR i =>
      rw [after, IntegerInsn.word, execute_0b bd (by omega) (by omega)]
      have h : (IntegerInsn.AWR i).Exact (view s) _ ↔ _ :=
        exact_addInto (leaves_pointer bd s k i).1 (hs.R 0) (hcode _) (fun _ => rfl) rfl
          (sum_eq _ _) (sum_eq _ _)
      exact iff_of_true (h.mpr fun h6 => absurd h6 (by decide)) trivial
  | SWR i =>
      rw [after, IntegerInsn.word, execute_0b bd (by omega) (by omega)]
      have h : (IntegerInsn.SWR i).Exact (view s) _ ↔ _ :=
        exact_subInto (leaves_pointer bd s k i).2 (hs.R 0) (hcode _) (fun _ => rfl) rfl
          (difference_eq _ _) (difference_eq _ _)
      exact iff_of_true (h.mpr fun h6 => absurd h6 (by decide)) trivial
  | NEG c d =>
      have he := carryIn_cases s.reg c
      rw [after, IntegerInsn.word, execute_03 bd (by omega) (by omega)]
      by_cases hd : d.val < 4
      · have h := exact_neg (c := view s) hd (hgeneral d) he rfl rfl (leaves_neg bd s k c hd)
        exact h.trans ⟨fun h0 => ⟨h0, fun h4 => absurd hd (by omega)⟩, fun h0 => h0.1⟩
      · have h4 : 4 ≤ d.val := by omega
        obtain ⟨r, hl, hr⟩ := leaves_conversion bd s k c h4
        have h := exact_conversion (c := view s) h4 (hgeneral d) he rfl rfl hl hr
        exact h.trans ⟨fun h0 => ⟨h0.1, fun _ => h0.2⟩, fun h0 => ⟨h0.1, h0.2 h4⟩⟩
  | AD c i =>
      have he := carryIn_cases s.reg c
      obtain ⟨hd0, hd1⟩ := within_double hs.R
      obtain ⟨hm0, hm1⟩ := within_codeLong (view s) (s.reg.R i.succ)
      have hu : (IntegerInsn.AD c i).unsignedResult (view s) = doubleRegister s.reg +
          codeLong (view s) (s.reg.R i.succ) + s.reg.carryIn c := by
        change doubleRegister s.reg + 1 * (codeLong (view s) (s.reg.R i.succ) + s.reg.carryIn c) = _
        omega
      rw [after, IntegerInsn.word, execute_09 bd (by omega) (by omega)]
      refine exact_double (fun _ => rfl) rfl ?_ ?_ ?_ ?_ (leaves_AD bd s k c i)
      · rw [ushr_zero_emod]
        omega
      · rw [ushr_zero_emod]
        omega
      · rw [ushr_zero_emod, hu]
      · rw [hu, decide_eq_true_iff]
        omega
  | SD c i =>
      have he := carryIn_cases s.reg c
      obtain ⟨hd0, hd1⟩ := within_double hs.R
      obtain ⟨hm0, hm1⟩ := within_codeLong (view s) (s.reg.R i.succ)
      have hu : (IntegerInsn.SD c i).unsignedResult (view s) = doubleRegister s.reg -
          codeLong (view s) (s.reg.R i.succ) - s.reg.carryIn c := by
        change doubleRegister s.reg + -1 * (codeLong (view s) (s.reg.R i.succ) + s.reg.carryIn c) = _
        omega
      rw [after, IntegerInsn.word, execute_08 bd (by omega) (by omega)]
      refine exact_double (fun _ => rfl) rfl ?_ ?_ ?_ ?_ (leaves_SD bd s k c i)
      · split_ifs <;> omega
      · split_ifs <;> omega
      · rw [hu]
        split_ifs <;> omega
      · rw [hu, decide_eq_true_iff]
        omega

/-- `A R0, R1` on 0xffff and 1. -/
theorem integer_exact_add :
    (IntegerInsn.A 0 1).Exact (view (sample 0xffff 1))
        (after .default ((IntegerInsn.A 0 1).word 0) (sample 0xffff 1)).reg ↔
      (IntegerInsn.A 0 1).Sound (view (sample 0xffff 1)) :=
  integer_exact .default (.A 0 1) 0 (sample 0xffff 1)
    (sample_bounded ⟨by decide, by decide⟩ ⟨by decide, by decide⟩)

/-- NEG of 1 without carry clears E, although it borrows. -/
theorem neg_borrow_lost :
    ¬ (IntegerInsn.NEG 1 0).Exact (view (sample 1 0))
      (after .default ((IntegerInsn.NEG 1 0).word 0) (sample 1 0)).reg := by
  intro h
  have hclear : (after .default ((IntegerInsn.NEG 1 0).word 0) (sample 1 0)).reg.E = false := by
    decide
  have hborrow := h.carry.mpr (.inl (by decide))
  rw [hclear] at hborrow
  cases hborrow

end Main

end Mn1613
end RetroCpu
