import Mathlib.Tactic.IntervalCases
import RetroCpu.EmuTs.Mn1613Board
import RetroCpu.EmuTs.Mn1613Flags
import RetroCpu.Mn1613.View
import RetroCpu.Mn1613.WordOps

/-!
# Fields and operands of the register instructions

An instruction word below `0x8000` is `op * 2048 + rrr * 256 + lo`, and the low byte of
most of them a skip code and four bits.  The decoder reads these fields back, and they
select the operands: a register, or a memory word to which one of `R1`..`R4` points.
-/

namespace RetroCpu
namespace Mn1613

open Js Prog Carry
open EmuTs.Mn1613

section Fields

variable {op rrr lo k j : Int}

theorem land_1 (x : Int) : land x 1 = x % 2 := land_mask x (k := 1) (by decide)

theorem land_3 (x : Int) : land x 3 = x % 4 := land_mask x (k := 2) (by decide)

theorem land_7 (x : Int) : land x 7 = x % 8 := land_mask x (k := 3) (by decide)

theorem land_1f (x : Int) : land x 0x1f = x % 32 := land_mask x (k := 5) (by decide)

theorem land_4_ne_zero (x : Int) : land x 4 ≠ 0 ↔ x / 4 % 2 = 1 := by
  have h := land_bit_ne_zero x (k := 2) (by decide)
  rw [toBits_getLsbD x (by decide), decide_eq_true_iff] at h
  exact h

/-- The instruction word with the fields `op`, `rrr` and `lo`. -/
def fieldWord (op rrr lo : Int) : Int := op * 2048 + rrr * 256 + lo

/-- The decoder reads the fields of a word back. -/
theorem fieldWord_fields (hop : 0 ≤ op ∧ op < 32) (hrrr : 0 ≤ rrr ∧ rrr < 8)
    (hlo : 0 ≤ lo ∧ lo < 256) :
    land (ushr (fieldWord op rrr lo) 11) 0x1f = op ∧
      land (ushr (fieldWord op rrr lo) 8) 0x7 = rrr ∧ land (fieldWord op rrr lo) 0xff = lo := by
  rw [fieldWord, ushr_div 11 (by decide) (by omega) (by omega),
    ushr_div 8 (by decide) (by omega) (by omega), land_1f, land_7, land_ff]
  refine ⟨?_, ?_, ?_⟩
  all_goals omega

/-- The fields of a low byte with the skip code `k` and the lower bits `j`. -/
theorem low_fields (hk : 0 ≤ k ∧ k < 16) (hj : 0 ≤ j ∧ j < 16) :
    land (ushr (k * 16 + j) 4) 0xf = k ∧ land (ushr (k * 16 + j) 2) 3 = j / 4 ∧
      land (ushr (k * 16 + j) 3) 1 = j / 8 ∧ land (k * 16 + j) 3 = j % 4 ∧
      land (k * 16 + j) 7 = j % 8 ∧ (land (k * 16 + j) 4 ≠ 0 ↔ j / 4 % 2 = 1) := by
  rw [ushr_div 4 (by decide) (by omega) (by omega), ushr_div 2 (by decide) (by omega) (by omega),
    ushr_div 3 (by decide) (by omega) (by omega), land_f, land_3, land_1, land_3, land_7,
    land_4_ne_zero]
  refine ⟨?_, ?_, ?_, ?_, ?_, ?_⟩
  all_goals omega

variable {σ : Type} (bd : Board σ) (hrrr : 0 ≤ rrr ∧ rrr < 8) (hlo : 0 ≤ lo ∧ lo < 256)
include hrrr hlo

theorem execute_03 : execute bd (fieldWord 0x03 rrr lo) = exec03 bd rrr lo := by
  obtain ⟨h11, h8, h0⟩ := fieldWord_fields (show 0 ≤ (0x03 : Int) ∧ (0x03 : Int) < 32 by decide)
    hrrr hlo
  rw [execute, h11, h8, h0]
  rfl

theorem execute_07 : execute bd (fieldWord 0x07 rrr lo) = exec07 bd rrr lo := by
  obtain ⟨h11, h8, h0⟩ := fieldWord_fields (show 0 ≤ (0x07 : Int) ∧ (0x07 : Int) < 32 by decide)
    hrrr hlo
  rw [execute, h11, h8, h0]
  rfl

theorem execute_08 : execute bd (fieldWord 0x08 rrr lo) = exec08 bd rrr lo := by
  obtain ⟨h11, h8, h0⟩ := fieldWord_fields (show 0 ≤ (0x08 : Int) ∧ (0x08 : Int) < 32 by decide)
    hrrr hlo
  rw [execute, h11, h8, h0]
  rfl

theorem execute_09 : execute bd (fieldWord 0x09 rrr lo) = exec09 bd rrr lo := by
  obtain ⟨h11, h8, h0⟩ := fieldWord_fields (show 0 ≤ (0x09 : Int) ∧ (0x09 : Int) < 32 by decide)
    hrrr hlo
  rw [execute, h11, h8, h0]
  rfl

theorem execute_0a : execute bd (fieldWord 0x0a rrr lo) = exec0a bd rrr lo := by
  obtain ⟨h11, h8, h0⟩ := fieldWord_fields (show 0 ≤ (0x0a : Int) ∧ (0x0a : Int) < 32 by decide)
    hrrr hlo
  rw [execute, h11, h8, h0]
  rfl

theorem execute_0b : execute bd (fieldWord 0x0b rrr lo) = exec0b bd rrr lo := by
  obtain ⟨h11, h8, h0⟩ := fieldWord_fields (show 0 ≤ (0x0b : Int) ∧ (0x0b : Int) < 32 by decide)
    hrrr hlo
  rw [execute, h11, h8, h0]
  rfl

theorem execute_0e : execute bd (fieldWord 0x0e rrr lo) = exec0e bd rrr lo := by
  obtain ⟨h11, h8, h0⟩ := fieldWord_fields (show 0 ≤ (0x0e : Int) ∧ (0x0e : Int) < 32 by decide)
    hrrr hlo
  rw [execute, h11, h8, h0]
  rfl

theorem execute_0f : execute bd (fieldWord 0x0f rrr lo) = exec0f bd rrr lo := by
  obtain ⟨h11, h8, h0⟩ := fieldWord_fields (show 0 ≤ (0x0f : Int) ∧ (0x0f : Int) < 32 by decide)
    hrrr hlo
  rw [execute, h11, h8, h0]
  rfl

end Fields

section Registers

/-- The register that a field other than 7 names. -/
def general (r : CPURegister) (d : Fin 7) : Int :=
  match d with
  | 0 => r.R 0
  | 1 => r.R 1
  | 2 => r.R 2
  | 3 => r.R 3
  | 4 => r.R 4
  | 5 => r.SP
  | 6 => r.STR

/-- Assign the register that a field other than 7 names. -/
def put (r : CPURegister) (d : Fin 7) (v : Int) : CPURegister :=
  match d with
  | 0 => { r with R := Function.update r.R 0 v }
  | 1 => { r with R := Function.update r.R 1 v }
  | 2 => { r with R := Function.update r.R 2 v }
  | 3 => { r with R := Function.update r.R 3 v }
  | 4 => { r with R := Function.update r.R 4 v }
  | 5 => { r with SP := v }
  | 6 => { r with STR := v }

variable {σ : Type} (s : Cpu σ)

theorem reg_run {α : Type} (f : CPURegister → α) : (reg f).run s = (f s.reg, s) := rfl

theorem setR_run (i : Fin 5) (v : Int) :
    (setR i v).run s =
      ((), { s with reg := { s.reg with R := Function.update s.reg.R i v } }) := rfl

theorem gr_run (d : Fin 7) : (gr (d.val : Int)).run s = (general s.reg d, s) := by
  have h (n : Nat) (hn : n < 7) : (gr (n : Int)).run s = (general s.reg ⟨n, hn⟩, s) := by
    interval_cases n <;> rfl
  exact h d.val d.isLt

theorem sw_run (d : Fin 7) (v : Int) :
    (sw (d.val : Int) v).run s = ((), { s with reg := put s.reg d (land v 0xffff) }) := by
  have h (n : Nat) (hn : n < 7) :
      (sw (n : Int) v).run s = ((), { s with reg := put s.reg ⟨n, hn⟩ (land v 0xffff) }) := by
    interval_cases n <;> rfl
  exact h d.val d.isLt

/-- The registers that point to memory operands. -/
theorem ri_run (i : Fin 4) : (ri (i.val : Int)).run s = (s.reg.R i.succ, s) := by
  have h (n : Nat) (hn : n < 4) : riIndex (n : Int) = Fin.succ ⟨n, hn⟩ := by
    interval_cases n <;> rfl
  exact congrArg (fun j => (s.reg.R j, s)) (h i.val i.isLt)

variable {r : CPURegister} {d : Fin 7} {v : Int}

theorem general_put : general (put r d v) d = v := by
  obtain ⟨d, hd⟩ := d
  interval_cases d <;> rfl

/-- Only the register 6 holds the flags. -/
theorem put_STR (hd : d ≠ 6) : (put r d v).STR = r.STR := by
  obtain ⟨d, hlt⟩ := d
  interval_cases d
  all_goals first | rfl | exact absurd rfl hd

theorem within_general {o b : Int} (h : Bounded o b r) (d : Fin 7) :
    Within 0xffff (general r d) := by
  obtain ⟨d, hd⟩ := d
  interval_cases d
  · exact h.R 0
  · exact h.R 1
  · exact h.R 2
  · exact h.R 3
  · exact h.R 4
  · exact h.SP
  · exact h.STR

/-- The state after an instruction. -/
def after (bd : Board σ) (ir : Int) (s : Cpu σ) : Cpu σ := ((execute bd ir).run s).2

/-- The carry or borrow that E holds. -/
def carryBit (r : CPURegister) : Int := if r.E then 1 else 0

theorem carryIn_zero (r : CPURegister) : r.carryIn 0 = carryBit r := by
  rw [CPURegister.carryIn, carryBit]
  cases r.E <;> rfl

theorem carryIn_one (r : CPURegister) : r.carryIn 1 = 0 := if_neg fun h => absurd h.1 (by decide)

end Registers

section Memory

/-- The memory word that a logical address names in the code segment, as a number. -/
def codeValue (c : View) (la : Int) : Int := num (c.2 (codeCell c la))

theorem within_codeValue (c : View) (la : Int) : Within 0xffff (codeValue c la) := within_num _

/-- The double word at a logical address. -/
def codeLong (c : View) (la : Int) : Int :=
  codeValue c la * 65536 + codeValue c (land (la + 1) 0xffff)

/-- A read of the code segment. -/
theorem rdC_run {σ : Type} (bd : Board σ) (s : Cpu σ) (la : Int) :
    ∃ s', (rdC bd la).run s = (codeValue (view s) la, s') ∧ view s' = view s :=
  ⟨_, Prod.ext (rdC_value bd s la) rfl, view_rdC bd s la⟩

/-- The read of a double word. -/
theorem rdC_long {σ : Type} (bd : Board σ) (s : Cpu σ) (la : Int) :
    ∃ s₁ s₂, (rdC bd la).run s = (codeValue (view s) la, s₁) ∧
      (rdC bd (land (la + 1) 0xffff)).run s₁ =
        (codeValue (view s) (land (la + 1) 0xffff), s₂) ∧ view s₂ = view s := by
  obtain ⟨s₁, h₁, hview₁⟩ := rdC_run bd s la
  obtain ⟨s₂, h₂, hview₂⟩ := rdC_run bd s₁ (land (la + 1) 0xffff)
  rw [hview₁] at h₂ hview₂
  exact ⟨s₁, s₂, h₁, h₂, hview₂⟩

/-- The double register `R0`, `R1`. -/
def doubleRegister (r : CPURegister) : Int := r.R 0 * 65536 + r.R 1

/-- What `setDR0` does to the registers. -/
def putDouble (r : CPURegister) (v : Int) : CPURegister :=
  let R := Function.update r.R 0 (land (ushr v 16) 0xffff)
  { r with R := Function.update R 1 (land v 0xffff) }

theorem setDR0_run {σ : Type} (s : Cpu σ) (v : Int) :
    (setDR0 v).run s = ((), { s with reg := putDouble s.reg v }) := rfl

/-- A double word is stored whole. -/
theorem doubleRegister_putDouble {r : CPURegister} {v : Int} (h0 : 0 ≤ v) (h : v < 2 ^ 32) :
    doubleRegister (putDouble r v) = v := by
  have hhigh : ushr v 16 = v / 65536 := by
    have hv : num (BitVec.ofInt 32 v) = v := num_ofInt h0 h
    rw [← hv, ushr_ofNat _ 16 (by decide) (by decide)]
    simp only [num, BitVec.toNat_ushiftRight, Nat.shiftRight_eq_div_pow]
    omega
  change land (ushr v 16) 0xffff * 65536 + land v 0xffff = v
  rw [hhigh, land_ffff, land_ffff]
  omega

theorem within_double {r : CPURegister} (h : ∀ i, Within 0xffff (r.R i)) :
    0 ≤ doubleRegister r ∧ doubleRegister r < 2 ^ 32 := by
  obtain ⟨h0, h1⟩ := h 0
  obtain ⟨h2, h3⟩ := h 1
  rw [doubleRegister]
  constructor <;> omega

theorem within_codeLong (c : View) (la : Int) : 0 ≤ codeLong c la ∧ codeLong c la < 2 ^ 32 := by
  obtain ⟨h0, h1⟩ := within_codeValue c la
  obtain ⟨h2, h3⟩ := within_codeValue c (land (la + 1) 0xffff)
  rw [codeLong]
  constructor <;> omega

/-- `x >>> 0` brings a number back to 32 bits. -/
theorem ushr_zero_emod (x : Int) : ushr x 0 = x % 2 ^ 32 := by
  have h0 : 0 ≤ x % 2 ^ 32 := Int.emod_nonneg _ (by decide)
  rw [WordOps.ushr_zero, toBits, num, BitVec.toNat_ofInt]
  omega

end Memory

section Outcome

variable {σ : Type} (bd : Board σ) (s : Cpu σ)

/-- The registers are `r`, but for `IC`. -/
def Leaves (s : Cpu σ) (r : CPURegister) : Prop := ∃ ic, s.reg = { r with IC := ic }

theorem leaves_skipIf (k v : Int) : Leaves ((skipIf bd k v).run s).2 s.reg := by
  have hview := congrArg Prod.fst (view_skipIf bd s k v)
  rw [apply_ite Prod.fst] at hview
  by_cases h : ((skip k v).run s).1 = true
  · rw [if_pos h] at hview
    exact ⟨_, hview⟩
  · rw [if_neg h] at hview
    exact ⟨_, hview⟩

theorem leaves_swSkip (d : Fin 7) (k v : Int) :
    Leaves ((swSkip bd d k v).run s).2 (put s.reg d (land v 0xffff)) := by
  rw [swSkip, run_bind, sw_run]
  exact leaves_skipIf bd _ k v

theorem leaves_setR0Skip (k v : Int) :
    Leaves ((setR0Skip bd k v).run s).2 { s.reg with R := Function.update s.reg.R 0 v } := by
  rw [setR0Skip, run_bind]
  exact leaves_skipIf bd _ k v

/-- The register file after the second word of an instruction has been fetched. -/
theorem general_fetch (d : Fin 7) : general ((fetch bd).run s).2.reg d = general s.reg d := by
  obtain ⟨d, hd⟩ := d
  interval_cases d <;> rfl

variable (k : Fin 16)

theorem skip_range : 0 ≤ (k.val : Int) ∧ (k.val : Int) < 16 := by omega

theorem register_ne (d : Fin 7) : ¬ (d.val : Int) = 7 := by omega

end Outcome

section Samples

/-- A core whose registers are clear but for `R0` and `R1`, in a memory of ones. -/
def sample (r0 r1 : Int) : Cpu Unit :=
  let reg := CPURegister.initial
  let R := Function.update (Function.update reg.R 0 r0) 1 r1
  { Cpu.initial (fun _ => 1#16) () with reg := { reg with R := R } }

theorem sample_bounded {r0 r1 : Int} (h0 : Within 0xffff r0) (h1 : Within 0xffff r1) :
    Bounded 0xf 0xff (sample r0 r1).reg :=
  { bounded_initial (by decide) (by decide) with
    R := within_update (within_update (fun _ => within_zero (by decide)) 0 h0) 1 h1 }

end Samples

end Mn1613
end RetroCpu
