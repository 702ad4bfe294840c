import RetroCpu.EmuTs.Mn1613Nesting
import RetroCpu.EmuTs.Mn1613Width
import RetroCpu.Mn1613.Simulation

/-!
# What an instruction of the MN1613 works on

An instruction reads and changes registers and memory; its accesses are shown to the
board, which changes neither.  `view` is that part of the state of the TypeScript core, and
the `view_*` equations say what the primitives of the decoder do to it.
-/

namespace RetroCpu
namespace Mn1613

open Js Prog
open EmuTs.Mn1613

/-- Registers and memory: what an instruction works on. -/
abbrev View := CPURegister × Mem

/-- The memory word that a logical address names in the code segment. -/
def codeCell (c : View) (la : Int) : BitVec 18 := BitVec.ofInt 18 (EmuTs.Mn1613.phys la c.1.CSBR)

/-- Step over the instruction at `IC`. -/
def skipped (c : View) : View :=
  let length := if EmuTs.Mn1613.is2Word (num (c.2 (codeCell c c.1.IC))) then 2 else 1
  ({ c.1 with IC := land (c.1.IC + length) 0xffff }, c.2)

section Primitives

variable {σ : Type}

def view (s : Cpu σ) : View := (s.reg, s.mem)

theorem land_phys (la seg : Int) :
    land (phys la seg) 0x3ffff = phys la seg ∧ phys la seg < 262144 := by
  rw [land_3ffff, Simulation.phys_eq]
  constructor <;> omega

theorem getUint16_phys (mem : Mem) (la seg : Int) :
    getUint16 mem (land (phys la seg) 0x3ffff) = num (mem (BitVec.ofInt 18 (phys la seg))) := by
  obtain ⟨hland, hlt⟩ := land_phys la seg
  rw [hland, getUint16, if_neg (by simp only [MEM_WORDS]; omega)]

theorem ofInt_land_word (v : Int) : BitVec.ofInt 16 (land v 0xffff) = BitVec.ofInt 16 v := by
  rw [land_word, ofInt_num]

theorem setUint16_phys (mem : Mem) (la seg v : Int) :
    setUint16 mem (land (phys la seg) 0x3ffff) (land v 0xffff) =
      Function.update mem (BitVec.ofInt 18 (phys la seg)) (BitVec.ofInt 16 v) := by
  obtain ⟨hland, hlt⟩ := land_phys la seg
  rw [hland, setUint16, if_pos (by simp only [MEM_WORDS]; omega), ofInt_land_word]

theorem land_succ (x : Int) : land (land (x + 1) 0xffff + 1) 0xffff = land (x + 2) 0xffff := by
  rw [land_ffff, land_ffff, land_ffff]
  omega

variable (bd : Board σ) (s : Cpu σ)

theorem rdC_value (la : Int) : ((rdC bd la).run s).1 = num ((view s).2 (codeCell (view s) la)) := by
  rw [codeCell, ← getUint16_phys]
  rfl

theorem view_rdC (la : Int) : view ((rdC bd la).run s).2 = view s := rfl

theorem view_wrC (la v : Int) :
    view ((wrC bd la v).run s).2 =
      ((view s).1, Function.update (view s).2 (codeCell (view s) la) (BitVec.ofInt 16 v)) := by
  change (s.reg, setUint16 s.mem (land (phys la s.reg.CSBR) 0x3ffff) (land v 0xffff)) = _
  rw [setUint16_phys]
  rfl

theorem view_push (v : Int) :
    view ((push bd v).run s).2 =
      ({ (view s).1 with SP := land ((view s).1.SP - 1) 0xffff },
        Function.update (view s).2 (BitVec.ofInt 18 (phys (view s).1.SP (view s).1.SSBR))
          (BitVec.ofInt 16 v)) := by
  change ({ s.reg with SP := land (s.reg.SP - 1) 0xffff },
    setUint16 s.mem (land (phys s.reg.SP s.reg.SSBR) 0x3ffff) (land v 0xffff)) = _
  rw [setUint16_phys]
  rfl

theorem view_skipNext : view ((skipNext bd).run s).2 = skipped (view s) := by
  have hword : ((rdC bd ((reg CPURegister.IC).run s).1).run ((reg CPURegister.IC).run s).2).1 =
      num ((view s).2 (codeCell (view s) (view s).1.IC)) := rdC_value bd s s.reg.IC
  rw [skipNext, run_bind, run_bind, run_bind, run_ite, hword, skipped]
  by_cases h : is2Word (num ((view s).2 (codeCell (view s) (view s).1.IC))) = true
  · rw [if_pos h, if_pos h, ← land_succ]
    rfl
  · rw [if_neg h, if_neg h]
    rfl

/-- The fetch of an operand word. -/
theorem fetch_value :
    ((fetch bd).run s).1 = num ((view s).2 (codeCell (view s) (view s).1.IC)) := by
  rw [fetch, run_bind, run_bind, run_bind, run_pure]
  exact rdC_value bd s s.reg.IC

theorem view_fetch :
    view ((fetch bd).run s).2 =
      ({ (view s).1 with IC := land ((view s).1.IC + 1) 0xffff }, (view s).2) := by
  rw [fetch, run_bind, run_bind, run_bind, run_modify]
  rfl

/-- The word that the core fetches as its next instruction. -/
theorem fetchInstruction_value : (fetchInstruction bd s).1 =
    num ((view s).2 (codeCell (view s) (view s).1.IC)) := fetch_value bd s

/-- The state in which a fetched instruction is executed. -/
theorem view_fetchInstruction : view (fetchInstruction bd s).2 =
    ({ (view s).1 with IC := land ((view s).1.IC + 1) 0xffff }, (view s).2) := view_fetch bd s

/-- A skip that depends on the flags and on a result. -/
theorem view_skipIf (kkkk result : Int) :
    view ((skipIf bd kkkk result).run s).2 =
      if ((skip kkkk result).run s).1 then skipped (view s) else view s := by
  rw [skipIf, run_bind, run_ite]
  by_cases h : ((skip kkkk result).run s).1 = true
  · rw [if_pos h, if_pos h, ← view_skipNext bd]
    rfl
  · rw [if_neg h, if_neg h]
    rfl

end Primitives

/-- Registers and memory of the Rust core. -/
def viewRs {σ : Type} (t : EmuRs.Mn1613.Core σ) : View := (embedReg t.regs, t.ram)

end Mn1613
end RetroCpu
