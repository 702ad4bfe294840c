import RetroCpu.EmuRs.Mn1613Ends
import RetroCpu.EmuRs.Tms9995Ends

/-!
# One instruction of the Rust cores

The MN1613 core returns from every instruction.  The TMS9995 core returns from an
instruction unless X executes X for ever: `execute_ir` calls itself on the word an X
instruction names, whatever that word is.
-/

namespace RetroCpu
namespace EmuRs

open CheckedBuild

/-- One `execute_one` of the MN1613 core returns from `s`. -/
def Mn1613Returns {σ : Type} (io : Mn1613.Io σ) (s : Mn1613.Core σ) : Prop :=
  ∃ s', (Mn1613Checked.executeOne io).run s = .ok ((), s')

/-- One `step` of the TMS9995 core returns from `s` after finitely many nested calls. -/
def Tms9995Returns {β κ : Type} (bus : Tms9995.Tms9995Bus β) (cru : Tms9995.Tms9995Cru κ)
    (s : Tms9995.Core β κ) : Prop :=
  ∃ rounds r s', (Tms9995.step bus cru rounds).run s = .ok (r, s')

/-- The instruction at `PC`, if there is one to execute, is not X, or the words that X
instructions execute one another lead to one that is not. -/
def NoEndlessX {β κ : Type} (bus : Tms9995.Tms9995Bus β) (s : Tms9995.Core β κ) : Prop :=
  s.idle = true ∨ Tms9995.XEnds bus (bus.readWord s.mem s.pc) { s with pc := s.pc + 2 }

theorem mn1613Returns {σ : Type} (io : Mn1613.Io σ) (s : Mn1613.Core σ) : Mn1613Returns io s :=
  ⟨_, Mn1613Checked.computes_executeOne io s⟩

theorem one_instruction_returns {σ β κ : Type} (io : Mn1613.Io σ) (s : Mn1613.Core σ)
    (bus : Tms9995.Tms9995Bus β) (cru : Tms9995.Tms9995Cru κ) (t : Tms9995.Core β κ) :
    Mn1613Returns io s ∧ (Tms9995Returns bus cru t ↔ NoEndlessX bus t) := by
  constructor
  · exact mn1613Returns io s
  · exact Tms9995.step_returns_iff bus cru t

section Example

/-- `Tms9995Ram` on the full address space. -/
def tms9995Ram : Tms9995.Tms9995Bus (Tms9995.U16 → Tms9995.U8) where
  readByte m addr := m addr
  writeByte m addr value := Function.update m addr value

/-- `Tms9995EmptyCruAdapter` -/
def emptyCru : Tms9995.Tms9995Cru Unit where
  readBit _ _ := (false, ())
  writeBit _ _ _ := ()
  readDataByte _ := (0, ())
  writeDataByte _ _ := ()

/-- A memory full of `X R0`, whose register `R0` therefore holds `X R0` too. -/
def memoryOfX : Tms9995.Core (Tms9995.U16 → Tms9995.U8) Unit where
  pc := 0
  wp := 0x0100
  st := 0
  idle := false
  mem := fun addr => if addr.getLsbD 0 then 0x80 else 0x04
  cru := ()

theorem memoryOfX_endless : ¬ Tms9995Returns tms9995Ram emptyCru memoryOfX := by
  intro h
  obtain hidle | ⟨n, hn⟩ := (Tms9995.step_returns_iff _ _ _).mp h
  · cases hidle
  · have hfixed : (fun p : Tms9995.U16 × Tms9995.Core (Tms9995.U16 → Tms9995.U8) Unit =>
          Tms9995.executedWord tms9995Ram p.1 p.2) (0x0480, { memoryOfX with pc := 2 }) =
        (0x0480, { memoryOfX with pc := 2 }) := rfl
    have hword : tms9995Ram.readWord memoryOfX.mem memoryOfX.pc = 0x0480 := rfl
    have hpc : memoryOfX.pc + 2 = 2 := rfl
    rw [hword, hpc, Function.iterate_fixed hfixed n] at hn
    exact hn rfl

theorem x_may_not_return :
    ¬ ((∀ (σ : Type) (io : Mn1613.Io σ) (s : Mn1613.Core σ), Mn1613Returns io s) ∧
      ∀ (β κ : Type) (bus : Tms9995.Tms9995Bus β) (cru : Tms9995.Tms9995Cru κ)
        (s : Tms9995.Core β κ), Tms9995Returns bus cru s) := by
  rintro ⟨_, h⟩
  exact memoryOfX_endless (h _ _ tms9995Ram emptyCru memoryOfX)

end Example

end EmuRs
end RetroCpu
