import RetroCpu.AsmRs.RelativeOperand

/-!
# Relative operands in both assemblers

A distance that is not known when the line is assembled stands as a placeholder, the
external symbols at 0 and every area at its own origin.  The encoders refuse it only where
the placeholder is out of reach.
-/

namespace RetroCpu
namespace Asm

open AsmTs (ParsedLine CpuType)

/-- In every program that is accepted, the PC-relative fields come from known distances; a
relative operand whose distance is not known is an error in exactly the programs whose
placeholders are all out of reach. -/
theorem relative_operands (cpu : CpuType) (mentions : String → String → Except String Bool)
    (parsed : List ParsedLine) :
    (∀ p : AsmTs.SecondPass cpu.target parsed,
      (p.RefusesUnknown mentions ∧
        ∀ result, AsmTs.assemble cpu.target mentions parsed = .ok result →
          p.FieldsKnown mentions) ↔ p.PlaceholdersFar mentions) ∧
    (∀ p : AsmRs.SecondPass (AsmRs.target cpu) parsed,
      (p.RefusesUnknown ∧
        ∀ result, AsmRs.assemble (AsmRs.target cpu) parsed = .ok result → p.FieldsKnown) ↔
          p.PlaceholdersFar) := by
  constructor
  · intro p
    constructor
    · rintro ⟨hrefuses, _⟩
      exact (p.refusesUnknown_iff mentions).mp hrefuses
    · intro hfar
      exact ⟨(p.refusesUnknown_iff mentions).mpr hfar,
        fun _ hok => p.fieldsKnown mentions hok hfar⟩
  · intro p
    constructor
    · rintro ⟨hrefuses, _⟩
      exact p.refusesUnknown_iff.mp hrefuses
    · intro hfar
      exact ⟨p.refusesUnknown_iff.mpr hfar, fun _ hok => p.fieldsKnown hok hfar⟩

section Example

/-- `.globl EXT` and `JMP EXT` at address 0 -/
def externalJump : List ParsedLine :=
  [⟨1, ".globl EXT", none, some ".globl", ["EXT"]⟩, ⟨2, "JMP EXT", none, some "JMP", ["EXT"]⟩]

def externalJumpFirst : AsmTs.Pass1 where
  lineAreas := [(2, "_CODE"), (1, "_CODE")]
  areas := AsmTs.setAreaPc AsmTs.createAreaContext 2

/-- The second pass on it. -/
def externalJumpPass : AsmTs.SecondPass CpuType.tms9995.target externalJump where
  lines := externalJump
  first := externalJumpFirst
  hlines := by decide +kernel
  hfirst := by decide +kernel

def noMention : String → String → Except String Bool := fun _ _ => .ok false

/-- The external symbol may be anywhere, and the distance is not known. -/
theorem externalJump_unknown : ¬ externalJumpPass.Known {} "EXT" := by
  have hfits : AsmTs.Placement.Fits ⟨fun _ => 0, fun _ => 1⟩ externalJumpPass.symbolInfos := by
    have hinfos : externalJumpPass.symbolInfos.entries =
        [("EXT", ⟨.int 0, .external, none⟩)] := by
      decide +kernel
    intro entry hentry _
    rw [hinfos] at hentry
    obtain rfl := List.mem_singleton.mp hentry
    exact ⟨1, rfl, by decide, by decide⟩
  have horigin : AsmTs.evalExpr "EXT"
      (AsmTs.Placement.origin.symbols externalJumpPass.symbolInfos) false = .ok (.int 0) := by
    decide +kernel
  have hone : AsmTs.evalExpr "EXT" (AsmTs.Placement.symbols ⟨fun _ => 0, fun _ => 1⟩
      externalJumpPass.symbolInfos) false = .ok (.int 1) := by
    decide +kernel
  rintro (hfixed | hmoves)
  · have h := hfixed _ hfits
    rw [hone, horigin] at h
    cases h
  · have h := hmoves _ hfits (.int 0) horigin
    rw [hone] at h
    cases h

/-- The jump is accepted, with the distance to address 0. -/
theorem externalJump_accepted :
    (∃ result, AsmTs.assemble CpuType.tms9995.target noMention externalJump = .ok result ∧
      result.words.map (·.value) = [0x10ff]) ∧
    ¬ (externalJumpPass.RefusesUnknown noMention ∧
      ∀ result, AsmTs.assemble CpuType.tms9995.target noMention externalJump = .ok result →
        externalJumpPass.FieldsKnown noMention) := by
  have hwords : (AsmTs.assemble CpuType.tms9995.target noMention externalJump).map
      (fun result => result.words.map (·.value)) = .ok [0x10ff] := by
    decide +kernel
  constructor
  · cases hresult : AsmTs.assemble CpuType.tms9995.target noMention externalJump with
    | error message =>
        rw [hresult] at hwords
        cases hwords
    | ok result =>
        rw [hresult] at hwords
        exact ⟨result, rfl, Except.ok.inj hwords⟩
  · rintro ⟨hrefuses, _⟩
    have hreach : externalJumpPass.Reaches noMention {} ⟨2, "JMP EXT", none, some "JMP", ["EXT"]⟩ :=
      ⟨externalJump.take 1, [], rfl, by decide⟩
    have hrel : AsmTs.RelativeOperand .tms9995 ⟨2, "JMP EXT", none, some "JMP", ["EXT"]⟩ "EXT" :=
      ⟨"JMP", 0x1000, by decide, by decide +kernel, rfl, by decide +kernel⟩
    have haccepted : (externalJumpPass.step noMention {}
        ⟨2, "JMP EXT", none, some "JMP", ["EXT"]⟩).isOk = true := by
      decide +kernel
    obtain ⟨message, herror⟩ := hrefuses {} _ "EXT" hreach rfl hrel externalJump_unknown
    rw [herror] at haccepted
    cases haccepted

end Example

end Asm
end RetroCpu
