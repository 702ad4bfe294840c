import RetroCpu.AsmRs.RelWriter
import RetroCpu.AsmTs.Extents

/-!
# What a program takes of its areas, in the Rust assembler
-/

namespace RetroCpu
namespace AsmRs

open AsmTs (ParsedLine Extent)
open Js (JsMap)
open Checked

section Assembled

/-- The passes behind a result of `assemble`. -/
structure Assembled (target : Target) (parsed : List ParsedLine) (result : AssemblyResult)
    (first : Pass1) (second : Pass2) : Prop where
  hfirst : pass1 target parsed = .ok first
  symbols : result.symbols = first.symbols
  symbolInfos : result.symbolInfos =
    buildSymbolInfos first.symbols (collectGloblNames parsed) first.symbolAreas
  hsecond : pass2 target result.symbols result.symbolInfos parsed = .ok second
  words : result.words = second.words
  relocs : result.relocs = second.relocs
  byteMode : result.byteMode = target.byteMode

theorem assemble_eq_ok {target : Target} {parsed : List ParsedLine} {result : AssemblyResult}
    (h : assemble target parsed = .ok result) :
    ∃ first second, Assembled target parsed result first second := by
  obtain ⟨first, hfirst, h⟩ := bind_eq_ok.mp h
  obtain ⟨second, hsecond, h⟩ := bind_eq_ok.mp h
  obtain rfl := pure_eq_ok.mp h
  exact ⟨first, second, hfirst, rfl, rfl, hsecond, rfl, rfl, rfl⟩

end Assembled

section Extents

variable (target : Target) (symbols : SymbolTable) (symbolInfos : SymbolInfoTable)

/-- What a line reserves. -/
def reservation (st : Pass2) (line : ParsedLine) : List Extent :=
  match operation line with
  | none => []
  | some op =>
      if isStorageOp op then
        match evalWord (firstArg line) symbols false with
        | .ok count =>
            let size := storageSize target op count
            if size = 0 then []
            else [⟨canonicalAreaName st.areas.current, (areaPc st.areas).toNat + size.toNat⟩]
        | .error _ => []
      else []

/-- What the lines of a run of the second pass reserve. -/
def reservations : Pass2 → List ParsedLine → List Extent
  | _, [] => []
  | st, line :: rest =>
      reservation target symbols st line ++
        match pass2Line target symbols symbolInfos st line with
        | .ok st' => reservations st' rest
        | .error _ => []

/-- All that a program takes: its words and its reservations. -/
def extents (lines : List ParsedLine) (result : AssemblyResult) : List Extent :=
  (result.words.map fun w =>
      ⟨canonicalAreaName w.area, w.address.toNat + target.addrStep.toNat⟩) ++
    reservations target result.symbols result.symbolInfos {} lines

variable {target : Target} {symbols : SymbolTable} {symbolInfos : SymbolInfoTable}

theorem reservation_pos {st : Pass2} {line : ParsedLine} {e : Extent}
    (he : e ∈ reservation target symbols st line) : 0 < e.stop := by
  unfold reservation at he
  cases hop : operation line with
  | none =>
      rw [hop] at he
      cases he
  | some op =>
      rw [hop] at he
      dsimp only at he
      split at he
      · cases hcount : evalWord (firstArg line) symbols false with
        | error e =>
            rw [hcount] at he
            cases he
        | ok count =>
            rw [hcount] at he
            dsimp only at he
            split at he
            · cases he
            · rename_i hne
              obtain rfl := List.mem_singleton.mp he
              have : (storageSize target op count).toNat ≠ 0 := by
                intro h0
                exact hne (BitVec.eq_of_toNat_eq h0)
              dsimp only
              omega
      · cases he

theorem reservations_pos {lines : List ParsedLine} {st : Pass2} {e : Extent}
    (he : e ∈ reservations target symbols symbolInfos st lines) : 0 < e.stop := by
  induction lines generalizing st with
  | nil => cases he
  | cons line rest ih =>
      unfold reservations at he
      rcases List.mem_append.mp he with he | he
      · exact reservation_pos he
      · cases hline : pass2Line target symbols symbolInfos st line with
        | error e =>
            rw [hline] at he
            cases he
        | ok st' =>
            rw [hline] at he
            exact ih he

end Extents

end AsmRs
end RetroCpu
