import Mathlib.Logic.Relation
import RetroCpu.AsmTs.Assembler

/-!
# What the second pass does

Every line of the second pass is a sequence of four kinds of steps: the location counter is
set, the area is switched, a range is reserved, or consecutive words are emitted with at
most the relocations that lie in them.  Invariants of the pass are checked on these steps.
-/

namespace RetroCpu
namespace AsmTs

open Js Checked Relation

section Steps

variable (target : Target) (symbolInfos : SymbolInfoTable) (lines : List ParsedLine)

/-- Words at consecutive addresses from `pc` on. -/
def wordsAt (areas : AreaContext) (line : ParsedLine) : Int → List Int → List EmittedWord
  | _, [] => []
  | pc, v :: vs =>
      ⟨pc, v, line.lineNo, line.text, canonicalAreaName areas.current⟩ ::
        wordsAt areas line (pc + target.addrStep) vs

attribute [grind =] wordsAt

/-- A relocation of a word: the whole word, or its low byte. -/
structure PlacedAt (w : EmittedWord) (r : WordDiffReloc) : Prop where
  area : r.area = some w.area
  place : (r.byteAddr = target.byteAddr w.address ∧ r.width = none) ∨
    (target.byteMode = false ∧ r.byteAddr = w.address * 2 + 1 ∧ r.width = some .low8)
  operand : ∃ areas ⊆ relocAreas, ∃ arg name, parseSimpleSymbolOperand arg = some name ∧
    matchSymbol symbolInfos areas name = some (r.left, r.right)

/-- A step of the pass over `lines`. -/
inductive Pass2Step : Pass2 → Pass2 → Prop
  | org (st : Pass2) (pc : Int) : Pass2Step st { st with areas := setAreaPc st.areas pc }
  | area (st : Pass2) (line : ParsedLine) (name : String) (noload : Bool) (hl : line ∈ lines)
      (hname : parseAreaDirective line.args line.lineNo = .ok (name, noload)) :
      Pass2Step st { st with areas := switchArea st.areas name noload }
  | storage (st : Pass2) (lineNo : Nat) (size : Int) :
      Pass2Step st { st with
        storageAddrs := (lineNo, areaPc st.areas) :: st.storageAddrs
        areas := setAreaPc st.areas (areaPc st.areas + size) }
  | emit (st : Pass2) (line : ParsedLine) (values : List Int) (relocs : List WordDiffReloc)
      (hl : line ∈ lines) (hr : ∀ r ∈ relocs, ∃ w ∈ wordsAt target st.areas line (areaPc st.areas) values,
        PlacedAt target symbolInfos w r) :
      Pass2Step st { st with
        words := st.words ++ wordsAt target st.areas line (areaPc st.areas) values
        relocs := st.relocs ++ relocs
        areas := setAreaPc st.areas (areaPc st.areas + values.length * target.addrStep) }

end Steps

section Words

variable {target : Target} {symbolInfos : SymbolInfoTable} {areas : AreaContext}
  {line : ParsedLine}

theorem wordsAt_singleton (pc v : Int) : wordsAt target areas line pc [v] =
    [⟨pc, v, line.lineNo, line.text, canonicalAreaName areas.current⟩] := by
  simp only [wordsAt]

theorem instructionWords_eq (pc : Int) (ws : List Int) :
    instructionWords target areas line pc ws =
      wordsAt target areas line pc (ws.map fun w => land w 0xffff) := by
  unfold instructionWords
  induction ws generalizing pc with
  | nil => rfl
  | cons w ws ih =>
      rw [List.mapIdx_cons, List.map_cons, wordsAt, ← ih]
      have haddr (i : Nat) : pc + ((i + 1 : Nat) : Int) * target.addrStep =
          pc + target.addrStep + i * target.addrStep := by
        push_cast
        ring
      simp only [haddr]
      simp [emittedWord]

theorem mapLast_wordsAt (f : Int → Int) (pc : Int) (values : List Int) :
    mapLast (fun w => { w with value := f w.value }) (wordsAt target areas line pc values) =
      wordsAt target areas line pc (mapLast f values) := by
  induction values generalizing pc with
  | nil => simp only [wordsAt, mapLast]
  | cons v vs ih =>
      cases vs with
      | nil => simp only [wordsAt, mapLast]
      | cons v' vs =>
          have h := ih (pc + target.addrStep)
          simp only [wordsAt, mapLast] at h ⊢
          rw [h]

theorem length_mapLast {α : Type} (f : α → α) (l : List α) : (mapLast f l).length = l.length := by
  induction l with
  | nil => rfl
  | cons a l ih =>
      cases l with
      | nil => rfl
      | cons b l => simpa [mapLast] using ih

theorem length_wordsAt (pc : Int) (values : List Int) :
    (wordsAt target areas line pc values).length = values.length := by
  induction values generalizing pc with
  | nil => rfl
  | cons v vs ih => simp [wordsAt, ih]

/-- The same words with other values stand at the same addresses. -/
theorem exists_wordsAt_of_length {values values' : List Int} {pc : Int} {w : EmittedWord}
    (hlen : values'.length = values.length)
    (hw : w ∈ wordsAt target areas line pc values) :
    ∃ w' ∈ wordsAt target areas line pc values', w'.address = w.address ∧ w'.area = w.area := by
  induction values generalizing pc values' with
  | nil => cases hw
  | cons v vs ih =>
      cases values' with
      | nil => simp at hlen
      | cons v' vs' =>
          simp only [wordsAt, List.mem_cons] at hw ⊢
          rcases hw with rfl | hw
          · exact ⟨_, .inl rfl, rfl, rfl⟩
          · obtain ⟨w', hw', h⟩ := ih (by simpa using hlen) hw
            exact ⟨w', .inr hw', h⟩

end Words

section Relocation

variable {target : Target} {symbolInfos : SymbolInfoTable} {areas : AreaContext}
  {line : ParsedLine}

theorem matchAbsAddrReloc_operand {arg : String} {left right : RelocOperand}
    (h : matchAbsAddrReloc symbolInfos arg = some (left, right)) :
    ∃ areas ⊆ relocAreas, ∃ arg name, parseSimpleSymbolOperand arg = some name ∧
      matchSymbol symbolInfos areas name = some (left, right) := by
  unfold matchAbsAddrReloc at h
  cases hn : parseSimpleSymbolOperand arg with
  | none =>
      rw [hn] at h
      cases h
  | some name =>
      rw [hn] at h
      exact ⟨relocAreas, List.Subset.refl _, arg, name, hn, h⟩

theorem matchPage0StarReloc_operand {arg : String} {left right : RelocOperand}
    (h : matchPage0StarReloc symbolInfos arg = some (left, right)) :
    ∃ areas ⊆ relocAreas, ∃ arg name, parseSimpleSymbolOperand arg = some name ∧
      matchSymbol symbolInfos areas name = some (left, right) := by
  unfold matchPage0StarReloc at h
  cases hraw : page0StarName arg with
  | none =>
      rw [hraw] at h
      cases h
  | some nameRaw =>
      rw [hraw] at h
      dsimp only at h
      split at h
      · cases h
      · cases hn : parseSimpleSymbolOperand nameRaw with
        | none =>
            rw [hn] at h
            cases h
        | some name =>
            rw [hn] at h
            exact ⟨["_SYS_PAGE0", "_USR_PAGE0"], by simp [relocAreas], nameRaw, name, hn, h⟩

theorem exists_of_findSome? {args : List String}
    {f : String → Option (RelocOperand × RelocOperand)} {p : RelocOperand × RelocOperand}
    (h : args.findSome? f = some p) : ∃ arg, f arg = some p := by
  obtain ⟨_, arg, _, _, hf, _⟩ := List.findSome?_eq_some_iff.mp h
  exact ⟨arg, hf⟩

/-- The last word stands among the words. -/
theorem getLast?_wordsAt {pc : Int} {values : List Int} {last : EmittedWord}
    (h : (wordsAt target areas line pc values).getLast? = some last) :
    last ∈ wordsAt target areas line pc values ∧
      last.area = canonicalAreaName areas.current := by
  refine ⟨List.mem_of_getLast? h, ?_⟩
  have harea : ∀ (vs : List Int) (pc : Int), ∀ w ∈ wordsAt target areas line pc vs,
      w.area = canonicalAreaName areas.current := by
    intro vs
    induction vs with
    | nil =>
        intro pc w hw
        simp only [wordsAt, List.not_mem_nil] at hw
    | cons v vs ih =>
        intro pc w hw
        simp only [wordsAt, List.mem_cons] at hw
        rcases hw with hw | hw
        · rw [hw]
        · exact ih _ w hw
  exact harea _ _ _ (List.mem_of_getLast? h)

/-- Relocating an instruction keeps its words in place, and the relocations lie in them. -/
theorem relocateInstruction_spec (target : Target) (symbolInfos : SymbolInfoTable)
    (areas : AreaContext) (line : ParsedLine) (pc : Int) (values : List Int) :
    ∃ values', values'.length = values.length ∧
      (relocateInstruction target symbolInfos line (canonicalAreaName areas.current) pc
        (wordsAt target areas line pc values)).1 = wordsAt target areas line pc values' ∧
      ∀ r ∈ (relocateInstruction target symbolInfos line (canonicalAreaName areas.current) pc
        (wordsAt target areas line pc values)).2,
        ∃ w ∈ wordsAt target areas line pc values', PlacedAt target symbolInfos w r := by
  unfold relocateInstruction
  split
  · cases hfind : line.args.findSome? (matchAbsAddrReloc symbolInfos) with
    | none =>
        refine ⟨values, rfl, rfl, ?_⟩
        intro r hr
        cases hr
    | some p =>
        obtain ⟨left, right⟩ := p
        obtain ⟨arg, harg⟩ := exists_of_findSome? hfind
        simp only [relocateLast, mapLast_wordsAt]
        refine ⟨_, length_mapLast _ _, rfl, ?_⟩
        intro r hr
        cases hlast : (wordsAt target areas line pc values).getLast? with
        | none =>
            rw [hlast] at hr
            cases hr
        | some last =>
            rw [hlast] at hr
            obtain rfl := List.mem_singleton.mp hr
            obtain ⟨hmem, harea⟩ := getLast?_wordsAt hlast
            obtain ⟨w, hw, haddr, hwarea⟩ :=
              exists_wordsAt_of_length (length_mapLast _ values) hmem
            refine ⟨w, hw, ?_, .inl ⟨by rw [haddr], rfl⟩, matchAbsAddrReloc_operand harg⟩
            rw [hwarea, harea]
  · split
    · rename_i hlen
      cases hfind : line.args.findSome? (matchPage0StarReloc symbolInfos) with
      | none =>
          refine ⟨values, rfl, rfl, ?_⟩
          intro r hr
          cases hr
      | some p =>
          obtain ⟨left, right⟩ := p
          obtain ⟨arg, harg⟩ := exists_of_findSome? hfind
          simp only [relocateLow8, mapLast_wordsAt]
          refine ⟨_, length_mapLast _ _, rfl, ?_⟩
          intro r hr
          obtain rfl := List.mem_singleton.mp hr
          rw [length_wordsAt] at hlen
          obtain ⟨v, rfl⟩ := List.length_eq_one_iff.mp hlen.1
          simp only [mapLast, wordsAt_singleton, List.mem_singleton, exists_eq_left]
          exact ⟨rfl, .inr ⟨by simpa using hlen.2, rfl, rfl⟩, matchPage0StarReloc_operand harg⟩
    · refine ⟨values, rfl, rfl, ?_⟩
      intro r hr
      cases hr

end Relocation

section Runs

variable {target : Target} {mentions : String → String → Except String Bool}
  {symbols : SymbolTable} {symbolInfos : SymbolInfoTable} {lines : List ParsedLine}

theorem pass2Word_step {line : ParsedLine} (hl : line ∈ lines) {st st' : Pass2} {arg : String}
    (h : pass2Word target mentions symbols symbolInfos line st arg = .ok st') :
    Pass2Step target symbolInfos lines st st' := by
  unfold pass2Word at h
  dsimp only at h
  rw [error_ite_eq_ok] at h
  replace h := h.2
  have hone (v : Int) : [emittedWord st.areas line (areaPc st.areas) v] =
      wordsAt target st.areas line (areaPc st.areas) [land v 0xffff] :=
    (wordsAt_singleton _ _).symm
  have hpc (v : Int) : areaPc st.areas + target.addrStep =
      areaPc st.areas + ([v].length : Int) * target.addrStep := by simp
  cases habs : matchAbsAddrReloc symbolInfos arg with
  | some p =>
      obtain ⟨left, right⟩ := p
      rw [habs] at h
      obtain ⟨v, _, h⟩ := bind_eq_ok.mp h
      obtain rfl := pure_eq_ok.mp h
      rw [hone, hpc (land v 0xffff)]
      refine .emit st line [land v 0xffff] _ hl ?_
      intro r hr
      obtain rfl := List.mem_singleton.mp hr
      simp only [wordsAt_singleton, List.mem_singleton, exists_eq_left]
      exact ⟨rfl, .inl ⟨rfl, rfl⟩, matchAbsAddrReloc_operand habs⟩
  | none =>
      rw [habs] at h
      obtain ⟨_, _, h⟩ := bind_eq_ok.mp h
      cases hv : (evalExpr arg symbols false >>= fun v => Mn1613.u16 v (line.op.getD "")) with
      | error msg =>
          rw [hv] at h
          cases h
      | ok v =>
          rw [hv] at h
          obtain rfl := pure_eq_ok.mp h
          rw [hone, hpc (land v 0xffff), ← List.append_nil st.relocs]
          refine .emit st line [land v 0xffff] [] hl ?_
          intro r hr
          cases hr

theorem foldlM_steps {α : Type} {f : Pass2 → α → Except String Pass2}
    {R : Pass2 → Pass2 → Prop} (l : List α)
    (hf : ∀ st st', ∀ a ∈ l, f st a = .ok st' → ReflTransGen R st st') :
    ∀ st st', l.foldlM f st = .ok st' → ReflTransGen R st st' := by
  induction l with
  | nil =>
      intro st st' h
      obtain rfl := pure_eq_ok.mp h
      exact .refl
  | cons a l ih =>
      intro st st' h
      rw [List.foldlM_cons] at h
      obtain ⟨st₁, h₁, h₂⟩ := bind_eq_ok.mp h
      exact (hf st st₁ a (by simp) h₁).trans
        (ih (fun st st' b hb => hf st st' b (by simp [hb])) st₁ st' h₂)

theorem pass2Instruction_step {line : ParsedLine} (hl : line ∈ lines) {st st' : Pass2}
    (h : pass2Instruction target symbols symbolInfos st line = .ok st') :
    Pass2Step target symbolInfos lines st st' := by
  unfold pass2Instruction at h
  rw [error_ite_eq_ok] at h
  obtain ⟨ws, _, h⟩ := bind_eq_ok.mp h.2
  rw [instructionWords_eq] at h
  obtain ⟨values, hlen, hwords, hrelocs⟩ := relocateInstruction_spec target
    symbolInfos st.areas line (areaPc st.areas)
    (ws.map fun w => land w 0xffff)
  obtain rfl := pure_eq_ok.mp h
  rw [hwords]
  have := Pass2Step.emit st line values _ hl hrelocs
  rw [hlen, List.length_map] at this
  exact this

/-- A line of the second pass is a sequence of steps. -/
theorem pass2Line_steps {st st' : Pass2} {line : ParsedLine} (hl : line ∈ lines)
    (h : pass2Line target mentions symbols symbolInfos st line = .ok st') :
    ReflTransGen (Pass2Step target symbolInfos lines) st st' := by
  unfold pass2Line at h
  cases hk : line.operation.map lineKind with
  | none =>
      rw [hk] at h
      cases h
      exact .refl
  | some kind =>
      rw [hk] at h
      cases kind with
      | equ =>
          cases h
          exact .refl
      | note =>
          cases h
          exact .refl
      | org =>
          obtain ⟨v, _, h⟩ := bind_eq_ok.mp h
          obtain rfl := pure_eq_ok.mp h
          exact .single (.org st _)
      | area =>
          obtain ⟨⟨name, noload⟩, hname, h⟩ := bind_eq_ok.mp h
          obtain rfl := pure_eq_ok.mp h
          exact .single (.area st line name noload hl hname)
      | storage =>
          obtain ⟨size, _, h⟩ := bind_eq_ok.mp h
          obtain rfl := pure_eq_ok.mp h
          exact .single (.storage st _ size)
      | data =>
          dsimp only at h
          rw [error_ite_eq_ok] at h
          obtain ⟨args, _, h⟩ := bind_eq_ok.mp h.2
          refine foldlM_steps args ?_ st st' h
          intro st₁ st₂ arg _ harg
          exact .single (pass2Word_step hl harg)
      | otherDirective => exact .single (pass2Instruction_step hl h)
      | instruction => exact .single (pass2Instruction_step hl h)

theorem pass2_steps {st st' : Pass2}
    (h : lines.foldlM (pass2Line target mentions symbols symbolInfos) st = .ok st') :
    ReflTransGen (Pass2Step target symbolInfos lines) st st' :=
  foldlM_steps lines (fun _ _ _ hl hline => pass2Line_steps hl hline) st st' h

/-- The invariants of the pass are those that every step keeps. -/
theorem pass2_invariant {P : Pass2 → Prop} (h0 : P {})
    (hstep : ∀ st st', Pass2Step target symbolInfos lines st st' → P st → P st') {st : Pass2}
    (h : pass2 target mentions symbols symbolInfos lines = .ok st) : P st := by
  have hsteps := pass2_steps h
  clear h
  induction hsteps with
  | refl => exact h0
  | tail _ hs ih => exact hstep _ _ hs ih

end Runs

end AsmTs
end RetroCpu
