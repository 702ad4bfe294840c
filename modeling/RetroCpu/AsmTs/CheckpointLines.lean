import RetroCpu.AsmTs.Extents
import RetroCpu.AsmTs.Parser
import RetroCpu.AsmTs.RelativeOperand

/-!
# What the checkpoints are bound to

A checkpoint belongs to a comment, and its place is that of the first thing that is emitted or
reserved from its line on.  `expected` says so on the run of the second pass.
`collectCheckpoints` looks for the mark in the line as it stands and judges by the operation
whether a line is a target; both come to the same when no string holds a mark and no
reservation of nothing is a target.
-/

namespace RetroCpu
namespace AsmTs

open Js Checked LineParser

section Expected

/-- An area and an address of it. -/
abbrev Place := String × Int

/-- The comment of a line: what the parser strips. -/
def commentOf (raw : List Char) : List Char := raw.drop (stripLineComment raw).length

/-- The name of the checkpoint of a comment. -/
def commentName (line : ParsedLine) : Option String :=
  (findCheckpoint (commentOf line.text.toList)).map String.ofList

/-- The place of the first word that a line has emitted, or else of what it has reserved. -/
def linePlace (st st' : Pass2) : Option Place :=
  match st'.words.drop st.words.length with
  | w :: _ => some (w.area, w.address)
  | [] =>
      if st.storageAddrs.length < st'.storageAddrs.length ∧ areaPc st'.areas ≠ areaPc st.areas then
        some (canonicalAreaName st.areas.current, areaPc st.areas)
      else none

variable (target : Target) (mentions : String → String → Except String Bool)
  (symbols : SymbolTable) (symbolInfos : SymbolInfoTable)

/-- The lines of a run of the second pass, with their places. -/
def linePlaces : Pass2 → List ParsedLine → List (ParsedLine × Option Place)
  | _, [] => []
  | st, line :: lines =>
      match pass2Line target mentions symbols symbolInfos st line with
      | .ok st' => (line, linePlace st st') :: linePlaces st' lines
      | .error _ => []

/-- The first place from a line on. -/
def firstPlace (places : List (ParsedLine × Option Place)) : Option Place := places.findSome? (·.2)

/-- The checkpoints of the comments. -/
def marks : List (ParsedLine × Option Place) → List (String × Option Place)
  | [] => []
  | (line, place) :: places =>
      ((commentName line).map fun name => (name, firstPlace ((line, place) :: places))).toList ++
        marks places

/-- The checkpoints of one name are numbered from 1 on. -/
def numbered : List String → List (String × Place) → List AsmCheckpoint
  | _, [] => []
  | seen, (name, place) :: rest =>
      ⟨name, padSerial (seen.count name + 1), place.1, place.2⟩ :: numbered (name :: seen) rest

/-- The checkpoints, if there is a place for each. -/
def expected (places : List (ParsedLine × Option Place)) : Option (List AsmCheckpoint) :=
  ((marks places).mapM fun (mark : String × Option Place) =>
    mark.2.map fun place => (mark.1, place)).map (numbered [])

end Expected

section Condition

/-- The mark at the front of some characters. -/
def markHere : List Char → Option (List Char)
  | [] => none
  | c :: cs =>
      if c = ';' then
        match cs.dropWhile isSpace with
        | mark :: letterC :: letterP :: rest =>
            if (mark = '@' ∨ mark.toNat = 0xff20) ∧ letterC.toUpper = 'C' ∧ letterP.toUpper = 'P'
            then some (checkpointTail rest)
            else none
        | _ => none
      else none

/-- No mark starts before the comment. -/
def NoQuotedMark (raw : List Char) : Prop :=
  ∀ i < (stripLineComment raw).length, markHere (raw.drop i) = none

/-- A reservation of nothing is not the next target of a checkpoint; `waiting` says whether a
checkpoint waits for a target. -/
def NoEmptyTarget : Bool → List (ParsedLine × Option Place) → Prop
  | _, [] => True
  | waiting, (line, place) :: places =>
      ((waiting || (commentName line).isSome) = true →
        line.operation.map lineKind = some .storage → place ≠ none) ∧
      NoEmptyTarget ((waiting || (commentName line).isSome) && !isEmittingLine line) places

instance : DecidablePred NoQuotedMark := fun raw =>
  inferInstanceAs (Decidable (∀ i < (stripLineComment raw).length, markHere (raw.drop i) = none))

instance decidableNoEmptyTarget : (waiting : Bool) →
    (places : List (ParsedLine × Option Place)) → Decidable (NoEmptyTarget waiting places)
  | _, [] => .isTrue trivial
  | waiting, (line, _) :: places =>
      have := decidableNoEmptyTarget
        ((waiting || (commentName line).isSome) && !isEmittingLine line) places
      inferInstanceAs (Decidable (_ ∧ _))

end Condition

section Comments

theorem findCheckpoint_cons (c : Char) (cs : List Char) :
    findCheckpoint (c :: cs) = (markHere (c :: cs)).or (findCheckpoint cs) := by
  rw [findCheckpoint, markHere]
  by_cases hc : c = ';'
  · simp only [if_pos hc]
    generalize cs.dropWhile isSpace = rest
    rcases rest with _ | ⟨mark, _ | ⟨letterC, _ | ⟨letterP, rest⟩⟩⟩
    · rfl
    · rfl
    · rfl
    · dsimp only
      split <;> rename_i hmark
      · rw [hmark]
        rfl
      · rw [hmark]
        rfl
  · simp only [if_neg hc, Option.none_or]

/-- Where no mark starts, the search goes on. -/
theorem findCheckpoint_drop {cs : List Char} {k : Nat}
    (h : ∀ i < k, markHere (cs.drop i) = none) : findCheckpoint cs = findCheckpoint (cs.drop k) := by
  induction k generalizing cs with
  | zero => rfl
  | succ k ih =>
      cases cs with
      | nil => rfl
      | cons c cs =>
          have hhere : markHere (c :: cs) = none := h 0 (Nat.succ_pos k)
          rw [findCheckpoint_cons, hhere, Option.none_or, List.drop_succ_cons]
          exact ih fun i hi => h (i + 1) (Nat.succ_lt_succ hi)

/-- The name that is found in a line is that of its comment. -/
theorem checkpointNameInLine_ok {line : ParsedLine} {found : Option String}
    (hquoted : NoQuotedMark line.text.toList)
    (h : checkpointNameInLine line.text line.lineNo = .ok found) : found = commentName line := by
  rw [checkpointNameInLine, findCheckpoint_drop hquoted] at h
  rw [commentName, commentOf]
  cases hcs : findCheckpoint (line.text.toList.drop (stripLineComment line.text.toList).length) with
  | none =>
      rw [hcs] at h
      cases h
      rfl
  | some cs =>
      rw [hcs] at h
      dsimp only at h
      split at h
      · cases h
        rfl
      · cases h

end Comments

section Effect

variable {target : Target} {mentions : String → String → Except String Bool}
  {symbols : SymbolTable} {symbolInfos : SymbolInfoTable} {line : ParsedLine} {st st' : Pass2}

/-- A line has put words behind the others, in its area, and reserved nothing. -/
def Emits (line : ParsedLine) (st st' : Pass2) : Prop :=
  (∃ ws, st'.words = st.words ++ ws ∧ ∀ w ∈ ws, w.lineNo = line.lineNo ∧
    w.area = canonicalAreaName w.area) ∧
  st'.storageAddrs = st.storageAddrs ∧ st'.areas.current = st.areas.current

theorem Emits.refl (line : ParsedLine) (st : Pass2) : Emits line st st :=
  ⟨⟨[], (List.append_nil _).symm, nofun⟩, rfl, rfl⟩

theorem Emits.trans {st₁ st₂ st₃ : Pass2} (h : Emits line st₁ st₂) (h' : Emits line st₂ st₃) :
    Emits line st₁ st₃ := by
  obtain ⟨⟨ws, hws, hmem⟩, hstorage, hcurrent⟩ := h
  obtain ⟨⟨ws', hws', hmem'⟩, hstorage', hcurrent'⟩ := h'
  refine ⟨⟨ws ++ ws', ?_, ?_⟩, hstorage'.trans hstorage, hcurrent'.trans hcurrent⟩
  · rw [hws', hws, List.append_assoc]
  · intro w hw
    rcases List.mem_append.mp hw with hw | hw
    · exact hmem w hw
    · exact hmem' w hw

theorem emits_word {pc v : Int} {relocs : List WordDiffReloc} {areas : AreaContext}
    (hareas : areas.current = st.areas.current) :
    Emits line st
      { st with
        words := st.words ++ [emittedWord st.areas line pc v], relocs := relocs, areas := areas } := by
  refine ⟨⟨_, rfl, ?_⟩, rfl, hareas⟩
  intro w hw
  rw [List.mem_singleton.mp hw]
  exact ⟨rfl, (canonicalAreaName_idem _).symm⟩

theorem pass2Word_emits {arg : String}
    (h : pass2Word target mentions symbols symbolInfos line st arg = .ok st') :
    Emits line st st' := by
  unfold pass2Word at h
  dsimp only at h
  rw [error_ite_eq_ok] at h
  replace h := h.2
  cases habs : matchAbsAddrReloc symbolInfos arg with
  | some p =>
      rw [habs] at h
      obtain ⟨v, _, h⟩ := bind_eq_ok.mp h
      obtain rfl := pure_eq_ok.mp h
      exact emits_word rfl
  | none =>
      rw [habs] at h
      obtain ⟨_, _, h⟩ := bind_eq_ok.mp h
      cases hv : (evalExpr arg symbols false >>= fun v => Mn1613.u16 v (line.op.getD "")) with
      | error msg =>
          rw [hv] at h
          cases h
      | ok v =>
          rw [hv] at h
          obtain rfl := pure_eq_ok.mp h
          exact emits_word rfl

theorem mem_wordsAt {areas : AreaContext} {pc : Int} {values : List Int} {w : EmittedWord}
    (h : w ∈ wordsAt target areas line pc values) :
    w.lineNo = line.lineNo ∧ w.area = canonicalAreaName w.area := by
  induction values generalizing pc with
  | nil => cases h
  | cons v values ih =>
      rw [wordsAt] at h
      rcases List.mem_cons.mp h with rfl | h
      · exact ⟨rfl, (canonicalAreaName_idem _).symm⟩
      · exact ih h

theorem pass2Instruction_emits
    (h : pass2Instruction target symbols symbolInfos st line = .ok st') : Emits line st st' := by
  unfold pass2Instruction at h
  rw [error_ite_eq_ok] at h
  obtain ⟨ws, _, h⟩ := bind_eq_ok.mp h.2
  rw [instructionWords_eq] at h
  obtain ⟨values, _, hwords, _⟩ := relocateInstruction_spec target symbolInfos st.areas line
    (areaPc st.areas) (ws.map fun w => land w 0xffff)
  obtain rfl := pure_eq_ok.mp h
  rw [hwords]
  exact ⟨⟨_, rfl, fun w hw => mem_wordsAt hw⟩, rfl, rfl⟩

/-- What a line of the second pass does, by its kind. -/
inductive Effect (line : ParsedLine) (st st' : Pass2) : Prop
  | emits (hkind : ∀ kind, line.operation.map lineKind = some kind →
        kind = .data ∨ kind = .otherDirective ∨ kind = .instruction ∨ st' = st)
      (hkind' : line.operation.map lineKind ≠ some .area) (h : Emits line st st')
  | org (pc : Int) (hkind : line.operation.map lineKind = some .org)
      (h : st' = { st with areas := setAreaPc st.areas pc })
  | area (name : String) (noload : Bool) (hkind : line.operation.map lineKind = some .area)
      (hname : parseAreaDirective line.args line.lineNo = .ok (name, noload))
      (h : st' = { st with areas := switchArea st.areas name noload })
  | storage (size : Int) (hkind : line.operation.map lineKind = some .storage)
      (h : st' = { st with
        storageAddrs := (line.lineNo, areaPc st.areas) :: st.storageAddrs
        areas := setAreaPc st.areas (areaPc st.areas + size) })

theorem pass2Line_effect (h : pass2Line target mentions symbols symbolInfos st line = .ok st') :
    Effect line st st' := by
  unfold pass2Line at h
  cases hk : line.operation.map lineKind with
  | none =>
      rw [hk] at h
      cases h
      exact .emits (fun kind hkind => by rw [hk] at hkind; cases hkind)
        (by rw [hk]; exact nofun) (Emits.refl line st)
  | some kind =>
      rw [hk] at h
      have hemits (hkind : kind = .data ∨ kind = .otherDirective ∨ kind = .instruction ∨ st' = st)
          (hne : kind ≠ .area) (hemit : Emits line st st') : Effect line st st' := by
        refine .emits (fun kind' hkind' => ?_) (fun harea => hne ?_) hemit
        · rw [hk] at hkind'
          rw [← Option.some.inj hkind']
          exact hkind
        · rw [hk] at harea
          exact Option.some.inj harea
      cases kind with
      | equ =>
          cases h
          exact hemits (.inr (.inr (.inr rfl))) nofun (Emits.refl line st)
      | note =>
          cases h
          exact hemits (.inr (.inr (.inr rfl))) nofun (Emits.refl line st)
      | org =>
          obtain ⟨v, _, h⟩ := bind_eq_ok.mp h
          obtain rfl := pure_eq_ok.mp h
          exact .org _ hk rfl
      | area =>
          obtain ⟨⟨name, noload⟩, hname, h⟩ := bind_eq_ok.mp h
          obtain rfl := pure_eq_ok.mp h
          exact .area name noload hk hname rfl
      | storage =>
          obtain ⟨size, _, h⟩ := bind_eq_ok.mp h
          obtain rfl := pure_eq_ok.mp h
          exact .storage size hk rfl
      | data =>
          dsimp only at h
          rw [error_ite_eq_ok] at h
          obtain ⟨args, _, h⟩ := bind_eq_ok.mp h.2
          refine hemits (.inl rfl) nofun ?_
          exact foldlM_invariant (P := Emits line st)
            (fun _ _ _ _ hword hemit => hemit.trans (pass2Word_emits hword)) (Emits.refl line st) h
      | otherDirective => exact hemits (.inr (.inl rfl)) nofun (pass2Instruction_emits h)
      | instruction => exact hemits (.inr (.inr (.inl rfl))) nofun (pass2Instruction_emits h)

end Effect

section NotEmitting

variable {mentions : String → String → Except String Bool} {symbols : SymbolTable}
  {symbolInfos : SymbolInfoTable} {line : ParsedLine} {st st' : Pass2} {u : String}

/-- The operations that are no targets, with and without a point. -/
def skipOperations : List String := SKIP_PSEUDO ++ SKIP_PSEUDO.map ("." ++ ·)

/-- Such an operation is done by the passes themselves, or no encoder knows it. -/
theorem skipOperations_kind : ∀ u ∈ skipOperations, lineKind u ≠ .storage ∧ lineKind u ≠ .data ∧
    (lineKind u = .otherDirective ∨ lineKind u = .instruction →
      Mn1613.Mnemonic.ofName u = none ∧ u ≠ "RT" ∧ u ≠ "NOP" ∧
        RetroCpu.Tms9995.opFormat u = none) := by
  decide

theorem eq_point_tail (h : startsWith u '.' = true) : u = "." ++ tail u := by
  apply String.toList_injective
  rw [String.toList_append, tail, String.toList_ofList]
  rw [startsWith, beq_iff_eq] at h
  cases hu : u.toList with
  | nil =>
      rw [hu] at h
      cases h
  | cons c cs =>
      rw [hu] at h
      rw [Option.some.inj h, String.toList_ofList]
      rfl

theorem operation_of_not_emitting (h : isEmittingLine line = false) :
    line.operation = none ∨ ∃ op, line.op = some op ∧ op ≠ "" ∧ line.operation = some (toUpperCase op) ∧
      toUpperCase op ∈ skipOperations := by
  unfold isEmittingLine at h
  unfold ParsedLine.operation
  cases hop : line.op.filter (· ≠ "") with
  | none => exact .inl rfl
  | some op =>
      rw [hop] at h
      obtain ⟨hsome, hne⟩ := Option.filter_eq_some_iff.mp hop
      refine .inr ⟨op, hsome, of_decide_eq_true hne, rfl, ?_⟩
      dsimp only at h
      split at h
      · rename_i hstart
        have hmem : tail (toUpperCase op) ∈ SKIP_PSEUDO := by simpa using h
        exact List.mem_append_right _
          (List.mem_map.mpr ⟨_, hmem, (eq_point_tail hstart).symm⟩)
      · have hmem : toUpperCase op ∈ SKIP_PSEUDO := by simpa using h
        exact List.mem_append_left _ hmem

theorem encode_skipOperation (cpu : CpuType) {op : String} {pc : Int} {ws : List Int}
    (hop : line.op = some op)
    (hnone : Mn1613.Mnemonic.ofName (toUpperCase op) = none ∧ toUpperCase op ≠ "RT" ∧
      toUpperCase op ≠ "NOP" ∧ RetroCpu.Tms9995.opFormat (toUpperCase op) = none)
    (hne : op ≠ "") : cpu.target.encode line pc symbols ≠ .ok ws := by
  obtain ⟨hname, hrt, hnop, hformat⟩ := hnone
  intro h
  cases cpu with
  | mn1613 =>
      replace h : Mn1613.encodeInstruction line pc symbols false = .ok ws := h
      unfold Mn1613.encodeInstruction at h
      split at h
      · cases h
      · cases h
      · rw [Mn1613.lineMnemonic, hop, Option.bind_some, hname] at h
        cases h
  | tms9995 =>
      replace h : Tms9995.encodeTms9995Instruction line pc symbols false = .ok ws := h
      unfold Tms9995.encodeTms9995Instruction at h
      split at h
      · rename_i hnone
        rw [hop] at hnone
        cases hnone
      · rename_i hempty
        rw [hop] at hempty
        exact hne (Option.some.inj hempty)
      · rename_i opText hsome
        rw [hop] at hsome
        cases hsome
        dsimp only at h
        rw [if_neg hrt, if_neg hnop, Tms9995.encodeOperation, hformat] at h
        cases h

/-- A line that is no target puts out nothing and reserves nothing. -/
theorem linePlace_of_not_emitting (cpu : CpuType) (hemit : isEmittingLine line = false)
    (h : pass2Line cpu.target mentions symbols symbolInfos st line = .ok st') :
    linePlace st st' = none := by
  have hnothing (hwords : st'.words = st.words) (hstorage : st'.storageAddrs = st.storageAddrs) :
      linePlace st st' = none := by
    rw [linePlace, hwords, List.drop_length, hstorage]
    exact if_neg fun hlt => Nat.lt_irrefl _ hlt.1
  rcases operation_of_not_emitting hemit with hnone | ⟨op, hop, hne, hoperation, hskip⟩
  · rw [pass2Line, hnone] at h
    cases h
    exact hnothing rfl rfl
  · obtain ⟨hstorage, hdata, hencode⟩ := skipOperations_kind _ hskip
    have hkind : line.operation.map lineKind = some (lineKind (toUpperCase op)) := by
      rw [hoperation]
      rfl
    cases pass2Line_effect h with
    | emits hkinds _ hemits =>
        have hfails (hk : lineKind (toUpperCase op) = .otherDirective ∨
            lineKind (toUpperCase op) = .instruction) : False := by
          have hinstruction : pass2Instruction cpu.target symbols symbolInfos st line = .ok st' := by
            rw [pass2Line, hkind] at h
            rcases hk with hk | hk
            · rw [hk] at h
              exact h
            · rw [hk] at h
              exact h
          unfold pass2Instruction at hinstruction
          rw [error_ite_eq_ok] at hinstruction
          obtain ⟨ws, hws, _⟩ := bind_eq_ok.mp hinstruction.2
          exact encode_skipOperation cpu hop (hencode hk) hne hws
        rcases hkinds _ hkind with hk | hk | hk | hsame
        · exact absurd hk hdata
        · exact (hfails (.inl hk)).elim
        · exact (hfails (.inr hk)).elim
        · subst hsame
          exact hnothing rfl rfl
    | org pc _ heq =>
        subst heq
        exact hnothing rfl rfl
    | area name noload _ _ heq =>
        subst heq
        exact hnothing rfl rfl
    | storage size hk _ =>
        rw [hkind] at hk
        exact absurd (Option.some.inj hk) hstorage

end NotEmitting

section FirstPass

variable {target : Target} {line : ParsedLine} {st st' : Pass1}

/-- The area that a line switches to, or else the one that it is in. -/
def areaBehind (line : ParsedLine) (current : String) : String :=
  match line.operation.map lineKind, parseAreaDirective line.args line.lineNo with
  | some .area, .ok (name, _) => toUpperCase name
  | _, _ => current

theorem pass1Areas_current {kind : LineKind} {ctx : AreaContext}
    (hkind : line.operation.map lineKind = some kind)
    (h : pass1Areas target st line kind = .ok ctx) :
    ctx.current = areaBehind line st.areas.current := by
  have hsame (hne : kind ≠ .area) (heq : ctx.current = st.areas.current) :
      ctx.current = areaBehind line st.areas.current := by
    rw [heq, areaBehind, hkind]
    cases kind <;> first | rfl | exact absurd rfl hne
  unfold pass1Areas at h
  cases kind with
  | equ =>
      cases h
      exact hsame nofun rfl
  | note =>
      cases h
      exact hsame nofun rfl
  | otherDirective =>
      cases h
      exact hsame nofun rfl
  | org =>
      dsimp only at h
      rw [error_ite_eq_ok] at h
      obtain ⟨v, _, h⟩ := bind_eq_ok.mp h.2
      obtain rfl := pure_eq_ok.mp h
      exact hsame nofun rfl
  | area =>
      obtain ⟨⟨name, noload⟩, hname, h⟩ := bind_eq_ok.mp h
      obtain rfl := pure_eq_ok.mp h
      rw [areaBehind, hkind, hname]
      rfl
  | storage =>
      obtain ⟨v, _, h⟩ := bind_eq_ok.mp h
      obtain rfl := pure_eq_ok.mp h
      exact hsame nofun rfl
  | data =>
      dsimp only at h
      rw [error_ite_eq_ok] at h
      obtain ⟨v, _, h⟩ := bind_eq_ok.mp h.2
      obtain rfl := pure_eq_ok.mp h
      exact hsame nofun rfl
  | instruction =>
      dsimp only at h
      rw [error_ite_eq_ok] at h
      obtain ⟨v, _, h⟩ := bind_eq_ok.mp h.2
      obtain rfl := pure_eq_ok.mp h
      exact hsame nofun rfl

theorem pass1Equ_areas (h : pass1Equ st line = .ok st') :
    st'.areas = st.areas ∧ st'.lineAreas = st.lineAreas := by
  unfold pass1Equ at h
  split at h
  · rw [error_ite_eq_ok] at h
    obtain ⟨v, _, h⟩ := bind_eq_ok.mp h.2
    obtain rfl := pure_eq_ok.mp h
    exact ⟨rfl, rfl⟩
  · rw [error_ite_eq_ok] at h
    obtain ⟨v, _, h⟩ := bind_eq_ok.mp h.2
    obtain rfl := pure_eq_ok.mp h
    exact ⟨rfl, rfl⟩

theorem pass1Label_areas {label : String} (h : pass1Label st line label = .ok st') :
    st'.areas = st.areas ∧ st'.lineAreas = st.lineAreas := by
  obtain ⟨symbols, _, h⟩ := bind_eq_ok.mp h
  obtain rfl := pure_eq_ok.mp h
  exact ⟨rfl, rfl⟩

/-- A line of the first pass notes its area, and a later line is in the area behind it. -/
theorem pass1Line_areas (h : pass1Line target st line = .ok st') :
    st'.lineAreas = (line.lineNo, canonicalAreaName st.areas.current) :: st.lineAreas ∧
      st'.areas.current = areaBehind line st.areas.current := by
  unfold pass1Line at h
  dsimp only at h
  split at h
  · rename_i hkind
    obtain ⟨hareas, hlines⟩ := pass1Equ_areas h
    refine ⟨hlines, ?_⟩
    rw [hareas, areaBehind, hkind]
  · have hrest {st₁ : Pass1} (kind : LineKind) (hkind : line.operation.map lineKind = some kind)
        (h : (do return { st₁ with areas := ← pass1Areas target st₁ line kind }) =
          (.ok st' : Except String Pass1))
        (hlabel : st₁.areas = st.areas ∧ st₁.lineAreas =
          (line.lineNo, canonicalAreaName st.areas.current) :: st.lineAreas) :
        st'.lineAreas = (line.lineNo, canonicalAreaName st.areas.current) :: st.lineAreas ∧
          st'.areas.current = areaBehind line st.areas.current := by
      obtain ⟨ctx, hctx, h⟩ := bind_eq_ok.mp h
      obtain rfl := pure_eq_ok.mp h
      refine ⟨hlabel.2, ?_⟩
      rw [← hlabel.1]
      exact pass1Areas_current hkind hctx
    have hlabelled {st₁ : Pass1} (hlabel : st₁.areas = st.areas ∧ st₁.lineAreas =
          (line.lineNo, canonicalAreaName st.areas.current) :: st.lineAreas)
        (hkind : line.operation.map lineKind = none) :
        st₁.lineAreas = (line.lineNo, canonicalAreaName st.areas.current) :: st.lineAreas ∧
          st₁.areas.current = areaBehind line st.areas.current := by
      refine ⟨hlabel.2, ?_⟩
      rw [hlabel.1, areaBehind, hkind]
    cases hname : line.name with
    | none =>
        rw [hname] at h
        obtain ⟨st₁, hst₁, h⟩ := bind_eq_ok.mp h
        obtain rfl := pure_eq_ok.mp hst₁
        split at h
        · rename_i hkind
          obtain rfl := pure_eq_ok.mp h
          exact hlabelled ⟨rfl, rfl⟩ hkind
        · rename_i kind hkind
          exact hrest kind hkind h ⟨rfl, rfl⟩
    | some label =>
        rw [hname] at h
        obtain ⟨st₁, hst₁, h⟩ := bind_eq_ok.mp h
        split at h
        · rename_i hkind
          obtain rfl := pure_eq_ok.mp h
          exact hlabelled (pass1Label_areas hst₁) hkind
        · rename_i kind hkind
          exact hrest kind hkind h (pass1Label_areas hst₁)

theorem pass2Line_current {mentions : String → String → Except String Bool}
    {symbols : SymbolTable} {symbolInfos : SymbolInfoTable} {st st' : Pass2}
    (h : pass2Line target mentions symbols symbolInfos st line = .ok st') :
    st'.areas.current = areaBehind line st.areas.current := by
  have hsame (hne : line.operation.map lineKind ≠ some .area)
      (heq : st'.areas.current = st.areas.current) :
      st'.areas.current = areaBehind line st.areas.current := by
    rw [heq, areaBehind]
    split
    · rename_i hkind _
      exact absurd hkind hne
    · rfl
  cases pass2Line_effect h with
  | emits _ hne hemits => exact hsame hne hemits.2.2
  | org pc hkind heq =>
      subst heq
      exact hsame (by rw [hkind]; exact nofun) rfl
  | area name noload hkind hname heq =>
      subst heq
      rw [areaBehind, hkind, hname]
      rfl
  | storage size hkind heq =>
      subst heq
      exact hsame (by rw [hkind]; exact nofun) rfl

end FirstPass

section Found

variable {target : Target} {mentions : String → String → Except String Bool}
  {symbols : SymbolTable} {symbolInfos : SymbolInfoTable} {lines : List ParsedLine}

/-- Where `collectCheckpoints` finds a line. -/
def foundPlace (words : List EmittedWord) (storageAddrs : List (Nat × Int))
    (lineAreas : List (Nat × String)) (lineNo : Nat) : Option Place :=
  match words.find? (·.lineNo = lineNo) with
  | some word => some (canonicalAreaName word.area, word.address)
  | none => (storageAddrs.lookup lineNo).map fun storage =>
      (canonicalAreaName ((lineAreas.lookup lineNo).getD "_CODE"), storage)

/-- The lines of a run put out words, and reserve, under their own numbers. -/
theorem pass2_grows {st second : Pass2}
    (h : lines.foldlM (pass2Line target mentions symbols symbolInfos) st = .ok second) :
    (∃ ws, second.words = st.words ++ ws ∧ ∀ w ∈ ws, w.lineNo ∈ lines.map (·.lineNo)) ∧
      ∃ ss, second.storageAddrs = ss ++ st.storageAddrs ∧
        ∀ e ∈ ss, e.1 ∈ lines.map (·.lineNo) := by
  induction lines generalizing st with
  | nil =>
      obtain rfl := pure_eq_ok.mp h
      exact ⟨⟨[], (List.append_nil _).symm, nofun⟩, [], rfl, nofun⟩
  | cons line lines ih =>
      rw [List.foldlM_cons] at h
      obtain ⟨st', hline, h⟩ := bind_eq_ok.mp h
      obtain ⟨⟨ws, hws, hmem⟩, ss, hss, hmem'⟩ := ih h
      have hmore {l : List Nat} {n : Nat} (hn : n ∈ l) : n ∈ line.lineNo :: l :=
        List.mem_cons_of_mem _ hn
      have hhere : line.lineNo ∈ line.lineNo :: lines.map (·.lineNo) := List.mem_cons_self
      have hquiet (hwords : st'.words = st.words) (hstorage : st'.storageAddrs = st.storageAddrs) :
          (∃ ws, second.words = st.words ++ ws ∧
              ∀ w ∈ ws, w.lineNo ∈ line.lineNo :: lines.map (·.lineNo)) ∧
            ∃ ss, second.storageAddrs = ss ++ st.storageAddrs ∧
              ∀ e ∈ ss, e.1 ∈ line.lineNo :: lines.map (·.lineNo) :=
        ⟨⟨ws, hws.trans (congrArg (· ++ ws) hwords), fun w hw => hmore (hmem w hw)⟩,
          ss, hss.trans (congrArg (ss ++ ·) hstorage), fun e he => hmore (hmem' e he)⟩
      cases pass2Line_effect hline with
      | emits _ _ hemits =>
          obtain ⟨⟨ws₁, hws₁, hmem₁⟩, hstorage, _⟩ := hemits
          refine ⟨⟨ws₁ ++ ws, ?_, ?_⟩, ss, ?_, fun e he => hmore (hmem' e he)⟩
          · rw [hws, hws₁, List.append_assoc]
          · intro w hw
            rcases List.mem_append.mp hw with hw | hw
            · rw [(hmem₁ w hw).1]
              exact hhere
            · exact hmore (hmem w hw)
          · rw [hss, hstorage]
      | org pc _ heq =>
          subst heq
          exact hquiet rfl rfl
      | area name noload _ _ heq =>
          subst heq
          exact hquiet rfl rfl
      | storage size _ heq =>
          subst heq
          refine ⟨⟨ws, hws, fun w hw => hmore (hmem w hw)⟩,
            ss ++ [(line.lineNo, areaPc st.areas)], ?_, ?_⟩
          · rw [hss, List.append_assoc]
            rfl
          · intro e he
            rcases List.mem_append.mp he with he | he
            · exact hmore (hmem' e he)
            · rw [List.mem_singleton.mp he]
              exact hhere

theorem pass1_grows {st first : Pass1} (h : lines.foldlM (pass1Line target) st = .ok first) :
    ∃ areas, first.lineAreas = areas ++ st.lineAreas ∧
      ∀ e ∈ areas, e.1 ∈ lines.map (·.lineNo) := by
  induction lines generalizing st with
  | nil =>
      obtain rfl := pure_eq_ok.mp h
      exact ⟨[], rfl, nofun⟩
  | cons line lines ih =>
      rw [List.foldlM_cons] at h
      obtain ⟨st', hline, h⟩ := bind_eq_ok.mp h
      obtain ⟨areas, hareas, hmem⟩ := ih h
      refine ⟨areas ++ [(line.lineNo, canonicalAreaName st.areas.current)], ?_, ?_⟩
      · rw [hareas, (pass1Line_areas hline).1, List.append_assoc]
        rfl
      · intro e he
        rcases List.mem_append.mp he with he | he
        · exact List.mem_cons_of_mem _ (hmem e he)
        · rw [List.mem_singleton.mp he]
          exact List.mem_cons_self

theorem lookup_append_of_not_mem {α : Type} {l l' : List (Nat × α)} {n : Nat}
    (h : ∀ e ∈ l, e.1 ≠ n) : (l ++ l').lookup n = l'.lookup n := by
  induction l with
  | nil => rfl
  | cons e l ih =>
      have hne : (n == e.1) = false := beq_eq_false_iff_ne.mpr (h e List.mem_cons_self).symm
      rw [List.cons_append, List.lookup_cons, hne]
      exact ih fun e he => h e (List.mem_cons_of_mem _ he)

theorem lookup_of_not_mem {α : Type} {l : List (Nat × α)} {n : Nat} (h : ∀ e ∈ l, e.1 ≠ n) :
    l.lookup n = none := by
  rw [← List.append_nil l, lookup_append_of_not_mem h]
  rfl

theorem find?_append_of_not_mem {l l' : List EmittedWord} {n : Nat} (h : ∀ w ∈ l, w.lineNo ≠ n) :
    (l ++ l').find? (·.lineNo = n) = l'.find? (·.lineNo = n) := by
  have hnone : l.find? (·.lineNo = n) = none :=
    List.find?_eq_none.mpr fun w hw => by rw [decide_eq_true_iff]; exact h w hw
  rw [List.find?_append, hnone, Option.none_or]

/-- What a line has put out or reserved is found under its number. -/
theorem found_line {line : ParsedLine} {st₁ st₁' first : Pass1} {st st' second : Pass2}
    (hcurrent : st₁.areas.current = st.areas.current)
    (hnot : line.lineNo ∉ lines.map (·.lineNo))
    (hwords : ∀ w ∈ st.words, w.lineNo ≠ line.lineNo)
    (hstorage : ∀ e ∈ st.storageAddrs, e.1 ≠ line.lineNo)
    (hline₁ : pass1Line target st₁ line = .ok st₁')
    (hline : pass2Line target mentions symbols symbolInfos st line = .ok st')
    (hfirst : lines.foldlM (pass1Line target) st₁' = .ok first)
    (hsecond : lines.foldlM (pass2Line target mentions symbols symbolInfos) st' = .ok second) :
    linePlace st st' = foundPlace second.words second.storageAddrs first.lineAreas line.lineNo ∨
      (linePlace st st' = none ∧ line.operation.map lineKind = some .storage) := by
  obtain ⟨⟨more, hmore, hmoreMem⟩, later, hlater, hlaterMem⟩ := pass2_grows hsecond
  obtain ⟨areas, hareas, hareasMem⟩ := pass1_grows hfirst
  have hbehind {n : Nat} (hn : n ∈ lines.map (·.lineNo)) : n ≠ line.lineNo :=
    fun heq => hnot (heq ▸ hn)
  have hlook : second.storageAddrs.lookup line.lineNo = st'.storageAddrs.lookup line.lineNo := by
    rw [hlater]
    exact lookup_append_of_not_mem fun e he => hbehind (hlaterMem e he)
  have hfind : (st'.words ++ more).find? (·.lineNo = line.lineNo) =
      st'.words.find? (·.lineNo = line.lineNo) := by
    rw [List.find?_append]
    have hnone : more.find? (·.lineNo = line.lineNo) = none :=
      List.find?_eq_none.mpr fun w hw => by
        rw [decide_eq_true_iff]
        exact hbehind (hmoreMem w hw)
    rw [hnone, Option.or_none]
  have hold : st.words.find? (·.lineNo = line.lineNo) = none :=
    List.find?_eq_none.mpr fun w hw => by
      rw [decide_eq_true_iff]
      exact hwords w hw
  have hnothing (hsame : st'.words = st.words) (hsame' : st'.storageAddrs = st.storageAddrs) :
      linePlace st st' = foundPlace second.words second.storageAddrs first.lineAreas line.lineNo := by
    rw [linePlace, foundPlace, hmore, hfind, hlook, hsame, hsame', hold, List.drop_length,
      lookup_of_not_mem hstorage]
    exact if_neg fun hlt => Nat.lt_irrefl _ hlt.1
  cases pass2Line_effect hline with
  | emits _ _ hemits =>
      obtain ⟨⟨ws, hws, hmem⟩, hsame, _⟩ := hemits
      left
      cases ws with
      | nil => exact hnothing (hws.trans (List.append_nil _)) hsame
      | cons w ws =>
          obtain ⟨hlineNo, harea⟩ := hmem w List.mem_cons_self
          have hhere : (w :: ws).find? (·.lineNo = line.lineNo) = some w := by simp [hlineNo]
          rw [linePlace, foundPlace, hmore, hfind, hws, List.drop_left, find?_append_of_not_mem hwords,
            hhere]
          exact congrArg some (Prod.ext harea rfl)
  | org pc _ heq =>
      subst heq
      exact .inl (hnothing rfl rfl)
  | area name noload _ _ heq =>
      subst heq
      exact .inl (hnothing rfl rfl)
  | storage size hkind heq =>
      have hwords' : st'.words = st.words := by rw [heq]
      have hfound : foundPlace second.words second.storageAddrs first.lineAreas line.lineNo =
          some (canonicalAreaName st.areas.current, areaPc st.areas) := by
        rw [foundPlace, hmore, hfind, hlook, hwords', hold, hareas,
          lookup_append_of_not_mem fun e he => hbehind (hareasMem e he), (pass1Line_areas hline₁).1,
          hcurrent, heq, List.lookup_cons_self, List.lookup_cons_self]
        exact congrArg some (Prod.ext (canonicalAreaName_idem _) rfl)
      rw [hfound, linePlace, hwords', List.drop_length]
      split
      · rename_i w ws hcons
        cases hcons
      · split
        · exact .inl rfl
        · exact .inr ⟨rfl, hkind⟩

/-- So it is for all lines of a run. -/
theorem found_lines {st₁ first : Pass1} {st second : Pass2}
    (hcurrent : st₁.areas.current = st.areas.current) (hnodup : (lines.map (·.lineNo)).Nodup)
    (hwords : ∀ w ∈ st.words, w.lineNo ∉ lines.map (·.lineNo))
    (hstorage : ∀ e ∈ st.storageAddrs, e.1 ∉ lines.map (·.lineNo))
    (hfirst : lines.foldlM (pass1Line target) st₁ = .ok first)
    (hsecond : lines.foldlM (pass2Line target mentions symbols symbolInfos) st = .ok second) :
    ∀ p ∈ linePlaces target mentions symbols symbolInfos st lines,
      p.2 = foundPlace second.words second.storageAddrs first.lineAreas p.1.lineNo ∨
        (p.2 = none ∧ p.1.operation.map lineKind = some .storage) := by
  induction lines generalizing st₁ st with
  | nil => exact nofun
  | cons line lines ih =>
      rw [List.foldlM_cons] at hfirst hsecond
      obtain ⟨st₁', hline₁, hfirst⟩ := bind_eq_ok.mp hfirst
      obtain ⟨st', hline, hsecond⟩ := bind_eq_ok.mp hsecond
      rw [List.map_cons, List.nodup_cons] at hnodup
      obtain ⟨hnot, hnodup⟩ := hnodup
      have hcurrent' : st₁'.areas.current = st'.areas.current := by
        rw [(pass1Line_areas hline₁).2, pass2Line_current hline, hcurrent]
      have hone : [line].foldlM (pass2Line target mentions symbols symbolInfos) st = .ok st' := by
        rw [List.foldlM_cons, hline]
        rfl
      obtain ⟨⟨ws, hws, hwsMem⟩, ss, hss, hssMem⟩ := pass2_grows hone
      have hline' {n : Nat} (hn : n ∈ [line].map (·.lineNo)) : n ∉ lines.map (·.lineNo) := by
        rw [List.mem_singleton.mp hn]
        exact hnot
      intro p hp
      rw [linePlaces, hline] at hp
      rcases List.mem_cons.mp hp with rfl | hp
      · apply found_line hcurrent hnot _ _ hline₁ hline hfirst hsecond
        · exact fun w hw heq => hwords w hw (heq ▸ List.mem_cons_self)
        · exact fun e he heq => hstorage e he (heq ▸ List.mem_cons_self)
      · apply ih hcurrent' hnodup _ _ hfirst hsecond p hp
        · intro w hw
          rw [hws] at hw
          rcases List.mem_append.mp hw with hw | hw
          · exact fun hmem => hwords w hw (List.mem_cons_of_mem _ hmem)
          · exact hline' (hwsMem w hw)
        · intro e he
          rw [hss] at he
          rcases List.mem_append.mp he with he | he
          · exact hline' (hssMem e he)
          · exact fun hmem => hstorage e he (List.mem_cons_of_mem _ hmem)

/-- The places are those of all the lines, and no line that is no target has one. -/
theorem linePlaces_lines (cpu : CpuType) {st second : Pass2}
    (h : lines.foldlM (pass2Line cpu.target mentions symbols symbolInfos) st = .ok second) :
    (linePlaces cpu.target mentions symbols symbolInfos st lines).map (·.1) = lines ∧
      ∀ p ∈ linePlaces cpu.target mentions symbols symbolInfos st lines,
        isEmittingLine p.1 = false → p.2 = none := by
  induction lines generalizing st with
  | nil => exact ⟨rfl, nofun⟩
  | cons line lines ih =>
      rw [List.foldlM_cons] at h
      obtain ⟨st', hline, h⟩ := bind_eq_ok.mp h
      obtain ⟨hmap, hplaces⟩ := ih h
      rw [linePlaces, hline]
      refine ⟨congrArg (line :: ·) hmap, ?_⟩
      intro p hp hemit
      rcases List.mem_cons.mp hp with rfl | hp
      · exact linePlace_of_not_emitting cpu hemit hline
      · exact hplaces p hp hemit

end Found

section Bound

variable {words : List EmittedWord} {storageAddrs : List (Nat × Int)}
  {lineAreas : List (Nat × String)}

/-- What a line does to the names that wait, its own among them. -/
theorem bindLine_eq_ok {b b₁ : Binding} {line : ParsedLine}
    (hquoted : NoQuotedMark line.text.toList) (h : bindLine b line = .ok b₁) :
    b₁ = if isEmittingLine line then
      ⟨[], b.bound ++ (b.pending ++ (commentName line).toList).map (·, line.lineNo)⟩
    else ⟨b.pending ++ (commentName line).toList, b.bound⟩ := by
  obtain ⟨found, hfound, h⟩ := bind_eq_ok.mp h
  rw [← checkpointNameInLine_ok hquoted hfound]
  cases found with
  | some name =>
      dsimp only at h
      split at h
      · rename_i hemit
        obtain rfl := pure_eq_ok.mp h
        rw [if_pos hemit, Option.toList_some, List.map_append, List.append_assoc]
        rfl
      · rename_i hemit
        obtain rfl := pure_eq_ok.mp h
        rw [if_neg hemit]
        rfl
  | none =>
      dsimp only at h
      split at h
      · rename_i hemit
        obtain rfl := pure_eq_ok.mp h
        rw [if_pos hemit, Option.toList_none, List.append_nil]
      · rename_i hemit
        obtain rfl := pure_eq_ok.mp h
        rw [if_neg hemit, Option.toList_none, List.append_nil]

theorem bindLines_bound {lines : List ParsedLine} {b b' : Binding}
    (hquoted : ∀ line ∈ lines, NoQuotedMark line.text.toList)
    (h : lines.foldlM bindLine b = .ok b') : ∀ e ∈ b.bound, e ∈ b'.bound := by
  induction lines generalizing b with
  | nil =>
      obtain rfl := pure_eq_ok.mp h
      exact fun e he => he
  | cons line lines ih =>
      rw [List.foldlM_cons] at h
      obtain ⟨b₁, hline, h⟩ := bind_eq_ok.mp h
      have hrest := ih (fun line hl => hquoted line (List.mem_cons_of_mem _ hl)) h
      have hb := bindLine_eq_ok (hquoted line List.mem_cons_self) hline
      intro e he
      apply hrest
      rw [hb]
      split
      · exact List.mem_append_left _ he
      · exact he

theorem marks_cons (line : ParsedLine) (place : Option Place)
    (places : List (ParsedLine × Option Place)) :
    marks ((line, place) :: places) =
      (commentName line).toList.map (·, firstPlace ((line, place) :: places)) ++ marks places := by
  rw [marks]
  cases commentName line <;> rfl

/-- The names are bound to the lines of their places, those that wait among them. -/
theorem bindLines_marks {places : List (ParsedLine × Option Place)} {b b' : Binding}
    (hquoted : ∀ line ∈ places.map (·.1), NoQuotedMark line.text.toList)
    (hplaces : ∀ p ∈ places, p.2 = foundPlace words storageAddrs lineAreas p.1.lineNo ∨
      (p.2 = none ∧ p.1.operation.map lineKind = some .storage))
    (hskip : ∀ p ∈ places, isEmittingLine p.1 = false → p.2 = none)
    (hempty : NoEmptyTarget (!b.pending.isEmpty) places)
    (h : (places.map (·.1)).foldlM bindLine b = .ok b') (hpending : b'.pending = [])
    (hfound : ∀ e ∈ b'.bound, foundPlace words storageAddrs lineAreas e.2 ≠ none) :
    b'.bound.map (fun e => (e.1, foundPlace words storageAddrs lineAreas e.2)) =
      b.bound.map (fun e => (e.1, foundPlace words storageAddrs lineAreas e.2)) ++
        (b.pending.map (·, firstPlace places) ++ marks places) := by
  induction places generalizing b with
  | nil =>
      obtain rfl := pure_eq_ok.mp h
      rw [hpending]
      exact (List.append_nil _).symm
  | cons p places ih =>
      obtain ⟨line, place⟩ := p
      rw [List.map_cons, List.foldlM_cons] at h
      obtain ⟨b₁, hline, h⟩ := bind_eq_ok.mp h
      rw [List.map_cons] at hquoted
      have hquoted' : ∀ line ∈ places.map (·.1), NoQuotedMark line.text.toList :=
        fun line hl => hquoted line (List.mem_cons_of_mem _ hl)
      obtain ⟨hhere, hempty⟩ := hempty
      have hb := bindLine_eq_ok (hquoted line List.mem_cons_self) hline
      have hkept := bindLines_bound hquoted' h
      have hrest := ih (b := b₁) hquoted' (fun p hp => hplaces p (List.mem_cons_of_mem _ hp))
        fun p hp => hskip p (List.mem_cons_of_mem _ hp)
      have hwaiting : (!(b.pending ++ (commentName line).toList).isEmpty) =
          (!b.pending.isEmpty || (commentName line).isSome) := by
        cases b.pending <;> cases commentName line <;> rfl
      rw [marks_cons, ← List.append_assoc (b.pending.map _), ← List.map_append]
      by_cases hemit : isEmittingLine line = true
      · rw [if_pos hemit] at hb
        rw [hemit, Bool.not_true, Bool.and_false] at hempty
        subst hb
        rw [hrest hempty h, List.map_append, List.map_map, List.append_assoc]
        congr 2
        apply List.map_congr_left
        intro name hname
        -- a name waits, so the line has the place under which it is found
        have hwait : (!b.pending.isEmpty || (commentName line).isSome) = true := by
          rw [← hwaiting]
          cases hnames : b.pending ++ (commentName line).toList with
          | nil =>
              rw [hnames] at hname
              cases hname
          | cons _ _ => rfl
        have hplace : place = foundPlace words storageAddrs lineAreas line.lineNo := by
          rcases hplaces (line, place) List.mem_cons_self with heq | ⟨hnone, hkind⟩
          · exact heq
          · exact absurd hnone (hhere hwait hkind)
        have hsome : foundPlace words storageAddrs lineAreas line.lineNo ≠ none :=
          hfound (name, line.lineNo) (hkept _ (List.mem_append_right _ (List.mem_map_of_mem hname)))
        obtain ⟨at', hat⟩ := Option.ne_none_iff_exists'.mp hsome
        rw [hat] at hplace
        subst hplace
        exact Prod.ext rfl hat
      · rw [if_neg hemit] at hb
        rw [Bool.eq_false_iff.mpr hemit, Bool.not_false, Bool.and_true, ← hwaiting] at hempty
        obtain rfl : place = none :=
          hskip (line, place) List.mem_cons_self (Bool.eq_false_iff.mpr hemit)
        subst hb
        rw [hrest hempty h]
        rfl

theorem placeCheckpoint_eq_ok {byName byName' : JsMap Nat} {b : String × Nat} {cp : AsmCheckpoint}
    (h : placeCheckpoint words storageAddrs lineAreas byName b = .ok (cp, byName')) :
    ∃ place, foundPlace words storageAddrs lineAreas b.2 = some place ∧
      cp = ⟨b.1, padSerial ((byName.get b.1).getD 0 + 1), place.1, place.2⟩ ∧
      byName' = byName.set b.1 ((byName.get b.1).getD 0 + 1) := by
  rw [placeCheckpoint] at h
  rw [foundPlace]
  cases hword : words.find? (·.lineNo = b.2) with
  | some word =>
      rw [hword] at h
      cases h
      exact ⟨_, rfl, rfl, rfl⟩
  | none =>
      rw [hword] at h
      dsimp only at h ⊢
      cases hstorage : storageAddrs.lookup b.2 with
      | some storage =>
          rw [hstorage] at h
          cases h
          exact ⟨_, rfl, rfl, rfl⟩
      | none =>
          rw [hstorage] at h
          cases h

/-- The map counts the names behind it. -/
theorem placeCheckpoints_eq_ok {byName : JsMap Nat} {seen : List String}
    {bound : List (String × Nat)} {cps : List AsmCheckpoint}
    (hcount : ∀ name, (byName.get name).getD 0 = seen.count name)
    (h : placeCheckpoints words storageAddrs lineAreas byName bound = .ok cps) :
    ∃ placed, bound.map (fun e => (e.1, foundPlace words storageAddrs lineAreas e.2)) =
        placed.map (fun mark => (mark.1, some mark.2)) ∧ cps = numbered seen placed := by
  induction bound generalizing byName seen cps with
  | nil =>
      cases h
      exact ⟨[], rfl, rfl⟩
  | cons b bound ih =>
      obtain ⟨⟨cp, byName'⟩, hplace, h⟩ := bind_eq_ok.mp h
      obtain ⟨rest, hrest, h⟩ := bind_eq_ok.mp h
      obtain rfl := pure_eq_ok.mp h
      obtain ⟨place, hfound, rfl, rfl⟩ := placeCheckpoint_eq_ok hplace
      have hcount' (name : String) :
          ((byName.set b.1 ((byName.get b.1).getD 0 + 1)).get name).getD 0 =
            (b.1 :: seen).count name := by
        rw [JsMap.get_set, List.count_cons]
        by_cases hname : b.1 = name
        · rw [if_pos hname, if_pos (beq_iff_eq.mpr hname), Option.getD_some, hcount, hname]
        · rw [if_neg hname, if_neg (fun heq => hname (beq_iff_eq.mp heq)), hcount]
          rfl
      obtain ⟨placed, hplaced, rfl⟩ := ih hcount' hrest
      refine ⟨(b.1, place) :: placed, ?_, ?_⟩
      · rw [List.map_cons, List.map_cons, hfound, hplaced]
      · rw [numbered, hcount]

theorem mapM_placed (placed : List (String × Place)) :
    (placed.map fun mark => (mark.1, some mark.2)).mapM
      (fun mark : String × Option Place => mark.2.map fun place => (mark.1, place)) =
        some placed := by
  induction placed with
  | nil => rfl
  | cons mark placed ih =>
      rw [List.map_cons, List.mapM_cons, ih]
      rfl

/-- What `collectCheckpoints` answers is what the places say. -/
theorem collectCheckpoints_eq_ok {places : List (ParsedLine × Option Place)}
    {cps : List AsmCheckpoint}
    (hquoted : ∀ line ∈ places.map (·.1), NoQuotedMark line.text.toList)
    (hplaces : ∀ p ∈ places, p.2 = foundPlace words storageAddrs lineAreas p.1.lineNo ∨
      (p.2 = none ∧ p.1.operation.map lineKind = some .storage))
    (hskip : ∀ p ∈ places, isEmittingLine p.1 = false → p.2 = none)
    (hempty : NoEmptyTarget false places)
    (h : collectCheckpoints (places.map (·.1)) words storageAddrs lineAreas = .ok cps) :
    expected places = some cps := by
  obtain ⟨b, hb, h⟩ := bind_eq_ok.mp h
  split at h
  · cases h
  · rename_i hpending
    have hnil : b.pending = [] := by
      cases hp : b.pending with
      | nil => rfl
      | cons _ _ =>
          rw [hp] at hpending
          exact absurd rfl hpending
    have hcount (name : String) :
        ((JsMap.empty : JsMap Nat).get name).getD 0 = ([] : List String).count name := rfl
    obtain ⟨placed, hplaced, rfl⟩ := placeCheckpoints_eq_ok hcount h
    have hfound : ∀ e ∈ b.bound, foundPlace words storageAddrs lineAreas e.2 ≠ none := by
      intro e he hnone
      have hmem : (e.1, (none : Option Place)) ∈
          b.bound.map (fun e => (e.1, foundPlace words storageAddrs lineAreas e.2)) :=
        List.mem_map.mpr ⟨e, he, Prod.ext rfl hnone⟩
      rw [hplaced] at hmem
      obtain ⟨_, _, heq⟩ := List.mem_map.mp hmem
      cases congrArg Prod.snd heq
    have hmarks := bindLines_marks (b := {}) hquoted hplaces hskip hempty hb hnil hfound
    rw [hplaced] at hmarks
    rw [expected, ← List.nil_append (marks places)]
    rw [show marks places = placed.map (fun mark => (mark.1, some mark.2)) from hmarks.symm]
    rw [List.nil_append, mapM_placed]
    rfl

end Bound

section Numbers

theorem parseLine_lineNo {lineNo : Nat} {raw : List Char} {line : ParsedLine}
    (h : parseLine lineNo raw = .ok line) : line.lineNo = lineNo := by
  rw [parseLine] at h
  split at h
  · cases h
    rfl
  · split at h
    · cases h
    · split at h
      · cases h
      · cases h
        rfl

theorem parseLines_lineNos {lineNo : Nat} {raws : List (List Char)} {lines : List ParsedLine}
    (h : parseLines lineNo raws = .ok lines) :
    lines.map (·.lineNo) = List.range' lineNo raws.length := by
  induction raws generalizing lineNo lines with
  | nil =>
      cases h
      rfl
  | cons raw raws ih =>
      obtain ⟨line, hline, h⟩ := bind_eq_ok.mp h
      obtain ⟨rest, hrest, h⟩ := bind_eq_ok.mp h
      obtain rfl := pure_eq_ok.mp h
      rw [List.map_cons, parseLine_lineNo hline, ih hrest]
      rfl

theorem applyLenCalls_lineNos {parsed lines : List ParsedLine} {stringLens : JsMap Nat}
    {globlNames : List String} (h : applyLenCalls parsed stringLens globlNames = .ok lines) :
    lines.map (·.lineNo) = parsed.map (·.lineNo) := by
  rw [applyLenCalls] at h
  induction parsed generalizing lines with
  | nil =>
      rw [List.mapM_nil] at h
      cases h
      rfl
  | cons line parsed ih =>
      rw [List.mapM_cons] at h
      obtain ⟨line', hline, h⟩ := bind_eq_ok.mp h
      obtain ⟨rest, hrest, h⟩ := bind_eq_ok.mp h
      obtain rfl := pure_eq_ok.mp h
      obtain ⟨args, _, hline⟩ := bind_eq_ok.mp hline
      obtain rfl := pure_eq_ok.mp hline
      rw [List.map_cons, List.map_cons, ih hrest]

theorem passLines_nodup {text : String} {parsed lines : List ParsedLine}
    (hparsed : parseSource text = .ok parsed) (hlines : passLines parsed = .ok lines) :
    (lines.map (·.lineNo)).Nodup := by
  obtain ⟨_, _, hlines⟩ := bind_eq_ok.mp hlines
  rw [applyLenCalls_lineNos hlines, parseLines_lineNos hparsed]
  exact List.nodup_range'

end Numbers

section Checkpoints

/-- The checkpoints of a program are those that its comments ask for. -/
theorem checkpoints_of_places (cpu : CpuType) (mentions : String → String → Except String Bool)
    {text : String} {parsed lines : List ParsedLine} {result : AssemblyResult}
    (hparsed : parseSource text = .ok parsed) (hlines : passLines parsed = .ok lines)
    (h : assemble cpu.target mentions parsed = .ok result)
    (hquoted : ∀ line ∈ lines, NoQuotedMark line.text.toList)
    (hempty : NoEmptyTarget false
      (linePlaces cpu.target mentions result.symbols result.symbolInfos {} lines)) :
    expected (linePlaces cpu.target mentions result.symbols result.symbolInfos {} lines) =
      some result.checkpoints := by
  obtain ⟨lines', first, second, hassembled⟩ := assemble_eq_ok h
  obtain rfl : lines' = lines := by
    have heq := hassembled.hlines.symm.trans hlines
    cases heq
    rfl
  obtain ⟨hmap, hskip⟩ := linePlaces_lines cpu hassembled.hsecond
  have hplaces := found_lines rfl (passLines_nodup hparsed hlines)
    (fun _ hw => absurd hw List.not_mem_nil) (fun _ he => absurd he List.not_mem_nil)
    hassembled.hfirst hassembled.hsecond
  apply collectCheckpoints_eq_ok _ hplaces hskip hempty
  · rw [hmap]
    exact hassembled.checkpoints
  · rw [hmap]
    exact hquoted

/-- The checkpoints that a program asks for, and those that it gets. -/
def askedAndGot (cpu : CpuType) (mentions : String → String → Except String Bool) (text : String) :
    Except String (Option (List AsmCheckpoint) × List AsmCheckpoint) := do
  let parsed ← parseSource text
  let lines ← passLines parsed
  let result ← assemble cpu.target mentions parsed
  return (expected (linePlaces cpu.target mentions result.symbols result.symbolInfos {} lines),
    result.checkpoints)

def markBeforeData : List ParsedLine :=
  [⟨1, "; @cp a", none, none, []⟩, ⟨2, " .word 5", none, some ".WORD", ["5"]⟩]

def markBeforeDataResult : AssemblyResult where
  symbols := .empty
  symbolInfos := .empty
  words := [⟨0, 5, 2, " .word 5", "_CODE"⟩]
  byteMode := false
  areas := [⟨"_CODE", 1, false⟩]
  storageAddrs := []
  relocs := []
  checkpoints := [⟨"a", "0001", "_CODE", 0⟩]

theorem assemble_markBeforeData :
    parseSource "; @cp a\n .word 5" = .ok markBeforeData ∧
      passLines markBeforeData = .ok markBeforeData ∧
      assemble CpuType.mn1613.target (fun _ _ => .ok false) markBeforeData =
        .ok markBeforeDataResult := by
  decide +kernel

theorem checkpoint_before_data :
    expected (linePlaces CpuType.mn1613.target (fun _ _ => .ok false) markBeforeDataResult.symbols
      markBeforeDataResult.symbolInfos {} markBeforeData) = some [⟨"a", "0001", "_CODE", 0⟩] :=
  checkpoints_of_places .mn1613 _ assemble_markBeforeData.1 assemble_markBeforeData.2.1
    assemble_markBeforeData.2.2 (by decide +kernel) (by decide +kernel)

/-- A string makes a checkpoint, and a reservation of nothing is the target of one. -/
theorem checkpoint_of_string :
    askedAndGot .mn1613 (fun _ _ => .ok false) " .word \"; @cp a b\"" =
        .ok (some [], [⟨"a", "0001", "_CODE", 0⟩]) ∧
      askedAndGot .mn1613 (fun _ _ => .ok false) "; @cp a\n .ds 0" =
        .ok (none, [⟨"a", "0001", "_CODE", 0⟩]) := by
  decide +kernel

end Checkpoints

end AsmTs
end RetroCpu
