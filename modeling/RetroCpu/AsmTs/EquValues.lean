import RetroCpu.AsmTs.Extents

/-!
# The values of `.equ`

The first pass evaluates a `.equ` where it stands, counts names that it does not know yet
as 0, and overwrites a name that it knows.  Where neither happens, no name is defined twice,
and every `.equ` has the value of its expression in the table of the second pass.
-/

namespace RetroCpu
namespace AsmTs

open Js Checked Precedence

section Definitions

/-- The name and the expression of a `.equ` line. -/
def equDefinition (line : ParsedLine) : Option (String × String) :=
  if line.operation.map lineKind = some .equ then
    match line.name with
    | some label => some (toUpperCase label, line.arg 0)
    | none => some (toUpperCase (line.arg 0), line.arg 1)
  else none

/-- The name that a line defines. -/
def definedName (line : ParsedLine) : Option String :=
  match equDefinition line with
  | some (name, _) => some name
  | none => line.name.map toUpperCase

/-- The names that a program defines, in its order. -/
def definedNames (lines : List ParsedLine) : List String := lines.filterMap definedName

/-- A `.equ` line defines a new name, and all names in its expression are known. -/
def settled (symbols : SymbolTable) (line : ParsedLine) : Bool :=
  match equDefinition line with
  | none => true
  | some (name, expr) => !symbols.has name && (evalExpr expr symbols false).isOk

/-- All lines of a run of the first pass are settled. -/
def settledRun (target : Target) : Pass1 → List ParsedLine → Bool
  | _, [] => true
  | st, line :: rest =>
      settled st.symbols line &&
        match pass1Line target st line with
        | .ok st' => settledRun target st' rest
        | .error _ => true

attribute [grind =] settledRun

/-- A table and the lines that have filled it. -/
structure Consistent (seen : List ParsedLine) (symbols : SymbolTable) : Prop where
  known : ∀ name, symbols.has name = true ↔ name ∈ definedNames seen
  once : (definedNames seen).Nodup
  value : ∀ line ∈ seen, ∀ name expr, equDefinition line = some (name, expr) →
    ∃ v, symbols.get name = some v ∧ evalExpr expr symbols false = .ok v

end Definitions

section Tables

/-- `table` keeps the values of `symbols`. -/
def Grows (symbols table : SymbolTable) : Prop :=
  ∀ name v, symbols.get name = some v → table.get name = some v

theorem Grows.refl (symbols : SymbolTable) : Grows symbols symbols := fun _ _ h => h

theorem grows_set {symbols table : SymbolTable} (h : Grows symbols table) {name : String}
    (hnew : table.has name = false) (v : Number) : Grows symbols (table.set name v) := by
  intro other w hget
  have hother := h other w hget
  rw [JsMap.get_set]
  by_cases hname : name = other
  · subst hname
    rw [JsMap.has, hother] at hnew
    cases hnew
  · rw [if_neg hname]
    exact hother

/-- Operands keep their values in a larger table, and where undefined names are allowed. -/
theorem evaluator_extends {symbols table : SymbolTable} (h : Grows symbols table)
    (expr : String) (allow : Bool) :
    Extends (evaluator expr table allow) (evaluator expr symbols false) := by
  refine ⟨?_, rfl, rfl⟩
  intro t v hatom
  dsimp only [evaluator, parseAtom] at hatom ⊢
  cases hnum : parseNumber t with
  | some num =>
      rw [hnum] at hatom
      exact hatom
  | none =>
      rw [hnum] at hatom
      cases hget : symbols.get (toUpperCase t) with
      | none =>
          rw [hget] at hatom
          cases hatom
      | some val =>
          rw [hget] at hatom
          rw [h _ _ hget]
          exact hatom

theorem evalExpr_grows {symbols table : SymbolTable} (h : Grows symbols table) {expr : String}
    {v : Number} (hv : evalExpr expr symbols false = .ok v) (allow : Bool) :
    evalExpr expr table allow = .ok v := by
  obtain ⟨called, hcalled, hv⟩ := bind_eq_ok.mp hv
  obtain ⟨rewritten, hrewritten, hv⟩ := bind_eq_ok.mp hv
  refine bind_eq_ok.mpr ⟨called, hcalled, bind_eq_ok.mpr ⟨rewritten, hrewritten, ?_⟩⟩
  unfold evalTokens at hv ⊢
  split at hv
  · cases hv
  · rename_i hempty
    rw [if_neg hempty]
    obtain ⟨⟨result, rest⟩, hread, hv⟩ := bind_eq_ok.mp hv
    exact bind_eq_ok.mpr ⟨_, (evaluator_extends h expr allow).expression hread, hv⟩

/-- The encoders see the values of the first pass. -/
theorem grows_symbolsForEncode (symbols : SymbolTable) (symbolInfos : SymbolInfoTable) :
    Grows symbols (symbolsForEncode symbols symbolInfos) := by
  unfold symbolsForEncode
  refine List.foldlRecOn (motive := fun table => Grows symbols table) _ _ (Grows.refl symbols) ?_
  intro table htable entry _
  split
  · rename_i hext
    refine grows_set htable ?_ _
    simpa using hext.2
  · exact htable

end Tables

section Steps

/-- What a line of the first pass does to the table. -/
inductive SymbolStep (line : ParsedLine) (symbols : SymbolTable) : SymbolTable → Prop
  | equ {name expr : String} {v : Number} (hline : equDefinition line = some (name, expr))
      (hv : evalExpr expr symbols true = .ok v) : SymbolStep line symbols (symbols.set name v)
  | label {name : String} {v : Number} (hequ : equDefinition line = none)
      (hname : definedName line = some name) (hnew : symbols.has name = false) :
      SymbolStep line symbols (symbols.set name v)
  | none (hname : definedName line = none) : SymbolStep line symbols symbols

variable {target : Target} {st st' : Pass1} {line : ParsedLine}

theorem pass1Equ_step (hkind : line.operation.map lineKind = some .equ)
    (h : pass1Equ st line = .ok st') : SymbolStep line st.symbols st'.symbols := by
  unfold pass1Equ at h
  cases hname : line.name with
  | some label =>
      rw [hname] at h
      obtain ⟨_, h⟩ := error_ite_eq_ok.mp h
      obtain ⟨v, hv, h⟩ := bind_eq_ok.mp h
      obtain rfl := pure_eq_ok.mp h
      refine .equ ?_ hv
      rw [equDefinition, if_pos hkind, hname]
  | none =>
      rw [hname] at h
      obtain ⟨_, h⟩ := error_ite_eq_ok.mp h
      obtain ⟨v, hv, h⟩ := bind_eq_ok.mp h
      obtain rfl := pure_eq_ok.mp h
      refine .equ ?_ hv
      rw [equDefinition, if_pos hkind, hname]

theorem pass1Label_step (hequ : equDefinition line = none) {label : String}
    (hlabel : line.name = some label) (h : pass1Label st line label = .ok st') :
    SymbolStep line st.symbols st'.symbols := by
  obtain ⟨symbols, hdefine, h⟩ := bind_eq_ok.mp h
  obtain rfl := pure_eq_ok.mp h
  unfold defineLabel at hdefine
  obtain ⟨hnew, hdefine⟩ := error_ite_eq_ok.mp hdefine
  obtain rfl := Except.ok.inj hdefine
  refine .label hequ ?_ (by simpa using hnew)
  rw [definedName, hequ, hlabel]
  rfl

/-- What follows the label of a line leaves the table as it is. -/
theorem pass1Areas_symbols {kind : LineKind}
    (h : (do return { st with areas := ← pass1Areas target st line kind }) =
      (.ok st' : Except String Pass1)) : st'.symbols = st.symbols := by
  obtain ⟨areas, _, h⟩ := bind_eq_ok.mp h
  obtain rfl := pure_eq_ok.mp h
  rfl

/-- One line of the first pass sets the name that it defines. -/
theorem pass1Line_step (h : pass1Line target st line = .ok st') :
    SymbolStep line st.symbols st'.symbols := by
  unfold pass1Line at h
  dsimp only at h
  split at h
  · rename_i hkind
    have hstep := pass1Equ_step hkind h
    exact hstep
  · rename_i hkind
    have hequ : equDefinition line = none := if_neg hkind
    cases hname : line.name with
    | none =>
        rw [hname] at h
        obtain ⟨st₁, hst₁, h⟩ := bind_eq_ok.mp h
        obtain rfl := pure_eq_ok.mp hst₁
        have hstep : SymbolStep line st.symbols st.symbols := by
          refine .none ?_
          rw [definedName, hequ, hname]
          rfl
        split at h
        · obtain rfl := pure_eq_ok.mp h
          exact hstep
        · rw [pass1Areas_symbols h]
          exact hstep
    | some label =>
        rw [hname] at h
        obtain ⟨st₁, hst₁, h⟩ := bind_eq_ok.mp h
        have hstep := pass1Label_step hequ hname hst₁
        split at h
        · obtain rfl := pure_eq_ok.mp h
          exact hstep
        · rw [pass1Areas_symbols h]
          exact hstep

variable {seen : List ParsedLine} {symbols : SymbolTable}

theorem definedNames_snoc (seen : List ParsedLine) (line : ParsedLine) :
    definedNames (seen ++ [line]) = definedNames seen ++ (definedName line).toList := by
  rw [definedNames, List.filterMap_append]
  cases hname : definedName line <;> simp [hname, definedNames]

/-- A new name is set, and stands for the last line. -/
theorem consistent_set (h : Consistent seen symbols) {name : String} {v : Number}
    (hname : definedName line = some name) (hnew : symbols.has name = false)
    (hvalue : ∀ expr, equDefinition line = some (name, expr) →
      evalExpr expr symbols false = .ok v) :
    Consistent (seen ++ [line]) (symbols.set name v) := by
  have hfresh : name ∉ definedNames seen := by
    intro hmem
    rw [(h.known name).mpr hmem] at hnew
    cases hnew
  have hgrows : Grows symbols (symbols.set name v) := grows_set (Grows.refl symbols) hnew v
  constructor
  · intro other
    rw [definedNames_snoc, hname, List.mem_append, ← h.known other, JsMap.has, JsMap.get_set]
    by_cases heq : name = other
    · simp [heq]
    · simp [heq, JsMap.has, Ne.symm heq]
  · rw [definedNames_snoc, hname]
    refine List.Nodup.append h.once (List.nodup_singleton name) ?_
    intro other hmem hlast
    obtain rfl := List.mem_singleton.mp hlast
    exact hfresh hmem
  · intro line' hline' name' expr hequ
    rcases List.mem_append.mp hline' with hline' | hline'
    · obtain ⟨w, hget, hw⟩ := h.value line' hline' name' expr hequ
      exact ⟨w, hgrows name' w hget, evalExpr_grows hgrows hw false⟩
    · obtain rfl := List.mem_singleton.mp hline'
      have hsame : name' = name := by
        rw [definedName, hequ] at hname
        exact Option.some.inj hname
      subst hsame
      refine ⟨v, ?_, evalExpr_grows hgrows (hvalue expr hequ) false⟩
      rw [JsMap.get_set, if_pos rfl]

/-- A settled line keeps the table consistent. -/
theorem consistent_step (h : Consistent seen st.symbols) (hsettled : settled st.symbols line = true)
    (hline : pass1Line target st line = .ok st') : Consistent (seen ++ [line]) st'.symbols := by
  have hstep := pass1Line_step hline
  generalize st'.symbols = symbols' at hstep ⊢
  cases hstep with
  | @equ name expr v hequ hv =>
      rw [settled, hequ, Bool.and_eq_true, Bool.not_eq_true'] at hsettled
      obtain ⟨hnew, hok⟩ := hsettled
      obtain ⟨w, hw⟩ : ∃ w, evalExpr expr st.symbols false = .ok w := by
        cases hstrict : evalExpr expr st.symbols false with
        | error message =>
            rw [hstrict] at hok
            cases hok
        | ok w => exact ⟨w, rfl⟩
      refine consistent_set h (by rw [definedName, hequ]) hnew ?_
      intro expr' hequ'
      obtain rfl : expr = expr' := by
        rw [hequ] at hequ'
        cases hequ'
        rfl
      -- the value that allows undefined names is the strict one
      have hlenient := evalExpr_grows (Grows.refl st.symbols) hw true
      rw [hv] at hlenient
      cases hlenient
      exact hw
  | label hequ hname hnew =>
      refine consistent_set h hname hnew ?_
      intro expr hequ'
      rw [hequ] at hequ'
      cases hequ'
  | none hname =>
      have hnames : definedNames (seen ++ [line]) = definedNames seen := by
        rw [definedNames_snoc, hname]
        exact List.append_nil _
      refine ⟨?_, ?_, ?_⟩
      · rw [hnames]
        exact h.known
      · rw [hnames]
        exact h.once
      · intro line' hline' name expr hequ
        rcases List.mem_append.mp hline' with hline' | hline'
        · exact h.value line' hline' name expr hequ
        · obtain rfl := List.mem_singleton.mp hline'
          rw [definedName, hequ] at hname
          cases hname

end Steps

section Runs

variable {target : Target} {mentions : String → String → Except String Bool}

theorem consistent_init : Consistent [] JsMap.empty := by
  refine ⟨?_, List.nodup_nil, ?_⟩
  · intro name
    simp [JsMap.has, JsMap.get, JsMap.empty, JsMap.find, definedNames]
  · intro line hline
    cases hline

theorem consistent_run {st st' : Pass1} {seen lines : List ParsedLine}
    (h : Consistent seen st.symbols) (hsettled : settledRun target st lines = true)
    (hrun : lines.foldlM (pass1Line target) st = .ok st') :
    Consistent (seen ++ lines) st'.symbols := by
  induction lines generalizing st seen with
  | nil =>
      obtain rfl := pure_eq_ok.mp hrun
      rw [List.append_nil]
      exact h
  | cons line rest ih =>
      rw [List.foldlM_cons] at hrun
      obtain ⟨st₁, hline, hrun⟩ := bind_eq_ok.mp hrun
      rw [settledRun, hline, Bool.and_eq_true] at hsettled
      obtain ⟨hfirst, hrest⟩ := hsettled
      have hnext := ih (consistent_step h hfirst hline) hrest hrun
      rw [List.append_assoc] at hnext
      exact hnext

theorem settledRun_append {st : Pass1} {seen rest : List ParsedLine}
    (h : settledRun target st (seen ++ rest) = true) :
    settledRun target st seen = true := by
  induction seen generalizing st with
  | nil => rfl
  | cons line seen ih =>
      rw [List.cons_append, settledRun, Bool.and_eq_true] at h
      obtain ⟨hfirst, hrest⟩ := h
      rw [settledRun, hfirst, Bool.true_and]
      cases hline : pass1Line target st line with
      | error message => rfl
      | ok st' =>
          rw [hline] at hrest
          exact ih hrest

end Runs

section Program

/-- The words of a result are those of the second pass on the final table, whose values the
encoders see. -/
def EmittedFrom (target : Target) (mentions : String → String → Except String Bool)
    (lines : List ParsedLine) (result : AssemblyResult) : Prop :=
  Grows result.symbols (symbolsForEncode result.symbols result.symbolInfos) ∧
    ∃ second, pass2 target mentions result.symbols result.symbolInfos lines = .ok second ∧
      result.words = second.words

/-- In a settled run the table is consistent behind every line, and the second pass works on
the last one. -/
theorem equ_values (target : Target) (mentions : String → String → Except String Bool)
    {parsed lines : List ParsedLine} {result : AssemblyResult}
    (hlines : passLines parsed = .ok lines)
    (hresult : assemble target mentions parsed = .ok result)
    (hsettled : settledRun target {} lines = true) :
    (∀ seen rest st, lines = seen ++ rest → pass1 target seen = .ok st →
      Consistent seen st.symbols) ∧
    Consistent lines result.symbols ∧ EmittedFrom target mentions lines result := by
  have hseen : ∀ seen rest st, lines = seen ++ rest → pass1 target seen = .ok st →
      Consistent seen st.symbols := by
    intro seen rest st heq hrun
    rw [heq] at hsettled
    have h := consistent_run consistent_init (settledRun_append hsettled) hrun
    exact h
  obtain ⟨lines', first, second, hassembled⟩ := assemble_eq_ok hresult
  obtain rfl : lines' = lines := Except.ok.inj (hassembled.hlines.symm.trans hlines)
  refine ⟨hseen, ?_, grows_symbolsForEncode _ _, second, hassembled.hsecond, hassembled.words⟩
  rw [hassembled.symbols]
  exact hseen lines' [] first (List.append_nil _).symm hassembled.hfirst

/-- `START .word 1`, `A .equ START+2` and `.word A`. -/
def equBehindLabel : List ParsedLine :=
  [⟨1, "START: .word 1", some "START", some ".word", ["1"]⟩,
    ⟨2, "A .equ START+2", some "A", some ".equ", ["START+2"]⟩,
    ⟨3, ".word A", none, some ".word", ["A"]⟩]

/-- No operand mentions an external symbol. -/
def noneMentioned (_ _ : String) : Except String Bool := .ok false

def equBehindLabelResult : AssemblyResult where
  words := [⟨0, 1, 1, "START: .word 1", "_CODE"⟩, ⟨1, 2, 3, ".word A", "_CODE"⟩]
  symbols := ⟨[("START", .int 0), ("A", .int 2)]⟩
  symbolInfos := ⟨[("START", ⟨.int 0, .local, some "_CODE"⟩), ("A", ⟨.int 2, .local, none⟩)]⟩
  relocs := []
  areas := [⟨"_CODE", 2, false⟩]
  storageAddrs := []
  byteMode := false
  checkpoints := []

theorem assemble_equBehindLabel :
    passLines equBehindLabel = .ok equBehindLabel ∧
      assemble mn1613 noneMentioned equBehindLabel = .ok equBehindLabelResult ∧
      settledRun mn1613 {} equBehindLabel = true := by
  decide +kernel

theorem equ_values_equBehindLabel :
    (∀ seen rest st, equBehindLabel = seen ++ rest → pass1 mn1613 seen = .ok st →
      Consistent seen st.symbols) ∧
    Consistent equBehindLabel equBehindLabelResult.symbols ∧
      EmittedFrom mn1613 noneMentioned equBehindLabel equBehindLabelResult :=
  equ_values mn1613 noneMentioned assemble_equBehindLabel.1 assemble_equBehindLabel.2.1
    assemble_equBehindLabel.2.2

/-- `A .equ B` before `B .equ 5`, and `.word A`. -/
def equAhead : List ParsedLine :=
  [⟨1, "A .equ B", some "A", some ".equ", ["B"]⟩, ⟨2, "B .equ 5", some "B", some ".equ", ["5"]⟩,
    ⟨3, ".word A", none, some ".word", ["A"]⟩]

/-- A label, and a `.equ` of its name. -/
def equAgain : List ParsedLine :=
  [⟨1, "A: .word 1", some "A", some ".word", ["1"]⟩, ⟨2, "A .equ 9", some "A", some ".equ", ["9"]⟩,
    ⟨3, ".word A", none, some ".word", ["A"]⟩]

theorem assemble_equAhead :
    (assemble mn1613 noneMentioned equAhead).map
      (fun result => (result.words.map (·.value), result.symbols)) =
        .ok ([0], ⟨[("A", .int 0), ("B", .int 5)]⟩) ∧
    (assemble mn1613 noneMentioned equAgain).map
      (fun result => (result.words.map (·.value), result.symbols)) =
        .ok ([1, 18], ⟨[("A", .int 9)]⟩) := by
  decide +kernel

/-- Both are accepted: the first emits 0 for an expression with the value 5, the second has
two definitions of a name. -/
theorem equ_values_fail :
    (∃ result, assemble mn1613 noneMentioned equAhead = .ok result ∧
      result.words.map (·.value) = [0] ∧
      evalExpr "B" result.symbols false = .ok (.int 5) ∧
      ¬ Consistent equAhead result.symbols) ∧
    (∃ result, assemble mn1613 noneMentioned equAgain = .ok result ∧
      result.words.map (·.value) = [1, 18] ∧ ¬ Consistent equAgain result.symbols) := by
  constructor
  · obtain ⟨result, hresult, heq⟩ := map_eq_ok.mp assemble_equAhead.1
    obtain ⟨hwords, hsymbols⟩ := Prod.mk.inj heq
    have hvalue : evalExpr "B" result.symbols false = .ok (.int 5) := by
      rw [hsymbols]
      decide
    refine ⟨result, hresult, hwords, hvalue, ?_⟩
    intro hconsistent
    obtain ⟨v, hget, hv⟩ := hconsistent.value ⟨1, "A .equ B", some "A", some ".equ", ["B"]⟩
      List.mem_cons_self "A" "B" (by decide)
    rw [hvalue] at hv
    cases hv
    rw [hsymbols] at hget
    exact absurd hget (by decide)
  · obtain ⟨result, hresult, heq⟩ := map_eq_ok.mp assemble_equAhead.2
    obtain ⟨hwords, _⟩ := Prod.mk.inj heq
    refine ⟨result, hresult, hwords, ?_⟩
    intro hconsistent
    exact absurd hconsistent.once (by decide)

end Program

end AsmTs
end RetroCpu
