import RetroCpu.AsmTs.Extents
import RetroCpu.AsmTs.RelWriter

/-!
# Names without line feeds

The source is split at line feeds before it is parsed, so that no name in a program contains
one, and the records of an object file are single lines.
-/

namespace RetroCpu
namespace AsmTs

open Js Checked

section OneLine

def OneLine (s : String) : Prop := '\n' ∉ s.toList

/-- The label and the operands of a line of the source. -/
structure LineOk (line : ParsedLine) : Prop where
  label : ∀ l ∈ line.label, OneLine l
  args : ∀ a ∈ line.args, OneLine a

theorem oneLine_toUpperCase {s : String} (h : OneLine s) : OneLine (toUpperCase s) := by
  unfold OneLine toUpperCase
  rw [String.toList_ofList]
  intro hmem
  obtain ⟨c, hc, hmem⟩ := List.mem_flatMap.mp hmem
  by_cases hs : isSpace c = true
  · -- white space keeps its case, so that the line feed is the character itself
    have hup : upperChar c = [c.toUpper] := by
      unfold upperChar
      split
      all_goals try rfl
      all_goals
        rename_i hn
        simp [isSpace, hn] at hs
    rw [hup, List.mem_singleton] at hmem
    rcases toUpper_cases c with hcase | hcase
    · rw [hcase] at hmem
      exact h (hmem ▸ hc)
    · rw [← hmem] at hcase
      exact absurd hcase (by decide)
  · have := isSpace_upperChar (by simpa using hs) hmem
    exact absurd this (by decide)

theorem mem_of_mem_trimChars {cs : List Char} {c : Char} (h : c ∈ trimChars cs) : c ∈ cs := by
  unfold trimChars at h
  rw [List.mem_reverse] at h
  have h := (List.dropWhile_suffix isSpace).subset h
  rw [List.mem_reverse] at h
  exact (List.dropWhile_suffix isSpace).subset h

theorem oneLine_trim {s : String} (h : OneLine s) : OneLine (trim s) := by
  unfold OneLine trim
  rw [String.toList_ofList]
  exact fun hmem => h (mem_of_mem_trimChars hmem)

theorem oneLine_canonicalAreaName {s : String} (h : OneLine s) : OneLine (canonicalAreaName s) := by
  unfold canonicalAreaName
  dsimp only
  split
  · unfold OneLine
    decide
  · exact oneLine_toUpperCase (oneLine_trim h)

theorem oneLine_repr (n : Nat) : OneLine (Nat.repr n) := by
  unfold OneLine Nat.repr
  rw [String.toList_ofList]
  intro h
  have := Nat.isDigit_of_mem_toDigits (by decide) (by decide) h
  exact absurd this (by decide)

theorem oneLine_append {s t : String} (hs : OneLine s) (ht : OneLine t) : OneLine (s ++ t) := by
  unfold OneLine
  rw [String.toList_append, List.mem_append]
  rintro (h | h)
  · exact hs h
  · exact ht h

theorem oneLine_intercalate {args : List String} (h : ∀ a ∈ args, OneLine a) :
    OneLine (" ".intercalate args) := by
  induction args with
  | nil =>
      rw [String.intercalate_nil]
      unfold OneLine
      decide
  | cons a args ih =>
      have ha := h a (by simp)
      cases args with
      | nil =>
          rw [String.intercalate_singleton]
          exact ha
      | cons b args =>
          have hspace : OneLine " " := by
            unfold OneLine
            decide
          rw [String.intercalate_cons_cons]
          exact oneLine_append (oneLine_append ha hspace) (ih fun c hc => h c (by simp [hc]))

theorem oneLine_parseAreaDirective {args : List String} {lineNo : Nat} {name : String}
    {noload : Bool} (hargs : ∀ a ∈ args, OneLine a)
    (h : parseAreaDirective args lineNo = .ok (name, noload)) : OneLine name := by
  unfold parseAreaDirective at h
  dsimp only at h
  rw [error_ite_eq_ok, error_ite_eq_ok] at h
  have hname : trim (String.ofList (List.takeWhile (fun c => decide (c ≠ '('))
      (trim (" ".intercalate args)).toList)) = name := by
    have h := h.2.2
    split at h
    · cases h
    · exact (Prod.mk.inj (Except.ok.inj h)).1
  rw [← hname]
  refine oneLine_trim ?_
  unfold OneLine
  rw [String.toList_ofList]
  exact fun hmem => oneLine_trim (oneLine_intercalate hargs) (List.takeWhile_subset _ hmem)

end OneLine

section LenCalls

/-- What follows a call of `len` is a part of what followed its bracket. -/
theorem lenCall_suffix {expr : String} {stringLens : JsMap Nat} {globlNames : List String}
    {cs rest : List Char} {len : Nat}
    (h : lenCall expr stringLens globlNames cs = .ok (len, rest)) {c : Char} (hc : c ∈ rest) :
    c ∈ cs := by
  unfold lenCall at h
  split at h
  · cases h
  · rename_i segments rest₁ hmatch
    dsimp only at h
    split at h
    · rename_i rest₂ hdrop
      rw [error_ite_eq_ok] at h
      have h := h.2
      split at h
      · cases h
      · cases h
        refine (List.dropWhile_suffix isBlank).subset ?_
        rw [matchPrefix_append hmatch]
        refine List.mem_append_right _ ((List.dropWhile_suffix isBlank).subset ?_)
        rw [hdrop]
        exact List.mem_cons_of_mem _ hc
    · cases h

theorem substLenLoop_chars {expr : String} {stringLens : JsMap Nat} {globlNames : List String} :
    ∀ (fuel : Nat) (prev : Option Char) (cs out : List Char), '\n' ∉ cs →
      substLenLoop expr stringLens globlNames fuel prev cs = .ok out → '\n' ∉ out := by
  intro fuel
  induction fuel with
  | zero =>
      intro prev cs out _ h
      cases h
      simp
  | succ fuel ih =>
      intro prev cs out hcs h
      cases cs with
      | nil =>
          cases h
          simp
      | cons c cs =>
          -- a character that stays
          have hkeep : ∀ out', substLenLoop expr stringLens globlNames fuel (some c) cs = .ok out' →
              '\n' ∉ c :: out' := by
            intro out' hout
            have := ih _ _ _ (fun hmem => hcs (by simp [hmem])) hout
            rw [List.mem_cons]
            rintro (rfl | hmem)
            · exact hcs (by simp)
            · exact this hmem
          unfold substLenLoop at h
          split at h
          · rename_i segments rest hmatch
            split at h
            · obtain ⟨out', hout, h⟩ := bind_eq_ok.mp h
              obtain rfl := pure_eq_ok.mp h
              exact hkeep out' hout
            · obtain ⟨⟨len, rest'⟩, hcall, h⟩ := bind_eq_ok.mp h
              obtain ⟨out', hout, h⟩ := bind_eq_ok.mp h
              obtain rfl := pure_eq_ok.mp h
              have hrest : '\n' ∉ rest := by
                intro hmem
                refine hcs ?_
                rw [matchPrefix_append hmatch]
                exact List.mem_append_right _ hmem
              have hrest' : '\n' ∉ rest' := by
                intro hmem
                exact hrest (lenCall_suffix hcall hmem)
              rw [List.mem_append]
              rintro (hmem | hmem)
              · exact oneLine_repr len hmem
              · exact ih _ _ _ hrest' hout hmem
          · obtain ⟨out', hout, h⟩ := bind_eq_ok.mp h
            obtain rfl := pure_eq_ok.mp h
            exact hkeep out' hout

theorem oneLine_substLenCalls {expr out : String} {stringLens : JsMap Nat}
    {globlNames : List String} (hexpr : OneLine expr)
    (h : substLenCalls expr stringLens globlNames = .ok out) : OneLine out := by
  obtain ⟨cs, hcs, h⟩ := bind_eq_ok.mp h
  obtain rfl := pure_eq_ok.mp h
  unfold OneLine
  rw [String.toList_ofList]
  exact substLenLoop_chars _ _ _ _ hexpr hcs

theorem mapM_forall {α β ε : Type} {f : α → Except ε β} {P : α → Prop} {Q : β → Prop}
    (hf : ∀ a b, P a → f a = .ok b → Q b) {l : List α} {bs : List β} (hl : ∀ a ∈ l, P a)
    (h : l.mapM f = .ok bs) : ∀ b ∈ bs, Q b := by
  induction l generalizing bs with
  | nil =>
      obtain rfl := pure_eq_ok.mp h
      simp
  | cons a l ih =>
      rw [List.mapM_cons] at h
      obtain ⟨b, hb, h⟩ := bind_eq_ok.mp h
      obtain ⟨bs', hbs, h⟩ := bind_eq_ok.mp h
      obtain rfl := pure_eq_ok.mp h
      intro b' hb'
      rcases List.mem_cons.mp hb' with rfl | hb'
      · exact hf a _ (hl a (by simp)) hb
      · exact ih (fun a' ha' => hl a' (by simp [ha'])) hbs b' hb'

/-- The passes read single lines too. -/
theorem lineOk_passLines {parsed lines : List ParsedLine} (hparsed : ∀ l ∈ parsed, LineOk l)
    (h : passLines parsed = .ok lines) : ∀ l ∈ lines, LineOk l := by
  obtain ⟨stringLens, _, h⟩ := bind_eq_ok.mp h
  refine mapM_forall ?_ hparsed h
  intro line line' hline h
  obtain ⟨args, hargs, h⟩ := bind_eq_ok.mp h
  obtain rfl := pure_eq_ok.mp h
  refine ⟨hline.label, ?_⟩
  refine mapM_forall ?_ hline.args hargs
  intro a out ha hout
  cases hsubst : substLenCalls a stringLens (collectGloblNames parsed) with
  | error msg =>
      rw [hsubst] at hout
      cases hout
  | ok out' =>
      rw [hsubst] at hout
      cases hout
      exact oneLine_substLenCalls ha hsubst

end LenCalls

section Passes

/-- A context of areas with single-line names. -/
structure AreasOk (ctx : AreaContext) : Prop where
  current : OneLine ctx.current
  entries : ∀ entry ∈ ctx.areas.entries, OneLine entry.1

theorem areasOk_create : AreasOk createAreaContext := by
  constructor
  · unfold OneLine createAreaContext
    decide
  · intro entry hentry
    rcases JsMap.mem_set hentry with rfl | hentry
    · unfold OneLine
      decide
    · cases hentry

theorem areasOk_setAreaPc {ctx : AreaContext} (h : AreasOk ctx) (pc : Int) :
    AreasOk (setAreaPc ctx pc) := by
  refine ⟨h.current, ?_⟩
  intro entry hentry
  rcases JsMap.mem_set hentry with rfl | hentry
  · exact h.current
  · exact h.entries entry hentry

theorem areasOk_switchArea {ctx : AreaContext} (h : AreasOk ctx) {name : String}
    (hname : OneLine name) (noload : Bool) : AreasOk (switchArea ctx name noload) := by
  refine ⟨oneLine_toUpperCase hname, ?_⟩
  intro entry hentry
  rcases JsMap.mem_set hentry with rfl | hentry
  · exact oneLine_toUpperCase hname
  · exact h.entries entry hentry

/-- The names that the first pass collects. -/
structure Pass1Ok (st : Pass1) : Prop where
  symbols : ∀ entry ∈ st.symbols.entries, OneLine entry.1
  symbolAreas : ∀ entry ∈ st.symbolAreas.entries, OneLine entry.2
  lineAreas : ∀ entry ∈ st.lineAreas, OneLine entry.2
  areas : AreasOk st.areas

variable {target : Target}

theorem pass1Areas_ok {st : Pass1} {line : ParsedLine} {kind : LineKind} {ctx : AreaContext}
    (hst : AreasOk st.areas) (hline : LineOk line)
    (h : pass1Areas target st line kind = .ok ctx) : AreasOk ctx := by
  unfold pass1Areas at h
  cases kind with
  | equ =>
      cases h
      exact hst
  | note =>
      cases h
      exact hst
  | otherDirective =>
      cases h
      exact hst
  | org =>
      dsimp only at h
      rw [error_ite_eq_ok] at h
      obtain ⟨v, _, h⟩ := bind_eq_ok.mp h.2
      obtain rfl := pure_eq_ok.mp h
      exact areasOk_setAreaPc hst _
  | area =>
      obtain ⟨⟨name, noload⟩, hname, h⟩ := bind_eq_ok.mp h
      obtain rfl := pure_eq_ok.mp h
      exact areasOk_switchArea hst (oneLine_parseAreaDirective hline.args hname) noload
  | storage =>
      obtain ⟨v, _, h⟩ := bind_eq_ok.mp h
      obtain rfl := pure_eq_ok.mp h
      exact areasOk_setAreaPc hst _
  | data =>
      dsimp only at h
      rw [error_ite_eq_ok] at h
      obtain ⟨v, _, h⟩ := bind_eq_ok.mp h.2
      obtain rfl := pure_eq_ok.mp h
      exact areasOk_setAreaPc hst _
  | instruction =>
      dsimp only at h
      rw [error_ite_eq_ok] at h
      obtain ⟨v, _, h⟩ := bind_eq_ok.mp h.2
      obtain rfl := pure_eq_ok.mp h
      exact areasOk_setAreaPc hst _

theorem keys_set {α : Type} {m : JsMap α} {key : String} {v : α}
    (hm : ∀ entry ∈ m.entries, OneLine entry.1) (hkey : OneLine key) :
    ∀ entry ∈ (m.set key v).entries, OneLine entry.1 := by
  intro entry hentry
  rcases JsMap.mem_set hentry with rfl | hentry
  · exact hkey
  · exact hm entry hentry

theorem pass1Equ_ok {st st' : Pass1} {line : ParsedLine} (hst : Pass1Ok st) (hline : LineOk line)
    (h : pass1Equ st line = .ok st') : Pass1Ok st' := by
  unfold pass1Equ at h
  split at h
  · rename_i label hname
    have hlabel : OneLine label := hline.label label (Option.mem_filter_iff.mp hname).1
    rw [error_ite_eq_ok] at h
    obtain ⟨v, _, h⟩ := bind_eq_ok.mp h.2
    obtain rfl := pure_eq_ok.mp h
    exact ⟨keys_set hst.symbols (oneLine_toUpperCase hlabel), hst.symbolAreas, hst.lineAreas,
      hst.areas⟩
  · rw [error_ite_eq_ok] at h
    obtain ⟨hlen, h⟩ := h
    obtain ⟨v, _, h⟩ := bind_eq_ok.mp h
    obtain rfl := pure_eq_ok.mp h
    have harg : OneLine (line.arg 0) := by
      unfold ParsedLine.arg
      cases hargs : line.args with
      | nil => simp [hargs] at hlen
      | cons a args => exact hline.args a (by simp [hargs])
    exact ⟨keys_set hst.symbols (oneLine_toUpperCase harg), hst.symbolAreas, hst.lineAreas,
      hst.areas⟩

theorem pass1Label_ok {st st' : Pass1} {line : ParsedLine} {label : String} (hst : Pass1Ok st)
    (hlabel : OneLine label) (h : pass1Label st line label = .ok st') : Pass1Ok st' := by
  obtain ⟨symbols, hsymbols, h⟩ := bind_eq_ok.mp h
  obtain rfl := pure_eq_ok.mp h
  unfold defineLabel at hsymbols
  dsimp only at hsymbols
  split at hsymbols
  · cases hsymbols
  · obtain rfl := Except.ok.inj hsymbols
    refine ⟨keys_set hst.symbols (oneLine_toUpperCase hlabel), ?_, hst.lineAreas, hst.areas⟩
    intro entry hentry
    rcases JsMap.mem_set hentry with rfl | hentry
    · exact oneLine_canonicalAreaName hst.areas.current
    · exact hst.symbolAreas entry hentry

theorem pass1Line_ok {st st' : Pass1} {line : ParsedLine} (hline : LineOk line)
    (h : pass1Line target st line = .ok st') (hst : Pass1Ok st) : Pass1Ok st' := by
  have hst₁ : Pass1Ok { st with
      lineAreas := (line.lineNo, canonicalAreaName st.areas.current) :: st.lineAreas } := by
    refine ⟨hst.symbols, hst.symbolAreas, ?_, hst.areas⟩
    intro entry hentry
    rcases List.mem_cons.mp hentry with rfl | hentry
    · exact oneLine_canonicalAreaName hst.areas.current
    · exact hst.lineAreas entry hentry
  have hrest {st₂ : Pass1} {kind : LineKind} (hok : Pass1Ok st₂)
      (h : (do return { st₂ with areas := ← pass1Areas target st₂ line kind }) =
        (.ok st' : Except String Pass1)) : Pass1Ok st' := by
    obtain ⟨areas, hareas, h⟩ := bind_eq_ok.mp h
    obtain rfl := pure_eq_ok.mp h
    exact ⟨hok.symbols, hok.symbolAreas, hok.lineAreas, pass1Areas_ok hok.areas hline hareas⟩
  unfold pass1Line at h
  dsimp only at h
  split at h
  · exact pass1Equ_ok hst₁ hline h
  · cases hname : line.name with
    | none =>
        rw [hname] at h
        obtain ⟨st₂, hst₂, h⟩ := bind_eq_ok.mp h
        obtain rfl := pure_eq_ok.mp hst₂
        split at h
        · obtain rfl := pure_eq_ok.mp h
          exact hst₁
        · exact hrest hst₁ h
    | some label =>
        rw [hname] at h
        obtain ⟨st₂, hst₂, h⟩ := bind_eq_ok.mp h
        have hlabel := hline.label label (Option.mem_filter_iff.mp hname).1
        have hok := pass1Label_ok hst₁ hlabel hst₂
        split at h
        · obtain rfl := pure_eq_ok.mp h
          exact hok
        · exact hrest hok h

theorem pass1_ok {lines : List ParsedLine} {st : Pass1} (hlines : ∀ l ∈ lines, LineOk l)
    (h : pass1 target lines = .ok st) : Pass1Ok st := by
  refine foldlM_invariant (fun s s' line hl hs => pass1Line_ok (hlines line hl) hs) ?_ h
  refine ⟨?_, ?_, ?_, areasOk_create⟩
  · intro entry hentry
    cases hentry
  · intro entry hentry
    cases hentry
  · intro entry hentry
    cases hentry

/-- The names that the second pass collects. -/
structure Pass2Ok (st : Pass2) : Prop where
  areas : AreasOk st.areas
  words : ∀ w ∈ st.words, OneLine w.area

theorem area_wordsAt {areas : AreaContext} {line : ParsedLine} {pc : Int} {values : List Int}
    {w : EmittedWord} (hw : w ∈ wordsAt target areas line pc values) :
    w.area = canonicalAreaName areas.current := by
  induction values generalizing pc with
  | nil => cases hw
  | cons v vs ih =>
      simp only [wordsAt, List.mem_cons] at hw
      rcases hw with hw | hw
      · rw [hw]
      · exact ih hw

theorem pass2_ok {mentions : String → String → Except String Bool} {symbols : SymbolTable}
    {symbolInfos : SymbolInfoTable} {lines : List ParsedLine} {st : Pass2}
    (hlines : ∀ l ∈ lines, LineOk l)
    (h : pass2 target mentions symbols symbolInfos lines = .ok st) : Pass2Ok st := by
  refine pass2_invariant ?_ ?_ h
  · refine ⟨areasOk_create, ?_⟩
    intro w hw
    cases hw
  · intro s s' hstep hs
    cases hstep with
    | org pc => exact ⟨areasOk_setAreaPc hs.areas pc, hs.words⟩
    | area line name noload hl hname =>
        have hone := oneLine_parseAreaDirective (hlines line hl).args hname
        exact ⟨areasOk_switchArea hs.areas hone noload, hs.words⟩
    | storage lineNo size => exact ⟨areasOk_setAreaPc hs.areas _, hs.words⟩
    | emit line values relocs hl hr =>
        refine ⟨areasOk_setAreaPc hs.areas _, ?_⟩
        intro w hw
        rcases List.mem_append.mp hw with hw | hw
        · exact hs.words w hw
        · rw [area_wordsAt hw]
          exact oneLine_canonicalAreaName hs.areas.current

end Passes

section Symbols

theorem oneLine_globlNames {parsed : List ParsedLine} (h : ∀ l ∈ parsed, LineOk l) :
    ∀ n ∈ collectGloblNames parsed, OneLine n := by
  have hargs : ∀ (args names : List String), (∀ a ∈ args, OneLine a) → (∀ n ∈ names, OneLine n) →
      ∀ n ∈ args.foldl (fun names arg =>
        let n := toUpperCase (trim arg)
        if trim arg = "" ∨ n ∈ names then names else names ++ [n]) names, OneLine n := by
    intro args
    induction args with
    | nil => exact fun names _ hnames => hnames
    | cons a args ih =>
        intro names ha hnames
        refine ih _ (fun b hb => ha b (by simp [hb])) ?_
        dsimp only
        split
        · exact hnames
        · intro n hn
          rcases List.mem_append.mp hn with hn | hn
          · exact hnames n hn
          · rw [List.mem_singleton.mp hn]
            exact oneLine_toUpperCase (oneLine_trim (ha a (by simp)))
  have hlines : ∀ (ls : List ParsedLine) (names : List String), (∀ l ∈ ls, LineOk l) →
      (∀ n ∈ names, OneLine n) → ∀ n ∈ ls.foldl (fun names line =>
        if line.operation = some ".GLOBL" ∨ line.operation = some ".GLOBAL" then
          line.args.foldl (fun names arg =>
            let n := toUpperCase (trim arg)
            if trim arg = "" ∨ n ∈ names then names else names ++ [n]) names
        else names) names, OneLine n := by
    intro ls
    induction ls with
    | nil => exact fun names _ hnames => hnames
    | cons l ls ih =>
        intro names hl hnames
        refine ih _ (fun b hb => hl b (by simp [hb])) ?_
        dsimp only
        split
        · exact hargs _ _ (hl l (by simp)).args hnames
        · exact hnames
  refine hlines parsed [] h ?_
  intro n hn
  cases hn

/-- The names of the symbols and of their areas. -/
def InfosOk (infos : SymbolInfoTable) : Prop :=
  ∀ entry ∈ infos.entries, OneLine entry.1 ∧ ∀ area ∈ entry.2.area, OneLine area

theorem infosOk_build {symbols : SymbolTable} {globlNames : List String}
    {symbolAreas : JsMap String} (hsymbols : ∀ entry ∈ symbols.entries, OneLine entry.1)
    (hglobl : ∀ n ∈ globlNames, OneLine n)
    (hareas : ∀ entry ∈ symbolAreas.entries, OneLine entry.2) :
    InfosOk (buildSymbolInfos symbols globlNames symbolAreas) := by
  refine List.foldlRecOn (motive := InfosOk) globlNames _ ?_ ?_
  · refine List.foldlRecOn (motive := InfosOk) symbols.entries _ (fun e he => by cases he) ?_
    intro infos hinfos e he entry hentry
    rcases JsMap.mem_set hentry with rfl | hentry
    · refine ⟨hsymbols e he, ?_⟩
      intro area harea
      exact hareas _ (JsMap.mem_of_get harea)
    · exact hinfos entry hentry
  · intro infos hinfos n hn
    split
    · exact hinfos
    · intro entry hentry
      rcases JsMap.mem_set hentry with rfl | hentry
      · refine ⟨hglobl n hn, ?_⟩
        intro area harea
        cases harea
      · exact hinfos entry hentry

end Symbols

section Checkpoints

theorem oneLine_checkpointName {text name : String} {lineNo : Nat}
    (h : checkpointNameInLine text lineNo = .ok (some name)) : OneLine name := by
  unfold checkpointNameInLine at h
  split at h
  · cases h
  · dsimp only at h
    split at h
    · rename_i htest
      cases h
      obtain ⟨c, rest, hcs, hc, hrest⟩ := matchAll_one_star htest
      unfold OneLine
      rw [hcs, List.mem_cons]
      rintro (hn | hn)
      · rw [← hn] at hc
        exact absurd hc (by decide)
      · exact absurd (hrest _ hn) (by decide)
    · cases h

theorem bindLine_ok {b b' : Binding} {line : ParsedLine} (h : bindLine b line = .ok b')
    (hb : (∀ n ∈ b.pending, OneLine n) ∧ ∀ e ∈ b.bound, OneLine e.1) :
    (∀ n ∈ b'.pending, OneLine n) ∧ ∀ e ∈ b'.bound, OneLine e.1 := by
  obtain ⟨hpending, hbound⟩ := hb
  have hmap : ∀ e ∈ b.bound ++ b.pending.map fun name => (name, line.lineNo), OneLine e.1 := by
    intro e he
    rcases List.mem_append.mp he with he | he
    · exact hbound e he
    · obtain ⟨n, hn, rfl⟩ := List.mem_map.mp he
      exact hpending n hn
  obtain ⟨found, hfound, h⟩ := bind_eq_ok.mp h
  cases found with
  | none =>
      dsimp only at h
      split at h
      · obtain rfl := pure_eq_ok.mp h
        exact ⟨by simp, hmap⟩
      · obtain rfl := pure_eq_ok.mp h
        exact ⟨hpending, hbound⟩
  | some name =>
      have hname := oneLine_checkpointName hfound
      dsimp only at h
      split at h
      · obtain rfl := pure_eq_ok.mp h
        refine ⟨by simp, ?_⟩
        intro e he
        rcases List.mem_append.mp he with he | he
        · exact hmap e he
        · rw [List.mem_singleton.mp he]
          exact hname
      · obtain rfl := pure_eq_ok.mp h
        refine ⟨?_, hbound⟩
        intro n hn
        rcases List.mem_append.mp hn with hn | hn
        · exact hpending n hn
        · rw [List.mem_singleton.mp hn]
          exact hname

theorem oneLine_padSerial (n : Nat) : OneLine (padSerial n) := by
  unfold OneLine padSerial
  rw [String.toList_ofList, List.mem_append]
  rintro (h | h)
  · exact absurd (List.mem_replicate.mp h).2 (by decide)
  · exact oneLine_repr n h

/-- A checkpoint with single-line names. -/
def CheckpointOk (cp : AsmCheckpoint) : Prop :=
  OneLine cp.name ∧ OneLine cp.serial ∧ OneLine cp.area

theorem placeCheckpoints_ok {words : List EmittedWord} {storageAddrs : List (Nat × Int)}
    {lineAreas : List (Nat × String)} (hwords : ∀ w ∈ words, OneLine w.area)
    (hareas : ∀ e ∈ lineAreas, OneLine e.2) (bound : List (String × Nat)) :
    ∀ (byName : JsMap Nat) (cps : List AsmCheckpoint), (∀ e ∈ bound, OneLine e.1) →
      placeCheckpoints words storageAddrs lineAreas byName bound = .ok cps →
      ∀ cp ∈ cps, CheckpointOk cp := by
  induction bound with
  | nil =>
      intro byName cps _ h cp hcp
      cases h
      cases hcp
  | cons e bound ih =>
      intro byName cps hbound h cp hcp
      obtain ⟨⟨cp₀, byName'⟩, hplace, h⟩ := bind_eq_ok.mp h
      obtain ⟨cps', hcps, h⟩ := bind_eq_ok.mp h
      obtain rfl := pure_eq_ok.mp h
      rcases List.mem_cons.mp hcp with rfl | hcp
      · have hname := hbound e (by simp)
        unfold placeCheckpoint at hplace
        dsimp only at hplace
        split at hplace
        · rename_i word hword
          cases hplace
          refine ⟨hname, oneLine_padSerial _, oneLine_canonicalAreaName ?_⟩
          exact hwords word (List.mem_of_find?_eq_some hword)
        · split at hplace
          · cases hplace
            refine ⟨hname, oneLine_padSerial _, oneLine_canonicalAreaName ?_⟩
            cases hlook : lineAreas.lookup e.2 with
            | none =>
                unfold OneLine
                decide
            | some area =>
                obtain ⟨l₁, l₂, heq, _⟩ := List.lookup_eq_some_iff.mp hlook
                exact hareas (e.2, area) (by simp [heq])
          · cases hplace
      · exact ih byName' cps' (fun e he => hbound e (by simp [he])) hcps cp hcp

theorem checkpoints_ok {lines : List ParsedLine} {words : List EmittedWord}
    {storageAddrs : List (Nat × Int)} {lineAreas : List (Nat × String)} {cps : List AsmCheckpoint}
    (hwords : ∀ w ∈ words, OneLine w.area) (hareas : ∀ e ∈ lineAreas, OneLine e.2)
    (h : collectCheckpoints lines words storageAddrs lineAreas = .ok cps) :
    ∀ cp ∈ cps, CheckpointOk cp := by
  obtain ⟨b, hb, h⟩ := bind_eq_ok.mp h
  have hbound := foldlM_invariant (fun s s' line _ hs => bindLine_ok hs) (by simp) hb
  split at h
  · cases h
  · exact placeCheckpoints_ok hwords hareas b.bound .empty cps hbound.2 h

end Checkpoints

section Records

variable {target : Target} {mentions : String → String → Except String Bool}
  {localeCompare : String → String → Int} {parsed lines : List ParsedLine}
  {result : AssemblyResult} {first : Pass1} {second : Pass2} {moduleName : String}
  {records : List (List Char)}

/-- The names in a result of the assembler. -/
structure NamesOk (result : AssemblyResult) : Prop where
  infos : InfosOk result.symbolInfos
  areas : ∀ a ∈ result.areas, OneLine a.name
  words : ∀ w ∈ result.words, OneLine w.area
  checkpoints : ∀ cp ∈ result.checkpoints, CheckpointOk cp

theorem namesOk_assembled (hparsed : ∀ l ∈ parsed, LineOk l)
    (ha : Assembled target mentions parsed lines result first second) : NamesOk result := by
  have hlines := lineOk_passLines hparsed ha.hlines
  have hfirst := pass1_ok hlines ha.hfirst
  have hsecond := pass2_ok hlines ha.hsecond
  refine ⟨?_, ?_, ?_, ?_⟩
  · rw [ha.symbolInfos]
    exact infosOk_build hfirst.symbols (oneLine_globlNames hparsed) hfirst.symbolAreas
  · intro a hmem
    rw [ha.areas] at hmem
    obtain ⟨⟨area, harea, hname⟩, _⟩ :=
      mem_snapshotAreas (inRange_pass2 ha.hsecond).counters hmem
    rw [hname]
    exact oneLine_canonicalAreaName (hsecond.areas.entries area harea)
  · rw [ha.words]
    exact hsecond.words
  · exact checkpoints_ok hsecond.words hfirst.lineAreas ha.checkpoints

theorem oneLine_fields {fields : List (List Char)} (h : ∀ f ∈ fields, '\n' ∉ f) :
    '\n' ∉ joinFields fields := by
  intro hmem
  rcases mem_joinFields hmem with hspace | ⟨f, hf, hmem⟩
  · exact absurd hspace (by decide)
  · exact h f hf hmem

theorem lineFeed_hexPad (width n : Nat) : '\n' ∉ hexPad width n := by
  intro hmem
  exact absurd (hexChar_hexPad _ hmem) (by decide)

theorem lineFeed_hex2 (v : Int) : '\n' ∉ hex2 v := lineFeed_hexPad _ _

theorem lineFeed_hex4 (v : Int) : '\n' ∉ hex4 v := lineFeed_hexPad _ _

theorem lineFeed_beWord {v : Int} {f : List Char} (h : f ∈ beWord v) : '\n' ∉ f := by
  simp only [beWord, List.mem_cons, List.not_mem_nil, or_false] at h
  rcases h with rfl | rfl
  · exact lineFeed_hex2 _
  · exact lineFeed_hex2 _

theorem lineFeed_tRecord (chunk : List EmittedWord) : '\n' ∉ tRecord result chunk := by
  refine oneLine_fields ?_
  intro f hf
  rw [List.cons_append, List.mem_cons, List.mem_append] at hf
  rcases hf with rfl | hf | hf
  · decide
  · exact lineFeed_beWord hf
  · obtain ⟨v, _, rfl⟩ := List.mem_map.mp hf
    exact lineFeed_hex2 v

theorem lineFeed_rRecord (areaIdx : Int) (items : List RelocItem) :
    '\n' ∉ rRecord areaIdx items := by
  refine oneLine_fields ?_
  intro f hf
  simp only [List.cons_append, List.mem_cons, List.mem_append] at hf
  rcases hf with rfl | (hf | hf) | hf
  · decide
  · exact lineFeed_beWord hf
  · exact lineFeed_beWord hf
  · obtain ⟨item, _, hf⟩ := List.mem_flatMap.mp hf
    simp only [itemFields, List.mem_cons] at hf
    rcases hf with rfl | rfl | hf
    · exact lineFeed_hex2 _
    · exact lineFeed_hex2 _
    · exact lineFeed_beWord hf

theorem lineFeed_aRecord {area : String} (harea : OneLine area) (size flags : Int) :
    '\n' ∉ aRecord area size flags := by
  refine oneLine_fields ?_
  intro f hf
  simp only [List.mem_cons, List.not_mem_nil, or_false] at hf
  rcases hf with rfl | rfl | rfl | rfl | rfl | rfl | rfl | rfl
  · decide
  · exact harea
  · decide
  · exact lineFeed_hex4 _
  · decide
  · exact lineFeed_hex4 _
  · decide
  · decide

theorem lineFeed_sRecord {name : String} {state : List Char} (hname : OneLine name)
    (hstate : '\n' ∉ state) : '\n' ∉ sRecord name state := by
  refine oneLine_fields ?_
  intro f hf
  simp only [List.mem_cons, List.not_mem_nil, or_false] at hf
  rcases hf with rfl | rfl | rfl
  · decide
  · exact hname
  · exact hstate

theorem lineFeed_def (v : Int) : '\n' ∉ "Def".toList ++ hex4 v := by
  rw [List.mem_append]
  rintro (h | h)
  · exact absurd h (by decide)
  · exact lineFeed_hex4 v h

theorem oneLine_sdldSymName {name : String} (h : OneLine name) : OneLine (sdldSymName name) := by
  unfold sdldSymName
  split
  · rename_i rest hcs
    unfold OneLine at h ⊢
    rw [hcs] at h
    rw [String.toList_ofList]
    simp only [List.mem_cons, not_or] at h ⊢
    exact ⟨by decide, h.2.1, h.2.2.1, h.2.2.2⟩
  · rename_i rest hcs
    unfold OneLine at h ⊢
    rw [hcs] at h
    rw [String.toList_ofList]
    simp only [List.mem_cons, not_or] at h ⊢
    exact ⟨by decide, h.2.1, h.2.2.1, h.2.2.2⟩
  · exact h

theorem oneLine_checkpointId {name serial : String} (hname : OneLine name)
    (hserial : OneLine serial) : OneLine (checkpointId name serial) := by
  have hlit : OneLine "__CP$" ∧ OneLine "$" := by
    unfold OneLine
    decide
  unfold checkpointId
  exact oneLine_append (oneLine_append (oneLine_append hlit.1 hname) hlit.2) hserial

/-- The symbols of the S records have single-line names. -/
theorem globalEntries_ok (h : NamesOk result) :
    ∀ g ∈ globalEntries localeCompare result, OneLine g.name ∧ ∀ a ∈ g.area, OneLine a := by
  intro g hg
  unfold globalEntries at hg
  rw [List.mem_mergeSort, List.mem_filterMap] at hg
  obtain ⟨⟨name, info⟩, hentry, hg⟩ := hg
  obtain ⟨hname, harea⟩ := h.infos _ hentry
  have hcode : OneLine "_CODE" := by
    unfold OneLine
    decide
  dsimp only at hg
  split at hg
  · cases hg
    refine ⟨hname, ?_⟩
    intro a ha
    cases ha
    split
    · exact hcode
    · rename_i area harea'
      split
      · exact hcode
      · exact oneLine_canonicalAreaName (harea area harea')
  · cases hg
    refine ⟨hname, ?_⟩
    intro a ha
    cases ha
  · cases hg

theorem relAreaNames_ok (h : NamesOk result) :
    ∀ a ∈ relAreaNames result (globalEntries localeCompare result), OneLine a := by
  intro a ha
  unfold relAreaNames at ha
  dsimp only at ha
  split at ha
  · rw [List.mem_singleton.mp ha]
    unfold OneLine
    decide
  · obtain ⟨n, hn, rfl⟩ := List.mem_map.mp (mem_orderLinkAreaNames.mp ha)
    refine oneLine_canonicalAreaName ?_
    simp only [List.mem_append, List.mem_map, List.mem_filterMap, List.mem_filter] at hn
    rcases hn with ((⟨i, hi, rfl⟩ | ⟨w, hw, rfl⟩) | ⟨g, ⟨hg, _⟩, hn⟩) | ⟨cp, hcp, rfl⟩
    · exact h.areas i hi
    · exact h.words w hw
    · exact (globalEntries_ok h g hg).2 n hn
    · exact (h.checkpoints cp hcp).2.2

theorem areaRecords_oneLine (h : NamesOk result) {infos : JsMap AreaInfo}
    {areaIndex symIndex : JsMap Nat} {area : String} (harea : OneLine area)
    {rs : List (List Char)}
    (hrs : areaRecords result (globalEntries localeCompare result) infos areaIndex symIndex area =
      .ok rs) : ∀ l ∈ rs, '\n' ∉ l := by
  obtain ⟨data, hdata, hrs⟩ := bind_eq_ok.mp hrs
  obtain rfl := pure_eq_ok.mp hrs
  have hdata' : ∀ d ∈ data, ∀ l ∈ d, '\n' ∉ l := by
    refine mapM_forall (P := fun _ => True) ?_ (fun _ _ => trivial) hdata
    intro chunk d _ hd
    obtain ⟨items, _, hd⟩ := bind_eq_ok.mp hd
    obtain rfl := pure_eq_ok.mp hd
    intro l hl
    simp only [List.mem_cons, List.not_mem_nil, or_false] at hl
    rcases hl with rfl | rfl
    · exact lineFeed_tRecord chunk
    · exact lineFeed_rRecord _ items
  intro l hl
  simp only [List.cons_append, List.mem_cons, List.mem_append, areaSymbols, List.mem_map,
    List.mem_flatten] at hl
  rcases hl with rfl | (⟨g, hg, rfl⟩ | ⟨cp, hcp, rfl⟩) | ⟨d, hd, hl⟩
  · exact lineFeed_aRecord harea _ _
  · have hg := (globalEntries_ok h g (List.mem_filter.mp hg).1).1
    exact lineFeed_sRecord (oneLine_sdldSymName hg) (lineFeed_def _)
  · have hcp := h.checkpoints cp (List.mem_filter.mp hcp).1
    exact lineFeed_sRecord (oneLine_checkpointId hcp.1 hcp.2.1) (lineFeed_def _)
  · exact hdata' d hd l hl

/-- The records of an object file are single lines. -/
theorem relRecords_oneLine (h : NamesOk result) (hmodule : OneLine moduleName)
    (hrecords : relRecords localeCompare result moduleName = .ok records) :
    ∀ l ∈ records, '\n' ∉ l := by
  obtain ⟨recs, hrecs, hrecords⟩ := bind_eq_ok.mp hrecords
  obtain rfl := pure_eq_ok.mp hrecords
  have hrecs' : ∀ rs ∈ recs, ∀ l ∈ rs, '\n' ∉ l :=
    mapM_forall (fun area rs harea hrs => areaRecords_oneLine h harea hrs) (relAreaNames_ok h) hrecs
  intro l hl
  simp only [List.mem_append, List.mem_cons, List.not_mem_nil, or_false, List.mem_map,
    List.mem_flatten] at hl
  rcases hl with (((rfl | rfl | rfl | rfl) | ⟨g, hg, rfl⟩) | ⟨rs, hrs, hl⟩) | rfl
  · decide
  · refine oneLine_fields ?_
    intro f hf
    simp only [List.mem_cons, List.not_mem_nil, or_false] at hf
    rcases hf with rfl | rfl | rfl | rfl | rfl
    · decide
    · exact fun hmem => absurd (hexChar_hexUpper _ _ hmem) (by decide)
    · decide
    · exact fun hmem => absurd (hexChar_hexUpper _ _ hmem) (by decide)
    · decide
  · refine oneLine_fields ?_
    intro f hf
    simp only [List.mem_cons, List.not_mem_nil, or_false] at hf
    rcases hf with rfl | rfl
    · decide
    · exact hmodule
  · refine lineFeed_sRecord ?_ (by decide)
    unfold OneLine absName
    decide
  · have hg := (globalEntries_ok h g (List.mem_filter.mp hg).1).1
    exact lineFeed_sRecord (oneLine_sdldSymName hg) (by decide)
  · exact hrecs' rs hrs l hl
  · decide

end Records

end AsmTs
end RetroCpu
