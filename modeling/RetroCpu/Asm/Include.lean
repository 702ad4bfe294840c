import RetroCpu.AsmRs.Include
import RetroCpu.Lib.JsPattern

/-!
# Include files in both assemblers

Both recognize an include line alike where a space stands behind the word and the line has none of
the characters that only one of the languages takes for white space or for the end of a line.  Both
find the same file where the path leads through directories that exist.  Where all lines are such,
the two expansions are the same.
-/

namespace RetroCpu
namespace Asm
namespace Include

open Js FileTree Inlining Relation Trimming
open AsmTs.Include (Text parts linesOf includeOperandOf includeFileOf sampleTree)
open AsmRs (isWhitespace)
open AsmRs.Include (matchIncludeOperand resolveIncludePath)

section Words

/-- Upper and lower case are about the first 128 characters. -/
theorem of_ascii {P : Char → Prop} (hascii : ∀ n : Fin 128, P (Char.ofNat n))
    (hother : ∀ c : Char, c.toLower = c → c.toUpper = c → P c) (c : Char) : P c := by
  by_cases h : c.toNat < 128
  · have hc := hascii ⟨c.toNat, h⟩
    rwa [Char.ofNat_toNat] at hc
  · refine hother c ?_ ?_
    · unfold Char.toLower
      rw [dif_neg]
      rintro ⟨-, h2⟩
      exact h (Nat.lt_of_le_of_lt (UInt32.le_iff_toNat_le.mp h2) (by decide))
    · unfold Char.toUpper
      rw [dif_neg]
      rintro ⟨-, h2⟩
      exact h (Nat.lt_of_le_of_lt (UInt32.le_iff_toNat_le.mp h2) (by decide))

theorem toUpper_toLower (c : Char) : c.toLower.toUpper = c.toUpper := by
  refine of_ascii (P := fun c => c.toLower.toUpper = c.toUpper) (by decide +kernel) ?_ c
  intro c hlower _
  rw [hlower]

theorem toLower_toUpper (c : Char) : c.toUpper.toLower = c.toLower := by
  refine of_ascii (P := fun c => c.toUpper.toLower = c.toLower) (by decide +kernel) ?_ c
  intro c _ hupper
  rw [hupper]

theorem toUpper_blank {c : Char} : c.toUpper = ' ' → c = ' ' := by
  refine of_ascii (P := fun c => c.toUpper = ' ' → c = ' ') (by decide +kernel) ?_ c
  intro c _ hupper h
  rwa [hupper] at h

/-- A word in capital letters is compared in either case. -/
theorem sameWord_iff {w : String} {cs : Text} (hw : w.toList.map Char.toUpper = w.toList) :
    Item.sameWord w cs = true ↔ cs.map Char.toUpper = w.toList := by
  have hmap (l : Text) : (l.map Char.toLower).map Char.toUpper = l.map Char.toUpper := by
    rw [List.map_map]
    exact List.map_congr_left fun c _ => toUpper_toLower c
  have hmap' (l : Text) : (l.map Char.toUpper).map Char.toLower = l.map Char.toLower := by
    rw [List.map_map]
    exact List.map_congr_left fun c _ => toLower_toUpper c
  rw [Item.sameWord, beq_iff_eq]
  constructor
  · intro h
    rw [← hmap cs, ← h, hmap, hw]
  · intro h
    rw [← hmap' cs, h]

end Words

section Blanks

/-- Only one of the languages takes these for white space or for the end of a line. -/
def oddChars : List Nat := [0x0a, 0x0d, 0x85, 0x2028, 0x2029, 0xfeff]

/-- None of the odd characters -/
def Ordinary (cs : Text) : Prop := ∀ c ∈ cs, c.toNat ∉ oddChars

variable {cs : Text}

theorem isSpace_eq {c : Char} (h : c.toNat ∉ oddChars) : isSpace c = isWhitespace c := by
  simp only [oddChars, List.mem_cons, not_or] at h
  have hnel : (c.toNat == 0x85) = false := beq_false_of_ne h.2.2.1
  have hbom : (c.toNat == 0xfeff) = false := beq_false_of_ne h.2.2.2.2.2.1
  simp only [isSpace, isWhitespace, hnel, hbom, Bool.or_false]

theorem anyChar_of_ordinary {c : Char} (h : c.toNat ∉ oddChars) : anyChar c = true := by
  have hne (d : Char) (hd : d.toNat ∈ oddChars) : c ≠ d := fun heq => h (heq ▸ hd)
  simp only [oddChars, List.mem_cons, not_or] at h
  simp [anyChar, hne '\n' (by decide), hne '\r' (by decide), h.2.2.2.1, h.2.2.2.2.1]

theorem trimChars_eq (h : Ordinary cs) : trimChars cs = trimBy isWhitespace cs :=
  trimBy_congr fun c hc => isSpace_eq (h c hc)

theorem stripLoop_eq (quote : Option Char) (cs : Text) :
    AsmTs.LineParser.stripLoop quote cs = AsmRs.Include.stripLoop quote cs := by
  induction cs generalizing quote with
  | nil => cases quote <;> rfl
  | cons c cs ih =>
      cases quote with
      | some q => rw [AsmTs.LineParser.stripLoop, AsmRs.Include.stripLoop, ih]
      | none => rw [AsmTs.LineParser.stripLoop, AsmRs.Include.stripLoop, ih, ih]

theorem stripLoop_subset (quote : Option Char) (cs : Text) :
    AsmTs.LineParser.stripLoop quote cs ⊆ cs := by
  induction cs generalizing quote with
  | nil => cases quote <;> exact List.Subset.refl _
  | cons c cs ih =>
      cases quote with
      | some q => exact List.cons_subset_cons c (ih _)
      | none =>
          rw [AsmTs.LineParser.stripLoop]
          split
          · exact List.cons_subset_cons c (ih _)
          · split
            · exact List.nil_subset _
            · split
              · exact List.nil_subset _
              · exact List.cons_subset_cons c (ih _)

end Blanks

section Recognition

variable {p : Char → Bool} {items : List Item} {rest cs : Text}

/-- Blanks and something behind them -/
theorem matchAll_blanks (hany : ∀ c ∈ rest, anyChar c = true) (hne : rest.takeWhile isSpace ≠ [])
    (hrest : rest.dropWhile isSpace ≠ []) :
    matchAll [.plus isSpace, .plus anyChar] rest =
      some [rest.takeWhile isSpace, rest.dropWhile isSpace] := by
  have hbehind : matchAll [.plus anyChar] (rest.dropWhile isSpace) =
      some [rest.dropWhile isSpace] := by
    have hrun : matchAll [.plus anyChar] (rest.dropWhile isSpace ++ []) =
        some [rest.dropWhile isSpace] :=
      matchAll_run (fun c hc => hany c ((List.dropWhile_sublist _).subset hc))
        (fun _ h => by cases h) (List.length_pos_iff.mpr hrest) rfl
    rwa [List.append_nil] at hrun
  have hrun := matchAll_run (fun c hc => List.all_eq_true.mp List.all_takeWhile c hc)
    (fun _ => head_dropWhile) (List.length_pos_iff.mpr hne) hbehind
  rwa [List.takeWhile_append_dropWhile] at hrun

theorem matchAll_noBlank (h : rest.takeWhile p = []) : matchAll (.plus p :: items) rest = none := by
  rw [matchAll, Item.plus, Item.splits, h]
  rfl

/-- The operand behind the word -/
def blankOperand (rest : Text) : Option Text :=
  (matchAll [.plus isSpace, .plus anyChar] rest).map fun segments => segments.getD 1 []

/-- One word only is there. -/
theorem sameWord_apart (h8 : Item.sameWord ".INCLUDE" (cs.take 8) = true) :
    Item.sameWord "INCLUDE" (cs.take 7) = false := by
  rw [← Bool.not_eq_true]
  intro h7
  have hdot := (sameWord_iff (by decide)).mp h8
  have hletter := (sameWord_iff (by decide)).mp h7
  cases cs with
  | nil => cases hdot
  | cons c cs =>
      have h1 : c.toUpper = '.' := (List.cons.inj hdot).1
      have h2 : c.toUpper = 'I' := (List.cons.inj hletter).1
      rw [h1] at h2
      cases h2

theorem includeOperandOf_eq (raw : Text) :
    includeOperandOf raw =
      if Item.sameWord ".INCLUDE" ((trimChars (AsmTs.LineParser.stripLineComment raw)).take 8) then
        blankOperand ((trimChars (AsmTs.LineParser.stripLineComment raw)).drop 8)
      else if Item.sameWord "INCLUDE" ((trimChars (AsmTs.LineParser.stripLineComment raw)).take 7)
      then blankOperand ((trimChars (AsmTs.LineParser.stripLineComment raw)).drop 7)
      else none := by
  rw [includeOperandOf]
  generalize trimChars (AsmTs.LineParser.stripLineComment raw) = body
  have hl8 : ".INCLUDE".length = 8 := rfl
  have hl7 : "INCLUDE".length = 7 := rfl
  rw [matchAll, Item.splits, List.findSome?_map]
  by_cases h8 : Item.sameWord ".INCLUDE" (body.take 8) = true
  · rw [if_pos h8, List.filter_cons_of_pos (by rwa [hl8]),
      List.filter_cons_of_neg (by rw [hl7, sameWord_apart h8]; exact Bool.false_ne_true),
      List.filter_nil, List.findSome?_singleton, Function.comp_apply, Option.map_map]
    rfl
  · rw [if_neg h8, List.filter_cons_of_neg (by rwa [hl8])]
    by_cases h7 : Item.sameWord "INCLUDE" (body.take 7) = true
    · rw [if_pos h7, List.filter_cons_of_pos (by rwa [hl7]), List.filter_nil,
        List.findSome?_singleton, Function.comp_apply, Option.map_map]
      rfl
    · rw [if_neg h7, List.filter_cons_of_neg (by rwa [hl7]), List.filter_nil]
      rfl

end Recognition

section Operands

variable {cs rest : Text} {w : String}

/-- The word with a space behind it -/
theorem prefix_iff (hw : w.toList.map Char.toUpper = w.toList) :
    w.toList ++ [' '] <+: cs.map Char.toUpper ↔
      Item.sameWord w (cs.take w.length) = true ∧ (cs.drop w.length).head? = some ' ' := by
  rw [sameWord_iff hw]
  constructor
  · rintro ⟨t, ht⟩
    rw [List.append_assoc] at ht
    obtain ⟨front, behind, rfl, hfront, hbehind⟩ := List.map_eq_append_iff.mp ht.symm
    have hlen : front.length = w.length := by
      rw [← List.length_map (f := Char.toUpper), hfront, String.length_toList]
    obtain ⟨c, behind, rfl, hc, -⟩ := List.map_eq_cons_iff.mp hbehind
    rw [← hlen, List.take_left, List.drop_left, toUpper_blank hc]
    exact ⟨hfront, rfl⟩
  · rintro ⟨hsame, hhead⟩
    obtain ⟨behind, hbehind⟩ := List.head?_eq_some_iff.mp hhead
    refine ⟨behind.map Char.toUpper, ?_⟩
    conv => rhs; rw [← List.take_append_drop w.length cs]
    rw [List.map_append, hsame, hbehind, List.append_assoc]
    rfl

/-- No blank is left at the end of what has been trimmed. -/
theorem trimmed_end {n : Nat} (hne : (trimChars cs).drop n ≠ []) :
    ((trimChars cs).drop n).dropWhile isSpace ≠ [] := by
  intro hnil
  obtain ⟨c, behind, hback⟩ := List.exists_cons_of_ne_nil (List.reverse_ne_nil_iff.mpr hne)
  have hmem : c ∈ (trimChars cs).drop n := by
    rw [← List.mem_reverse, hback]
    exact List.mem_cons_self
  have hhead : ((cs.dropWhile isSpace).reverse.dropWhile isSpace).head? = some c := by
    rw [← List.reverse_reverse ((cs.dropWhile isSpace).reverse.dropWhile isSpace)]
    change (trimChars cs).reverse.head? = some c
    rw [← List.take_append_drop n (trimChars cs), List.reverse_append, hback]
    rfl
  have hblank := all_of_dropWhile hnil c hmem
  rw [head_dropWhile hhead] at hblank
  cases hblank

/-- What the TypeScript assembler finds behind a space is the rest of the line. -/
theorem blankOperand_space (hany : ∀ c ∈ rest, anyChar c = true) (hhead : rest.head? = some ' ')
    (hend : rest.dropWhile isSpace ≠ []) :
    ∃ operandText, blankOperand rest = some operandText ∧
      trimChars operandText = trimBy isSpace (rest.drop 1) := by
  obtain ⟨behind, rfl⟩ := List.head?_eq_some_iff.mp hhead
  have hne : (' ' :: behind).takeWhile isSpace ≠ [] := by
    rw [List.takeWhile_cons_of_pos rfl]
    exact List.cons_ne_nil _ _
  refine ⟨(' ' :: behind).dropWhile isSpace, ?_, ?_⟩
  · rw [blankOperand, matchAll_blanks hany hne hend]
    rfl
  · change trimBy isSpace _ = trimBy isSpace _
    have hsplit := List.takeWhile_append_dropWhile (p := isSpace) (l := ' ' :: behind)
    rw [← trimBy_append_left (fun c hc => List.all_eq_true.mp List.all_takeWhile c hc), hsplit]
    exact trimBy_append_left (w := [' ']) (by simp [isSpace]) behind

theorem blankOperand_none (h : ∀ c ∈ rest.head?, isSpace c = false) : blankOperand rest = none := by
  have hnil : rest.takeWhile isSpace = [] := by
    cases rest with
    | nil => rfl
    | cons c rest => rw [List.takeWhile_cons_of_neg (by simp [h c rfl])]
  rw [blankOperand, matchAll_noBlank hnil]
  rfl

/-- Behind the word of an include line no other blank than a space stands. -/
def Spaced (body : Text) : Prop :=
  ∀ w ∈ [".INCLUDE", "INCLUDE"], Item.sameWord w (body.take w.length) = true →
    ∀ c ∈ (body.drop w.length).head?, isSpace c = true → c = ' '

/-- Both find the operand behind the word alike, up to the blanks around it. -/
theorem blankOperand_eq (hordinary : Ordinary (trimChars cs)) (hspaced : Spaced (trimChars cs))
    (hmem : w ∈ [".INCLUDE", "INCLUDE"])
    (hw : Item.sameWord w ((trimChars cs).take w.length) = true) :
    (blankOperand ((trimChars cs).drop w.length)).map trimChars =
      if ((trimChars cs).drop w.length).head? = some ' ' then
        some (trimBy isWhitespace ((trimChars cs).drop (w.length + 1))) else none := by
  split
  next hhead =>
    have hne : (trimChars cs).drop w.length ≠ [] := by
      intro hnil
      rw [hnil] at hhead
      cases hhead
    have hdrop (n : Nat) : Ordinary ((trimChars cs).drop n) := fun c hc =>
      hordinary c (List.mem_of_mem_drop hc)
    obtain ⟨operandText, hsome, htrim⟩ := blankOperand_space
      (fun c hc => anyChar_of_ordinary (hdrop _ c hc)) hhead (trimmed_end hne)
    rw [hsome, Option.map_some, htrim, List.drop_drop]
    exact congrArg some (trimChars_eq (hdrop _))
  next hhead =>
    rw [blankOperand_none]
    · rfl
    · intro c hc
      rw [← Bool.not_eq_true]
      intro hblank
      rw [hspaced w hmem hw c hc hblank] at hc
      exact hhead hc

/-- The line without comment is the same. -/
theorem body_eq {raw : Text} (hraw : Ordinary raw) :
    trimBy isWhitespace (AsmRs.Include.stripLineComment raw) =
      trimChars (AsmTs.LineParser.stripLineComment raw) := by
  rw [AsmTs.LineParser.stripLineComment,
    trimChars_eq fun c hc => hraw c (stripLoop_subset none raw hc), stripLoop_eq,
    AsmRs.Include.stripLineComment]

theorem body_subset (raw : Text) : trimChars (AsmTs.LineParser.stripLineComment raw) ⊆ raw :=
  fun _ hc => stripLoop_subset none raw (trimBy_subset _ hc)

/-- Both recognize an include line alike, up to the blanks around its operand. -/
theorem matchIncludeOperand_eq {raw : Text} (hraw : Ordinary raw)
    (hspaced : Spaced (trimChars (AsmTs.LineParser.stripLineComment raw))) :
    matchIncludeOperand (trimBy isWhitespace (AsmRs.Include.stripLineComment raw)) =
      (includeOperandOf raw).map trimChars := by
  have hoperand (w : String) (hmem : w ∈ [".INCLUDE", "INCLUDE"]) :=
    blankOperand_eq (fun c hc => hraw c (body_subset raw hc)) hspaced hmem
  rw [body_eq hraw, includeOperandOf_eq, matchIncludeOperand]
  generalize trimChars (AsmTs.LineParser.stripLineComment raw) = body at *
  have hdotted : ".INCLUDE ".toList <+: body.map Char.toUpper ↔
      Item.sameWord ".INCLUDE" (body.take 8) = true ∧ (body.drop 8).head? = some ' ' :=
    prefix_iff (w := ".INCLUDE") (by decide)
  have hplain : "INCLUDE ".toList <+: body.map Char.toUpper ↔
      Item.sameWord "INCLUDE" (body.take 7) = true ∧ (body.drop 7).head? = some ' ' :=
    prefix_iff (w := "INCLUDE") (by decide)
  by_cases h8 : Item.sameWord ".INCLUDE" (body.take 8) = true
  · have happly := hoperand ".INCLUDE" List.mem_cons_self h8
    have hapart : ¬ "INCLUDE ".toList <+: body.map Char.toUpper := by
      refine fun h => Bool.false_ne_true ?_
      rw [← sameWord_apart h8]
      exact (hplain.mp h).1
    rw [if_pos h8, if_neg hapart]
    refine Eq.trans ?_ happly.symm
    exact ite_congr (propext ⟨fun h => (hdotted.mp h).2, fun h => hdotted.mpr ⟨h8, h⟩⟩)
      (fun _ => rfl) fun _ => rfl
  · rw [if_neg h8, if_neg fun h => h8 (hdotted.mp h).1]
    by_cases h7 : Item.sameWord "INCLUDE" (body.take 7) = true
    · have happly := hoperand "INCLUDE" (List.mem_cons_of_mem _ List.mem_cons_self) h7
      rw [if_pos h7]
      refine Eq.trans ?_ happly.symm
      exact ite_congr (propext ⟨fun h => (hplain.mp h).2, fun h => hplain.mpr ⟨h7, h⟩⟩)
        (fun _ => rfl) fun _ => rfl
    · rw [if_neg h7, if_neg fun h => h7 (hplain.mp h).1]
      rfl

theorem matchIncludeOperand_subset {body operandText : Text}
    (h : matchIncludeOperand body = some operandText) : operandText ⊆ body := by
  have hoperand (n : Nat) : trimBy isWhitespace (body.drop n) ⊆ body := fun c hc =>
    List.mem_of_mem_drop (trimBy_subset _ hc)
  rw [matchIncludeOperand] at h
  split at h
  · cases h
    exact hoperand 9
  · split at h
    · cases h
      exact hoperand 8
    · cases h

/-- The operand is read alike where it is no lone quotation mark. -/
theorem parseIncludeOperand_eq {operandText : Text} (hordinary : Ordinary (trimChars operandText))
    (hdouble : trimChars operandText ≠ ['"']) (hsingle : trimChars operandText ≠ ['\'']) :
    AsmRs.Include.parseIncludeOperand (trimChars operandText) =
      AsmTs.Include.parseIncludeOperand operandText := by
  have htrim : trimBy isWhitespace (trimChars operandText) = trimChars operandText := by
    rw [← trimChars_eq hordinary]
    exact trimBy_idem operandText
  have hinner : trimBy isWhitespace ((trimChars operandText).drop 1).dropLast =
      trimChars ((trimChars operandText).drop 1).dropLast :=
    (trimChars_eq fun c hc => hordinary c
      (List.mem_of_mem_drop ((List.dropLast_sublist _).subset hc))).symm
  rw [AsmRs.Include.parseIncludeOperand, AsmTs.Include.parseIncludeOperand, htrim, hinner]
  generalize trimChars operandText = trimmed at *
  have hlong : (trimmed.head? = some '"' ∧ trimmed.getLast? = some '"') ∨
      (trimmed.head? = some '\'' ∧ trimmed.getLast? = some '\'') → 2 ≤ trimmed.length := by
    intro hquoted
    cases trimmed with
    | nil =>
        rcases hquoted with ⟨h, -⟩ | ⟨h, -⟩
        · cases h
        · cases h
    | cons c cs =>
        cases cs with
        | nil =>
            rcases hquoted with ⟨h, -⟩ | ⟨h, -⟩
            · exact absurd (congrArg (· :: []) (Option.some.inj h)) hdouble
            · exact absurd (congrArg (· :: []) (Option.some.inj h)) hsingle
        | cons d cs => exact Nat.le_add_left 2 cs.length
  refine ite_congr rfl (fun _ => rfl) fun _ => ?_
  exact ite_congr (propext ⟨And.left, fun h => ⟨h, hlong h⟩⟩) (fun _ => rfl) fun _ => rfl

end Operands

section Files

variable {tree : FileTree Text} {absPath : Path} {raw : Text}

/-- A line that both languages read alike -/
structure Common (tree : FileTree Text) (absPath : Path) (raw : Text) : Prop where
  ordinary : Ordinary raw
  spaced : Spaced (trimChars (AsmTs.LineParser.stripLineComment raw))
  /-- The operand is no lone quotation mark. -/
  closed : ∀ operandText ∈ includeOperandOf raw,
    trimChars operandText ≠ ['"'] ∧ trimChars operandText ≠ ['\'']
  /-- The directories on the way to the file are there. -/
  leads : ∀ operandText ∈ includeOperandOf raw,
    ∀ includeOperand ∈ (AsmTs.Include.parseIncludeOperand operandText).toOption,
      tree.walk [] (resolveIncludePath absPath.dropLast includeOperand) = none →
        tree.walk [] (includeFileOf absPath includeOperand) = none

/-- An operand leads to the same place. -/
theorem place_eq (hnames : ∀ s ∈ absPath.dropLast, IsName s) {includeOperand : Text} {file : Path}
    (hwalk : tree.walk [] (resolveIncludePath absPath.dropLast includeOperand) = some file) :
    tree.walk [] (includeFileOf absPath includeOperand) = some file := by
  rw [resolveIncludePath] at hwalk
  rw [includeFileOf]
  split at hwalk
  next habsolute =>
    rw [if_pos habsolute]
    obtain ⟨path, rfl⟩ := List.head?_eq_some_iff.mp (of_decide_eq_true habsolute)
    have hroot : tree.isDir [] = true := decide_eq_true (.inl rfl)
    rw [parts, pieces, if_pos (beq_self_eq_true '/'), List.map_cons, walk, if_pos hroot,
      if_pos (.inl rfl)]
    exact hwalk
  next habsolute =>
    rw [if_neg habsolute]
    have hplace := resolve_of_walk hwalk
    rw [resolve_append, resolve_names hnames, List.nil_append] at hplace
    rw [hplace]
    exact walk_self hwalk

theorem pieceOf_eq (hnames : ∀ s ∈ absPath.dropLast, IsName s) (h : Common tree absPath raw) :
    AsmTs.Include.pieceOf tree absPath raw = AsmRs.Include.pieceOf tree absPath.dropLast raw := by
  have hoperand := matchIncludeOperand_eq h.ordinary h.spaced
  rw [AsmTs.Include.pieceOf, AsmRs.Include.pieceOf, hoperand]
  cases hop : includeOperandOf raw with
  | none => rfl
  | some operandText =>
      rw [hop] at hoperand
      obtain ⟨hdouble, hsingle⟩ := h.closed operandText hop
      rw [body_eq h.ordinary] at hoperand
      have hordinary : Ordinary (trimChars operandText) := fun c hc =>
        h.ordinary c (body_subset raw (matchIncludeOperand_subset hoperand hc))
      rw [Option.map_some]
      dsimp only
      rw [parseIncludeOperand_eq hordinary hdouble hsingle]
      cases hparse : AsmTs.Include.parseIncludeOperand operandText with
      | error e => rfl
      | ok includeOperand =>
          dsimp only
          cases hwalk : tree.walk [] (resolveIncludePath absPath.dropLast includeOperand) with
          | none =>
              have hnone := h.leads operandText hop includeOperand (by rw [hparse]; rfl) hwalk
              rw [hnone, if_pos rfl]
          | some file =>
              have hplace := place_eq hnames hwalk
              rw [hplace, if_neg (Option.some_ne_none _), resolve_of_walk hplace]

/-- A file means the same text. -/
theorem textOf_eq {p : Path}
    (hcommon : ∀ text, tree.read p = some text → ∀ raw ∈ linesOf text, Common tree p raw) :
    AsmTs.Include.textOf tree p = AsmRs.Include.textOf tree p := by
  rw [AsmTs.Include.textOf, AsmRs.Include.textOf]
  refine Option.map_congr fun text htext => List.map_congr_left fun raw hraw => ?_
  refine pieceOf_eq (fun s hs => ?_) (hcommon text htext raw hraw)
  exact (tree.names _ (mem_files_of_read htext)).2 s (List.mem_of_mem_dropLast hs)

/-- Both assemblers expand a file alike where they read every line alike of the files that are
reached. -/
theorem expansions_agree (tree : FileTree Text) (failureTs : Path → String)
    (failureRs : List String → String) {entryPath : List String} {absPath : Path}
    (hentry : tree.walk [] entryPath = some absPath)
    (hcommon : ∀ p text, ReflTransGen (Includes (AsmTs.Include.textOf tree)) absPath p →
      tree.read p = some text → ∀ raw ∈ linesOf text, Common tree p raw)
    {fuel : Nat} (hfuel : tree.files.length < fuel) :
    ∃ ts rs, AsmTs.Include.expandIncludesFromFile tree failureTs fuel entryPath [] = some ts ∧
      AsmRs.Include.expandIncludesFromFile tree failureRs fuel entryPath = some rs ∧
      ts.toOption = rs.toOption := by
  obtain ⟨r, hr, -⟩ := expand_spec (tree.files.map Prod.fst)
    (fun _ => AsmTs.Include.names_of_textOf) (by rwa [List.length_map]) absPath
  have hsame : expand (AsmTs.Include.textOf tree) fuel [] absPath =
      expand (AsmRs.Include.textOf tree) fuel [] absPath :=
    expand_congr fun p hp => textOf_eq fun text => hcommon p text hp
  obtain ⟨rs, hrs, hshowsRs⟩ := AsmRs.Include.expand_shows failureRs hentry (hsame.symm.trans hr)
  rw [← resolve_of_walk hentry] at hr
  obtain ⟨ts, hts, hshowsTs⟩ := AsmTs.Include.expand_shows failureTs hr
  exact ⟨ts, rs, hts, hrs, hshowsTs.toOption.trans hshowsRs.toOption.symm⟩

theorem expansions_agree_sample :
    ∃ ts rs, AsmTs.Include.expandIncludesFromFile sampleTree (fun _ => "") 3 ["main.asm"] [] =
        some ts ∧
      AsmRs.Include.expandIncludesFromFile sampleTree (fun _ => "") 3 ["main.asm"] = some rs ∧
      ts.toOption = rs.toOption := by
  refine expansions_agree sampleTree (fun _ => "") (fun _ => "") rfl ?_ (Nat.lt_succ_self 2)
  intro p text _ hread raw hraw
  have hmem := mem_files_of_read hread
  have hordinary : ∀ e ∈ sampleTree.files, ∀ raw ∈ linesOf e.2,
      raw.all (fun c => !oddChars.contains c.toNat) = true := by
    decide +kernel
  have hspaced : ∀ e ∈ sampleTree.files, ∀ raw ∈ linesOf e.2, ∀ w ∈ [".INCLUDE", "INCLUDE"],
      Item.sameWord w ((trimChars (AsmTs.LineParser.stripLineComment raw)).take w.length) = true →
      ((trimChars (AsmTs.LineParser.stripLineComment raw)).drop w.length).head?.all
        (fun c => !isSpace c || c == ' ') = true := by
    decide +kernel
  have hclosed : ∀ e ∈ sampleTree.files, ∀ raw ∈ linesOf e.2,
      ∀ operandText ∈ includeOperandOf raw,
        trimChars operandText ≠ ['"'] ∧ trimChars operandText ≠ ['\''] := by
    decide +kernel
  have hleads : ∀ e ∈ sampleTree.files, ∀ raw ∈ linesOf e.2, ∀ operandText ∈ includeOperandOf raw,
      ∀ includeOperand ∈ (AsmTs.Include.parseIncludeOperand operandText).toOption,
        sampleTree.walk [] (resolveIncludePath e.1.dropLast includeOperand) = none →
          sampleTree.walk [] (includeFileOf e.1 includeOperand) = none := by
    decide +kernel
  refine ⟨fun c hc => ?_, fun w hw hsame c hc hblank => ?_, hclosed _ hmem raw hraw,
    hleads _ hmem raw hraw⟩
  · have hplain := List.all_eq_true.mp (hordinary _ hmem raw hraw) c hc
    rwa [Bool.not_eq_true', List.contains_eq_mem, decide_eq_false_iff_not] at hplain
  · have hspace := (Option.all_eq_true _ _).mp (hspaced _ hmem raw hraw w hw hsame) c hc
    rw [hblank, Bool.not_true, Bool.false_or] at hspace
    exact eq_of_beq hspace

end Files

end Include
end Asm
end RetroCpu
