import RetroCpu.AsmTs.Parser
import RetroCpu.Lib.Checked
import RetroCpu.Lib.HexText
import RetroCpu.Lib.JsPattern

/-!
# Lines with an instruction

An operation and operands without quotation marks, comments or square brackets, written with
`, ` in between, are read back.
-/

namespace RetroCpu
namespace AsmTs
namespace LineParser

open Js Checked

section Combinators

variable {α β σ : Type}

/-- The parser takes some characters, wherever they stand in front of the rest. -/
def Takes (p : Parser α) (seg rest : List Char) (value : α) : Prop :=
  ∀ before : List Char,
    p (before ++ (seg ++ rest)) before.length = .ok value (before.length + seg.length)

/-- The parser fails in front of the rest. -/
def Stops (p : Parser α) (rest : List Char) : Prop :=
  ∀ before : List Char, ∃ expected index,
    p (before ++ rest) before.length = .ng expected index

theorem takes_regexP {re : List Item} {expected : String} {seg rest : List Char}
    {segments : List (List Char)} (hmatch : matchPrefix re (seg ++ rest) = some (segments, rest))
    (hflatten : segments.flatten = seg) : Takes (regexP re expected) seg rest (String.ofList seg) := by
  intro before
  rw [regexP, List.drop_left, hmatch]
  dsimp only
  rw [hflatten]

theorem stops_regexP {re : List Item} {expected : String} {rest : List Char}
    (hmatch : matchPrefix re rest = none) : Stops (regexP re expected) rest := by
  intro before
  refine ⟨expected, before.length, ?_⟩
  rw [regexP, List.drop_left, hmatch]

theorem takes_charP (ch : Char) (rest : List Char) : Takes (charP ch) [ch] rest ch := by
  intro before
  rw [charP, if_pos (by simp)]
  rfl

theorem stops_charP {ch : Char} {rest : List Char} (h : rest.head? ≠ some ch) :
    Stops (charP ch) rest := by
  intro before
  refine ⟨_, _, if_neg ?_⟩
  rw [List.getElem?_append_right (Nat.le_refl _), Nat.sub_self, ← List.head?_eq_getElem?]
  exact h

theorem takes_mapP {p : Parser α} {fn : α → β} {seg rest : List Char} {value : α}
    (h : Takes p seg rest value) : Takes (mapP p fn) seg rest (fn value) := by
  intro before
  rw [mapP, h before]

theorem stops_mapP {p : Parser α} {fn : α → β} {rest : List Char} (h : Stops p rest) :
    Stops (mapP p fn) rest := by
  intro before
  obtain ⟨expected, index, hng⟩ := h before
  refine ⟨expected, index, ?_⟩
  rw [mapP, hng]

theorem takes_seqP {left : Parser α} {right : Parser β} {seg seg' rest : List Char} {a : α} {b : β}
    (hleft : Takes left seg (seg' ++ rest) a) (hright : Takes right seg' rest b) :
    Takes (seqP left right) (seg ++ seg') rest (a, b) := by
  intro before
  have hright := hright (before ++ seg)
  rw [List.length_append, List.append_assoc] at hright
  rw [seqP, List.append_assoc, hleft before]
  dsimp only
  rw [hright]
  dsimp only
  rw [List.length_append, Nat.add_assoc]

theorem stops_seqP {left : Parser α} {right : Parser β} {rest : List Char} (h : Stops left rest) :
    Stops (seqP left right) rest := by
  intro before
  obtain ⟨expected, index, hng⟩ := h before
  refine ⟨expected, index, ?_⟩
  rw [seqP, hng]

theorem stops_seqP_right {left : Parser α} {right : Parser β} {seg rest : List Char} {a : α}
    (hleft : Takes left seg rest a) (h : Stops right rest) :
    Stops (seqP left right) (seg ++ rest) := by
  intro before
  obtain ⟨expected, index, hng⟩ := h (before ++ seg)
  refine ⟨expected, index, ?_⟩
  rw [List.length_append, List.append_assoc] at hng
  rw [seqP, hleft before]
  dsimp only
  rw [hng]

theorem takes_orP_left {first second : Parser α} {seg rest : List Char} {value : α}
    (h : Takes first seg rest value) : Takes (orP first second) seg rest value := by
  intro before
  rw [orP, h before]

theorem takes_orP_right {first second : Parser α} {seg rest : List Char} {value : α}
    (hfirst : Stops first (seg ++ rest)) (h : Takes second seg rest value) :
    Takes (orP first second) seg rest value := by
  intro before
  obtain ⟨expected, index, hng⟩ := hfirst before
  rw [orP, hng, h before]

/-- The parser takes one piece after the other, and fails behind them. -/
inductive TakesAll (p : Parser α) (rest : List Char) : List (List Char × α) → Prop
  | nil (h : Stops p rest) : TakesAll p rest []
  | cons {seg : List Char} {value : α} {pieces : List (List Char × α)} (hne : seg ≠ [])
      (h : Takes p seg ((pieces.map Prod.fst).flatten ++ rest) value)
      (hrest : TakesAll p rest pieces) : TakesAll p rest ((seg, value) :: pieces)

theorem manyLoop_takes {p : Parser α} {rest : List Char} {pieces : List (List Char × α)}
    (h : TakesAll p rest pieces) {fuel : Nat} (hfuel : pieces.length < fuel)
    (before : List Char) :
    manyLoop p (before ++ ((pieces.map Prod.fst).flatten ++ rest)) fuel before.length =
      (pieces.map Prod.snd, before.length + (pieces.map Prod.fst).flatten.length) := by
  induction h generalizing fuel before with
  | nil h =>
      cases fuel with
      | zero => rfl
      | succ fuel =>
          obtain ⟨expected, index, hng⟩ := h before
          change manyLoop p (before ++ rest) (fuel + 1) before.length = ([], before.length)
          rw [manyLoop, hng]
  | @cons seg value pieces hne h hrest ih =>
      cases fuel with
      | zero => exact absurd hfuel (Nat.not_lt_zero _)
      | succ fuel =>
          have hih := ih (Nat.lt_of_succ_lt_succ hfuel) (before ++ seg)
          rw [List.length_append, List.append_assoc] at hih
          have hmoves : ¬ before.length + seg.length = before.length := by
            have hpos := List.length_pos_iff.mpr hne
            omega
          rw [List.map_cons, List.flatten_cons, List.append_assoc, manyLoop, h before]
          dsimp only
          rw [if_neg hmoves, hih, List.map_cons, List.length_append, Nat.add_assoc]

theorem length_pieces_le {p : Parser α} {rest : List Char} {pieces : List (List Char × α)}
    (h : TakesAll p rest pieces) : pieces.length ≤ (pieces.map Prod.fst).flatten.length := by
  induction h with
  | nil h => exact Nat.le_refl _
  | cons hne h hrest ih =>
      have hpos := List.length_pos_iff.mpr hne
      rw [List.map_cons, List.flatten_cons, List.length_append, List.length_cons]
      exact Nat.add_le_add ih hpos |>.trans_eq (Nat.add_comm _ _)

theorem takes_sepBy1P {item : Parser α} {sep : Parser σ} {seg rest : List Char} {value : α}
    {pieces : List (List Char × σ × α)}
    (hfirst : Takes item seg ((pieces.map Prod.fst).flatten ++ rest) value)
    (hpieces : TakesAll (seqP sep item) rest pieces) :
    Takes (sepBy1P item sep) (seg ++ (pieces.map Prod.fst).flatten) rest
      (value :: (pieces.map Prod.snd).map Prod.snd) := by
  intro before
  have hfuel : pieces.length < (before ++ (seg ++ ((pieces.map Prod.fst).flatten ++ rest))).length +
      1 := by
    have hle := length_pieces_le hpieces
    rw [List.length_append, List.length_append, List.length_append]
    omega
  have hmany := manyLoop_takes hpieces hfuel (before ++ seg)
  have hlen : before.length + seg.length = (before ++ seg).length := List.length_append.symm
  rw [List.append_assoc] at hmany
  rw [sepBy1P, List.append_assoc, hfirst before]
  dsimp only
  rw [hlen, manyP, hmany]
  dsimp only
  rw [List.length_append, List.length_append, Nat.add_assoc]

end Combinators

section Operands

/-- A character of a printed line -/
structure LineChar (c : Char) : Prop where
  other : c ∉ "'\"[];/:\n\r".toList
  word : c.toLower ≠ 'q' ∧ c.toLower ≠ '.'

/-- A printed operand -/
structure PlainOperand (cs : List Char) : Prop where
  ne : cs ≠ []
  trimmed : Trimmed cs
  line : ∀ c ∈ cs, LineChar c
  comma : ',' ∉ cs
  parens : cs.count '(' = cs.count ')'

theorem LineChar.quote {c : Char} (h : LineChar c) : ¬ (c = '\'' ∨ c = '"') := by
  rintro (rfl | rfl)
  · exact h.other (by decide)
  · exact h.other (by decide)

theorem operandLoop_append {cs rest : List Char} (hline : ∀ c ∈ cs, LineChar c) (hcomma : ',' ∉ cs)
    {fuel : Nat} (hfuel : cs.length ≤ fuel) (bracket paren : Int) :
    operandLoop fuel bracket paren (cs ++ rest) =
      cs ++ operandLoop (fuel - cs.length) bracket
        (paren + cs.count '(' - cs.count ')') rest := by
  induction cs generalizing fuel paren with
  | nil => simp
  | cons c cs ih =>
      cases fuel with
      | zero => exact absurd hfuel (Nat.not_succ_le_zero _)
      | succ fuel =>
          have hc := hline c List.mem_cons_self
          have hquote : ¬ ((c = '\'' ∨ c = '"') ∧ bracket = 0 ∧ paren = 0) := fun h => hc.quote h.1
          have hopen : c ≠ '[' := fun h => hc.other (h ▸ by decide)
          have hclose : c ≠ ']' := fun h => hc.other (h ▸ by decide)
          have hsep : ¬ (c = ',' ∧ bracket = 0 ∧ paren = 0) := fun h =>
            hcomma (h.1 ▸ List.mem_cons_self)
          have hih := fun p => ih (fun d hd => hline d (List.mem_cons_of_mem _ hd))
            (fun hd => hcomma (List.mem_cons_of_mem _ hd)) (Nat.le_of_succ_le_succ hfuel) p
          rw [List.cons_append, operandLoop, if_neg hquote, if_neg hopen, if_neg hclose,
            List.length_cons, Nat.add_sub_add_right]
          by_cases hlp : c = '('
          · subst hlp
            have hcount : paren + 1 + (cs.count '(' : Int) - cs.count ')' =
                paren + (('(' :: cs).count '(' : Int) - ('(' :: cs).count ')' := by
              rw [List.count_cons_self, List.count_cons_of_ne (by decide)]
              omega
            rw [if_pos rfl, hih, hcount, List.cons_append]
          · rw [if_neg hlp]
            by_cases hrp : c = ')'
            · subst hrp
              have hcount : paren - 1 + (cs.count '(' : Int) - cs.count ')' =
                  paren + ((')' :: cs).count '(' : Int) - (')' :: cs).count ')' := by
                rw [List.count_cons_self, List.count_cons_of_ne (by decide)]
                omega
              rw [if_pos rfl, hih, hcount, List.cons_append]
            · rw [if_neg hrp, if_neg hsep, hih, List.count_cons_of_ne hlp,
                List.count_cons_of_ne hrp, List.cons_append]

/-- An operand ends at a comma or at the end. -/
theorem takes_parseOperand {cs rest : List Char} (h : PlainOperand cs)
    (hrest : ∀ c ∈ rest.head?, c = ',') : Takes parseOperand cs rest (String.ofList cs) := by
  have hchars : operandChars (cs ++ rest) = cs := by
    have hlen : cs.length ≤ (cs ++ rest).length + 1 := by
      rw [List.length_append]
      omega
    rw [operandChars, operandLoop_append h.line h.comma hlen, h.parens, Int.zero_add, Int.sub_self]
    cases hfuel : (cs ++ rest).length + 1 - cs.length with
    | zero => rw [operandLoop, List.append_nil]
    | succ fuel =>
        cases rest with
        | nil => rw [operandLoop, List.append_nil]
        | cons c rest =>
            obtain rfl := hrest c rfl
            rw [operandLoop.eq_def]
            simp
  intro before
  rw [parseOperand, List.drop_left, hchars, trimChars_of_trimmed h.trimmed, if_neg h.ne]

theorem takes_blanks {re : List Item} {seg rest : List Char}
    (hmatch : ∀ segments, matchPrefix [] rest = some segments →
      matchPrefix re (seg ++ rest) = some (seg :: segments.1, segments.2)) :
    Takes (regexP re "whitespace") seg rest (String.ofList seg) := by
  refine takes_regexP (hmatch ([], rest) rfl) ?_
  rw [List.flatten_cons, List.flatten_nil, List.append_nil]

theorem takes_ws0 {seg rest : List Char} (hseg : ∀ c ∈ seg, isBlank c = true)
    (hrest : ∀ c ∈ rest.head?, isBlank c = false) : Takes ws0 seg rest (String.ofList seg) :=
  takes_blanks fun _ hmatch => matchPrefix_star hseg hrest hmatch

theorem takes_ws0_nil {rest : List Char} (hrest : ∀ c ∈ rest.head?, isBlank c = false) :
    Takes ws0 [] rest "" := takes_ws0 (fun _ hc => absurd hc List.not_mem_nil) hrest

theorem takes_ws1 {seg rest : List Char} (hne : seg ≠ []) (hseg : ∀ c ∈ seg, isBlank c = true)
    (hrest : ∀ c ∈ rest.head?, isBlank c = false) : Takes ws1 seg rest (String.ofList seg) :=
  takes_blanks fun _ hmatch => matchPrefix_plus hne hseg hrest hmatch

end Operands

section Bodies

theorem PlainOperand.head {cs : List Char} (h : PlainOperand cs) :
    ∀ c ∈ cs.head?, isBlank c = false := by
  intro c hc
  have hspace := h.trimmed.1 c hc
  rw [isBlank, Bool.or_eq_false_iff, beq_eq_false_iff_ne, beq_eq_false_iff_ne]
  constructor
  · rintro rfl
    cases hspace
  · rintro rfl
    cases hspace

/-- Operands behind the first one -/
def moreOperands (args : List (List Char)) : List Char :=
  (args.map fun a => ',' :: ' ' :: a).flatten

theorem head_moreOperands (args : List (List Char)) : ∀ c ∈ (moreOperands args).head?, c = ',' := by
  intro c hc
  cases args with
  | nil => cases hc
  | cons a args => exact (Option.some.inj hc).symm

theorem takesAll_moreOperands {args : List (List Char)} (h : ∀ a ∈ args, PlainOperand a) :
    TakesAll (seqP (mapP (seqP (seqP ws0 (charP ',')) ws0) fun _ => ",") parseOperand) []
      (args.map fun a => (',' :: ' ' :: a, ",", String.ofList a)) := by
  induction args with
  | nil =>
      have hblank : Takes ws0 [] [] "" := takes_ws0_nil fun c hc => by cases hc
      have hcomma : Stops (seqP ws0 (charP ',')) ([] ++ []) :=
        stops_seqP_right hblank (stops_charP (by simp))
      exact .nil (stops_seqP (stops_mapP (stops_seqP hcomma)))
  | cons a args ih =>
      have ha := h a List.mem_cons_self
      have hmore : ((args.map fun a => (',' :: ' ' :: a, ",", String.ofList a)).map Prod.fst).flatten ++
          [] = moreOperands args := by
        rw [List.map_map, List.append_nil, moreOperands]
        rfl
      refine .cons (List.cons_ne_nil _ _) ?_ (ih fun b hb => h b (List.mem_cons_of_mem _ hb))
      rw [hmore]
      have hcomma : Takes (mapP (seqP (seqP ws0 (charP ',')) ws0) fun _ => ",") [',', ' ']
          (a ++ moreOperands args) "," := by
        have hbefore : Takes ws0 [] ([','] ++ (' ' :: (a ++ moreOperands args))) "" :=
          takes_ws0_nil fun c hc => by
            obtain rfl := Option.some.inj hc
            rfl
        have hbehind : Takes ws0 [' '] (a ++ moreOperands args) " " := by
          refine takes_ws0 (fun c hc => ?_) fun c hc => ha.head c ?_
          · obtain rfl := List.mem_singleton.mp hc
            rfl
          · obtain ⟨d, ds, rfl⟩ := List.exists_cons_of_ne_nil ha.ne
            exact hc
        have hmark := takes_seqP hbefore (takes_charP ',' (' ' :: (a ++ moreOperands args)))
        exact takes_mapP (takes_seqP hmark hbehind)
      exact takes_seqP hcomma (takes_parseOperand ha (head_moreOperands args))

/-- The operands of a printed line -/
theorem takes_parseArgsList {a : List Char} {args : List (List Char)} (ha : PlainOperand a)
    (h : ∀ b ∈ args, PlainOperand b) :
    Takes parseArgsList (a ++ moreOperands args) [] (String.ofList a :: args.map String.ofList) := by
  have hmore : ((args.map fun a => (',' :: ' ' :: a, ",", String.ofList a)).map Prod.fst).flatten =
      moreOperands args := by
    rw [List.map_map, moreOperands]
    rfl
  have hvalues : ((args.map fun a => (',' :: ' ' :: a, ",", String.ofList a)).map Prod.snd).map
      Prod.snd = args.map String.ofList := by
    rw [List.map_map, List.map_map]
    rfl
  have hfirst : Takes parseOperand a (((args.map fun a =>
      (',' :: ' ' :: a, ",", String.ofList a)).map Prod.fst).flatten ++ []) (String.ofList a) := by
    rw [hmore, List.append_nil]
    exact takes_parseOperand ha (head_moreOperands args)
  have hall := takes_sepBy1P hfirst (takesAll_moreOperands h)
  rw [hmore, hvalues] at hall
  exact hall

/-- The operation of a printed line -/
structure Operation (op : List Char) : Prop where
  ne : op ≠ []
  upper : toUpperCase (String.ofList op) = String.ofList op
  space : ∀ c ∈ op, isSpace c = false
  line : ∀ c ∈ op, LineChar c

/-- The text behind an operation -/
def operands : List (List Char) → List Char
  | [] => []
  | a :: args => ' ' :: (a ++ moreOperands args)

theorem takes_opTail {args : List (List Char)} (h : ∀ a ∈ args, PlainOperand a) :
    Takes opTail (operands args) [] (args.map String.ofList) := by
  cases args with
  | nil =>
      refine takes_orP_right (stops_mapP (stops_seqP (stops_regexP rfl))) ?_
      exact takes_mapP (takes_ws0_nil fun c hc => by cases hc)
  | cons a args =>
      have ha := h a List.mem_cons_self
      have hblank : Takes ws1 [' '] ((a ++ moreOperands args) ++ []) " " := by
        refine takes_ws1 (List.cons_ne_nil _ _) (fun c hc => ?_) fun c hc => ha.head c ?_
        · obtain rfl := List.mem_singleton.mp hc
          rfl
        · obtain ⟨d, ds, rfl⟩ := List.exists_cons_of_ne_nil ha.ne
          exact hc
      exact takes_orP_left (takes_mapP (takes_seqP hblank
        (takes_parseArgsList ha fun b hb => h b (List.mem_cons_of_mem _ hb))))

variable {op : List Char} {args : List (List Char)}

theorem takes_opToken (hop : Operation op) : Takes opToken op (operands args) (String.ofList op) := by
  have hmatch : matchPrefix [.plus fun c => !isSpace c] (op ++ operands args) =
      some ([op], operands args) := ?_
  · exact takes_regexP hmatch (by simp)
  refine matchPrefix_plus (r := ([], operands args)) hop.ne (fun c hc => ?_) (fun c hc => ?_) rfl
  · rw [hop.space c hc]
    rfl
  · cases args with
    | nil => cases hc
    | cons a args =>
        obtain rfl := Option.some.inj hc
        rfl

theorem lineChar_space : LineChar ' ' := ⟨by decide, by decide⟩

theorem lineChar_comma : LineChar ',' := ⟨by decide, by decide⟩

theorem lineChar_operands (h : ∀ a ∈ args, PlainOperand a) : ∀ c ∈ operands args, LineChar c := by
  cases args with
  | nil => exact fun c hc => absurd hc List.not_mem_nil
  | cons a args =>
      intro c hc
      rcases List.mem_cons.mp hc with rfl | hc
      · exact lineChar_space
      rcases List.mem_append.mp hc with hc | hc
      · exact (h a List.mem_cons_self).line c hc
      · obtain ⟨seg, hseg, hc⟩ := List.mem_flatten.mp hc
        obtain ⟨b, hb, rfl⟩ := List.mem_map.mp hseg
        rcases List.mem_cons.mp hc with rfl | hc
        · exact lineChar_comma
        rcases List.mem_cons.mp hc with rfl | hc
        · exact lineChar_space
        exact (h b (List.mem_cons_of_mem _ hb)).line c hc

/-- The body of a printed line -/
theorem parseBody_printed (hop : Operation op) (h : ∀ a ∈ args, PlainOperand a) :
    ∃ next, parseBody (op ++ operands args) =
      .ok { label := none, op := some (String.ofList op), args := args.map String.ofList } next := by
  have hline : ∀ c ∈ op ++ operands args, LineChar c := by
    intro c hc
    rcases List.mem_append.mp hc with hc | hc
    · exact hop.line c hc
    · exact lineChar_operands h c hc
  have hlabel : optionalP parseLabelDecl (op ++ operands args) 0 = .ok none 0 := by
    have hcolon : ∀ next, charP ':' (op ++ operands args) next =
        .ng ("'" ++ String.singleton ':' ++ "'") next := by
      intro next
      refine if_neg fun hget => ?_
      exact (hline ':' (List.mem_of_getElem? hget)).other (by decide)
    rw [optionalP, parseLabelDecl, mapP, seqP]
    cases ident (op ++ operands args) 0 with
    | ok value next =>
        dsimp only
        rw [hcolon]
    | ng expected index => rfl
  have hblank : ws0 (op ++ operands args) 0 = .ok "" 0 := by
    refine (takes_ws0_nil fun c hc => ?_ : Takes ws0 [] (op ++ operands args) "") []
    obtain ⟨d, ds, rfl⟩ := List.exists_cons_of_ne_nil hop.ne
    obtain rfl := Option.some.inj hc
    have hspace := hop.space d List.mem_cons_self
    rw [isBlank, Bool.or_eq_false_iff, beq_eq_false_iff_ne, beq_eq_false_iff_ne]
    constructor
    · rintro rfl
      cases hspace
    · rintro rfl
      cases hspace
  have hlong : ¬ 0 ≥ (op ++ operands args).length := by
    have hpos := List.length_pos_iff.mpr hop.ne
    rw [List.length_append]
    omega
  have hequ : tryParseSdasStyleEqu (op ++ operands args) = none := by
    have habsent : (Item.word [".equ", "equ"]).Absent (op ++ operands args) := by
      refine absent_word fun w hw => ⟨'q', ?_, fun c hc => (hline c hc).word.1⟩
      revert w
      decide
    rw [tryParseSdasStyleEqu,
      matchAll_absent (List.mem_append_right _ (.tail _ (.head _))) habsent]
  have hds : dsNoColon (op ++ operands args) = none := by
    have habsent : (Item.word [".ds", ".blkw"]).Absent (op ++ operands args) := by
      refine absent_word fun w hw => ⟨'.', ?_, fun c hc => (hline c hc).word.2⟩
      revert w
      decide
    rw [dsNoColon, matchPrefix_absent (List.mem_append_right _ (.tail _ (.head _))) habsent]
  have htoken : opToken (op ++ operands args) 0 = .ok (String.ofList op) op.length := by
    have htakes : opToken ([] ++ (op ++ operands args)) 0 =
        .ok (String.ofList op) (0 + op.length) := takes_opToken hop []
    rw [Nat.zero_add] at htakes
    exact htakes
  have htail : opTail (op ++ operands args) op.length =
      .ok (args.map String.ofList) (op ++ operands args).length := by
    have htakes := takes_opTail h op
    rw [List.append_nil, ← List.length_append] at htakes
    exact htakes
  have hend : ws0 (op ++ operands args) (op ++ operands args).length =
      .ok "" (op ++ operands args).length := by
    have hnil : Takes ws0 [] [] "" := takes_ws0_nil fun c hc => by cases hc
    have htakes := hnil (op ++ operands args)
    rw [List.append_nil, List.append_nil] at htakes
    exact htakes
  refine ⟨(op ++ operands args).length, ?_⟩
  rw [parseBody, hlabel]
  dsimp only
  rw [hblank]
  dsimp only
  rw [if_neg hlong, List.drop_zero, hequ]
  dsimp only
  rw [hds]
  dsimp only
  rw [parseOperation, htoken]
  dsimp only
  rw [htail]
  dsimp only
  rw [hend]
  dsimp only
  rw [if_neg (not_not_intro rfl), hop.upper]

end Bodies

section Sources

theorem joinLineEnds_plain {cs : List Char} (h : '\r' ∉ cs) : joinLineEnds cs = cs := by
  induction cs with
  | nil => rfl
  | cons c cs ih =>
      have hc : c ≠ '\r' := fun hc => h (hc ▸ List.mem_cons_self)
      have hrest := ih fun hmem => h (List.mem_cons_of_mem _ hmem)
      rw [joinLineEnds.eq_def]
      split
      · next h' => exact absurd (List.cons.inj h').1 hc
      · next h' =>
          obtain ⟨rfl, rfl⟩ := List.cons.inj h'
          rw [hrest]
      · next h' => cases h'

theorem stripLoop_plain {cs : List Char} (h : ∀ c ∈ cs, LineChar c) : stripLoop none cs = cs := by
  induction cs with
  | nil => rfl
  | cons c cs ih =>
      have hc := h c List.mem_cons_self
      have hcomment : c ≠ ';' := fun heq => hc.other (heq ▸ by decide)
      have hslash : ¬ (c = '/' ∧ cs.head? = some '/') := fun heq => hc.other (heq.1 ▸ by decide)
      rw [stripLoop, if_neg hc.quote, if_neg hcomment, if_neg hslash,
        ih fun d hd => h d (List.mem_cons_of_mem _ hd)]

variable {op : List Char} {args : List (List Char)}

theorem getLast_append_operand {cs a : List Char} (ha : PlainOperand a) :
    ∀ c ∈ (cs ++ a).getLast?, isSpace c = false := by
  intro c hc
  rw [List.getLast?_append] at hc
  cases hlast : a.getLast? with
  | none => exact absurd (List.getLast?_eq_none_iff.mp hlast) ha.ne
  | some d =>
      rw [hlast] at hc
      obtain rfl := Option.some.inj hc
      exact ha.trimmed.2 _ hlast

theorem trimmed_printed (hop : Operation op) (h : ∀ a ∈ args, PlainOperand a) :
    Trimmed (op ++ operands args) := by
  constructor
  · intro c hc
    obtain ⟨d, ds, rfl⟩ := List.exists_cons_of_ne_nil hop.ne
    obtain rfl := Option.some.inj hc
    exact hop.space _ List.mem_cons_self
  · cases args with
    | nil =>
        intro c hc
        rw [operands, List.append_nil] at hc
        exact hop.space c (List.mem_of_getLast? hc)
    | cons a args =>
        have ha := h a List.mem_cons_self
        rcases List.eq_nil_or_concat args with rfl | ⟨front, b, rfl⟩
        · have htext : op ++ operands [a] = (op ++ [' ']) ++ a := by
            rw [operands, moreOperands]
            simp
          rw [htext]
          exact getLast_append_operand ha
        · have hb := h b (List.mem_cons_of_mem _ (by simp))
          have htext : op ++ operands (a :: front.concat b) =
              (op ++ ' ' :: (a ++ moreOperands front) ++ [',', ' ']) ++ b := by
            rw [operands, moreOperands, moreOperands]
            simp
          rw [htext]
          exact getLast_append_operand hb

/-- A printed line is read back. -/
theorem parseSource_printed (hop : Operation op) (h : ∀ a ∈ args, PlainOperand a) :
    parseSource (String.ofList (op ++ operands args)) =
      .ok [{ lineNo := 1
             text := String.ofList (op ++ operands args)
             label := none
             op := some (String.ofList op)
             args := args.map String.ofList }] := by
  have hline : ∀ c ∈ op ++ operands args, LineChar c := by
    intro c hc
    rcases List.mem_append.mp hc with hc | hc
    · exact hop.line c hc
    · exact lineChar_operands h c hc
  have hbreak : ∀ c ∈ op ++ operands args, (c == '\n') = false := by
    intro c hc
    rw [beq_eq_false_iff_ne]
    rintro rfl
    exact (hline _ hc).other (by decide)
  have hreturn : '\r' ∉ op ++ operands args := fun hc => (hline _ hc).other (by decide)
  have hne : op ++ operands args ≠ [] := List.append_ne_nil_of_left_ne_nil hop.ne _
  have hcolumn : (op ++ operands args).head? ≠ some '.' := by
    intro hhead
    exact (hline _ (List.mem_of_head? hhead)).word.2 rfl
  obtain ⟨next, hbody⟩ := parseBody_printed hop h
  rw [parseSource, String.toList_ofList, joinLineEnds_plain hreturn, pieces_of_forall hbreak,
    parseLines, parseLine, stripLineComment, stripLoop_plain hline, trimChars_of_trimmed (trimmed_printed hop h),
    if_neg hne, if_neg hcolumn, hbody]
  rfl

end Sources

end LineParser
end AsmTs
end RetroCpu
