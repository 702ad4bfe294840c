import Mathlib.Tactic.IntervalCases
import RetroCpu.AsmRs.Expression
import RetroCpu.Lib.JsString

/-!
# Printed numbers as expressions

A text of plain characters is one token, and a number that is printed is read back.
-/

namespace RetroCpu
namespace AsmRs

open Checked Precedence

section Words

/-- A character that stands for itself in an expression. -/
structure Plain (c : Char) : Prop where
  blank : isAsciiWhitespace c = false
  operator : isOperatorChar c = false
  ascii : c.utf8Size = 1
  quote : c ≠ '\''
  angle : c ≠ '<' ∧ c ≠ '>'

theorem substCharLoop_plain (expr : String) {cs : List Char} (h : ∀ c ∈ cs, c ≠ '\'') :
    substCharLoop expr cs = .ok cs := by
  induction cs with
  | nil => rfl
  | cons c cs ih =>
      have hc : c ≠ '\'' := h c (by simp)
      have hcs := ih fun d hd => h d (by simp [hd])
      unfold substCharLoop
      split
      · cases ‹c :: cs = []›
      · next h' => exact absurd (List.cons.inj h').1 hc
      · next h' => exact absurd (List.cons.inj h').1 hc
      · next h' =>
          obtain ⟨rfl, rfl⟩ := List.cons.inj h'
          rw [hcs]
          rfl

theorem sliceFits_plain {c : Char} {cs : List Char} (hc : Plain c) (hcs : ∀ d ∈ cs, Plain d) :
    sliceFits c cs = true := by
  cases cs with
  | nil => simp [sliceFits, hc.ascii]
  | cons d cs => simp [sliceFits, hc.ascii, (hcs d (by simp)).ascii]

theorem isShiftAt_plain {c : Char} (hc : Plain c) (cs : List Char) : isShiftAt c cs = false := by
  simp [isShiftAt, hc.angle.1, hc.angle.2]

theorem wordLoop_plain {cs : List Char} (h : ∀ c ∈ cs, Plain c) : wordLoop cs = .ok (cs, []) := by
  induction cs with
  | nil => rfl
  | cons c cs ih =>
      have hc := h c (by simp)
      have hcs : ∀ d ∈ cs, Plain d := fun d hd => h d (by simp [hd])
      rw [wordLoop, if_neg (by simp [hc.blank, hc.operator]),
        if_neg (by simp [sliceFits_plain hc hcs]), if_neg (by simp [isShiftAt_plain hc cs]),
        if_neg (by simp [hc.ascii]), ih hcs]
      rfl

theorem tokenizeLoop_plain {cs : List Char} (hne : cs ≠ []) (h : ∀ c ∈ cs, Plain c) :
    tokenizeLoop cs.length cs = .ok [String.ofList cs] := by
  cases cs with
  | nil => exact absurd rfl hne
  | cons c cs =>
      have hc := h c (by simp)
      have hcs : ∀ d ∈ cs, Plain d := fun d hd => h d (by simp [hd])
      rw [List.length_cons, tokenizeLoop,
        if_neg (by simp [hc.blank]), if_neg (by simp [sliceFits_plain hc hcs]),
        if_neg (by simp [isShiftAt_plain hc cs]), if_neg (by simp [hc.operator]),
        wordLoop_plain h]
      cases cs.length with
      | zero => rfl
      | succ n => rfl

/-- A text of plain characters is one token. -/
theorem tokenize_plain {cs : List Char} (hne : cs ≠ []) (h : ∀ c ∈ cs, Plain c) :
    tokenize (String.ofList cs) = .ok [String.ofList cs] := by
  rw [tokenize, String.toList_ofList]
  exact tokenizeLoop_plain hne h

/-- A minus sign is a token of its own. -/
theorem tokenize_minus {cs : List Char} (hne : cs ≠ []) (h : ∀ c ∈ cs, Plain c) :
    tokenize (String.ofList ('-' :: cs)) = .ok ["-", String.ofList cs] := by
  have hsize : ('-' : Char).utf8Size = 1 := rfl
  have hfits : sliceFits '-' cs = true := by
    cases cs with
    | nil => rfl
    | cons d cs => simp [sliceFits, hsize, (h d (by simp)).ascii]
  rw [tokenize, String.toList_ofList, List.length_cons, tokenizeLoop, if_neg (by decide),
    if_neg (by simp [hfits]), if_neg (by simp [isShiftAt]), if_pos (by decide),
    tokenizeLoop_plain hne h]
  rfl

end Words

/-- A text without blanks is not trimmed. -/
theorem trim_ofList {cs : List Char} (h : ∀ c ∈ cs, isWhitespace c = false) :
    trim (String.ofList cs) = String.ofList cs := by
  have hdrop (l : List Char) (hl : ∀ c ∈ l, isWhitespace c = false) :
      l.dropWhile isWhitespace = l := by
    cases l with
    | nil => rfl
    | cons c l => rw [List.dropWhile_cons_of_neg (by simp [hl c (by simp)])]
  rw [trim, String.toList_ofList, hdrop cs h, hdrop cs.reverse fun c hc => h c (by simpa using hc),
    List.reverse_reverse]

section Numbers

/-- Digits without a sign. -/
theorem fromStrRadix_digits {cs : List Char} {radix n : Nat}
    (hhead : ∀ c ∈ cs.head?, c ≠ '-' ∧ c ≠ '+') (hne : cs ≠ [])
    (hvalue : digitsValue radix cs = some n) (hfits : InI32 n) :
    fromStrRadix cs radix = some (n : Int) := by
  have hempty : cs.isEmpty = false := by
    cases cs with
    | nil => exact absurd rfl hne
    | cons c cs => rfl
  unfold fromStrRadix
  split
  next negative digits hsign =>
    split at hsign
    · exact absurd rfl (hhead _ rfl).1
    · exact absurd rfl (hhead _ rfl).2
    · obtain ⟨rfl, rfl⟩ := Prod.mk.inj hsign
      simp [hempty, hvalue, hfits]

end Numbers

section Values

variable {symbols : SymbolTable} {allowUndefined : Bool}

/-- A token that is a number. -/
structure NumberToken (t : String) (v : Int) : Prop where
  bracket : t ≠ "("
  sign : parseSign t = none
  number : parseNumber t = .ok (some v)

theorem NumberToken.atom {t : String} {v : Int} (h : NumberToken t v) :
    parseAtom symbols allowUndefined t = .ok v := by
  rw [parseAtom, h.number]
  rfl

/-- The value of a number. -/
theorem evalExpr_number {expr t : String} {v : Int} (hsubst : substCharLiterals expr = .ok expr)
    (htokens : tokenize expr = .ok [t]) (h : NumberToken t v) :
    evalExpr symbols allowUndefined expr = .ok v := by
  rw [evalExpr, hsubst, ok_bind, htokens, ok_bind, evalTokens, if_neg (by simp)]
  rw [expression_atom (A := evaluator expr symbols allowUndefined) h.bracket h.sign h.atom]
  rfl

/-- The value of a number with a minus sign. -/
theorem evalExpr_negative {expr t : String} {v : Int} (hsubst : substCharLiterals expr = .ok expr)
    (htokens : tokenize expr = .ok ["-", t]) (h : NumberToken t v) (hv : InI32 (-v)) :
    evalExpr symbols allowUndefined expr = .ok (-v) := by
  have hneg : checked (-v) = .ok (-v) := if_pos hv
  rw [evalExpr, hsubst, ok_bind, htokens, ok_bind, evalTokens, if_neg (by simp)]
  rw [expression_unary (A := evaluator expr symbols allowUndefined) (f := fun v => checked (-v))
    (by decide) rfl h.bracket h.sign h.atom hneg]
  rfl

end Values

section Decimal

/-- The decimal digits. -/
theorem mem_digits {c : Char} (h : c.isDigit = true) : c ∈ "0123456789".toList := by
  have hbounds : 48 ≤ c.toNat ∧ c.toNat ≤ 57 := by
    simpa [Char.isDigit, UInt32.le_iff_toNat_le] using h
  have hchar := Char.ofNat_toNat c
  obtain ⟨h48, h57⟩ := hbounds
  generalize c.toNat = n at h48 h57 hchar
  subst hchar
  interval_cases n <;> decide

/-- What the reader asks of a decimal digit. -/
structure DecimalDigit (c : Char) : Prop where
  plain : Plain c
  blank : isWhitespace c = false
  value : toDigit 10 c = some (c.toNat - '0'.toNat)
  other : c ≠ '>' ∧ c ≠ '-' ∧ c ≠ '+' ∧ c ≠ '~' ∧ c ≠ '(' ∧ c ≠ ','
  mark : ¬ (c = 'x' ∨ c = 'X' ∨ c = 'o' ∨ c = 'O' ∨ c = 'b' ∨ c = 'B')
  suffix : ¬ (c.toUpper = 'H' ∨ c.toUpper = 'O' ∨ c.toUpper = 'Q' ∨ c.toUpper = 'B' ∨
    c.toUpper = 'D')

theorem decimalDigit {c : Char} (h : c.isDigit = true) : DecimalDigit c := by
  have hall : ∀ c ∈ "0123456789".toList,
      (isAsciiWhitespace c = false ∧ isOperatorChar c = false ∧ c.utf8Size = 1 ∧ c ≠ '\'' ∧
        c ≠ '<' ∧ c ≠ '>') ∧ isWhitespace c = false ∧ toDigit 10 c = some (c.toNat - '0'.toNat) ∧
      (c ≠ '>' ∧ c ≠ '-' ∧ c ≠ '+' ∧ c ≠ '~' ∧ c ≠ '(' ∧ c ≠ ',') ∧
      ¬ (c = 'x' ∨ c = 'X' ∨ c = 'o' ∨ c = 'O' ∨ c = 'b' ∨ c = 'B') ∧
      ¬ (c.toUpper = 'H' ∨ c.toUpper = 'O' ∨ c.toUpper = 'Q' ∨ c.toUpper = 'B' ∨
        c.toUpper = 'D') := Js.forall_mem_of_all (by decide +kernel)
  obtain ⟨⟨h1, h2, h3, h4, h5⟩, hblank, hvalue, hother, hmark, hsuffix⟩ := hall c (mem_digits h)
  exact ⟨⟨h1, h2, h3, h4, h5⟩, hblank, hvalue, hother, hmark, hsuffix⟩

variable {cs : List Char} (h : ∀ c ∈ cs, c.isDigit = true)
include h

theorem byteLength_digits : byteLength cs = cs.length := by
  induction cs with
  | nil => rfl
  | cons c cs ih =>
      rw [byteLength, List.map_cons, List.sum_cons, (decimalDigit (h c (by simp))).plain.ascii,
        List.length_cons, Nat.add_comm]
      exact congrArg (· + 1) (ih fun d hd => h d (by simp [hd]))

theorem suffixNumber_digits : suffixNumber cs = .ok (fromStrRadix cs 10) := by
  have hplain : (if cs.all Char.isDigit then fromStrRadix cs 10 else none) = fromStrRadix cs 10 :=
    if_pos (List.all_eq_true.mpr h)
  rw [suffixNumber, hplain]
  cases hlast : cs.getLast? with
  | none => rfl
  | some c =>
      have hc := decimalDigit (h c (List.mem_of_getLast? hlast))
      have hsuffix := hc.suffix
      simp only [not_or] at hsuffix
      obtain ⟨hH, hO, hQ, hB, hD⟩ := hsuffix
      simp only [hc.plain.ascii, hH, hO, hQ, hB, hD, false_and, or_self, ne_eq, not_true, if_false,
        ite_self]

/-- Decimal digits are read as they are. -/
theorem parseNumber_digits : parseNumber (String.ofList cs) = .ok (fromStrRadix cs 10) := by
  have htrim := trim_ofList fun c hc => (decimalDigit (h c hc)).blank
  have hbytes := byteLength_digits h
  have hsuffix := suffixNumber_digits h
  rw [parseNumber, htrim, String.toList_ofList]
  cases cs with
  | nil => exact (if_pos (Nat.zero_le 2)).trans hsuffix
  | cons c tail =>
      have hc := decimalDigit (h c (by simp))
      split
      · next hhead => exact absurd (List.cons.inj hhead).1 hc.other.1
      · by_cases htwo : byteLength (c :: tail) ≤ 2
        · rw [if_pos htwo, hsuffix]
        · cases tail with
          | nil =>
              rw [hbytes] at htwo
              exact absurd (Nat.le_succ 1) htwo
          | cons d rest =>
              have hd := decimalDigit (h d (by simp))
              have hsplit : split2 (c :: d :: rest) = some ([c, d], rest) := by
                simp [split2, hc.plain.ascii, hd.plain.ascii]
              have hmark := hd.mark
              simp only [not_or] at hmark
              obtain ⟨hx, hX, ho, hO, hb, hB⟩ := hmark
              rw [if_neg htwo, hsplit]
              simp [hx, hX, ho, hO, hb, hB, hsuffix]

omit h in
/-- The value of decimal digits. -/
theorem digitsValue_digits (h : ∀ c ∈ cs, c.isDigit = true) :
    digitsValue 10 cs = some (Nat.ofDigitChars 10 cs 0) := by
  have hfold (v : Nat) : cs.foldlM (fun v c => (toDigit 10 c).map (v * 10 + ·)) v =
      some (Nat.ofDigitChars 10 cs v) := by
    induction cs generalizing v with
    | nil => simp
    | cons c cs ih =>
        rw [List.foldlM_cons, (decimalDigit (h c (by simp))).value, Nat.ofDigitChars_cons,
          Nat.mul_comm 10 v]
        exact ih (fun d hd => h d (by simp [hd])) _
  exact hfold 0

omit h in
theorem repr_digits (n : Nat) : ∀ c ∈ Nat.toDigits 10 n, c.isDigit = true := fun _ hc =>
  Nat.isDigit_of_mem_toDigits (by decide) (by decide) hc

omit h in
/-- A printed natural number is a number token. -/
theorem repr_number {n : Nat} (hn : InI32 n) : NumberToken (Nat.repr n) n := by
  have hdigits := repr_digits n
  have hne (s : String) (c : Char) (hs : s.toList = [c]) (hc : c.isDigit = false) :
      Nat.repr n ≠ s := by
    rintro rfl
    have hmem : c ∈ Nat.toDigits 10 n := by
      rw [← Nat.toList_repr, hs]
      exact List.mem_singleton_self c
    rw [hdigits c hmem] at hc
    cases hc
  have hnonempty : Nat.toDigits 10 n ≠ [] := Nat.toDigits_ne_nil
  have hbracket := hne "(" '(' rfl (by decide)
  constructor
  · exact hbracket
  · rw [parseSign, if_neg (hne "+" '+' rfl (by decide)), if_neg (hne "-" '-' rfl (by decide)),
      if_neg (hne "~" '~' rfl (by decide))]
  · have hvalue : digitsValue 10 (Nat.toDigits 10 n) = some n := by
      rw [digitsValue_digits hdigits, Nat.ofDigitChars_ten_toDigits]
    have hhead : ∀ c ∈ (Nat.toDigits 10 n).head?, c ≠ '-' ∧ c ≠ '+' := by
      intro c hc
      have hother := (decimalDigit (hdigits c (List.mem_of_mem_head? hc))).other
      exact ⟨hother.2.1, hother.2.2.1⟩
    rw [Nat.repr_eq_ofList_toDigits, parseNumber_digits hdigits,
      fromStrRadix_digits hhead hnonempty hvalue hn]

variable {symbols : SymbolTable} {allowUndefined : Bool}

omit h in
theorem substCharLiterals_plain {cs : List Char} (h : ∀ c ∈ cs, c ≠ '\'') :
    substCharLiterals (String.ofList cs) = .ok (String.ofList cs) := by
  rw [substCharLiterals, String.toList_ofList, substCharLoop_plain _ h]
  rfl

omit h in
/-- The value of a printed natural number. -/
theorem evalExpr_repr {n : Nat} (hn : InI32 n) :
    evalExpr symbols allowUndefined (Nat.repr n) = .ok n := by
  have hplain : ∀ c ∈ Nat.toDigits 10 n, Plain c := fun c hc => (decimalDigit (repr_digits n c hc)).plain
  have hsubst := substCharLiterals_plain fun c hc => (hplain c hc).quote
  have htokens := tokenize_plain Nat.toDigits_ne_nil hplain
  rw [← Nat.repr_eq_ofList_toDigits] at hsubst htokens
  exact evalExpr_number hsubst htokens (repr_number hn)

omit h in
/-- The value of a printed negative number. -/
theorem evalExpr_neg_repr {n : Nat} (hn : InI32 n) (hneg : InI32 (-(n : Int))) :
    evalExpr symbols allowUndefined ("-" ++ Nat.repr n) = .ok (-(n : Int)) := by
  have hplain : ∀ c ∈ Nat.toDigits 10 n, Plain c := fun c hc => (decimalDigit (repr_digits n c hc)).plain
  have htext : "-" ++ Nat.repr n = String.ofList ('-' :: Nat.toDigits 10 n) := by
    apply String.toList_inj.mp
    simp
  have hquote : ∀ c ∈ '-' :: Nat.toDigits 10 n, c ≠ '\'' := by
    intro c hc
    rcases List.mem_cons.mp hc with rfl | hc
    · decide
    · exact (hplain c hc).quote
  have hsubst := substCharLiterals_plain hquote
  have htokens := tokenize_minus Nat.toDigits_ne_nil hplain
  rw [← htext] at hsubst htokens
  rw [← Nat.repr_eq_ofList_toDigits] at htokens
  exact evalExpr_negative hsubst htokens (repr_number hn) hneg

end Decimal

end AsmRs
end RetroCpu
