import RetroCpu.AsmTs.Expression
import RetroCpu.Lib.JsPattern

/-!
# Printed numbers as expressions of the assembler

A hexadecimal number of letters and digits is one token, and its value is read back.
-/

namespace RetroCpu
namespace AsmTs

open Js Checked Precedence

section Rewriting

theorem substLenLoop_plain {expr : String} {stringLens : JsMap Nat} {globlNames : List String}
    {fuel : Nat} {prev : Option Char} {cs : List Char} (h : '(' ∉ cs) (hfuel : cs.length < fuel) :
    substLenLoop expr stringLens globlNames fuel prev cs = .ok cs := by
  induction cs generalizing fuel prev with
  | nil =>
      cases fuel with
      | zero => rfl
      | succ fuel => rfl
  | cons c cs ih =>
      cases fuel with
      | zero => exact absurd hfuel (Nat.not_lt_zero _)
      | succ fuel =>
          have hnone : matchPrefix [.word ["len"], .spaces, .char '('] (c :: cs) = none :=
            matchPrefix_absent (.tail _ (.tail _ (.head _))) (absent_char h)
          have hrest : substLenLoop expr stringLens globlNames fuel (some c) cs = .ok cs :=
            ih (fun hmem => h (List.mem_cons_of_mem _ hmem)) (Nat.lt_of_succ_lt_succ hfuel)
          rw [substLenLoop, hnone]
          dsimp only
          rw [hrest]
          rfl

theorem substCharLoop_plain {expr : String} {cs : List Char} (h : '\'' ∉ cs) :
    substCharLoop expr cs = .ok cs := by
  induction cs with
  | nil => rfl
  | cons c cs ih =>
      have hc : c ≠ '\'' := fun hc => h (hc ▸ List.mem_cons_self)
      have hrest := ih fun hmem => h (List.mem_cons_of_mem _ hmem)
      rw [substCharLoop.eq_def]
      split
      · cases ‹c :: cs = []›
      · next h' => exact absurd (List.cons.inj h').1 hc
      · next h' => exact absurd (List.cons.inj h').1 hc
      · next h' =>
          obtain ⟨rfl, rfl⟩ := List.cons.inj h'
          rw [hrest]
          rfl

end Rewriting

section Numbers

variable {symbols : SymbolTable} {allowUndefined : Bool}

/-- A token that is a number. -/
structure NumberToken (t : String) (v : Number) : Prop where
  bracket : t ≠ "("
  sign : parseSign t = none
  number : parseNumber t = some v

theorem NumberToken.atom {t : String} {v : Number} (h : NumberToken t v) :
    parseAtom symbols allowUndefined t = .ok v := by
  rw [parseAtom, h.number]

/-- The value of a text that is one token, a number. -/
theorem evalExpr_number {t : String} {v : Number} (hbracket : '(' ∉ t.toList)
    (hquote : '\'' ∉ t.toList) (htokens : tokens t = [t]) (h : NumberToken t v) :
    evalExpr t symbols allowUndefined = .ok v := by
  have hlen : substLenCalls t .empty [] = .ok t := by
    rw [substLenCalls, substLenLoop_plain hbracket (Nat.lt_succ_self _), ok_bind,
      String.ofList_toList]
    rfl
  have hchar : substCharLiterals t = .ok t := by
    rw [substCharLiterals, substCharLoop_plain hquote, ok_bind, String.ofList_toList]
    rfl
  have hatom : (evaluator t symbols allowUndefined).atom t = .ok v := by
    simp only [evaluator]
    exact h.atom
  have hsign : (evaluator t symbols allowUndefined).unary t = none := by
    simp only [evaluator]
    exact h.sign
  rw [evalExpr, evalExprLens, hlen, ok_bind, hchar, ok_bind, htokens, evalTokens,
    if_neg (by simp)]
  change (expression (evaluator t symbols allowUndefined) (1 + 1) [t] >>= _) = _
  rw [expression_atom h.bracket hsign hatom]
  rfl

end Numbers

section Hexadecimal

variable {digits : List Char}

/-- A letter or a digit, by its code. -/
theorem isAlphanum_iff {c : Char} : c.isAlphanum = true ↔
    48 ≤ c.toNat ∧ c.toNat ≤ 57 ∨ 65 ≤ c.toNat ∧ c.toNat ≤ 90 ∨ 97 ≤ c.toNat ∧ c.toNat ≤ 122 := by
  have hcases : c.isAlphanum = (decide (c.val ≥ 65 ∧ c.val ≤ 90) ||
      decide (c.val ≥ 97) && decide (c.val ≤ 122) || decide (c.val ≥ 48) && decide (c.val ≤ 57)) :=
    rfl
  rw [hcases]
  simp only [Bool.or_eq_true, Bool.and_eq_true, decide_eq_true_eq, UInt32.le_iff_toNat_le,
    ge_iff_le]
  change (65 ≤ c.toNat ∧ c.toNat ≤ 90 ∨ 97 ≤ c.toNat ∧ c.toNat ≤ 122) ∨
    48 ≤ c.toNat ∧ c.toNat ≤ 57 ↔ _
  omega

theorem isSpace_alphanum {c : Char} (h : c.isAlphanum = true) : isSpace c = false := by
  rw [isAlphanum_iff] at h
  rw [Bool.eq_false_iff]
  intro hspace
  simp only [isSpace, Bool.or_eq_true, Bool.and_eq_true, decide_eq_true_eq, beq_iff_eq] at hspace
  omega

theorem isAlphanum_hexChar {c : Char} (h : hexChar c = true) : c.isAlphanum = true := by
  rw [isAlphanum_iff]
  have hA : 'A'.toNat = 65 := rfl
  have hF : 'F'.toNat = 70 := rfl
  have ha : 'a'.toNat = 97 := rfl
  have hf : 'f'.toNat = 102 := rfl
  simp only [hexChar, Char.isDigit, Bool.or_eq_true, Bool.and_eq_true, decide_eq_true_eq,
    UInt32.le_iff_toNat_le, ge_iff_le, Char.le_def] at h
  change ((48 ≤ c.toNat ∧ c.toNat ≤ 57) ∨ 65 ≤ c.toNat ∧ c.toNat ≤ 70) ∨
    97 ≤ c.toNat ∧ c.toNat ≤ 102 at h
  omega

theorem trimmed_alphanum {cs : List Char} (h : ∀ c ∈ cs, c.isAlphanum = true) : Trimmed cs :=
  ⟨fun c hc => isSpace_alphanum (h c (List.mem_of_head? hc)),
    fun c hc => isSpace_alphanum (h c (List.mem_of_getLast? hc))⟩

/-- A hexadecimal number is one token. -/
theorem tokens_hex (hne : digits ≠ []) (hhex : ∀ c ∈ digits, hexChar c = true) :
    tokens (String.ofList ('0' :: 'x' :: digits)) = [String.ofList ('0' :: 'x' :: digits)] := by
  have hplus : matchPrefix [.plus hexChar] (digits ++ []) = some ([digits], []) :=
    matchPrefix_plus (r := ([], [])) hne hhex
      (fun c (hc : c ∈ ([] : List Char).head?) => by cases hc) rfl
  rw [List.append_nil] at hplus
  have hmatch : matchPrefix [.char '0', .one fun c => c == 'x' || c == 'X', .plus hexChar]
      ('0' :: 'x' :: digits) = some ([['0'], ['x'], digits], []) := by
    rw [Item.char, ← Item.one, matchPrefix_one rfl, matchPrefix_one rfl, hplus]
    rfl
  have hsymbol : matchPrefix symbolPattern ('0' :: 'x' :: digits) = none :=
    matchPrefix_one_none rfl
  have hangle : matchPrefix [.char '>', .plus hexChar] ('0' :: 'x' :: digits) = none :=
    matchPrefix_one_none rfl
  have hnext : nextToken ('0' :: 'x' :: digits) = some ('0' :: 'x' :: digits, []) := by
    rw [nextToken, tokenPatterns, List.findSome?_cons, hsymbol, Option.map_none,
      List.findSome?_cons, hangle, Option.map_none, List.findSome?_cons, hmatch]
    simp
  rw [tokens, String.toList_ofList, List.length_cons, tokenLoop, hnext]
  rfl

theorem parseNumber_hex (hne : digits ≠ []) (hhex : ∀ c ∈ digits, hexChar c = true) :
    parseNumber (String.ofList ('0' :: 'x' :: digits)) = some (parseInt digits 16) := by
  have halphanum : ∀ c ∈ '0' :: 'x' :: digits, c.isAlphanum = true := by
    intro c hc
    rcases List.mem_cons.mp hc with rfl | hc
    · rfl
    rcases List.mem_cons.mp hc with rfl | hc
    · rfl
    exact isAlphanum_hexChar (hhex c hc)
  have htrim : trim (String.ofList ('0' :: 'x' :: digits)) =
      String.ofList ('0' :: 'x' :: digits) := by
    rw [trim, String.toList_ofList, trimChars_of_trimmed (trimmed_alphanum halphanum)]
  have hplus : matchAll [.plus hexChar] (digits ++ []) = some [digits] :=
    matchAll_plus (by simpa using hhex) hne rfl fun k hk hle => absurd hk (Nat.not_lt.mpr hle)
  rw [List.append_nil] at hplus
  have hangle : test [.char '>', .plus hexChar] (String.ofList ('0' :: 'x' :: digits)) = false := by
    rw [test, String.toList_ofList, Item.char, ← Item.one, matchAll_one_none rfl]
    rfl
  have hmatch : test [.char '0', .one fun c => c == 'x' || c == 'X', .plus hexChar]
      (String.ofList ('0' :: 'x' :: digits)) = true := by
    rw [test, String.toList_ofList, Item.char, ← Item.one, matchAll_one rfl, matchAll_one rfl,
      hplus]
    rfl
  rw [parseNumber, htrim, hangle, if_neg Bool.false_ne_true, hmatch, if_pos rfl, String.toList_ofList]
  rfl

variable {symbols : SymbolTable} {allowUndefined : Bool}

/-- The value of a hexadecimal number. -/
theorem evalExpr_hex (hne : digits ≠ []) (hhex : ∀ c ∈ digits, hexChar c = true) :
    evalExpr (String.ofList ('0' :: 'x' :: digits)) symbols allowUndefined =
      .ok (parseInt digits 16) := by
  have hnot {d : Char} (hd : hexChar d = false) (h0 : d ≠ '0') (hx : d ≠ 'x') :
      d ∉ (String.ofList ('0' :: 'x' :: digits)).toList := by
    rw [String.toList_ofList]
    intro hmem
    rcases List.mem_cons.mp hmem with rfl | hmem
    · exact h0 rfl
    rcases List.mem_cons.mp hmem with rfl | hmem
    · exact hx rfl
    rw [hhex d hmem] at hd
    cases hd
  have hother {s : String} (hs : s.toList.head? ≠ some '0') :
      String.ofList ('0' :: 'x' :: digits) ≠ s := by
    rintro rfl
    rw [String.toList_ofList] at hs
    exact hs rfl
  refine evalExpr_number (hnot rfl (by decide) (by decide)) (hnot rfl (by decide) (by decide))
    (tokens_hex hne hhex) ⟨hother (by decide), ?_, parseNumber_hex hne hhex⟩
  rw [parseSign, if_neg (hother (by decide)), if_neg (hother (by decide)),
    if_neg (hother (by decide))]

end Hexadecimal

end AsmTs
end RetroCpu
