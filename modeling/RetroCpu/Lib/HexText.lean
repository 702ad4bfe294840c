import RetroCpu.Lib.JsArith
import RetroCpu.Lib.JsString

/-!
# Hexadecimal fields in lines of text

Numbers are written with a fixed number of upper-case hexadecimal digits, joined to lines
by single spaces, and the lines to a text.  Reading splits the text into lines, trims them,
splits them at white space and reads each field as a hexadecimal number.
-/

namespace RetroCpu
namespace Js

section Digits

/-- A digit of `toString(16).toUpperCase()`. -/
def hexDigit (n : Nat) : Char := "0123456789ABCDEF".toList.getD n '0'

/-- The last `width` hexadecimal digits of `n`. -/
def hexPad : Nat → Nat → List Char
  | 0, _ => []
  | width + 1, n => hexPad width (n / 16) ++ [hexDigit (n % 16)]

/-- `n.toString(16).toUpperCase()` -/
def hexUpper (n : Nat) : List Char :=
  if _h : n < 16 then [hexDigit n] else hexUpper (n / 16) ++ [hexDigit (n % 16)]

/-- The value of a hexadecimal digit. -/
def hexDigitValue (c : Char) : Nat :=
  if c.isDigit then c.toNat - '0'.toNat
  else if 'a' ≤ c && c ≤ 'f' then c.toNat - 'a'.toNat + 10
  else c.toNat - 'A'.toNat + 10

/-- The digits at the front of `cs`, read to base 16; `NaN` where there is none. -/
def parseDigits16 (cs : List Char) : Number :=
  let digits := cs.takeWhile hexChar
  if digits.isEmpty then .nan
  else .ofInt (digits.foldl (fun v c => v * 16 + hexDigitValue c) 0 : Nat)

/-- `parseInt(s, 16)` of a field without white space -/
def parseInt16 (cs : List Char) : Number :=
  let (negative, cs) : Bool × List Char :=
    match cs with
    | '-' :: rest => (true, rest)
    | '+' :: rest => (false, rest)
    | _ => (false, cs)
  let cs :=
    match cs with
    | '0' :: 'x' :: rest => rest
    | '0' :: 'X' :: rest => rest
    | _ => cs
  let v := parseDigits16 cs
  if negative then v.neg else v

end Digits

section Lines

/-- Fields joined by one space. -/
def joinFields : List (List Char) → List Char
  | [] => []
  | [f] => f
  | f :: g :: fs => f ++ ' ' :: joinFields (g :: fs)

/-- Lines, each ended by a line feed. -/
def joinLines (lines : List (List Char)) : List Char := lines.flatMap fun l => l ++ ['\n']

/-- The trimmed lines; a carriage return before a line feed falls to the trimming. -/
def trimmedLines (cs : List Char) : List (List Char) := (pieces (· == '\n') cs).map trimChars

end Lines

section ReadDigits

theorem hexDigit_spec : ∀ n : Fin 16, hexChar (hexDigit n) = true ∧ hexDigitValue (hexDigit n) = n := by
  decide

theorem hexDigit_mod (n : Nat) :
    hexChar (hexDigit (n % 16)) = true ∧ hexDigitValue (hexDigit (n % 16)) = n % 16 :=
  hexDigit_spec ⟨n % 16, Nat.mod_lt _ (by decide)⟩

theorem length_hexPad (width n : Nat) : (hexPad width n).length = width := by
  induction width generalizing n with
  | zero => rfl
  | succ width ih => simp [hexPad, ih]

theorem hexChar_hexPad {width n : Nat} : ∀ c ∈ hexPad width n, hexChar c = true := by
  induction width generalizing n with
  | zero =>
      intro c hc
      cases hc
  | succ width ih =>
      intro c hc
      rcases List.mem_append.mp hc with hc | hc
      · exact ih c hc
      · obtain rfl := List.mem_singleton.mp hc
        exact (hexDigit_mod n).1

theorem hexChar_hexUpper (n : Nat) : ∀ c ∈ hexUpper n, hexChar c = true := by
  induction n using Nat.strongRecOn with
  | ind n ih =>
      intro c hc
      have hdigit := (hexDigit_mod n).1
      rw [hexUpper] at hc
      split at hc
      · rename_i hn
        rw [List.mem_singleton.mp hc]
        rwa [Nat.mod_eq_of_lt hn] at hdigit
      · rename_i hn
        rcases List.mem_append.mp hc with hc | hc
        · exact ih (n / 16) (Nat.div_lt_self (by omega) (by decide)) c hc
        · rw [List.mem_singleton.mp hc]
          exact hdigit

theorem foldl_hexPad (width n : Nat) :
    (hexPad width n).foldl (fun v c => v * 16 + hexDigitValue c) 0 = n % 16 ^ width := by
  induction width generalizing n with
  | zero => simp [hexPad, Nat.mod_one]
  | succ width ih =>
      rw [hexPad, List.foldl_append, ih]
      simp only [List.foldl_cons, List.foldl_nil, (hexDigit_mod n).2]
      rw [Nat.pow_succ, Nat.mul_comm (16 ^ width), Nat.mod_mul]
      omega

/-- A hexadecimal digit is none of the characters that `parseInt` treats by themselves. -/
theorem hexChar_plain {c : Char} (h : hexChar c = true) :
    c ≠ '-' ∧ c ≠ '+' ∧ c ≠ 'x' ∧ c ≠ 'X' ∧ c ≠ '\n' ∧ isSpace c = false := by
  have hrange : 48 ≤ c.toNat ∧ c.toNat ≤ 57 ∨ 65 ≤ c.toNat ∧ c.toNat ≤ 70 ∨
      97 ≤ c.toNat ∧ c.toNat ≤ 102 := by
    simp only [hexChar, Char.isDigit, Bool.or_eq_true, Bool.and_eq_true, decide_eq_true_eq] at h
    rcases h with (⟨h1, h2⟩ | ⟨h1, h2⟩) | ⟨h1, h2⟩
    · exact .inl ⟨UInt32.le_iff_toNat_le.mp h1, UInt32.le_iff_toNat_le.mp h2⟩
    · exact .inr (.inl ⟨UInt32.le_iff_toNat_le.mp h1, UInt32.le_iff_toNat_le.mp h2⟩)
    · exact .inr (.inr ⟨UInt32.le_iff_toNat_le.mp h1, UInt32.le_iff_toNat_le.mp h2⟩)
  have hne : ∀ d : Char, d.toNat ≠ c.toNat → c ≠ d := by
    rintro d hd rfl
    exact hd rfl
  refine ⟨hne _ ?_, hne _ ?_, hne _ ?_, hne _ ?_, hne _ ?_, ?_⟩
  · have : ('-' : Char).toNat = 45 := rfl
    omega
  · have : ('+' : Char).toNat = 43 := rfl
    omega
  · have : ('x' : Char).toNat = 120 := rfl
    omega
  · have : ('X' : Char).toNat = 88 := rfl
    omega
  · have : ('\n' : Char).toNat = 10 := rfl
    omega
  · simp only [isSpace, Bool.or_eq_false_iff, Bool.and_eq_false_iff, decide_eq_false_iff_not,
      beq_eq_false_iff_ne]
    omega

theorem takeWhile_hexChar {cs : List Char} (h : ∀ c ∈ cs, hexChar c = true) :
    cs.takeWhile hexChar = cs := by
  induction cs with
  | nil => rfl
  | cons c cs ih =>
      rw [List.takeWhile_cons_of_pos (h c (by simp)), ih fun d hd => h d (by simp [hd])]

/-- Reading undoes writing. -/
theorem parseInt16_hexPad {width n : Nat} (hw : 0 < width) (hn : n < 2 ^ 53) :
    parseInt16 (hexPad width n) = .int (n % 16 ^ width : Nat) := by
  have hhex : ∀ c ∈ hexPad width n, hexChar c = true := hexChar_hexPad
  have hlen := length_hexPad width n
  have hvalue := foldl_hexPad width n
  generalize hexPad width n = cs at hhex hlen hvalue
  have hdigits : parseDigits16 cs = .int (n % 16 ^ width : Nat) := by
    unfold parseDigits16
    dsimp only
    rw [takeWhile_hexChar hhex, hvalue]
    have hempty : cs.isEmpty = false := by
      cases cs with
      | nil =>
          rw [List.length_nil] at hlen
          omega
      | cons c cs => rfl
    simp only [hempty, Bool.false_eq_true, if_false]
    rw [Number.ofInt_of_small]
    have := Nat.mod_le n (16 ^ width)
    omega
  cases cs with
  | nil =>
      rw [List.length_nil] at hlen
      omega
  | cons c cs =>
      obtain ⟨hminus, hplus, _⟩ := hexChar_plain (hhex c (by simp))
      unfold parseInt16
      split
      rename_i neg cs' heq
      split at heq
      · exact absurd (by simp_all) hminus
      · exact absurd (by simp_all) hplus
      · cases heq
        split
        · rename_i rest h0
          have := hhex 'x' (by rw [h0]; simp)
          exact absurd this (by decide)
        · rename_i rest h0
          have := hhex 'X' (by rw [h0]; simp)
          exact absurd this (by decide)
        · simpa using hdigits

end ReadDigits

section ReadLines

variable {sep : Char → Bool}

theorem pieces_ne_nil (cs : List Char) : pieces sep cs ≠ [] := by
  cases cs with
  | nil => simp [pieces]
  | cons c cs =>
      unfold pieces
      split
      · simp
      · split
        · simp
        · simp

theorem pieces_append {c : Char} (hc : sep c = true) (a b : List Char) :
    pieces sep (a ++ c :: b) = pieces sep a ++ pieces sep b := by
  induction a with
  | nil => simp [pieces, hc]
  | cons d a ih =>
      by_cases hd : sep d = true
      · simp [pieces, hd, ih]
      · simp only [List.cons_append, pieces, hd, Bool.false_eq_true, if_false, ih]
        cases hp : pieces sep a with
        | nil => exact absurd hp (pieces_ne_nil a)
        | cons w ws => rfl

theorem pieces_of_forall {cs : List Char} (h : ∀ c ∈ cs, sep c = false) :
    pieces sep cs = [cs] := by
  induction cs with
  | nil => rfl
  | cons c cs ih =>
      simp only [pieces, h c (by simp), Bool.false_eq_true, if_false,
        ih fun d hd => h d (by simp [hd])]

theorem words_append {c : Char} (hc : sep c = true) (a b : List Char) :
    words sep (a ++ c :: b) = words sep a ++ words sep b := by
  rw [words, pieces_append hc, List.filter_append]
  rfl

theorem words_of_forall {cs : List Char} (hne : cs ≠ []) (h : ∀ c ∈ cs, sep c = false) :
    words sep cs = [cs] := by
  have hempty : cs.isEmpty = false := by
    cases cs with
    | nil => exact absurd rfl hne
    | cons c cs => rfl
  rw [words, pieces_of_forall h]
  simp [hempty]

theorem words_cons_sep {c : Char} (hc : sep c = true) (cs : List Char) :
    words sep (c :: cs) = words sep cs := by
  have h := words_append hc [] cs
  simpa [words, pieces] using h

theorem words_concat_sep {c : Char} (hc : sep c = true) (cs : List Char) :
    words sep (cs ++ [c]) = words sep cs := by
  have h := words_append hc cs []
  simpa [words, pieces] using h

theorem words_dropWhile (cs : List Char) : words sep (cs.dropWhile sep) = words sep cs := by
  induction cs with
  | nil => rfl
  | cons c cs ih =>
      by_cases hc : sep c = true
      · rw [List.dropWhile_cons_of_pos hc, ih, words_cons_sep hc]
      · rw [List.dropWhile_cons_of_neg hc]

theorem words_dropWhile_reverse (cs : List Char) :
    words sep (cs.reverse.dropWhile sep).reverse = words sep cs := by
  rw [← List.reverse_reverse cs]
  generalize cs.reverse = rs
  rw [List.reverse_reverse]
  induction rs with
  | nil => rfl
  | cons c rs ih =>
      by_cases hc : sep c = true
      · rw [List.dropWhile_cons_of_pos hc, ih, List.reverse_cons, words_concat_sep hc]
      · rw [List.dropWhile_cons_of_neg hc]

theorem words_trimChars (cs : List Char) : words isSpace (trimChars cs) = words isSpace cs := by
  rw [trimChars, words_dropWhile_reverse, words_dropWhile]

theorem words_joinFields (fields : List (List Char)) :
    words isSpace (joinFields fields) = fields.flatMap (words isSpace) := by
  induction fields with
  | nil => rfl
  | cons f fs ih =>
      cases fs with
      | nil => simp [joinFields]
      | cons g gs =>
          have hspace : isSpace ' ' = true := by decide
          rw [joinFields, words_append hspace, ih]
          simp only [List.flatMap_cons]

theorem pieces_joinLines {lines : List (List Char)} (h : ∀ l ∈ lines, '\n' ∉ l) :
    pieces (· == '\n') (joinLines lines) = lines ++ [[]] := by
  induction lines with
  | nil => rfl
  | cons l ls ih =>
      have hl : ∀ c ∈ l, (c == '\n') = false := by
        intro c hc
        have hne : c ≠ '\n' := by
          rintro rfl
          exact h l (by simp) hc
        simpa using hne
      have hjoin : joinLines (l :: ls) = l ++ '\n' :: joinLines ls := by
        simp [joinLines]
      rw [hjoin, pieces_append (by simp), pieces_of_forall hl,
        ih fun l' hl' => h l' (by simp [hl'])]
      rfl

theorem mem_joinFields {fields : List (List Char)} {c : Char} (h : c ∈ joinFields fields) :
    c = ' ' ∨ ∃ f ∈ fields, c ∈ f := by
  induction fields with
  | nil => cases h
  | cons f fs ih =>
      cases fs with
      | nil => exact .inr ⟨f, by simp, h⟩
      | cons g gs =>
          rw [joinFields, List.mem_append, List.mem_cons] at h
          rcases h with h | h | h
          · exact .inr ⟨f, by simp, h⟩
          · exact .inl h
          · rcases ih h with h | ⟨f', hf', h⟩
            · exact .inl h
            · exact .inr ⟨f', by simp [hf'], h⟩

end ReadLines

end Js
end RetroCpu
