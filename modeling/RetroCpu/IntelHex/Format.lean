import RetroCpu.EmuRs.IntelHex
import RetroCpu.EmuTs.IntelHex

/-!
# The Intel HEX format

A line is blank or holds one record: a colon and pairs of hexadecimal digits, with as many bytes
as its count says, a sum of 0 and two bytes of data in a type 02 or 04.  A text is read up to
its EOF record.
-/

namespace RetroCpu
namespace IntelHex

open EmuRs.IntelHex

section Format

/-- White space that both languages trim: Rust alone trims U+0085, JavaScript alone U+FEFF. -/
def isSpace (c : Char) : Bool := isWhitespace c && c.toNat != 0x85

/-- The bytes that pairs of digits write -/
def hexPairs : List Char → Option (List U8)
  | [] => some []
  | [_] => none
  | c :: d :: hex =>
      (toDigit16 c).bind fun x =>
        (toDigit16 d).bind fun y => (hexPairs hex).map (BitVec.ofNat 8 (x * 16 + y) :: ·)

/-- The two bytes of a type 02 or 04 -/
def readBase (shift : Nat) : List U8 → Option Line
  | [hi, lo] => some (.base (wordOf hi lo <<< shift))
  | _ => none

def readRecord : List U8 → Option Line
  | count :: hi :: lo :: typ :: rest =>
      if rest.length ≠ count.toNat + 1 ∨ !checksumOk (count :: hi :: lo :: typ :: rest) then none
      else if typ = 0x00 then some (.data (wordOf hi lo) (rest.take count.toNat))
      else if typ = 0x01 then some .eof
      else if typ = 0x02 then readBase 4 (rest.take count.toNat)
      else if typ = 0x04 then readBase 16 (rest.take count.toNat)
      else some .other
  | _ => none

/-- What a line holds; none when it is malformed. -/
def readLine (line : List Char) : Option Line :=
  match trimBy isSpace line with
  | [] => some .blank
  | colon :: hex => if colon = ':' then (hexPairs hex).bind readRecord else none

/-- The data records up to the EOF record, with their addresses -/
def readLines : List (List Char) → U32 → Option (List (U32 × List U8))
  | [], _ => none
  | line :: lines, base =>
      match readLine line with
      | none => none
      | some .eof => some []
      | some (.base base) => readLines lines base
      | some (.data addr bytes) => (readLines lines base).map ((base + addr, bytes) :: ·)
      | some _ => readLines lines base

attribute [grind =] readLines

/-- The lines of a text -/
def linesOf (text : List Char) : List (List Char) := splitLines (replaceCrLf text)

/-- The data records of a text; none when a record is malformed or there is no EOF record. -/
def readText (text : List Char) : Option (List (U32 × List U8)) := readLines (linesOf text) 0

/-- The data records that hold bytes -/
def held (records : List (U32 × List U8)) : List (U32 × List U8) :=
  records.filter fun r => !r.2.isEmpty

/-- The address behind a record, not reduced to 32 bits -/
def behind (r : U32 × List U8) : Nat := r.1.toNat + r.2.length

/-- No address and no total outgrows 32 bits. -/
structure Fits (records : List (U32 × List U8)) : Prop where
  ends : ∀ r ∈ records, behind r ≤ 2 ^ 32
  joins : records.IsChain fun r next => ¬ (behind r = 2 ^ 32 ∧ next.1 = 0)
  total : (records.map fun r => r.2.length).sum < 2 ^ 32

end Format

section Units

open EmuTs (CodeUnit)

/-- The UTF-16 form of a character -/
def utf16 (c : Char) : List CodeUnit :=
  if c.toNat < 0x10000 then [c.toNat]
  else [0xd800 + (c.toNat - 0x10000) / 0x400, 0xdc00 + (c.toNat - 0x10000) % 0x400]

/-- The string that JavaScript has of a text. -/
def unitsOf (text : List Char) : List CodeUnit := text.flatMap utf16

theorem unitsOf_cons (c : Char) (text : List Char) :
    unitsOf (c :: text) = utf16 c ++ unitsOf text := rfl

theorem unitsOf_append (a b : List Char) : unitsOf (a ++ b) = unitsOf a ++ unitsOf b :=
  List.flatMap_append

/-- A character is one unit, or two that are no other character's. -/
theorem utf16_cases (c : Char) :
    utf16 c = [c.toNat] ∨ ∃ hi lo : Nat, utf16 c = [hi, lo] ∧ 0xd800 ≤ hi ∧ 0xd800 ≤ lo := by
  rw [utf16]
  split
  · exact .inl rfl
  · have hlow : 0xd800 ≤ 0xdc00 := by decide
    exact .inr ⟨_, _, rfl, Nat.le_add_right _ _, hlow.trans (Nat.le_add_right _ _)⟩

theorem utf16_of_lt {c : Char} (h : c.toNat < 0x10000) : utf16 c = [c.toNat] := if_pos h

theorem unitsOf_of_lt {text : List Char} (h : ∀ c ∈ text, c.toNat < 0x10000) :
    unitsOf text = text.map Char.toNat := by
  induction text with
  | nil => rfl
  | cons c text ih =>
      obtain ⟨hc, hrest⟩ := List.forall_mem_cons.mp h
      rw [unitsOf_cons, utf16_of_lt hc, ih hrest]
      rfl

theorem toNat_eq_iff {c d : Char} : c.toNat = d.toNat ↔ c = d := Char.toNat_inj

theorem replaceCrLf_cons {u : Nat} (us : List CodeUnit)
    (h : u = 13 → ∀ us', us ≠ 10 :: us') :
    EmuTs.replaceCrLf (u :: us) = u :: EmuTs.replaceCrLf us := by
  rw [EmuTs.replaceCrLf]
  intro us' hu hus
  exact h hu us' hus

theorem unitsOf_ne_newline {text : List Char} (h : ∀ text', text ≠ '\n' :: text') :
    ∀ us', unitsOf text ≠ 10 :: us' := by
  intro us' heq
  cases text with
  | nil => cases heq
  | cons c text =>
      rw [unitsOf_cons] at heq
      rcases utf16_cases c with hc | ⟨hi, lo, hc, hhi, -⟩
      · rw [hc] at heq
        have hten : c.toNat = '\n'.toNat := (List.cons.inj heq).1
        exact h text (congrArg (· :: text) (toNat_eq_iff.mp hten))
      · rw [hc] at heq
        have hten : hi = 10 := (List.cons.inj heq).1
        omega

theorem replaceCrLf_unitsOf (text : List Char) :
    EmuTs.replaceCrLf (unitsOf text) = unitsOf (replaceCrLf text) := by
  induction text using replaceCrLf.induct with
  | case1 => rfl
  | case2 text ih =>
      change 10 :: EmuTs.replaceCrLf (unitsOf text) = 10 :: unitsOf (replaceCrLf text)
      rw [ih]
  | case3 c text hne ih =>
      rw [replaceCrLf, unitsOf_cons, unitsOf_cons]
      · rcases utf16_cases c with hc | ⟨hi, lo, hc, hhi, hlo⟩
        · rw [hc]
          change EmuTs.replaceCrLf (c.toNat :: unitsOf text) = c.toNat :: _
          rw [replaceCrLf_cons, ih]
          · rfl
          intro hcr
          have hc' : c = '\r' := toNat_eq_iff.mp hcr
          exact unitsOf_ne_newline fun text' htext => hne text' hc' htext
        · rw [hc]
          change EmuTs.replaceCrLf (hi :: lo :: unitsOf text) = hi :: lo :: _
          rw [replaceCrLf_cons _ (by omega), replaceCrLf_cons _ (by omega), ih]
          rfl
      · exact hne

theorem splitLines_cons {u : Nat} {us line : List CodeUnit} {lines : List (List CodeUnit)}
    (hu : u ≠ 10) (h : EmuTs.splitLines us = line :: lines) :
    EmuTs.splitLines (u :: us) = (u :: line) :: lines := by
  rw [EmuTs.splitLines, if_neg hu, h]

theorem splitLines_ne_nil (text : List Char) : splitLines text ≠ [] := by
  cases text with
  | nil => exact List.cons_ne_nil _ _
  | cons c text =>
      rw [splitLines]
      split
      · exact List.cons_ne_nil _ _
      · split <;> exact List.cons_ne_nil _ _

theorem splitLines_unitsOf (text : List Char) :
    EmuTs.splitLines (unitsOf text) = (splitLines text).map unitsOf := by
  induction text with
  | nil => rfl
  | cons c text ih =>
      rw [unitsOf_cons, splitLines]
      by_cases hnl : c = '\n'
      · rw [if_pos hnl, hnl]
        change [] :: EmuTs.splitLines (unitsOf text) = _
        rw [ih]
        rfl
      · rw [if_neg hnl]
        cases hlines : splitLines text with
        | nil => exact absurd hlines (splitLines_ne_nil text)
        | cons line lines =>
            rw [hlines] at ih
            dsimp only
            rcases utf16_cases c with hc | ⟨hi, lo, hc, hhi, hlo⟩
            · have hten : c.toNat ≠ 10 := fun h => hnl (toNat_eq_iff.mp h)
              rw [hc, List.map_cons, unitsOf_cons, hc]
              exact splitLines_cons hten ih
            · rw [hc, List.map_cons, unitsOf_cons, hc]
              exact splitLines_cons (by omega) (splitLines_cons (by omega) ih)

/-- Both languages see the same lines. -/
theorem linesOf_unitsOf (text : List Char) :
    EmuTs.splitLines (EmuTs.replaceCrLf (unitsOf text)) = (linesOf text).map unitsOf := by
  rw [replaceCrLf_unitsOf, splitLines_unitsOf]
  rfl

end Units

end IntelHex
end RetroCpu
