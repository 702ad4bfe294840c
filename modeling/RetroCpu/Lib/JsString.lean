/-!
# JavaScript strings and sequence patterns

Strings are lists of characters behind `String`.  `trim` removes the white space of the
language; `toUpperCase` is exact on every character whose upper case has an ASCII letter,
and keeps the others, which no table of names contains.

A pattern is a sequence of items: a greedily repeated character class, or one of several
words.  `matchAll` matches a whole input and `matchPrefix` a prefix of it, with the
backtracking order of a regular expression, and both return the segment that each item has
matched.
-/

namespace RetroCpu
namespace Js

section Strings

/-- White space and line terminators. -/
def isSpace (c : Char) : Bool :=
  let n := c.toNat
  (9 ≤ n && n ≤ 13) || n == 0x20 || n == 0xa0 || n == 0x1680 || (0x2000 ≤ n && n ≤ 0x200a) ||
    n == 0x2028 || n == 0x2029 || n == 0x202f || n == 0x205f || n == 0x3000 || n == 0xfeff

def trimChars (cs : List Char) : List Char :=
  ((cs.dropWhile isSpace).reverse.dropWhile isSpace).reverse

def trim (s : String) : String := String.ofList (trimChars s.toList)

/-- Upper case of one character. -/
def upperChar (c : Char) : List Char :=
  match c.toNat with
  | 0xdf => ['S', 'S']
  | 0x131 => ['I']
  | 0x17f => ['S']
  | 0xfb00 => ['F', 'F']
  | 0xfb01 => ['F', 'I']
  | 0xfb02 => ['F', 'L']
  | 0xfb03 => ['F', 'F', 'I']
  | 0xfb04 => ['F', 'F', 'L']
  | 0xfb05 => ['S', 'T']
  | 0xfb06 => ['S', 'T']
  | _ => [c.toUpper]

def toUpperCase (s : String) : String := String.ofList (s.toList.flatMap upperChar)

/-- The pieces between the separators. -/
def pieces (sep : Char → Bool) : List Char → List (List Char)
  | [] => [[]]
  | c :: cs =>
      if sep c then [] :: pieces sep cs
      else
        match pieces sep cs with
        | [] => [[c]]
        | w :: ws => (c :: w) :: ws

attribute [grind =] pieces

/-- The pieces that are not empty. -/
def words (sep : Char → Bool) (cs : List Char) : List (List Char) :=
  (pieces sep cs).filter (!·.isEmpty)

/-- The UTF-16 code units, by which strings are sorted. -/
def codeUnits (s : String) : List Nat :=
  s.toList.flatMap fun c =>
    if c.toNat < 0x10000 then [c.toNat]
    else [0xd800 + (c.toNat - 0x10000) / 0x400, 0xdc00 + (c.toNat - 0x10000) % 0x400]

/-- `s.startsWith(c)` for a string of one character -/
def startsWith (s : String) (c : Char) : Bool := s.toList.head? == some c

/-- `s.endsWith(c)` for a string of one character -/
def endsWith (s : String) (c : Char) : Bool := s.toList.getLast? == some c

/-- `s.slice(1)` -/
def tail (s : String) : String := String.ofList (s.toList.drop 1)

/-- `s.slice(1, -1)` -/
def inner (s : String) : String := String.ofList (s.toList.drop 1).dropLast

end Strings

section Case

/-- Upper case moves the small letters only. -/
theorem toUpper_cases (c : Char) :
    c.toUpper = c ∨ c.toUpper ∈ "ABCDEFGHIJKLMNOPQRSTUVWXYZ".toList := by
  by_cases h : 97 ≤ c.toNat ∧ c.toNat ≤ 122
  · right
    have hc : c = Char.ofNat c.toNat := (Char.ofNat_toNat c).symm
    have key : ∀ n : Fin 26,
        (Char.ofNat (97 + n)).toUpper ∈ "ABCDEFGHIJKLMNOPQRSTUVWXYZ".toList := by decide
    have := key ⟨c.toNat - 97, by omega⟩
    rw [hc]
    simpa [show 97 + (c.toNat - 97) = c.toNat by omega] using this
  · left
    unfold Char.toUpper
    rw [dif_neg]
    rintro ⟨h1, h2⟩
    exact h ⟨UInt32.le_iff_toNat_le.mp h1, UInt32.le_iff_toNat_le.mp h2⟩

/-- Decide a property of the characters of a text over the text, not over all characters. -/
theorem forall_mem_of_all {α : Type} {l : List α} {p : α → Prop} [DecidablePred p]
    (h : l.all (fun a => decide (p a)) = true) : ∀ a ∈ l, p a :=
  fun a ha => of_decide_eq_true (List.all_eq_true.mp h a ha)

theorem flatMap_upperChar (c : Char) : (upperChar c).flatMap upperChar = upperChar c := by
  unfold upperChar
  split
  all_goals try decide
  rcases toUpper_cases c with h | h
  · simp only [h, List.flatMap_cons, List.flatMap_nil, List.append_nil]
  · have key : ∀ d ∈ "ABCDEFGHIJKLMNOPQRSTUVWXYZ".toList, upperChar d = [d] :=
      forall_mem_of_all (by decide)
    have := key _ h
    simpa [upperChar] using this

theorem toUpperCase_idem (s : String) : toUpperCase (toUpperCase s) = toUpperCase s := by
  simp only [toUpperCase, String.toList_ofList, List.flatMap_assoc, flatMap_upperChar]

theorem upperChar_ne_nil (c : Char) : upperChar c ≠ [] := by
  unfold upperChar
  split <;> simp

theorem isSpace_upperChar {c d : Char} (hc : isSpace c = false) (hd : d ∈ upperChar c) :
    isSpace d = false := by
  unfold upperChar at hd
  split at hd
  case h_11 =>
      obtain rfl := List.mem_singleton.mp hd
      rcases toUpper_cases c with h | h
      · rwa [h]
      · have key : ∀ d ∈ "ABCDEFGHIJKLMNOPQRSTUVWXYZ".toList, isSpace d = false :=
          forall_mem_of_all (by decide)
        exact key _ h
  all_goals exact forall_mem_of_all (p := fun d => isSpace d = false) (by decide) d hd

/-- Nothing to trim at either end. -/
def Trimmed (cs : List Char) : Prop :=
  (∀ c ∈ cs.head?, isSpace c = false) ∧ ∀ c ∈ cs.getLast?, isSpace c = false

theorem trimChars_of_trimmed {cs : List Char} (h : Trimmed cs) : trimChars cs = cs := by
  obtain ⟨hhead, hlast⟩ := h
  have h1 : cs.dropWhile isSpace = cs := by
    cases cs with
    | nil => rfl
    | cons c cs => exact List.dropWhile_cons_of_neg (by simp [hhead c rfl])
  have h2 : cs.reverse.dropWhile isSpace = cs.reverse := by
    rw [← List.head?_reverse] at hlast
    cases hr : cs.reverse with
    | nil => rfl
    | cons c r =>
        rw [hr] at hlast
        exact List.dropWhile_cons_of_neg (by simp [hlast c rfl])
  rw [trimChars, h1, h2, List.reverse_reverse]

theorem head_dropWhile (l : List Char) :
    ∀ c ∈ (l.dropWhile isSpace).head?, isSpace c = false := by
  induction l with
  | nil => simp
  | cons a l ih =>
      by_cases ha : isSpace a = true
      · rwa [List.dropWhile_cons_of_pos ha]
      · rw [List.dropWhile_cons_of_neg ha]
        simpa using ha

theorem trimmed_trimChars (cs : List Char) : Trimmed (trimChars cs) := by
  constructor
  · intro c hc
    unfold trimChars at hc
    rw [List.head?_reverse] at hc
    obtain ⟨t, ht⟩ := List.dropWhile_suffix isSpace (l := (cs.dropWhile isSpace).reverse)
    refine head_dropWhile cs c ?_
    rw [← List.getLast?_reverse, ← ht, Option.mem_def, List.getLast?_append, hc]
    rfl
  · intro c hc
    unfold trimChars at hc
    rw [List.getLast?_reverse] at hc
    exact head_dropWhile _ c hc

theorem trimmed_flatMap_upperChar {cs : List Char} (h : Trimmed cs) :
    Trimmed (cs.flatMap upperChar) := by
  obtain ⟨hhead, hlast⟩ := h
  constructor
  · intro c hc
    cases cs with
    | nil => simp at hc
    | cons a cs =>
        have ha := hhead a rfl
        cases hu : upperChar a with
        | nil => exact absurd hu (upperChar_ne_nil a)
        | cons d ds =>
            simp [hu] at hc
            subst hc
            exact isSpace_upperChar ha (by simp [hu])
  · intro c hc
    rcases List.eq_nil_or_concat cs with rfl | ⟨l, a, rfl⟩
    · simp at hc
    · have ha := hlast a (by simp)
      rw [List.concat_eq_append, List.flatMap_append, List.flatMap_singleton,
        List.getLast?_append] at hc
      cases hu : (upperChar a).getLast? with
      | none => exact absurd (List.getLast?_eq_none_iff.mp hu) (upperChar_ne_nil a)
      | some d =>
          rw [hu] at hc
          cases hc
          exact isSpace_upperChar ha (List.mem_of_getLast? hu)

theorem trim_toUpperCase_trim (s : String) :
    trim (toUpperCase (trim s)) = toUpperCase (trim s) := by
  have h := trimmed_flatMap_upperChar (trimmed_trimChars s.toList)
  simp only [trim, toUpperCase, String.toList_ofList]
  rw [trimChars_of_trimmed h]

end Case

section Classes

/-- `.` -/
def anyChar (c : Char) : Bool :=
  !(c == '\n' || c == '\r' || c.toNat == 0x2028 || c.toNat == 0x2029)

/-- `[A-Za-z_]` -/
def nameStart (c : Char) : Bool := c.isAlpha || c == '_'

/-- `[A-Za-z0-9_]` -/
def namePart (c : Char) : Bool := c.isAlphanum || c == '_'

/-- `[A-Za-z_.$]` -/
def symbolStart (c : Char) : Bool := c.isAlpha || c == '_' || c == '.' || c == '$'

/-- `[A-Za-z0-9_.$]` -/
def symbolPart (c : Char) : Bool := c.isAlphanum || c == '_' || c == '.' || c == '$'

/-- `[0-9A-Fa-f]` -/
def hexChar (c : Char) : Bool := c.isDigit || ('A' ≤ c && c ≤ 'F') || ('a' ≤ c && c ≤ 'f')

/-- `[0-7]` -/
def octalChar (c : Char) : Bool := '0' ≤ c && c ≤ '7'

/-- `[01]` -/
def binaryChar (c : Char) : Bool := c == '0' || c == '1'

end Classes

section Patterns

/-- An item of a pattern. -/
inductive Item
  /-- A class repeated `lo` to `hi` times, as often as possible. -/
  | run (p : Char → Bool) (lo : Nat) (hi : Option Nat)
  /-- One of several words, upper and lower case alike. -/
  | word (ws : List String)

namespace Item

/-- The character `c`. -/
def char (c : Char) : Item := run (· == c) 1 (some 1)

/-- One character of a class. -/
def one (p : Char → Bool) : Item := run p 1 (some 1)

/-- `p*` -/
def star (p : Char → Bool) : Item := run p 0 none

/-- `p+` -/
def plus (p : Char → Bool) : Item := run p 1 none

/-- `p?` -/
def opt (p : Char → Bool) : Item := run p 0 (some 1)

/-- `\s*` -/
def spaces : Item := star isSpace

def sameWord (w : String) (cs : List Char) : Bool :=
  w.toList.map Char.toLower == cs.map Char.toLower

/-- What the item can take from the front of the input, the preferred split first. -/
def splits : Item → List Char → List (List Char × List Char)
  | run p lo hi, cs =>
      let longest := (cs.takeWhile p).length
      let top := (hi.map (min longest)).getD longest
      (List.range' lo (top + 1 - lo)).reverse.map fun k => (cs.take k, cs.drop k)
  | word ws, cs =>
      (ws.filter fun w => sameWord w (cs.take w.length)).map fun w =>
        (cs.take w.length, cs.drop w.length)

end Item

/-- The segments of the first match of the whole input. -/
def matchAll : List Item → List Char → Option (List (List Char))
  | [], [] => some []
  | [], _ :: _ => none
  | item :: items, cs =>
      (item.splits cs).findSome? fun split => (matchAll items split.2).map (split.1 :: ·)

/-- The segments of the first match at the front of the input, and the rest. -/
def matchPrefix : List Item → List Char → Option (List (List Char) × List Char)
  | [], cs => some ([], cs)
  | item :: items, cs =>
      (item.splits cs).findSome? fun split =>
        (matchPrefix items split.2).map fun r => (split.1 :: r.1, r.2)

/-- `/^…$/.exec(s)`; a group is given by the places of its items. -/
def exec (items : List Item) (groups : List (List Nat)) (s : String) : Option (List String) :=
  (matchAll items s.toList).map fun segments =>
    groups.map fun group => String.ofList (group.flatMap fun i => segments.getD i [])

/-- `/^…$/.test(s)` -/
def test (items : List Item) (s : String) : Bool := (matchAll items s.toList).isSome

theorem mem_splits_run {p : Char → Bool} {lo : Nat} {hi : Option Nat} {cs : List Char}
    {split : List Char × List Char} (h : split ∈ (Item.run p lo hi).splits cs) :
    cs = split.1 ++ split.2 ∧ (∀ c ∈ split.1, p c = true) ∧ lo ≤ split.1.length := by
  simp only [Item.splits, List.mem_map, List.mem_reverse, List.mem_range'_1] at h
  obtain ⟨k, ⟨hlo, hk⟩, rfl⟩ := h
  have htop : (hi.map (min (cs.takeWhile p).length)).getD (cs.takeWhile p).length ≤
      (cs.takeWhile p).length := by
    cases hi with
    | none => exact Nat.le_refl _
    | some m => exact Nat.min_le_left _ _
  have hkle : k ≤ (cs.takeWhile p).length := by omega
  have htake : cs.take k = (cs.takeWhile p).take k := by
    conv => lhs; rw [← List.takeWhile_append_dropWhile (p := p) (l := cs)]
    rw [List.take_append_of_le_length hkle]
  refine ⟨(List.take_append_drop k cs).symm, ?_, ?_⟩
  · intro c hc
    rw [htake] at hc
    exact List.all_eq_true.mp List.all_takeWhile c (List.mem_of_mem_take hc)
  · rw [htake, List.length_take]
    omega

/-- An item takes a front of the input. -/
theorem mem_splits {item : Item} {cs : List Char} {split : List Char × List Char}
    (h : split ∈ item.splits cs) : cs = split.1 ++ split.2 := by
  cases item with
  | run p lo hi => exact (mem_splits_run h).1
  | word ws =>
      obtain ⟨w, _, rfl⟩ := List.mem_map.mp h
      exact (List.take_append_drop _ _).symm

theorem matchPrefix_append {items : List Item} {cs : List Char}
    {r : List (List Char) × List Char} (h : matchPrefix items cs = some r) :
    cs = r.1.flatten ++ r.2 := by
  induction items generalizing cs r with
  | nil =>
      cases h
      rfl
  | cons item items ih =>
      rw [matchPrefix, List.findSome?_eq_some_iff] at h
      obtain ⟨_, split, _, hsplits, hmatch, _⟩ := h
      have hmem : split ∈ item.splits cs := by
        rw [hsplits]
        simp
      obtain ⟨r', hr', rfl⟩ := Option.map_eq_some_iff.mp hmatch
      rw [List.flatten_cons, List.append_assoc, ← ih hr']
      exact mem_splits hmem

/-- A match of a character and a repeated character. -/
theorem matchAll_one_star {p q : Char → Bool} {cs : List Char}
    (h : (matchAll [.one p, .star q] cs).isSome = true) :
    ∃ c rest, cs = c :: rest ∧ p c = true ∧ ∀ d ∈ rest, q d = true := by
  obtain ⟨segments, h⟩ := Option.isSome_iff_exists.mp h
  rw [matchAll, List.findSome?_eq_some_iff] at h
  obtain ⟨_, split, _, hsplits, hmatch, _⟩ := h
  have hmem : split ∈ (Item.one p).splits cs := by
    rw [hsplits]
    simp
  obtain ⟨hcs, hp, hlen⟩ := mem_splits_run hmem
  have hlen1 : split.1.length ≤ 1 := by
    simp only [Item.one, Item.splits, List.mem_map, List.mem_reverse, List.mem_range'_1] at hmem
    obtain ⟨k, ⟨_, hk⟩, rfl⟩ := hmem
    simp only [Option.map_some, Option.getD_some] at hk
    rw [List.length_take]
    omega
  obtain ⟨c, hc⟩ : ∃ c, split.1 = [c] := List.length_eq_one_iff.mp (by omega)
  obtain ⟨rest, hrest, _⟩ := Option.map_eq_some_iff.mp hmatch
  rw [matchAll, List.findSome?_eq_some_iff] at hrest
  obtain ⟨_, split', _, hsplits', hmatch', _⟩ := hrest
  have hmem' : split' ∈ (Item.star q).splits split.2 := by
    rw [hsplits']
    simp
  obtain ⟨hcs', hq, _⟩ := mem_splits_run hmem'
  have hnil : split'.2 = [] := by
    cases hs : split'.2 with
    | nil => rfl
    | cons d ds =>
        rw [hs] at hmatch'
        cases hmatch'
  refine ⟨c, split.2, by rw [hcs, hc]; rfl, hp c (by simp [hc]), ?_⟩
  rw [hcs', hnil, List.append_nil]
  exact hq

example : matchAll [.plus anyChar, .char '(', .spaces, .one nameStart, .char ')'] "5( X)".toList =
    some ["5".toList, "(".toList, " ".toList, "X".toList, ")".toList] := by decide

end Patterns

end Js
end RetroCpu
