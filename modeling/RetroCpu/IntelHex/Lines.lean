import Mathlib.Data.List.TakeWhile
import RetroCpu.IntelHex.Format

/-!
# A well-formed line in both loaders

Each loader reads a well-formed line as the format does; the numbers of the TypeScript loader
are the signed values of the words of the Rust loader.
-/

namespace RetroCpu
namespace IntelHex

open EmuRs.IntelHex
open EmuTs (CodeUnit JsByte)

section Trim

variable {α : Type} {p : α → Bool}

/-- What a trim leaves out is at the two ends. -/
theorem trimBy_split (p : α → Bool) (l : List α) :
    ∃ front back, l = front ++ (trimBy p l ++ back) ∧ (∀ c ∈ front, p c = true) ∧
      ∀ c ∈ back, p c = true := by
  refine ⟨l.takeWhile p, ((l.dropWhile p).reverse.takeWhile p).reverse, ?_, ?_, ?_⟩
  · rw [trimBy, ← List.reverse_append, List.takeWhile_append_dropWhile, List.reverse_reverse,
      List.takeWhile_append_dropWhile]
  · exact fun c hc => List.mem_takeWhile_imp hc
  · exact fun c hc => List.mem_takeWhile_imp (List.mem_reverse.mp hc)

theorem dropWhile_all {l : List α} (h : ∀ c ∈ l, p c = true) : l.dropWhile p = [] := by
  rw [List.dropWhile_eq_nil_iff]
  exact h

theorem dropWhile_none {l : List α} (h : ∀ c ∈ l, p c = false) : l.dropWhile p = l := by
  cases l with
  | nil => rfl
  | cons c l =>
      rw [List.dropWhile_cons_of_neg]
      rw [h c List.mem_cons_self]
      exact Bool.false_ne_true

theorem trimBy_around {front t back : List α} (hfront : ∀ c ∈ front, p c = true)
    (hback : ∀ c ∈ back, p c = true) (ht : ∀ c ∈ t, p c = false) :
    trimBy p (front ++ (t ++ back)) = t := by
  rw [trimBy, List.dropWhile_append_of_pos hfront]
  cases t with
  | nil =>
      rw [List.nil_append, dropWhile_all hback]
      rfl
  | cons c t =>
      have hc : p c = false := ht c List.mem_cons_self
      rw [List.cons_append, List.dropWhile_cons_of_neg (by rw [hc]; exact Bool.false_ne_true),
        ← List.cons_append, List.reverse_append,
        List.dropWhile_append_of_pos fun d hd => hback d (List.mem_reverse.mp hd),
        dropWhile_none fun d hd => ht d (List.mem_reverse.mp hd), List.reverse_reverse]

end Trim

section Characters

variable {c : Char} {hex line : List Char}

/-- A visible ASCII character -/
def Visible (c : Char) : Prop := 33 ≤ c.toNat ∧ c.toNat ≤ 126

theorem isSpaceUnit_iff (n : Nat) :
    EmuTs.isSpaceUnit n = true ↔ (9 ≤ n ∧ n ≤ 13) ∨ n = 0x20 ∨ n = 0xa0 ∨ n = 0x1680 ∨
      (0x2000 ≤ n ∧ n ≤ 0x200a) ∨ n = 0x2028 ∨ n = 0x2029 ∨ n = 0x202f ∨ n = 0x205f ∨
      n = 0x3000 ∨ n = 0xfeff := by
  simp only [EmuTs.isSpaceUnit, Bool.or_eq_true, Bool.and_eq_true, decide_eq_true_eq, beq_iff_eq,
    or_assoc]

theorem Visible.not_isSpaceUnit (h : Visible c) : EmuTs.isSpaceUnit c.toNat = false := by
  obtain ⟨hlow, hhigh⟩ := h
  rw [Bool.eq_false_iff]
  intro hs
  rw [isSpaceUnit_iff] at hs
  omega

theorem Visible.not_isWhitespace (h : Visible c) : isWhitespace c = false := by
  obtain ⟨hlow, hhigh⟩ := h
  rw [Bool.eq_false_iff]
  intro hs
  simp only [isWhitespace, Bool.or_eq_true, Bool.and_eq_true, decide_eq_true_eq,
    beq_iff_eq] at hs
  omega

theorem Visible.utf8Size (h : Visible c) : c.utf8Size = 1 := by
  rw [Char.utf8Size_eq_one_iff, UInt32.le_iff_toNat_le]
  change c.toNat ≤ 127
  have hhigh := h.2
  omega

theorem Visible.lt (h : Visible c) : c.toNat < 0x10000 := by
  have hhigh := h.2
  omega

/-- The common white space is white space in both languages. -/
theorem isSpace_both (h : isSpace c = true) :
    isWhitespace c = true ∧ c.toNat < 0x10000 ∧ EmuTs.isSpaceUnit c.toNat = true := by
  simp only [isSpace, isWhitespace, Bool.or_eq_true, Bool.and_eq_true, decide_eq_true_eq,
    beq_iff_eq, bne_iff_ne] at h
  rw [isSpaceUnit_iff]
  simp only [isWhitespace, Bool.or_eq_true, Bool.and_eq_true, decide_eq_true_eq, beq_iff_eq]
  omega

theorem trimBy_isWhitespace (h : ∀ c ∈ trimBy isSpace line, Visible c) :
    trimBy isWhitespace line = trimBy isSpace line := by
  obtain ⟨front, back, hline, hfront, hback⟩ := trimBy_split isSpace line
  have haround := trimBy_around (fun c hc => (isSpace_both (hfront c hc)).1)
    (fun c hc => (isSpace_both (hback c hc)).1) fun c hc => (h c hc).not_isWhitespace
  rw [← hline] at haround
  exact haround

theorem unitsOf_spaces {l : List Char} (h : ∀ c ∈ l, isSpace c = true) :
    ∀ u ∈ unitsOf l, EmuTs.isSpaceUnit u = true := by
  rw [unitsOf_of_lt fun c hc => (isSpace_both (h c hc)).2.1]
  intro u hu
  obtain ⟨c, hc, rfl⟩ := List.mem_map.mp hu
  exact (isSpace_both (h c hc)).2.2

theorem trimUnits_unitsOf (h : ∀ c ∈ trimBy isSpace line, Visible c) :
    EmuTs.trimUnits (unitsOf line) = unitsOf (trimBy isSpace line) := by
  obtain ⟨front, back, hline, hfront, hback⟩ := trimBy_split isSpace line
  have hvisible : ∀ u ∈ unitsOf (trimBy isSpace line), EmuTs.isSpaceUnit u = false := by
    rw [unitsOf_of_lt fun c hc => (h c hc).lt]
    intro u hu
    obtain ⟨c, hc, rfl⟩ := List.mem_map.mp hu
    exact (h c hc).not_isSpaceUnit
  have haround := trimBy_around (unitsOf_spaces hfront) (unitsOf_spaces hback) hvisible
  rw [← unitsOf_append, ← unitsOf_append, ← hline] at haround
  exact haround

end Characters

section Pairs

variable {c d : Char} {x y : Nat} {hex : List Char} {bytes : List U8}

/-- The number that TypeScript has of a byte. -/
def jsByte (b : U8) : JsByte := some (Js.num b)

theorem toDigit16_bounds (h : toDigit16 c = some x) :
    x < 16 ∧ 48 ≤ c.toNat ∧ c.toNat ≤ 102 := by
  rw [toDigit16] at h
  split at h
  · cases h
    omega
  · split at h
    · cases h
      omega
    · split at h
      · cases h
        omega
      · cases h

theorem toDigit16_visible (h : toDigit16 c = some x) : Visible c := by
  obtain ⟨-, hlow, hhigh⟩ := toDigit16_bounds h
  exact ⟨by omega, by omega⟩

theorem toNat_byte (hx : x < 16) (hy : y < 16) :
    (BitVec.ofNat 8 (x * 16 + y)).toNat = x * 16 + y := by
  rw [BitVec.toNat_ofNat, Nat.mod_eq_of_lt (by omega)]

theorem fromStrRadix16_pair (hc : toDigit16 c = some x) (hd : toDigit16 d = some y) :
    fromStrRadix16 [c, d] = some (BitVec.ofNat 8 (x * 16 + y)) := by
  obtain ⟨hx, hlow, -⟩ := toDigit16_bounds hc
  obtain ⟨hy, -, -⟩ := toDigit16_bounds hd
  have hplus : c ≠ '+' := by
    rintro rfl
    exact absurd hlow (by decide)
  have hdigits : digits16 [c, d] 0 = some (x * 16 + y) := by
    simp [digits16, hc, hd]
  rw [fromStrRadix16.eq_5]
  · rw [hdigits]
    exact if_pos (by omega)
  · exact List.cons_ne_nil _ _
  · simp
  · simp
  · intro text htext
    exact hplus (List.cons.inj htext).1

theorem parseInt16_pair (hc : toDigit16 c = some x) (hd : toDigit16 d = some y) :
    EmuTs.parseInt16 [c.toNat, d.toNat] = jsByte (BitVec.ofNat 8 (x * 16 + y)) := by
  obtain ⟨hx, hclow, -⟩ := toDigit16_bounds hc
  obtain ⟨hy, -, hdhigh⟩ := toDigit16_bounds hd
  have hspace : EmuTs.isSpaceUnit c.toNat = false := (toDigit16_visible hc).not_isSpaceUnit
  have hdigits : EmuTs.readDigits16 [c.toNat, d.toNat] none = some (x * 16 + y) := by
    have hcu : EmuTs.hexUnitValue c.toNat = some x := hc
    have hdu : EmuTs.hexUnitValue d.toNat = some y := hd
    simp [EmuTs.readDigits16, hcu, hdu]
  have hmagnitude : EmuTs.parseMagnitude [c.toNat, d.toNat] = some (x * 16 + y) := by
    rw [EmuTs.parseMagnitude.eq_3]
    · exact hdigits
    · intro units h
      have hd' : d.toNat = 120 := (List.cons.inj (List.cons.inj h).2).1
      omega
    · intro units h
      have hd' : d.toNat = 88 := (List.cons.inj (List.cons.inj h).2).1
      rw [toDigit16, hd'] at hd
      cases hd
  rw [EmuTs.parseInt16, List.dropWhile_cons_of_neg (by rw [hspace]; exact Bool.false_ne_true)]
  split
  · next units h =>
      have hc' : c.toNat = 45 := (List.cons.inj h).1
      omega
  · next units h =>
      have hc' : c.toNat = 43 := (List.cons.inj h).1
      omega
  · rw [hmagnitude, jsByte, Js.num, toNat_byte hx hy]
    rfl

theorem hexPairs_cons {rest : List Char} (h : hexPairs (c :: d :: rest) = some bytes) :
    ∃ x y bytes', toDigit16 c = some x ∧ toDigit16 d = some y ∧ hexPairs rest = some bytes' ∧
      bytes = BitVec.ofNat 8 (x * 16 + y) :: bytes' := by
  rw [hexPairs, Option.bind_eq_some_iff] at h
  obtain ⟨x, hx, h⟩ := h
  rw [Option.bind_eq_some_iff] at h
  obtain ⟨y, hy, h⟩ := h
  rw [Option.map_eq_some_iff] at h
  obtain ⟨bytes', hrest, h⟩ := h
  exact ⟨x, y, bytes', hx, hy, hrest, h.symm⟩

theorem hexPairs_visible (h : hexPairs hex = some bytes) : ∀ c ∈ hex, Visible c := by
  induction hex using hexPairs.induct generalizing bytes with
  | case1 => exact fun c hc => absurd hc List.not_mem_nil
  | case2 c => cases h
  | case3 c d rest ih =>
      obtain ⟨x, y, bytes', hx, hy, hrest, -⟩ := hexPairs_cons h
      simp only [List.forall_mem_cons]
      exact ⟨toDigit16_visible hx, toDigit16_visible hy, ih hrest⟩

theorem hexPairs_length (h : hexPairs hex = some bytes) : hex.length = 2 * bytes.length := by
  induction hex using hexPairs.induct generalizing bytes with
  | case1 =>
      cases h
      rfl
  | case2 c => cases h
  | case3 c d rest ih =>
      obtain ⟨x, y, bytes', -, -, hrest, rfl⟩ := hexPairs_cons h
      rw [List.length_cons, List.length_cons, List.length_cons, ih hrest]
      omega

theorem readPairs_hexPairs (li : Nat) (h : hexPairs hex = some bytes) :
    readPairs li hex = .ok bytes := by
  induction hex using hexPairs.induct generalizing bytes with
  | case1 =>
      cases h
      rfl
  | case2 c => cases h
  | case3 c d rest ih =>
      obtain ⟨x, y, bytes', hx, hy, hrest, rfl⟩ := hexPairs_cons h
      have hc := (toDigit16_visible hx).utf8Size
      have hd := (toDigit16_visible hy).utf8Size
      rw [readPairs, if_neg (by omega), if_pos ⟨hc, hd⟩, pushPair, fromStrRadix16_pair hx hy,
        ih hrest]

theorem recordBytes_hexPairs (h : hexPairs hex = some bytes) :
    EmuTs.recordBytes (hex.map Char.toNat) = bytes.map jsByte := by
  induction hex using hexPairs.induct generalizing bytes with
  | case1 =>
      cases h
      rfl
  | case2 c => cases h
  | case3 c d rest ih =>
      obtain ⟨x, y, bytes', hx, hy, hrest, rfl⟩ := hexPairs_cons h
      rw [List.map_cons, List.map_cons, EmuTs.recordBytes, parseInt16_pair hx hy, ih hrest]
      rfl

theorem byteLength_visible (h : ∀ c ∈ hex, Visible c) : byteLength hex = hex.length := by
  induction hex with
  | nil => rfl
  | cons c hex ih =>
      obtain ⟨hc, hrest⟩ := List.forall_mem_cons.mp h
      rw [byteLength, List.map_cons, List.sum_cons, hc.utf8Size, List.length_cons, Nat.add_comm]
      exact congrArg (· + 1) (ih hrest)

end Pairs

section Records

variable {bytes : List U8} {line : List Char} {l : Line}

/-- The line that TypeScript has of a line. -/
def tsLine : Line → EmuTs.Line
  | .blank => .blank
  | .data addr bytes => .data addr.toInt (bytes.map jsByte)
  | .eof => .eof
  | .base base => .base base.toInt
  | .other => .other

theorem addChecksum_num (s b : U8) : EmuTs.addChecksum (Js.num s) (jsByte b) = Js.num (s + b) := by
  rw [jsByte, EmuTs.addChecksum, Js.land_ff, Js.num, Js.num, Js.num, BitVec.toNat_add]
  omega

theorem foldl_addChecksum (bytes : List U8) (s : U8) :
    (bytes.map jsByte).foldl EmuTs.addChecksum (Js.num s) =
      Js.num (bytes.foldl (· + ·) s) := by
  induction bytes generalizing s with
  | nil => rfl
  | cons b bytes ih => rw [List.map_cons, List.foldl_cons, addChecksum_num, ih, List.foldl_cons]

theorem checksumOk_map (bytes : List U8) :
    EmuTs.checksumOk (bytes.map jsByte) = checksumOk bytes := by
  rw [EmuTs.checksumOk, checksumOk, Bool.eq_iff_iff, beq_iff_eq, beq_iff_eq]
  change (bytes.map jsByte).foldl EmuTs.addChecksum (Js.num (0 : U8)) = Js.num (0 : U8) ↔ _
  rw [foldl_addChecksum, Js.num_inj]

theorem wordOf_map (hi lo : U8) :
    EmuTs.wordOf (jsByte hi) (jsByte lo) = (wordOf hi lo).toInt := by
  rw [EmuTs.wordOf, wordOf]
  change Js.lor (Js.shl (Js.num hi) 8) (Js.num lo) = _
  rw [Js.lor, Js.shl, Js.toBits_toInt, Js.toBits_num, Js.toBits_num]
  rfl

/-- The data of a record that has as many bytes as its count says -/
theorem take_drop_record (count hi lo typ : U8) (rest : List U8) (n : Nat) :
    ((count :: hi :: lo :: typ :: rest).take (4 + n)).drop 4 = rest.take n := by
  rw [Nat.add_comm]
  rfl

theorem sliceData_map (count hi lo typ : U8) (rest : List U8) :
    EmuTs.sliceData ((count :: hi :: lo :: typ :: rest).map jsByte) (jsByte count) =
      (rest.take count.toNat).map jsByte := by
  have hnonneg : ¬ 4 + Js.num count < 0 := by
    have hcount := Js.num_nonneg count
    omega
  have hstop : (4 + Js.num count).toNat = 4 + count.toNat := by
    rw [Js.num]
    omega
  rw [jsByte, EmuTs.sliceData, if_neg hnonneg, hstop, ← List.map_take, ← List.map_drop, take_drop_record]

theorem jsByte_eq_iff (b : U8) (n : Nat) (hn : n < 256) :
    jsByte b = some (n : Int) ↔ b = BitVec.ofNat 8 n := by
  rw [jsByte, Option.some.injEq, ← Js.num_ofNat (w := 8) hn, Js.num_inj]

theorem readBase_eq_some {shift : Nat} {data : List U8} (h : readBase shift data = some l) :
    ∃ hi lo, data = [hi, lo] ∧ l = .base (wordOf hi lo <<< shift) := by
  rw [readBase.eq_def] at h
  split at h
  · exact ⟨_, _, rfl, (Option.some.inj h).symm⟩
  · cases h

/-- The parts of a well-formed record. -/
theorem readRecord_eq_some (h : readRecord bytes = some l) :
    ∃ count hi lo typ rest, bytes = count :: hi :: lo :: typ :: rest ∧
      rest.length = count.toNat + 1 ∧ checksumOk bytes = true ∧
      (if typ = 0x00 then some (.data (wordOf hi lo) (rest.take count.toNat))
        else if typ = 0x01 then some .eof
        else if typ = 0x02 then readBase 4 (rest.take count.toNat)
        else if typ = 0x04 then readBase 16 (rest.take count.toNat)
        else some .other) = some l := by
  rw [readRecord.eq_def] at h
  split at h
  · next count hi lo typ rest =>
      by_cases hbad : rest.length ≠ count.toNat + 1 ∨
          (!checksumOk (count :: hi :: lo :: typ :: rest)) = true
      · rw [if_pos hbad] at h
        cases h
      · rw [if_neg hbad] at h
        rw [not_or, not_not, Bool.not_eq_true, Bool.not_eq_false'] at hbad
        exact ⟨count, hi, lo, typ, rest, rfl, hbad.1, hbad.2, h⟩
  · cases h

theorem parseRecord_readRecord (li : Nat) (h : readRecord bytes = some l) :
    parseRecord li bytes = .ok l := by
  obtain ⟨count, hi, lo, typ, rest, rfl, hlen, -, hl⟩ := readRecord_eq_some h
  have hcount : ¬ 4 + count.toNat > (count :: hi :: lo :: typ :: rest).length - 1 := by
    simp only [List.length_cons]
    omega
  rw [parseRecord]
  change (if 4 + count.toNat > (count :: hi :: lo :: typ :: rest).length - 1 then _ else _) = _
  rw [if_neg hcount, take_drop_record]
  simp only [List.getD_cons_zero]
  change (if typ = 0x00 then _ else if typ = 0x01 then _ else if typ = 0x02 then _
    else if typ = 0x04 then _ else _) = _
  by_cases h0 : typ = 0x00
  · rw [if_pos h0] at hl ⊢
    cases hl
    rfl
  · rw [if_neg h0] at hl ⊢
    by_cases h1 : typ = 0x01
    · rw [if_pos h1] at hl ⊢
      cases hl
      rfl
    · rw [if_neg h1] at hl ⊢
      by_cases h2 : typ = 0x02
      · rw [if_pos h2] at hl ⊢
        obtain ⟨a, b, hdata, rfl⟩ := readBase_eq_some hl
        rw [hdata]
        rfl
      · rw [if_neg h2] at hl ⊢
        by_cases h4 : typ = 0x04
        · rw [if_pos h4] at hl ⊢
          obtain ⟨a, b, hdata, rfl⟩ := readBase_eq_some hl
          rw [hdata]
          rfl
        · rw [if_neg h4] at hl ⊢
          cases hl
          rfl

theorem shl_wordOf (hi lo : U8) (n : Nat) (hn : n < 32) :
    Js.shl (EmuTs.wordOf (jsByte hi) (jsByte lo)) n = (wordOf hi lo <<< n).toInt := by
  have hbits : Js.toBits (n : Int) = BitVec.ofNat 32 n := BitVec.ofInt_natCast ..
  rw [wordOf_map, Js.shl, Js.toBits_toInt, hbits, BitVec.toNat_ofNat,
    Nat.mod_eq_of_lt (show n < 2 ^ 32 by omega), Nat.mod_eq_of_lt hn]

/-- The base that a type 02 or 04 sets. -/
theorem base_map {data : List U8} {shift : Nat} {s : Int} (h : readBase shift data = some l)
    (hs : s = shift) (hshift : shift < 32) (message : String) :
    (if (data.map jsByte).length ≠ 2 then Except.error message
      else .ok (.base (Js.shl (EmuTs.wordOf ((data.map jsByte).getD 0 none)
        ((data.map jsByte).getD 1 none)) s))) = Except.ok (tsLine l) := by
  obtain ⟨hi, lo, rfl, rfl⟩ := readBase_eq_some h
  have htwo : ¬ ([hi, lo].map jsByte).length ≠ 2 := not_not_intro rfl
  rw [if_neg htwo, hs]
  change Except.ok (EmuTs.Line.base (Js.shl (EmuTs.wordOf (jsByte hi) (jsByte lo)) shift)) = _
  rw [shl_wordOf hi lo shift hshift, tsLine]

theorem parseRecord_map (li : Nat) (h : readRecord bytes = some l) :
    EmuTs.parseRecord li (bytes.map jsByte) = .ok (tsLine l) := by
  obtain ⟨count, hi, lo, typ, rest, rfl, -, -, hl⟩ := readRecord_eq_some h
  have h0 : jsByte typ = some 0x00 ↔ typ = 0x00 := jsByte_eq_iff typ 0 (by omega)
  have h1 : jsByte typ = some 0x01 ↔ typ = 0x01 := jsByte_eq_iff typ 1 (by omega)
  have h2 : jsByte typ = some 0x02 ↔ typ = 0x02 := jsByte_eq_iff typ 2 (by omega)
  have h4 : jsByte typ = some 0x04 ↔ typ = 0x04 := jsByte_eq_iff typ 4 (by omega)
  have hdata := sliceData_map count hi lo typ rest
  rw [EmuTs.parseRecord]
  simp only [List.map_cons, List.getD_cons_zero, List.getD_cons_succ, h0, h1, h2, h4] at hdata ⊢
  rw [hdata, wordOf_map]
  by_cases ht0 : typ = 0x00
  · rw [if_pos ht0] at hl ⊢
    cases hl
    rfl
  · rw [if_neg ht0] at hl ⊢
    by_cases ht1 : typ = 0x01
    · rw [if_pos ht1] at hl ⊢
      cases hl
      rfl
    · rw [if_neg ht1] at hl ⊢
      by_cases ht2 : typ = 0x02
      · rw [if_pos ht2] at hl ⊢
        exact base_map hl rfl (by omega) _
      · rw [if_neg ht2] at hl ⊢
        by_cases ht4 : typ = 0x04
        · rw [if_pos ht4] at hl ⊢
          exact base_map hl rfl (by omega) _
        · rw [if_neg ht4] at hl ⊢
          cases hl
          rfl

/-- The colon and the digits of a well-formed line -/
theorem readLine_eq_some (h : readLine line = some l) :
    (trimBy isSpace line = [] ∧ l = .blank) ∨
      ∃ hex bytes, trimBy isSpace line = ':' :: hex ∧ hexPairs hex = some bytes ∧
        readRecord bytes = some l := by
  rw [readLine] at h
  split at h
  · next hnil => exact .inl ⟨hnil, (Option.some.inj h).symm⟩
  · next colon hex hcons =>
      by_cases hcolon : colon = ':'
      · rw [if_pos hcolon, Option.bind_eq_some_iff] at h
        obtain ⟨bytes, hbytes, hrecord⟩ := h
        exact .inr ⟨hex, bytes, hcolon ▸ hcons, hbytes, hrecord⟩
      · rw [if_neg hcolon] at h
        cases h

theorem readRecord_length (h : readRecord bytes = some l) : 5 ≤ bytes.length := by
  obtain ⟨count, hi, lo, typ, rest, rfl, hlen, -, -⟩ := readRecord_eq_some h
  simp only [List.length_cons]
  omega

theorem readRecord_checksum (h : readRecord bytes = some l) : checksumOk bytes = true := by
  obtain ⟨count, hi, lo, typ, rest, rfl, -, hsum, -⟩ := readRecord_eq_some h
  exact hsum

theorem colon_visible {hex : List Char} (h : hexPairs hex = some bytes) :
    ∀ c ∈ ':' :: hex, Visible c :=
  List.forall_mem_cons.mpr ⟨⟨by decide, by decide⟩, hexPairs_visible h⟩

/-- The Rust loader reads a well-formed line. -/
theorem parseLine_readLine (li : Nat) (h : readLine line = some l) : parseLine li line = .ok l := by
  rcases readLine_eq_some h with ⟨hnil, rfl⟩ | ⟨hex, bytes, hcons, hbytes, hrecord⟩
  · have htrim : trimBy isWhitespace line = [] := by
      rw [trimBy_isWhitespace (by rw [hnil]; exact fun c hc => absurd hc List.not_mem_nil), hnil]
    rw [parseLine, htrim]
  · have htrim : trimBy isWhitespace line = ':' :: hex := by
      rw [trimBy_isWhitespace (by rw [hcons]; exact colon_visible hbytes), hcons]
    have hlen := hexPairs_length hbytes
    have hfive := readRecord_length hrecord
    have hgood : ¬ (byteLength hex < 10 ∨ byteLength hex % 2 ≠ 0) := by
      rw [byteLength_visible (hexPairs_visible hbytes)]
      omega
    rw [parseLine, htrim]
    dsimp only
    rw [if_neg (not_not_intro rfl), if_neg hgood, readPairs_hexPairs li hbytes]
    dsimp only
    rw [if_neg (by rw [readRecord_checksum hrecord]; decide), parseRecord_readRecord li hrecord]

/-- The TypeScript loader reads a well-formed line. -/
theorem parseLine_unitsOf (li : Nat) (h : readLine line = some l) :
    EmuTs.parseLine li (unitsOf line) = .ok (tsLine l) := by
  rcases readLine_eq_some h with ⟨hnil, rfl⟩ | ⟨hex, bytes, hcons, hbytes, hrecord⟩
  · have htrim : EmuTs.trimUnits (unitsOf line) = [] := by
      rw [trimUnits_unitsOf (by rw [hnil]; exact fun c hc => absurd hc List.not_mem_nil), hnil]
      rfl
    rw [EmuTs.parseLine, htrim]
    rfl
  · have hvisible := colon_visible hbytes
    have htrim : EmuTs.trimUnits (unitsOf line) = 58 :: hex.map Char.toNat := by
      rw [trimUnits_unitsOf (by rw [hcons]; exact hvisible), hcons,
        unitsOf_of_lt fun c hc => (hvisible c hc).lt]
      rfl
    have hlen := hexPairs_length hbytes
    have hfive := readRecord_length hrecord
    have hgood : ¬ ((hex.map Char.toNat).length < 10 ∨ (hex.map Char.toNat).length % 2 ≠ 0) := by
      rw [List.length_map]
      omega
    rw [EmuTs.parseLine, htrim]
    dsimp only
    rw [if_neg (not_not_intro rfl), if_neg hgood, recordBytes_hexPairs hbytes, checksumOk_map,
      if_neg (by rw [readRecord_checksum hrecord]; decide), parseRecord_map li hrecord]

end Records

end IntelHex
end RetroCpu
