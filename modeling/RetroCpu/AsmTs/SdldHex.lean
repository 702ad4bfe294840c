import Mathlib
import RetroCpu.AsmTs.SdldLink

/-!
# The Intel HEX of the linker (`sdldLink.ts`)

`parseIntelHex` reads what the linker wrote, `bytesToIntelHex` writes the corrected image.
The writer and the reader agree on every image.  The reader looks neither at a checksum nor
at the length of a record: a record whose count or checksum is wrong is stored all the same,
and only a later record for the same addresses can take its bytes away.
-/

namespace RetroCpu
namespace AsmTs

open Js

abbrev Byte := BitVec 8

/-- `Map<number, number>`, from addresses -/
abbrev ByteMap (β : Type) := AList fun _ : Nat => β

section Source

/-- `hexChecksum` -/
def hexChecksum (bytes : List Byte) : Byte := ~~~(bytes.foldl (fun sum b => sum + b) 0) + 1

/-- `Buffer.from(hex, "hex")` ends before the first pair that is not one of digits. -/
def hexBuffer : List Char → List Byte
  | a :: b :: hex =>
      if hexChar a && hexChar b then
        BitVec.ofNat 8 (hexDigitValue a * 16 + hexDigitValue b) :: hexBuffer hex
      else []
  | _ => []

/-- `(buf[1] << 8) | buf[2]` -/
def recordAddr (buf : List Byte) : Nat := (buf.getD 1 0).toNat <<< 8 ||| (buf.getD 2 0).toNat

/-- The bytes of a record; behind the end of the buffer they are `undefined`. -/
def storeRecord (out : ByteMap (Option Byte)) (buf : List Byte) : ByteMap (Option Byte) :=
  (List.range (buf.getD 0 0).toNat).foldl
    (fun out i => out.insert (recordAddr buf + i) buf[4 + i]?) out

/-- A line of the loop in `parseIntelHex` -/
def storeLine (out : ByteMap (Option Byte)) (line : List Char) : ByteMap (Option Byte) :=
  if line.head? ≠ some ':' then out
  else
    let buf := hexBuffer (line.drop 1)
    if buf.length < 5 then out
    else if buf.getD 3 0 ≠ 0 then out
    else storeRecord out buf

/-- `parseIntelHex` -/
def parseIntelHex (text : String) : ByteMap (Option Byte) :=
  (trimmedLines text.toList).foldl storeLine ∅

/-- The inner loop of `bytesToIntelHex`: the bytes from `a` on, and the addresses that remain. -/
def takeChunk (bytes : ByteMap Byte) : Nat → Nat → List Nat → List Byte × List Nat
  | room + 1, a, b :: addrs =>
      if b = a then
        let rest := takeChunk bytes room (a + 1) addrs
        ((bytes.lookup a).getD 0 :: rest.1, rest.2)
      else ([], b :: addrs)
  | _, _, addrs => ([], addrs)

attribute [grind =] takeChunk

theorem takeChunk_length (bytes : ByteMap Byte) (room a : Nat) (addrs : List Nat) :
    (takeChunk bytes room a addrs).2.length ≤ addrs.length := by
  induction room generalizing a addrs with
  | zero => simp [takeChunk]
  | succ room ih =>
      cases addrs with
      | nil => simp [takeChunk]
      | cons b addrs =>
          unfold takeChunk
          split
          · exact (ih (a + 1) addrs).trans (Nat.le_succ _)
          · exact Nat.le_refl _

/-- The chunks with their start addresses -/
def hexChunks (bytes : ByteMap Byte) : List Nat → List (Nat × List Byte)
  | [] => []
  | start :: addrs =>
      let rest := takeChunk bytes 15 (start + 1) addrs
      (start, (bytes.lookup start).getD 0 :: rest.1) :: hexChunks bytes rest.2
termination_by addrs => addrs.length
decreasing_by exact Nat.lt_succ_of_le (takeChunk_length bytes 15 (start + 1) addrs)

/-- A record, with its checksum -/
def hexRecord (start : Nat) (chunk : List Byte) : List Byte :=
  let bytes := BitVec.ofNat 8 chunk.length :: BitVec.ofNat 8 (start >>> 8 &&& 0xff) ::
    BitVec.ofNat 8 (start &&& 0xff) :: 0 :: chunk
  bytes ++ [hexChecksum bytes]

/-- A line of a record -/
def hexLine (bytes : List Byte) : List Char := ':' :: bytes.flatMap fun b => hexPad 2 b.toNat

/-- `bytesToIntelHex` -/
def bytesToIntelHex (bytes : ByteMap Byte) : String :=
  let addrs := bytes.keys.mergeSort (· ≤ ·)
  let lines := (hexChunks bytes addrs).map fun chunk => hexLine (hexRecord chunk.1 chunk.2)
  String.ofList (joinLines (lines ++ [":00000001FF".toList]))

end Source

section Checksum

theorem foldl_add (bytes : List Byte) (sum : Byte) :
    bytes.foldl (fun sum b => sum + b) sum = sum + bytes.sum := by
  induction bytes generalizing sum with
  | nil => simp
  | cons b bytes ih =>
      rw [List.foldl_cons, ih, List.sum_cons, BitVec.add_assoc]

/-- A record and its checksum add up to zero. -/
theorem sum_hexChecksum (bytes : List Byte) : (bytes ++ [hexChecksum bytes]).sum = 0 := by
  have hsum : bytes.foldl (fun sum b => sum + b) 0 = bytes.sum := by
    rw [foldl_add]
    exact BitVec.zero_add _
  have hneg : ~~~bytes.sum + 1 = -bytes.sum := (BitVec.neg_eq_not_add bytes.sum).symm
  rw [List.sum_append, List.sum_singleton, hexChecksum, hsum, hneg]
  exact BitVec.add_right_neg bytes.sum

end Checksum

section WrittenLine

theorem hexBuffer_pair (b : Byte) (hex : List Char) :
    hexBuffer (hexPad 2 b.toNat ++ hex) = b :: hexBuffer hex := by
  obtain ⟨hhi, hhiValue⟩ := hexDigit_mod (b.toNat / 16)
  obtain ⟨hlo, hloValue⟩ := hexDigit_mod b.toNat
  have hpad : hexPad 2 b.toNat = [hexDigit (b.toNat / 16 % 16), hexDigit (b.toNat % 16)] := rfl
  have hbyte : BitVec.ofNat 8 (b.toNat / 16 % 16 * 16 + b.toNat % 16) = b := by
    have hb := b.isLt
    apply BitVec.eq_of_toNat_eq
    rw [BitVec.toNat_ofNat]
    omega
  rw [hpad, List.cons_append, List.cons_append, List.nil_append, hexBuffer]
  simp only [hhi, hlo, Bool.and_self, if_true, hhiValue, hloValue, hbyte]

/-- Reading the digits of a record gives its bytes. -/
theorem hexBuffer_flatMap (bytes : List Byte) :
    hexBuffer (bytes.flatMap fun b => hexPad 2 b.toNat) = bytes := by
  induction bytes with
  | nil => rfl
  | cons b bytes ih => rw [List.flatMap_cons, hexBuffer_pair, ih]

theorem length_flatMap_hexPad (bytes : List Byte) :
    (bytes.flatMap fun b => hexPad 2 b.toNat).length = 2 * bytes.length := by
  induction bytes with
  | nil => rfl
  | cons b bytes ih =>
      rw [List.flatMap_cons, List.length_append, length_hexPad, ih, List.length_cons]
      omega

theorem mem_hexLine {bytes : List Byte} {c : Char} (h : c ∈ hexLine bytes) :
    c = ':' ∨ hexChar c = true := by
  rcases List.mem_cons.mp h with h | h
  · exact .inl h
  · obtain ⟨b, _, hb⟩ := List.mem_flatMap.mp h
    exact .inr (hexChar_hexPad c hb)

theorem hexLine_plain {bytes : List Byte} {c : Char} (h : c ∈ hexLine bytes) :
    c ≠ '\n' ∧ isSpace c = false := by
  rcases mem_hexLine h with rfl | h
  · decide
  · obtain ⟨_, _, _, _, hline, hspace⟩ := hexChar_plain h
    exact ⟨hline, hspace⟩

theorem trimChars_hexLine (bytes : List Byte) : trimChars (hexLine bytes) = hexLine bytes :=
  trimChars_of_trimmed ⟨fun _ hc => (hexLine_plain (List.mem_of_head? hc)).2,
    fun _ hc => (hexLine_plain (List.mem_of_getLast? hc)).2⟩

/-- The lines of a text of records are its records. -/
theorem trimmedLines_hexLines (records : List (List Byte)) :
    trimmedLines (joinLines (records.map hexLine)) = records.map hexLine ++ [[]] := by
  have hlines : ∀ l ∈ records.map hexLine, '\n' ∉ l := by
    intro l hl hmem
    obtain ⟨bytes, _, rfl⟩ := List.mem_map.mp hl
    exact (hexLine_plain hmem).1 rfl
  rw [trimmedLines, pieces_joinLines hlines, List.map_append, List.map_map]
  congr 1
  exact List.map_congr_left fun bytes _ => trimChars_hexLine bytes

end WrittenLine

section StoredLine

variable {β : Type} {out : ByteMap β}

theorem lookup_insertRange (addr n : Nat) (value : Nat → β) (a : Nat) :
    ((List.range n).foldl (fun out i => out.insert (addr + i) (value i)) out).lookup a =
      if addr ≤ a ∧ a < addr + n then some (value (a - addr)) else out.lookup a := by
  induction n with
  | zero => rw [if_neg (by omega)]; rfl
  | succ n ih =>
      rw [List.range_succ, List.foldl_append, List.foldl_cons, List.foldl_nil]
      by_cases ha : a = addr + n
      · subst ha
        rw [AList.lookup_insert, if_pos (by omega), Nat.add_sub_cancel_left]
      · rw [AList.lookup_insert_ne ha, ih]
        by_cases hin : addr ≤ a ∧ a < addr + n
        · rw [if_pos hin, if_pos (by omega)]
        · rw [if_neg hin, if_neg (by omega)]

/-- The bytes of a line that is read as a data record -/
def dataRecord (line : List Char) : Option (List Byte) :=
  if line.head? ≠ some ':' then none
  else
    let buf := hexBuffer (line.drop 1)
    if buf.length < 5 then none
    else if buf.getD 3 0 ≠ 0 then none
    else some buf

/-- The line is a data record for the address `a`. -/
def Declares (line : List Char) (a : Nat) : Prop :=
  ∃ buf ∈ dataRecord line, recordAddr buf ≤ a ∧ a < recordAddr buf + (buf.getD 0 0).toNat

/-- What the line gives for the address `a` by itself -/
def stored (line : List Char) (a : Nat) : Option (Option Byte) := (storeLine ∅ line).lookup a

theorem storeLine_eq (out : ByteMap (Option Byte)) (line : List Char) :
    storeLine out line = ((dataRecord line).map (storeRecord out)).getD out := by
  unfold storeLine dataRecord
  split
  · rfl
  · dsimp only
    split
    · rfl
    · split
      · rfl
      · rfl

variable {line : List Char} {a : Nat}

theorem lookup_storeLine_of_not (out : ByteMap (Option Byte)) (h : ¬ Declares line a) :
    (storeLine out line).lookup a = out.lookup a := by
  rw [storeLine_eq]
  cases hline : dataRecord line with
  | none => rfl
  | some buf =>
      have hout : ¬ (recordAddr buf ≤ a ∧ a < recordAddr buf + (buf.getD 0 0).toNat) :=
        fun hin => h ⟨buf, hline, hin⟩
      exact (lookup_insertRange _ _ _ a).trans (if_neg hout)

theorem lookup_storeRecord {buf : List Byte} (out : ByteMap (Option Byte))
    (h : recordAddr buf ≤ a ∧ a < recordAddr buf + (buf.getD 0 0).toNat) :
    (storeRecord out buf).lookup a = some buf[4 + (a - recordAddr buf)]? :=
  (lookup_insertRange _ _ _ a).trans (if_pos h)

theorem lookup_storeLine (out : ByteMap (Option Byte)) (h : Declares line a) :
    (storeLine out line).lookup a = stored line a := by
  obtain ⟨buf, hline, hin⟩ := h
  rw [stored, storeLine_eq, storeLine_eq, hline, Option.map_some, Option.map_some]
  exact (lookup_storeRecord out hin).trans (lookup_storeRecord ∅ hin).symm

theorem stored_isSome (h : Declares line a) : (stored line a).isSome = true := by
  obtain ⟨buf, hline, hin⟩ := h
  rw [stored, storeLine_eq, hline, Option.map_some]
  exact Option.isSome_iff_exists.mpr ⟨_, lookup_storeRecord ∅ hin⟩

end StoredLine

section Origin

instance decidableDeclares (line : List Char) (a : Nat) : Decidable (Declares line a) :=
  Option.decidableExistsMem (p := fun buf =>
    recordAddr buf ≤ a ∧ a < recordAddr buf + (buf.getD 0 0).toNat) (dataRecord line)

/-- The record that the byte at `a` comes from: the last one for that address -/
def origin (lines : List (List Char)) (a : Nat) : Option (List Char) :=
  (lines.filter fun line => Declares line a).getLast?

variable {line : List Char} {a : Nat}

theorem origin_concat (lines : List (List Char)) (line : List Char) (a : Nat) :
    origin (lines ++ [line]) a = if Declares line a then some line else origin lines a := by
  unfold origin
  rw [List.filter_append]
  by_cases h : Declares line a
  · rw [if_pos h, List.filter_cons_of_pos (by simpa using h), List.filter_nil,
      List.getLast?_concat]
  · rw [if_neg h, List.filter_cons_of_neg (by simpa using h), List.filter_nil, List.append_nil]

/-- The image holds at every address what its origin gives. -/
theorem lookup_foldl_storeLine (lines : List (List Char)) (a : Nat) :
    (lines.foldl storeLine ∅).lookup a = (origin lines a).bind fun line => stored line a := by
  induction lines using List.reverseRecOn with
  | nil => rfl
  | append_singleton lines line ih =>
      rw [List.foldl_append, List.foldl_cons, List.foldl_nil, origin_concat]
      by_cases h : Declares line a
      · rw [lookup_storeLine _ h, if_pos h]
        rfl
      · rw [lookup_storeLine_of_not _ h, ih, if_neg h]

theorem declares_of_origin {lines : List (List Char)} (h : origin lines a = some line) :
    Declares line a := by
  have hmem := List.mem_of_getLast? h
  simpa using (List.mem_filter.mp hmem).2

theorem origin_eq_some_iff {lines : List (List Char)} :
    origin lines a = some line ↔ ∃ pre post, lines = pre ++ line :: post ∧ Declares line a ∧
      ∀ l ∈ post, ¬ Declares l a := by
  constructor
  · intro h
    obtain ⟨front, hfront⟩ := List.getLast?_eq_some_iff.mp h
    obtain ⟨l₁, l₂, rfl, _, hlast⟩ := List.filter_eq_append_iff.mp hfront
    obtain ⟨l₃, post, rfl, _, hline, hpost⟩ := List.filter_eq_cons_iff.mp hlast
    refine ⟨l₁ ++ l₃, post, (List.append_assoc ..).symm, by simpa using hline, ?_⟩
    intro l hl
    simpa using List.filter_eq_nil_iff.mp hpost l hl
  · rintro ⟨pre, post, rfl, hline, hpost⟩
    have hnone : post.filter (fun line => Declares line a) = [] :=
      List.filter_eq_nil_iff.mpr fun l hl => by simpa using hpost l hl
    rw [origin, List.filter_append, List.filter_cons_of_pos (by simpa using hline), hnone,
      List.getLast?_concat]

theorem origin_isSome {lines : List (List Char)} (hmem : line ∈ lines) (h : Declares line a) :
    ∃ l ∈ lines, origin lines a = some l := by
  cases horigin : origin lines a with
  | none =>
      have hnil := List.getLast?_eq_none_iff.mp horigin
      exact absurd (by simpa using h) (List.filter_eq_nil_iff.mp hnil line hmem)
  | some l => exact ⟨l, (List.mem_filter.mp (List.mem_of_getLast? horigin)).1, rfl⟩

end Origin

section Rejection

/-- The text of a record has its digits only, as many as it declares, and sums to zero. -/
structure Matches (line : List Char) : Prop where
  text : (line.drop 1).length = 2 * (hexBuffer (line.drop 1)).length
  declared : (hexBuffer (line.drop 1)).length =
    ((hexBuffer (line.drop 1)).getD 0 0).toNat + 5
  checksum : (hexBuffer (line.drop 1)).sum = 0

/-- Every byte that the reader returns comes from a record that matches its text. -/
def Rejects (text : String) : Prop :=
  ∀ a v, (parseIntelHex text).lookup a = some v →
    ∃ line ∈ origin (trimmedLines text.toList) a, stored line a = some v ∧ Matches line

/-- The addresses of a record that does not match are all declared again further down. -/
def Superseded (text : String) : Prop :=
  ∀ pre line post, trimmedLines text.toList = pre ++ line :: post → ¬ Matches line →
    ∀ a, Declares line a → ∃ l ∈ post, Declares l a

theorem rejects_iff (text : String) : Rejects text ↔ Superseded text := by
  have hlookup := lookup_foldl_storeLine (trimmedLines text.toList)
  constructor
  · intro h pre line post hlines hbad a ha
    by_contra hnone
    have hpost : ∀ l ∈ post, ¬ Declares l a := fun l hl hd => hnone ⟨l, hl, hd⟩
    have horigin := origin_eq_some_iff.mpr ⟨pre, post, hlines, ha, hpost⟩
    obtain ⟨v, hv⟩ := Option.isSome_iff_exists.mp (stored_isSome ha)
    have hread : (parseIntelHex text).lookup a = some v := by
      rw [parseIntelHex, hlookup, horigin]
      exact hv
    obtain ⟨l, hl, _, hmatches⟩ := h a v hread
    obtain rfl : line = l := Option.some.inj (horigin.symm.trans hl)
    exact hbad hmatches
  · intro h a v hread
    rw [parseIntelHex, hlookup] at hread
    obtain ⟨line, hline, hv⟩ := Option.bind_eq_some_iff.mp hread
    refine ⟨line, hline, hv, ?_⟩
    by_contra hbad
    obtain ⟨pre, post, hlines, ha, hpost⟩ := origin_eq_some_iff.mp hline
    obtain ⟨l, hl, hd⟩ := h pre line post hlines hbad a ha
    exact hpost l hl hd

end Rejection

section Chunks

variable (bytes : ByteMap Byte)

/-- A chunk holds the bytes of a run of addresses. -/
structure ChunkOf (start : Nat) (chunk : List Byte) (addrs : List Nat) : Prop where
  pos : 0 < chunk.length
  addrs : ∀ i < chunk.length, start + i ∈ addrs
  bytes : ∀ i < chunk.length, chunk[i]? = some ((bytes.lookup (start + i)).getD 0)

theorem takeChunk_spec (room a : Nat) (addrs : List Nat) :
    addrs = List.range' a (takeChunk bytes room a addrs).1.length ++
        (takeChunk bytes room a addrs).2 ∧
      (takeChunk bytes room a addrs).1.length ≤ room ∧
      ∀ i < (takeChunk bytes room a addrs).1.length,
        (takeChunk bytes room a addrs).1[i]? = some ((bytes.lookup (a + i)).getD 0) := by
  induction room generalizing a addrs with
  | zero => simp [takeChunk]
  | succ room ih =>
      cases addrs with
      | nil => simp [takeChunk]
      | cons b addrs =>
          by_cases hb : b = a
          · subst hb
            obtain ⟨haddrs, hroom, hbytes⟩ := ih (b + 1) addrs
            rw [takeChunk, if_pos rfl]
            dsimp only
            refine ⟨?_, Nat.succ_le_succ hroom, ?_⟩
            · rw [List.length_cons, List.range'_succ, List.cons_append, ← haddrs]
            · intro i hi
              cases i with
              | zero => rfl
              | succ i =>
                  rw [List.getElem?_cons_succ, hbytes i (Nat.lt_of_succ_lt_succ hi),
                    Nat.add_right_comm, Nat.add_assoc]
          · rw [takeChunk, if_neg hb]
            simp

theorem mem_hexChunks (addrs : List Nat) :
    (∀ c ∈ hexChunks bytes addrs, ChunkOf bytes c.1 c.2 addrs ∧ c.2.length ≤ 16) ∧
      ∀ a ∈ addrs, ∃ c ∈ hexChunks bytes addrs, c.1 ≤ a ∧ a < c.1 + c.2.length := by
  induction addrs using hexChunks.induct bytes with
  | case1 => simp [hexChunks]
  | case2 start addrs rest ih =>
      obtain ⟨hchunks, hcovered⟩ := ih
      obtain ⟨haddrs, hroom, hbytes⟩ := takeChunk_spec bytes 15 (start + 1) addrs
      rw [hexChunks]
      constructor
      · intro c hc
        rcases List.mem_cons.mp hc with rfl | hc
        · refine ⟨⟨Nat.succ_pos _, ?_, ?_⟩, Nat.succ_le_succ hroom⟩
          · intro i hi
            cases i with
            | zero => simp
            | succ i =>
                have hmem : start + 1 + i ∈ addrs := by
                  rw [haddrs]
                  exact List.mem_append_left _
                    (List.mem_range'_1.mpr ⟨by omega, by simp at hi; omega⟩)
                exact List.mem_cons_of_mem _ (by rwa [Nat.add_right_comm] at hmem)
          · intro i hi
            cases i with
            | zero => rfl
            | succ i =>
                have h := hbytes i (Nat.lt_of_succ_lt_succ hi)
                rwa [Nat.add_right_comm] at h
        · obtain ⟨⟨hpos, hmem, hvalues⟩, hlen⟩ := hchunks c hc
          refine ⟨⟨hpos, fun i hi => List.mem_cons_of_mem _ ?_, hvalues⟩, hlen⟩
          rw [haddrs]
          exact List.mem_append_right _ (hmem i hi)
      · intro a ha
        rcases List.mem_cons.mp ha with rfl | ha
        · exact ⟨_, List.mem_cons_self, Nat.le_refl _, by simp⟩
        · rw [haddrs] at ha
          rcases List.mem_append.mp ha with ha | ha
          · obtain ⟨hlo, hhi⟩ := List.mem_range'_1.mp ha
            exact ⟨_, List.mem_cons_self, by dsimp only; omega,
              by dsimp only [List.length_cons]; omega⟩
          · obtain ⟨c, hc, hin⟩ := hcovered a ha
            exact ⟨c, List.mem_cons_of_mem _ hc, hin⟩

end Chunks

section WrittenRecord

variable {start a : Nat} {chunk : List Byte}

theorem recordAddr_hexRecord (hstart : start < 0x10000) :
    recordAddr (hexRecord start chunk) = start := by
  have haddr : ((start >>> 8 &&& 0xff) % 2 ^ 8) <<< 8 ||| (start &&& 0xff) % 2 ^ 8 = start := by
    rw [Nat.shiftRight_eq_div_pow, show 0xff = 2 ^ 8 - 1 from rfl, Nat.and_two_pow_sub_one_eq_mod,
      Nat.and_two_pow_sub_one_eq_mod, Nat.mod_mod, Nat.mod_mod,
      ← Nat.shiftLeft_add_eq_or_of_lt (Nat.mod_lt _ (by decide)), Nat.shiftLeft_eq]
    omega
  exact haddr

theorem dataRecord_hexLine {bytes : List Byte} (hlen : 5 ≤ bytes.length)
    (htype : bytes.getD 3 0 = 0) : dataRecord (hexLine bytes) = some bytes := by
  have hbuf : hexBuffer ((hexLine bytes).drop 1) = bytes := hexBuffer_flatMap bytes
  rw [dataRecord, if_neg (by simp [hexLine])]
  dsimp only
  rw [hbuf, if_neg (by omega), if_neg (by simpa using htype)]

theorem dataRecord_hexRecord (start : Nat) (chunk : List Byte) :
    dataRecord (hexLine (hexRecord start chunk)) = some (hexRecord start chunk) :=
  dataRecord_hexLine (by simp [hexRecord]) rfl

theorem count_hexRecord (hlen : chunk.length ≤ 16) :
    ((hexRecord start chunk).getD 0 0).toNat = chunk.length :=
  Nat.mod_eq_of_lt (by omega)

theorem declares_hexRecord (hstart : start < 0x10000) (hlen : chunk.length ≤ 16) :
    Declares (hexLine (hexRecord start chunk)) a ↔ start ≤ a ∧ a < start + chunk.length := by
  have hrecord := dataRecord_hexRecord start chunk
  constructor
  · rintro ⟨buf, hbuf, hin⟩
    obtain rfl : hexRecord start chunk = buf := Option.some.inj (hrecord.symm.trans hbuf)
    rwa [recordAddr_hexRecord hstart, count_hexRecord hlen] at hin
  · intro hin
    refine ⟨_, hrecord, ?_⟩
    rwa [recordAddr_hexRecord hstart, count_hexRecord hlen]

theorem stored_hexRecord (hstart : start < 0x10000) (hlen : chunk.length ≤ 16)
    (hin : start ≤ a ∧ a < start + chunk.length) :
    stored (hexLine (hexRecord start chunk)) a = some chunk[a - start]? := by
  have haddr : recordAddr (hexRecord start chunk) = start := recordAddr_hexRecord hstart
  have hcount : ((hexRecord start chunk).getD 0 0).toNat = chunk.length := count_hexRecord hlen
  rw [stored, storeLine_eq, dataRecord_hexRecord, Option.map_some, Option.getD_some,
    lookup_storeRecord ∅ (by rwa [haddr, hcount]), haddr]
  have hbytes : (hexRecord start chunk)[4 + (a - start)]? =
      (chunk ++ [hexChecksum (BitVec.ofNat 8 chunk.length ::
        BitVec.ofNat 8 (start >>> 8 &&& 0xff) :: BitVec.ofNat 8 (start &&& 0xff) :: 0 ::
          chunk)])[a - start]? := by
    rw [Nat.add_comm]
    rfl
  rw [hbytes, List.getElem?_append_left (by omega)]

theorem matches_hexLine {bytes : List Byte}
    (hdeclared : bytes.length = (bytes.getD 0 0).toNat + 5) (hsum : bytes.sum = 0) :
    Matches (hexLine bytes) := by
  have hbuf : hexBuffer ((hexLine bytes).drop 1) = bytes := hexBuffer_flatMap bytes
  refine ⟨?_, ?_, ?_⟩
  · rw [hbuf]
    exact length_flatMap_hexPad bytes
  · rwa [hbuf]
  · rwa [hbuf]

theorem matches_hexRecord (start : Nat) (hlen : chunk.length ≤ 16) :
    Matches (hexLine (hexRecord start chunk)) := by
  refine matches_hexLine ?_ (sum_hexChecksum _)
  rw [count_hexRecord hlen]
  simp [hexRecord]

end WrittenRecord

section Image

/-- An image below `0x10000` -/
structure ByteImage where
  bytes : ByteMap Byte
  below : ∀ a ∈ bytes, a < 0x10000

/-- The records of an image, without the one that ends the text -/
def imageRecords (image : ByteImage) : List (List Byte) :=
  (hexChunks image.bytes (image.bytes.keys.mergeSort (· ≤ ·))).map fun c => hexRecord c.1 c.2

def endRecord : List Byte := [0, 0, 0, 1, 0xff]

theorem hexLine_endRecord : hexLine endRecord = ":00000001FF".toList := by decide

variable (image : ByteImage)

theorem trimmedLines_bytesToIntelHex : trimmedLines (bytesToIntelHex image.bytes).toList =
    (imageRecords image ++ [endRecord]).map hexLine ++ [[]] := by
  rw [bytesToIntelHex, String.toList_ofList, ← hexLine_endRecord, ← trimmedLines_hexLines,
    List.map_append, imageRecords, List.map_map]
  rfl

theorem mem_keys_sorted (a : Nat) :
    a ∈ image.bytes.keys.mergeSort (· ≤ ·) ↔ a ∈ image.bytes :=
  List.mem_mergeSort.trans AList.mem_keys.symm

theorem mem_imageRecords {record : List Byte} (h : record ∈ imageRecords image) :
    ∃ start chunk, record = hexRecord start chunk ∧ start < 0x10000 ∧ chunk.length ≤ 16 ∧
      ∀ i < chunk.length, start + i ∈ image.bytes ∧
        chunk[i]? = image.bytes.lookup (start + i) := by
  obtain ⟨c, hc, rfl⟩ := List.mem_map.mp h
  obtain ⟨⟨hpos, haddrs, hbytes⟩, hlen⟩ := (mem_hexChunks image.bytes _).1 c hc
  have hmem : ∀ i < c.2.length, c.1 + i ∈ image.bytes := fun i hi =>
    (mem_keys_sorted image _).mp (haddrs i hi)
  refine ⟨c.1, c.2, rfl, image.below _ (hmem 0 hpos), hlen, fun i hi => ⟨hmem i hi, ?_⟩⟩
  obtain ⟨b, hb⟩ := Option.isSome_iff_exists.mp (AList.lookup_isSome.mpr (hmem i hi))
  rw [hbytes i hi, hb, Option.getD_some]

theorem not_declares_endRecord (a : Nat) : ¬ Declares (hexLine endRecord) a := by
  rintro ⟨buf, hbuf, _⟩
  have hnone : dataRecord (hexLine endRecord) = none := by decide
  rw [hnone] at hbuf
  cases hbuf

theorem not_declares_nil (a : Nat) : ¬ Declares [] a := by
  rintro ⟨buf, hbuf, _⟩
  cases hbuf

/-- What a line of the text declares is in the image, and it gives the byte of the image. -/
theorem stored_line {line : List Char} {a : Nat}
    (hline : line ∈ trimmedLines (bytesToIntelHex image.bytes).toList) (h : Declares line a) :
    a ∈ image.bytes ∧ stored line a = some (image.bytes.lookup a) := by
  rw [trimmedLines_bytesToIntelHex, List.map_append] at hline
  simp only [List.mem_append, List.map_cons, List.map_nil, List.mem_singleton] at hline
  rcases hline with (hline | rfl) | rfl
  · obtain ⟨record, hrecord, rfl⟩ := List.mem_map.mp hline
    obtain ⟨start, chunk, rfl, hstart, hlen, hbytes⟩ := mem_imageRecords image hrecord
    have hin := (declares_hexRecord hstart hlen).mp h
    have hplace : start + (a - start) = a := by omega
    obtain ⟨hmem, hvalue⟩ := hbytes (a - start) (by omega)
    rw [hplace] at hmem hvalue
    exact ⟨hmem, by rw [stored_hexRecord hstart hlen hin, hvalue]⟩
  · exact absurd h (not_declares_endRecord a)
  · exact absurd h (not_declares_nil a)

/-- Every address of the image is declared. -/
theorem declared_line {a : Nat} (h : a ∈ image.bytes) :
    ∃ line ∈ trimmedLines (bytesToIntelHex image.bytes).toList, Declares line a := by
  obtain ⟨c, hc, hin⟩ :=
    (mem_hexChunks image.bytes _).2 a ((mem_keys_sorted image a).mpr h)
  obtain ⟨⟨hpos, haddrs, _⟩, hlen⟩ := (mem_hexChunks image.bytes _).1 c hc
  have hstart : c.1 < 0x10000 := image.below _ ((mem_keys_sorted image _).mp (haddrs 0 hpos))
  refine ⟨hexLine (hexRecord c.1 c.2), ?_, (declares_hexRecord hstart hlen).mpr hin⟩
  rw [trimmedLines_bytesToIntelHex]
  refine List.mem_append_left _ (List.mem_map_of_mem (List.mem_append_left _ ?_))
  exact List.mem_map.mpr ⟨c, hc, rfl⟩

/-- Reading undoes writing. -/
theorem lookup_written (a : Nat) :
    (parseIntelHex (bytesToIntelHex image.bytes)).lookup a = (image.bytes.lookup a).map some := by
  rw [parseIntelHex, lookup_foldl_storeLine]
  by_cases ha : a ∈ image.bytes
  · obtain ⟨line, hline, hdeclares⟩ := declared_line image ha
    obtain ⟨l, hl, horigin⟩ := origin_isSome hline hdeclares
    obtain ⟨b, hb⟩ := Option.isSome_iff_exists.mp (AList.lookup_isSome.mpr ha)
    rw [horigin, Option.bind_some, (stored_line image hl (declares_of_origin horigin)).2, hb]
    rfl
  · have hnone : origin (trimmedLines (bytesToIntelHex image.bytes).toList) a = none := by
      cases horigin : origin (trimmedLines (bytesToIntelHex image.bytes).toList) a with
      | none => rfl
      | some l =>
          have hl : l ∈ trimmedLines (bytesToIntelHex image.bytes).toList :=
            (List.mem_filter.mp (List.mem_of_getLast? horigin)).1
          exact absurd (stored_line image hl (declares_of_origin horigin)).1 ha
    rw [hnone, AList.lookup_eq_none.mpr ha]
    rfl

/-- The records of the text match it; in particular they sum to zero. -/
theorem matches_written {line : List Char}
    (hline : line ∈ trimmedLines (bytesToIntelHex image.bytes).toList) (hne : line ≠ []) :
    line.head? = some ':' ∧ Matches line := by
  rw [trimmedLines_bytesToIntelHex, List.map_append] at hline
  simp only [List.mem_append, List.map_cons, List.map_nil, List.mem_singleton] at hline
  rcases hline with (hline | rfl) | rfl
  · obtain ⟨record, hrecord, rfl⟩ := List.mem_map.mp hline
    obtain ⟨start, chunk, rfl, _, hlen, _⟩ := mem_imageRecords image hrecord
    exact ⟨rfl, matches_hexRecord start hlen⟩
  · exact ⟨rfl, matches_hexLine (by decide) (by decide)⟩
  · exact absurd rfl hne

end Image

section Results

/-- The writer and the reader agree on every image, and every record of the text sums to
zero.  A text of which no record fails its count or checksum for bytes of its own is read
as it should be, and no other. -/
theorem intelHex_image_and_text (image : ByteImage) (text : String) :
    (∀ a, (parseIntelHex (bytesToIntelHex image.bytes)).lookup a =
        (image.bytes.lookup a).map some) ∧
      (∀ line ∈ trimmedLines (bytesToIntelHex image.bytes).toList, line ≠ [] →
        line.head? = some ':' ∧ Matches line) ∧
      (Rejects text ↔ Superseded text) :=
  ⟨lookup_written image, fun _ hline hne => matches_written image hline hne, rejects_iff text⟩

/-- A record with a wrong checksum, and one that is too short for its count: the byte of the
first is returned, and the second gives its checksum for a byte. -/
theorem unchecked_records_returned :
    (parseIntelHex ":0100000055AB\n").lookup 0 = some (some 0x55) ∧
      (parseIntelHex ":0200000055A9\n").lookup 1 = some (some 0xa9) ∧
      ¬ Rejects ":0100000055AB\n" ∧ ¬ Rejects ":0200000055A9\n" := by
  have hchecksum : (parseIntelHex ":0100000055AB\n").lookup 0 = some (some 0x55) := by
    decide
  have hlength : (parseIntelHex ":0200000055A9\n").lookup 1 = some (some 0xa9) := by
    decide
  refine ⟨hchecksum, hlength, ?_, ?_⟩
  · intro h
    obtain ⟨line, hline, _, hmatches⟩ := h 0 _ hchecksum
    have hfirst : origin (trimmedLines ":0100000055AB\n".toList) 0 =
        some ":0100000055AB".toList := by decide
    obtain rfl : ":0100000055AB".toList = line := Option.some.inj (hfirst.symm.trans hline)
    exact absurd hmatches.checksum (by decide)
  · intro h
    obtain ⟨line, hline, _, hmatches⟩ := h 1 _ hlength
    have hfirst : origin (trimmedLines ":0200000055A9\n".toList) 1 =
        some ":0200000055A9".toList := by decide
    obtain rfl : ":0200000055A9".toList = line := Option.some.inj (hfirst.symm.trans hline)
    exact absurd hmatches.declared (by decide)

end Results

end AsmTs
end RetroCpu
