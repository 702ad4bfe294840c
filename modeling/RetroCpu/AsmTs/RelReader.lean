import RetroCpu.AsmTs.RelChunks
import RetroCpu.AsmTs.SdldLink

/-!
# What the reader makes of the records of the writer

Reading an object file is a loop over its records; here is what one record of each kind does
to the state of the loop.
-/

namespace RetroCpu
namespace AsmTs

open Js

section Numbers

theorem ushr_8 (v : Int) : ushr v 8 = v % 2 ^ 32 / 256 := by
  have h8 : (toBits 8).toNat % 32 = 8 := rfl
  unfold ushr
  rw [h8, BitVec.toNat_ushiftRight, Nat.shiftRight_eq_div_pow]
  have hv : ((toBits v).toNat : Int) = v % 2 ^ 32 := by
    rw [toBits, BitVec.toNat_ofInt]
    have : 0 ≤ v % 2 ^ 32 := Int.emod_nonneg _ (by decide)
    exact Int.toNat_of_nonneg this
  push_cast
  rw [hv]
  norm_num

theorem parse_hex2 (v : Int) : parseInt16 (hex2 v) = .int (v % 256) := by
  have h0 : 0 ≤ v % 256 := Int.emod_nonneg _ (by decide)
  have h1 : v % 256 < 256 := Int.emod_lt_of_pos _ (by decide)
  unfold hex2
  rw [land_ff, parseInt16_hexPad (by decide) (by omega)]
  congr 1
  have : (v % 256).toNat % 16 ^ 2 = (v % 256).toNat := Nat.mod_eq_of_lt (by omega)
  rw [this]
  omega

/-- Two bytes, the high one first, make a word. -/
theorem lor_shl_bytes {a b : Int} (ha : 0 ≤ a) (ha' : a < 256) (hb : 0 ≤ b) (hb' : b < 256) :
    lor (shl a 8) b = a * 256 + b := by
  rw [shl_mul 8 (by decide) ha (by omega)]
  exact lor_add 8 (by omega) (by omega) (by omega) hb (by omega) (by decide)

theorem parse_beWord (v : Int) :
    (beWord v).map parseInt16 = [.int (v % 2 ^ 32 / 256 % 256), .int (v % 256)] := by
  simp only [beWord, List.map_cons, List.map_nil, parse_hex2, ushr_8]

theorem wordAt_bytes (v : Int) (rest : List Number) :
    wordAt (.int (v % 2 ^ 32 / 256 % 256) :: .int (v % 256) :: rest) 0 = v % 65536 := by
  have h : wordAt (.int (v % 2 ^ 32 / 256 % 256) :: .int (v % 256) :: rest) 0 =
      lor (shl (v % 2 ^ 32 / 256 % 256) 8) (v % 256) := rfl
  rw [h, lor_shl_bytes] <;> omega

end Numbers

section Fields

theorem words_hexPad {width n : Nat} (hw : 0 < width) :
    words isSpace (hexPad width n) = [hexPad width n] := by
  refine words_of_forall ?_ fun c hc => (hexChar_plain (hexChar_hexPad c hc)).2.2.2.2.2
  intro h
  have := length_hexPad width n
  rw [h, List.length_nil] at this
  omega

theorem words_hex2 (v : Int) : words isSpace (hex2 v) = [hex2 v] := words_hexPad (by decide)

theorem words_hex4 (v : Int) : words isSpace (hex4 v) = [hex4 v] := words_hexPad (by decide)

theorem flatMap_words_of_forall {fields : List (List Char)}
    (h : ∀ f ∈ fields, words isSpace f = [f]) : fields.flatMap (words isSpace) = fields := by
  induction fields with
  | nil => rfl
  | cons f fs ih =>
      rw [List.flatMap_cons, h f (by simp), ih fun g hg => h g (by simp [hg])]
      rfl

theorem words_beWord {v : Int} {f : List Char} (h : f ∈ beWord v) : words isSpace f = [f] := by
  simp only [beWord, List.mem_cons, List.not_mem_nil, or_false] at h
  rcases h with rfl | rfl
  · exact words_hex2 _
  · exact words_hex2 _

/-- The first word of a field, and the start of the next field for an empty one. -/
def firstWord (cs next : List Char) : String := String.ofList ((words isSpace cs).headD next)

theorem firstWord_plain {name : String} {next : List Char} (hne : name.toList ≠ [])
    (h : ∀ c ∈ name.toList, isSpace c = false) : firstWord name.toList next = name := by
  rw [firstWord, words_of_forall hne h]
  exact String.ofList_toList

end Fields

section Records

/-- The state after a record. -/
def readRecord (r : RelReader) (record : List Char) : RelReader :=
  readParts r (words isSpace record)

theorem readLine_trimChars (r : RelReader) (line : List Char) :
    readLine r (trimChars line) = readRecord r line := by
  unfold readLine readRecord
  rw [words_trimChars]
  split
  · rename_i h
    rw [← words_trimChars, List.isEmpty_iff.mp h]
    rfl
  · rfl

/-- Reading a text is reading its records. -/
theorem parseRelChunks_joinLines {records : List (List Char)} (h : ∀ l ∈ records, '\n' ∉ l) :
    parseRelChunks (String.ofList (joinLines records)) =
      (records.foldl readRecord {}).parsed := by
  unfold parseRelChunks trimmedLines
  rw [String.toList_ofList, pieces_joinLines h, List.map_append, List.foldl_append]
  have hlines : ∀ (ls : List (List Char)) (r : RelReader),
      (ls.map trimChars).foldl readLine r = ls.foldl readRecord r := by
    intro ls
    induction ls with
    | nil => exact fun r => rfl
    | cons l ls ih =>
        intro r
        rw [List.map_cons, List.foldl_cons, List.foldl_cons, readLine_trimChars, ih]
  rw [hlines [[]], hlines records]
  rfl

variable (r : RelReader)

theorem readRecord_fields {tag : Char} (htag : isSpace tag = false) (fields : List (List Char)) :
    readRecord r (joinFields ([tag] :: fields)) =
      readParts r ([tag] :: fields.flatMap (words isSpace)) := by
  have hwords : words isSpace [tag] = [[tag]] := words_of_forall (by simp) (by simpa using htag)
  rw [readRecord, words_joinFields, List.flatMap_cons, hwords]
  rfl

theorem readRecord_h (fields : List (List Char)) :
    readRecord r (joinFields (['H'] :: fields)) = r := by
  rw [readRecord_fields r (by decide)]
  rfl

theorem readRecord_m (fields : List (List Char)) :
    readRecord r (joinFields (['M'] :: fields)) = r := by
  rw [readRecord_fields r (by decide)]
  rfl

theorem head?_words_append (cs : List Char) (next : List Char) (rest : List (List Char)) :
    ((words isSpace cs ++ next :: rest).head?.map String.ofList) = some (firstWord cs next) := by
  unfold firstWord
  cases words isSpace cs with
  | nil => rfl
  | cons w ws => rfl

theorem readRecord_sRecord (name : String) {state : List Char}
    (hstate : words isSpace state = [state]) :
    readRecord r (sRecord name state) = { r with parsed := { r.parsed with
      symbols := r.parsed.symbols ++ [firstWord name.toList state] } } := by
  rw [sRecord, readRecord_fields r (by decide)]
  simp only [List.flatMap_cons, List.flatMap_nil, hstate]
  have h : readParts r (['S'] :: (words isSpace name.toList ++ ([state] ++ []))) =
      readS r (words isSpace name.toList ++ ([state] ++ [])) := rfl
  rw [h, readS, List.append_nil, head?_words_append]
  rfl

/-- The arguments of an A record. -/
def aArgs (area : String) (size flags : Int) : List (List Char) :=
  words isSpace area.toList ++ ["size".toList, hex4 size, "flags".toList, hex4 flags,
    "addr".toList, ['0']]

theorem readRecord_aRecord (area : String) (size flags : Int) :
    readRecord r (aRecord area size flags) = { r with
      currentArea := firstWord area.toList "size".toList
      parsed := { r.parsed with
        areas := r.parsed.areas ++ [firstWord area.toList "size".toList]
        areaSizes := r.parsed.areaSizes.set (firstWord area.toList "size".toList)
          (readSize (aArgs area size flags)) } } := by
  rw [aRecord, readRecord_fields r (by decide)]
  have hfields : [area.toList, "size".toList, hex4 size, "flags".toList, hex4 flags,
      "addr".toList, ['0']].flatMap (words isSpace) = aArgs area size flags := by
    have hlit : words isSpace "size".toList = ["size".toList] ∧
        words isSpace "flags".toList = ["flags".toList] ∧
        words isSpace "addr".toList = ["addr".toList] ∧ words isSpace ['0'] = [['0']] := by
      decide
    simp only [List.flatMap_cons, List.flatMap_nil, hlit, words_hex4, List.append_nil]
    rfl
  rw [hfields]
  have h : readParts r (['A'] :: aArgs area size flags) = readA r (aArgs area size flags) := rfl
  have hhead : (aArgs area size flags).head?.map String.ofList =
      some (firstWord area.toList "size".toList) := head?_words_append _ _ _
  rw [h, readA, hhead]
  rfl

theorem readRecord_tRecord (result : AssemblyResult) (chunk : List EmittedWord) :
    readRecord r (tRecord result chunk) = { r with
      pendingT := some (startByte result chunk % 65536,
        (chunkBytes chunk).map fun v => .int (v % 256)) } := by
  have hfields : (beWord (unitsToRelAddr (chunkAddr chunk) result.byteMode) ++
      (chunkBytes chunk).map hex2).flatMap (words isSpace) =
        beWord (unitsToRelAddr (chunkAddr chunk) result.byteMode) ++
          (chunkBytes chunk).map hex2 := by
    refine flatMap_words_of_forall ?_
    intro f hf
    rcases List.mem_append.mp hf with hf | hf
    · exact words_beWord hf
    · obtain ⟨v, _, rfl⟩ := List.mem_map.mp hf
      exact words_hex2 v
  have haddr : unitsToRelAddr (chunkAddr chunk) result.byteMode % 65536 =
      startByte result chunk % 65536 := by
    unfold unitsToRelAddr startByte
    cases result.byteMode with
    | true => rfl
    | false =>
        simp only [Bool.false_eq_true, if_false, land_ffff]
        omega
  rw [tRecord, List.cons_append, readRecord_fields r (by decide), hfields]
  have h : ∀ args, readParts r (['T'] :: args) = readT r args := fun _ => rfl
  rw [h, readT]
  simp only [List.map_append, parse_beWord, List.map_map, List.cons_append, List.nil_append,
    wordAt_bytes, haddr, List.drop_succ_cons, List.drop_zero]
  have hbytes : parseInt16 ∘ hex2 = fun v => Number.int (v % 256) := funext parse_hex2
  rw [hbytes]

/-- An item as it is read. -/
def readItem (item : RelocItem) : RelItem :=
  ⟨.int (item.mode % 256), .int (item.rtp % 256), item.index % 65536⟩

theorem readItems_itemFields (items : List RelocItem) :
    readItems ((items.flatMap itemFields).map parseInt16) = items.map readItem := by
  induction items with
  | nil => rfl
  | cons item items ih =>
      rw [List.flatMap_cons, List.map_append]
      simp only [itemFields, List.map_cons, parse_hex2, parse_beWord, List.cons_append,
        List.nil_append, readItems, ih, wordAt_bytes]
      rfl

theorem readRecord_rRecord {tAddr : Int} {data : List Number} (areaIdx : Nat)
    (items : List RelocItem) (hpending : r.pendingT = some (tAddr, data)) :
    readRecord r (rRecord areaIdx items) = { r with
      pendingT := none
      parsed := { r.parsed with chunks := r.parsed.chunks ++
        [⟨(r.parsed.areas[areaIdx % 65536]?).getD r.currentArea, tAddr, data,
          items.map readItem⟩] } } := by
  have hitem : ∀ f ∈ items.flatMap itemFields, words isSpace f = [f] := by
    intro f hf
    obtain ⟨item, _, hf⟩ := List.mem_flatMap.mp hf
    simp only [itemFields, List.mem_cons] at hf
    rcases hf with rfl | rfl | hf
    · exact words_hex2 _
    · exact words_hex2 _
    · exact words_beWord hf
  have hfields : (beWord R3_WORD_AREA ++ beWord areaIdx ++ items.flatMap itemFields).flatMap
      (words isSpace) = beWord R3_WORD_AREA ++ beWord areaIdx ++ items.flatMap itemFields := by
    refine flatMap_words_of_forall ?_
    intro f hf
    simp only [List.mem_append] at hf
    rcases hf with (hf | hf) | hf
    · exact words_beWord hf
    · exact words_beWord hf
    · exact hitem f hf
  rw [rRecord, List.cons_append, List.cons_append, readRecord_fields r (by decide), hfields]
  have h : ∀ args, readParts r (['R'] :: args) = readR r args := fun _ => rfl
  rw [h, readR, hpending]
  have hnums : (beWord R3_WORD_AREA ++ beWord areaIdx ++ items.flatMap itemFields).map
      parseInt16 = .int 0 :: .int 0 :: .int ((areaIdx : Int) % 2 ^ 32 / 256 % 256) ::
        .int ((areaIdx : Int) % 256) :: (items.flatMap itemFields).map parseInt16 := by
    rw [List.map_append, List.map_append, parse_beWord, parse_beWord]
    rfl
  have hindex : wordAt (.int 0 :: .int 0 :: .int ((areaIdx : Int) % 2 ^ 32 / 256 % 256) ::
      .int ((areaIdx : Int) % 256) :: (items.flatMap itemFields).map parseInt16) 2 =
        (areaIdx : Int) % 65536 :=
    wordAt_bytes (areaIdx : Int) ((items.flatMap itemFields).map parseInt16)
  have hentry : entryAt r.parsed.areas ((areaIdx : Int) % 65536) =
      r.parsed.areas[areaIdx % 65536]? := by
    unfold entryAt
    rw [if_neg (by omega)]
    congr 1
  dsimp only
  rw [hnums, hindex, hentry]
  simp only [List.drop_succ_cons, List.drop_zero, readItems_itemFields]

end Records

end AsmTs
end RetroCpu
