import RetroCpu.AsmTs.RelReading
import RetroCpu.AsmTs.SourceLines

/-!
# Writing an object file and reading it back

When the reader recovers the bytes and the relocations that the program has emitted.
-/

namespace RetroCpu
namespace AsmTs

open Js Checked

section Contents

variable (localeCompare : String → String → Int) (result : AssemblyResult)

/-- A relocation of an area at a byte address, with what it refers to. -/
structure AreaReloc where
  area : String
  addr : Int
  mode : Number
  index : Int
  target : String
deriving DecidableEq, Repr

/-- The areas of the object file. -/
def areaNames : List String := relAreaNames result (globalEntries localeCompare result)

def areaIndex : JsMap Nat := indexByName (areaNames localeCompare result)

def symIndex : JsMap Nat :=
  indexByName (symbolOrder result (globalEntries localeCompare result)
    (areaNames localeCompare result))

/-- The area of a relocation. -/
def areaOf (r : WordDiffReloc) : String := canonicalAreaName (r.area.getD "_CODE")

/-- The name of what a relocation refers to, as the linker knows it. -/
def relocTarget (r : WordDiffReloc) : String :=
  match r.left with
  | .symbol name => sdldSymName name
  | .word _ area => canonicalAreaName ((area <|> r.area).getD "_CODE")
  | .const _ => ""

/-- The item of a relocation, without its place in a chunk. -/
def itemOf (r : WordDiffReloc) : Option RelocItem :=
  relocItem r 0 (areaIndex localeCompare result) (symIndex localeCompare result)

/-- All bytes of the program, area by area. -/
def emittedBytes : List AreaByte :=
  (areaNames localeCompare result).flatMap fun area =>
    (wordsOf result area).flatMap (wordBytes result area)

/-- The relocations of the program, area by area. -/
def areaRelocs : List WordDiffReloc :=
  (areaNames localeCompare result).flatMap (relocsOf result)

def emittedReloc (r : WordDiffReloc) : Option AreaReloc :=
  (itemOf localeCompare result r).map fun item =>
    ⟨areaOf r, r.byteAddr, .int item.mode, item.index, relocTarget r⟩

def emittedRelocs : List AreaReloc :=
  (areaRelocs localeCompare result).filterMap (emittedReloc localeCompare result)

/-- The bytes of an object file. -/
def readBytes (p : ParsedRel) : List AreaByte :=
  p.chunks.flatMap fun c => placeBytes c.areaName c.tAddr c.data

/-- The bit of a mode that tells symbols from areas. -/
def R3_SYM : Int := 0x02

/-- What an item of an object file refers to. -/
def readTarget (p : ParsedRel) (mode : Number) (index : Int) : String :=
  (entryAt (if land mode.bits R3_SYM ≠ 0 then p.symbols else p.areas) index).getD ""

/-- The relocations of an object file. -/
def readRelocs (p : ParsedRel) : List AreaReloc :=
  p.chunks.flatMap fun c => c.items.map fun item =>
    ⟨c.areaName, c.tAddr + (item.rtp.bits - 2), item.mode, item.index,
      readTarget p item.mode item.index⟩

/-- The object file holds the bytes of the program at their places, and its relocations,
each once and at its own place. -/
def RoundTrips (p : ParsedRel) : Prop :=
  readBytes p = emittedBytes localeCompare result ∧
    (readRelocs p).Perm (emittedRelocs localeCompare result)

/-- The name that is read for the area of a chunk: the first word of the A record whose
number is that of the area, modulo 2^16. -/
def readName (area : String) : String :=
  let names := (areaNames localeCompare result).map fun a => firstWord a.toList "size".toList
  (names[((areaIndex localeCompare result).get area).getD 0 % 65536]?).getD
    (firstWord area.toList "size".toList)

structure Recoverable : Prop where
  /-- The areas with words are read under their own names. -/
  names : ∀ area ∈ areaNames localeCompare result, wordsOf result area ≠ [] →
    readName localeCompare result area = area
  /-- The T records begin below byte address 2^16. -/
  starts : ∀ area ∈ areaNames localeCompare result,
    ∀ chunk ∈ chunks result (wordsOf result area), startByte result chunk < 65536
  /-- The place of a relocation is emitted once only. -/
  once : ∀ r ∈ areaRelocs localeCompare result,
    (wordsOf result (areaOf r)).countP (covers result r.byteAddr) = 1
  /-- The symbols and areas that are referred to have numbers of 16 bits. -/
  indexes : ∀ r ∈ areaRelocs localeCompare result, ∀ item ∈ itemOf localeCompare result r,
    item.index < 65536

end Contents

section Bytes

variable {localeCompare : String → String → Int} {result : AssemblyResult}

theorem placeBytes_eq_iff {a a' : String} {s s' : Int} {u : List Number} (hu : u ≠ []) :
    placeBytes a s u = placeBytes a' s' u ↔ a = a' ∧ s = s' := by
  cases u with
  | nil => exact absurd rfl hu
  | cons x u =>
      constructor
      · intro h
        simp only [placeBytes, List.cons.injEq, AreaByte.mk.injEq] at h
        exact ⟨h.1.1, h.1.2.1⟩
      · rintro ⟨rfl, rfl⟩
        rfl

theorem chunkBytes_ne_nil {chunk : List EmittedWord} (h : chunk ≠ []) :
    (chunkBytes chunk).map Number.int ≠ [] := by
  intro hnil
  have hlen := length_chunkBytes chunk
  rw [List.map_eq_nil_iff.mp hnil, List.length_nil] at hlen
  exact h (List.length_eq_zero_iff.mp (by omega))

/-- The bytes of an area, chunk by chunk. -/
theorem wordsOf_bytes (area : String) :
    (wordsOf result area).flatMap (wordBytes result area) =
      (chunks result (wordsOf result area)).flatMap fun chunk =>
        placeBytes area (startByte result chunk) ((chunkBytes chunk).map .int) := by
  have hruns : ∀ cs : List (List EmittedWord), (∀ c ∈ cs, IsRun result c) →
      cs.flatten.flatMap (wordBytes result area) = cs.flatMap fun chunk =>
        placeBytes area (startByte result chunk) ((chunkBytes chunk).map .int) := by
    intro cs
    induction cs with
    | nil => exact fun _ => rfl
    | cons c cs ih =>
        intro h
        rw [List.flatten_cons, List.flatMap_append, List.flatMap_cons,
          ih fun c hc => h c (by simp [hc]), placeBytes_run area (h c (by simp))]
  have h := hruns (chunks result (wordsOf result area)) fun c hc => (mem_chunks hc).2.2
  rw [flatten_chunks] at h
  exact h

variable {p : ParsedRel}

/-- The chunks of an object file that has been read. -/
def ChunksRead (localeCompare : String → String → Int) (result : AssemblyResult)
    (p : ParsedRel) : Prop :=
  p.chunks = (areaNames localeCompare result).flatMap fun area =>
    (chunks result (wordsOf result area)).map
      (readChunk result (areaIndex localeCompare result) (symIndex localeCompare result)
        ((areaNames localeCompare result).map fun a => firstWord a.toList "size".toList) area)

/-- The bytes come back exactly if every chunk is read at its place. -/
theorem readBytes_eq_iff (hp : ChunksRead localeCompare result p) :
    readBytes p = emittedBytes localeCompare result ↔
      ∀ area ∈ areaNames localeCompare result, ∀ chunk ∈ chunks result (wordsOf result area),
        readName localeCompare result area = area ∧
          startByte result chunk % 65536 = startByte result chunk := by
  have hread : readBytes p = (areaNames localeCompare result).flatMap fun area =>
      (chunks result (wordsOf result area)).flatMap fun chunk =>
        placeBytes (readName localeCompare result area) (startByte result chunk % 65536)
          ((chunkBytes chunk).map .int) := by
    rw [readBytes, hp, List.flatMap_assoc]
    refine List.flatMap_congr fun area _ => ?_
    rw [List.flatMap_map]
    rfl
  rw [hread, emittedBytes]
  simp only [wordsOf_bytes]
  rw [ListPieces.flatMap_eq_iff]
  · constructor
    · intro h area harea chunk hchunk
      have harea := h area harea
      rw [ListPieces.flatMap_eq_iff fun _ _ => by simp [length_placeBytes]] at harea
      exact (placeBytes_eq_iff (chunkBytes_ne_nil (mem_chunks hchunk).1)).mp (harea chunk hchunk)
    · intro h area harea
      rw [ListPieces.flatMap_eq_iff fun _ _ => by simp [length_placeBytes]]
      intro chunk hchunk
      exact (placeBytes_eq_iff (chunkBytes_ne_nil (mem_chunks hchunk).1)).mpr
        (h area harea chunk hchunk)
  · intro area _
    rw [List.length_flatMap, List.length_flatMap]
    simp only [length_placeBytes]

/-- Every area with words has a chunk. -/
theorem exists_chunk {area : String} (h : wordsOf result area ≠ []) :
    ∃ chunk, chunk ∈ chunks result (wordsOf result area) := by
  cases hc : chunks result (wordsOf result area) with
  | nil =>
      have := flatten_chunks result (wordsOf result area)
      rw [hc] at this
      exact absurd this.symm h
  | cons chunk _ => exact ⟨chunk, by simp⟩

end Bytes

section Relocs

variable {localeCompare : String → String → Int} {result : AssemblyResult} {p : ParsedRel}

/-- How often the place of a relocation is emitted. -/
def timesEmitted (result : AssemblyResult) (r : WordDiffReloc) : Nat :=
  (wordsOf result (areaOf r)).countP (covers result r.byteAddr)

/-- The relocations in the order of the R records. -/
def writtenRelocs (localeCompare : String → String → Int) (result : AssemblyResult) :
    List WordDiffReloc :=
  (areaNames localeCompare result).flatMap fun area =>
    (chunks result (wordsOf result area)).flatMap (chunkRelocs result (relocsOf result area))

/-- A relocation as it is read. -/
def readReloc (localeCompare : String → String → Int) (result : AssemblyResult) (p : ParsedRel)
    (r : WordDiffReloc) : Option AreaReloc :=
  (itemOf localeCompare result r).map fun item =>
    ⟨areaOf r, r.byteAddr, .int item.mode, item.index % 65536,
      readTarget p (.int item.mode) (item.index % 65536)⟩

theorem areaOf_of_mem {area : String} {r : WordDiffReloc} (h : r ∈ relocsOf result area) :
    areaOf r = area := by
  have h := (List.mem_filter.mp h).2
  simpa [areaOf] using h

theorem chunkRelocs_eq_filter (relocs : List WordDiffReloc) (chunk : List EmittedWord) :
    chunkRelocs result relocs chunk = relocs.filter fun r => inChunk result r.byteAddr chunk := by
  unfold chunkRelocs inChunk
  refine List.filter_congr fun r _ => ?_
  rw [Bool.decide_and]

/-- Each relocation is written once for each word that covers its place. -/
theorem writtenRelocs_perm : (writtenRelocs localeCompare result).Perm
    ((areaRelocs localeCompare result).flatMap fun r =>
      List.replicate (timesEmitted result r) r) := by
  rw [areaRelocs, List.flatMap_assoc]
  refine List.Perm.flatMap (List.Perm.refl _) fun area _ => ?_
  rw [List.flatMap_congr fun chunk _ => chunkRelocs_eq_filter (relocsOf result area) chunk]
  refine (ListPieces.flatMap_filter_perm
    (fun chunk (r : WordDiffReloc) => inChunk result r.byteAddr chunk)
    _ _).trans (List.Perm.of_eq (List.flatMap_congr fun r hr => ?_))
  rw [countP_inChunk, timesEmitted, areaOf_of_mem hr]

theorem relocItem_rtp (r : WordDiffReloc) (rtp : Int) (areas symbols : JsMap Nat) :
    relocItem r rtp areas symbols =
      (relocItem r 0 areas symbols).map fun item => { item with rtp } := by
  unfold relocItem
  split
  · rfl
  · cases r.left with
    | symbol name =>
        dsimp only
        rw [Option.map_map]
        rfl
    | word _ area =>
        dsimp only
        rw [Option.map_map]
        rfl
    | const _ => rfl

/-- The index of an item is the place of a symbol or of an area. -/
theorem relocItem_spec {r : WordDiffReloc} {rtp : Int} {areas symbols : JsMap Nat}
    {item : RelocItem} (h : relocItem r rtp areas symbols = some item) :
    (∃ name idx, r.left = .symbol name ∧ symbols.get name = some idx ∧ item.index = idx ∧
      (item.mode = 2 ∨ item.mode = 3)) ∨
    ∃ v area idx, r.left = .word v area ∧
      areas.get (canonicalAreaName ((area <|> r.area).getD "_CODE")) = some idx ∧
      item.index = idx ∧ (item.mode = 0 ∨ item.mode = 1) := by
  unfold relocItem at h
  split at h
  · cases h
  · cases hleft : r.left with
    | symbol name =>
        rw [hleft] at h
        obtain ⟨idx, hidx, rfl⟩ := Option.map_eq_some_iff.mp h
        refine .inl ⟨name, idx, rfl, hidx, rfl, ?_⟩
        dsimp only
        split
        · exact .inr rfl
        · exact .inl rfl
    | word v area =>
        rw [hleft] at h
        obtain ⟨idx, hidx, rfl⟩ := Option.map_eq_some_iff.mp h
        refine .inr ⟨v, area, idx, rfl, hidx, rfl, ?_⟩
        dsimp only
        split
        · exact .inr rfl
        · exact .inl rfl
    | const _ =>
        rw [hleft] at h
        cases h

theorem itemOf_range {r : WordDiffReloc} {item : RelocItem}
    (h : itemOf localeCompare result r = some item) :
    0 ≤ item.mode ∧ item.mode < 4 ∧ 0 ≤ item.index := by
  rcases relocItem_spec h with ⟨_, idx, _, _, hidx, hmode⟩ | ⟨_, _, idx, _, _, hidx, hmode⟩
  · omega
  · omega

/-- The relocations of the chunks, where these are read at their places. -/
theorem readRelocs_eq (hp : ChunksRead localeCompare result p)
    (hbytes : ∀ area ∈ areaNames localeCompare result,
      ∀ chunk ∈ chunks result (wordsOf result area), readName localeCompare result area = area ∧
        startByte result chunk % 65536 = startByte result chunk) :
    readRelocs p = (writtenRelocs localeCompare result).filterMap
      (readReloc localeCompare result p) := by
  have hitem : ∀ area ∈ areaNames localeCompare result,
      ∀ chunk ∈ chunks result (wordsOf result area),
      ∀ r ∈ chunkRelocs result (relocsOf result area) chunk,
        ((itemIn result (areaIndex localeCompare result) (symIndex localeCompare result) chunk
            r).map readItem).map (fun item => AreaReloc.mk (readName localeCompare result area)
              (startByte result chunk % 65536 + (item.rtp.bits - 2)) item.mode item.index
              (readTarget p item.mode item.index)) = readReloc localeCompare result p r := by
    intro area harea chunk hchunk r hr
    obtain ⟨hname, hstart⟩ := hbytes area harea chunk hchunk
    rw [chunkRelocs_eq_filter, List.mem_filter] at hr
    obtain ⟨hr, hin⟩ := hr
    simp only [inChunk, Bool.and_eq_true, decide_eq_true_eq, length_chunkBytes] at hin
    have hlen := (mem_chunks hchunk).2.1
    unfold itemIn readReloc
    rw [relocItem_rtp, hname, hstart]
    cases hbase : itemOf localeCompare result r with
    | none =>
        unfold itemOf at hbase
        rw [hbase]
        rfl
    | some item =>
        obtain ⟨hm0, hm1, _⟩ := itemOf_range hbase
        unfold itemOf at hbase
        rw [hbase]
        simp only [Option.map_some, Option.some.injEq, readItem, Number.bits, AreaReloc.mk.injEq,
          areaOf_of_mem hr, true_and]
        have hmode : item.mode % 256 = item.mode := by omega
        rw [hmode]
        refine ⟨?_, rfl, rfl⟩
        omega
  rw [readRelocs, hp, writtenRelocs, List.flatMap_assoc, List.filterMap_flatMap]
  refine List.flatMap_congr fun area harea => ?_
  rw [List.flatMap_map, List.filterMap_flatMap]
  refine List.flatMap_congr fun chunk hchunk => ?_
  have hmap : ∀ l : List WordDiffReloc,
      (∀ r ∈ l, r ∈ chunkRelocs result (relocsOf result area) chunk) →
      ((l.filterMap (itemIn result (areaIndex localeCompare result)
        (symIndex localeCompare result) chunk)).map readItem).map
          (fun item => AreaReloc.mk (readName localeCompare result area)
            (startByte result chunk % 65536 + (item.rtp.bits - 2)) item.mode item.index
            (readTarget p item.mode item.index)) =
        l.filterMap (readReloc localeCompare result p) := by
    intro l hl
    rw [List.map_filterMap, List.map_filterMap]
    exact List.filterMap_congr fun r hr => hitem area harea chunk hchunk r (hl r hr)
  exact hmap _ fun r hr => hr

end Relocs

section Targets

/-- A name that is one word. -/
def PlainName (name : String) : Prop := name.toList ≠ [] ∧ ∀ c ∈ name.toList, isSpace c = false

theorem plainName_toUpperCase {name : String} (h : PlainName name) :
    PlainName (toUpperCase name) := by
  obtain ⟨hne, hspace⟩ := h
  constructor
  · intro hnil
    rw [toUpperCase, String.toList_ofList, List.flatMap_eq_nil_iff] at hnil
    cases hcs : name.toList with
    | nil => exact hne hcs
    | cons c cs => exact upperChar_ne_nil c (hnil c (by simp [hcs]))
  · intro d hd
    rw [toUpperCase, String.toList_ofList] at hd
    obtain ⟨c, hc, hd⟩ := List.mem_flatMap.mp hd
    exact isSpace_upperChar (hspace c hc) hd

theorem isSpace_of_symbolPart {c : Char} (h : symbolPart c = true) : isSpace c = false := by
  have key : ∀ n ∈ [9, 10, 11, 12, 13, 0x20, 0xa0, 0x1680, 0x2000, 0x2001, 0x2002, 0x2003, 0x2004,
      0x2005, 0x2006, 0x2007, 0x2008, 0x2009, 0x200a, 0x2028, 0x2029, 0x202f, 0x205f, 0x3000,
      0xfeff], symbolPart (Char.ofNat n) = false := by
    decide
  by_contra hs
  have hmem : c.toNat ∈ [9, 10, 11, 12, 13, 0x20, 0xa0, 0x1680, 0x2000, 0x2001, 0x2002, 0x2003,
      0x2004, 0x2005, 0x2006, 0x2007, 0x2008, 0x2009, 0x200a, 0x2028, 0x2029, 0x202f, 0x205f,
      0x3000, 0xfeff] := by
    simp only [isSpace, Bool.not_eq_false, Bool.or_eq_true, Bool.and_eq_true, decide_eq_true_eq,
      beq_iff_eq] at hs
    simp only [List.mem_cons, List.not_mem_nil, or_false]
    omega
  have hc := key _ hmem
  rw [Char.ofNat_toNat, h] at hc
  cases hc

theorem plainName_of_operand {arg name : String} (h : parseSimpleSymbolOperand arg = some name) :
    PlainName name := by
  have hsymbol : ∀ t : String, test symbolPattern t = true → PlainName t := by
    intro t ht
    obtain ⟨c, rest, hcs, hc, hrest⟩ := matchAll_one_star ht
    constructor
    · rw [hcs]
      simp
    · intro d hd
      rw [hcs, List.mem_cons] at hd
      have hpart : symbolPart d = true := by
        rcases hd with rfl | hd
        · simp only [symbolStart, symbolPart, Char.isAlphanum, Bool.or_eq_true] at hc ⊢
          rcases hc with ((hc | hc) | hc) | hc
          · exact .inl (.inl (.inl (.inl hc)))
          · exact .inl (.inl (.inr hc))
          · exact .inl (.inr hc)
          · exact .inr hc
        · exact hrest d hd
      exact isSpace_of_symbolPart hpart
  unfold parseSimpleSymbolOperand at h
  dsimp only at h
  rw [Option.ite_none_right_eq_some, Option.some_inj] at h
  obtain ⟨ht, rfl⟩ := h
  exact plainName_toUpperCase (hsymbol _ ht)

theorem plainName_sdldSymName {name : String} (h : PlainName name) :
    PlainName (sdldSymName name) := by
  obtain ⟨hne, hspace⟩ := h
  unfold sdldSymName
  split
  · rename_i rest hcs
    rw [hcs] at hspace
    constructor
    · simp
    · intro c hc
      rw [String.toList_ofList, List.mem_cons] at hc
      rcases hc with rfl | hc
      · decide
      · exact hspace c (List.mem_cons_of_mem _ hc)
  · rename_i rest hcs
    rw [hcs] at hspace
    constructor
    · simp
    · intro c hc
      rw [String.toList_ofList, List.mem_cons] at hc
      rcases hc with rfl | hc
      · decide
      · exact hspace c (List.mem_cons_of_mem _ hc)
  · exact ⟨hne, hspace⟩

theorem sdldSymName_checkpointId (name serial : String) :
    sdldSymName (checkpointId name serial) = checkpointId name serial := by
  have h : (checkpointId name serial).toList = '_' :: ("_CP$" ++ name ++ "$" ++ serial).toList := by
    simp [checkpointId, String.toList_append]
  unfold sdldSymName
  split
  · rename_i hcs
    rw [h] at hcs
    cases hcs
  · rename_i hcs
    rw [h] at hcs
    cases hcs
  · rfl

/-- The symbols are read in the order of their numbers. -/
theorem readSymbols_spec (result : AssemblyResult) (globals : List GlobalEntry)
    (names : List String) :
    List.Forall₂ (fun n s => ∃ next, s = firstWord (sdldSymName n).toList next)
      (symbolOrder result globals names) (readSymbols result globals names) := by
  have hmap : ∀ {α : Type} (l : List α) (name : α → String) (next : α → List Char),
      List.Forall₂ (fun n s => ∃ next, s = firstWord (sdldSymName n).toList next)
        (l.map name) (l.map fun a => firstWord (sdldSymName (name a)).toList (next a)) := by
    intro α l name next
    induction l with
    | nil => exact .nil
    | cons a l ih => exact .cons ⟨next a, rfl⟩ ih
  unfold symbolOrder readSymbols
  refine List.Forall₂.cons ⟨[], ?_⟩ (List.rel_append (hmap _ _ _) ?_)
  · have habs : sdldSymName absName = absName := by decide +kernel
    rw [habs, firstWord_plain (by decide) (forall_mem_of_all (by decide))]
  · induction names with
    | nil => exact .nil
    | cons area names ih =>
        rw [List.flatMap_cons, List.flatMap_cons]
        refine List.rel_append (List.rel_append (hmap _ _ _) ?_) ih
        have h := hmap (areaCheckpoints result area) (fun cp => checkpointId cp.name cp.serial)
          (fun cp => "Def".toList ++ hex4 (unitsToRelAddr cp.address result.byteMode))
        simp only [sdldSymName_checkpointId] at h ⊢
        exact h

end Targets

section Theorem

variable {target : Target} {mentions : String → String → Except String Bool}
  {localeCompare : String → String → Int} {parsed lines : List ParsedLine}
  {result : AssemblyResult} {first : Pass1} {second : Pass2} {moduleName : String}
  {records : List (List Char)}

/-- Every relocation lies in a word of the program. -/
theorem relocs_placed (ha : Assembled target mentions parsed lines result first second) :
    ∀ r ∈ result.relocs, ∃ w ∈ result.words, PlacedAt target result.symbolInfos w r := by
  rw [ha.relocs, ha.words]
  refine pass2_invariant
    (P := fun st => ∀ r ∈ st.relocs, ∃ w ∈ st.words, PlacedAt target result.symbolInfos w r)
    ?_ ?_ ha.hsecond
  · intro r hr
    cases hr
  · intro st st' hstep hst
    cases hstep with
    | org pc => exact hst
    | area line name noload => exact hst
    | storage lineNo size => exact hst
    | emit line values relocs hl hnew =>
        intro r hr
        rcases List.mem_append.mp hr with hr | hr
        · obtain ⟨w, hw, hplaced⟩ := hst r hr
          exact ⟨w, List.mem_append_left _ hw, hplaced⟩
        · obtain ⟨w, hw, hplaced⟩ := hnew r hr
          exact ⟨w, List.mem_append_right _ hw, hplaced⟩

theorem mem_areaRelocs {r : WordDiffReloc} (hr : r ∈ areaRelocs localeCompare result) :
    areaOf r ∈ areaNames localeCompare result ∧ r ∈ relocsOf result (areaOf r) ∧
      r ∈ result.relocs := by
  obtain ⟨area, harea, hr⟩ := List.mem_flatMap.mp hr
  rw [areaOf_of_mem hr]
  exact ⟨harea, hr, (List.mem_filter.mp hr).1⟩

theorem timesEmitted_pos (ha : Assembled target mentions parsed lines result first second)
    {r : WordDiffReloc} (hr : r ∈ result.relocs) : 1 ≤ timesEmitted result r := by
  obtain ⟨w, hw, harea, hplace, _⟩ := relocs_placed ha r hr
  refine List.countP_pos_iff.mpr ⟨w, ?_, ?_⟩
  · simp only [wordsOf, List.mem_mergeSort, List.mem_filter, areaOf, harea, Option.getD_some]
    exact ⟨hw, by simp⟩
  · unfold covers unitByte
    rw [ha.byteMode]
    rcases hplace with ⟨hb, _⟩ | ⟨hmode, hb, _⟩
    · unfold Target.byteAddr at hb
      rw [hb]
      simp
    · rw [hb, hmode]
      simp

theorem nodup_areaNames : (areaNames localeCompare result).Nodup := by
  unfold areaNames relAreaNames
  dsimp only
  split
  · simp
  · exact nodup_orderLinkAreaNames _

/-- In a file that has been written, every relocation has an item. -/
theorem itemOf_isSome (ha : Assembled target mentions parsed lines result first second)
    (h : relRecords localeCompare result moduleName = .ok records) {r : WordDiffReloc}
    (hr : r ∈ areaRelocs localeCompare result) :
    ∃ item, itemOf localeCompare result r = some item := by
  obtain ⟨harea, hr, hmem⟩ := mem_areaRelocs hr
  have hpos := timesEmitted_pos ha hmem
  rw [timesEmitted, ← countP_inChunk] at hpos
  obtain ⟨chunk, hchunk, hin⟩ := List.countP_pos_iff.mp hpos
  obtain ⟨recs, hrecs, _⟩ := bind_eq_ok.mp h
  obtain ⟨rs, _, hrs⟩ := mapM_mem hrecs harea
  obtain ⟨data, hdata, _⟩ := bind_eq_ok.mp hrs
  obtain ⟨d, _, hd⟩ := mapM_mem hdata hchunk
  obtain ⟨items, hitems, _⟩ := bind_eq_ok.mp hd
  have hsome := (chunkItems_eq_ok hitems).2 r (by
    rw [chunkRelocs_eq_filter]
    exact List.mem_filter.mpr ⟨hr, hin⟩)
  unfold itemIn at hsome
  rw [relocItem_rtp, Option.isSome_map] at hsome
  exact Option.isSome_iff_exists.mp hsome

/-- The relocations in the order of the R records have items too. -/
theorem mem_writtenRelocs {r : WordDiffReloc} (hr : r ∈ writtenRelocs localeCompare result) :
    r ∈ areaRelocs localeCompare result := by
  have hr := writtenRelocs_perm.mem_iff.mp hr
  obtain ⟨r', hr', hrep⟩ := List.mem_flatMap.mp hr
  rw [(List.mem_replicate.mp hrep).2]
  exact hr'

theorem matchSymbol_symbol {infos : SymbolInfoTable} {areas : List String} {name n : String}
    {right : RelocOperand} (h : matchSymbol infos areas name = some (.symbol n, right)) :
    n = name := by
  unfold matchSymbol at h
  cases hget : infos.get name with
  | none =>
      rw [hget] at h
      cases h
  | some info =>
      rw [hget] at h
      dsimp only at h
      split at h
      · cases h
        rfl
      · split at h
        · cases h
        · cases h

theorem matchSymbol_word {infos : SymbolInfoTable} {areas : List String} {name : String}
    {v : Int} {area : Option String} {right : RelocOperand}
    (h : matchSymbol infos areas name = some (.word v area, right)) : ∃ a ∈ areas, area = some a := by
  unfold matchSymbol at h
  cases hget : infos.get name with
  | none =>
      rw [hget] at h
      cases h
  | some info =>
      rw [hget] at h
      dsimp only at h
      split at h
      · cases h
      · split at h
        · rename_i hmem
          simp only [Option.some.injEq, Prod.mk.injEq, RelocOperand.word.injEq] at h
          exact ⟨_, hmem, h.1.2.symm⟩
        · cases h

theorem relocAreas_plain : ∀ a ∈ relocAreas, canonicalAreaName a = a ∧ a.toList ≠ [] ∧
    ∀ c ∈ a.toList, isSpace c = false := by
  have h : ∀ a ∈ relocAreas, canonicalAreaName a = a ∧ a.toList ≠ [] ∧
      a.toList.all (fun c => decide (isSpace c = false)) = true := by
    decide +kernel
  intro a ha
  obtain ⟨hname, hne, hspace⟩ := h a ha
  exact ⟨hname, hne, forall_mem_of_all hspace⟩

/-- The number of an item leads to the name that the relocation refers to. -/
theorem readTarget_eq (ha : Assembled target mentions parsed lines result first second)
    {p : ParsedRel}
    (hareas : p.areas = (areaNames localeCompare result).map fun a =>
      firstWord a.toList "size".toList)
    (hsymbols : p.symbols = readSymbols result (globalEntries localeCompare result)
      (areaNames localeCompare result))
    {r : WordDiffReloc} (hr : r ∈ result.relocs) {item : RelocItem}
    (hitem : itemOf localeCompare result r = some item) :
    readTarget p (.int item.mode) item.index = relocTarget r := by
  obtain ⟨w, _, _, _, areas, hsub, arg, name, hname, hmatch⟩ := relocs_placed ha r hr
  rcases relocItem_spec hitem with ⟨n, idx, hleft, hget, hindex, hmode⟩ |
    ⟨v, area, idx, hleft, hget, hindex, hmode⟩
  · rw [hleft] at hmatch
    obtain rfl := matchSymbol_symbol hmatch
    have hplain := plainName_sdldSymName (plainName_of_operand hname)
    obtain ⟨hlen, hspec⟩ := List.forall₂_iff_get.mp (readSymbols_spec result
      (globalEntries localeCompare result) (areaNames localeCompare result))
    have hplace := indexByName_get hget
    obtain ⟨hlt, hat⟩ := List.getElem?_eq_some_iff.mp hplace
    obtain ⟨next, hs⟩ := hspec idx hlt (by omega)
    have hmode' : land item.mode R3_SYM ≠ 0 := by
      rcases hmode with hm | hm
      · rw [hm]
        decide
      · rw [hm]
        decide
    unfold readTarget relocTarget
    simp only [Number.bits, hmode', if_true, ne_eq, not_false_eq_true, hleft, hindex, entryAt]
    rw [if_neg (by omega), Int.toNat_natCast, hsymbols, List.getElem?_eq_getElem (by omega)]
    simp only [List.get_eq_getElem, hat, firstWord_plain hplain.1 hplain.2] at hs
    rw [hs, Option.getD_some]
  · rw [hleft] at hmatch
    obtain ⟨a, hmem, rfl⟩ := matchSymbol_word hmatch
    obtain ⟨hcanon, hne, hspace⟩ := relocAreas_plain a (hsub hmem)
    have hsome : ((some a <|> r.area).getD "_CODE") = a := rfl
    rw [hsome, hcanon] at hget
    have hplace := indexByName_get hget
    have hmode' : ¬ land item.mode R3_SYM ≠ 0 := by
      rcases hmode with hm | hm
      · rw [hm]
        decide
      · rw [hm]
        decide
    unfold readTarget relocTarget
    simp only [Number.bits, hmode', if_false, hleft, hindex, entryAt, hsome, hcanon]
    rw [if_neg (by omega), Int.toNat_natCast, hareas, List.getElem?_map, hplace]
    exact firstWord_plain hne hspace

theorem filterMap_eq_map {α β : Type} {f : α → Option β} {g : α → β} {l : List α}
    (h : ∀ a ∈ l, f a = some (g a)) : l.filterMap f = l.map g := by
  induction l with
  | nil => rfl
  | cons a l ih =>
      rw [List.filterMap_cons_some (h a (by simp)), ih fun b hb => h b (by simp [hb]), List.map_cons]

/-- A relocation is recovered exactly if its place is emitted once and its number has 16
bits, given that the bytes are. -/
theorem readRelocs_perm_iff (ha : Assembled target mentions parsed lines result first second)
    (h : relRecords localeCompare result moduleName = .ok records) {p : ParsedRel}
    (hareas : p.areas = (areaNames localeCompare result).map fun a =>
      firstWord a.toList "size".toList)
    (hsymbols : p.symbols = readSymbols result (globalEntries localeCompare result)
      (areaNames localeCompare result)) :
    ((writtenRelocs localeCompare result).filterMap (readReloc localeCompare result p)).Perm
        (emittedRelocs localeCompare result) ↔
      (∀ r ∈ areaRelocs localeCompare result, timesEmitted result r = 1) ∧
        ∀ r ∈ areaRelocs localeCompare result, ∀ item ∈ itemOf localeCompare result r,
          item.index < 65536 := by
  have hpos : ∀ r ∈ areaRelocs localeCompare result, 1 ≤ timesEmitted result r :=
    fun r hr => timesEmitted_pos ha (mem_areaRelocs hr).2.2
  have honce : (∀ r ∈ areaRelocs localeCompare result, timesEmitted result r = 1) →
      (writtenRelocs localeCompare result).Perm (areaRelocs localeCompare result) := by
    intro hone
    rw [← ListPieces.flatMap_replicate_of_one hone]
    exact writtenRelocs_perm
  -- the number that a relocation is written with
  let number (r : WordDiffReloc) : Nat :=
    ((itemOf localeCompare result r).map (·.index.toNat)).getD 0
  constructor
  · intro hperm
    have hlen : (writtenRelocs localeCompare result).length =
        (areaRelocs localeCompare result).length := by
      have hwritten : ∀ l : List WordDiffReloc,
          (∀ r ∈ l, r ∈ areaRelocs localeCompare result) →
          (l.filterMap (readReloc localeCompare result p)).length = l.length ∧
            (l.filterMap (emittedReloc localeCompare result)).length = l.length := by
        intro l
        induction l with
        | nil => exact fun _ => ⟨rfl, rfl⟩
        | cons r l ih =>
            intro hl
            obtain ⟨item, hitem⟩ := itemOf_isSome ha h (hl r (by simp))
            obtain ⟨h1, h2⟩ := ih fun r hr => hl r (by simp [hr])
            simp [readReloc, emittedReloc, hitem, h1, h2]
      have h1 := (hwritten (writtenRelocs localeCompare result)
        fun r hr => mem_writtenRelocs hr).1
      have h2 := (hwritten (areaRelocs localeCompare result) fun r hr => hr).2
      have h3 := hperm.length_eq
      unfold emittedRelocs at h3
      omega
    have hone := ListPieces.one_of_length_flatMap_replicate hpos
      (by rw [← writtenRelocs_perm.length_eq, hlen])
    refine ⟨hone, ?_⟩
    have hperm' := ((honce hone).symm.filterMap _).trans hperm
    have hsum := List.Perm.sum_nat (hperm'.map fun a => a.index.toNat)
    have hread : ((areaRelocs localeCompare result).filterMap
        (readReloc localeCompare result p)).map (fun a => a.index.toNat) =
          (areaRelocs localeCompare result).map fun r => number r % 65536 := by
      rw [List.map_filterMap]
      refine filterMap_eq_map fun r hr => ?_
      obtain ⟨item, hitem⟩ := itemOf_isSome ha h hr
      have := (itemOf_range hitem).2.2
      simp only [readReloc, hitem, Option.map_some, number, Option.getD_some, Option.some.injEq]
      omega
    have hemitted : (emittedRelocs localeCompare result).map (fun a => a.index.toNat) =
        (areaRelocs localeCompare result).map number := by
      rw [emittedRelocs, List.map_filterMap]
      refine filterMap_eq_map fun r hr => ?_
      obtain ⟨item, hitem⟩ := itemOf_isSome ha h hr
      simp only [emittedReloc, hitem, Option.map_some, number, Option.getD_some]
    rw [hread, hemitted] at hsum
    intro r hr item hitem
    have hmod := ListPieces.mod_eq_of_sum_eq (le_of_eq hsum.symm) r hr
    have := (itemOf_range hitem).2.2
    simp only [number, Option.mem_def.mp hitem, Option.map_some, Option.getD_some] at hmod
    omega
  · rintro ⟨hone, hindex⟩
    refine ((honce hone).filterMap _).trans (List.Perm.of_eq ?_)
    refine List.filterMap_congr fun r hr => ?_
    obtain ⟨item, hitem⟩ := itemOf_isSome ha h hr
    have hrange := (itemOf_range hitem).2.2
    have hmod : item.index % 65536 = item.index := by
      have := hindex r hr item hitem
      omega
    simp only [readReloc, emittedReloc, hitem, Option.map_some, hmod,
      readTarget_eq ha hareas hsymbols (mem_areaRelocs hr).2.2 hitem]

theorem startByte_nonneg (ha : Assembled target mentions parsed lines result first second)
    {area : String} {chunk : List EmittedWord} (hchunk : chunk ∈ chunks result (wordsOf result area)) :
    0 ≤ startByte result chunk := by
  cases chunk with
  | nil => exact absurd rfl (mem_chunks hchunk).1
  | cons w ws =>
      have hw : w ∈ wordsOf result area := by
        rw [← flatten_chunks result (wordsOf result area)]
        exact List.mem_flatten.mpr ⟨_, hchunk, by simp⟩
      have hw : w ∈ result.words := by
        simp only [wordsOf, List.mem_mergeSort, List.mem_filter] at hw
        exact hw.1
      rw [ha.words] at hw
      have := (inRange_pass2 ha.hsecond).words w hw
      rw [startByte_cons, unitByte]
      split <;> omega

/-- Reading back the records recovers the program exactly if it is recoverable. -/
theorem roundTrips_iff (ha : Assembled target mentions parsed lines result first second)
    (h : relRecords localeCompare result moduleName = .ok records)
    (hlines : ∀ l ∈ records, '\n' ∉ l) :
    RoundTrips localeCompare result (parseRelChunks (String.ofList (joinLines records))) ↔
      Recoverable localeCompare result := by
  obtain ⟨hareas, hsymbols, hchunks⟩ := parseRelChunks_writeRel h nodup_areaNames hlines
  have hread : ChunksRead localeCompare result
      (parseRelChunks (String.ofList (joinLines records))) := hchunks
  rw [RoundTrips, readBytes_eq_iff hread]
  constructor
  · rintro ⟨hbytes, hrelocs⟩
    rw [readRelocs_eq hread hbytes, readRelocs_perm_iff ha h hareas hsymbols] at hrelocs
    refine ⟨?_, ?_, hrelocs.1, hrelocs.2⟩
    · intro area harea hne
      obtain ⟨chunk, hchunk⟩ := exists_chunk hne
      exact (hbytes area harea chunk hchunk).1
    · intro area harea chunk hchunk
      have := (hbytes area harea chunk hchunk).2
      omega
  · rintro ⟨hnames, hstarts, hone, hindexes⟩
    have hbytes : ∀ area ∈ areaNames localeCompare result,
        ∀ chunk ∈ chunks result (wordsOf result area), readName localeCompare result area = area ∧
          startByte result chunk % 65536 = startByte result chunk := by
      intro area harea chunk hchunk
      constructor
      · refine hnames area harea fun hnil => ?_
        rw [hnil] at hchunk
        exact absurd hchunk (by simp [chunks])
      · have h0 := startByte_nonneg ha hchunk
        have h1 := hstarts area harea chunk hchunk
        omega
    refine ⟨hbytes, ?_⟩
    rw [readRelocs_eq hread hbytes, readRelocs_perm_iff ha h hareas hsymbols]
    exact ⟨hone, hindexes⟩

/-- What is read back from the text of an object file is what the program has emitted,
exactly if the program is recoverable. -/
theorem object_round_trip {text : String} (hparsed : ∀ l ∈ parsed, LineOk l)
    (hmodule : OneLine moduleName) (h : assemble target mentions parsed = .ok result)
    (hw : writeRel localeCompare result moduleName = .ok text) :
    RoundTrips localeCompare result (parseRelChunks text) ↔
      Recoverable localeCompare result := by
  obtain ⟨lines, first, second, ha⟩ := assemble_eq_ok h
  obtain ⟨records, hrecords, hw⟩ := bind_eq_ok.mp hw
  obtain rfl := pure_eq_ok.mp hw
  exact roundTrips_iff ha hrecords
    (relRecords_oneLine (namesOk_assembled hparsed ha) hmodule hrecords)

end Theorem

section Example

/-- One instruction in the upper half of the words. -/
def highHalt : List ParsedLine :=
  [⟨1, ".org 0x8000", none, some ".org", ["0x8000"]⟩, ⟨2, "H", none, some "H", []⟩]

def highHaltResult : AssemblyResult where
  words := [⟨0x8000, 0x2000, 2, "H", "_CODE"⟩]
  symbols := .empty
  symbolInfos := .empty
  relocs := []
  areas := [⟨"_CODE", 0x8001, false⟩]
  storageAddrs := []
  byteMode := false
  checkpoints := []

def highHaltText : String :=
  "XH2\nH 1 areas 1 global symbols\nM MN1613\nS .__.ABS. Def0000\n" ++
    "A _CODE size 8001 flags 0000 addr 0\nT 00 00 20 00\nR 00 00 00 00\nE\n"

/-- The object of the instruction, and the bytes in it. -/
theorem highHalt_bytes :
    assemble mn1613 (fun _ _ => .ok false) highHalt = .ok highHaltResult ∧
      writeRel (fun _ _ => 0) highHaltResult "MN1613" = .ok highHaltText ∧
      ⟨"_CODE", 0x10000, .int 0x20⟩ ∈ emittedBytes (fun _ _ => 0) highHaltResult ∧
      readBytes (parseRelChunks highHaltText) =
        [⟨"_CODE", 0, .int 0x20⟩, ⟨"_CODE", 1, .int 0⟩] ∧
      readBytes (parseRelChunks highHaltText) ≠ emittedBytes (fun _ _ => 0) highHaltResult := by
  decide +kernel

theorem assemble_highHalt :
    (∀ l ∈ highHalt, LineOk l) ∧ OneLine "MN1613" ∧
      assemble mn1613 (fun _ _ => .ok false) highHalt = .ok highHaltResult ∧
      writeRel (fun _ _ => 0) highHaltResult "MN1613" = .ok highHaltText := by
  refine ⟨?_, ?_, ?_⟩
  · intro l hl
    simp only [highHalt, List.mem_cons, List.not_mem_nil, or_false] at hl
    rcases hl with rfl | rfl
    · exact ⟨by simp, by unfold OneLine; decide⟩
    · exact ⟨by simp, by unfold OneLine; decide⟩
  · unfold OneLine
    decide
  · exact ⟨highHalt_bytes.1, highHalt_bytes.2.1⟩

theorem object_round_trip_highHalt :
    RoundTrips (fun _ _ => 0) highHaltResult (parseRelChunks highHaltText) ↔
      Recoverable (fun _ _ => 0) highHaltResult :=
  object_round_trip assemble_highHalt.1 assemble_highHalt.2.1 assemble_highHalt.2.2.1
    assemble_highHalt.2.2.2

/-- The instruction is read back at address 0. -/
theorem highHalt_not_recovered :
    assemble mn1613 (fun _ _ => .ok false) highHalt = .ok highHaltResult ∧
      writeRel (fun _ _ => 0) highHaltResult "MN1613" = .ok highHaltText ∧
      ⟨"_CODE", 0x10000, .int 0x20⟩ ∈ emittedBytes (fun _ _ => 0) highHaltResult ∧
      readBytes (parseRelChunks highHaltText) =
        [⟨"_CODE", 0, .int 0x20⟩, ⟨"_CODE", 1, .int 0⟩] ∧
      ¬ RoundTrips (fun _ _ => 0) highHaltResult (parseRelChunks highHaltText) := by
  obtain ⟨hassemble, hwrite, hmem, hread, hdiffer⟩ := highHalt_bytes
  exact ⟨hassemble, hwrite, hmem, hread, fun hround => hdiffer hround.1⟩

end Example

end AsmTs
end RetroCpu
