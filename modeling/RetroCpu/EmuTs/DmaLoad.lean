import Mathlib.Data.List.GetD
import RetroCpu.EmuTs.IntelHex

/-!
# Loading a program by DMA

A HEX text that is loaded directly stores each byte at its own address.  The plan for the DMA
has the same bytes in chunks, and an MN1613 takes a chunk word by word: this is the same
exactly for chunks that start and end at a word of the first 64 K words.
-/

namespace RetroCpu
namespace EmuTs

open Handshake BoardLink

/-- The code units of an ASCII text. -/
def asciiUnits (text : String) : List CodeUnit := text.toList.map Char.toNat

section Stores

variable {mem : Memory} {a x : Nat}

theorem storeAt_before (data : List Byte) (h : x < a) : storeAt mem a data x = mem x := by
  rw [storeAt, if_neg (by omega)]

theorem storeAt_in {data : List Byte} (ha : a ≤ x) (h : x - a < data.length) :
    storeAt mem a data x = data.getD (x - a) 0 := by
  rw [storeAt, if_pos ha, List.getD_eq_getElem _ _ h, List.getD_eq_getElem _ _ h]

theorem storeAt_behind {data : List Byte} (h : a + data.length ≤ x) :
    storeAt mem a data x = mem x := by
  rw [storeAt, if_pos (by omega), List.getD_eq_default _ _ (by omega)]

/-- Bytes stored in two pieces. -/
theorem storeAt_append (mem : Memory) (a : Nat) (data more : List Byte) :
    storeAt mem a (data ++ more) = storeAt (storeAt mem a data) (a + data.length) more := by
  funext x
  rcases Nat.lt_or_ge x a with hx | hx
  · rw [storeAt_before _ hx, storeAt_before _ (by omega), storeAt_before _ hx]
  · rcases Nat.lt_or_ge x (a + data.length) with hd | hd
    · have hboth : storeAt mem a (data ++ more) x = (data ++ more).getD (x - a) 0 :=
        storeAt_in hx (by rw [List.length_append]; omega)
      have hfirst : storeAt mem a data x = data.getD (x - a) 0 := storeAt_in hx (by omega)
      rw [storeAt_before _ hd, hboth, hfirst, List.getD_append _ _ _ _ (by omega)]
    · rcases Nat.lt_or_ge x (a + data.length + more.length) with hm | hm
      · rw [storeAt_in hx (by rw [List.length_append]; omega), storeAt_in hd (by omega),
          List.getD_append_right _ _ _ _ (by omega)]
        congr 1
        omega
      · rw [storeAt_behind (by rw [List.length_append]; omega), storeAt_behind hm,
          storeAt_behind hd]

theorem storeAt_cons (mem : Memory) (a : Nat) (b : Byte) (data : List Byte) :
    storeAt mem a (b :: data) = storeAt (storeAt mem a [b]) (a + 1) data :=
  storeAt_append mem a [b] data

end Stores

section Walks

variable {σ : Type}

/-- The records of some lines, with their addresses. -/
def recordsOf : List (List CodeUnit) → Nat → Int → Except String (List (Nat × List JsByte))
  | [], _, _ => .error "Intel HEX: missing EOF record (type 01)"
  | line :: lines, li, base =>
      match parseLine li line with
      | .error e => .error e
      | .ok .eof => .ok []
      | .ok (.base base) => recordsOf lines (li + 1) base
      | .ok (.data addr bytes) =>
          (recordsOf lines (li + 1) base).map ((absolute base addr, bytes) :: ·)
      | .ok _ => recordsOf lines (li + 1) base

attribute [grind =] recordsOf

/-- The callback, over some records. -/
def feed (onData : Nat → List JsByte → σ → Except String σ) :
    List (Nat × List JsByte) → σ → Except String σ
  | [], s => .ok s
  | (abs, data) :: records, s =>
      match onData abs data s with
      | .error e => .error e
      | .ok s => feed onData records s

/-- A walk that goes through feeds its records to the callback. -/
theorem walkLines_feed {onData : Nat → List JsByte → σ → Except String σ}
    {lines : List (List CodeUnit)} {li : Nat} {base : Int} {records : List (Nat × List JsByte)}
    (h : recordsOf lines li base = .ok records) (s : σ) :
    walkLines onData lines li base s = feed onData records s := by
  induction lines generalizing li base records s with
  | nil => cases h
  | cons line lines ih =>
      rw [recordsOf] at h
      rw [walkLines]
      cases hline : parseLine li line with
      | error e =>
          rw [hline] at h
          cases h
      | ok item =>
          rw [hline] at h
          cases item with
          | blank => exact ih h s
          | other => exact ih h s
          | eof =>
              cases h
              rfl
          | base base' => exact ih h s
          | data addr bytes =>
              dsimp only at h ⊢
              cases hrest : recordsOf lines (li + 1) base with
              | error e =>
                  rw [hrest] at h
                  cases h
              | ok rest =>
                  rw [hrest] at h
                  cases h
                  rw [feed]
                  cases hdata : onData (absolute base addr) bytes s with
                  | error e => rfl
                  | ok s' => exact ih hrest s'

/-- A walk that does not go through fails for every callback. -/
theorem walkLines_error (onData : Nat → List JsByte → σ → Except String σ)
    {lines : List (List CodeUnit)} {li : Nat} {base : Int} {e : String}
    (h : recordsOf lines li base = .error e) (s : σ) :
    ∃ e', walkLines onData lines li base s = .error e' := by
  induction lines generalizing li base e s with
  | nil => exact ⟨_, rfl⟩
  | cons line lines ih =>
      rw [recordsOf] at h
      rw [walkLines]
      cases hline : parseLine li line with
      | error e' => exact ⟨_, rfl⟩
      | ok item =>
          rw [hline] at h
          cases item with
          | blank => exact ih h s
          | other => exact ih h s
          | eof => cases h
          | base base' => exact ih h s
          | data addr bytes =>
              dsimp only at h ⊢
              cases hrest : recordsOf lines (li + 1) base with
              | error e' =>
                  cases hdata : onData (absolute base addr) bytes s with
                  | error e'' => exact ⟨_, rfl⟩
                  | ok s' => exact ih hrest s'
              | ok rest =>
                  rw [hrest] at h
                  cases h

end Walks

section Records

variable {mem mem' : Memory} {extent extent' : Extent}

/-- Records stored one after the other, each at its own address. -/
def storeRecords (records : List (Nat × List JsByte)) (mem : Memory) : Memory :=
  records.foldl (fun mem r => storeAt mem r.1 (r.2.map JsByte.toUint8)) mem

theorem storeRecords_append (records more : List (Nat × List JsByte)) (mem : Memory) :
    storeRecords (records ++ more) mem = storeRecords more (storeRecords records mem) :=
  List.foldl_append

theorem writeRecord_stores {byteLength a : Nat} {bytes : List JsByte}
    (h : writeRecord byteLength a bytes (mem, extent) = .ok (mem', extent')) :
    mem' = storeAt mem a (bytes.map JsByte.toUint8) := by
  induction bytes generalizing a mem extent with
  | nil =>
      cases h
      exact (storeAt_nil _ a).symm
  | cons b bytes ih =>
      rw [writeRecord] at h
      split at h
      · cases h
      · rw [List.map_cons, storeAt_cons]
        exact ih h

/-- A text that is loaded directly stores its records. -/
theorem feed_writeRecord {byteLength : Nat} {records : List (Nat × List JsByte)}
    (h : feed (writeRecord byteLength) records (mem, extent) = .ok (mem', extent')) :
    mem' = storeRecords records mem := by
  induction records generalizing mem extent with
  | nil =>
      cases h
      rfl
  | cons r records ih =>
      obtain ⟨abs, data⟩ := r
      rw [feed] at h
      cases hr : writeRecord byteLength abs data (mem, extent) with
      | error e =>
          rw [hr] at h
          cases h
      | ok s =>
          rw [hr] at h
          obtain ⟨mem₁, extent₁⟩ := s
          rw [ih h, writeRecord_stores hr]
          rfl

/-- The raw chunks, the last one first, hold what the records before them store. -/
theorem storeRecords_addRecord (abs : Nat) (data : List JsByte) (raw : List (Nat × List JsByte))
    (mem : Memory) :
    storeRecords (addRecord abs data raw).reverse mem =
      storeAt (storeRecords raw.reverse mem) abs (data.map JsByte.toUint8) := by
  rw [addRecord.eq_def]
  split
  · next hnil => rw [hnil, List.map_nil, storeAt_nil]
  · split
    · rfl
    · next byteAddr bytes raw =>
        split
        · next habs =>
            rw [List.reverse_cons, List.reverse_cons, storeRecords_append, storeRecords_append]
            change storeAt _ byteAddr ((bytes ++ data).map JsByte.toUint8) =
              storeAt (storeAt _ byteAddr (bytes.map JsByte.toUint8)) abs _
            rw [List.map_append, storeAt_append, List.length_map, habs]
        · rw [List.reverse_cons, storeRecords_append]
          rfl

theorem addRecord_ne_nil {abs : Nat} {data : List JsByte} {raw : List (Nat × List JsByte)}
    (h : ∀ r ∈ raw, r.2 ≠ []) : ∀ r ∈ addRecord abs data raw, r.2 ≠ [] := by
  rw [addRecord.eq_def]
  split
  · exact h
  · next hdata =>
      split
      · simpa using hdata
      · split
        · simp only [List.forall_mem_cons] at h ⊢
          exact ⟨by simp [hdata], h.2⟩
        · exact List.forall_mem_cons.mpr ⟨hdata, h⟩

/-- The chunks of the DMA plan hold what the records store. -/
theorem feed_addRecord (records raw : List (Nat × List JsByte)) (hraw : ∀ r ∈ raw, r.2 ≠ []) :
    ∃ raw', feed (fun abs data raw => .ok (addRecord abs data raw)) records raw = .ok raw' ∧
      (∀ r ∈ raw', r.2 ≠ []) ∧
      ∀ mem, storeRecords raw'.reverse mem = storeRecords records (storeRecords raw.reverse mem) := by
  induction records generalizing raw with
  | nil => exact ⟨raw, rfl, hraw, fun mem => rfl⟩
  | cons r records ih =>
      obtain ⟨abs, data⟩ := r
      obtain ⟨raw', hfeed, hne, hstore⟩ := ih (addRecord abs data raw) (addRecord_ne_nil hraw)
      refine ⟨raw', hfeed, hne, fun mem => ?_⟩
      rw [hstore, storeRecords_addRecord]
      rfl

end Records

section Words

variable {a x : Nat} {data : List Byte} {mem mem' : Memory}

/-- A chunk that starts and ends at a word of the first 64 K words. -/
structure IntelHexDmaChunk.Aligned (c : IntelHexDmaChunk) : Prop where
  start : c.byteAddr % 2 = 0
  length : c.data.length % 2 = 0
  below : c.byteAddr + c.data.length ≤ 2 ^ 17

theorem writeWordToRam_even (hi lo : Byte) (mem : Memory) (ha : a % 2 = 0) (hb : a < 2 ^ 17) :
    writeWordToRam (a / 2) hi lo mem = storeAt mem a [hi, lo] := by
  rw [writeWordToRam, show a / 2 % 2 ^ 16 * 2 = a by omega]

/-- Whole words of the first 64 K are written to their own addresses. -/
theorem writeBytes_aligned (ha : a % 2 = 0) (hl : data.length % 2 = 0)
    (hb : a + data.length ≤ 2 ^ 17) : writeBytes a data mem = storeAt mem a data := by
  induction a, data, mem using writeBytes.induct with
  | case1 a mem => exact (storeAt_nil mem a).symm
  | case2 a hi mem => cases hl
  | case3 a hi lo data mem ih =>
      rw [List.length_cons, List.length_cons] at hl hb
      have hword := writeWordToRam_even hi lo mem ha (by omega)
      rw [writeBytes, ih (by omega) (by omega) (by omega), hword]
      exact (storeAt_append mem a [hi, lo] data).symm

/-- The bytes that a DMA of `n` bytes touches, in whole words -/
def Touched (a n x : Nat) : Prop := ∃ i, 2 * i < n ∧ x / 2 = (a + 2 * i) / 2 % 2 ^ 16

theorem Touched.next {n : Nat} (h : Touched (a + 2) n x) : Touched a (n + 2) x := by
  obtain ⟨i, hi, hx⟩ := h
  refine ⟨i + 1, by omega, ?_⟩
  rw [hx]
  congr 2
  omega

theorem touched_cases {n : Nat} (h : Touched a (n + 2) x) :
    x / 2 = a / 2 % 2 ^ 16 ∨ Touched (a + 2) n x := by
  obtain ⟨i, hi, hx⟩ := h
  cases i with
  | zero => exact .inl hx
  | succ i =>
      refine .inr ⟨i, by omega, ?_⟩
      rw [hx]
      congr 2
      omega

theorem writeWordToRam_other {w : Nat} (hi lo : Byte) (h : x / 2 ≠ w % 2 ^ 16) :
    writeWordToRam w hi lo mem x = mem x := by
  rw [writeWordToRam]
  rcases Nat.lt_or_ge x (w % 2 ^ 16 * 2) with hx | hx
  · exact storeAt_before _ hx
  · refine storeAt_behind ?_
    change w % 2 ^ 16 * 2 + 2 ≤ x
    omega

theorem writeWordToRam_own {w : Nat} (hi lo : Byte) (mem mem' : Memory)
    (h : x / 2 = w % 2 ^ 16) : writeWordToRam w hi lo mem x = writeWordToRam w hi lo mem' x := by
  have hlt : x - w % 2 ^ 16 * 2 < [hi, lo].length := by
    change x - w % 2 ^ 16 * 2 < 2
    omega
  rw [writeWordToRam, writeWordToRam, storeAt_in (by omega) hlt, storeAt_in (by omega) hlt]

theorem writeBytes_other (h : ¬ Touched a data.length x) : writeBytes a data mem x = mem x := by
  induction a, data, mem using writeBytes.induct with
  | case1 a mem => rfl
  | case2 a hi mem =>
      exact writeWordToRam_other hi 0 fun hx => h ⟨0, Nat.one_pos, hx⟩
  | case3 a hi lo data mem ih =>
      rw [writeBytes, ih fun hrest => h hrest.next]
      exact writeWordToRam_other hi lo fun hx => h ⟨0, Nat.succ_pos _, hx⟩

theorem writeBytes_own (h : Touched a data.length x) :
    ∀ mem', writeBytes a data mem x = writeBytes a data mem' x := by
  induction a, data, mem using writeBytes.induct with
  | case1 a mem =>
      obtain ⟨i, hi, -⟩ := h
      exact absurd hi (Nat.not_lt_zero _)
  | case2 a hi mem =>
      obtain ⟨i, hlt, hx⟩ := h
      have hzero : i = 0 := by
        change 2 * i < 1 at hlt
        omega
      rw [hzero] at hx
      exact fun mem' => writeWordToRam_own hi 0 mem mem' hx
  | case3 a hi lo data mem ih =>
      intro mem'
      by_cases hrest : Touched (a + 2) data.length x
      · exact ih hrest _
      · have hx := (touched_cases h).resolve_right hrest
        rw [writeBytes, writeBytes, writeBytes_other hrest, writeBytes_other hrest]
        exact writeWordToRam_own hi lo mem mem' hx

/-- Where every memory gets the right bytes, the words touched are the bytes stored. -/
theorem touched_iff (h : ∀ mem, writeBytes a data mem = storeAt mem a data) (x : Nat) :
    Touched a data.length x ↔ a ≤ x ∧ x < a + data.length := by
  have hflip : (0 : Byte) ≠ 1 := by decide
  constructor
  · intro hx
    by_contra hout
    have hkeep : ∀ mem : Memory, storeAt mem a data x = mem x := by
      intro mem
      rcases Nat.lt_or_ge x a with hlt | hge
      · exact storeAt_before _ hlt
      · exact storeAt_behind (by omega)
    have hsame : writeBytes a data (fun _ => 0) x = writeBytes a data (fun _ => 1) x :=
      writeBytes_own hx _
    rw [h, h, hkeep, hkeep] at hsame
    exact hflip hsame
  · intro hx
    by_contra hout
    have hzero : writeBytes a data (fun _ => 0) x = 0 := writeBytes_other hout
    have hone : writeBytes a data (fun _ => 1) x = 1 := writeBytes_other hout
    rw [h, storeAt_in hx.1 (by omega)] at hzero hone
    exact hflip (hzero.symm.trans hone)

/-- The chunks that a DMA writes to their own addresses, in every memory. -/
theorem writeBytes_iff (c : IntelHexDmaChunk) (hne : c.data ≠ []) :
    (∀ mem, writeBytes c.byteAddr c.data mem = storeAt mem c.byteAddr c.data) ↔ c.Aligned := by
  have hlen := List.length_pos_iff.mpr hne
  constructor
  · intro h
    have htouched := touched_iff h
    have hbelow : c.byteAddr + c.data.length ≤ 2 ^ 17 := by
      obtain ⟨i, -, hx⟩ := (htouched (c.byteAddr + c.data.length - 1)).mpr (by omega)
      omega
    have hstart : c.byteAddr % 2 = 0 := by
      have hfirst := (htouched (c.byteAddr / 2 * 2)).mp ⟨0, by omega, by omega⟩
      omega
    refine ⟨hstart, ?_, hbelow⟩
    by_contra hodd
    have hlast := (htouched (c.byteAddr + c.data.length)).mp
      ⟨c.data.length / 2, by omega, by omega⟩
    omega
  · intro h mem
    exact writeBytes_aligned h.start h.length h.below

end Words

section Plans

variable {chunks : List IntelHexDmaChunk}

theorem writeChunks_aligned (h : ∀ c ∈ chunks, c.Aligned) (mem : Memory) :
    writeChunks chunks mem = chunks.foldl (fun mem c => storeAt mem c.byteAddr c.data) mem := by
  induction chunks generalizing mem with
  | nil => rfl
  | cons c chunks ih =>
      obtain ⟨hc, hrest⟩ := List.forall_mem_cons.mp h
      rw [writeChunks, List.foldl_cons, List.foldl_cons,
        writeBytes_aligned hc.start hc.length hc.below]
      exact ih hrest _

theorem storeRecords_planOf (raw : List (Nat × List JsByte)) (mem : Memory) :
    (planOf raw).chunks.foldl (fun mem c => storeAt mem c.byteAddr c.data) mem =
      storeRecords raw.reverse mem := by
  rw [planOf, List.foldl_map]
  rfl

/-- Loading by DMA and loading directly. -/
theorem dma_equals_load {hexText : List CodeUnit} {mem loaded : Memory} {extent : Extent}
    (h : loadIntelHex hexText MEMORY_BYTES mem = .ok (loaded, extent)) :
    ∃ plan, intelHexToDmaPlan hexText = .ok plan ∧
      ((∀ c ∈ plan.chunks, c.Aligned) → writeChunks plan.chunks mem = loaded) ∧
      ∀ c ∈ plan.chunks,
        (∀ m, writeBytes c.byteAddr c.data m = storeAt m c.byteAddr c.data) ↔ c.Aligned := by
  rw [loadIntelHex, walkIntelHexData] at h
  cases hrec : recordsOf (splitLines (replaceCrLf hexText)) 0 0 with
  | error e =>
      obtain ⟨e', he⟩ := walkLines_error (writeRecord MEMORY_BYTES) hrec (mem, {})
      rw [he] at h
      cases h
  | ok records =>
      rw [walkLines_feed hrec] at h
      have hloaded := feed_writeRecord h
      obtain ⟨raw, hfeed, hne, hstore⟩ := feed_addRecord records [] (by simp)
      refine ⟨planOf raw, ?_, fun haligned => ?_, fun c hc => ?_⟩
      · rw [intelHexToDmaPlan, walkIntelHexData, walkLines_feed hrec, hfeed]
      · rw [writeChunks_aligned haligned, storeRecords_planOf, hstore, hloaded]
        rfl
      · refine writeBytes_iff c ?_
        obtain ⟨r, hr, rfl⟩ := List.mem_map.mp hc
        exact fun hnil => hne r (List.mem_reverse.mp hr) (List.map_eq_nil_iff.mp hnil)

/-- One word at address 0 -/
theorem dma_equals_load_word :
    ∃ plan, intelHexToDmaPlan (asciiUnits ":020000001234B8\n:00000001FF") = .ok plan ∧
      ((∀ c ∈ plan.chunks, c.Aligned) → writeChunks plan.chunks (fun _ => 0) =
        storeAt (storeAt (fun _ => 0) 0 [0x12]) 1 [0x34]) ∧
      ∀ c ∈ plan.chunks,
        (∀ m, writeBytes c.byteAddr c.data m = storeAt m c.byteAddr c.data) ↔ c.Aligned :=
  dma_equals_load (show loadIntelHex _ _ _ = .ok (_, ⟨2, 0, 1⟩) from rfl)

/-- A single byte at address 0 clears the byte behind it. -/
theorem dma_pads_odd_tail :
    ¬ ∀ hexText mem loaded extent plan,
      loadIntelHex hexText MEMORY_BYTES mem = .ok (loaded, extent) →
        intelHexToDmaPlan hexText = .ok plan → writeChunks plan.chunks mem = loaded := by
  intro hall
  have hsame := hall (asciiUnits ":0100000012ED\n:00000001FF") (fun _ => 0xff)
    (storeAt (fun _ => 0xff) 0 [0x12]) ⟨1, 0, 0⟩ ⟨[⟨0, [0x12]⟩], 1, 0, 0⟩ rfl (by decide)
  exact absurd (congrFun hsame 1) (by decide)

end Plans

end EmuTs
end RetroCpu
