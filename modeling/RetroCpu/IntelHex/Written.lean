import RetroCpu.IntelHex.Agreement
import RetroCpu.Lib.HexText

/-!
# The Intel HEX writer of the code tests (`intel_hex.ts`)

`wordsToIntelHex` writes records of 16 bytes and keeps the low 16 bits of their addresses; it
writes no record that moves the base.  What it writes loads to the words it was given exactly
when every record starts below byte 0x10000.
-/

namespace RetroCpu
namespace IntelHex

open EmuRs.IntelHex hiding Extent
open Js (hexDigit hexPad joinLines)
open EmuTs (Extent JsByte loadIntelHex writeRecord feed MEMORY_BYTES storeAt_cons storeAt_append)
open BoardLink (Memory storeAt storeAt_nil)

section Source

/-- `payload`, the high byte of a word first -/
def payloadOf (words : List (BitVec 16)) : List U8 :=
  words.flatMap fun w : BitVec 16 => [(w >>> 8).setWidth 8, w.setWidth 8]

/-- `(0x100 - sum) & 0xff` -/
def writtenChecksum (rec_ : List U8) : U8 := 0 - rec_.foldl (· + ·) 0

/-- `rec`, with its checksum -/
def writtenRecord (addr : Nat) (chunk : List U8) : List U8 :=
  let rec_ := BitVec.ofNat 8 chunk.length :: BitVec.ofNat 8 (addr >>> 8 &&& 0xff) ::
    BitVec.ofNat 8 (addr &&& 0xff) :: 0x00 :: chunk
  rec_ ++ [writtenChecksum rec_]

/-- The line of a record -/
def writtenLine (rec_ : List U8) : List Char := ':' :: rec_.flatMap fun b => hexPad 2 b.toNat

/-- The loop over `off`: the chunks with their addresses `byteAddr + off` -/
def writtenChunks (addr : Nat) : List U8 → List (Nat × List U8)
  | [] => []
  | b :: payload =>
      (addr, (b :: payload).take 16) :: writtenChunks (addr + 16) (payload.drop 15)
termination_by payload => payload.length
decreasing_by
  rw [List.length_drop, List.length_cons]
  omega

/-- `wordsToIntelHex` -/
def wordsToIntelHex (wordAddr : BitVec 16) (words : List (BitVec 16)) : List Char :=
  let lines := (writtenChunks (wordAddr.toNat * 2) (payloadOf words)).map fun c =>
    writtenLine (writtenRecord c.1 c.2)
  joinLines (lines ++ [":00000001FF".toList])

end Source

section Lines

theorem toDigit16_hexDigit : ∀ n : Fin 16, toDigit16 (hexDigit n) = some n.val := by decide

theorem toDigit16_mod (n : Nat) : toDigit16 (hexDigit (n % 16)) = some (n % 16) :=
  toDigit16_hexDigit ⟨n % 16, Nat.mod_lt _ (by decide)⟩

/-- The digits of some bytes are read back. -/
theorem hexPairs_flatMap (bytes : List U8) :
    hexPairs (bytes.flatMap fun b => hexPad 2 b.toNat) = some bytes := by
  induction bytes with
  | nil => rfl
  | cons b bytes ih =>
      have hpad : hexPad 2 b.toNat = [hexDigit (b.toNat / 16 % 16), hexDigit (b.toNat % 16)] := rfl
      have hbyte : BitVec.ofNat 8 (b.toNat / 16 % 16 * 16 + b.toNat % 16) = b := by
        have hb := b.isLt
        apply BitVec.eq_of_toNat_eq
        rw [BitVec.toNat_ofNat]
        omega
      rw [List.flatMap_cons, hpad, List.cons_append, List.cons_append, List.nil_append, hexPairs,
        toDigit16_mod, toDigit16_mod, ih]
      exact congrArg (fun b => some (b :: bytes)) hbyte

/-- A record and its checksum add up to zero. -/
theorem checksumOk_written (rec_ : List U8) :
    checksumOk (rec_ ++ [writtenChecksum rec_]) = true := by
  have hneg : 0 - rec_.foldl (· + ·) 0 = -rec_.foldl (· + ·) 0 := BitVec.zero_sub _
  have hzero : rec_.foldl (· + ·) 0 + -rec_.foldl (· + ·) 0 = (0 : U8) := BitVec.add_right_neg _
  rw [checksumOk, List.foldl_append, List.foldl_cons, List.foldl_nil, writtenChecksum, hneg,
    hzero]
  rfl

/-- The address that a record keeps -/
def keptAddr (addr : Nat) : Nat := addr % 0x10000

theorem wordOf_written (addr : Nat) :
    wordOf (BitVec.ofNat 8 (addr >>> 8 &&& 0xff)) (BitVec.ofNat 8 (addr &&& 0xff)) =
      BitVec.ofNat 32 (keptAddr addr) := by
  have hhi : addr >>> 8 &&& 0xff = addr / 256 % 256 := by
    rw [Nat.shiftRight_eq_div_pow]
    exact Nat.and_two_pow_sub_one_eq_mod _ 8
  have hlo : addr &&& 0xff = addr % 256 := Nat.and_two_pow_sub_one_eq_mod _ 8
  have hor : (addr / 256 % 256) <<< 8 ||| addr % 256 = addr / 256 % 256 * 2 ^ 8 + addr % 256 := by
    have hlt : addr % 256 < 2 ^ 8 := Nat.mod_lt _ (by decide)
    rw [← Nat.shiftLeft_add_eq_or_of_lt hlt, Nat.shiftLeft_eq]
  apply BitVec.eq_of_toNat_eq
  rw [wordOf, hhi, hlo, BitVec.toNat_or, BitVec.toNat_shiftLeft, BitVec.toNat_setWidth,
    BitVec.toNat_setWidth, BitVec.toNat_ofNat, BitVec.toNat_ofNat, BitVec.toNat_ofNat, keptAddr]
  rw [show addr / 256 % 256 % 2 ^ 8 % 2 ^ 32 = addr / 256 % 256 by omega,
    show addr % 256 % 2 ^ 8 % 2 ^ 32 = addr % 256 by omega,
    show (addr / 256 % 256) <<< 8 % 2 ^ 32 = (addr / 256 % 256) <<< 8 by
      rw [Nat.shiftLeft_eq]; omega, hor]
  omega

/-- A record of at most 16 bytes is read back, at the address that it keeps. -/
theorem readRecord_written {addr : Nat} {chunk : List U8} (hlen : chunk.length ≤ 16) :
    readRecord (writtenRecord addr chunk) =
      some (.data (BitVec.ofNat 32 (keptAddr addr)) chunk) := by
  have hcount : (BitVec.ofNat 8 chunk.length).toNat = chunk.length := by
    rw [BitVec.toNat_ofNat]
    omega
  have hgood : ¬ ((chunk ++ [writtenChecksum (BitVec.ofNat 8 chunk.length ::
      BitVec.ofNat 8 (addr >>> 8 &&& 0xff) :: BitVec.ofNat 8 (addr &&& 0xff) :: 0x00 ::
        chunk)]).length ≠ (BitVec.ofNat 8 chunk.length).toNat + 1 ∨
      !checksumOk (writtenRecord addr chunk)) := by
    rw [hcount, writtenRecord, checksumOk_written]
    simp
  rw [writtenRecord] at hgood ⊢
  dsimp only [List.cons_append] at hgood ⊢
  rw [readRecord, if_neg hgood, if_pos rfl, wordOf_written, hcount, List.take_left]

theorem trimBy_visible {line : List Char} (h : ∀ c ∈ line, Visible c) :
    trimBy isSpace line = line := by
  have hspace : ∀ c ∈ line, isSpace c = false := by
    intro c hc
    rw [isSpace, (h c hc).not_isWhitespace, Bool.false_and]
  have hempty : ∀ c ∈ ([] : List Char), isSpace c = true := fun c hc => absurd hc List.not_mem_nil
  have hall := trimBy_around hempty hempty hspace
  rwa [List.nil_append, List.append_nil] at hall

theorem readLine_written (rec_ : List U8) : readLine (writtenLine rec_) = readRecord rec_ := by
  have hpairs := hexPairs_flatMap rec_
  rw [readLine, writtenLine, trimBy_visible (colon_visible hpairs)]
  dsimp only
  rw [if_pos rfl, hpairs]
  rfl

theorem readLine_end : readLine ":00000001FF".toList = some .eof := by decide

end Lines

section Text

variable {line : List Char} {lines : List (List Char)}

theorem splitLines_eq_pieces (text : List Char) :
    splitLines text = Js.pieces (· == '\n') text := by
  induction text with
  | nil => rfl
  | cons c text ih =>
      rw [splitLines, Js.pieces, ih]
      by_cases hc : c = '\n'
      · rw [if_pos hc, if_pos (beq_iff_eq.mpr hc)]
      · have hword : ¬ (c == '\n') = true := by rwa [beq_iff_eq]
        cases Js.pieces (· == '\n') text with
        | nil => exact (if_neg hc).trans (if_neg hword).symm
        | cons word words => exact (if_neg hc).trans (if_neg hword).symm

theorem replaceCrLf_plain {text : List Char} (h : '\r' ∉ text) : replaceCrLf text = text := by
  induction text using replaceCrLf.induct with
  | case1 => rfl
  | case2 text ih => exact absurd List.mem_cons_self h
  | case3 c text hne ih =>
      rw [replaceCrLf, ih fun hmem => h (List.mem_cons_of_mem _ hmem)]
      exact hne

/-- A text of lines that hold no line ends -/
theorem linesOf_joinLines (h : ∀ line ∈ lines, ∀ c ∈ line, Visible c) :
    linesOf (joinLines lines) = lines ++ [[]] := by
  have hreturn : '\r' ∉ joinLines lines := by
    intro hmem
    obtain ⟨line, hline, hc⟩ := List.mem_flatMap.mp hmem
    rcases List.mem_append.mp hc with hc | hc
    · exact absurd (h line hline _ hc).1 (by decide)
    · exact absurd (List.mem_singleton.mp hc) (by decide)
  have hfeed : ∀ line ∈ lines, '\n' ∉ line := by
    intro line hline hmem
    exact absurd (h line hline _ hmem).1 (by decide)
  rw [linesOf, replaceCrLf_plain hreturn, splitLines_eq_pieces, Js.pieces_joinLines hfeed]

/-- `Visible` as a test -/
def isVisible (c : Char) : Bool := decide (33 ≤ c.toNat) && decide (c.toNat ≤ 126)

theorem isVisible_iff (c : Char) : isVisible c = true ↔ Visible c := by
  rw [isVisible, Bool.and_eq_true, decide_eq_true_iff, decide_eq_true_iff, Visible]

theorem writtenLine_visible (rec_ : List U8) : ∀ c ∈ writtenLine rec_, Visible c :=
  colon_visible (hexPairs_flatMap rec_)

/-- A record as the loader reads it -/
def readBack (c : Nat × List U8) : U32 × List U8 := (BitVec.ofNat 32 (keptAddr c.1), c.2)

theorem readLines_written {chunks : List (Nat × List U8)} (h : ∀ c ∈ chunks, c.2.length ≤ 16)
    (more : List (List Char)) :
    readLines (chunks.map (fun c => writtenLine (writtenRecord c.1 c.2)) ++
      ":00000001FF".toList :: more) 0 = some (chunks.map readBack) := by
  induction chunks with
  | nil =>
      rw [List.map_nil, List.nil_append, readLines, readLine_end]
      rfl
  | cons c chunks ih =>
      obtain ⟨hc, hrest⟩ := List.forall_mem_cons.mp h
      have hline : readLine (writtenLine (writtenRecord c.1 c.2)) =
          some (.data (readBack c).1 c.2) := by
        rw [readLine_written, readRecord_written hc]
        rfl
      rw [List.map_cons, List.cons_append, readLines, hline]
      dsimp only
      have hbase : 0 + (readBack c).1 = (readBack c).1 := BitVec.zero_add _
      rw [ih hrest, Option.map_some, hbase]
      rfl

end Text

section Chunks

variable {addr : Nat} {payload : List U8}

theorem length_payloadOf (words : List (BitVec 16)) :
    (payloadOf words).length = 2 * words.length := by
  induction words with
  | nil => rfl
  | cons w words ih =>
      have hcons : payloadOf (w :: words) =
          (w >>> 8).setWidth 8 :: w.setWidth 8 :: payloadOf words := rfl
      rw [hcons, List.length_cons, List.length_cons, List.length_cons, ih]
      omega

/-- The chunks are the stretches of 16 bytes. -/
theorem mem_writtenChunks {c : Nat × List U8} (h : c ∈ writtenChunks addr payload) :
    ∃ i, 16 * i < payload.length ∧ c = (addr + 16 * i, (payload.drop (16 * i)).take 16) := by
  induction addr, payload using writtenChunks.induct with
  | case1 addr =>
      rw [writtenChunks] at h
      cases h
  | case2 addr b payload ih =>
      rw [writtenChunks] at h
      rcases List.mem_cons.mp h with hc | hc
      · exact ⟨0, Nat.succ_pos _, hc⟩
      · obtain ⟨i, hi, hc⟩ := ih hc
        rw [List.length_drop] at hi
        refine ⟨i + 1, by rw [List.length_cons]; omega, ?_⟩
        rw [hc, List.drop_drop, show 16 * (i + 1) = 15 + 16 * i + 1 by omega, List.drop_succ_cons,
          show addr + 16 + 16 * i = addr + (15 + 16 * i + 1) by omega]

/-- The bounds of a chunk; only the last one reaches behind the start of the last one. -/
theorem bounds_writtenChunks {c : Nat × List U8} (h : c ∈ writtenChunks addr payload) :
    0 < c.2.length ∧ c.2.length ≤ 16 ∧ c.1 + c.2.length ≤ addr + payload.length ∧
      c.1 ≤ addr + 16 * ((payload.length - 1) / 16) ∧
      (c.1 + c.2.length ≤ addr + 16 * ((payload.length - 1) / 16) ∨
        c.1 = addr + 16 * ((payload.length - 1) / 16)) := by
  obtain ⟨i, hi, rfl⟩ := mem_writtenChunks h
  dsimp only
  rw [List.length_take, List.length_drop]
  omega

end Chunks

section Extents

/-- The addresses from `a` on are counted. -/
def addRange (e : Extent) (a : Nat) : Nat → Extent
  | 0 => e
  | n + 1 => addRange (e.add a) (a + 1) n

theorem addRange_append (e : Extent) (a n m : Nat) :
    addRange e a (n + m) = addRange (addRange e a n) (a + n) m := by
  induction n generalizing e a with
  | zero => rw [Nat.zero_add, addRange, Nat.add_zero]
  | succ n ih => rw [Nat.add_right_comm, addRange, addRange, ih, Nat.add_assoc, Nat.add_comm 1]

theorem addRange_bytesWritten (e : Extent) (a n : Nat) :
    (addRange e a n).bytesWritten = e.bytesWritten + n := by
  induction n generalizing e a with
  | zero => rfl
  | succ n ih =>
      rw [addRange, ih]
      change e.bytesWritten + 1 + n = _
      omega

theorem addRange_minAddr {e : Extent} {a n : Nat} (hpos : e.bytesWritten ≠ 0) (ha : e.minAddr ≤ a) :
    (addRange e a n).minAddr = e.minAddr := by
  induction n generalizing e a with
  | zero => rfl
  | succ n ih =>
      have hmin : (e.add a).minAddr = e.minAddr := by
        rw [Extent.add, if_neg hpos]
        exact min_eq_left ha
      rw [addRange, ih (Nat.succ_ne_zero _) (by omega), hmin]

theorem addRange_maxAddr (e : Extent) (a n : Nat) :
    (addRange e a n).maxAddr = if n = 0 then e.maxAddr else max e.maxAddr (a + n - 1 : Int) := by
  induction n generalizing e a with
  | zero => rfl
  | succ n ih =>
      rw [addRange, ih, if_neg (Nat.succ_ne_zero n)]
      dsimp only [Extent.add]
      split <;> omega

/-- A record inside the buffer is stored and counted. -/
theorem writeRecord_inside {byteLength a : Nat} {bytes : List U8}
    (h : a + bytes.length ≤ byteLength) (mem : Memory) (e : Extent) :
    writeRecord byteLength a (bytes.map jsByte) (mem, e) =
      .ok (storeAt mem a bytes, addRange e a bytes.length) := by
  induction bytes generalizing a mem e with
  | nil =>
      rw [storeAt_nil]
      rfl
  | cons b bytes ih =>
      rw [List.length_cons] at h
      have hbyte : (jsByte b).toUint8 = b := by
        have hone := toUint8_jsByte [b]
        exact (List.cons.inj hone).1
      rw [List.map_cons, writeRecord, if_neg (by omega), ih (by omega), hbyte,
        storeAt_cons mem a b bytes, List.length_cons, addRange]

/-- The chunks at addresses inside the buffer, one after the other -/
theorem feed_written {byteLength : Nat} {records : List (U32 × List U8)}
    (h : ∀ r ∈ records, r.1.toNat + r.2.length ≤ byteLength) (mem : Memory) (e : Extent) :
    feed (writeRecord byteLength) (records.map tsRecord) (mem, e) =
      .ok (records.foldl (fun mem r => storeAt mem r.1.toNat r.2) mem,
        records.foldl (fun e r => addRange e r.1.toNat r.2.length) e) := by
  induction records generalizing mem e with
  | nil => rfl
  | cons r records ih =>
      obtain ⟨hr, hrest⟩ := List.forall_mem_cons.mp h
      rw [List.map_cons, tsRecord, feed, writeRecord_inside hr]
      exact ih hrest _ _

/-- A payload that is stored in two pieces, the second one possibly empty -/
theorem storeAt_take_drop (mem : Memory) (a n : Nat) (payload : List U8) :
    storeAt (storeAt mem a (payload.take n)) (a + n) (payload.drop n) = storeAt mem a payload := by
  rcases Nat.le_total n payload.length with hn | hn
  · have hlen : (payload.take n).length = n := List.length_take_of_le hn
    have happ := storeAt_append mem a (payload.take n) (payload.drop n)
    rw [List.take_append_drop, hlen] at happ
    exact happ.symm
  · rw [List.take_of_length_le hn, List.drop_of_length_le hn, storeAt_nil]

theorem addRange_take_drop (e : Extent) (a n : Nat) (payload : List U8) :
    addRange (addRange e a (payload.take n).length) (a + n) (payload.drop n).length =
      addRange e a payload.length := by
  rcases Nat.le_total n payload.length with hn | hn
  · have happ := addRange_append e a n (payload.length - n)
    rw [Nat.add_sub_cancel' hn] at happ
    rw [List.length_take_of_le hn, List.length_drop, happ]
  · rw [List.take_of_length_le hn, List.drop_of_length_le hn]
    rfl

/-- Stored one after the other at their own addresses, the chunks are the payload. -/
theorem store_writtenChunks (addr : Nat) (payload : List U8) (mem : Memory) (e : Extent) :
    (writtenChunks addr payload).foldl (fun mem c => storeAt mem c.1 c.2) mem =
        storeAt mem addr payload ∧
      (writtenChunks addr payload).foldl (fun e c => addRange e c.1 c.2.length) e =
        addRange e addr payload.length := by
  induction addr, payload using writtenChunks.induct generalizing mem e with
  | case1 addr =>
      rw [writtenChunks]
      exact ⟨(storeAt_nil mem addr).symm, rfl⟩
  | case2 addr b payload ih =>
      rw [writtenChunks, List.foldl_cons, List.foldl_cons]
      obtain ⟨hstore, hrange⟩ := ih (storeAt mem addr ((b :: payload).take 16))
        (addRange e addr ((b :: payload).take 16).length)
      rw [hstore, hrange]
      exact ⟨storeAt_take_drop mem addr 16 (b :: payload),
        addRange_take_drop e addr 16 (b :: payload)⟩

end Extents

section RoundTrip

variable {w : BitVec 16} {ws : List (BitVec 16)}

/-- Loading stores the words where they belong and nothing else, and reports them. -/
structure Loads (w : BitVec 16) (ws : List (BitVec 16)) (mem mem' : Memory) (e : Extent) :
    Prop where
  high : ∀ i (h : i < ws.length), mem' (2 * (w.toNat + i)) = (ws[i] >>> 8).setWidth 8
  low : ∀ i (h : i < ws.length), mem' (2 * (w.toNat + i) + 1) = ws[i].setWidth 8
  others : ∀ x, x < 2 * w.toNat ∨ 2 * (w.toNat + ws.length) ≤ x → mem' x = mem x
  bytesWritten : e.bytesWritten = 2 * ws.length
  minAddr : e.minAddr = if ws = [] then 0 else 2 * w.toNat
  maxAddr : e.maxAddr = if ws = [] then -1 else (2 * (w.toNat + ws.length) - 1 : Int)

/-- The loader takes back what the writer wrote, over every memory. -/
def RoundTrip (w : BitVec 16) (ws : List (BitVec 16)) : Prop :=
  ∀ mem, ∃ mem' e, loadIntelHex (unitsOf (wordsToIntelHex w ws)) MEMORY_BYTES mem = .ok (mem', e) ∧
    Loads w ws mem mem' e

/-- What the loader makes of a written text: each record at the address that it keeps. -/
theorem load_written (w : BitVec 16) (ws : List (BitVec 16)) (mem : Memory) :
    loadIntelHex (unitsOf (wordsToIntelHex w ws)) MEMORY_BYTES mem =
      .ok (((writtenChunks (w.toNat * 2) (payloadOf ws)).map fun c => (keptAddr c.1, c.2)).foldl
          (fun mem c => storeAt mem c.1 c.2) mem,
        ((writtenChunks (w.toNat * 2) (payloadOf ws)).map fun c => (keptAddr c.1, c.2)).foldl
          (fun e c => addRange e c.1 c.2.length) {}) := by
  have hbounds : ∀ c ∈ writtenChunks (w.toNat * 2) (payloadOf ws), c.2.length ≤ 16 :=
    fun c hc => (bounds_writtenChunks hc).2.1
  have hkept : ∀ c : Nat × List U8, (readBack c).1.toNat = keptAddr c.1 := by
    intro c
    rw [readBack, BitVec.toNat_ofNat, keptAddr]
    omega
  have hinside : ∀ r ∈ (writtenChunks (w.toNat * 2) (payloadOf ws)).map readBack,
      r.1.toNat + r.2.length ≤ MEMORY_BYTES := by
    intro r hr
    obtain ⟨c, hc, rfl⟩ := List.mem_map.mp hr
    have hlen := hbounds c hc
    rw [hkept, keptAddr, MEMORY_BYTES]
    change _ + c.2.length ≤ _
    omega
  have hvisible : ∀ line ∈ (writtenChunks (w.toNat * 2) (payloadOf ws)).map
      (fun c => writtenLine (writtenRecord c.1 c.2)) ++ [":00000001FF".toList],
      ∀ c ∈ line, Visible c := by
    intro line hline
    rcases List.mem_append.mp hline with hline | hline
    · obtain ⟨c, -, rfl⟩ := List.mem_map.mp hline
      exact writtenLine_visible _
    · rw [List.mem_singleton.mp hline]
      exact fun c hc => (isVisible_iff c).mp (List.all_eq_true.mp (by rfl) c hc)
  have hlines : readLines (linesOf (wordsToIntelHex w ws)) 0 =
      some ((writtenChunks (w.toNat * 2) (payloadOf ws)).map readBack) := by
    rw [wordsToIntelHex, linesOf_joinLines hvisible, List.append_assoc]
    exact readLines_written hbounds _
  have hrecords := recordsOf_readLines 0 hlines
  rw [loadIntelHex, EmuTs.walkIntelHexData, linesOf_unitsOf]
  refine (EmuTs.walkLines_feed hrecords (mem, ({} : Extent))).trans ?_
  rw [feed_written hinside, List.foldl_map, List.foldl_map, List.foldl_map, List.foldl_map]
  simp only [hkept]
  rfl

theorem getD_payloadOf (ws : List (BitVec 16)) (i : Nat) (h : i < ws.length) :
    (payloadOf ws).getD (2 * i) 0 = (ws[i] >>> 8).setWidth 8 ∧
      (payloadOf ws).getD (2 * i + 1) 0 = ws[i].setWidth 8 := by
  induction ws generalizing i with
  | nil => exact absurd h (Nat.not_lt_zero i)
  | cons w ws ih =>
      cases i with
      | zero => exact ⟨rfl, rfl⟩
      | succ i => exact ih i (Nat.lt_of_succ_lt_succ h)

/-- The payload in one piece is what the round trip asks for. -/
theorem loads_payload (w : BitVec 16) (ws : List (BitVec 16)) (mem : Memory) :
    Loads w ws mem (storeAt mem (w.toNat * 2) (payloadOf ws))
      (addRange {} (w.toNat * 2) (payloadOf ws).length) := by
  have hlen := length_payloadOf ws
  have hpos : ws = [] ↔ (payloadOf ws).length = 0 := by
    rw [hlen, ← List.length_eq_zero_iff]
    omega
  refine ⟨?_, ?_, ?_, ?_, ?_, ?_⟩
  · intro i hi
    rw [EmuTs.storeAt_in (by omega) (by omega),
      show 2 * (w.toNat + i) - w.toNat * 2 = 2 * i by omega]
    exact (getD_payloadOf ws i hi).1
  · intro i hi
    rw [EmuTs.storeAt_in (by omega) (by omega),
      show 2 * (w.toNat + i) + 1 - w.toNat * 2 = 2 * i + 1 by omega]
    exact (getD_payloadOf ws i hi).2
  · intro x hx
    rcases hx with hx | hx
    · exact EmuTs.storeAt_before _ (by omega)
    · exact EmuTs.storeAt_behind (by omega)
  · rw [addRange_bytesWritten, hlen]
    exact Nat.zero_add _
  · cases hn : (payloadOf ws).length with
    | zero =>
        rw [if_pos (hpos.mpr hn)]
        rfl
    | succ n =>
        have hne : ws ≠ [] := by
          intro hnil
          rw [hpos.mp hnil] at hn
          cases hn
        have hone : (Extent.add {} (w.toNat * 2)).bytesWritten ≠ 0 := Nat.one_ne_zero
        have hle : (Extent.add {} (w.toNat * 2)).minAddr ≤ w.toNat * 2 + 1 := Nat.le_succ _
        rw [if_neg hne, addRange, addRange_minAddr hone hle, Nat.mul_comm]
        rfl
  · rw [addRange_maxAddr]
    split
    · next hn => rw [if_pos (hpos.mpr hn)]
    · next hn =>
        rw [if_neg fun hnil => hn (hpos.mp hnil), hlen]
        change max (-1 : Int) _ = _
        omega

/-- Counting never gets past the end of a range. -/
theorem foldl_addRange_le {bound : Int} {chunks : List (Nat × List U8)} {e : Extent}
    (he : e.maxAddr ≤ bound) (h : ∀ c ∈ chunks, (c.1 + c.2.length - 1 : Int) ≤ bound) :
    (chunks.foldl (fun e c => addRange e c.1 c.2.length) e).maxAddr ≤ bound := by
  induction chunks generalizing e with
  | nil => exact he
  | cons c chunks ih =>
      obtain ⟨hc, hrest⟩ := List.forall_mem_cons.mp h
      refine ih ?_ hrest
      rw [addRange_maxAddr]
      split
      · exact he
      · exact max_le he hc

/-- The last record starts below byte 0x10000. -/
def StartsBelow (w : BitVec 16) (ws : List (BitVec 16)) : Prop :=
  ws = [] ∨ w.toNat + 8 * ((ws.length - 1) / 8) < 0x8000

theorem kept_writtenChunks (h : StartsBelow w ws) :
    (writtenChunks (w.toNat * 2) (payloadOf ws)).map (fun c => (keptAddr c.1, c.2)) =
      writtenChunks (w.toNat * 2) (payloadOf ws) := by
  have hlen := length_payloadOf ws
  refine (List.map_congr_left fun c hc => ?_).trans (List.map_id _)
  have hbounds := bounds_writtenChunks hc
  have hlt : c.1 < 0x10000 := by
    rcases h with rfl | h
    · change c ∈ writtenChunks _ [] at hc
      rw [writtenChunks] at hc
      cases hc
    · omega
  rw [keptAddr, Nat.mod_eq_of_lt hlt, id]

/-- The writer's records reach their places exactly when the last one starts below 0x10000. -/
theorem roundTrip_iff (w : BitVec 16) (ws : List (BitVec 16)) :
    RoundTrip w ws ↔ StartsBelow w ws := by
  have hlen := length_payloadOf ws
  constructor
  · intro h
    by_contra hlast
    obtain ⟨hne, hlast⟩ := not_or.mp hlast
    have hpos := List.length_pos_iff.mpr hne
    obtain ⟨mem', e, hload, hloads⟩ := h fun _ => 0
    rw [load_written] at hload
    have hmax := hloads.maxAddr
    rw [if_neg hne, ← (Prod.mk.inj (Except.ok.inj hload)).2] at hmax
    have hbelow : ∀ c ∈ (writtenChunks (w.toNat * 2) (payloadOf ws)).map
        (fun c => (keptAddr c.1, c.2)),
        (c.1 + c.2.length - 1 : Int) ≤ 2 * (w.toNat + ws.length) - 2 := by
      intro k hk
      obtain ⟨c, hc, rfl⟩ := List.mem_map.mp hk
      have hbounds := bounds_writtenChunks hc
      dsimp only [keptAddr]
      omega
    have hle := foldl_addRange_le (e := {}) (by change (-1 : Int) ≤ _; omega) hbelow
    omega
  · intro h mem
    rw [load_written, kept_writtenChunks h]
    obtain ⟨hstore, hrange⟩ := store_writtenChunks (w.toNat * 2) (payloadOf ws) mem {}
    rw [hstore, hrange]
    exact ⟨_, _, rfl, loads_payload w ws mem⟩

/-- One word at word address 0x8000 comes back to address 0. -/
theorem upper_half_wraps : ¬ ∀ (w : BitVec 16) (ws : List (BitVec 16)),
    2 * (w.toNat + ws.length) ≤ MEMORY_BYTES → RoundTrip w ws := by
  intro hall
  obtain ⟨mem', e, hload, hloads⟩ := hall 0x8000 [0x1234] (by decide) fun _ => 0
  have hchunks : writtenChunks 0x10000 [0x12, 0x34] = [(0x10000, [0x12, 0x34])] := by
    rw [writtenChunks]
    change (0x10000, _) :: writtenChunks 0x10010 [] = _
    rw [writtenChunks]
    rfl
  have hwritten := load_written 0x8000 [0x1234] fun _ => 0
  change _ = Except.ok (((writtenChunks 0x10000 [0x12, 0x34]).map _).foldl _ _,
    ((writtenChunks 0x10000 [0x12, 0x34]).map _).foldl _ _) at hwritten
  rw [hchunks, hload] at hwritten
  have hmin := hloads.minAddr
  rw [(Prod.mk.inj (Except.ok.inj hwritten)).2] at hmin
  exact absurd hmin (by decide)

end RoundTrip

end IntelHex
end RetroCpu
