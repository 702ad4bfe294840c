import RetroCpu.IntelHex.Lines

/-!
# The plans of the two loaders

The same data records make the same plan in both languages exactly when they fit into 32 bits:
Rust adds addresses modulo 2^32, JavaScript does not.
-/

namespace RetroCpu
namespace IntelHex

open EmuRs.IntelHex
open EmuTs (JsByte)

section Chunks

/-- A record of data; the raw chunks have the same form. -/
abbrev Chunk := U32 × List U8

/-- The chunk that TypeScript has of a chunk. -/
def tsRecord (r : Chunk) : Nat × List JsByte := (r.1.toNat, r.2.map jsByte)

/-- Both languages put a record behind the last chunk, or neither does. -/
def Agree (raw : List Chunk) (r : Chunk) : Prop :=
  ∀ c ∈ raw.head?, behind c = r.1.toNat ↔ c.1 + BitVec.ofNat 32 c.2.length = r.1

/-- The raw chunks behind some records -/
def rsChunks (raw records : List Chunk) : List Chunk :=
  records.foldl (fun raw r => addRecord r.1 r.2 raw) raw

def tsChunks (raw : List (Nat × List JsByte)) (records : List Chunk) : List (Nat × List JsByte) :=
  records.foldl (fun raw r => EmuTs.addRecord r.1.toNat (r.2.map jsByte) raw) raw

/-- Both languages agree on every record. -/
def Agreed : List Chunk → List Chunk → Prop
  | _, [] => True
  | raw, r :: records => Agree raw r ∧ Agreed (addRecord r.1 r.2 raw) records

variable {raw : List Chunk} {r c : Chunk} {records : List Chunk}

theorem addRecord_nil (hr : r.2 ≠ []) : addRecord r.1 r.2 [] = [r] := if_neg hr

theorem addRecord_cons (hr : r.2 ≠ []) :
    addRecord r.1 r.2 (c :: raw) =
      if c.1 + BitVec.ofNat 32 c.2.length = r.1 then (c.1, c.2 ++ r.2) :: raw
      else r :: c :: raw := if_neg hr

theorem tsAddRecord_nil (hr : r.2 ≠ []) :
    EmuTs.addRecord r.1.toNat (r.2.map jsByte) [] = [tsRecord r] :=
  if_neg fun h => hr (List.map_eq_nil_iff.mp h)

theorem tsAddRecord_cons (hr : r.2 ≠ []) (c : Nat × List JsByte) (raw : List (Nat × List JsByte)) :
    EmuTs.addRecord r.1.toNat (r.2.map jsByte) (c :: raw) =
      if c.1 + c.2.length = r.1.toNat then (c.1, c.2 ++ r.2.map jsByte) :: raw
      else tsRecord r :: c :: raw :=
  if_neg fun h => hr (List.map_eq_nil_iff.mp h)

theorem agree_cons : Agree (c :: raw) r ↔
    (behind c = r.1.toNat ↔ c.1 + BitVec.ofNat 32 c.2.length = r.1) := by
  constructor
  · exact fun h => h c rfl
  · rintro h _ ⟨⟩
    exact h

theorem behind_tsRecord (c : Chunk) : (tsRecord c).1 + (tsRecord c).2.length = behind c := by
  rw [tsRecord, List.length_map, behind]

theorem behind_merged (h : behind c = r.1.toNat) : behind (c.1, c.2 ++ r.2) = behind r := by
  rw [behind, List.length_append, ← Nat.add_assoc]
  exact congrArg (· + r.2.length) h

/-- Where both agree, they have the same chunks. -/
theorem addRecord_agree (hr : r.2 ≠ []) (h : Agree raw r) :
    EmuTs.addRecord r.1.toNat (r.2.map jsByte) (raw.map tsRecord) =
      (addRecord r.1 r.2 raw).map tsRecord := by
  cases raw with
  | nil => rw [List.map_nil, tsAddRecord_nil hr, addRecord_nil hr, List.map_cons, List.map_nil]
  | cons c raw =>
      rw [agree_cons] at h
      rw [List.map_cons, tsAddRecord_cons hr, addRecord_cons hr, behind_tsRecord]
      by_cases hjoin : behind c = r.1.toNat
      · rw [if_pos hjoin, if_pos (h.mp hjoin), List.map_cons, tsRecord, tsRecord, List.map_append]
      · rw [if_neg hjoin, if_neg fun hc => hjoin (h.mpr hc), List.map_cons, List.map_cons]

/-- The new record ends where the last chunk ends. -/
theorem addRecord_head (hr : r.2 ≠ []) (h : Agree raw r) :
    ∃ c rest, addRecord r.1 r.2 raw = c :: rest ∧ behind c = behind r := by
  cases raw with
  | nil => exact ⟨r, [], addRecord_nil hr, rfl⟩
  | cons c raw =>
      rw [agree_cons] at h
      rw [addRecord_cons hr]
      by_cases hjoin : behind c = r.1.toNat
      · exact ⟨_, raw, if_pos (h.mp hjoin), behind_merged hjoin⟩
      · exact ⟨r, c :: raw, if_neg fun hc => hjoin (h.mpr hc), rfl⟩

/-- The chunks end below a bound when the records do. -/
theorem addRecord_below {n : Nat} (hr : r.2 ≠ []) (h : Agree raw r) :
    (∀ c ∈ addRecord r.1 r.2 raw, behind c ≤ n) ↔ (∀ c ∈ raw, behind c ≤ n) ∧ behind r ≤ n := by
  cases raw with
  | nil => simp [addRecord_nil hr]
  | cons c raw =>
      rw [agree_cons] at h
      rw [addRecord_cons hr]
      by_cases hjoin : behind c = r.1.toNat
      · have hle : behind c ≤ behind r := hjoin.trans_le (Nat.le_add_right _ _)
        rw [if_pos (h.mp hjoin), List.forall_mem_cons, List.forall_mem_cons, behind_merged hjoin]
        constructor
        · exact fun hall => ⟨⟨hle.trans hall.1, hall.2⟩, hall.1⟩
        · exact fun hall => ⟨hall.2, hall.1.2⟩
      · rw [if_neg fun hc => hjoin (h.mpr hc), List.forall_mem_cons]
        exact and_comm

theorem tsChunks_agreed (hr : ∀ r ∈ records, r.2 ≠ []) (h : Agreed raw records) :
    tsChunks (raw.map tsRecord) records = (rsChunks raw records).map tsRecord := by
  induction records generalizing raw with
  | nil => rfl
  | cons r records ih =>
      obtain ⟨hfirst, hrest⟩ := List.forall_mem_cons.mp hr
      obtain ⟨hagree, hagreed⟩ := h
      rw [tsChunks, List.foldl_cons, addRecord_agree hfirst hagree]
      exact ih hrest hagreed

theorem rsChunks_below {n : Nat} (hr : ∀ r ∈ records, r.2 ≠ []) (h : Agreed raw records) :
    (∀ c ∈ rsChunks raw records, behind c ≤ n) ↔
      (∀ c ∈ raw, behind c ≤ n) ∧ ∀ r ∈ records, behind r ≤ n := by
  induction records generalizing raw with
  | nil => simp [rsChunks]
  | cons r records ih =>
      obtain ⟨hfirst, hrest⟩ := List.forall_mem_cons.mp hr
      obtain ⟨hagree, hagreed⟩ := h
      rw [rsChunks, List.foldl_cons, List.forall_mem_cons, ← and_assoc,
        ← addRecord_below hfirst hagree]
      exact ih hrest hagreed

/-- The two languages part where a record ends at 2^32 and the next one starts at 0. -/
theorem agree_iff (hc : behind c ≤ 2 ^ 32) :
    Agree (c :: raw) r ↔ ¬ (behind c = 2 ^ 32 ∧ r.1 = 0) := by
  have hlt := r.1.isLt
  rw [agree_cons, ← BitVec.toNat_inj, ← BitVec.toNat_inj, BitVec.toNat_add, BitVec.toNat_ofNat]
  change _ ↔ ¬ (_ ∧ r.1.toNat = 0)
  rw [behind] at hc ⊢
  omega

/-- Without an end beyond 2^32, the languages agree when no record joins across it. -/
theorem agreed_iff (hr : ∀ r ∈ records, r.2 ≠ []) (hends : ∀ r ∈ records, behind r ≤ 2 ^ 32)
    (hc : behind c ≤ 2 ^ 32) {last : Chunk} (hlast : behind c = behind last) :
    Agreed (c :: raw) records ↔
      (last :: records).IsChain fun r next => ¬ (behind r = 2 ^ 32 ∧ next.1 = 0) := by
  induction records generalizing c raw last with
  | nil => simp [Agreed]
  | cons r records ih =>
      obtain ⟨hfirst, hrest⟩ := List.forall_mem_cons.mp hr
      obtain ⟨hend, hends⟩ := List.forall_mem_cons.mp hends
      rw [Agreed, List.isChain_cons_cons, agree_iff hc, hlast]
      refine and_congr_right fun hjoin => ?_
      rw [← hlast] at hjoin
      have hagree : Agree (c :: raw) r := (agree_iff hc).mpr hjoin
      obtain ⟨c', rest, hadd, hbehind⟩ := addRecord_head hfirst hagree
      rw [hadd]
      exact ih hrest hends (hbehind.trans_le hend) hbehind

theorem agreed_nil_iff (hr : ∀ r ∈ records, r.2 ≠ []) (hends : ∀ r ∈ records, behind r ≤ 2 ^ 32) :
    Agreed [] records ↔
      records.IsChain fun r next => ¬ (behind r = 2 ^ 32 ∧ next.1 = 0) := by
  cases records with
  | nil => simp [Agreed]
  | cons r records =>
      obtain ⟨hfirst, hrest⟩ := List.forall_mem_cons.mp hr
      obtain ⟨hend, hends⟩ := List.forall_mem_cons.mp hends
      rw [Agreed, addRecord_nil hfirst, agreed_iff hrest hends hend rfl]
      exact and_iff_right fun c hc => by cases hc

end Chunks

section Lengths

variable {ts : List (Nat × List JsByte)} {raw : List Chunk} {r : Chunk} {records : List Chunk}

/-- The last chunks of both languages end at the same address, modulo 2^32. -/
def Joint : List (Nat × List JsByte) → List Chunk → Prop
  | [], [] => True
  | t :: _, c :: _ => BitVec.ofNat 32 (t.1 + t.2.length) = c.1 + BitVec.ofNat 32 c.2.length
  | _, _ => False

theorem ofNat_add_toNat (a : U32) (n : Nat) :
    BitVec.ofNat 32 (a.toNat + n) = a + BitVec.ofNat 32 n := by
  rw [BitVec.ofNat_add, BitVec.ofNat_toNat, BitVec.setWidth_eq]

/-- JavaScript joins no record that Rust does not join. -/
theorem joint_addRecord (hr : r.2 ≠ []) (h : Joint ts raw) :
    Joint (EmuTs.addRecord r.1.toNat (r.2.map jsByte) ts) (addRecord r.1 r.2 raw) ∧
      (addRecord r.1 r.2 raw).length + ts.length ≤
        raw.length + (EmuTs.addRecord r.1.toNat (r.2.map jsByte) ts).length := by
  have hown : Joint [tsRecord r] [r] := by
    rw [Joint, behind_tsRecord, behind, ofNat_add_toNat]
  cases ts with
  | nil =>
      cases raw with
      | nil =>
          rw [tsAddRecord_nil hr, addRecord_nil hr]
          exact ⟨hown, le_refl _⟩
      | cons c raw => cases h
  | cons t ts =>
      cases raw with
      | nil => cases h
      | cons c raw =>
          rw [Joint] at h
          rw [tsAddRecord_cons hr, addRecord_cons hr]
          by_cases hjoin : t.1 + t.2.length = r.1.toNat
          · have hrs : c.1 + BitVec.ofNat 32 c.2.length = r.1 := by
              rw [← h, hjoin, BitVec.ofNat_toNat, BitVec.setWidth_eq]
            rw [if_pos hjoin, if_pos hrs]
            refine ⟨?_, by simp only [List.length_cons]; omega⟩
            rw [Joint, List.length_append, List.length_append, ← Nat.add_assoc, hjoin,
              List.length_map, ofNat_add_toNat, BitVec.ofNat_add, ← BitVec.add_assoc, hrs]
          · rw [if_neg hjoin]
            split
            · next hrs =>
                refine ⟨?_, by simp only [List.length_cons]; omega⟩
                rw [Joint, behind_tsRecord, behind, ofNat_add_toNat, List.length_append,
                  BitVec.ofNat_add, ← BitVec.add_assoc, hrs]
            · exact ⟨hown, by simp only [List.length_cons]; omega⟩

theorem joint_chunks (hr : ∀ r ∈ records, r.2 ≠ []) (h : Joint ts raw) :
    (rsChunks raw records).length + ts.length ≤ raw.length + (tsChunks ts records).length := by
  induction records generalizing ts raw with
  | nil => exact le_refl _
  | cons r records ih =>
      obtain ⟨hfirst, hrest⟩ := List.forall_mem_cons.mp hr
      obtain ⟨hjoint, hstep⟩ := joint_addRecord hfirst h
      have hrun := ih hrest hjoint
      rw [rsChunks, tsChunks, List.foldl_cons, List.foldl_cons]
      rw [rsChunks, tsChunks] at hrun
      omega

theorem joint_map (raw : List Chunk) : Joint (raw.map tsRecord) raw := by
  cases raw with
  | nil => trivial
  | cons c raw => rw [List.map_cons, Joint, behind_tsRecord, behind, ofNat_add_toNat]

/-- As many chunks in both languages: they agreed on every record. -/
theorem agreed_of_length (hr : ∀ r ∈ records, r.2 ≠ [])
    (h : (tsChunks (raw.map tsRecord) records).length = (rsChunks raw records).length) :
    Agreed raw records := by
  induction records generalizing raw with
  | nil => trivial
  | cons r records ih =>
      obtain ⟨hfirst, hrest⟩ := List.forall_mem_cons.mp hr
      have hagree : Agree raw r := by
        cases raw with
        | nil => exact fun c hc => by cases hc
        | cons c raw =>
            rw [agree_cons]
            by_contra hdiffer
            have hjoint := joint_addRecord hfirst (joint_map (c :: raw))
            have hrun := joint_chunks hrest hjoint.1
            have hts : ¬ behind c = r.1.toNat := by
              intro hjoin
              refine hdiffer ⟨fun _ => ?_, fun _ => hjoin⟩
              rw [← ofNat_add_toNat]
              change BitVec.ofNat 32 (behind c) = r.1
              rw [hjoin, BitVec.ofNat_toNat, BitVec.setWidth_eq]
            have hrs : c.1 + BitVec.ofNat 32 c.2.length = r.1 := by
              by_contra hno
              exact hdiffer ⟨fun h => absurd h hts, fun h => absurd h hno⟩
            rw [rsChunks, tsChunks, List.foldl_cons, List.foldl_cons] at h
            rw [rsChunks, tsChunks, h, addRecord_cons hfirst, if_pos hrs, List.map_cons,
              tsAddRecord_cons hfirst, behind_tsRecord, if_neg hts] at hrun
            simp only [List.length_cons, List.length_map] at hrun
            omega
      refine ⟨hagree, ih hrest ?_⟩
      rw [← addRecord_agree hfirst hagree]
      exact h

end Lengths

section Extents

variable {cs : List IntelHexDmaChunk} {c : IntelHexDmaChunk} {e : EmuTs.Extent} {f : Extent}

/-- The chunk of a plan that TypeScript has of a chunk. -/
def tsChunk (c : IntelHexDmaChunk) : EmuTs.IntelHexDmaChunk := ⟨c.byteAddr.toNat, c.data⟩

/-- The plan that TypeScript has of a plan. -/
def tsPlan (p : IntelHexDmaPlan) : EmuTs.IntelHexDmaPlan where
  chunks := p.chunks.map tsChunk
  bytesWritten := p.bytesWritten.toNat
  minAddr := p.minAddr.toNat
  maxAddr := (p.maxAddr.map Js.num).getD (-1)

/-- The address behind a chunk of a plan -/
def chunkEnd (c : IntelHexDmaChunk) : Nat := c.byteAddr.toNat + c.data.length

/-- Both languages have counted the same; Rust has its own values for no bytes at all. -/
structure Counted (e : EmuTs.Extent) (f : Extent) : Prop where
  bytesWritten : e.bytesWritten = f.bytesWritten.toNat
  maxAddr : e.maxAddr = (f.maxAddr.map Js.num).getD (-1)
  none : e.bytesWritten = 0 → e.minAddr = 0 ∧ f.minAddr = BitVec.allOnes 32 ∧ f.maxAddr = none
  some : e.bytesWritten ≠ 0 → e.minAddr = f.minAddr.toNat

theorem counted_start : Counted {} {} where
  bytesWritten := rfl
  maxAddr := rfl
  none := fun _ => ⟨rfl, rfl, rfl⟩
  some := fun h => absurd rfl h

theorem tsCount (hne : c.data ≠ []) :
    (tsChunk c).count e =
      { bytesWritten := e.bytesWritten + c.data.length
        minAddr := if e.bytesWritten = 0 then c.byteAddr.toNat
          else min e.minAddr c.byteAddr.toNat
        maxAddr := max e.maxAddr ((chunkEnd c : Int) - 1) } := by
  rw [EmuTs.IntelHexDmaChunk.count]
  exact if_neg hne

theorem rsCount (hne : c.data ≠ []) :
    f.count c =
      { bytesWritten := f.bytesWritten + BitVec.ofNat 32 c.data.length
        minAddr := if c.byteAddr < f.minAddr then c.byteAddr else f.minAddr
        maxAddr :=
          let hi := c.byteAddr + BitVec.ofNat 32 c.data.length - 1
          some ((f.maxAddr.map fun m => if m < hi then hi else m).getD hi) } := by
  rw [Extent.count]
  exact if_neg hne

theorem num_max (a b : U32) : Js.num (if a < b then b else a) = max (Js.num a) (Js.num b) := by
  have hlt : a < b ↔ Js.num a < Js.num b := by rw [BitVec.lt_def, Js.num, Js.num, Int.ofNat_lt]
  by_cases h : a < b
  · rw [if_pos h, max_eq_right (le_of_lt (hlt.mp h))]
  · rw [if_neg h, max_eq_left (not_lt.mp fun hba => h (hlt.mpr hba))]

theorem toNat_min (a b : U32) : (if a < b then a else b).toNat = min b.toNat a.toNat := by
  by_cases h : a < b
  · rw [if_pos h, min_eq_right (le_of_lt (BitVec.lt_def.mp h))]
  · rw [if_neg h, min_eq_left (not_lt.mp fun hba => h (BitVec.lt_def.mpr hba))]

theorem toNat_hi (hne : c.data ≠ []) (hend : chunkEnd c ≤ 2 ^ 32) :
    (c.byteAddr + BitVec.ofNat 32 c.data.length - 1).toNat = chunkEnd c - 1 := by
  have hlen := List.length_pos_iff.mpr hne
  rw [BitVec.toNat_sub, BitVec.toNat_add, BitVec.toNat_ofNat]
  change (2 ^ 32 - 1 + (c.byteAddr.toNat + c.data.length % 2 ^ 32) % 2 ^ 32) % 2 ^ 32 = _
  rw [chunkEnd] at hend ⊢
  omega

theorem Counted.count (h : Counted e f) (hne : c.data ≠ []) (hend : chunkEnd c ≤ 2 ^ 32)
    (htotal : e.bytesWritten + c.data.length < 2 ^ 32) :
    Counted ((tsChunk c).count e) (f.count c) := by
  have hlen := List.length_pos_iff.mpr hne
  have haddr := c.byteAddr.isLt
  rw [tsCount hne, rsCount hne]
  constructor
  · change e.bytesWritten + c.data.length = (f.bytesWritten + BitVec.ofNat 32 c.data.length).toNat
    rw [BitVec.toNat_add, BitVec.toNat_ofNat, ← h.bytesWritten]
    omega
  · have hhi : Js.num (c.byteAddr + BitVec.ofNat 32 c.data.length - 1) = (chunkEnd c : Int) - 1 := by
      rw [Js.num, toNat_hi hne hend, chunkEnd]
      omega
    change max e.maxAddr ((chunkEnd c : Int) - 1) = Js.num _
    rw [h.maxAddr, ← hhi]
    cases f.maxAddr with
    | none =>
        have hpos := Js.num_nonneg (c.byteAddr + BitVec.ofNat 32 c.data.length - 1)
        exact max_eq_right (by change (-1 : Int) ≤ _; omega)
    | some m =>
        change max (Js.num m) _ = Js.num (if m < _ then _ else m)
        exact (num_max m _).symm
  · intro hzero
    change e.bytesWritten + c.data.length = 0 at hzero
    omega
  · intro _
    change (if e.bytesWritten = 0 then c.byteAddr.toNat else min e.minAddr c.byteAddr.toNat) =
      (if c.byteAddr < f.minAddr then c.byteAddr else f.minAddr).toNat
    rw [toNat_min]
    by_cases hzero : e.bytesWritten = 0
    · rw [if_pos hzero, (h.none hzero).2.1, BitVec.toNat_allOnes]
      omega
    · rw [if_neg hzero, h.some hzero]

/-- The counts of chunks that fit are the same in both languages. -/
theorem Counted.chunks (h : Counted e f) (hne : ∀ c ∈ cs, c.data ≠ [])
    (hends : ∀ c ∈ cs, chunkEnd c ≤ 2 ^ 32)
    (htotal : e.bytesWritten + (cs.map fun c => c.data.length).sum < 2 ^ 32) :
    Counted ((cs.map tsChunk).foldl EmuTs.IntelHexDmaChunk.count e) (cs.foldl Extent.count f) := by
  induction cs generalizing e f with
  | nil => exact h
  | cons c cs ih =>
      obtain ⟨hfirst, hrest⟩ := List.forall_mem_cons.mp hne
      obtain ⟨hend, hends⟩ := List.forall_mem_cons.mp hends
      rw [List.map_cons, List.sum_cons] at htotal
      refine ih (h.count hfirst hend (by omega)) hrest hends ?_
      rw [tsCount hfirst]
      change e.bytesWritten + c.data.length + _ < _
      omega

/-- The counts of TypeScript: the total, and no chunk ends above the maximum. -/
theorem tsCount_chunks (hne : ∀ c ∈ cs, c.data ≠ []) (e : EmuTs.Extent) :
    ((cs.map tsChunk).foldl EmuTs.IntelHexDmaChunk.count e).bytesWritten =
        e.bytesWritten + (cs.map fun c => c.data.length).sum ∧
      e.maxAddr ≤ ((cs.map tsChunk).foldl EmuTs.IntelHexDmaChunk.count e).maxAddr ∧
      ∀ c ∈ cs,
        (chunkEnd c : Int) - 1 ≤ ((cs.map tsChunk).foldl EmuTs.IntelHexDmaChunk.count e).maxAddr := by
  induction cs generalizing e with
  | nil => exact ⟨rfl, le_refl _, fun c hc => absurd hc List.not_mem_nil⟩
  | cons c cs ih =>
      obtain ⟨hfirst, hrest⟩ := List.forall_mem_cons.mp hne
      obtain ⟨htotal, hmax, hall⟩ := ih hrest ((tsChunk c).count e)
      rw [List.map_cons, List.foldl_cons, List.map_cons, List.sum_cons, List.forall_mem_cons]
      rw [tsCount hfirst] at htotal hmax
      refine ⟨?_, (le_max_left _ _).trans (hmax.trans ?_), ?_, hall⟩
      · rw [tsCount hfirst, htotal]
        exact Nat.add_assoc _ _ _
      · rw [tsCount hfirst]
      · rw [tsCount hfirst]
        exact (le_max_right _ _).trans hmax

end Extents

section Plan

variable {raw records : List Chunk}

/-- The chunks of the Rust plan -/
def planChunks (raw : List Chunk) : List IntelHexDmaChunk :=
  raw.reverse.map fun c => ⟨c.1, c.2⟩

theorem mem_planChunks {p : IntelHexDmaChunk → Prop} :
    (∀ c ∈ planChunks raw, p c) ↔ ∀ c ∈ raw, p ⟨c.1, c.2⟩ := by
  rw [planChunks, List.forall_mem_map]
  simp only [List.mem_reverse]

theorem total_planChunks (raw : List Chunk) :
    ((planChunks raw).map fun c => c.data.length).sum = (raw.map fun c => c.2.length).sum := by
  rw [planChunks, List.map_map, List.map_reverse, List.sum_reverse]
  rfl

theorem toUint8_jsByte (data : List U8) : (data.map jsByte).map JsByte.toUint8 = data := by
  rw [List.map_map]
  refine (List.map_congr_left fun b _ => ?_).trans (List.map_id data)
  exact Js.ofInt_num b

theorem planOf_chunks (raw : List Chunk) :
    (EmuTs.planOf (raw.map tsRecord)).chunks = (planChunks raw).map tsChunk := by
  rw [EmuTs.planOf, planChunks, ← List.map_reverse, List.map_map, List.map_map]
  refine List.map_congr_left fun c _ => ?_
  exact congrArg (EmuTs.IntelHexDmaChunk.mk c.1.toNat) (toUint8_jsByte c.2)

theorem planOf_ts (raw : List Chunk) :
    EmuTs.planOf (raw.map tsRecord) =
      ⟨(planChunks raw).map tsChunk,
        (((planChunks raw).map tsChunk).foldl EmuTs.IntelHexDmaChunk.count {}).bytesWritten,
        (((planChunks raw).map tsChunk).foldl EmuTs.IntelHexDmaChunk.count {}).minAddr,
        (((planChunks raw).map tsChunk).foldl EmuTs.IntelHexDmaChunk.count {}).maxAddr⟩ := by
  rw [← planOf_chunks]
  rfl

theorem addRecord_ne_nil {r : Chunk} (hr : r.2 ≠ []) (h : ∀ c ∈ raw, c.2 ≠ []) :
    ∀ c ∈ addRecord r.1 r.2 raw, c.2 ≠ [] := by
  cases raw with
  | nil =>
      rw [addRecord_nil hr]
      exact List.forall_mem_singleton.mpr hr
  | cons c raw =>
      obtain ⟨-, hrest⟩ := List.forall_mem_cons.mp h
      rw [addRecord_cons hr]
      split
      · exact List.forall_mem_cons.mpr ⟨List.append_ne_nil_of_right_ne_nil _ hr, hrest⟩
      · exact List.forall_mem_cons.mpr ⟨hr, h⟩

theorem total_addRecord {r : Chunk} (hr : r.2 ≠ []) :
    ((addRecord r.1 r.2 raw).map fun c => c.2.length).sum =
      (raw.map fun c => c.2.length).sum + r.2.length := by
  cases raw with
  | nil =>
      rw [addRecord_nil hr]
      exact Nat.add_comm _ _
  | cons c raw =>
      rw [addRecord_cons hr]
      split
      · rw [List.map_cons, List.map_cons, List.sum_cons, List.sum_cons, List.length_append]
        exact Nat.add_right_comm _ _ _
      · exact Nat.add_comm _ _

/-- Chunks hold bytes, as many as the records. -/
theorem rsChunks_held (hr : ∀ r ∈ records, r.2 ≠ []) (h : ∀ c ∈ raw, c.2 ≠ []) :
    (∀ c ∈ rsChunks raw records, c.2 ≠ []) ∧
      ((rsChunks raw records).map fun c => c.2.length).sum =
        (raw.map fun c => c.2.length).sum + (records.map fun r => r.2.length).sum := by
  induction records generalizing raw with
  | nil => exact ⟨h, rfl⟩
  | cons r records ih =>
      obtain ⟨hfirst, hrest⟩ := List.forall_mem_cons.mp hr
      obtain ⟨hall, htotal⟩ := ih hrest (addRecord_ne_nil hfirst h)
      refine ⟨hall, ?_⟩
      rw [rsChunks, List.foldl_cons, List.map_cons, List.sum_cons, ← Nat.add_assoc,
        ← total_addRecord hfirst]
      exact htotal

theorem Counted.plan
    (h : Counted (((planChunks raw).map tsChunk).foldl EmuTs.IntelHexDmaChunk.count {})
      ((planChunks raw).foldl Extent.count {})) :
    EmuTs.planOf (raw.map tsRecord) = tsPlan (planOf raw) := by
  rw [planOf_ts]
  change _ = tsPlan (if ((planChunks raw).foldl Extent.count {}).bytesWritten = 0 then _ else _)
  by_cases hzero : ((planChunks raw).foldl Extent.count {}).bytesWritten = 0
  · have hnone : (((planChunks raw).map tsChunk).foldl EmuTs.IntelHexDmaChunk.count
        {}).bytesWritten = 0 := by
      rw [h.bytesWritten, hzero]
      rfl
    rw [if_pos hzero, h.bytesWritten, h.maxAddr, (h.none hnone).1, (h.none hnone).2.2]
    rfl
  · have hsome : (((planChunks raw).map tsChunk).foldl EmuTs.IntelHexDmaChunk.count
        {}).bytesWritten ≠ 0 := by
      rw [h.bytesWritten]
      exact fun hnat => hzero (BitVec.eq_of_toNat_eq hnat)
    rw [if_neg hzero, h.bytesWritten, h.maxAddr, h.some hsome]
    rfl

theorem tsPlan_bytesWritten (raw : List Chunk) : (tsPlan (planOf raw)).bytesWritten < 2 ^ 32 :=
  (planOf raw).bytesWritten.isLt

theorem tsPlan_maxAddr (raw : List Chunk) : (tsPlan (planOf raw)).maxAddr < 2 ^ 32 := by
  change ((planOf raw).maxAddr.map Js.num).getD (-1) < 2 ^ 32
  cases (planOf raw).maxAddr with
  | none => decide
  | some m => exact Js.num_lt m

theorem tsPlan_length (raw : List Chunk) : (tsPlan (planOf raw)).chunks.length = raw.length := by
  rw [tsPlan, List.length_map]
  change (if ((planChunks raw).foldl Extent.count {}).bytesWritten = 0 then
    (⟨planChunks raw, _, _, _⟩ : IntelHexDmaPlan) else ⟨planChunks raw, _, _, _⟩).chunks.length = _
  split <;> rw [planChunks, List.length_map, List.length_reverse]

/-- Both languages make the same plan of records that fit, and of no others. -/
theorem planOf_iff (hr : ∀ r ∈ records, r.2 ≠ []) :
    EmuTs.planOf (tsChunks [] records) = tsPlan (planOf (rsChunks [] records)) ↔
      Fits records := by
  obtain ⟨hheld, htotal⟩ := rsChunks_held hr fun c (hc : c ∈ []) => absurd hc List.not_mem_nil
  rw [List.map_nil, List.sum_nil, Nat.zero_add] at htotal
  have hne : ∀ c ∈ planChunks (rsChunks [] records), c.data ≠ [] := mem_planChunks.mpr hheld
  constructor
  · intro h
    have hlength : (tsChunks [] records).length = (rsChunks [] records).length := by
      rw [← tsPlan_length, ← h, EmuTs.planOf, List.length_map, List.length_reverse]
    have hagreed : Agreed [] records := agreed_of_length hr hlength
    have hsame : tsChunks [] records = (rsChunks [] records).map tsRecord :=
      tsChunks_agreed hr hagreed
    obtain ⟨hbytes, -, hmax⟩ := tsCount_chunks hne {}
    rw [hsame, planOf_ts] at h
    have hplan : ∀ c ∈ planChunks (rsChunks [] records), chunkEnd c ≤ 2 ^ 32 := by
      intro c hc
      have hlt := tsPlan_maxAddr (rsChunks [] records)
      rw [← h] at hlt
      have hc' := hmax c hc
      dsimp only at hlt
      omega
    have hends : ∀ r ∈ records, behind r ≤ 2 ^ 32 :=
      ((rsChunks_below hr hagreed).mp (mem_planChunks.mp hplan)).2
    refine ⟨hends, (agreed_nil_iff hr hends).mp hagreed, ?_⟩
    have hlt := tsPlan_bytesWritten (rsChunks [] records)
    rw [← h] at hlt
    dsimp only at hlt
    rw [hbytes, total_planChunks, htotal] at hlt
    exact (Nat.zero_add _).symm.trans_lt hlt
  · intro h
    have hagreed : Agreed [] records := (agreed_nil_iff hr h.ends).mpr h.joins
    have hsame : tsChunks [] records = (rsChunks [] records).map tsRecord :=
      tsChunks_agreed hr hagreed
    have hends := (rsChunks_below hr hagreed).mpr
      ⟨fun c hc => absurd hc List.not_mem_nil, h.ends⟩
    rw [hsame]
    refine (counted_start.chunks hne (mem_planChunks.mpr hends) ?_).plan
    rw [total_planChunks, htotal]
    exact (Nat.zero_add _).trans_lt h.total

end Plan

end IntelHex
end RetroCpu
