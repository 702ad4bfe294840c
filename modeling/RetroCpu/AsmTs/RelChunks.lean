import RetroCpu.AsmTs.RelWriter
import RetroCpu.Lib.ListPieces

/-!
# The chunks of an area

The words of an area, sorted by address, are cut into runs of adjacent words and these into
chunks for one T record each.  Nothing is lost or doubled in that, and a byte of the area
lies in as many chunks as words cover it.
-/

namespace RetroCpu
namespace AsmTs

open Js

section Groups

variable {α : Type} {n : Nat}

theorem flatten_groups (hn : 0 < n) : ∀ (fuel : Nat) (l : List α), l.length ≤ fuel →
    (groups n fuel l).flatten = l := by
  intro fuel
  induction fuel with
  | zero =>
      intro l hl
      rw [List.length_eq_zero_iff.mp (Nat.le_zero.mp hl)]
      rfl
  | succ fuel ih =>
      intro l hl
      cases l with
      | nil => rfl
      | cons a l =>
          rw [groups, List.flatten_cons, ih]
          · exact List.take_append_drop n (a :: l)
          · rw [List.length_drop]
            simp only [List.length_cons] at hl ⊢
            omega

/-- A group is a part of the list, not empty and not too long. -/
theorem mem_groups (hn : 0 < n) : ∀ (fuel : Nat) (l : List α), ∀ g ∈ groups n fuel l,
    g ≠ [] ∧ g.length ≤ n ∧ g <:+: l := by
  intro fuel
  induction fuel with
  | zero =>
      intro l g hg
      cases hg
  | succ fuel ih =>
      intro l g hg
      cases l with
      | nil => cases hg
      | cons a l =>
          rw [groups, List.mem_cons] at hg
          rcases hg with rfl | hg
          · refine ⟨?_, List.length_take_le n _, (List.take_prefix n _).isInfix⟩
            rw [Ne, List.take_eq_nil_iff]
            rintro (h | h)
            · omega
            · cases h
          · obtain ⟨hne, hlen, hinfix⟩ := ih _ g hg
            exact ⟨hne, hlen, hinfix.trans (List.drop_suffix n _).isInfix⟩

end Groups

section Runs

variable (result : AssemblyResult)

/-- The byte address of an address of the target, not cut to 16 bits. -/
def unitByte (a : Int) : Int := if result.byteMode then a else a * 2

/-- Words at adjacent addresses. -/
def IsRun (ws : List EmittedWord) : Prop :=
  ws.IsChain fun w v => v.address = w.address + addrStep result

/-- A byte of an area at a byte address. -/
structure AreaByte where
  area : String
  addr : Int
  value : Number
deriving DecidableEq, Repr

/-- Consecutive bytes of an area. -/
def placeBytes (area : String) : Int → List Number → List AreaByte
  | _, [] => []
  | a, v :: vs => ⟨area, a, v⟩ :: placeBytes area (a + 1) vs

/-- The two bytes of a word. -/
def wordBytes (area : String) (w : EmittedWord) : List AreaByte :=
  placeBytes area (unitByte result w.address) ((chunkBytes [w]).map .int)

/-- The word has the byte at `b`. -/
def covers (b : Int) (w : EmittedWord) : Bool :=
  unitByte result w.address ≤ b && b < unitByte result w.address + 2

variable {result}

theorem unitByte_step (a : Int) : unitByte result (a + addrStep result) = unitByte result a + 2 := by
  unfold unitByte addrStep
  cases result.byteMode with
  | true => rfl
  | false =>
      simp only [Bool.false_eq_true, if_false]
      omega

theorem startByte_cons (w : EmittedWord) (ws : List EmittedWord) :
    startByte result (w :: ws) = unitByte result w.address := rfl

theorem startByte_next {w v : EmittedWord} {ws : List EmittedWord}
    (h : IsRun result (w :: v :: ws)) :
    startByte result (v :: ws) = startByte result (w :: v :: ws) + 2 := by
  rw [startByte_cons, startByte_cons, (List.isChain_cons_cons.mp h).1, unitByte_step]

theorem IsRun.tail {w v : EmittedWord} {ws : List EmittedWord}
    (h : IsRun result (w :: v :: ws)) : IsRun result (v :: ws) :=
  (List.isChain_cons_cons.mp h).2

theorem length_chunkBytes (chunk : List EmittedWord) :
    (chunkBytes chunk).length = 2 * chunk.length := by
  induction chunk with
  | nil => rfl
  | cons w ws ih =>
      rw [chunkBytes, List.flatMap_cons, List.length_append, List.length_cons]
      unfold chunkBytes at ih
      rw [ih]
      simp only [List.length_cons, List.length_nil]
      omega

/-- A byte lies in a run exactly if one word of the run covers it. -/
theorem countP_covers_run {b : Int} {chunk : List EmittedWord} (hne : chunk ≠ [])
    (h : IsRun result chunk) : chunk.countP (covers result b) =
      if startByte result chunk ≤ b ∧ b < startByte result chunk + 2 * chunk.length then 1
      else 0 := by
  induction chunk with
  | nil => exact absurd rfl hne
  | cons w ws ih =>
      rw [List.countP_cons]
      cases ws with
      | nil =>
          simp only [List.countP_nil, covers, startByte_cons, Bool.and_eq_true,
            decide_eq_true_eq, List.length_singleton]
          norm_num
      | cons v ws =>
          rw [ih (by simp) h.tail, startByte_next h]
          simp only [covers, ← startByte_cons w (v :: ws), Bool.and_eq_true, decide_eq_true_eq,
            List.length_cons]
          push_cast
          split <;> split <;> split <;> omega

theorem chunkBytes_cons (w : EmittedWord) (ws : List EmittedWord) :
    chunkBytes (w :: ws) = chunkBytes [w] ++ chunkBytes ws := by
  simp only [chunkBytes, List.flatMap_cons, List.flatMap_nil, List.append_nil]

theorem placeBytes_append (area : String) (a : Int) (u v : List Number) :
    placeBytes area a (u ++ v) = placeBytes area a u ++ placeBytes area (a + u.length) v := by
  induction u generalizing a with
  | nil => simp [placeBytes]
  | cons x u ih =>
      have haddr : a + 1 + (u.length : Int) = a + ((u.length + 1 : Nat) : Int) := by
        push_cast
        ring
      simp only [List.cons_append, placeBytes, ih, List.length_cons, haddr]

theorem length_placeBytes (area : String) (a : Int) (u : List Number) :
    (placeBytes area a u).length = u.length := by
  induction u generalizing a with
  | nil => rfl
  | cons x u ih => simp [placeBytes, ih]

/-- The bytes of a run stand where the bytes of its words do. -/
theorem placeBytes_run (area : String) {chunk : List EmittedWord} (h : IsRun result chunk) :
    placeBytes area (startByte result chunk) ((chunkBytes chunk).map .int) =
      chunk.flatMap (wordBytes result area) := by
  induction chunk with
  | nil => rfl
  | cons w ws ih =>
      rw [chunkBytes_cons, List.map_append, placeBytes_append, List.flatMap_cons]
      congr 1
      cases ws with
      | nil => rfl
      | cons v ws =>
          rw [← ih h.tail, startByte_next h, List.length_map, length_chunkBytes]
          rfl

end Runs

section Chunks

variable {result : AssemblyResult} {sorted : List EmittedWord}

/-- The chunks put together again. -/
theorem flatten_chunks (result : AssemblyResult) (sorted : List EmittedWord) :
    (chunks result sorted).flatten = sorted := by
  have hgroups : ∀ runs : List (List EmittedWord),
      (runs.flatMap fun run => groups (MAX_T_DATA_BYTES / 2) run.length run).flatten =
        runs.flatten := by
    intro runs
    induction runs with
    | nil => rfl
    | cons run runs ih =>
        rw [List.flatMap_cons, List.flatten_append, ih, List.flatten_cons,
          flatten_groups (by decide) run.length run (le_refl _)]
  rw [chunks, hgroups, List.flatten_splitBy]

theorem mem_chunks {chunk : List EmittedWord} (h : chunk ∈ chunks result sorted) :
    chunk ≠ [] ∧ chunk.length ≤ 7 ∧ IsRun result chunk := by
  obtain ⟨run, hrun, hchunk⟩ := List.mem_flatMap.mp h
  obtain ⟨hne, hlen, hinfix⟩ := mem_groups (by decide) _ _ _ hchunk
  refine ⟨hne, hlen, ?_⟩
  have hchain := List.isChain_of_mem_splitBy hrun
  refine List.IsChain.imp ?_ ( hchain.infix hinfix)
  intro w v hwv
  simpa using hwv

/-- The place `b` belongs to the bytes of the chunk. -/
def inChunk (result : AssemblyResult) (b : Int) (chunk : List EmittedWord) : Bool :=
  startByte result chunk ≤ b && b < startByte result chunk + (chunkBytes chunk).length

/-- A byte lies in as many chunks as there are words that cover it. -/
theorem countP_inChunk (b : Int) :
    (chunks result sorted).countP (inChunk result b) = sorted.countP (covers result b) := by
  have hsum : ∀ cs : List (List EmittedWord), (∀ c ∈ cs, c ≠ [] ∧ IsRun result c) →
      cs.countP (inChunk result b) = cs.flatten.countP (covers result b) := by
    intro cs
    induction cs with
    | nil => exact fun _ => rfl
    | cons c cs ih =>
        intro h
        obtain ⟨hne, hrun⟩ := h c (by simp)
        rw [List.countP_cons, List.flatten_cons, List.countP_append,
          ih fun c hc => h c (by simp [hc]), countP_covers_run hne hrun, Nat.add_comm]
        simp only [inChunk, length_chunkBytes, Bool.and_eq_true, decide_eq_true_eq]
        push_cast
        rfl
  rw [hsum _ fun c hc => ⟨(mem_chunks hc).1, (mem_chunks hc).2.2⟩, flatten_chunks]

end Chunks

end AsmTs
end RetroCpu
