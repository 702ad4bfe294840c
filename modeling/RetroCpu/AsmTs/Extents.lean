import RetroCpu.AsmTs.Pass2Steps

/-!
# What a program takes of its areas

The words that the second pass emits and the ranges that its lines reserve, each with the
address unit after it; the location counters and the sizes of the areas stay within 16 bits.
-/

namespace RetroCpu
namespace AsmTs

open Js Checked

section Assembled

/-- The lines as both passes read them. -/
def passLines (parsed : List ParsedLine) : Except String (List ParsedLine) := do
  let stringLens ← collectStringLens parsed
  applyLenCalls parsed stringLens (collectGloblNames parsed)

/-- The passes behind a result of `assemble`. -/
structure Assembled (target : Target) (mentions : String → String → Except String Bool)
    (parsed lines : List ParsedLine) (result : AssemblyResult) (first : Pass1) (second : Pass2) :
    Prop where
  hlines : passLines parsed = .ok lines
  hfirst : pass1 target lines = .ok first
  symbols : result.symbols = first.symbols
  symbolInfos : result.symbolInfos =
    buildSymbolInfos first.symbols (collectGloblNames parsed) first.symbolAreas
  hsecond : pass2 target mentions result.symbols result.symbolInfos lines = .ok second
  words : result.words = second.words
  relocs : result.relocs = second.relocs
  areas : result.areas = snapshotAreas second.areas
  byteMode : result.byteMode = target.byteMode
  checkpoints : collectCheckpoints lines second.words second.storageAddrs first.lineAreas =
    .ok result.checkpoints

theorem assemble_eq_ok {target : Target} {mentions : String → String → Except String Bool}
    {parsed : List ParsedLine} {result : AssemblyResult}
    (h : assemble target mentions parsed = .ok result) :
    ∃ lines first second, Assembled target mentions parsed lines result first second := by
  obtain ⟨stringLens, hlens, h⟩ := bind_eq_ok.mp h
  obtain ⟨lines, hlines, h⟩ := bind_eq_ok.mp h
  obtain ⟨first, hfirst, h⟩ := bind_eq_ok.mp h
  obtain ⟨second, hsecond, h⟩ := bind_eq_ok.mp h
  obtain ⟨checkpoints, hcheckpoints, h⟩ := bind_eq_ok.mp h
  obtain rfl := pure_eq_ok.mp h
  refine ⟨lines, first, second, ?_, hfirst, rfl, rfl, hsecond, rfl, rfl, rfl, rfl, hcheckpoints⟩
  exact bind_eq_ok.mpr ⟨stringLens, hlens, hlines⟩

end Assembled

section Extents

/-- A range of an area, up to the address unit `stop`. -/
structure Extent where
  area : String
  stop : Int
deriving DecidableEq, Repr

variable (target : Target) (mentions : String → String → Except String Bool)
  (symbols : SymbolTable) (symbolInfos : SymbolInfoTable)

/-- What a line reserves. -/
def reservation (st : Pass2) (line : ParsedLine) : List Extent :=
  if line.operation.map lineKind = some .storage then
    match evalStorageReserve target line symbols false with
    | .ok size =>
        if size = 0 then []
        else [⟨canonicalAreaName st.areas.current, areaPc st.areas + size⟩]
    | .error _ => []
  else []

/-- What the lines of a run of the second pass reserve. -/
def reservations : Pass2 → List ParsedLine → List Extent
  | _, [] => []
  | st, line :: rest =>
      reservation target symbols st line ++
        match pass2Line target mentions symbols symbolInfos st line with
        | .ok st' => reservations st' rest
        | .error _ => []

/-- All that a program takes: its words and its reservations. -/
def extents (lines : List ParsedLine) (result : AssemblyResult) : List Extent :=
  (result.words.map fun w => ⟨canonicalAreaName w.area, w.address + target.addrStep⟩) ++
    reservations target mentions result.symbols result.symbolInfos {} lines

end Extents

section Range

/-- Location counters of 16 bits. -/
def CountersInRange (ctx : AreaContext) : Prop :=
  ∀ entry ∈ ctx.areas.entries, 0 ≤ entry.2.pc ∧ entry.2.pc < 65536

theorem countersInRange_create : CountersInRange createAreaContext := by
  intro entry hentry
  rcases JsMap.mem_set hentry with rfl | hentry
  · exact ⟨le_refl 0, by decide⟩
  · cases hentry

theorem areaPc_range {ctx : AreaContext} (h : CountersInRange ctx) :
    0 ≤ areaPc ctx ∧ areaPc ctx < 65536 := by
  unfold areaPc currentLoc
  cases hget : ctx.areas.get ctx.current with
  | none => simp
  | some loc => exact h _ (JsMap.mem_of_get hget)

theorem setAreaPc_range {ctx : AreaContext} (h : CountersInRange ctx) (pc : Int) :
    CountersInRange (setAreaPc ctx pc) := by
  intro entry hentry
  rcases JsMap.mem_set hentry with rfl | hentry
  · simp only [land_ffff]
    omega
  · exact h entry hentry

theorem switchArea_range {ctx : AreaContext} (h : CountersInRange ctx) (name : String)
    (noload : Bool) : CountersInRange (switchArea ctx name noload) := by
  intro entry hentry
  rcases JsMap.mem_set hentry with rfl | hentry
  · cases hget : ctx.areas.get (toUpperCase name) with
    | none => simp
    | some loc =>
        have hloc := h _ (JsMap.mem_of_get hget)
        cases noload
        · exact hloc
        · exact hloc
  · exact h entry hentry

/-- Addresses and counters are not negative, and counters have 16 bits. -/
structure InRange (st : Pass2) : Prop where
  counters : CountersInRange st.areas
  words : ∀ w ∈ st.words, 0 ≤ w.address

variable {target : Target} {mentions : String → String → Except String Bool}
  {symbols : SymbolTable} {symbolInfos : SymbolInfoTable} {lines : List ParsedLine}

theorem addrStep_pos : 0 < target.addrStep := by
  unfold Target.addrStep
  split <;> decide

theorem address_wordsAt {areas : AreaContext} {line : ParsedLine} {pc : Int} {values : List Int}
    {w : EmittedWord} (hw : w ∈ wordsAt target areas line pc values) : pc ≤ w.address := by
  induction values generalizing pc with
  | nil => cases hw
  | cons v vs ih =>
      simp only [wordsAt, List.mem_cons] at hw
      rcases hw with rfl | hw
      · exact le_refl _
      · have := ih hw
        have hstep : 0 < target.addrStep := addrStep_pos
        omega

theorem inRange_step {st st' : Pass2} (h : Pass2Step target symbolInfos lines st st')
    (hr : InRange st) : InRange st' := by
  cases h with
  | org pc => exact ⟨setAreaPc_range hr.counters pc, hr.words⟩
  | area line name noload => exact ⟨switchArea_range hr.counters name noload, hr.words⟩
  | storage lineNo size => exact ⟨setAreaPc_range hr.counters _, hr.words⟩
  | emit line values relocs =>
      refine ⟨setAreaPc_range hr.counters _, ?_⟩
      intro w hw
      rcases List.mem_append.mp hw with hw | hw
      · exact hr.words w hw
      · exact le_trans (areaPc_range hr.counters).1 (address_wordsAt hw)

theorem inRange_init : InRange {} := by
  refine ⟨countersInRange_create, ?_⟩
  intro w hw
  cases hw

theorem inRange_line {st st' : Pass2} {line : ParsedLine}
    (h : pass2Line target mentions symbols symbolInfos st line = .ok st') (hr : InRange st) :
    InRange st' := by
  have hsteps := pass2Line_steps (List.mem_singleton_self line) h
  clear h
  induction hsteps with
  | refl => exact hr
  | tail _ hs ih => exact inRange_step hs ih

theorem inRange_pass2 {st : Pass2}
    (h : pass2 target mentions symbols symbolInfos lines = .ok st) : InRange st :=
  pass2_invariant inRange_init (fun _ _ hs hr => inRange_step hs hr) h

theorem reservation_pos {st : Pass2} (hr : InRange st) {line : ParsedLine} {e : Extent}
    (he : e ∈ reservation target symbols st line) : 0 < e.stop := by
  unfold reservation at he
  split at he
  · cases hsize : evalStorageReserve target line symbols false with
    | error msg =>
        rw [hsize] at he
        cases he
    | ok size =>
        rw [hsize] at he
        dsimp only at he
        split at he
        · cases he
        · rename_i hne
          obtain rfl := List.mem_singleton.mp he
          unfold evalStorageReserve at hsize
          dsimp only at hsize
          rw [error_ite_eq_ok] at hsize
          obtain ⟨count, _, hsize⟩ := bind_eq_ok.mp hsize.2
          rw [error_ite_eq_ok] at hsize
          have hland := pure_eq_ok.mp hsize.2
          rw [land_ffff] at hland
          have := (areaPc_range hr.counters).1
          dsimp only
          omega
  · cases he

theorem reservations_pos {lines : List ParsedLine} {st : Pass2} (hr : InRange st) {e : Extent}
    (he : e ∈ reservations target mentions symbols symbolInfos st lines) : 0 < e.stop := by
  induction lines generalizing st with
  | nil => cases he
  | cons line rest ih =>
      unfold reservations at he
      rcases List.mem_append.mp he with he | he
      · exact reservation_pos hr he
      · cases hline : pass2Line target mentions symbols symbolInfos st line with
        | error msg =>
            rw [hline] at he
            cases he
        | ok st' =>
            rw [hline] at he
            exact ih (inRange_line hline hr) he

end Range

section Sizes

/-- Entries of the sizes: under their own names, which are names of the context, with 16
bits. -/
def SizesOk (ctx : AreaContext) (byName : JsMap AreaInfo) : Prop :=
  ∀ entry ∈ byName.entries, entry.2.name = entry.1 ∧
    (∃ area ∈ ctx.areas.entries, entry.1 = canonicalAreaName area.1) ∧
    0 ≤ entry.2.size ∧ entry.2.size < 65536

theorem sizesOk_get {ctx : AreaContext} {byName : JsMap AreaInfo} (h : SizesOk ctx byName)
    {k : String} {a : AreaInfo} (hget : byName.get k = some a) : a.name = k ∧ 0 ≤ a.size ∧ a.size < 65536 := by
  obtain ⟨hname, _, hsize⟩ := h _ (JsMap.mem_of_get hget)
  exact ⟨hname, hsize⟩

/-- The sizes by area, as `snapshotAreas` collects them. -/
theorem exists_sizes {ctx : AreaContext} (h : CountersInRange ctx) :
    ∃ byName, SizesOk ctx byName ∧ snapshotAreas ctx =
      (orderLinkAreaNames (byName.entries.map (·.1))).filterMap byName.get := by
  refine ⟨_, ?_, rfl⟩
  refine List.foldlRecOn _ _ (fun e he => by cases he) ?_
  intro m hm entry hmem
  obtain ⟨name, loc⟩ := entry
  have hloc := h (name, loc) hmem
  dsimp only
  split
  · exact hm
  · cases hget : m.get (canonicalAreaName name) with
    | none =>
        intro e he
        rcases JsMap.mem_set he with rfl | he
        · exact ⟨rfl, ⟨_, hmem, rfl⟩, hloc⟩
        · exact hm e he
    | some prev =>
        obtain ⟨hname, hsize⟩ := sizesOk_get hm hget
        intro e he
        rcases JsMap.mem_set he with rfl | he
        · refine ⟨hname, ⟨_, hmem, rfl⟩, ?_⟩
          dsimp only at hloc ⊢
          omega
        · exact hm e he

variable {ctx : AreaContext}

theorem snapshotAreas_nodup (h : CountersInRange ctx) :
    ((snapshotAreas ctx).map (·.name)).Nodup := by
  obtain ⟨byName, hok, hsnap⟩ := exists_sizes h
  rw [hsnap, List.map_filterMap]
  refine List.Nodup.filterMap ?_ (nodup_orderLinkAreaNames _)
  have hname : ∀ k b, b ∈ (byName.get k).map (·.name) → b = k := by
    intro k b hb
    obtain ⟨a, ha, rfl⟩ := Option.map_eq_some_iff.mp hb
    exact (sizesOk_get hok ha).1
  intro k k' b hb hb'
  rw [← hname k b hb, ← hname k' b hb']

theorem mem_snapshotAreas (h : CountersInRange ctx) {a : AreaInfo} (ha : a ∈ snapshotAreas ctx) :
    (∃ area ∈ ctx.areas.entries, a.name = canonicalAreaName area.1) ∧
      0 ≤ a.size ∧ a.size < 65536 := by
  obtain ⟨byName, hok, hsnap⟩ := exists_sizes h
  rw [hsnap] at ha
  obtain ⟨k, _, hget⟩ := List.mem_filterMap.mp ha
  obtain ⟨hname, ⟨area, harea, hcanon⟩, hsize⟩ := hok _ (JsMap.mem_of_get hget)
  exact ⟨⟨area, harea, hname.trans hcanon⟩, hsize⟩

theorem canonicalAreaName_snapshot (h : CountersInRange ctx) {a : AreaInfo}
    (ha : a ∈ snapshotAreas ctx) : canonicalAreaName a.name = a.name := by
  obtain ⟨⟨area, _, hname⟩, _⟩ := mem_snapshotAreas h ha
  rw [hname, canonicalAreaName_idem]

end Sizes

end AsmTs
end RetroCpu
