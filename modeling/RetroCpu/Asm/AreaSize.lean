import RetroCpu.AsmRs.Extents
import RetroCpu.AsmTs.RelWriter

/-!
# Sizes of the areas in object files

The linker puts the next part of an area, or the next area, behind the size that the A
record declares.  The two writers take that size from different sources: the one from the
final location counters and the last word of the area, the other from the last word alone.
-/

namespace RetroCpu

/-- What the program takes of an area lies below the size that is declared for it. -/
def SizesDominate (byteAddr : Int → Int) (declared : String → Int) (l : List AsmTs.Extent) :
    Prop :=
  ∀ e ∈ l, byteAddr e.stop ≤ declared e.area

namespace AsmTs

open Js Checked

section Declared

/-- The size in the A record of an area; an area without a record has none. -/
def declaredSize (localeCompare : String → String → Int) (result : AssemblyResult)
    (area : String) : Int :=
  if area ∈ relAreaNames result (globalEntries localeCompare result) then
    land (sizeRel result ((relAreaInfos result).get area) (wordsOf result area)) 0xffff
  else 0

/-- The final location counter of an area. -/
def counter (result : AssemblyResult) (area : String) : Int :=
  ((result.areas.find? fun a => a.name == area).map (·.size)).getD 0

/-- The size of the area covers the extent: its end is no further than the final location
counter (where the doubled counter still has 16 bits), or than a word of bytes. -/
def Fits (target : Target) (result : AssemblyResult) (e : Extent) : Prop :=
  if target.byteMode then
    e.stop < 65536 ∧ (e.stop ≤ counter result e.area ∨
      ∃ w ∈ result.words, canonicalAreaName w.area = e.area ∧ e.stop ≤ w.address + 2)
  else e.stop ≤ counter result e.area % 32768

/-- The A record of an area is in the object file, with the declared size. -/
theorem aRecord_mem {localeCompare : String → String → Int} {result : AssemblyResult}
    {moduleName area : String} {records : List (List Char)}
    (h : relRecords localeCompare result moduleName = .ok records)
    (harea : area ∈ relAreaNames result (globalEntries localeCompare result)) :
    aRecord area (declaredSize localeCompare result area) (asxxxxAreaFlags area) ∈ records := by
  obtain ⟨rs, hrs, h⟩ := bind_eq_ok.mp h
  obtain rfl := pure_eq_ok.mp h
  obtain ⟨r, hr, hrec⟩ := mapM_mem hrs harea
  obtain ⟨data, _, hrec⟩ := bind_eq_ok.mp hrec
  have hr' := pure_eq_ok.mp hrec
  have hsize : ∀ size : Int, aRecord area (land size 0xffff) (asxxxxAreaFlags area) =
      aRecord area size (asxxxxAreaFlags area) := by
    intro size
    simp [aRecord, hex4, land_ffff]
  rw [declaredSize, if_pos harea, hsize]
  have hmem : aRecord area (sizeRel result ((relAreaInfos result).get area) (wordsOf result area))
      (asxxxxAreaFlags area) ∈ r := by
    rw [← hr']
    exact List.mem_append_left _ (List.mem_cons_self ..)
  simp only [List.mem_append, List.mem_flatten]
  exact .inl (.inr ⟨r, hr, hmem⟩)

end Declared

section SizeRel

theorem foldl_max_spec (l : List EmittedWord) : ∀ m : Int,
    m ≤ l.foldl (fun m w => max m w.address) m ∧
      (∀ w ∈ l, w.address ≤ l.foldl (fun m w => max m w.address) m) ∧
      (l.foldl (fun m w => max m w.address) m = m ∨
        ∃ w ∈ l, l.foldl (fun m w => max m w.address) m = w.address) := by
  induction l with
  | nil => exact fun m => ⟨le_refl m, by simp, .inl rfl⟩
  | cons w l ih =>
      intro m
      obtain ⟨hle, hall, hmax⟩ := ih (max m w.address)
      rw [List.foldl_cons]
      refine ⟨le_trans (le_max_left _ _) hle, ?_, ?_⟩
      · intro v hv
        rcases List.mem_cons.mp hv with rfl | hv
        · exact le_trans (le_max_right _ _) hle
        · exact hall v hv
      · rcases hmax with hmax | ⟨v, hv, hmax⟩
        · rw [hmax]
          rcases max_choice m w.address with h | h
          · exact .inl h
          · exact .inr ⟨w, by simp, h⟩
        · exact .inr ⟨v, by simp [hv], hmax⟩

variable {result : AssemblyResult}

/-- The size is the larger of what the words need and of what the counter says. -/
theorem sizeRel_spec (info : Option AreaInfo) {sorted : List EmittedWord}
    (hpos : ∀ w ∈ sorted, 0 ≤ w.address) :
    ∃ fromWords, sizeRel result info sorted =
        max fromWords ((info.map fun info => areaSizeRel info.size result.byteMode).getD 0) ∧
      (∀ w ∈ sorted, w.address + addrStep result ≤ fromWords) ∧
      (fromWords = 0 ∨ ∃ w ∈ sorted, fromWords = w.address + addrStep result) := by
  cases sorted with
  | nil =>
      refine ⟨0, ?_, by simp, .inl rfl⟩
      simp [sizeRel]
  | cons w0 rest =>
      obtain ⟨hle, hall, hmax⟩ := foldl_max_spec (w0 :: rest) 0
      refine ⟨(w0 :: rest).foldl (fun m w => max m w.address) 0 + addrStep result, ?_, ?_, ?_⟩
      · unfold sizeRel addrStep
        have hneg : ¬ (w0 :: rest).foldl (fun m w => max m w.address) 0 < 0 := not_lt.mpr hle
        simp only [List.isEmpty_cons, Bool.false_eq_true, if_false, if_neg hneg]
        cases result.byteMode
        · rfl
        · rfl
      · intro w hw
        have := hall w hw
        omega
      · rcases hmax with hmax | ⟨w, hw, hmax⟩
        · have h0 := hpos w0 (by simp)
          have := hall w0 (by simp)
          exact .inr ⟨w0, by simp, by omega⟩
        · exact .inr ⟨w, hw, by omega⟩

theorem relAreaInfos_size (hnodup : (result.areas.map (·.name)).Nodup) (area : String) :
    (((relAreaInfos result).get area).map (·.size)).getD 0 = counter result area := by
  have hwords : ∀ (ws : List EmittedWord) (m : JsMap AreaInfo),
      (((ws.foldl (fun (m : JsMap AreaInfo) w =>
        let key := canonicalAreaName w.area
        if m.has key then m else m.set key ⟨key, 0, key == "_WORK"⟩) m).get area).map
          (·.size)).getD 0 = ((m.get area).map (·.size)).getD 0 := by
    intro ws
    induction ws with
    | nil => exact fun m => rfl
    | cons w ws ih =>
        intro m
        rw [List.foldl_cons, ih]
        dsimp only
        split
        · rfl
        · rename_i hhas
          rw [JsMap.get_set]
          split
          · rename_i hkey
            rw [JsMap.has, hkey] at hhas
            simp only [Bool.not_eq_true, Option.isSome_eq_false_iff, Option.isNone_iff_eq_none]
              at hhas
            simp [hhas]
          · rfl
  rw [relAreaInfos, hwords, counter]
  cases hfind : result.areas.find? fun a => a.name == area with
  | none =>
      have hne : ∀ a ∈ result.areas, a.name ≠ area := by
        simpa using hfind
      rw [JsMap.get_foldl_set_of_forall_ne hne]
      rfl
  | some a =>
      have hname : a.name = area := by simpa using List.find?_some hfind
      have hget := JsMap.get_foldl_set_of_mem (f := fun a : AreaInfo => a.name) (g := id)
        hnodup (List.mem_of_find?_eq_some hfind) .empty
      rw [hname] at hget
      simp only [id] at hget
      rw [hget]

end SizeRel

section Theorem

variable {target : Target} {mentions : String → String → Except String Bool}
  {localeCompare : String → String → Int} {parsed lines : List ParsedLine}
  {result : AssemblyResult} {first : Pass1} {second : Pass2}

theorem mem_wordsOf {area : String} {w : EmittedWord} :
    w ∈ wordsOf result area ↔ w ∈ result.words ∧ canonicalAreaName w.area = area := by
  simp [wordsOf, List.mem_mergeSort]

theorem mem_relAreaNames_of_word {globals : List GlobalEntry} {w : EmittedWord}
    (hw : w ∈ result.words) : canonicalAreaName w.area ∈ relAreaNames result globals := by
  have hmem : canonicalAreaName w.area ∈ orderLinkAreaNames (result.areas.map (·.name) ++
      result.words.map (·.area) ++ (globals.filter (·.isDef)).filterMap (·.area) ++
        result.checkpoints.map (·.area)) := by
    refine mem_orderLinkAreaNames.mpr (List.mem_map.mpr ⟨w.area, ?_, rfl⟩)
    simp only [List.mem_append, List.mem_map]
    exact .inl (.inl (.inr ⟨w, hw, rfl⟩))
  unfold relAreaNames
  dsimp only
  split
  · rename_i hempty
    rw [List.isEmpty_iff.mp hempty] at hmem
    cases hmem
  · exact hmem

theorem mem_relAreaNames_of_counter (ha : Assembled target mentions parsed lines result first second)
    {globals : List GlobalEntry} {area : String} (hc : counter result area ≠ 0) :
    area ∈ relAreaNames result globals := by
  unfold counter at hc
  cases hfind : result.areas.find? fun a => a.name == area with
  | none =>
      rw [hfind] at hc
      exact absurd rfl hc
  | some a =>
      have hname : a.name = area := by simpa using List.find?_some hfind
      have hareas := List.mem_of_find?_eq_some hfind
      have hrange := inRange_pass2 ha.hsecond
      have hcanon : canonicalAreaName a.name = a.name := by
        refine canonicalAreaName_snapshot hrange.counters ?_
        rw [← ha.areas]
        exact hareas
      have hmem : area ∈ orderLinkAreaNames (result.areas.map (·.name) ++
          result.words.map (·.area) ++ (globals.filter (·.isDef)).filterMap (·.area) ++
            result.checkpoints.map (·.area)) := by
        refine mem_orderLinkAreaNames.mpr (List.mem_map.mpr ⟨a.name, ?_, by rw [hcanon, hname]⟩)
        simp only [List.mem_append, List.mem_map]
        exact .inl (.inl (.inl ⟨a, hareas, rfl⟩))
      unfold relAreaNames
      dsimp only
      split
      · rename_i hempty
        rw [List.isEmpty_iff.mp hempty] at hmem
        cases hmem
      · exact hmem

theorem counter_range (ha : Assembled target mentions parsed lines result first second)
    (area : String) : 0 ≤ counter result area ∧ counter result area < 65536 := by
  unfold counter
  cases hfind : result.areas.find? fun a => a.name == area with
  | none => simp
  | some a =>
      have hareas := List.mem_of_find?_eq_some hfind
      rw [ha.areas] at hareas
      exact (mem_snapshotAreas (inRange_pass2 ha.hsecond).counters hareas).2

theorem extents_pos (ha : Assembled target mentions parsed lines result first second)
    {e : Extent} (he : e ∈ extents target mentions lines result) : 0 < e.stop := by
  rcases List.mem_append.mp he with he | he
  · obtain ⟨w, hw, rfl⟩ := List.mem_map.mp he
    rw [ha.words] at hw
    have := (inRange_pass2 ha.hsecond).words w hw
    have hstep : 0 < target.addrStep := addrStep_pos
    dsimp only
    omega
  · exact reservations_pos inRange_init he

/-- The declared size in terms of the words and of the counter of the area. -/
theorem declaredSize_spec (localeCompare : String → String → Int)
    (ha : Assembled target mentions parsed lines result first second)
    (area : String) : ∃ fromWords,
      (∀ w ∈ result.words, canonicalAreaName w.area = area →
        w.address + target.addrStep ≤ fromWords) ∧
      (fromWords = 0 ∨ ∃ w ∈ result.words, canonicalAreaName w.area = area ∧
        fromWords = w.address + target.addrStep) ∧
      (area ∈ relAreaNames result (globalEntries localeCompare result) →
        declaredSize localeCompare result area =
          max fromWords (areaSizeRel (counter result area) target.byteMode) % 65536) ∧
      (area ∉ relAreaNames result (globalEntries localeCompare result) →
        declaredSize localeCompare result area = 0) := by
  have hrange := inRange_pass2 ha.hsecond
  have hstep : addrStep result = target.addrStep := by
    unfold addrStep Target.addrStep
    rw [ha.byteMode]
  have hpos : ∀ w ∈ wordsOf result area, 0 ≤ w.address := by
    intro w hw
    have hw := (mem_wordsOf.mp hw).1
    rw [ha.words] at hw
    exact hrange.words w hw
  obtain ⟨fromWords, hsize, hle, hmax⟩ := @sizeRel_spec result
    ((relAreaInfos result).get area) _ hpos
  rw [hstep] at hle hmax
  refine ⟨fromWords, ?_, ?_, ?_, ?_⟩
  · intro w hw harea
    exact hle w (mem_wordsOf.mpr ⟨hw, harea⟩)
  · rcases hmax with h0 | ⟨w, hw, h⟩
    · exact .inl h0
    · obtain ⟨hw, harea⟩ := mem_wordsOf.mp hw
      exact .inr ⟨w, hw, harea, h⟩
  · intro harea
    have hnodup : (result.areas.map (·.name)).Nodup := by
      rw [ha.areas]
      exact snapshotAreas_nodup hrange.counters
    have hinfo : (((relAreaInfos result).get area).map fun info =>
        areaSizeRel info.size result.byteMode).getD 0 =
          areaSizeRel (counter result area) target.byteMode := by
      rw [← relAreaInfos_size hnodup area, ha.byteMode]
      cases (relAreaInfos result).get area with
      | none =>
          unfold areaSizeRel
          cases target.byteMode <;> rfl
      | some info => rfl
    rw [declaredSize, if_pos harea, hsize, hinfo, land_ffff]
  · intro harea
    rw [declaredSize, if_neg harea]

theorem sizesDominate_iff (ha : Assembled target mentions parsed lines result first second) :
    SizesDominate target.byteAddr (declaredSize localeCompare result)
        (extents target mentions lines result) ↔
      ∀ e ∈ extents target mentions lines result, Fits target result e := by
  have hword : ∀ w ∈ result.words,
      ⟨canonicalAreaName w.area, w.address + target.addrStep⟩ ∈
        extents target mentions lines result := by
    intro w hw
    exact List.mem_append_left _ (List.mem_map_of_mem hw)
  constructor
  · intro h e he
    obtain ⟨fromWords, hle, hmax, hsize, hnone⟩ :=
      declaredSize_spec localeCompare ha e.area
    have hpos := extents_pos ha he
    have hdecl := h e he
    obtain ⟨hc0, hc⟩ := counter_range ha e.area
    have harea : e.area ∈ relAreaNames result (globalEntries localeCompare result) := by
      by_contra hno
      rw [hnone hno, Target.byteAddr] at hdecl
      split at hdecl <;> omega
    rw [hsize harea] at hdecl
    -- a word at the end of the area declares its own end
    have hend : ∀ w ∈ result.words, canonicalAreaName w.area = e.area →
        target.byteAddr (w.address + target.addrStep) ≤
          max fromWords (areaSizeRel (counter result e.area) target.byteMode) % 65536 := by
      intro w hw hwa
      have := h _ (hword w hw)
      rw [hwa, hsize harea] at this
      exact this
    unfold Fits
    unfold Target.byteAddr at hdecl hend
    unfold Target.addrStep at hmax hend
    unfold areaSizeRel at hdecl hend
    cases hb : target.byteMode with
    | true =>
        simp only [hb, if_true] at hdecl hend hmax ⊢
        refine ⟨by omega, ?_⟩
        by_cases hcase : e.stop ≤ counter result e.area
        · exact .inl hcase
        · rcases hmax with h0 | ⟨w, hw, hwa, hfrom⟩
          · omega
          · exact .inr ⟨w, hw, hwa, by omega⟩
    | false =>
        simp only [hb, Bool.false_eq_true, if_false, land_ffff] at hdecl hend hmax ⊢
        rcases hmax with h0 | ⟨w, hw, hwa, hfrom⟩
        · omega
        · have := hend w hw hwa
          omega
  · intro h e he
    obtain ⟨fromWords, hle, hmax, hsize, _⟩ :=
      declaredSize_spec localeCompare ha e.area
    obtain ⟨hc0, hc⟩ := counter_range ha e.area
    have hpos := extents_pos ha he
    have hfit := h e he
    have hend : ∀ w ∈ result.words, canonicalAreaName w.area = e.area →
        Fits target result ⟨e.area, w.address + target.addrStep⟩ := by
      intro w hw hwa
      have := h _ (hword w hw)
      rw [hwa] at this
      exact this
    unfold Fits at hfit hend
    unfold Target.addrStep at hmax hend hle
    have harea : e.area ∈ relAreaNames result (globalEntries localeCompare result) := by
      by_cases hc' : counter result e.area = 0
      · cases hb : target.byteMode with
        | true =>
            simp only [hb, if_true] at hfit
            rcases hfit.2 with hstop | ⟨w, hw, hwa, _⟩
            · omega
            · rw [← hwa]
              exact mem_relAreaNames_of_word hw
        | false =>
            simp only [hb, Bool.false_eq_true, if_false, hc'] at hfit
            omega
      · exact mem_relAreaNames_of_counter ha hc'
    rw [hsize harea]
    unfold Target.byteAddr areaSizeRel
    cases hb : target.byteMode with
    | true =>
        simp only [hb, if_true] at hfit hend hmax hle ⊢
        have hfrom : 0 ≤ fromWords ∧ fromWords < 65536 := by
          rcases hmax with h0 | ⟨w, hw, hwa, hfrom⟩
          · omega
          · have h1 := (hend w hw hwa).1
            have h2 := extents_pos ha (hword w hw)
            simp only [Target.addrStep, hb, if_true] at h2
            omega
        rcases hfit.2 with hstop | ⟨w, hw, hwa, hstop⟩
        · omega
        · have := hle w hw hwa
          omega
    | false =>
        simp only [hb, Bool.false_eq_true, if_false, land_ffff] at hfit hend hmax ⊢
        rcases hmax with h0 | ⟨w, hw, hwa, hfrom⟩
        · omega
        · have := hend w hw hwa
          omega

end Theorem

end AsmTs

namespace AsmRs

open AsmTs (ParsedLine Extent)
open Checked

section Declared

/-- The size in the A record of an area; an area without a record has none. -/
def declaredSize (result : AssemblyResult) (area : String) : Int :=
  if area ∈ relAreaNames result (globalEntries result) then
    (sizeRel result (wordsOf result area)).toNat
  else 0

/-- The byte address of an address unit, not cut to 16 bits. -/
def unitBytes (target : Target) (stop : Int) : Int := if target.byteMode then stop else stop * 2

/-- The last word of the area covers the extent, below byte address 2^16. -/
def Fits (target : Target) (result : AssemblyResult) (e : Extent) : Prop :=
  unitBytes target e.stop < 65536 ∧
    ∃ w ∈ result.words, canonicalAreaName w.area = e.area ∧
      e.stop ≤ w.address.toNat + target.addrStep.toNat

variable {target : Target} {parsed : List ParsedLine} {result : AssemblyResult}
  {first : Pass1} {second : Pass2}

theorem mem_wordsOf {area : String} {w : EmittedWord} :
    w ∈ wordsOf result area ↔ w ∈ result.words ∧ canonicalAreaName w.area = area := by
  simp [wordsOf, List.mem_mergeSort]

theorem toUpper_ne_empty {name : String} (h : canonicalAreaName name = "") : False := by
  unfold canonicalAreaName at h
  dsimp only at h
  split at h
  · exact absurd h (by decide)
  · contradiction

theorem mem_relAreaNames_of_word {globals : List GlobalEntry} {w : EmittedWord}
    (hw : w ∈ result.words) : canonicalAreaName w.area ∈ relAreaNames result globals := by
  have hmem : w.area ∈ "_CODE" :: globals.filterMap (·.area) ++ result.words.map (·.area) ++
      result.relocs.flatMap relocAreaNames := by
    simp only [List.mem_append, List.mem_map]
    exact .inl (.inr ⟨w, hw, rfl⟩)
  have hne : canonicalAreaName w.area ≠ "" := fun h => toUpper_ne_empty h
  unfold relAreaNames orderLinkAreaNames
  dsimp only
  by_cases hn : canonicalAreaName w.area ∈ AREA_LINK_ORDER
  · refine List.mem_append_left _ (List.mem_filter.mpr ⟨hn, ?_⟩)
    simp only [decide_eq_true_eq, List.mem_dedup, List.mem_filter]
    exact ⟨List.mem_map_of_mem hmem, by simpa using hne⟩
  · refine List.mem_append_right _ (List.mem_mergeSort.mpr (List.mem_filter.mpr ⟨?_, by simpa using hn⟩))
    simp only [List.mem_dedup, List.mem_filter]
    exact ⟨List.mem_map_of_mem hmem, by simpa using hne⟩

theorem addrStep_cases (target : Target) : (target.byteMode = true ∧ target.addrStep.toNat = 2) ∨
    (target.byteMode = false ∧ target.addrStep.toNat = 1) := by
  unfold Target.addrStep
  cases target.byteMode with
  | true => exact .inl ⟨rfl, rfl⟩
  | false => exact .inr ⟨rfl, rfl⟩

theorem extents_pos {e : Extent} (he : e ∈ extents target parsed result) : 0 < e.stop := by
  rcases List.mem_append.mp he with he | he
  · obtain ⟨w, hw, rfl⟩ := List.mem_map.mp he
    rcases addrStep_cases target with ⟨_, h⟩ | ⟨_, h⟩
    · dsimp only
      omega
    · dsimp only
      omega
  · exact reservations_pos he

/-- The declared size is the end of the last word, where that has 16 bits. -/
theorem declaredSize_spec (hb : result.byteMode = target.byteMode) (area : String) :
    (declaredSize result area = 0 ∧
      ∀ w ∈ result.words, canonicalAreaName w.area ≠ area) ∨
    ∃ w ∈ result.words, canonicalAreaName w.area = area ∧
      (∀ v ∈ result.words, canonicalAreaName v.area = area →
        v.address.toNat ≤ w.address.toNat) ∧
      declaredSize result area =
        unitBytes target (w.address.toNat + target.addrStep.toNat) % 65536 := by
  cases hmax : ((wordsOf result area).map (·.address.toNat)).max? with
  | none =>
      have hnil : wordsOf result area = [] := by simpa [List.max?_eq_none_iff] using hmax
      refine .inl ⟨?_, ?_⟩
      · unfold declaredSize sizeRel
        rw [hmax]
        split
        · unfold areaSizeRel
          cases result.byteMode <;> rfl
        · rfl
      · intro w hw harea
        have := mem_wordsOf.mpr ⟨hw, harea⟩
        rw [hnil] at this
        cases this
  | some m =>
      obtain ⟨hmem, hle⟩ := List.max?_eq_some_iff.mp hmax
      obtain ⟨w, hw, rfl⟩ := List.mem_map.mp hmem
      obtain ⟨hw, harea⟩ := mem_wordsOf.mp hw
      refine .inr ⟨w, hw, harea, ?_, ?_⟩
      · intro v hv hva
        exact hle _ (List.mem_map_of_mem (mem_wordsOf.mpr ⟨hv, hva⟩))
      · have hin : area ∈ relAreaNames result (globalEntries result) := by
          rw [← harea]
          exact mem_relAreaNames_of_word hw
        rw [declaredSize, if_pos hin]
        unfold sizeRel
        rw [hmax]
        unfold areaSizeRel unitBytes
        have hlt := w.address.isLt
        rcases addrStep_cases target with ⟨hbt, h⟩ | ⟨hbt, h⟩
        · have h2 : (2 : Word).toNat = 2 := rfl
          simp only [hb, hbt, h, if_true, BitVec.ofNat_toNat, BitVec.setWidth_eq,
            BitVec.toNat_add, h2]
          omega
        · have h1 : (1 : Word).toNat = 1 := rfl
          have h2 : (2 : Word).toNat = 2 := rfl
          simp only [hb, hbt, h, Bool.false_eq_true, if_false, BitVec.ofNat_toNat,
            BitVec.setWidth_eq, BitVec.toNat_add, BitVec.toNat_mul, h1, h2]
          omega

theorem sizesDominate_iff (ha : Assembled target parsed result first second) :
    SizesDominate (unitBytes target) (declaredSize result) (extents target parsed result) ↔
      ∀ e ∈ extents target parsed result, Fits target result e := by
  have hword : ∀ w ∈ result.words,
      ⟨canonicalAreaName w.area, w.address.toNat + target.addrStep.toNat⟩ ∈
        extents target parsed result := by
    intro w hw
    exact List.mem_append_left _ (List.mem_map_of_mem hw)
  have hmono : ∀ a b : Int, a ≤ b → unitBytes target a ≤ unitBytes target b := by
    intro a b hab
    unfold unitBytes
    split <;> omega
  have hpos : ∀ a : Int, 0 < a → 0 < unitBytes target a := by
    intro a ha
    unfold unitBytes
    split <;> omega
  have hinj : ∀ a b : Int, unitBytes target a ≤ unitBytes target b → a ≤ b := by
    intro a b
    unfold unitBytes
    split <;> omega
  constructor
  · intro h e he
    have hdecl := h e he
    have hstop := hpos _ (extents_pos he)
    rcases declaredSize_spec ha.byteMode e.area with ⟨h0, _⟩ | ⟨w, hw, hwa, _, hsize⟩
    · rw [h0] at hdecl
      omega
    · -- the last word lies below its own declared size, which is then not cut
      have hend := h _ (hword w hw)
      have hwpos := hpos _ (extents_pos (hword w hw))
      dsimp only at hend hwpos
      rw [hwa, hsize] at hend
      rw [hsize] at hdecl
      refine ⟨by omega, w, hw, hwa, hinj _ _ ?_⟩
      omega
  · intro h e he
    obtain ⟨hlt, v, hv, hva, hle⟩ := h e he
    rcases declaredSize_spec ha.byteMode e.area with ⟨_, hno⟩ | ⟨w, hw, hwa, hmax, hsize⟩
    · exact absurd hva (hno v hv)
    · have hend := (h _ (hword w hw)).1
      have hwpos := hpos _ (extents_pos (hword w hw))
      have hvw := hmax v hv hva
      have hbound := hmono e.stop (w.address.toNat + target.addrStep.toNat) (by omega)
      rw [hsize]
      dsimp only at hend hwpos
      omega

end Declared

end AsmRs

namespace Asm

section Example

/-- `.ds 16`, then `.org 0` and one instruction. -/
def reserveThenOrg : List AsmTs.ParsedLine :=
  [⟨1, ".ds 16", none, some ".ds", ["16"]⟩, ⟨2, ".org 0", none, some ".org", ["0"]⟩,
    ⟨3, "H", none, some "H", []⟩]

/-- No operand of the example mentions a symbol. -/
def noMentions (_ _ : String) : Except String Bool := .ok false

def reserveThenOrgResult : AsmTs.AssemblyResult where
  words := [⟨0, 0x2000, 3, "H", "_CODE"⟩]
  symbols := .empty
  symbolInfos := .empty
  relocs := []
  areas := [⟨"_CODE", 1, false⟩]
  storageAddrs := [(1, 0)]
  byteMode := false
  checkpoints := []

/-- An encoder of the instruction `H`. -/
def haltTarget : AsmRs.Target where
  byteMode := false
  instructionSize _ _ := .ok 1
  encode _ _ _ := .ok [0x2000]

def reserveThenOrgRsResult : AsmRs.AssemblyResult where
  words := [⟨0, "", 0x2000, 3, "H"⟩]
  symbols := .empty
  byteMode := false
  storageAddrs := [(1, 0)]
  symbolInfos := .empty
  relocs := []

theorem assemble_reserveThenOrg :
    AsmTs.passLines reserveThenOrg = .ok reserveThenOrg ∧
      AsmTs.assemble AsmTs.mn1613 noMentions reserveThenOrg = .ok reserveThenOrgResult ∧
      AsmRs.assemble haltTarget reserveThenOrg = .ok reserveThenOrgRsResult := by
  decide +kernel

variable {ts : AsmTs.Target} {rs : AsmRs.Target} {mentions : String → String → Except String Bool}
  {parsed lines : List AsmTs.ParsedLine}

/-- The declared sizes cover all words and reservations exactly in the programs whose
extents all fit: behind none of them was the location counter of the area moved back for
good (the one writer), or is there no further word (the other). -/
theorem area_sizes (localeCompare : String → String → Int)
    {tsResult : AsmTs.AssemblyResult} {rsResult : AsmRs.AssemblyResult}
    (hlines : AsmTs.passLines parsed = .ok lines)
    (hts : AsmTs.assemble ts mentions parsed = .ok tsResult)
    (hrs : AsmRs.assemble rs parsed = .ok rsResult) :
    (SizesDominate ts.byteAddr (AsmTs.declaredSize localeCompare tsResult)
        (AsmTs.extents ts mentions lines tsResult) ↔
      ∀ e ∈ AsmTs.extents ts mentions lines tsResult, AsmTs.Fits ts tsResult e) ∧
    (SizesDominate (AsmRs.unitBytes rs) (AsmRs.declaredSize rsResult)
        (AsmRs.extents rs parsed rsResult) ↔
      ∀ e ∈ AsmRs.extents rs parsed rsResult, AsmRs.Fits rs rsResult e) := by
  obtain ⟨lines', first, second, hassembled⟩ := AsmTs.assemble_eq_ok hts
  obtain ⟨first', second', hassembled'⟩ := AsmRs.assemble_eq_ok hrs
  have heq : lines' = lines := by
    have := hassembled.hlines.symm.trans hlines
    cases this
    rfl
  rw [heq] at hassembled
  exact ⟨AsmTs.sizesDominate_iff hassembled, AsmRs.sizesDominate_iff hassembled'⟩

theorem area_sizes_reserveThenOrg :
    (SizesDominate AsmTs.mn1613.byteAddr (AsmTs.declaredSize (fun _ _ => 0) reserveThenOrgResult)
        (AsmTs.extents AsmTs.mn1613 noMentions reserveThenOrg reserveThenOrgResult) ↔
      ∀ e ∈ AsmTs.extents AsmTs.mn1613 noMentions reserveThenOrg reserveThenOrgResult,
        AsmTs.Fits AsmTs.mn1613 reserveThenOrgResult e) ∧
    (SizesDominate (AsmRs.unitBytes haltTarget) (AsmRs.declaredSize reserveThenOrgRsResult)
        (AsmRs.extents haltTarget reserveThenOrg reserveThenOrgRsResult) ↔
      ∀ e ∈ AsmRs.extents haltTarget reserveThenOrg reserveThenOrgRsResult,
        AsmRs.Fits haltTarget reserveThenOrgRsResult e) :=
  area_sizes (fun _ _ => 0) assemble_reserveThenOrg.1 assemble_reserveThenOrg.2.1
    assemble_reserveThenOrg.2.2

/-- 32 bytes are taken of an area of 2. -/
theorem reserveThenOrg_too_small :
    AsmTs.assemble AsmTs.mn1613 noMentions reserveThenOrg = .ok reserveThenOrgResult ∧
      ⟨"_CODE", 16⟩ ∈ AsmTs.extents AsmTs.mn1613 noMentions reserveThenOrg reserveThenOrgResult ∧
      ¬ AsmTs.mn1613.byteAddr 16 ≤
        AsmTs.declaredSize (fun _ _ => 0) reserveThenOrgResult "_CODE" := by
  decide +kernel

end Example

end Asm
end RetroCpu
