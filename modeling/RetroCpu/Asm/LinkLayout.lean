import Mathlib.Tactic.Linarith
import RetroCpu.AsmTs.SdldRuns
import RetroCpu.Framework.SdldLink

/-!
# Where the areas are linked

The linker puts every area at the base it is told.  Both drivers chain the bases of `_BIOS`,
`_CODE`, `_DATA` and `_WORK` through the areas that are there; without `_CODE` the chain loses
the end of `_BIOS`, and `_DATA` and `_WORK` are put over it.
-/

namespace RetroCpu
namespace Asm

open Js

/-! ## The chain of bases -/

/-- The areas whose bases are chained. -/
def LINKED : List String := ["_BIOS", "_CODE", "_DATA", "_WORK"]

/-- The bytes from `a` on, `n` of them, and those from `b` on, `m` of them, are different. -/
def Apart (a n b m : Nat) : Prop := ∀ x, a ≤ x → x < a + n → b ≤ x → x < b + m → False

theorem apart_iff {a n b m : Nat} : Apart a n b m ↔ n = 0 ∨ m = 0 ∨ a + n ≤ b ∨ b + m ≤ a := by
  constructor
  · intro h
    by_contra hcon
    rcases Nat.le_total a b with hab | hab
    · exact h b hab (by omega) (by omega) (by omega)
    · exact h a (by omega) (by omega) hab (by omega)
  · intro h x
    omega

theorem Apart.symm {a n b m : Nat} (h : Apart a n b m) : Apart b m a n :=
  fun x hb hbm ha han => h x ha han hb hbm

section Chain

variable (present : List String) (len : String → Nat)

/-- The length of an area, none when it is not there. -/
def lenOf (area : String) : Nat := if area ∈ present then len area else 0

/-- The chain of bases, from one area to the next. -/
def codeStart : Nat := if "_BIOS" ∈ present ∧ "_CODE" ∈ present then len "_BIOS" else 0

def codeEnd : Nat := codeStart present len + lenOf present len "_CODE"

def place (area : String) : Nat :=
  if area = "_BIOS" then 0
  else if area = "_CODE" then codeStart present len
  else if area = "_DATA" then codeEnd present len
  else codeEnd present len + lenOf present len "_DATA"

/-- No two of the areas that are there have a byte in common. -/
def AreasApart : Prop :=
  ∀ area ∈ LINKED, ∀ other ∈ LINKED, area ∈ present → other ∈ present → area ≠ other →
    Apart (place present len area) (len area) (place present len other) (len other)

/-- `_CODE` stands between `_BIOS` and what follows, or one side is empty. -/
def BiosKept : Prop :=
  "_BIOS" ∈ present → "_CODE" ∉ present → len "_BIOS" = 0 ∨
    (lenOf present len "_DATA" = 0 ∧ lenOf present len "_WORK" = 0)

variable {present len}

theorem lenOf_present {area : String} (h : area ∈ present) : lenOf present len area = len area :=
  if_pos h

theorem lenOf_absent {area : String} (h : area ∉ present) : lenOf present len area = 0 := if_neg h

variable (len) in
theorem codeStart_behind (hbios : "_BIOS" ∈ present) (hcode : "_CODE" ∈ present) :
    codeStart present len = len "_BIOS" :=
  if_pos ⟨hbios, hcode⟩

/-- Without `_CODE` the chain starts at 0 again. -/
theorem codeEnd_absent (hcode : "_CODE" ∉ present) : codeEnd present len = 0 := by
  rw [codeEnd, lenOf_absent hcode, codeStart, if_neg fun hboth => hcode hboth.2]

theorem biosKept_of_apart (h : AreasApart present len) : BiosKept present len := by
  intro hbios hcode
  have hend : codeEnd present len = 0 := codeEnd_absent hcode
  have hdata : "_DATA" ∈ present → len "_BIOS" = 0 ∨ len "_DATA" = 0 := by
    intro hdata
    have hapart := h "_BIOS" (by simp [LINKED]) "_DATA" (by simp [LINKED]) hbios hdata (by simp)
    have hiff := apart_iff.mp hapart
    simp [place, hend] at hiff
    omega
  have hwork : "_WORK" ∈ present → len "_BIOS" = 0 ∨ len "_WORK" = 0 ∨
      len "_BIOS" ≤ lenOf present len "_DATA" := by
    intro hwork
    have hapart := h "_BIOS" (by simp [LINKED]) "_WORK" (by simp [LINKED]) hbios hwork (by simp)
    have hiff := apart_iff.mp hapart
    simp [place, hend] at hiff
    omega
  unfold lenOf at hwork ⊢
  by_cases hd : "_DATA" ∈ present <;> by_cases hw : "_WORK" ∈ present <;>
    simp [hd, hw] at hdata hwork ⊢ <;> omega

/-- What starts at the end of `_CODE` or later does not meet `_BIOS`. -/
theorem apart_bios (h : BiosKept present len) (hbios : "_BIOS" ∈ present) {start : Nat}
    {area : String} (harea : area = "_DATA" ∨ area = "_WORK") (hpresent : area ∈ present)
    (hstart : codeEnd present len ≤ start) : Apart 0 (len "_BIOS") start (len area) := by
  rw [apart_iff]
  by_cases hcode : "_CODE" ∈ present
  · have hbehind := codeStart_behind len hbios hcode
    rw [codeEnd] at hstart
    omega
  · rcases h hbios hcode with hempty | ⟨hdata, hwork⟩
    · exact .inl hempty
    · rcases harea with rfl | rfl
      · exact .inr (.inl (by rwa [lenOf_present hpresent] at hdata))
      · exact .inr (.inl (by rwa [lenOf_present hpresent] at hwork))

/-- An area and one behind it in the chain. -/
theorem apart_ordered (h : BiosKept present len) {area other : String}
    (hpair : (area, other) ∈ [("_BIOS", "_CODE"), ("_BIOS", "_DATA"), ("_BIOS", "_WORK"),
      ("_CODE", "_DATA"), ("_CODE", "_WORK"), ("_DATA", "_WORK")])
    (harea : area ∈ present) (hother : other ∈ present) :
    Apart (place present len area) (len area) (place present len other) (len other) := by
  simp only [List.mem_cons, Prod.mk.injEq, List.not_mem_nil, or_false] at hpair
  rcases hpair with ⟨rfl, rfl⟩ | ⟨rfl, rfl⟩ | ⟨rfl, rfl⟩ | ⟨rfl, rfl⟩ | ⟨rfl, rfl⟩ | ⟨rfl, rfl⟩
  · simp [apart_iff, place, codeStart_behind len harea hother]
  · exact apart_bios h harea (.inl rfl) hother (by simp [place])
  · exact apart_bios h harea (.inr rfl) hother (by simp [place])
  · simp [apart_iff, place, codeEnd, lenOf_present harea]
  · simp [apart_iff, place, codeEnd, lenOf_present harea]
  · simp [apart_iff, place, lenOf_present harea]

theorem apart_of_biosKept (h : BiosKept present len) : AreasApart present len := by
  intro area harea other hother hpresent hpresent' hne
  simp only [LINKED, List.mem_cons, List.not_mem_nil, or_false] at harea hother
  have hpairs : (area, other) ∈ [("_BIOS", "_CODE"), ("_BIOS", "_DATA"), ("_BIOS", "_WORK"),
      ("_CODE", "_DATA"), ("_CODE", "_WORK"), ("_DATA", "_WORK")] ∨
      (other, area) ∈ [("_BIOS", "_CODE"), ("_BIOS", "_DATA"), ("_BIOS", "_WORK"),
      ("_CODE", "_DATA"), ("_CODE", "_WORK"), ("_DATA", "_WORK")] := by
    rcases harea with rfl | rfl | rfl | rfl <;> rcases hother with rfl | rfl | rfl | rfl <;>
      simp at hne ⊢
  rcases hpairs with hpair | hpair
  · exact apart_ordered h hpair hpresent hpresent'
  · exact (apart_ordered h hpair hpresent' hpresent).symm

theorem areasApart_iff : AreasApart present len ↔ BiosKept present len :=
  ⟨biosKept_of_apart, apart_of_biosKept⟩

end Chain

/-! ## What the linker reports -/

/-- sdld puts an area of the object files at its base and reports its start and its length; an
area that is in none of them is not in the map, but for an empty `_CODE` at 0. -/
structure Reports {ν : Type} (ofNat : Nat → ν) (defLookup : JsMap ν → String → Option ν)
    (present : List String) (len : String → Nat) (sdld : List (String × ν) → JsMap ν) : Prop where
  start : ∀ bases, ∀ area ∈ LINKED, area ∈ present → ∀ b, bases.lookup area = some b →
    defLookup (sdld bases) ("s_" ++ area) = some b
  length : ∀ bases, ∀ area ∈ LINKED, area ∈ present →
    defLookup (sdld bases) ("l_" ++ area) = some (ofNat (len area))
  noCode : ∀ bases, "_CODE" ∉ present → ∀ name ∈ ["s__CODE", "s_CODE", "l__CODE", "l_CODE"],
    defLookup (sdld bases) name = none ∨ defLookup (sdld bases) name = some (ofNat 0)
  noData : ∀ bases, "_DATA" ∉ present → ∀ name ∈ ["s__DATA", "s_DATA"],
    defLookup (sdld bases) name = none

/-- What the drivers read in the first map. -/
structure Readings {ν : Type} (ofNat : Nat → ν) (either : String → String → Option ν)
    (present : List String) (len : String → Nat) : Prop where
  codeLen : (either "l__CODE" "l_CODE").getD (ofNat 0) = ofNat (lenOf present len "_CODE")
  codeStart : ¬ ("_BIOS" ∈ present ∧ "_CODE" ∈ present) →
    (either "s__CODE" "s_CODE").getD (ofNat 0) = ofNat 0
  biosStart : "_BIOS" ∈ present → (either "s__BIOS" "s_BIOS").getD (ofNat 0) = ofNat 0
  biosLen : "_BIOS" ∈ present →
    (either "l__BIOS" "l_BIOS").getD (ofNat 0) = ofNat (len "_BIOS")
  dataLen : "_DATA" ∈ present →
    (either "l__DATA" "l_DATA").getD (ofNat 0) = ofNat (len "_DATA")
  noData : "_DATA" ∉ present → either "s__DATA" "s_DATA" = none

theorem Reports.readings {ν : Type} {ofNat : Nat → ν} {defLookup : JsMap ν → String → Option ν}
    {present : List String} {len : String → Nat} {sdld : List (String × ν) → JsMap ν}
    (h : Reports ofNat defLookup present len sdld) (bases : List (String × ν))
    (hbases : ∀ area ∈ ["_BIOS", "_CODE"], area ∈ present →
      bases.lookup area = some (ofNat 0)) :
    Readings ofNat (fun name short => (defLookup (sdld bases) name).or
      (defLookup (sdld bases) short)) present len := by
  have hstart (area : String) (harea : area ∈ ["_BIOS", "_CODE"]) (hpresent : area ∈ present) :=
    h.start bases area (by simp at harea; rcases harea with rfl | rfl <;> simp [LINKED]) hpresent
      (ofNat 0) (hbases area harea hpresent)
  have hlength := h.length bases
  have hnone (name short : String) (hname : name ∈ ["s__CODE", "s_CODE", "l__CODE", "l_CODE"])
      (hshort : short ∈ ["s__CODE", "s_CODE", "l__CODE", "l_CODE"]) (hcode : "_CODE" ∉ present) :
      ((defLookup (sdld bases) name).or (defLookup (sdld bases) short)).getD (ofNat 0) =
        ofNat 0 := by
    rcases h.noCode bases hcode name hname with hn | hn <;>
      rcases h.noCode bases hcode short hshort with hs | hs <;> simp [hn, hs]
  constructor
  · by_cases hcode : "_CODE" ∈ present
    · have hl := hlength "_CODE" (by simp [LINKED]) hcode
      rw [lenOf_present hcode]
      exact congrArg (fun o => (Option.or o _).getD _) hl
    · rw [lenOf_absent hcode]
      exact hnone _ _ (by simp) (by simp) hcode
  · intro hboth
    by_cases hcode : "_CODE" ∈ present
    · exact congrArg (fun o => (Option.or o _).getD _) (hstart "_CODE" (by simp) hcode)
    · exact hnone _ _ (by simp) (by simp) hcode
  · intro hbios
    exact congrArg (fun o => (Option.or o _).getD _) (hstart "_BIOS" (by simp) hbios)
  · intro hbios
    exact congrArg (fun o => (Option.or o _).getD _) (hlength "_BIOS" (by simp [LINKED]) hbios)
  · intro hdata
    exact congrArg (fun o => (Option.or o _).getD _) (hlength "_DATA" (by simp [LINKED]) hdata)
  · intro hdata
    show (defLookup _ _).or (defLookup _ _) = none
    rw [h.noData bases hdata "s__DATA" (by simp), h.noData bases hdata "s_DATA" (by simp)]
    rfl

section Lookup

variable {α : Type}

theorem find_eq_lookup (l : List (String × α)) (k : String) : JsMap.find l k = l.lookup k := by
  induction l with
  | nil => rfl
  | cons e l ih =>
      rcases e with ⟨key, v⟩
      by_cases hk : key = k
      · simp [JsMap.find, hk]
      · have hne : (k == key) = false := by simpa using Ne.symm hk
        simp [JsMap.find, List.lookup_cons, hk, hne, ih]

theorem lookup_filter (l : List (String × α)) (p : String → Bool) (k : String) :
    (l.filter fun e => p e.1).lookup k = if p k then l.lookup k else none := by
  induction l with
  | nil => simp
  | cons e l ih =>
      rcases e with ⟨key, v⟩
      by_cases hk : k = key
      · subst hk
        by_cases hp : p k = true
        · simp [hp]
        · simp [hp, ih]
      · have hne : (k == key) = false := by simpa using hk
        by_cases hp : p key = true
        · simp [hp, List.lookup_cons, hne, ih]
        · simp [hp, List.lookup_cons, hne, ih]

/-- A base that was computed goes before the base of the table. -/
theorem lookup_options (table : List (String × α)) (extraB : JsMap α) (present : List String)
    {area : String} (h : area ∈ present) :
    ((table.filter fun e => e.1 ∈ present ∧ ¬ extraB.has e.1) ++
      extraB.entries.filter fun e => e.1 ∈ present).lookup area =
      (extraB.get area).or (table.lookup area) := by
  have htable := lookup_filter table (fun k => decide (k ∈ present ∧ ¬ extraB.has k)) area
  have hextra := lookup_filter extraB.entries (fun k => decide (k ∈ present)) area
  rw [List.lookup_append, htable, hextra, ← find_eq_lookup extraB.entries]
  show _ = (extraB.get area).or _
  simp only [h, decide_true, true_and, if_true, JsMap.has, decide_eq_true_eq]
  show (if _ then _ else none).or (extraB.get area) = _
  cases extraB.get area <;> simp

end Lookup

/-! ## The bases that the drivers compute -/

section Chained

variable {ν : Type} (present : List String) (codeStart codeEnd dataEnd : ν)

/-- The bases in the order in which the drivers set them. -/
def chained : JsMap ν :=
  let extraB := if "_BIOS" ∈ present ∧ "_CODE" ∈ present then JsMap.empty.set "_CODE" codeStart
    else .empty
  let extraB := if "_DATA" ∈ present then extraB.set "_DATA" codeEnd else extraB
  if "_WORK" ∈ present then extraB.set "_WORK" dataEnd else extraB

theorem chained_bios : (chained present codeStart codeEnd dataEnd).get "_BIOS" = none := by
  unfold chained
  have hempty : (JsMap.empty : JsMap ν).get "_BIOS" = none := rfl
  split_ifs <;> simp [JsMap.get_set, hempty]

theorem chained_code : (chained present codeStart codeEnd dataEnd).get "_CODE" =
    if "_BIOS" ∈ present ∧ "_CODE" ∈ present then some codeStart else none := by
  unfold chained
  have hempty : (JsMap.empty : JsMap ν).get "_CODE" = none := rfl
  split_ifs <;> simp [JsMap.get_set, hempty]

theorem chained_data (h : "_DATA" ∈ present) :
    (chained present codeStart codeEnd dataEnd).get "_DATA" = some codeEnd := by
  unfold chained
  simp only [h, if_true]
  split_ifs <;> simp [JsMap.get_set]

theorem chained_work (h : "_WORK" ∈ present) :
    (chained present codeStart codeEnd dataEnd).get "_WORK" = some dataEnd := by
  unfold chained
  simp only [h, if_true, JsMap.get_set]

/-- Without `_DATA` nothing is set for it. -/
theorem chained_noData :
    (if "_BIOS" ∈ present ∧ "_CODE" ∈ present then JsMap.empty.set "_CODE" codeStart
      else .empty).get "_DATA" = none := by
  have hempty : (JsMap.empty : JsMap ν).get "_DATA" = none := rfl
  split_ifs <;> simp [JsMap.get_set, hempty]

end Chained

/-- With the bases of the table for the others, every area has its place in the chain. -/
theorem chained_place {ν : Type} (ofNat : Nat → ν) {table : List (String × ν)}
    {present : List String} {len : String → Nat} (hbios : table.lookup "_BIOS" = some (ofNat 0))
    (hcode : table.lookup "_CODE" = some (ofNat 0)) {area : String} (harea : area ∈ LINKED)
    (hpresent : area ∈ present) :
    ((chained present (ofNat (codeStart present len)) (ofNat (codeEnd present len))
      (ofNat (codeEnd present len + lenOf present len "_DATA"))).get area).or
        (table.lookup area) = some (ofNat (place present len area)) := by
  simp only [LINKED, List.mem_cons, List.not_mem_nil, or_false] at harea
  rcases harea with rfl | rfl | rfl | rfl
  · rw [chained_bios, hbios]
    rfl
  · rw [chained_code, hcode]
    by_cases hboth : "_BIOS" ∈ present ∧ "_CODE" ∈ present
    · rw [if_pos hboth]
      rfl
    · have hstart : place present len "_CODE" = 0 := if_neg hboth
      rw [if_neg hboth, hstart]
      rfl
  · rw [chained_data _ _ _ _ hpresent]
    rfl
  · rw [chained_work _ _ _ _ hpresent]
    rfl

/-! ## The TypeScript driver -/

section TypeScript

open AsmTs

theorem ushr_zero_natCast {n : Nat} (h : n < 2 ^ 32) : ushr (n : Int) 0 = (n : Int) := by
  have hbits : (toBits (n : Int)).toNat = n := by
    rw [toBits, BitVec.toNat_ofInt]
    omega
  have hzero : (toBits (0 : Int)).toNat % 32 = 0 := by decide
  rw [ushr, hzero, BitVec.ushiftRight_zero, hbits]

variable {present : List String} {len : String → Nat}

theorem ts_extraBases {defs : JsMap Int}
    (h : Readings (fun n : Nat => (n : Int)) (AsmTs.defEither defs) present len)
    (hfits : len "_BIOS" + len "_CODE" + len "_DATA" + len "_WORK" < 2 ^ 32) :
    AsmTs.extraBases present defs = chained present (codeStart present len : Int)
      (codeEnd present len : Int)
      ((codeEnd present len + lenOf present len "_DATA" : Nat) : Int) := by
  have hstartLe : codeStart present len ≤ len "_BIOS" := by
    unfold codeStart
    split <;> omega
  have hcodeLe : lenOf present len "_CODE" ≤ len "_CODE" := by
    unfold lenOf
    split <;> omega
  have hstart : (if "_BIOS" ∈ present ∧ "_CODE" ∈ present then
      ushr ((AsmTs.defEither defs "s__BIOS" "s_BIOS").getD 0 +
        (AsmTs.defEither defs "l__BIOS" "l_BIOS").getD 0) 0
      else (AsmTs.defEither defs "s__CODE" "s_CODE").getD 0) = (codeStart present len : Int) := by
    unfold codeStart
    split
    next hboth =>
      have hread := h.biosStart hboth.1
      have hlen := h.biosLen hboth.1
      rw [show (0 : Int) = ((0 : Nat) : Int) from rfl, hread, hlen, Nat.cast_zero, zero_add]
      exact ushr_zero_natCast (by omega)
    next hboth => exact h.codeStart hboth
  have hcodeLen : (AsmTs.defEither defs "l__CODE" "l_CODE").getD 0 =
      (lenOf present len "_CODE" : Int) := h.codeLen
  have hend : ushr ((codeStart present len : Int) + lenOf present len "_CODE") 0 =
      (codeEnd present len : Int) := by
    rw [← Nat.cast_add]
    exact ushr_zero_natCast (by omega)
  unfold AsmTs.extraBases chained
  dsimp only
  rw [hstart, hcodeLen, hend]
  refine if_congr Iff.rfl ?_ rfl
  by_cases hdata : "_DATA" ∈ present
  · have hread : (AsmTs.defEither defs "l__DATA" "l_DATA").getD 0 = (len "_DATA" : Int) :=
      h.dataLen hdata
    have hendLe : codeEnd present len ≤ len "_BIOS" + len "_CODE" := by
      unfold codeEnd
      omega
    have hdataEnd : ushr ((codeEnd present len : Int) + (len "_DATA" : Int)) 0 =
        ((codeEnd present len + len "_DATA" : Nat) : Int) := by
      rw [← Nat.cast_add]
      exact ushr_zero_natCast (by omega)
    simp only [hdata, if_true, JsMap.get_set, Option.some_or, hread, hdataEnd, lenOf_present]
  · have hnone := chained_noData present (codeStart present len : Int)
    simp only [hdata, if_false, hnone, h.noData hdata, Option.none_or, lenOf_absent,
      not_false_eq_true, Nat.add_zero]

/-- The last run gets the chain, whether it is the first or the second. -/
theorem ts_bases {sdld : AsmTs.Sdld} {texts : List String} {run : SdldRun}
    (h : Reports (fun n : Nat => (n : Int)) AsmTs.defLookup (AsmTs.presentAreas texts) len sdld)
    (hfits : len "_BIOS" + len "_CODE" + len "_DATA" + len "_WORK" < 2 ^ 32)
    (hrun : AsmTs.linkRelsWithSdld sdld texts = .ok run) :
    run.defs = sdld run.bases ∧ ∀ area ∈ LINKED, area ∈ AsmTs.presentAreas texts →
      run.bases.lookup area = some (place (AsmTs.presentAreas texts) len area : Int) := by
  have hread := h.readings (AsmTs.baseOptions .empty (AsmTs.presentAreas texts)) (by
    intro area harea hpresent
    refine (lookup_options SDLD_AREA_BASES .empty _ hpresent).trans ?_
    simp only [List.mem_cons, List.not_mem_nil, or_false] at harea
    rcases harea with rfl | rfl <;> rfl)
  have hextra := ts_extraBases hread hfits
  have hplace (area : String) (harea : area ∈ LINKED)
      (hpresent : area ∈ AsmTs.presentAreas texts) :
      (AsmTs.baseOptions (AsmTs.extraBases (AsmTs.presentAreas texts)
        (sdld (AsmTs.baseOptions .empty (AsmTs.presentAreas texts))))
        (AsmTs.presentAreas texts)).lookup area =
        some (place (AsmTs.presentAreas texts) len area : Int) := by
    refine (lookup_options SDLD_AREA_BASES _ _ hpresent).trans ?_
    rw [hextra]
    exact chained_place (fun n : Nat => (n : Int)) rfl rfl harea hpresent
  unfold AsmTs.linkRelsWithSdld at hrun
  split at hrun
  · cases hrun
  · dsimp only at hrun
    split at hrun
    next hentries =>
      cases hrun
      have hnil : AsmTs.extraBases (AsmTs.presentAreas texts)
          (sdld (AsmTs.baseOptions .empty (AsmTs.presentAreas texts))) = .empty :=
        congrArg JsMap.mk hentries
      rw [hnil] at hplace
      exact ⟨rfl, hplace⟩
    next =>
      cases hrun
      exact ⟨rfl, hplace⟩

/-! ## The bases of the modules -/

/-- An object file names each area once, with its size. -/
structure ObjectFile (rel : ParsedRel) : Prop where
  nodup : rel.areas.Nodup
  size : ∀ area ∈ rel.areas, ∃ n : Nat, rel.areaSizes.get area = some (.int n)

/-- Bytes of an area in an object file. -/
def sizeIn (area : String) (rel : ParsedRel) : Nat :=
  if area ∈ rel.areas then ((rel.areaSizes.get area).getD (.int 0)).bits.toNat else 0

theorem sizeIn_mem {area : String} {rel : ParsedRel} {n : Nat} (h : area ∈ rel.areas)
    (hsize : rel.areaSizes.get area = some (.int n)) : sizeIn area rel = n := by
  rw [sizeIn, if_pos h, hsize]
  rfl

variable (defs : JsMap Int) (rel : ParsedRel)

/-- Another area leaves the cursor and the base of an area alone. -/
theorem walkArea_other (st : JsMap Int × JsMap Int) {area other : String} (h : other ≠ area)
    {start : Int} (hcursor : st.1.get area = some start) :
    (walkArea defs rel st other).1.get area = some start ∧
      (walkArea defs rel st other).2.get area = st.2.get area := by
  unfold walkArea
  dsimp only
  constructor
  · split_ifs <;> simp [seed, JsMap.get_set, h, hcursor]
  · simp [JsMap.get_set, h]

/-- An area gets the cursor, which then stands behind it. -/
theorem walkArea_self (st : JsMap Int × JsMap Int) {area : String} (hvector : area ≠ "_VECTOR")
    {start n : Nat} (hcursor : st.1.get area = some (start : Int))
    (hsize : rel.areaSizes.get area = some (.int n)) (hfits : start + n < 2 ^ 32) :
    (walkArea defs rel st area).1.get area = some ((start + n : Nat) : Int) ∧
      (walkArea defs rel st area).2.get area = some (start : Int) := by
  have hhas : st.1.has area = true := by rw [JsMap.has, hcursor]; rfl
  have hsum : ushr ((Number.int start).add (.int n)).bits 0 = ((start + n : Nat) : Int) := by
    rw [Number.add, Number.ofInt_of_small (by omega), ← Nat.cast_add]
    exact ushr_zero_natCast hfits
  unfold walkArea
  dsimp only
  rw [if_pos hhas, if_neg hvector, hcursor, hsize]
  simp [JsMap.get_set, hsum]

/-- A walk that does not meet an area. -/
theorem walk_absent {area : String} {start : Int} (areas : List String) (h : area ∉ areas)
    (st : JsMap Int × JsMap Int) (hcursor : st.1.get area = some start) :
    (areas.foldl (walkArea defs rel) st).1.get area = some start ∧
      (areas.foldl (walkArea defs rel) st).2.get area = st.2.get area := by
  induction areas generalizing st with
  | nil => exact ⟨hcursor, rfl⟩
  | cons other areas ih =>
      obtain ⟨hne, habsent⟩ : area ≠ other ∧ area ∉ areas := by simpa using h
      obtain ⟨hstep, hbase⟩ := walkArea_other defs rel st hne.symm hcursor
      obtain ⟨hrest, hbases⟩ := ih habsent (walkArea defs rel st other) hstep
      exact ⟨hrest, hbases.trans hbase⟩

/-- A walk that meets an area once. -/
theorem walk_once {area : String} (hvector : area ≠ "_VECTOR") {start n : Nat}
    (hfits : start + n < 2 ^ 32) (hsize : rel.areaSizes.get area = some (.int n))
    (areas : List String) (hnodup : areas.Nodup) (hmem : area ∈ areas)
    (st : JsMap Int × JsMap Int) (hcursor : st.1.get area = some (start : Int)) :
    (areas.foldl (walkArea defs rel) st).1.get area = some ((start + n : Nat) : Int) ∧
      (areas.foldl (walkArea defs rel) st).2.get area = some (start : Int) := by
  induction areas generalizing st with
  | nil => cases hmem
  | cons other areas ih =>
      obtain ⟨habsent, hnodup⟩ := List.nodup_cons.mp hnodup
      by_cases hother : other = area
      · subst hother
        obtain ⟨hstep, hbase⟩ := walkArea_self defs rel st hvector hcursor hsize hfits
        obtain ⟨hrest, hbases⟩ := walk_absent defs rel areas habsent _ hstep
        exact ⟨hrest, hbases.trans hbase⟩
      · have hmem : area ∈ areas := by
          rcases List.mem_cons.mp hmem with h | h
          · exact absurd h.symm hother
          · exact h
        obtain ⟨hstep, _⟩ := walkArea_other defs rel st hother hcursor
        exact ih hnodup hmem _ hstep

/-- One object file moves the cursor of an area by its size there. -/
theorem walkRel_get (hrel : ObjectFile rel) {area : String} (hvector : area ≠ "_VECTOR")
    {cursor : JsMap Int} {start : Nat} (hcursor : cursor.get area = some (start : Int))
    (hfits : start + sizeIn area rel < 2 ^ 32) :
    (walkRel defs cursor rel).1.get area = some ((start + sizeIn area rel : Nat) : Int) ∧
      (area ∈ rel.areas → (walkRel defs cursor rel).2.get area = some (start : Int)) := by
  by_cases hmem : area ∈ rel.areas
  · obtain ⟨n, hn⟩ := hrel.size area hmem
    rw [sizeIn_mem hmem hn] at hfits ⊢
    obtain ⟨hstep, hbase⟩ := walk_once defs rel hvector hfits hn rel.areas hrel.nodup hmem
      (cursor, .empty) hcursor
    exact ⟨hstep, fun _ => hbase⟩
  · have hsize : sizeIn area rel = 0 := if_neg hmem
    obtain ⟨hstep, _⟩ := walk_absent defs rel rel.areas hmem (cursor, .empty)
      hcursor
    rw [hsize]
    exact ⟨hstep, fun h => absurd h hmem⟩

/-- The part of an area that an object file brings starts behind the parts of the files before
it. -/
theorem walkRels_get {rels : List ParsedRel} (hrels : ∀ rel ∈ rels, ObjectFile rel)
    {area : String} (hvector : area ≠ "_VECTOR") {cursor : JsMap Int} {start : Nat}
    (hcursor : cursor.get area = some (start : Int))
    (hfits : start + (rels.map (sizeIn area)).sum < 2 ^ 32) {i : Nat} (hi : rels[i]? = some rel)
    (hmem : area ∈ rel.areas) :
    ∃ bases, (walkRels defs cursor rels)[i]? = some bases ∧
      bases.get area = some ((start + ((rels.take i).map (sizeIn area)).sum : Nat) : Int) := by
  induction rels generalizing cursor start i with
  | nil => simp at hi
  | cons first rels ih =>
      rw [List.map_cons, List.sum_cons] at hfits
      obtain ⟨hstep, hbase⟩ := walkRel_get defs first (hrels first (by simp)) hvector hcursor
        (by omega)
      cases i with
      | zero =>
          obtain rfl : first = rel := by simpa using hi
          exact ⟨_, rfl, by simpa using hbase hmem⟩
      | succ i =>
          obtain ⟨bases, hbases, hget⟩ := ih (fun rel hrel => hrels rel (by simp [hrel])) hstep
            (by omega) (by simpa using hi)
          refine ⟨bases, hbases, ?_⟩
          rw [hget, List.take_succ_cons, List.map_cons, List.sum_cons, Nat.add_assoc]

theorem seedCursor_get {area : String} (harea : area ∈ LINKED) {start : Int}
    (h : AsmTs.defLookup defs ("s_" ++ area) = some start) :
    (seedCursor defs).get area = some start := by
  simp only [LINKED, List.mem_cons, List.not_mem_nil, or_false] at harea
  unfold seedCursor seed
  rcases harea with rfl | rfl | rfl | rfl <;> simp at h <;> simp [JsMap.get_set, h]

end TypeScript

/-! ## The Rust driver -/

section Rust

open Framework

variable {present : List String} {len : String → Nat}

theorem rs_extraBases {defs : JsMap U32}
    (h : Readings (BitVec.ofNat 32) (Framework.defEither defs) present len) :
    Framework.extraBases present defs = chained present
      (BitVec.ofNat 32 (codeStart present len)) (BitVec.ofNat 32 (codeEnd present len))
      (BitVec.ofNat 32 (codeEnd present len + lenOf present len "_DATA")) := by
  have hstart : (if "_BIOS" ∈ present ∧ "_CODE" ∈ present then
      (Framework.defEither defs "s__BIOS" "s_BIOS").getD 0 +
        (Framework.defEither defs "l__BIOS" "l_BIOS").getD 0
      else (Framework.defEither defs "s__CODE" "s_CODE").getD 0) =
        BitVec.ofNat 32 (codeStart present len) := by
    unfold codeStart
    split
    next hboth =>
      have hread : (Framework.defEither defs "s__BIOS" "s_BIOS").getD 0 = 0 :=
        h.biosStart hboth.1
      have hlen : (Framework.defEither defs "l__BIOS" "l_BIOS").getD 0 =
          BitVec.ofNat 32 (len "_BIOS") := h.biosLen hboth.1
      rw [hread, hlen]
      exact BitVec.zero_add _
    next hboth => exact h.codeStart hboth
  have hcodeLen : (Framework.defEither defs "l__CODE" "l_CODE").getD 0 =
      BitVec.ofNat 32 (lenOf present len "_CODE") := h.codeLen
  have hend : BitVec.ofNat 32 (codeStart present len) +
      BitVec.ofNat 32 (lenOf present len "_CODE") = BitVec.ofNat 32 (codeEnd present len) :=
    (BitVec.ofNat_add _ _).symm
  unfold Framework.extraBases chained
  dsimp only
  rw [hstart, hcodeLen, hend]
  refine if_congr Iff.rfl ?_ rfl
  by_cases hdata : "_DATA" ∈ present
  · have hread : (Framework.defEither defs "l__DATA" "l_DATA").getD 0 =
        BitVec.ofNat 32 (len "_DATA") := h.dataLen hdata
    simp only [hdata, if_true, JsMap.get_set, Option.some_or, hread, lenOf_present,
      BitVec.ofNat_add]
  · have hnone := chained_noData present (BitVec.ofNat 32 (codeStart present len))
    simp only [hdata, if_false, hnone, h.noData hdata, Option.none_or, lenOf_absent,
      not_false_eq_true, Nat.add_zero]

theorem rs_bases {sdld : Framework.Sdld} {texts : List String} {bases : List (String × U32)}
    (h : Reports (BitVec.ofNat 32) Framework.defLookup (Framework.presentAreas texts) len sdld)
    (hrun : Framework.linkRelsWithSdld sdld texts = .ok bases) :
    ∀ area ∈ LINKED, area ∈ Framework.presentAreas texts →
      bases.lookup area =
        some (BitVec.ofNat 32 (place (Framework.presentAreas texts) len area)) := by
  have hread := h.readings (Framework.baseOptions .empty (Framework.presentAreas texts)) (by
    intro area harea hpresent
    refine (lookup_options sdldAreaBases .empty _ hpresent).trans ?_
    simp only [List.mem_cons, List.not_mem_nil, or_false] at harea
    rcases harea with rfl | rfl <;> rfl)
  have hextra := rs_extraBases hread
  have hplace (area : String) (harea : area ∈ LINKED)
      (hpresent : area ∈ Framework.presentAreas texts) :
      (Framework.baseOptions (Framework.extraBases (Framework.presentAreas texts)
        (sdld (Framework.baseOptions .empty (Framework.presentAreas texts))))
        (Framework.presentAreas texts)).lookup area =
        some (BitVec.ofNat 32 (place (Framework.presentAreas texts) len area)) := by
    refine (lookup_options sdldAreaBases _ _ hpresent).trans ?_
    rw [hextra]
    exact chained_place (BitVec.ofNat 32) rfl rfl harea hpresent
  unfold Framework.linkRelsWithSdld at hrun
  split at hrun
  · cases hrun
  · dsimp only at hrun
    split at hrun
    next hentries =>
      cases hrun
      have hnil : Framework.extraBases (Framework.presentAreas texts)
          (sdld (Framework.baseOptions .empty (Framework.presentAreas texts))) = .empty :=
        congrArg JsMap.mk hentries
      rwa [hnil] at hplace
    next =>
      cases hrun
      exact hplace

end Rust

/-! ## The layout -/

/-- Every area that is there has a base, and no two have a byte in common. -/
def Separate {ν : Type} (read : ν → Nat) (bases : List (String × ν)) (present : List String)
    (len : String → Nat) : Prop :=
  ∀ area ∈ LINKED, ∀ other ∈ LINKED, area ∈ present → other ∈ present → area ≠ other →
    ∃ a b, bases.lookup area = some a ∧ bases.lookup other = some b ∧
      Apart (read a) (len area) (read b) (len other)

/-- The walk over the object files finds the places again: what a file brings to an area starts
behind what the files before it bring. -/
def Recomputed (run : AsmTs.SdldRun) (rels : List AsmTs.ParsedRel) (present : List String) :
    Prop :=
  ∀ area ∈ LINKED, area ∈ present → ∀ i rel, rels[i]? = some rel → area ∈ rel.areas →
    ∃ base bases, run.bases.lookup area = some base ∧
      (AsmTs.moduleAreaBases run.defs rels)[i]? = some bases ∧
      bases.get area = some (base + ((rels.take i).map (sizeIn area)).sum)

theorem separate_iff {ν : Type} {ofNat : Nat → ν} (read : ν → Nat) {bases : List (String × ν)}
    {present : List String} {len : String → Nat}
    (hbases : ∀ area ∈ LINKED, area ∈ present →
      bases.lookup area = some (ofNat (place present len area)))
    (hread : ∀ area ∈ LINKED, read (ofNat (place present len area)) = place present len area) :
    Separate read bases present len ↔ BiosKept present len := by
  rw [← areasApart_iff]
  constructor
  · intro h area harea other hother hpresent hpresent' hne
    obtain ⟨a, b, ha, hb, hapart⟩ := h area harea other hother hpresent hpresent' hne
    obtain rfl := Option.some.inj ((hbases area harea hpresent).symm.trans ha)
    obtain rfl := Option.some.inj ((hbases other hother hpresent').symm.trans hb)
    rwa [hread area harea, hread other hother] at hapart
  · intro h area harea other hother hpresent hpresent' hne
    refine ⟨_, _, hbases area harea hpresent, hbases other hother hpresent', ?_⟩
    rw [hread area harea, hread other hother]
    exact h area harea other hother hpresent hpresent' hne

/-- Bytes of an area in all object files, which is its length after linking. -/
def totalSize (texts : List String) (area : String) : Nat :=
  ((texts.map AsmTs.parseRelChunks).map (sizeIn area)).sum

/-- The areas fit in the addresses of the linker. -/
def Fits (len : String → Nat) : Prop :=
  len "_BIOS" + len "_CODE" + len "_DATA" + len "_WORK" < 2 ^ 32

theorem place_fits {present : List String} {len : String → Nat} (hfits : Fits len)
    {area : String} (harea : area ∈ LINKED) : place present len area + len area < 2 ^ 32 := by
  have hlen (a : String) : lenOf present len a ≤ len a := by
    unfold lenOf
    split <;> omega
  have hstart : codeStart present len ≤ len "_BIOS" := by
    unfold codeStart
    split <;> omega
  have hcode := hlen "_CODE"
  have hdata := hlen "_DATA"
  have hend : codeEnd present len ≤ len "_BIOS" + len "_CODE" := by
    unfold codeEnd
    omega
  unfold Fits at hfits
  simp only [LINKED, List.mem_cons, List.not_mem_nil, or_false] at harea
  rcases harea with rfl | rfl | rfl | rfl <;> simp [place] <;> omega

theorem ts_recomputed {sdld : AsmTs.Sdld} {texts : List String} {run : AsmTs.SdldRun}
    (hfiles : ∀ text ∈ texts, ObjectFile (AsmTs.parseRelChunks text))
    (hfits : Fits (totalSize texts))
    (h : Reports (fun n : Nat => (n : Int)) AsmTs.defLookup (AsmTs.presentAreas texts)
      (totalSize texts) sdld)
    (hrun : AsmTs.linkRelsWithSdld sdld texts = .ok run) :
    Recomputed run (texts.map AsmTs.parseRelChunks) (AsmTs.presentAreas texts) := by
  obtain ⟨hdefs, hbases⟩ := ts_bases h hfits hrun
  have hrels : ∀ rel ∈ texts.map AsmTs.parseRelChunks, ObjectFile rel := by
    intro rel hrel
    obtain ⟨text, htext, rfl⟩ := List.mem_map.mp hrel
    exact hfiles text htext
  intro area harea hpresent i rel hi hmem
  have hbase := hbases area harea hpresent
  have hseed := seedCursor_get _ harea (h.start run.bases area harea hpresent _ hbase)
  have hvector : area ≠ "_VECTOR" := by
    rintro rfl
    simp [LINKED] at harea
  rw [← hdefs] at hseed
  obtain ⟨bases, hwalk, hget⟩ := walkRels_get run.defs rel hrels hvector hseed (place_fits hfits harea) hi hmem
  exact ⟨_, bases, hbase, hwalk, by rw [hget, Nat.cast_add]⟩

theorem ts_links (sdld : AsmTs.Sdld) {texts : List String} (h : texts ≠ []) :
    ∃ run, AsmTs.linkRelsWithSdld sdld texts = .ok run := by
  unfold AsmTs.linkRelsWithSdld
  rw [if_neg h]
  dsimp only
  split
  · exact ⟨_, rfl⟩
  · exact ⟨_, rfl⟩

theorem rs_links (sdld : Framework.Sdld) {texts : List String} (h : texts ≠ []) :
    ∃ bases, Framework.linkRelsWithSdld sdld texts = .ok bases := by
  unfold Framework.linkRelsWithSdld
  rw [if_neg h]
  dsimp only
  split
  · exact ⟨_, rfl⟩
  · exact ⟨_, rfl⟩

section Monitor

/-- A module with `_BIOS` and `_DATA`, without `_CODE`. -/
def biosAndData : String :=
  "XH2\nH 2 areas 1 global symbols\nM MAIN\nS .__.ABS. Def0000\n" ++
  "A _BIOS size 0020 flags 0000 addr 0\nA _DATA size 0010 flags 0000 addr 0\nE\n"

/-- What the linker reports on it. -/
def biosAndDataMap {ν : Type} (ofNat : Nat → ν) (bases : List (String × ν)) : JsMap ν :=
  ⟨[("s__BIOS", (bases.lookup "_BIOS").getD (ofNat 0)), ("l__BIOS", ofNat 32),
    ("s__DATA", (bases.lookup "_DATA").getD (ofNat 0)), ("l__DATA", ofNat 16)]⟩

theorem biosAndData_parsed : AsmTs.parseRelChunks biosAndData =
    { areas := ["_BIOS", "_DATA"]
      areaSizes := ⟨[("_BIOS", .int 32), ("_DATA", .int 16)]⟩
      symbols := [".__.ABS."] } := by decide +kernel

theorem biosAndData_present : AsmTs.presentAreas [biosAndData] = ["_BIOS", "_DATA"] ∧
    Framework.presentAreas [biosAndData] = ["_BIOS", "_DATA"] := by decide +kernel

theorem biosAndData_sizes : totalSize [biosAndData] "_BIOS" = 32 ∧
    totalSize [biosAndData] "_CODE" = 0 ∧ totalSize [biosAndData] "_DATA" = 16 ∧
    totalSize [biosAndData] "_WORK" = 0 := by
  simp [totalSize, biosAndData_parsed, sizeIn, JsMap.get, JsMap.find, Number.bits]

theorem biosAndData_reports {ν : Type} {ofNat : Nat → ν} {defLookup : JsMap ν → String → Option ν}
    (hget : ∀ (defs : JsMap ν) name v, defs.get name = some v → defLookup defs name = some v)
    (hcode : ∀ bases, ∀ name ∈ ["s__CODE", "s_CODE", "l__CODE", "l_CODE"],
      defLookup (biosAndDataMap ofNat bases) name = none) :
    Reports ofNat defLookup ["_BIOS", "_DATA"] (totalSize [biosAndData])
      (biosAndDataMap ofNat) := by
  obtain ⟨hbios, -, hdata, -⟩ := biosAndData_sizes
  constructor
  · intro bases area _ hpresent b hb
    apply hget
    simp only [List.mem_cons, List.not_mem_nil, or_false] at hpresent
    rcases hpresent with rfl | rfl <;> simp [biosAndDataMap, JsMap.get, JsMap.find, hb]
  · intro bases area _ hpresent
    apply hget
    simp only [List.mem_cons, List.not_mem_nil, or_false] at hpresent
    rcases hpresent with rfl | rfl <;> simp [biosAndDataMap, JsMap.get, JsMap.find, hbios, hdata]
  · intro bases _ name hname
    exact .inl (hcode bases name hname)
  · intro bases hnone
    simp at hnone

theorem biosAndData_ts : Reports (fun n : Nat => (n : Int)) AsmTs.defLookup
    (AsmTs.presentAreas [biosAndData]) (totalSize [biosAndData])
    (biosAndDataMap fun n : Nat => (n : Int)) := by
  rw [biosAndData_present.1]
  refine biosAndData_reports (fun defs name v h => by rw [AsmTs.defLookup, h]; rfl) ?_
  intro bases name hname
  have hs : toUpperCase "s__BIOS" = "S__BIOS" ∧ toUpperCase "s__DATA" = "S__DATA" := by decide
  have hl : toUpperCase "l__BIOS" = "L__BIOS" ∧ toUpperCase "l__DATA" = "L__DATA" := by decide
  have hcode : toUpperCase "s__CODE" = "S__CODE" ∧ toUpperCase "l__CODE" = "L__CODE" ∧
      toUpperCase "s_CODE" = "S_CODE" ∧ toUpperCase "l_CODE" = "L_CODE" := by decide
  simp only [List.mem_cons, List.not_mem_nil, or_false] at hname
  rcases hname with rfl | rfl | rfl | rfl <;>
    simp [AsmTs.defLookup, biosAndDataMap, JsMap.get, JsMap.find, hs, hl, hcode]

theorem biosAndData_rs : Reports (BitVec.ofNat 32) Framework.defLookup
    (Framework.presentAreas [biosAndData]) (totalSize [biosAndData])
    (biosAndDataMap (BitVec.ofNat 32)) := by
  rw [biosAndData_present.2]
  refine biosAndData_reports (fun defs name v h => by rw [Framework.defLookup, h]; rfl) ?_
  intro bases name hname
  have hs : AsmRs.toAsciiUppercase "s__BIOS" = "S__BIOS" ∧
      AsmRs.toAsciiUppercase "s__DATA" = "S__DATA" := by decide
  have hl : AsmRs.toAsciiUppercase "l__BIOS" = "L__BIOS" ∧
      AsmRs.toAsciiUppercase "l__DATA" = "L__DATA" := by decide
  have hcode : AsmRs.toAsciiUppercase "s__CODE" = "S__CODE" ∧
      AsmRs.toAsciiUppercase "l__CODE" = "L__CODE" ∧
      AsmRs.toAsciiUppercase "s_CODE" = "S_CODE" ∧
      AsmRs.toAsciiUppercase "l_CODE" = "L_CODE" := by decide
  simp only [List.mem_cons, List.not_mem_nil, or_false] at hname
  rcases hname with rfl | rfl | rfl | rfl <;>
    simp [Framework.defLookup, biosAndDataMap, JsMap.get, JsMap.find, hs, hl, hcode]

theorem biosAndData_files : ∀ text ∈ [biosAndData], ObjectFile (AsmTs.parseRelChunks text) := by
  intro text htext
  obtain rfl := List.mem_singleton.mp htext
  rw [biosAndData_parsed]
  constructor
  · simp
  · intro area harea
    simp only [List.mem_cons, List.not_mem_nil, or_false] at harea
    rcases harea with rfl | rfl
    · exact ⟨32, rfl⟩
    · exact ⟨16, rfl⟩

theorem biosAndData_fits : Fits (totalSize [biosAndData]) := by
  obtain ⟨hbios, hcode, hdata, hwork⟩ := biosAndData_sizes
  simp [Fits, hbios, hcode, hdata, hwork]

end Monitor

end Asm
end RetroCpu
