import Mathlib.Data.List.Dedup
import Mathlib.Data.List.Lex
import RetroCpu.Lib.JsString

/-!
# Area names and their order (`areaOrder.ts`)
-/

namespace RetroCpu
namespace AsmTs

open Js

/-- The areas that come first, in this order. -/
def AREA_LINK_ORDER : List String :=
  ["_VECTOR", "_SYS_PAGE0", "_USR_PAGE0", "_BIOS", "_CODE", "_DATA", "_WORK"]

/-- First words of the zero-page areas. -/
def SYS_PAGE0_WORD_BASE : Int := 0x0008

def USR_PAGE0_WORD_BASE : Int := 0x0040

/-- Start of the areas that the linker is told about, in bytes. -/
def SDLD_AREA_BASES : List (String × Int) :=
  [("_SYS_PAGE0", SYS_PAGE0_WORD_BASE * 2), ("_USR_PAGE0", USR_PAGE0_WORD_BASE * 2),
    ("_VECTOR", 0), ("_BIOS", 0), ("_CODE", 0)]

/-- The unnamed area counts as `_CODE`. -/
def canonicalAreaName (name : String) : String :=
  let u := toUpperCase (trim name)
  if u = "" then "_CODE" else u

/-- Flags of an A record: `_VECTOR` is an overlay. -/
def asxxxxAreaFlags (name : String) : Int :=
  if canonicalAreaName name = "_VECTOR" then 0x04 else 0

/-- The names as the linker gets them, each once. -/
def orderLinkAreaNames (names : List String) : List String :=
  let set := ((names.map canonicalAreaName).filter (· ≠ "")).dedup
  AREA_LINK_ORDER.filter (· ∈ set) ++
    (set.filter (· ∉ AREA_LINK_ORDER)).mergeSort fun a b => codeUnits a ≤ codeUnits b

section Names

theorem canonicalAreaName_ne_empty (name : String) : canonicalAreaName name ≠ "" := by
  unfold canonicalAreaName
  dsimp only
  split
  · decide
  · assumption

theorem canonicalAreaName_idem (name : String) :
    canonicalAreaName (canonicalAreaName name) = canonicalAreaName name := by
  by_cases h : toUpperCase (trim name) = ""
  · have : canonicalAreaName name = "_CODE" := by simp [canonicalAreaName, h]
    rw [this]
    decide
  · have : canonicalAreaName name = toUpperCase (trim name) := by simp [canonicalAreaName, h]
    rw [this]
    simp [canonicalAreaName, trim_toUpperCase_trim, toUpperCase_idem, h]

attribute [irreducible] canonicalAreaName

theorem mem_orderLinkAreaNames {names : List String} {n : String} :
    n ∈ orderLinkAreaNames names ↔ n ∈ names.map canonicalAreaName := by
  have hne : n ∈ names.map canonicalAreaName → n ≠ "" := by
    intro h
    obtain ⟨m, _, rfl⟩ := List.mem_map.mp h
    exact canonicalAreaName_ne_empty m
  by_cases hn : n ∈ AREA_LINK_ORDER
  · simp only [orderLinkAreaNames, List.mem_append, List.mem_filter, List.mem_mergeSort,
      List.mem_dedup, hn]
    simpa using hne
  · simp only [orderLinkAreaNames, List.mem_append, List.mem_filter, List.mem_mergeSort,
      List.mem_dedup, hn]
    simpa using hne

theorem nodup_orderLinkAreaNames (names : List String) : (orderLinkAreaNames names).Nodup := by
  unfold orderLinkAreaNames
  dsimp only
  refine List.Nodup.append (List.Nodup.filter _ (by decide)) ?_ ?_
  · refine (List.mergeSort_perm _ _).nodup_iff.mpr ?_
    exact List.Nodup.filter _ (List.nodup_dedup _)
  · intro n hn hn'
    rw [List.mem_mergeSort] at hn'
    have h1 := (List.mem_filter.mp hn).1
    have h2 := (List.mem_filter.mp hn').2
    simp only [decide_eq_true_eq] at h2
    exact h2 h1

end Names

end AsmTs
end RetroCpu
