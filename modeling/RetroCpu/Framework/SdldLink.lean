import RetroCpu.AsmRs.Expression
import RetroCpu.AsmTs.AreaOrder

/-!
# The runs of the linker in the test framework (`sdld_link.rs`)

The Rust counterpart of `linkRelsWithSdld`, with addresses of 32 bits.  The order in which the
code walks its hash maps is the order of the entries here, and nothing depends on it.
-/

namespace RetroCpu
namespace Framework

open Js AsmRs

abbrev U32 := BitVec 32

/-- The linker on a fixed list of object files. -/
abbrev Sdld := List (String × U32) → JsMap U32

/-- `sdld_area_bases` -/
def sdldAreaBases : List (String × U32) :=
  [("_SYS_PAGE0", 0x0008 * 2), ("_USR_PAGE0", 0x0040 * 2), ("_VECTOR", 0), ("_BIOS", 0),
    ("_CODE", 0)]

/-- The area that a line names, when its first word is `A`. -/
def areaOfLine (line : List Char) : Option String :=
  match words isWhitespace line with
  | ['A'] :: area :: _ => some (String.ofList area)
  | _ => none

/-- `present_areas` -/
def presentAreas (texts : List String) : List String :=
  texts.flatMap fun text => (pieces (· == '\n') text.toList).filterMap areaOfLine

/-- `def_lookup` -/
def defLookup (defs : JsMap U32) (name : String) : Option U32 :=
  (defs.get name).or
    ((defs.entries.find? fun entry =>
      toAsciiUppercase entry.1 = toAsciiUppercase name).map (·.2))

/-- The first of two names that the map has. -/
def defEither (defs : JsMap U32) (name short : String) : Option U32 :=
  (defLookup defs name).or (defLookup defs short)

/-- The `-b` options of `build_sdld_lnk`. -/
def baseOptions (extraB : JsMap U32) (present : List String) : List (String × U32) :=
  (sdldAreaBases.filter fun entry => entry.1 ∈ present ∧ ¬ extraB.has entry.1) ++
    extraB.entries.filter fun entry => entry.1 ∈ present

/-- `extra_b`: the bases that follow from the first map. -/
def extraBases (present : List String) (defs : JsMap U32) : JsMap U32 :=
  let codeLen := (defEither defs "l__CODE" "l_CODE").getD 0
  let behindBios := "_BIOS" ∈ present ∧ "_CODE" ∈ present
  let codeStart :=
    if behindBios then
      (defEither defs "s__BIOS" "s_BIOS").getD 0 + (defEither defs "l__BIOS" "l_BIOS").getD 0
    else (defEither defs "s__CODE" "s_CODE").getD 0
  let extraB := if behindBios then JsMap.empty.set "_CODE" codeStart else .empty
  let extraB := if "_DATA" ∈ present then extraB.set "_DATA" (codeStart + codeLen) else extraB
  let dataLen := (defEither defs "l__DATA" "l_DATA").getD 0
  if "_WORK" ∈ present then
    match (extraB.get "_DATA").or (defEither defs "s__DATA" "s_DATA") with
    | some dataStart => extraB.set "_WORK" (dataStart + dataLen)
    | none => extraB.set "_WORK" (codeStart + codeLen)
  else extraB

/-- `link_rels_with_sdld`, the bases of the last run of the linker -/
def linkRelsWithSdld (sdld : Sdld) (texts : List String) : Except String (List (String × U32)) :=
  if texts = [] then .error "link_rels_with_sdld: no .rel inputs"
  else
    let present := presentAreas texts
    let first := baseOptions .empty present
    let extraB := extraBases present (sdld first)
    if extraB.entries = [] then .ok first else .ok (baseOptions extraB present)

end Framework
end RetroCpu
