import RetroCpu.AsmTs.AreaOrder
import RetroCpu.AsmTs.SdldLink
import RetroCpu.Lib.JsNumber

/-!
# The runs of the linker (`sdldLink.ts`)

`linkRelsWithSdld` runs sdld once, reads the starts and lengths of the areas from the map, and
runs it again with the bases computed from them.  sdld is a function from its `-b` options,
as the areas with their bases, to the definitions in its map.  The correction of the linked
image is not part of these definitions.
-/

namespace RetroCpu
namespace AsmTs

open Js

/-- The linker on a fixed list of object files. -/
abbrev Sdld := List (String × Int) → JsMap Int

section Runs

/-- `/^A\s+(\S+)/` -/
def areaOfLine : List Char → Option String
  | 'A' :: c :: rest =>
      let name := (rest.dropWhile isSpace).takeWhile (!isSpace ·)
      if isSpace c ∧ name ≠ [] then some (String.ofList name) else none
  | _ => none

/-- The areas of the object files. -/
def presentAreas (texts : List String) : List String :=
  texts.flatMap fun text => (pieces (· == '\n') text.toList).filterMap areaOfLine

/-- A name of the map, upper and lower case alike when it is not there as it stands. -/
def defLookup (defs : JsMap Int) (name : String) : Option Int :=
  (defs.get name).or
    ((defs.entries.find? fun entry => toUpperCase entry.1 = toUpperCase name).map (·.2))

/-- The first of two names that the map has. -/
def defEither (defs : JsMap Int) (name short : String) : Option Int :=
  (defLookup defs name).or (defLookup defs short)

/-- The `-b` options of `buildSdldLnk`. -/
def baseOptions (extraB : JsMap Int) (present : List String) : List (String × Int) :=
  (SDLD_AREA_BASES.filter fun entry => entry.1 ∈ present ∧ ¬ extraB.has entry.1) ++
    extraB.entries.filter fun entry => entry.1 ∈ present

/-- `extraB`: the bases that follow from the first map. -/
def extraBases (present : List String) (defs : JsMap Int) : JsMap Int :=
  let codeLen := (defEither defs "l__CODE" "l_CODE").getD 0
  let behindBios := "_BIOS" ∈ present ∧ "_CODE" ∈ present
  let codeStart :=
    if behindBios then
      ushr ((defEither defs "s__BIOS" "s_BIOS").getD 0 +
        (defEither defs "l__BIOS" "l_BIOS").getD 0) 0
    else (defEither defs "s__CODE" "s_CODE").getD 0
  let extraB := if behindBios then JsMap.empty.set "_CODE" codeStart else .empty
  let extraB :=
    if "_DATA" ∈ present then extraB.set "_DATA" (ushr (codeStart + codeLen) 0) else extraB
  let dataLen := (defEither defs "l__DATA" "l_DATA").getD 0
  if "_WORK" ∈ present then
    match (extraB.get "_DATA").or (defEither defs "s__DATA" "s_DATA") with
    | some dataStart => extraB.set "_WORK" (ushr (dataStart + dataLen) 0)
    | none => extraB.set "_WORK" (ushr (codeStart + codeLen) 0)
  else extraB

/-- The bases of the last run and its map. -/
structure SdldRun where
  bases : List (String × Int)
  defs : JsMap Int
deriving DecidableEq, Repr

/-- `linkRelsWithSdld`, up to the last run of the linker -/
def linkRelsWithSdld (sdld : Sdld) (texts : List String) : Except String SdldRun :=
  if texts = [] then .error "linkRelsWithSdld: no .rel inputs"
  else
    let present := presentAreas texts
    let first := baseOptions .empty present
    let extraB := extraBases present (sdld first)
    if extraB.entries = [] then .ok ⟨first, sdld first⟩
    else
      let second := baseOptions extraB present
      .ok ⟨second, sdld second⟩

end Runs

section Bases

variable (defs : JsMap Int)

def seed (cursor : JsMap Int) (area : String) (fallback : Int) : JsMap Int :=
  cursor.set area
    (((defLookup defs ("s_" ++ area)).or (SDLD_AREA_BASES.lookup area)).getD fallback)

/-- The cursors before the first object file. -/
def seedCursor : JsMap Int :=
  let cursor := seed defs .empty "_BIOS" 0
  let cursor := seed defs cursor "_CODE" 0
  let cursor := seed defs cursor "_DATA" ((defLookup defs "s__CODE").getD 0)
  let cursor := seed defs cursor "_WORK" ((defLookup defs "s__DATA").getD 0)
  let cursor := seed defs cursor "_SYS_PAGE0" (SYS_PAGE0_WORD_BASE * 2)
  let cursor := seed defs cursor "_USR_PAGE0" (USR_PAGE0_WORD_BASE * 2)
  seed defs cursor "_VECTOR" 0

/-- An area of an object file gets the cursor and moves it; `_VECTOR` does not. -/
def walkArea (rel : ParsedRel) (st : JsMap Int × JsMap Int) (area : String) :
    JsMap Int × JsMap Int :=
  let cursor := if st.1.has area then st.1 else seed defs st.1 area 0
  let start := (cursor.get area).getD 0
  let size := (rel.areaSizes.get area).getD (.int 0)
  (if area = "_VECTOR" then cursor
    else cursor.set area (ushr ((Number.int start).add size).bits 0),
    st.2.set area start)

/-- The areas of an object file, from the cursors before it. -/
def walkRel (cursor : JsMap Int) (rel : ParsedRel) : JsMap Int × JsMap Int :=
  rel.areas.foldl (walkArea defs rel) (cursor, .empty)

def walkRels : JsMap Int → List ParsedRel → List (JsMap Int)
  | _, [] => []
  | cursor, rel :: rels =>
      let walked := walkRel defs cursor rel
      walked.2 :: walkRels walked.1 rels

/-- `moduleAreaBases` -/
def moduleAreaBases (rels : List ParsedRel) : List (JsMap Int) :=
  walkRels defs (seedCursor defs) rels

end Bases

end AsmTs
end RetroCpu
