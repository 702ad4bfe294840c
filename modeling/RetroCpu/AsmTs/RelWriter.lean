import Mathlib.Data.List.SplitBy
import RetroCpu.AsmTs.Assembler
import RetroCpu.Lib.HexText

/-!
# Object files (`relWriter.ts`)

`writeRel` writes an A record for each area, S records for the symbols, and the words of
each area as pairs of T and R records.  The comparison of symbol names is the language's
`localeCompare`, a parameter here.
-/

namespace RetroCpu
namespace AsmTs

open Js

section Fields

def MAX_T_DATA_BYTES : Nat := 14

def R3_WORD_AREA : Int := 0x00
def R3_WORD_SYM : Int := 0x02
def R3_BYTE_AREA : Int := 0x01
def R3_BYTE_SYM : Int := 0x03

def hex2 (v : Int) : List Char := hexPad 2 (land v 0xff).toNat

def hex4 (v : Int) : List Char := hexPad 4 (land v 0xffff).toNat

/-- Two fields, the high byte first. -/
def beWord (v : Int) : List (List Char) := [hex2 (ushr v 8), hex2 v]

/-- The linker's name of an area symbol such as `S__WORK`. -/
def sdldSymName (name : String) : String :=
  match name.toList with
  | 'S' :: '_' :: '_' :: rest => String.ofList ('s' :: '_' :: '_' :: rest)
  | 'L' :: '_' :: '_' :: rest => String.ofList ('l' :: '_' :: '_' :: rest)
  | _ => name

/-- An address of the target as a byte address of 16 bits (MN1613), or as it is (TMS9995). -/
def unitsToRelAddr (units : Int) (byteAddrs : Bool) : Int :=
  if byteAddrs then units else land (units * 2) 0xffff

def areaSizeRel (sizeUnits : Int) (byteAddrs : Bool) : Int :=
  if byteAddrs then sizeUnits else land (sizeUnits * 2) 0xffff

end Fields

section Symbols

/-- A symbol of an S record. -/
structure GlobalEntry where
  name : String
  isDef : Bool
  value : Number
  area : Option String

/-- The symbols that other modules see, or that this one needs of them. -/
def globalEntries (localeCompare : String → String → Int) (result : AssemblyResult) :
    List GlobalEntry :=
  let entries := result.symbolInfos.entries.filterMap fun (name, info) =>
    match info.kind with
    | .global =>
        let area :=
          match info.area with
          | none => "_CODE"
          | some area => if area = "" then "_CODE" else canonicalAreaName area
        some ⟨name, true, info.value, some area⟩
    | .external => some ⟨name, false, .int 0, none⟩
    | .local => none
  entries.mergeSort fun a b => localeCompare a.name b.name ≤ 0

variable (result : AssemblyResult) (globals : List GlobalEntry)

/-- The areas of the object file, in link order. -/
def relAreaNames : List String :=
  let names := orderLinkAreaNames (result.areas.map (·.name) ++ result.words.map (·.area) ++
    (globals.filter (·.isDef)).filterMap (·.area) ++ result.checkpoints.map (·.area))
  if names.isEmpty then ["_CODE"] else names

/-- What is known of each area. -/
def relAreaInfos : JsMap AreaInfo :=
  let fromAreas := result.areas.foldl (fun (m : JsMap AreaInfo) a => m.set a.name a) .empty
  result.words.foldl (fun m w =>
    let key := canonicalAreaName w.area
    if m.has key then m else m.set key ⟨key, 0, key == "_WORK"⟩) fromAreas

/-- The defined symbols of an area. -/
def areaGlobals (area : String) : List GlobalEntry :=
  globals.filter fun g => g.isDef && canonicalAreaName (g.area.getD "_CODE") == area

/-- The checkpoints of an area. -/
def areaCheckpoints (area : String) : List AsmCheckpoint :=
  result.checkpoints.filter fun cp => canonicalAreaName cp.area == area

def absName : String := ".__.ABS."

/-- The symbols of the S records, in their order. -/
def symbolOrder (areaNames : List String) : List String :=
  absName :: (globals.filter (!·.isDef)).map (·.name) ++
    areaNames.flatMap fun area => (areaGlobals globals area).map (·.name) ++
      (areaCheckpoints result area).map fun cp => checkpointId cp.name cp.serial

/-- Places by name; of a name that occurs twice the last place counts. -/
def indexByName (names : List String) : JsMap Nat :=
  names.zipIdx.foldl (fun (m : JsMap Nat) entry => m.set entry.1 entry.2) .empty

end Symbols

section Items

/-- An item of an R record. -/
structure RelocItem where
  mode : Int
  rtp : Int
  index : Int
deriving DecidableEq, Repr

/-- `relocItem` -/
def relocItem (r : WordDiffReloc) (rtp : Int) (areaIndex symIndex : JsMap Nat) :
    Option RelocItem :=
  if r.right ≠ .const 0 then none
  else
    let low8 := r.width = some .low8
    match r.left with
    | .symbol name =>
        (symIndex.get name).map fun (idx : Nat) =>
          ⟨if low8 then R3_BYTE_SYM else R3_WORD_SYM, rtp, idx⟩
    | .word _ area =>
        let area := canonicalAreaName ((area <|> r.area).getD "_CODE")
        (areaIndex.get area).map fun (idx : Nat) =>
          ⟨if low8 then R3_BYTE_AREA else R3_WORD_AREA, rtp, idx⟩
    | .const _ => none

end Items

section Areas

variable (result : AssemblyResult)

/-- Address units of a word. -/
def addrStep : Int := if result.byteMode then 2 else 1

/-- The words of an area by address; words at one address keep their order. -/
def wordsOf (area : String) : List EmittedWord :=
  (result.words.filter fun w => canonicalAreaName w.area == area).mergeSort fun a b =>
    a.address ≤ b.address

def relocsOf (area : String) : List WordDiffReloc :=
  result.relocs.filter fun r => canonicalAreaName (r.area.getD "_CODE") == area

/-- The size of an area, as its A record declares it before the cut to 16 bits. -/
def sizeRel (info : Option AreaInfo) (sorted : List EmittedWord) : Int :=
  let maxAddr := if sorted.isEmpty then -1 else sorted.foldl (fun m w => max m w.address) 0
  let fromWords :=
    if maxAddr < 0 then 0 else if result.byteMode then maxAddr + 2 else maxAddr + 1
  let fromInfo := (info.map fun info => areaSizeRel info.size result.byteMode).getD 0
  max fromWords fromInfo

/-- Pieces of `n` elements. -/
def groups {α : Type} (n : Nat) : Nat → List α → List (List α)
  | 0, _ => []
  | _ + 1, [] => []
  | fuel + 1, a :: l => (a :: l).take n :: groups n fuel ((a :: l).drop n)

/-- The words of the T records: runs of adjacent words, cut to the size of a record. -/
def chunks (sorted : List EmittedWord) : List (List EmittedWord) :=
  (sorted.splitBy fun w v => v.address == w.address + addrStep result).flatMap fun run =>
    groups (MAX_T_DATA_BYTES / 2) run.length run

def chunkBytes (chunk : List EmittedWord) : List Int :=
  chunk.flatMap fun w =>
    let v := land w.value 0xffff
    [land (ushr v 8) 0xff, land v 0xff]

/-- The address of the first word of a chunk. -/
def chunkAddr (chunk : List EmittedWord) : Int := (chunk.head?.map (·.address)).getD 0

/-- The byte address of an address, not cut to 16 bits. -/
def startByte (chunk : List EmittedWord) : Int :=
  if result.byteMode then chunkAddr chunk else chunkAddr chunk * 2

def tRecord (chunk : List EmittedWord) : List Char :=
  joinFields (['T'] :: beWord (unitsToRelAddr (chunkAddr chunk) result.byteMode) ++
    (chunkBytes chunk).map hex2)

def itemFields (item : RelocItem) : List (List Char) :=
  hex2 item.mode :: hex2 item.rtp :: beWord item.index

/-- The relocations that fall into a chunk. -/
def chunkRelocs (areaRelocs : List WordDiffReloc) (chunk : List EmittedWord) :
    List WordDiffReloc :=
  let start := startByte result chunk
  areaRelocs.filter fun r => start ≤ r.byteAddr ∧ r.byteAddr < start + (chunkBytes chunk).length

/-- The items of the R record of a chunk. -/
def chunkItems (area : String) (areaIndex symIndex : JsMap Nat) (areaRelocs : List WordDiffReloc)
    (chunk : List EmittedWord) : Except String (List RelocItem) :=
  (chunkRelocs result areaRelocs chunk).mapM fun r =>
    match relocItem r (2 + (r.byteAddr - startByte result chunk)) areaIndex symIndex with
    | some item => .ok item
    | none =>
        .error ("unsupported reloc at " ++ String.ofList (hex4 r.byteAddr) ++ " in " ++ area ++
          " (sdld needs a single absolute symbol or area)")

def rRecord (areaIdx : Int) (items : List RelocItem) : List Char :=
  joinFields (['R'] :: beWord R3_WORD_AREA ++ beWord areaIdx ++ items.flatMap itemFields)

def aRecord (area : String) (size flags : Int) : List Char :=
  joinFields [['A'], area.toList, "size".toList, hex4 size, "flags".toList, hex4 flags,
    "addr".toList, ['0']]

def sRecord (name : String) (state : List Char) : List Char :=
  joinFields [['S'], name.toList, state]

/-- The S records of an area. -/
def areaSymbols (globals : List GlobalEntry) (area : String) : List (List Char) :=
  (areaGlobals globals area).map (fun g => sRecord (sdldSymName g.name)
      ("Def".toList ++ hex4 (unitsToRelAddr g.value.bits result.byteMode))) ++
    (areaCheckpoints result area).map fun cp => sRecord (checkpointId cp.name cp.serial)
      ("Def".toList ++ hex4 (unitsToRelAddr cp.address result.byteMode))

/-- All records of an area. -/
def areaRecords (globals : List GlobalEntry) (infos : JsMap AreaInfo)
    (areaIndex symIndex : JsMap Nat) (area : String) : Except String (List (List Char)) := do
  let sorted := wordsOf result area
  let areaIdx := (areaIndex.get area).getD 0
  let data ← (chunks result sorted).mapM fun chunk => do
    let items ← chunkItems result area areaIndex symIndex (relocsOf result area) chunk
    return [tRecord result chunk, rRecord areaIdx items]
  return aRecord area (sizeRel result (infos.get area) sorted) (asxxxxAreaFlags area) ::
    areaSymbols result globals area ++ data.flatten

end Areas

/-- The records of `writeRel`. -/
def relRecords (localeCompare : String → String → Int) (result : AssemblyResult)
    (moduleName : String) : Except String (List (List Char)) := do
  let globals := globalEntries localeCompare result
  let areaNames := relAreaNames result globals
  let symbols := symbolOrder result globals areaNames
  let areaIndex := indexByName areaNames
  let refs := (globals.filter (!·.isDef)).map fun g => sRecord (sdldSymName g.name) "Ref0000".toList
  let records ← areaNames.mapM
    (areaRecords result globals (relAreaInfos result) areaIndex (indexByName symbols))
  return ["XH2".toList,
    joinFields [['H'], hexUpper areaNames.length, "areas".toList, hexUpper symbols.length,
      "global symbols".toList],
    joinFields [['M'], moduleName.toList],
    sRecord absName "Def0000".toList] ++ refs ++ records.flatten ++ [['E']]

/-- `writeRel` -/
def writeRel (localeCompare : String → String → Int) (result : AssemblyResult)
    (moduleName : String) : Except String String := do
  return String.ofList (joinLines (← relRecords localeCompare result moduleName))

end AsmTs
end RetroCpu
