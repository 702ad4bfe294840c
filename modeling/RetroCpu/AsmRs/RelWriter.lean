import Mathlib.Data.List.Dedup
import RetroCpu.AsmRs.Assembler
import RetroCpu.Lib.HexText

/-!
# Object files of the Rust assembler (`rel/writer.rs`, `area_order.rs`)
-/

namespace RetroCpu
namespace AsmRs

open Js (JsMap hexPad hexUpper joinFields joinLines)

section AreaOrder

def AREA_LINK_ORDER : List String :=
  ["_VECTOR", "_SYS_PAGE0", "_USR_PAGE0", "_BIOS", "_CODE", "_DATA", "_WORK"]

/-- `canonical_area_name` -/
def canonicalAreaName (name : String) : String :=
  let u := toAsciiUppercase (trim name)
  if u = "" then "_CODE" else u

/-- `order_link_area_names` -/
def orderLinkAreaNames (names : List String) : List String :=
  let set := ((names.map canonicalAreaName).filter (· ≠ "")).dedup
  AREA_LINK_ORDER.filter (· ∈ set) ++
    (set.filter (· ∉ AREA_LINK_ORDER)).mergeSort fun a b => a ≤ b

/-- `asxxxx_area_flags` -/
def asxxxxAreaFlags (name : String) : Word :=
  if canonicalAreaName name = "_VECTOR" then 0x04 else 0

end AreaOrder

section Fields

def MAX_T_DATA_BYTES : Nat := 14

def hex2 (v : BitVec 8) : List Char := hexPad 2 v.toNat

def hex4 (v : Word) : List Char := hexPad 4 v.toNat

/-- The high and the low byte. -/
def bytesOf (v : Word) : List (BitVec 8) := [(v >>> 8).setWidth 8, v.setWidth 8]

/-- `be_word` -/
def beWord (v : Word) : List (List Char) := (bytesOf v).map hex2

/-- `sdld_sym_name` -/
def sdldSymName (name : String) : String :=
  match name.toList with
  | 'S' :: '_' :: '_' :: rest => String.ofList ('s' :: '_' :: '_' :: rest)
  | 'L' :: '_' :: '_' :: rest => String.ofList ('l' :: '_' :: '_' :: rest)
  | _ => name

/-- `units_to_rel_addr` -/
def unitsToRelAddr (units : Word) (byteAddrs : Bool) : Word :=
  if byteAddrs then units else units * 2

/-- `area_size_rel` -/
def areaSizeRel (sizeUnits : Word) (byteAddrs : Bool) : Word :=
  if byteAddrs then sizeUnits else sizeUnits * 2

end Fields

section Symbols

structure GlobalEntry where
  name : String
  isDef : Bool
  value : Word
  area : Option String

variable (result : AssemblyResult) (globals : List GlobalEntry)

/-- The symbols that other modules see, or that this one needs of them. -/
def globalEntries : List GlobalEntry :=
  let entries := result.symbolInfos.entries.filterMap fun (name, info) =>
    match info.kind with
    | .global => some ⟨name, true, info.value, info.area⟩
    | .external => some ⟨name, false, 0, none⟩
    | .local => none
  entries.mergeSort fun a b => a.name ≤ b.name

/-- The areas that a relocation names. -/
def relocAreaNames (r : WordDiffReloc) : List String :=
  r.area.toList ++
    match r.left with
    | .word _ (some a) => [a]
    | _ => []

/-- The areas of the object file, in link order. -/
def relAreaNames : List String :=
  orderLinkAreaNames ("_CODE" :: globals.filterMap (·.area) ++ result.words.map (·.area) ++
    result.relocs.flatMap relocAreaNames)

/-- The defined symbols of an area. -/
def areaGlobals (area : String) : List GlobalEntry :=
  globals.filter fun g => g.isDef && canonicalAreaName (g.area.getD "_CODE") == area

def absName : String := ".__.ABS."

/-- The symbols of the S records, in their order. -/
def symbolOrder (areaNames : List String) : List String :=
  absName :: (globals.filter (!·.isDef)).map (·.name) ++
    areaNames.flatMap fun area => (areaGlobals globals area).map (·.name)

/-- Places by name; of a name that occurs twice the last place counts. -/
def indexByName (names : List String) : JsMap Nat :=
  names.zipIdx.foldl (fun (m : JsMap Nat) entry => m.set entry.1 entry.2) .empty

end Symbols

section Areas

variable (result : AssemblyResult)

def addrStep : Word := if result.byteMode then 2 else 1

/-- The words of an area by address; words at one address keep their order. -/
def wordsOf (area : String) : List EmittedWord :=
  (result.words.filter fun w => canonicalAreaName w.area == area).mergeSort fun a b =>
    a.address.toNat ≤ b.address.toNat

def relocsOf (area : String) : List WordDiffReloc :=
  result.relocs.filter fun r => canonicalAreaName (r.area.getD "_CODE") == area

/-- The size of an area, as its A record declares it. -/
def sizeRel (sorted : List EmittedWord) : Word :=
  let fromWords :=
    match (sorted.map (·.address.toNat)).max? with
    | none => 0
    | some m => BitVec.ofNat 16 m + if result.byteMode then 2 else 1
  areaSizeRel fromWords result.byteMode

/-- Pieces of `n` elements. -/
def groups {α : Type} (n : Nat) : Nat → List α → List (List α)
  | 0, _ => []
  | _ + 1, [] => []
  | fuel + 1, a :: l => (a :: l).take n :: groups n fuel ((a :: l).drop n)

/-- The words of the T records: runs of adjacent words, cut to the size of a record. -/
def chunks (sorted : List EmittedWord) : List (List EmittedWord) :=
  (sorted.splitBy fun w v => v.address == w.address + addrStep result).flatMap fun run =>
    groups (MAX_T_DATA_BYTES / 2) run.length run

def chunkBytes (chunk : List EmittedWord) : List (BitVec 8) :=
  chunk.flatMap fun w => bytesOf w.value

def chunkAddr (chunk : List EmittedWord) : Word := (chunk.head?.map (·.address)).getD 0

/-- The byte address of a chunk. -/
def startByte (chunk : List EmittedWord) : Word :=
  if result.byteMode then chunkAddr chunk else chunkAddr chunk * 2

def tRecord (chunk : List EmittedWord) : List Char :=
  joinFields (['T'] :: beWord (unitsToRelAddr (chunkAddr chunk) result.byteMode) ++
    (chunkBytes chunk).map hex2)

structure RelocItem where
  mode : BitVec 8
  rtp : BitVec 8
  index : Word
deriving DecidableEq, Repr

/-- `reloc_item` -/
def relocItem (r : WordDiffReloc) (rtp : BitVec 8) (areaIndex symIndex : JsMap Nat) :
    Option RelocItem :=
  if r.right ≠ .const 0 then none
  else
    let low8 := r.width = some .low8
    match r.left with
    | .symbol name =>
        (symIndex.get name).map fun idx => ⟨if low8 then 0x03 else 0x02, rtp, BitVec.ofNat 16 idx⟩
    | .word _ area =>
        (areaIndex.get (canonicalAreaName (area.getD "_CODE"))).map fun idx =>
          ⟨if low8 then 0x01 else 0x00, rtp, BitVec.ofNat 16 idx⟩
    | .const _ => none

def itemFields (item : RelocItem) : List (List Char) :=
  hex2 item.mode :: hex2 item.rtp :: beWord item.index

/-- The relocations that fall into a chunk. -/
def chunkRelocs (areaRelocs : List WordDiffReloc) (chunk : List EmittedWord) :
    List WordDiffReloc :=
  let start := startByte result chunk
  let stop := start + BitVec.ofNat 16 (chunkBytes chunk).length
  areaRelocs.filter fun r => start.toNat ≤ r.byteAddr.toNat ∧ r.byteAddr.toNat < stop.toNat

/-- The items of the R record of a chunk; a relocation that has none panics. -/
def chunkItems (areaIndex symIndex : JsMap Nat) (areaRelocs : List WordDiffReloc)
    (chunk : List EmittedWord) : Except Failure (List RelocItem) :=
  (chunkRelocs result areaRelocs chunk).mapM fun r =>
    let rtp := 2 + (r.byteAddr - startByte result chunk).setWidth 8
    match relocItem r rtp areaIndex symIndex with
    | some item => .ok item
    | none => .error .panic

def rRecord (areaIdx : Word) (items : List RelocItem) : List Char :=
  joinFields (['R'] :: beWord 0 ++ beWord areaIdx ++ items.flatMap itemFields)

def aRecord (area : String) (size flags : Word) : List Char :=
  joinFields [['A'], area.toList, "size".toList, hex4 size, "flags".toList, hex4 flags,
    "addr".toList, ['0']]

def sRecord (name : String) (state : List Char) : List Char :=
  joinFields [['S'], name.toList, state]

/-- All records of an area. -/
def areaRecords (globals : List GlobalEntry) (areaIndex symIndex : JsMap Nat) (area : String) :
    Except Failure (List (List Char)) := do
  let sorted := wordsOf result area
  let areaIdx := BitVec.ofNat 16 ((areaIndex.get area).getD 0)
  let symbols := (areaGlobals globals area).map fun g => sRecord (sdldSymName g.name)
    ("Def".toList ++ hex4 (unitsToRelAddr g.value result.byteMode))
  let data ← (chunks result sorted).mapM fun chunk => do
    let items ← chunkItems result areaIndex symIndex (relocsOf result area) chunk
    return [tRecord result chunk, rRecord areaIdx items]
  return aRecord area (sizeRel result sorted) (asxxxxAreaFlags area) :: symbols ++ data.flatten

end Areas

/-- The records of `write_rel`; `_CODE` is always among the areas. -/
def relRecords (result : AssemblyResult) (moduleName : String) :
    Except Failure (List (List Char)) := do
  let globals := globalEntries result
  let areaNames := relAreaNames result globals
  let symbols := symbolOrder globals areaNames
  let refs := (globals.filter (!·.isDef)).map fun g => sRecord (sdldSymName g.name) "Ref0000".toList
  let records ← areaNames.mapM
    (areaRecords result globals (indexByName areaNames) (indexByName symbols))
  return ["XH2".toList,
    joinFields [['H'], hexUpper areaNames.length, "areas".toList, hexUpper symbols.length,
      "global symbols".toList],
    joinFields [['M'], moduleName.toList],
    sRecord absName "Def0000".toList] ++ refs ++ records.flatten ++ [['E']]

/-- `write_rel` -/
def writeRel (result : AssemblyResult) (moduleName : String) : Except Failure String := do
  return String.ofList (joinLines (← relRecords result moduleName))

end AsmRs
end RetroCpu
