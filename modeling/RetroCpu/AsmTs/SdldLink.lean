import RetroCpu.AsmTs.AreaOrder
import RetroCpu.Lib.HexText
import RetroCpu.Lib.JsMap

/-!
# Reading object files back (`sdldLink.ts`)

The addresses in a linked image are corrected with the T and R records of the object files;
`parseRelChunks` reads them.
-/

namespace RetroCpu
namespace AsmTs

open Js

/-- An item of an R record as it is read. -/
structure RelItem where
  mode : Number
  rtp : Number
  index : Int
deriving DecidableEq, Repr

/-- A T record and its R record. -/
structure RelChunk where
  areaName : String
  tAddr : Int
  data : List Number
  items : List RelItem
deriving DecidableEq, Repr

structure ParsedRel where
  areas : List String := []
  areaSizes : JsMap Number := .empty
  symbols : List String := []
  chunks : List RelChunk := []
deriving DecidableEq, Repr

/-- The loop state of `parseRelChunks`. -/
structure RelReader where
  parsed : ParsedRel := {}
  pendingT : Option (Int × List Number) := none
  currentArea : String := "_CODE"

/-- `((nums[i] ?? 0) << 8) | (nums[i + 1] ?? 0)` -/
def wordAt (nums : List Number) (i : Nat) : Int :=
  lor (shl (nums.getD i (.int 0)).bits 8) (nums.getD (i + 1) (.int 0)).bits

/-- `list[i]` -/
def entryAt {α : Type} (l : List α) (i : Int) : Option α := if i < 0 then none else l[i.toNat]?

/-- The items of an R record, behind its first four numbers. -/
def readItems : List Number → List RelItem
  | mode :: rtp :: hi :: lo :: rest => ⟨mode, rtp, wordAt [hi, lo] 0⟩ :: readItems rest
  | _ => []

/-- The number behind the word `size`. -/
def readSize (parts : List (List Char)) : Number :=
  match parts.dropWhile (· ≠ "size".toList) with
  | [] => .int 0
  | [_] => parseInt16 ['0']
  | _ :: size :: _ => parseInt16 size

def readA (r : RelReader) (args : List (List Char)) : RelReader :=
  let area := (args.head?.map String.ofList).getD "_CODE"
  { r with
    currentArea := area
    parsed := { r.parsed with
      areas := r.parsed.areas ++ [area]
      areaSizes := r.parsed.areaSizes.set area (readSize args) } }

def readS (r : RelReader) (args : List (List Char)) : RelReader :=
  { r with parsed := { r.parsed with
      symbols := r.parsed.symbols ++ [(args.head?.map String.ofList).getD ""] } }

def readT (r : RelReader) (args : List (List Char)) : RelReader :=
  let nums := args.map parseInt16
  { r with pendingT := some (wordAt nums 0, nums.drop 2) }

def readR (r : RelReader) (args : List (List Char)) : RelReader :=
  match r.pendingT with
  | none => r
  | some (tAddr, data) =>
      let nums := args.map parseInt16
      let areaName := (entryAt r.parsed.areas (wordAt nums 2)).getD r.currentArea
      { r with
        pendingT := none
        parsed := { r.parsed with
          chunks := r.parsed.chunks ++ [⟨areaName, tAddr, data, readItems (nums.drop 4)⟩] } }

/-- One line, by its first word. -/
def readParts (r : RelReader) : List (List Char) → RelReader
  | [] => r
  | tag :: args =>
      if tag = ['A'] then readA r args
      else if tag = ['S'] then readS r args
      else if tag = ['T'] then readT r args
      else if tag = ['R'] then readR r args
      else r

def readLine (r : RelReader) (line : List Char) : RelReader :=
  if line.isEmpty then r else readParts r (words isSpace line)

/-- `parseRelChunks` -/
def parseRelChunks (text : String) : ParsedRel :=
  ((trimmedLines text.toList).foldl readLine {}).parsed

end AsmTs
end RetroCpu
