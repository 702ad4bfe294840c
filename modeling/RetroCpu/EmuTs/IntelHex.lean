import RetroCpu.EmuTs.BoardLink
import RetroCpu.Lib.JsNumber

/-!
# Intel HEX in TypeScript (`intel_hex.ts`, `cpu_dma.ts`)

A text is a list of UTF-16 code units.  `parseInt` reads each pair of them as far as it makes
sense, so a byte of a record is any small number or `NaN`.
-/

namespace RetroCpu
namespace EmuTs

open Handshake BoardLink

section Units

/-- A UTF-16 code unit. -/
abbrev CodeUnit := Nat

/-- The white space that `trim` and `parseInt` skip. -/
def isSpaceUnit (n : CodeUnit) : Bool :=
  (9 ≤ n && n ≤ 13) || n == 0x20 || n == 0xa0 || n == 0x1680 || (0x2000 ≤ n && n ≤ 0x200a) ||
    n == 0x2028 || n == 0x2029 || n == 0x202f || n == 0x205f || n == 0x3000 || n == 0xfeff

/-- `trim` -/
def trimUnits (units : List CodeUnit) : List CodeUnit :=
  ((units.dropWhile isSpaceUnit).reverse.dropWhile isSpaceUnit).reverse

/-- `replace(/\r\n/g, "\n")` -/
def replaceCrLf : List CodeUnit → List CodeUnit
  | [] => []
  | 13 :: 10 :: units => 10 :: replaceCrLf units
  | u :: units => u :: replaceCrLf units

/-- `split("\n")` -/
def splitLines : List CodeUnit → List (List CodeUnit)
  | [] => [[]]
  | u :: units =>
      if u = 10 then [] :: splitLines units
      else
        match splitLines units with
        | [] => [[u]]
        | line :: lines => (u :: line) :: lines

attribute [grind =] splitLines

/-- A number that may be `NaN`. -/
abbrev JsByte := Option Int

/-- The value of a hexadecimal digit. -/
def hexUnitValue (n : CodeUnit) : Option Nat :=
  if 48 ≤ n ∧ n ≤ 57 then some (n - 48)
  else if 65 ≤ n ∧ n ≤ 70 then some (n - 55)
  else if 97 ≤ n ∧ n ≤ 102 then some (n - 87)
  else none

/-- The digits at the front, read to base 16. -/
def readDigits16 : List CodeUnit → Option Nat → Option Nat
  | [], value => value
  | u :: units, value =>
      match hexUnitValue u with
      | some digit => readDigits16 units (some (value.getD 0 * 16 + digit))
      | none => value

/-- `parseInt` to base 16, behind the sign -/
def parseMagnitude : List CodeUnit → Option Nat
  | 48 :: 120 :: units => readDigits16 units none
  | 48 :: 88 :: units => readDigits16 units none
  | units => readDigits16 units none

/-- `parseInt(units, 16)` -/
def parseInt16 (units : List CodeUnit) : JsByte :=
  match units.dropWhile isSpaceUnit with
  | 45 :: units => (parseMagnitude units).map fun n => -(n : Int)
  | 43 :: units => (parseMagnitude units).map fun n => (n : Int)
  | units => (parseMagnitude units).map fun n => (n : Int)

/-- The operand of a bitwise operator. -/
def JsByte.toInt (b : JsByte) : Int := b.getD 0

/-- The byte that a typed array keeps of a number. -/
def JsByte.toUint8 (b : JsByte) : Byte := BitVec.ofInt 8 b.toInt

end Units

section Records

/-- The loop over the pairs of a record -/
def recordBytes : List CodeUnit → List JsByte
  | a :: b :: hex => parseInt16 [a, b] :: recordBytes hex
  | _ => []

/-- `sum + b` of numbers, behind `& 0xff` -/
def addChecksum (sum : Int) : JsByte → Int
  | some b => Js.land (sum + b) 0xff
  | none => 0

/-- `checksumOk` -/
def checksumOk (bytes : List JsByte) : Bool := bytes.foldl addChecksum 0 == 0

/-- `bytes.slice(4, 4 + count)` -/
def sliceData (bytes : List JsByte) : JsByte → List JsByte
  | none => []
  | some count =>
      let stop := if 4 + count < 0 then (bytes.length : Int) + (4 + count) else 4 + count
      (bytes.take stop.toNat).drop 4

/-- `(hi << 8) | lo` -/
def wordOf (hi lo : JsByte) : Int := Js.lor (Js.shl hi.toInt 8) lo.toInt

/-- What a line holds. -/
inductive Line
  | blank
  | data (addr : Int) (bytes : List JsByte)
  | eof
  | base (base : Int)
  | other
deriving DecidableEq

/-- A record whose checksum is right -/
def parseRecord (li : Nat) (bytes : List JsByte) : Except String Line :=
  let at_ (i : Nat) : JsByte := bytes.getD i none
  let data := sliceData bytes (at_ 0)
  if at_ 3 = some 0x00 then .ok (.data (wordOf (at_ 1) (at_ 2)) data)
  else if at_ 3 = some 0x01 then .ok .eof
  else if at_ 3 = some 0x02 then
    if data.length ≠ 2 then .error s!"Intel HEX line {li + 1}: type 02"
    else .ok (.base (Js.shl (wordOf (data.getD 0 none) (data.getD 1 none)) 4))
  else if at_ 3 = some 0x04 then
    if data.length ≠ 2 then .error s!"Intel HEX line {li + 1}: type 04"
    else .ok (.base (Js.shl (wordOf (data.getD 0 none) (data.getD 1 none)) 16))
  else .ok .other

/-- One line of the walk -/
def parseLine (li : Nat) (line : List CodeUnit) : Except String Line :=
  match trimUnits line with
  | [] => .ok .blank
  | colon :: hex =>
      if colon ≠ 58 then .error s!"Intel HEX line {li + 1}: missing ':'"
      else if hex.length < 10 ∨ hex.length % 2 ≠ 0 then
        .error s!"Intel HEX line {li + 1}: bad length"
      else if !checksumOk (recordBytes hex) then .error s!"Intel HEX line {li + 1}: checksum error"
      else parseRecord li (recordBytes hex)

/-- `(base + addr) >>> 0` -/
def absolute (base addr : Int) : Nat := (Js.ushr (base + addr) 0).toNat

variable {σ : Type}

/-- The loop of `walkIntelHexData` -/
def walkLines (onData : Nat → List JsByte → σ → Except String σ) :
    List (List CodeUnit) → Nat → Int → σ → Except String σ
  | [], _, _, _ => .error "Intel HEX: missing EOF record (type 01)"
  | line :: lines, li, base, s =>
      match parseLine li line with
      | .error e => .error e
      | .ok .eof => .ok s
      | .ok (.base base) => walkLines onData lines (li + 1) base s
      | .ok (.data addr bytes) =>
          match onData (absolute base addr) bytes s with
          | .error e => .error e
          | .ok s => walkLines onData lines (li + 1) base s
      | .ok _ => walkLines onData lines (li + 1) base s

attribute [grind =] walkLines

/-- `walkIntelHexData` -/
def walkIntelHexData (hexText : List CodeUnit) (onData : Nat → List JsByte → σ → Except String σ)
    (s : σ) : Except String σ :=
  walkLines onData (splitLines (replaceCrLf hexText)) 0 0 s

end Records

section Loading

/-- `IntelHexLoadResult`; without data the range is from 0 to -1. -/
structure Extent where
  bytesWritten : Nat := 0
  minAddr : Nat := 0
  maxAddr : Int := -1
deriving DecidableEq

/-- A byte at an address is counted. -/
def Extent.add (e : Extent) (a : Nat) : Extent where
  bytesWritten := e.bytesWritten + 1
  minAddr := if e.bytesWritten = 0 then a else min e.minAddr a
  maxAddr := max e.maxAddr a

/-- The bytes of a record, written one after the other -/
def writeRecord (byteLength : Nat) : Nat → List JsByte → Memory × Extent →
    Except String (Memory × Extent)
  | _, [], s => .ok s
  | a, b :: bytes, (mem, extent) =>
      if a ≥ byteLength then .error "Intel HEX address out of range"
      else writeRecord byteLength (a + 1) bytes (storeAt mem a [b.toUint8], extent.add a)

/-- `loadIntelHex`, into a buffer of some length -/
def loadIntelHex (hexText : List CodeUnit) (byteLength : Nat) (mem : Memory) :
    Except String (Memory × Extent) :=
  walkIntelHexData hexText (writeRecord byteLength) (mem, {})

end Loading

section Plan

/-- `IntelHexDmaChunk` -/
structure IntelHexDmaChunk where
  byteAddr : Nat
  data : List Byte
deriving DecidableEq, Repr

/-- `IntelHexDmaPlan` -/
structure IntelHexDmaPlan where
  chunks : List IntelHexDmaChunk
  bytesWritten : Nat
  minAddr : Nat
  maxAddr : Int
deriving DecidableEq, Repr

/-- A record behind the raw chunks; the last chunk comes first. -/
def addRecord (abs : Nat) (data : List JsByte) (raw : List (Nat × List JsByte)) :
    List (Nat × List JsByte) :=
  if data = [] then raw
  else
    match raw with
    | [] => [(abs, data)]
    | (byteAddr, bytes) :: raw =>
        if byteAddr + bytes.length = abs then (byteAddr, bytes ++ data) :: raw
        else (abs, data) :: (byteAddr, bytes) :: raw

/-- A chunk is counted. -/
def IntelHexDmaChunk.count (e : Extent) (c : IntelHexDmaChunk) : Extent :=
  if c.data = [] then e
  else
    { bytesWritten := e.bytesWritten + c.data.length
      minAddr := if e.bytesWritten = 0 then c.byteAddr else min e.minAddr c.byteAddr
      maxAddr := max e.maxAddr ((c.byteAddr : Int) + c.data.length - 1) }

def planOf (raw : List (Nat × List JsByte)) : IntelHexDmaPlan :=
  let chunks := raw.reverse.map fun c => (⟨c.1, c.2.map JsByte.toUint8⟩ : IntelHexDmaChunk)
  let extent := chunks.foldl IntelHexDmaChunk.count {}
  ⟨chunks, extent.bytesWritten, extent.minAddr, extent.maxAddr⟩

/-- `intelHexToDmaPlan` -/
def intelHexToDmaPlan (hexText : List CodeUnit) : Except String IntelHexDmaPlan :=
  match walkIntelHexData hexText (fun abs data raw => .ok (addRecord abs data raw)) [] with
  | .error e => .error e
  | .ok raw => .ok (planOf raw)

end Plan

section Dma

/-- The memory of the MN1613: 256 K words -/
def MEMORY_BYTES : Nat := 2 ^ 19

/-- `writeWordToRam` on an MN1613 -/
def writeWordToRam (wordAddr : Nat) (hi lo : Byte) (mem : Memory) : Memory :=
  storeAt mem (wordAddr % 2 ^ 16 * 2) [hi, lo]

/-- The loop of `writeBytes` on an MN1613 that is halted -/
def writeBytes : Nat → List Byte → Memory → Memory
  | _, [], mem => mem
  | addr, [hi], mem => writeWordToRam (addr / 2) hi 0 mem
  | addr, hi :: lo :: data, mem => writeBytes (addr + 2) data (writeWordToRam (addr / 2) hi lo mem)

attribute [grind =] writeBytes

/-- The chunks of a plan, one after the other -/
def writeChunks (chunks : List IntelHexDmaChunk) (mem : Memory) : Memory :=
  chunks.foldl (fun mem c => writeBytes c.byteAddr c.data mem) mem

end Dma

end EmuTs
end RetroCpu
