import Mathlib

/-!
# Intel HEX in Rust (`ioboard/dma/intel_hex.rs`)

A text is a list of characters, and its length and its slices count the bytes of their UTF-8
form: a slice that does not start and end between two characters panics.
-/

namespace RetroCpu
namespace EmuRs
namespace IntelHex

section Text

abbrev U8 := BitVec 8
abbrev U32 := BitVec 32

/-- How a call ends. -/
inductive Outcome (α : Type)
  | ok (value : α)
  | err (message : String)
  | panic
deriving DecidableEq

/-- `char::is_whitespace` -/
def isWhitespace (c : Char) : Bool :=
  let n := c.toNat
  (9 ≤ n && n ≤ 13) || n == 0x20 || n == 0x85 || n == 0xa0 || n == 0x1680 ||
    (0x2000 ≤ n && n ≤ 0x200a) || n == 0x2028 || n == 0x2029 || n == 0x202f || n == 0x205f ||
    n == 0x3000

/-- A text without some characters at its two ends. -/
def trimBy {α : Type} (p : α → Bool) (text : List α) : List α :=
  ((text.dropWhile p).reverse.dropWhile p).reverse

/-- `replace("\r\n", "\n")` -/
def replaceCrLf : List Char → List Char
  | [] => []
  | '\r' :: '\n' :: text => '\n' :: replaceCrLf text
  | c :: text => c :: replaceCrLf text

/-- `split('\n')` -/
def splitLines : List Char → List (List Char)
  | [] => [[]]
  | c :: text =>
      if c = '\n' then [] :: splitLines text
      else
        match splitLines text with
        | [] => [[c]]
        | line :: lines => (c :: line) :: lines

attribute [grind =] splitLines

/-- `len` -/
def byteLength (text : List Char) : Nat := (text.map Char.utf8Size).sum

/-- `to_digit(16)` -/
def toDigit16 (c : Char) : Option Nat :=
  if 48 ≤ c.toNat ∧ c.toNat ≤ 57 then some (c.toNat - 48)
  else if 65 ≤ c.toNat ∧ c.toNat ≤ 70 then some (c.toNat - 55)
  else if 97 ≤ c.toNat ∧ c.toNat ≤ 102 then some (c.toNat - 87)
  else none

def digits16 : List Char → Nat → Option Nat
  | [], value => some value
  | c :: text, value => (toDigit16 c).bind fun digit => digits16 text (value * 16 + digit)

/-- A value that a `u8` holds. -/
def checkedU8 (value : Nat) : Option U8 := if value < 256 then some (BitVec.ofNat 8 value) else none

/-- `u8::from_str_radix(text, 16)`; a sign may stand in front. -/
def fromStrRadix16 : List Char → Option U8
  | [] => none
  | ['+'] => none
  | ['-'] => none
  | '+' :: text => (digits16 text 0).bind checkedU8
  | text => (digits16 text 0).bind checkedU8

end Text

section Records

/-- A pair, in front of the bytes behind it -/
def pushPair (li : Nat) (pair : List Char) (more : Outcome (List U8)) : Outcome (List U8) :=
  match fromStrRadix16 pair with
  | none => .err s!"Intel HEX line {li + 1}: bad hex"
  | some b =>
      match more with
      | .ok bytes => .ok (b :: bytes)
      | .err message => .err message
      | .panic => .panic

/-- The loop over the slices of two bytes -/
def readPairs (li : Nat) : List Char → Outcome (List U8)
  | [] => .ok []
  | [c] => if c.utf8Size = 2 then pushPair li [c] (.ok []) else .panic
  | c :: d :: hex =>
      if c.utf8Size = 2 then pushPair li [c] (readPairs li (d :: hex))
      else if c.utf8Size = 1 ∧ d.utf8Size = 1 then pushPair li [c, d] (readPairs li hex)
      else .panic

/-- `checksum_ok` -/
def checksumOk (bytes : List U8) : Bool := bytes.foldl (· + ·) 0 == 0

/-- `(hi << 8) | lo` -/
def wordOf (hi lo : U8) : U32 := hi.setWidth 32 <<< 8 ||| lo.setWidth 32

/-- What a line holds. -/
inductive Line
  | blank
  | data (addr : U32) (bytes : List U8)
  | eof
  | base (base : U32)
  | other
deriving DecidableEq

/-- A record whose checksum is right; it has five bytes at least. -/
def parseRecord (li : Nat) (bytes : List U8) : Outcome Line :=
  let at_ (i : Nat) : U8 := bytes.getD i 0
  let count := (at_ 0).toNat
  let data := (bytes.take (4 + count)).drop 4
  if 4 + count > bytes.length - 1 then .err s!"Intel HEX line {li + 1}: count overflow"
  else if at_ 3 = 0x00 then .ok (.data (wordOf (at_ 1) (at_ 2)) data)
  else if at_ 3 = 0x01 then .ok .eof
  else if at_ 3 = 0x02 then
    if data.length ≠ 2 then .err s!"Intel HEX line {li + 1}: type 02"
    else .ok (.base (wordOf (data.getD 0 0) (data.getD 1 0) <<< 4))
  else if at_ 3 = 0x04 then
    if data.length ≠ 2 then .err s!"Intel HEX line {li + 1}: type 04"
    else .ok (.base (wordOf (data.getD 0 0) (data.getD 1 0) <<< 16))
  else .ok .other

/-- One line of the walk -/
def parseLine (li : Nat) (line : List Char) : Outcome Line :=
  match trimBy isWhitespace line with
  | [] => .ok .blank
  | colon :: hex =>
      if colon ≠ ':' then .err s!"Intel HEX line {li + 1}: missing ':'"
      else if byteLength hex < 10 ∨ byteLength hex % 2 ≠ 0 then
        .err s!"Intel HEX line {li + 1}: bad length"
      else
        match readPairs li hex with
        | .err message => .err message
        | .panic => .panic
        | .ok bytes =>
            if !checksumOk bytes then .err s!"Intel HEX line {li + 1}: checksum error"
            else parseRecord li bytes

variable {σ : Type}

/-- The loop of `walk_intel_hex_data` -/
def walkLines (onData : U32 → List U8 → σ → σ) : List (List Char) → Nat → U32 → σ → Outcome σ
  | [], _, _, _ => .err "Intel HEX: missing EOF record (type 01)"
  | line :: lines, li, base, s =>
      match parseLine li line with
      | .err message => .err message
      | .panic => .panic
      | .ok .eof => .ok s
      | .ok (.base base) => walkLines onData lines (li + 1) base s
      | .ok (.data addr bytes) =>
          walkLines onData lines (li + 1) base (onData (base + addr) bytes s)
      | .ok _ => walkLines onData lines (li + 1) base s

attribute [grind =] walkLines

/-- `walk_intel_hex_data` -/
def walkIntelHexData (hexText : List Char) (onData : U32 → List U8 → σ → σ) (s : σ) : Outcome σ :=
  walkLines onData (splitLines (replaceCrLf hexText)) 0 0 s

end Records

section Plan

/-- `IntelHexDmaChunk` -/
structure IntelHexDmaChunk where
  byteAddr : U32
  data : List U8
deriving DecidableEq

/-- `IntelHexDmaPlan` -/
structure IntelHexDmaPlan where
  chunks : List IntelHexDmaChunk
  bytesWritten : U32
  minAddr : U32
  maxAddr : Option U32
deriving DecidableEq

/-- A record behind the raw chunks; the last chunk comes first. -/
def addRecord (abs : U32) (data : List U8) (raw : List (U32 × List U8)) : List (U32 × List U8) :=
  if data = [] then raw
  else
    match raw with
    | [] => [(abs, data)]
    | (byteAddr, bytes) :: raw =>
        if byteAddr + BitVec.ofNat 32 bytes.length = abs then (byteAddr, bytes ++ data) :: raw
        else (abs, data) :: (byteAddr, bytes) :: raw

/-- The counts over the chunks so far -/
structure Extent where
  bytesWritten : U32 := 0
  minAddr : U32 := BitVec.allOnes 32
  maxAddr : Option U32 := none

/-- A chunk is counted. -/
def Extent.count (e : Extent) (c : IntelHexDmaChunk) : Extent :=
  let bytesWritten := e.bytesWritten + BitVec.ofNat 32 c.data.length
  if c.data = [] then { e with bytesWritten := bytesWritten }
  else
    let hi := c.byteAddr + BitVec.ofNat 32 c.data.length - 1
    { bytesWritten := bytesWritten
      minAddr := if c.byteAddr < e.minAddr then c.byteAddr else e.minAddr
      maxAddr := some ((e.maxAddr.map fun m => if m < hi then hi else m).getD hi) }

def planOf (raw : List (U32 × List U8)) : IntelHexDmaPlan :=
  let chunks := raw.reverse.map fun c => (⟨c.1, c.2⟩ : IntelHexDmaChunk)
  let extent := chunks.foldl Extent.count {}
  if extent.bytesWritten = 0 then ⟨chunks, extent.bytesWritten, 0, none⟩
  else ⟨chunks, extent.bytesWritten, extent.minAddr, extent.maxAddr⟩

/-- `intel_hex_to_dma_plan` -/
def intelHexToDmaPlan (hexText : List Char) : Outcome IntelHexDmaPlan :=
  match walkIntelHexData hexText addRecord [] with
  | .err message => .err message
  | .panic => .panic
  | .ok raw => .ok (planOf raw)

end Plan

end IntelHex
end EmuRs
end RetroCpu
