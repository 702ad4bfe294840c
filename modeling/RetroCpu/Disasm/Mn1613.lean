import RetroCpu.DisAssembler.Mn1613

/-!
# The MN1613 disassembler of the test framework (`mn1613/disasm/decode.rs`)

The Rust decoder, over 16-bit words.  The address forms are the alternatives of the
TypeScript decoder, and a table that the code indexes by two or three bits is indexed here
with the proof that the bits fit.
-/

namespace RetroCpu
namespace Disasm
namespace Mn1613

open DisAssembler.Mn1613 (AddrForm)

/-- A `u16` -/
abbrev U16 := BitVec 16

/-- A `u8` -/
abbrev U8 := BitVec 8

inductive DecodedOp
  | raw (s : String)
  | addr (v : U16) (form : AddrForm) (bb : Option String)
  | imm (v : U16) (bits : Nat)
  | skip (n : U8)
  | ee (n : U8)
  | c
deriving DecidableEq, Repr

structure DecodedInst where
  mnemonic : String
  ops : List DecodedOp
  wordCount : Nat
  ir : U16
deriving DecidableEq, Repr

def REGS : Vector String 8 := #v["R0", "R1", "R2", "R3", "R4", "SP", "STR", "IC"]

def RI : Vector String 4 := #v["R1", "R2", "R3", "R4"]

def BB : Vector String 4 := #v["CSBR", "SSBR", "TSR0", "TSR1"]

def BBB : Vector String 8 := #v["CSBR", "SSBR", "TSR0", "TSR1", "OSR0", "OSR1", "OSR2", "OSR3"]

def PPP : List String := ["SBRB", "ICB", "NPP"]

def HHH : List String := ["TCR", "TIR", "TSR", "SCR", "SSR", "SOR", "IISR"]

theorem land_seven_lt (x : U16) : (x &&& 7).toNat < 8 := by
  have h : (x &&& 7).toNat ≤ 7 := BitVec.toNat_and x 7 ▸ Nat.and_le_right
  omega

theorem land_three_lt (x : U16) : (x &&& 3).toNat < 4 := by
  have h : (x &&& 3).toNat ≤ 3 := BitVec.toNat_and x 3 ▸ Nat.and_le_right
  omega

/-- The entry for the low three bits. -/
def entry8 (table : Vector String 8) (x : U16) : String :=
  table.get ⟨(x &&& 7).toNat, land_seven_lt x⟩

/-- The entry for the low two bits. -/
def entry4 (table : Vector String 4) (x : U16) : String :=
  table.get ⟨(x &&& 3).toNat, land_three_lt x⟩

def regName (rrr : U16) : String := entry8 REGS rrr

def riName (ii : U16) : String := entry4 RI ii

/-- The displacement has eight bits, so that the `i16` subtraction is exact. -/
def relTarget (instrAddr d : U16) : U16 :=
  let sd := if d < 0x80 then d else d - 0x100
  (instrAddr + sd) &&& 0xffff

def undef (ir : U16) : DecodedInst where
  mnemonic := ".word"
  ops := [.imm (ir &&& 0xffff) 16]
  wordCount := 1
  ir := ir

def riMode (mm ii : U16) : Option String :=
  let r := riName ii
  if mm = 1 then some ("(" ++ r ++ ")")
  else if mm = 2 then some ("-(" ++ r ++ ")")
  else if mm = 3 then some ("(" ++ r ++ ")+")
  else none

def trail (ops : List DecodedOp) (skip : U16) (ee : Option U16) (carry : Bool) :
    List DecodedOp :=
  let out := if carry then ops ++ [.c] else ops
  let out :=
    match ee with
    | some ee => if ee &&& 3 ≠ 0 then out ++ [.ee ((ee &&& 3).setWidth 8)] else out
    | none => out
  if skip &&& 0xf ≠ 0 then out ++ [.skip ((skip &&& 0xf).setWidth 8)] else out

def one (mnemonic : String) (ir : U16) (ops : List DecodedOp) : DecodedInst :=
  { mnemonic, ops, wordCount := 1, ir }

def two (mnemonic : String) (ir : U16) (ops : List DecodedOp) : DecodedInst :=
  { mnemonic, ops, wordCount := 2, ir }

def hexDigit (n : U16) : Char := "0123456789abcdef".toList.getD n.toNat '0'

/-- `format!("0x{:02x}", v & 0xff)` -/
def hex8 (v : U16) : String :=
  String.ofList ['0', 'x', hexDigit ((v &&& 0xff) >>> 4), hexDigit (v &&& 0xf)]

def eaOp (mmm d instrAddr : U16) : DecodedOp :=
  let disp := d &&& 0xff
  match (mmm &&& 7).toNat with
  | 0 => .addr disp .zp none
  | 1 => .addr (relTarget instrAddr disp) .plain none
  | 2 => .addr disp .starParen none
  | 3 => .addr (relTarget instrAddr disp) .paren none
  | 4 => .raw (hex8 disp ++ "(X0)")
  | 5 => .raw (hex8 disp ++ "(X1)")
  | 6 => .raw ("(*" ++ hex8 disp ++ ")(X0)")
  | _ => .raw ("(*" ++ hex8 disp ++ ")(X1)")

section Decode

variable (ir rrr lo kkkk : U16)

/-- A register and an immediate of 4 bits. -/
def bitOps : List DecodedOp :=
  trail [.raw (regName rrr), .imm (lo &&& 0xf) 4] kkkk none false

/-- `let Some(sr) = PPP.get(..) else { return undef(ir) }` -/
def specialForm (bBits : U16) (f : String → DecodedInst) : DecodedInst :=
  match PPP[bBits.toNat]? with
  | some sr => f sr
  | none => undef ir

def decode01 (extra : U16) : DecodedInst :=
  if rrr ≠ 7 then one "MVI" ir [.raw (regName rrr), .imm lo 8]
  else
    let bit7 := (lo >>> 7) &&& 1
    let bBits := (lo >>> 4) &&& 7
    let bit3 := (lo >>> 3) &&& 1
    let bLo := lo &&& 7
    let base := DecodedOp.raw (entry8 BBB (lo >>> 4))
    if bLo = 7 then
      let addr := DecodedOp.addr extra .plain none
      if bit7 = 0 ∧ bit3 = 0 then two "LB" ir [base, addr]
      else if bit7 = 0 ∧ bit3 = 1 then specialForm ir bBits fun sr => two "LS" ir [.raw sr, addr]
      else if bit7 = 1 ∧ bit3 = 0 then two "STB" ir [base, addr]
      else specialForm ir bBits fun sr => two "STS" ir [.raw sr, addr]
    else if bit7 = 1 ∧ bit3 = 0 then one "CPYB" ir [.raw (regName bLo), base]
    else if bit7 = 1 ∧ bit3 = 1 then
      specialForm ir bBits fun sr => one "CPYS" ir [.raw (regName bLo), .raw sr]
    else if bit7 = 0 ∧ bit3 = 0 then one "SETB" ir [.raw (regName bLo), base]
    else specialForm ir bBits fun sr => one "SETS" ir [.raw (regName bLo), .raw sr]

def decode02 (extra : U16) : DecodedInst :=
  if rrr ≠ 7 then one "WT" ir [.raw (regName rrr), .addr lo .io none]
  else if lo = 0x0f then one "PSHM" ir []
  else if lo = 0x07 then one "POPM" ir []
  else
    let mnem := if lo &&& 8 ≠ 0 then "TSET" else "TRST"
    two mnem ir (trail [.raw (regName (lo &&& 7)), .addr extra .plain none] kkkk none false)

def decode03 : DecodedInst :=
  if rrr ≠ 7 then one "RD" ir [.raw (regName rrr), .addr lo .io none]
  else
    let bit3 := (lo >>> 3) &&& 1
    let bit2 := (lo >>> 2) &&& 1
    if bit2 = 1 then
      if bit3 = 0 then one "FIX" ir (trail [.raw "R0", .raw "DR0"] kkkk none false)
      else one "FLT" ir (trail [.raw "DR0", .raw "R0"] kkkk none false)
    else one "NEG" ir (trail [.raw (regName (lo &&& 7))] kkkk none (bit3 = 0))

/-- The operands of LD and STD. -/
def longOps (dest extra : U16) : List DecodedOp :=
  let b54 := (lo >>> 4) &&& 3
  [.raw (regName dest),
    if b54 = 0 then .addr extra .plain none else .addr extra .bb (some (entry4 BB (lo >>> 4)))]

/-- The operands of LR and STR. -/
def indirectOps (mmStr : String) : List DecodedOp :=
  let b54 := (lo >>> 4) &&& 3
  if b54 ≠ 0 then [.raw (regName rrr), .raw (entry4 BB (lo >>> 4)), .raw mmStr]
  else [.raw (regName rrr), .raw mmStr]

/-- The end of `decode04`, after LR and STR. -/
def decode04Low (b32 b10 : U16) : DecodedInst :=
  if b32 = 2 then one "SR" ir (trail [.raw (regName rrr)] kkkk (some b10) false)
  else if b32 = 3 then one "SL" ir (trail [.raw (regName rrr)] kkkk (some b10) false)
  else if lo >>> 4 = 1 ∧ b32 = 1 ∧ rrr ≠ 7 then
    one "RDR" ir [.raw (regName rrr), .raw ("(" ++ riName b10 ++ ")")]
  else if lo >>> 4 = 1 ∧ b32 = 0 then
    one "WTR" ir [.raw (regName rrr), .raw ("(" ++ riName b10 ++ ")")]
  else undef ir

/-- `decode04` from LR on. -/
def decode04Indirect (b32 : U16) : DecodedInst :=
  let b10 := lo &&& 3
  match riMode ((lo >>> 6) &&& 3) b10 with
  | some mmStr =>
      if b32 = 0 then one "LR" ir (indirectOps rrr lo mmStr)
      else if b32 = 1 then one "STR" ir (indirectOps rrr lo mmStr)
      else decode04Low ir rrr lo kkkk b32 b10
  | none => decode04Low ir rrr lo kkkk b32 b10

def decode04 (b32 extra : U16) : DecodedInst :=
  let b54 := (lo >>> 4) &&& 3
  let b10 := lo &&& 3
  let addr (form : AddrForm) := DecodedOp.addr extra form none
  if rrr = 0 ∧ lo = 0x00 then one "H" ir []
  else if rrr = 0 ∧ lo = 0x03 then one "RET" ir []
  else if rrr = 0 ∧ 0x04 ≤ lo ∧ lo ≤ 0x07 then one "LPSW" ir [.raw (toString (lo &&& 3).toNat)]
  else if rrr = 6 ∧ lo = 0x07 then two "BD" ir [addr .plain]
  else if rrr = 6 ∧ lo = 0x17 then two "BALD" ir [addr .plain]
  else if rrr = 7 ∧ lo &&& 0xfc = 0x04 then one "BR" ir [.raw ("@(" ++ riName b10 ++ ")")]
  else if rrr = 7 ∧ lo &&& 0xfc = 0x14 then one "BALR" ir [.raw ("@(" ++ riName b10 ++ ")")]
  else if rrr = 7 ∧ lo &&& 0x08 ≠ 0 then
    let dest := lo &&& 7
    if lo &&& 0x40 = 0 then
      if dest = 7 then two (if b54 = 1 then "BALL" else "BL") ir [addr .at_]
      else two "LD" ir (longOps lo dest extra)
    else two "STD" ir (longOps lo dest extra)
  else if lo = 0x01 then one "PUSH" ir [.raw (regName rrr)]
  else if lo = 0x02 then one "POP" ir [.raw (regName rrr)]
  else decode04Indirect ir rrr lo kkkk b32

def decode07 : DecodedInst :=
  if rrr ≠ 7 then one "SBIT" ir (bitOps rrr lo kkkk)
  else if lo = 0x07 then one "RETL" ir []
  else if lo = 0x17 then one "BLK" ir []
  else if lo >>> 4 = 0x7 ∧ lo &&& 8 = 0 then
    one "SRBT" ir [.raw "R0", .raw (regName (lo &&& 7))]
  else if lo >>> 4 = 0xf ∧ lo &&& 8 = 0 then
    one "DEBP" ir [.raw (regName (lo &&& 7)), .raw "R0"]
  else if lo &&& 8 ≠ 0 then undef ir
  else
    match HHH[((lo >>> 4) &&& 7).toNat]? with
    | none => undef ir
    | some hr =>
        let mnem := if (lo >>> 7) &&& 1 = 1 then "CPYH" else "SETH"
        one mnem ir [.raw (regName (lo &&& 7)), .raw hr]

/-- An accumulator, a register pointer, carry and skip. -/
def pointerOps (acc : String) (b10 : U16) (carry : Bool) : List DecodedOp :=
  trail [.raw acc, .raw ("(" ++ riName b10 ++ ")")] kkkk none carry

/-- The shape of `decode08` and `decode09`. -/
def decodeDouble (double single : String) : DecodedInst :=
  if rrr = 7 ∧ lo &&& 4 ≠ 0 then
    one double ir (pointerOps kkkk "DR0" (lo &&& 3) ((lo >>> 3) &&& 1 = 0))
  else one single ir (bitOps rrr lo kkkk)

def decode08 : DecodedInst := decodeDouble ir rrr lo kkkk "SD" "SI"

def decode09 : DecodedInst := decodeDouble ir rrr lo kkkk "AD" "AI"

/-- An empty name stands for no instruction. -/
structure RegFamilySpec where
  when7 : Vector String 4
  immHi : String
  immLo : String
  bit1 : String
  bit0 : String
  acc7 : String

def decodeRegFamily (extra : U16) (spec : RegFamilySpec) : DecodedInst :=
  let tail := lo &&& 0xf
  if rrr = 7 then
    let mnem := entry4 spec.when7 (lo >>> 2)
    if mnem = "" then undef ir
    else one mnem ir (pointerOps kkkk spec.acc7 (lo &&& 3) false)
  else if tail = 0x0f then
    two spec.immHi ir (trail [.raw (regName rrr), .imm extra 16] kkkk none false)
  else if tail = 0x07 then
    two spec.immLo ir (trail [.raw (regName rrr), .imm extra 16] kkkk none false)
  else
    let mnem := if lo &&& 8 ≠ 0 then spec.bit1 else spec.bit0
    one mnem ir (trail [.raw (regName rrr), .raw (regName (lo &&& 7))] kkkk none false)

def decode0a (extra : U16) : DecodedInst :=
  if rrr = 7 ∧ lo &&& 4 ≠ 0 then
    one "DAS" ir (pointerOps kkkk "R0" (lo &&& 3) ((lo >>> 3) &&& 1 = 0))
  else
    decodeRegFamily ir rrr lo kkkk extra
      { when7 := #v["CBR", "", "CWR", ""]
        immHi := "CWI"
        immLo := "CBI"
        bit1 := "C"
        bit0 := "CB"
        acc7 := "R0" }

def decode0b (extra : U16) : DecodedInst :=
  if rrr = 7 ∧ lo &&& 4 ≠ 0 then
    one "DAA" ir (pointerOps kkkk "R0" (lo &&& 3) ((lo >>> 3) &&& 1 = 0))
  else
    decodeRegFamily ir rrr lo kkkk extra
      { when7 := #v["SWR", "", "AWR", ""]
        immHi := "AWI"
        immLo := "SWI"
        bit1 := "A"
        bit0 := "S"
        acc7 := "R0" }

/-- `acc7` of `decode0c` and `decode0d`. -/
def accumulator (lo : U16) : String :=
  let b32 := (lo >>> 2) &&& 3
  if b32 = 1 ∨ b32 = 3 then "DR0" else "R0"

def decode0c (extra : U16) : DecodedInst :=
  decodeRegFamily ir rrr lo kkkk extra
    { when7 := #v["EORR", "FD", "ORR", "FM"]
      immHi := "ORI"
      immLo := "EORI"
      bit1 := "OR"
      bit0 := "EOR"
      acc7 := accumulator lo }

def decode0d (extra : U16) : DecodedInst :=
  decodeRegFamily ir rrr lo kkkk extra
    { when7 := #v["LADR", "FS", "ANDR", "FA"]
      immHi := "ANDI"
      immLo := "LADI"
      bit1 := "AND"
      bit0 := "LAD"
      acc7 := accumulator lo }

/-- The pointer forms of `decode0e` and `decode0f`. -/
def decodePointer (when3 when2 when0 : String) : DecodedInst :=
  let b32 := (lo >>> 2) &&& 3
  if b32 = 3 then one when3 ir (pointerOps kkkk "DR0" (lo &&& 3) false)
  else if b32 = 2 then one when2 ir (pointerOps kkkk "R0" (lo &&& 3) false)
  else if b32 = 0 then one when0 ir (pointerOps kkkk "R0" (lo &&& 3) false)
  else undef ir

/-- The register forms of `decode0e` and `decode0f`. -/
def decodePair (bit1 bit0 : String) : DecodedInst :=
  let mnem := if lo &&& 8 ≠ 0 then bit1 else bit0
  one mnem ir (trail [.raw (regName rrr), .raw (regName (lo &&& 7))] kkkk none false)

def decode0e : DecodedInst :=
  if rrr = 7 then decodePointer ir lo kkkk "D" "BSWR" "DSWR"
  else if lo &&& 0xf = 0x07 ∨ lo &&& 0xf = 0x0f then undef ir
  else decodePair ir rrr lo kkkk "BSWP" "DSWP"

def decode0f (extra : U16) : DecodedInst :=
  if rrr ≠ 7 ∧ lo &&& 0xf = 0x07 then
    two "MVWI" ir (trail [.raw (regName rrr), .imm extra 16] kkkk none false)
  else if rrr = 7 then decodePointer ir lo kkkk "M" "MVWR" "MVBR"
  else decodePair ir rrr lo kkkk "MV" "MVB"

end Decode

/-- L, ST, B, BAL, IMS and DMS -/
def decodeMemory (ir op rrr lo a : U16) : DecodedInst :=
  let isHi := op &&& 8 ≠ 0
  let ea := eaOp (op &&& 7) lo a
  if rrr = 7 then one (if isHi then "B" else "BAL") ir [ea]
  else if rrr = 6 then one (if isHi then "IMS" else "DMS") ir [ea]
  else one (if isHi then "L" else "ST") ir [.raw (regName rrr), ea]

/-- The instruction word `ir` at `a`, with the word `extra` behind it. -/
def decodeWord (a ir extra : U16) : DecodedInst :=
  let op := (ir >>> 11) &&& 0x1f
  let rrr := (ir >>> 8) &&& 7
  let lo := ir &&& 0xff
  let kkkk := (lo >>> 4) &&& 0xf
  let b32 := (lo >>> 2) &&& 3
  if op ≥ 0x10 then decodeMemory ir op rrr lo a
  else
    match op.toNat with
    | 0x00 => undef ir
    | 0x01 => decode01 ir rrr lo extra
    | 0x02 => decode02 ir rrr lo kkkk extra
    | 0x03 => decode03 ir rrr lo kkkk
    | 0x04 => decode04 ir rrr lo kkkk b32 extra
    | 0x05 => one "TBIT" ir (bitOps rrr lo kkkk)
    | 0x06 => one "RBIT" ir (bitOps rrr lo kkkk)
    | 0x07 => decode07 ir rrr lo kkkk
    | 0x08 => decode08 ir rrr lo kkkk
    | 0x09 => decode09 ir rrr lo kkkk
    | 0x0a => decode0a ir rrr lo kkkk extra
    | 0x0b => decode0b ir rrr lo kkkk extra
    | 0x0c => decode0c ir rrr lo kkkk extra
    | 0x0d => decode0d ir rrr lo kkkk extra
    | 0x0e => decode0e ir rrr lo kkkk
    | 0x0f => decode0f ir rrr lo kkkk extra
    | _ => undef ir

/-- `decode_mn1613` -/
def decodeMn1613 (addr : U16) (readWord : U16 → U16) : DecodedInst :=
  let a := addr &&& 0xffff
  decodeWord a (readWord a &&& 0xffff) (readWord (a + 1) &&& 0xffff)

end Mn1613
end Disasm
end RetroCpu
