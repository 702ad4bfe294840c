import RetroCpu.Lib.JsNumber
import RetroCpu.Mn1613.Mnemonic

/-!
# The MN1613 disassembler (`dis_assembler/mn1613/decode.ts`)

One instruction is decoded into a mnemonic and structured operands.  Labels and the
printed form are left to the formatter.
-/

namespace RetroCpu
namespace DisAssembler
namespace Mn1613

open Js RetroCpu.Mn1613

/-- How an address is printed. -/
inductive AddrForm
  | plain | zp | paren | at_ | starParen | io | bb
deriving DecidableEq, Repr

/-- A decoded operand. -/
inductive DecodedOp
  | raw (s : String)
  | addr (v : Int) (form : AddrForm) (bb : Option String)
  | imm (v : Int) (bits : Nat)
  | skip (n : Int)
  | ee (n : Int)
  | c
deriving DecidableEq, Repr

/-- A decoded instruction. -/
structure DecodedInst where
  mnemonic : Mnemonic
  ops : List DecodedOp
  wordCount : Nat
  ir : Int
deriving DecidableEq, Repr

def REGS : List String := ["R0", "R1", "R2", "R3", "R4", "SP", "STR", "IC"]

def RI : List String := ["R1", "R2", "R3", "R4"]

def BB : List String := ["CSBR", "SSBR", "TSR0", "TSR1"]

def BBB : List String := ["CSBR", "SSBR", "TSR0", "TSR1", "OSR0", "OSR1", "OSR2", "OSR3"]

def PPP : List String := ["SBRB", "ICB", "NPP"]

def HHH : List String := ["TCR", "TIR", "TSR", "SCR", "SSR", "SOR", "IISR"]

def regName (rrr : Int) : String := REGS.getD (land rrr 7).toNat ""

def riName (ii : Int) : String := RI.getD (land ii 3).toNat ""

/-- Target of a signed 8-bit displacement from the address of the instruction. -/
def relTarget (instrAddr d : Int) : Int :=
  let sd := if d < 0x80 then d else d - 0x100
  land (instrAddr + sd) 0xffff

def undef (ir : Int) : DecodedInst where
  mnemonic := .dotWord
  ops := [.imm (land ir 0xffff) 16]
  wordCount := 1
  ir := ir

def riMode (mm ii : Int) : Option String :=
  let r := riName ii
  if mm = 1 then some ("(" ++ r ++ ")")
  else if mm = 2 then some ("-(" ++ r ++ ")")
  else if mm = 3 then some ("(" ++ r ++ ")+")
  else none

/-- Append carry, `EE` and skip condition. -/
def trail (ops : List DecodedOp) (skip : Int) (ee : Option Int) (carry : Bool) : List DecodedOp :=
  let out := if carry then ops ++ [.c] else ops
  let out :=
    match ee with
    | some ee => if land ee 3 ≠ 0 then out ++ [.ee (land ee 3)] else out
    | none => out
  if land skip 0xf ≠ 0 then out ++ [.skip (land skip 0xf)] else out

def one (mnemonic : Mnemonic) (ir : Int) (ops : List DecodedOp) : DecodedInst :=
  { mnemonic, ops, wordCount := 1, ir }

def two (mnemonic : Mnemonic) (ir : Int) (ops : List DecodedOp) : DecodedInst :=
  { mnemonic, ops, wordCount := 2, ir }

def hexDigit (n : Int) : Char := "0123456789abcdef".toList.getD n.toNat '0'

/-- Eight bits as `0xHH`. -/
def hex8 (v : Int) : String :=
  String.ofList ['0', 'x', hexDigit (ushr (land v 0xff) 4), hexDigit (land v 0xf)]

def eaOp (mmm d instrAddr : Int) : DecodedOp :=
  let disp := land d 0xff
  match (land mmm 7).toNat with
  | 0 => .addr disp .zp none
  | 1 => .addr (relTarget instrAddr disp) .plain none
  | 2 => .addr disp .starParen none
  | 3 => .addr (relTarget instrAddr disp) .paren none
  | 4 => .raw (hex8 disp ++ "(X0)")
  | 5 => .raw (hex8 disp ++ "(X1)")
  | 6 => .raw ("(*" ++ hex8 disp ++ ")(X0)")
  | _ => .raw ("(*" ++ hex8 disp ++ ")(X1)")

section Decode

variable (ir rrr lo kkkk : Int)

/-- A register and an immediate of 4 bits, as in TBIT, RBIT, SBIT, SI and AI. -/
def bitOps : List DecodedOp :=
  trail [.raw (regName rrr), .imm (land lo 0xf) 4] kkkk none false

/-- The forms of group `0x01` that name a special register, a word of data for the codes
of no register. -/
def specialForm (bBits : Int) (f : String → DecodedInst) : DecodedInst :=
  match PPP[bBits.toNat]? with
  | some sr => f sr
  | none => undef ir

/-- MVI, LB, LS, STB, STS, CPYB, CPYS, SETB and SETS -/
def decode01 (extra : Int) : DecodedInst :=
  if rrr ≠ 7 then one .MVI ir [.raw (regName rrr), .imm lo 8]
  else
    let bit7 := land (ushr lo 7) 1
    let bBits := land (ushr lo 4) 7
    let bit3 := land (ushr lo 3) 1
    let bLo := land lo 7
    let base := DecodedOp.raw (BBB.getD bBits.toNat "")
    if bLo = 7 then
      let addr := DecodedOp.addr extra .plain none
      if bit7 = 0 ∧ bit3 = 0 then two .LB ir [base, addr]
      else if bit7 = 0 ∧ bit3 = 1 then specialForm ir bBits fun sr => two .LS ir [.raw sr, addr]
      else if bit7 = 1 ∧ bit3 = 0 then two .STB ir [base, addr]
      else specialForm ir bBits fun sr => two .STS ir [.raw sr, addr]
    else if bit7 = 1 ∧ bit3 = 0 then one .CPYB ir [.raw (regName bLo), base]
    else if bit7 = 1 ∧ bit3 = 1 then
      specialForm ir bBits fun sr => one .CPYS ir [.raw (regName bLo), .raw sr]
    else if bit7 = 0 ∧ bit3 = 0 then one .SETB ir [.raw (regName bLo), base]
    else specialForm ir bBits fun sr => one .SETS ir [.raw (regName bLo), .raw sr]

/-- WT, PSHM, POPM, TSET and TRST -/
def decode02 (extra : Int) : DecodedInst :=
  if rrr ≠ 7 then one .WT ir [.raw (regName rrr), .addr lo .io none]
  else if lo = 0x0f then one .PSHM ir []
  else if lo = 0x07 then one .POPM ir []
  else
    let mnem := if land lo 8 ≠ 0 then Mnemonic.TSET else .TRST
    two mnem ir (trail [.raw (regName (land lo 7)), .addr extra .plain none] kkkk none false)

/-- RD, NEG, FIX and FLT -/
def decode03 : DecodedInst :=
  if rrr ≠ 7 then one .RD ir [.raw (regName rrr), .addr lo .io none]
  else
    let bit3 := land (ushr lo 3) 1
    let bit2 := land (ushr lo 2) 1
    if bit2 = 1 then
      if bit3 = 0 then one .FIX ir (trail [.raw "R0", .raw "DR0"] kkkk none false)
      else one .FLT ir (trail [.raw "DR0", .raw "R0"] kkkk none false)
    else one .NEG ir (trail [.raw (regName (land lo 7))] kkkk none (bit3 = 0))

/-- The operands of LD and STD. -/
def longOps (dest b54 extra : Int) : List DecodedOp :=
  [.raw (regName dest),
    if b54 = 0 then .addr extra .plain none else .addr extra .bb BB[b54.toNat]?]

/-- The operands of LR and STR. -/
def indirectOps (b54 : Int) (mmStr : String) : List DecodedOp :=
  if b54 ≠ 0 then [.raw (regName rrr), .raw (BB.getD b54.toNat ""), .raw mmStr]
  else [.raw (regName rrr), .raw mmStr]

/-- SR, SL, RDR and WTR, after LR and STR. -/
def decode04Low (b32 b10 : Int) : DecodedInst :=
  if b32 = 2 then one .SR ir (trail [.raw (regName rrr)] kkkk (some b10) false)
  else if b32 = 3 then one .SL ir (trail [.raw (regName rrr)] kkkk (some b10) false)
  else if ushr lo 4 = 1 ∧ b32 = 1 ∧ rrr ≠ 7 then
    one .RDR ir [.raw (regName rrr), .raw ("(" ++ riName b10 ++ ")")]
  else if ushr lo 4 = 1 ∧ b32 = 0 then
    one .WTR ir [.raw (regName rrr), .raw ("(" ++ riName b10 ++ ")")]
  else undef ir

/-- LR and STR, then the rest of group `0x04`. -/
def decode04Indirect (b32 : Int) : DecodedInst :=
  let b54 := land (ushr lo 4) 3
  let b10 := land lo 3
  match riMode (land (ushr lo 6) 3) b10 with
  | some mmStr =>
      if b32 = 0 then one .LR ir (indirectOps rrr b54 mmStr)
      else if b32 = 1 then one .STR ir (indirectOps rrr b54 mmStr)
      else decode04Low ir rrr lo kkkk b32 b10
  | none => decode04Low ir rrr lo kkkk b32 b10

/-- H, RET, LPSW, BD, BALD, BR, BALR, LD, STD, BL, BALL, PUSH, POP, LR, STR, SR, SL, RDR
and WTR -/
def decode04 (b32 extra : Int) : DecodedInst :=
  let b54 := land (ushr lo 4) 3
  let b10 := land lo 3
  let addr (form : AddrForm) := DecodedOp.addr extra form none
  if rrr = 0 ∧ lo = 0x00 then one .H ir []
  else if rrr = 0 ∧ lo = 0x03 then one .RET ir []
  else if rrr = 0 ∧ lo ≥ 0x04 ∧ lo ≤ 0x07 then one .LPSW ir [.raw (toString (land lo 3))]
  else if rrr = 6 ∧ lo = 0x07 then two .BD ir [addr .plain]
  else if rrr = 6 ∧ lo = 0x17 then two .BALD ir [addr .plain]
  else if rrr = 7 ∧ land lo 0xfc = 0x04 then one .BR ir [.raw ("@(" ++ riName b10 ++ ")")]
  else if rrr = 7 ∧ land lo 0xfc = 0x14 then one .BALR ir [.raw ("@(" ++ riName b10 ++ ")")]
  else if rrr = 7 ∧ land lo 0x08 ≠ 0 then
    let dest := land lo 7
    if land lo 0x40 = 0 then
      if dest = 7 then two (if b54 = 1 then .BALL else .BL) ir [addr .at_]
      else two .LD ir (longOps dest b54 extra)
    else two .STD ir (longOps dest b54 extra)
  else if lo = 0x01 then one .PUSH ir [.raw (regName rrr)]
  else if lo = 0x02 then one .POP ir [.raw (regName rrr)]
  else decode04Indirect ir rrr lo kkkk b32

/-- SBIT, RETL, BLK, SRBT, DEBP, SETH and CPYH -/
def decode07 : DecodedInst :=
  if rrr ≠ 7 then one .SBIT ir (bitOps rrr lo kkkk)
  else if lo = 0x07 then one .RETL ir []
  else if lo = 0x17 then one .BLK ir []
  else if ushr lo 4 = 0x7 ∧ land lo 8 = 0 then
    one .SRBT ir [.raw "R0", .raw (regName (land lo 7))]
  else if ushr lo 4 = 0xf ∧ land lo 8 = 0 then
    one .DEBP ir [.raw (regName (land lo 7)), .raw "R0"]
  else if land lo 8 ≠ 0 then undef ir
  else
    match HHH[(land (ushr lo 4) 7).toNat]? with
    | none => undef ir
    | some hr =>
        let mnem := if land (ushr lo 7) 1 = 1 then Mnemonic.CPYH else .SETH
        one mnem ir [.raw (regName (land lo 7)), .raw hr]

/-- An accumulator, a register pointer, carry and skip. -/
def pointerOps (acc : String) (b10 : Int) (carry : Bool) : List DecodedOp :=
  trail [.raw acc, .raw ("(" ++ riName b10 ++ ")")] kkkk none carry

/-- SI and SD, or AI and AD -/
def decodeDouble (double single : Mnemonic) : DecodedInst :=
  if rrr = 7 ∧ land lo 4 ≠ 0 then
    one double ir (pointerOps kkkk "DR0" (land lo 3) (land (ushr lo 3) 1 = 0))
  else one single ir (bitOps rrr lo kkkk)

def decode08 : DecodedInst := decodeDouble ir rrr lo kkkk .SD .SI

def decode09 : DecodedInst := decodeDouble ir rrr lo kkkk .AD .AI

/-- The names of a register family, by `rrr` and the low bits. -/
structure RegFamily where
  when7 : List (Option Mnemonic)
  immHi : Mnemonic
  immLo : Mnemonic
  bit1 : Mnemonic
  bit0 : Mnemonic
  acc7 : String := "R0"

/-- `decodeRegFamily`: groups `0x0a` to `0x0d` -/
def decodeRegFamily (extra : Int) (spec : RegFamily) : DecodedInst :=
  let b32 := land (ushr lo 2) 3
  let tail := land lo 0xf
  if rrr = 7 then
    match spec.when7.getD b32.toNat none with
    | none => undef ir
    | some mnem => one mnem ir (pointerOps kkkk spec.acc7 (land lo 3) false)
  else if tail = 0x0f then
    two spec.immHi ir (trail [.raw (regName rrr), .imm extra 16] kkkk none false)
  else if tail = 0x07 then
    two spec.immLo ir (trail [.raw (regName rrr), .imm extra 16] kkkk none false)
  else
    let mnem := if land lo 8 ≠ 0 then spec.bit1 else spec.bit0
    one mnem ir (trail [.raw (regName rrr), .raw (regName (land lo 7))] kkkk none false)

/-- C, CB, CWR, CWI, CBR, CBI and DAS -/
def decode0a (extra : Int) : DecodedInst :=
  if rrr = 7 ∧ land lo 4 ≠ 0 then
    one .DAS ir (pointerOps kkkk "R0" (land lo 3) (land (ushr lo 3) 1 = 0))
  else
    decodeRegFamily ir rrr lo kkkk extra
      { when7 := [some .CBR, none, some .CWR, none]
        immHi := .CWI
        immLo := .CBI
        bit1 := .C
        bit0 := .CB }

/-- A, S, AWR, AWI, SWR, SWI and DAA -/
def decode0b (extra : Int) : DecodedInst :=
  if rrr = 7 ∧ land lo 4 ≠ 0 then
    one .DAA ir (pointerOps kkkk "R0" (land lo 3) (land (ushr lo 3) 1 = 0))
  else
    decodeRegFamily ir rrr lo kkkk extra
      { when7 := [some .SWR, none, some .AWR, none]
        immHi := .AWI
        immLo := .SWI
        bit1 := .A
        bit0 := .S }

/-- The accumulator of groups `0x0c` and `0x0d`. -/
def accumulator (lo : Int) : String :=
  let b32 := land (ushr lo 2) 3
  if b32 = 1 ∨ b32 = 3 then "DR0" else "R0"

/-- OR, EOR, ORR, ORI, EORR, EORI, FM and FD -/
def decode0c (extra : Int) : DecodedInst :=
  decodeRegFamily ir rrr lo kkkk extra
    { when7 := [some .EORR, some .FD, some .ORR, some .FM]
      immHi := .ORI
      immLo := .EORI
      bit1 := .OR
      bit0 := .EOR
      acc7 := accumulator lo }

/-- AND, LAD, ANDR, ANDI, LADR, LADI, FA and FS -/
def decode0d (extra : Int) : DecodedInst :=
  decodeRegFamily ir rrr lo kkkk extra
    { when7 := [some .LADR, some .FS, some .ANDR, some .FA]
      immHi := .ANDI
      immLo := .LADI
      bit1 := .AND
      bit0 := .LAD
      acc7 := accumulator lo }

/-- D, BSWR and DSWR, or M, MVWR and MVBR -/
def decodePointer (when3 when2 when0 : Mnemonic) : DecodedInst :=
  let b32 := land (ushr lo 2) 3
  if b32 = 3 then one when3 ir (pointerOps kkkk "DR0" (land lo 3) false)
  else if b32 = 2 then one when2 ir (pointerOps kkkk "R0" (land lo 3) false)
  else if b32 = 0 then one when0 ir (pointerOps kkkk "R0" (land lo 3) false)
  else undef ir

/-- Register to register, by bit 3. -/
def decodePair (bit1 bit0 : Mnemonic) : DecodedInst :=
  let mnem := if land lo 8 ≠ 0 then bit1 else bit0
  one mnem ir (trail [.raw (regName rrr), .raw (regName (land lo 7))] kkkk none false)

/-- BSWP, DSWP, BSWR, DSWR and D -/
def decode0e : DecodedInst :=
  if rrr = 7 then decodePointer ir lo kkkk .D .BSWR .DSWR
  else if land lo 0xf = 0x07 ∨ land lo 0xf = 0x0f then undef ir
  else decodePair ir rrr lo kkkk .BSWP .DSWP

/-- MV, MVB, MVWR, MVBR, MVWI and M -/
def decode0f (extra : Int) : DecodedInst :=
  if rrr ≠ 7 ∧ land lo 0xf = 0x07 then
    two .MVWI ir (trail [.raw (regName rrr), .imm extra 16] kkkk none false)
  else if rrr = 7 then decodePointer ir lo kkkk .M .MVWR .MVBR
  else decodePair ir rrr lo kkkk .MV .MVB

end Decode

/-- L, ST, B, BAL, IMS and DMS -/
def decodeMemory (ir op rrr lo a : Int) : DecodedInst :=
  let isHi := land op 8 ≠ 0
  let ea := eaOp (land op 7) lo a
  if rrr = 7 then one (if isHi then .B else .BAL) ir [ea]
  else if rrr = 6 then one (if isHi then .IMS else .DMS) ir [ea]
  else one (if isHi then .L else .ST) ir [.raw (regName rrr), ea]

/-- The instruction word `ir` at `a`, with the word `extra` behind it. -/
def decodeWord (a ir extra : Int) : DecodedInst :=
  let op := land (ushr ir 11) 0x1f
  let rrr := land (ushr ir 8) 7
  let lo := land ir 0xff
  let kkkk := land (ushr lo 4) 0xf
  let b32 := land (ushr lo 2) 3
  if op ≥ 0x10 then decodeMemory ir op rrr lo a
  else
    match op.toNat with
    | 0x00 => undef ir
    | 0x01 => decode01 ir rrr lo extra
    | 0x02 => decode02 ir rrr lo kkkk extra
    | 0x03 => decode03 ir rrr lo kkkk
    | 0x04 => decode04 ir rrr lo kkkk b32 extra
    | 0x05 => one .TBIT ir (bitOps rrr lo kkkk)
    | 0x06 => one .RBIT ir (bitOps rrr lo kkkk)
    | 0x07 => decode07 ir rrr lo kkkk
    | 0x08 => decode08 ir rrr lo kkkk
    | 0x09 => decode09 ir rrr lo kkkk
    | 0x0a => decode0a ir rrr lo kkkk extra
    | 0x0b => decode0b ir rrr lo kkkk extra
    | 0x0c => decode0c ir rrr lo kkkk extra
    | 0x0d => decode0d ir rrr lo kkkk extra
    | 0x0e => decode0e ir rrr lo kkkk
    | 0x0f => decode0f ir rrr lo kkkk extra
    | _ => undef ir

/-- `decodeMn1613` -/
def decodeMn1613 (addr : Int) (readWord : Int → Int) : DecodedInst :=
  let a := land addr 0xffff
  decodeWord a (land (readWord a) 0xffff) (land (readWord (land (a + 1) 0xffff)) 0xffff)

end Mn1613
end DisAssembler
end RetroCpu
