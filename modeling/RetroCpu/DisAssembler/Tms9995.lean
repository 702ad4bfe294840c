import RetroCpu.Lib.MaskTable
import RetroCpu.Tms9995.Operations

/-!
# The TMS9995 disassembler (`tms9995/disasm/decode.rs`, `tms9995/disasm/format.rs`)

One instruction is decoded into an operation and structured operands, and printed without
labels.
-/

namespace RetroCpu
namespace DisAssembler
namespace Tms9995

open MaskTable
open RetroCpu.Tms9995 (OpFormat)

abbrev Word := BitVec 16

/-- A decoded operand. -/
inductive DecodedOp
  | reg (r : Word)
  | indirect (r : Word)
  | autoInc (r : Word)
  | sym (addr : Word)
  | indexed (addr reg : Word)
  | imm (v : Word)
  | immDisp (d : BitVec 8)
  | immCount (c : BitVec 8)
  | jumpTarget (addr : Word)
  | xopNum (n : BitVec 8)
deriving DecidableEq, Repr

/-- A decoded instruction. -/
structure DecodedInst where
  mnemonic : String
  ops : List DecodedOp
  wordCount : Nat
  ir : Word
deriving DecidableEq, Repr

section Decode

def undef (ir : Word) : DecodedInst := ⟨".word", [.imm ir], 1, ir⟩

variable (readWord : Word → Word)

/-- A general address, and the number of words it takes (`decode_field6`). -/
def decodeField6 (field6 pcByte : Word) (extraIndex : Nat) : DecodedOp × Nat :=
  let mode := (field6 >>> 4) &&& 3
  let reg := field6 &&& 0xf
  if mode = 0 then (.reg reg, 0)
  else if mode = 1 then (.indirect reg, 0)
  else if mode = 3 then (.autoInc reg, 0)
  else
    let addr := readWord (pcByte + BitVec.ofNat 16 (extraIndex * 2))
    if reg = 0 then (.sym addr, 1) else (.indexed addr reg, 1)

/-- The number or register in bits 6 to 9. -/
def field4 (ir : Word) : Word := (ir >>> 6) &&& 0xf

/-- One general operand, and another operand behind it. -/
def withField (mnemonic : String) (ir pcByte : Word) (rest : List DecodedOp) : DecodedInst :=
  let (src, extra) := decodeField6 readWord (ir &&& 0x3f) pcByte 1
  ⟨mnemonic, src :: rest, 1 + extra, ir⟩

/-- `decode_fmt1` -/
def decodeFmt1 (mnemonic : String) (ir pcByte : Word) : DecodedInst :=
  let (src, srcExtra) := decodeField6 readWord (ir &&& 0x3f) pcByte 1
  let (dst, dstExtra) := decodeField6 readWord ((ir >>> 6) &&& 0x3f) pcByte (1 + srcExtra)
  ⟨mnemonic, [src, dst], 1 + srcExtra + dstExtra, ir⟩

/-- The bit count of LDCR and STCR (`decode_fmt4`). -/
def bitCount (ir : Word) : BitVec 8 := if field4 ir = 0 then 16 else (field4 ir).setWidth 8

/-- `jump_target` -/
def jumpTarget (pcByte ir : Word) : Word :=
  BitVec.ofInt 16 ((pcByte.toNat + 2 : Int) + (ir.setWidth 8).toInt * 2)

/-- The instruction of an operation, by its format. -/
def decodeFormat (mnemonic : String) (ir pc : Word) : OpFormat → DecodedInst
  | .fixed => ⟨mnemonic, [], 1, ir⟩
  | .register => ⟨mnemonic, [.reg (ir &&& 0xf)], 1, ir⟩
  | .registerImmediate => ⟨mnemonic, [.reg (ir &&& 0xf), .imm (readWord (pc + 2))], 2, ir⟩
  | .immediate => ⟨mnemonic, [.imm (readWord (pc + 2))], 2, ir⟩
  | .shift =>
      ⟨mnemonic, [.reg (ir &&& 0xf), .immCount (((ir >>> 4) &&& 0xf).setWidth 8)], 1, ir⟩
  | .single => withField readWord mnemonic ir pc []
  | .jump => ⟨mnemonic, [.jumpTarget (jumpTarget pc ir)], 1, ir⟩
  | .cru => ⟨mnemonic, [.immDisp (ir.setWidth 8)], 1, ir⟩
  | .logical => withField readWord mnemonic ir pc [.reg (field4 ir)]
  | .transfer => withField readWord mnemonic ir pc [.immCount (bitCount ir)]
  | .extended =>
      if mnemonic = "XOP" then
        withField readWord mnemonic ir pc [.xopNum ((field4 ir).setWidth 8)]
      else withField readWord mnemonic ir pc [.reg (field4 ir)]
  | .dual => decodeFmt1 readWord mnemonic ir pc

attribute [grind =] decodeFormat

/-- The operations that one mask tells apart. -/
def masked (mask : Word) (format : OpFormat) (entries : List (Word × String)) :
    List (Row 16 (OpFormat × String)) :=
  entries.map fun entry => ⟨mask, entry.1, (format, entry.2)⟩

/-- The tests of `decode_tms9995`, in their order. -/
def rows : List (Row 16 (OpFormat × String)) :=
  masked 0xffff .fixed
      [(0x0340, "IDLE"), (0x0360, "RSET"), (0x0380, "RTWP"), (0x03a0, "CKON"), (0x03c0, "CKOF"),
        (0x03e0, "LREX")] ++
    masked 0xfff0 .register
      [(0x0080, "LST"), (0x0090, "LWP"), (0x02a0, "STWP"), (0x02c0, "STST")] ++
    masked 0xfff0 .registerImmediate
      [(0x0200, "LI"), (0x0220, "AI"), (0x0240, "ANDI"), (0x0260, "ORI"), (0x0280, "CI")] ++
    masked 0xffff .immediate [(0x02e0, "LWPI"), (0x0300, "LIMI")] ++
    masked 0xff00 .shift
      [(0x0800, "SRA"), (0x0900, "SRL"), (0x0a00, "SLA"), (0x0b00, "SRC")] ++
    masked 0xffc0 .single
      [(0x0180, "DIVS"), (0x01c0, "MPYS"), (0x0400, "BLWP"), (0x0440, "B"), (0x0480, "X"),
        (0x04c0, "CLR"), (0x0500, "NEG"), (0x0540, "INV"), (0x0580, "INC"), (0x05c0, "INCT"),
        (0x0600, "DEC"), (0x0640, "DECT"), (0x0680, "BL"), (0x06c0, "SWPB"), (0x0700, "SETO"),
        (0x0740, "ABS")] ++
    -- the condition of a jump is the second digit of a word 0x1...
    masked 0xff00 .jump
      [(0x1000, "JMP"), (0x1100, "JLT"), (0x1200, "JLE"), (0x1300, "JEQ"), (0x1400, "JHE"),
        (0x1500, "JGT"), (0x1600, "JNE"), (0x1700, "JNC"), (0x1800, "JOC"), (0x1900, "JNO"),
        (0x1a00, "JL"), (0x1b00, "JH"), (0x1c00, "JOP")] ++
    masked 0xff00 .cru [(0x1d00, "SBO"), (0x1e00, "SBZ"), (0x1f00, "TB")] ++
    masked 0xfc00 .logical [(0x2000, "COC"), (0x2400, "CZC"), (0x2800, "XOR")] ++
    masked 0xfc00 .transfer [(0x3000, "LDCR"), (0x3400, "STCR")] ++
    masked 0xfc00 .extended [(0x2c00, "XOP"), (0x3800, "MPY"), (0x3c00, "DIV")] ++
    masked 0xf000 .dual
      [(0x4000, "SZC"), (0x5000, "SZCB"), (0x6000, "S"), (0x7000, "SB"), (0x8000, "C"),
        (0x9000, "CB"), (0xa000, "A"), (0xb000, "AB"), (0xc000, "MOV"), (0xd000, "MOVB"),
        (0xe000, "SOC"), (0xf000, "SOCB")]

/-- `decode_tms9995` -/
def decodeTms9995 (byteAddr : Word) : DecodedInst :=
  let pc := byteAddr &&& 0xfffe
  let ir := readWord pc
  if ir = 0 then undef ir
  else
    match firstMatch rows ir with
    | some row => decodeFormat readWord row.result.2 ir pc row.result.1
    | none => undef ir

end Decode

section Format

/-- A digit of `{:x}`. -/
def hexDigit (n : Nat) : Char := "0123456789abcdef".toList.getD n '0'

/-- `hex16` -/
def hex16 (v : Word) : String :=
  let n := v.toNat
  String.ofList ['0', 'x', hexDigit (n / 4096 % 16), hexDigit (n / 256 % 16),
    hexDigit (n / 16 % 16), hexDigit (n % 16)]

/-- `reg_name` -/
def regName (r : Word) : String := "R" ++ Nat.repr (r &&& 0xf).toNat

/-- `format_op` without labels -/
def formatOp : DecodedOp → String
  | .reg r => regName r
  | .indirect r => "(" ++ regName r ++ ")"
  | .autoInc r => "(" ++ regName r ++ ")+"
  | .sym a => hex16 a
  | .indexed a r => hex16 a ++ "(" ++ regName r ++ ")"
  | .imm v => "#" ++ hex16 v
  | .immDisp d => "#" ++ Int.repr d.toInt
  | .immCount c => "#" ++ Nat.repr c.toNat
  | .jumpTarget a => hex16 a
  | .xopNum n => "#" ++ Nat.repr n.toNat

attribute [grind =] formatOp

/-- `format_decoded` without labels -/
def formatDecoded (inst : DecodedInst) : String :=
  match inst.mnemonic, inst.ops with
  | ".word", .imm v :: _ => ".word " ++ hex16 v
  | mnemonic, [] => mnemonic
  | mnemonic, ops => mnemonic ++ " " ++ ", ".intercalate (ops.map formatOp)

end Format

end Tms9995
end DisAssembler
end RetroCpu
