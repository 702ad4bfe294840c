import RetroCpu.AsmTs.Mn1613Operand
import RetroCpu.Mn1613.Mnemonic

/-!
# The MN1613 instruction encoder (`mn1613/mn1613_encoder.ts`, `encodeInstruction`)

Families of operations that differ in a constant or a register table share a definition
with that difference as its parameter; `encodeInstruction` names each operation with its
own values.
-/

namespace RetroCpu
namespace AsmTs
namespace Mn1613

open Js RetroCpu.Mn1613

section Words

/-- `0b00100`-style words of an opcode, a register, a skip condition and a tail. -/
def op5 (op ddd skip tail : Int) : Int :=
  lor (lor (lor (shl (land op 0x1f) 11) (shl (land ddd 0x7) 8)) (shl (land skip 0xf) 4))
    (land tail 0xf)

/-- `1 b MMM RRR dddddddd` -/
def encodeMem (bit1 mmm rrr d8 : Int) : Int :=
  lor (lor (lor (lor (shl 1 15) (shl (land bit1 1) 14)) (shl (land mmm 0x7) 11))
    (shl (land rrr 0x7) 8)) (land d8 0xff)

end Words

def expectArgs (line : ParsedLine) (nMin nMax : Nat) : Except String Unit :=
  if line.args.length < nMin ∨ line.args.length > nMax then
    .error ("Line " ++ Nat.repr line.lineNo ++ ": " ++ line.op.getD "undefined" ++ " expects " ++
      Nat.repr nMin ++ (if nMax ≠ nMin then "-" ++ Nat.repr nMax else "") ++ " args")
  else .ok ()

section Families

variable (line : ParsedLine) (pcWord : Int) (symbols : SymbolTable) (allowUndefined : Bool)

/-- The effective address from operand `i` on, which may be split at a comma. -/
def eaString (i : Nat) : String :=
  if line.args.length = i + 2 then line.arg i ++ ", " ++ line.arg (i + 1) else line.arg i

/-- L and ST -/
def encodeLoadStore (bit1 : Int) : Except String (List Int) := do
  expectArgs line 2 3
  let r ← parseReg (line.arg 0) false
  let ea ← parseEA symbols allowUndefined (eaString line 1) pcWord
  return [encodeMem bit1 ea.mmm r ea.d8]

/-- B, BAL, IMS and DMS -/
def encodeMemoryOnly (bit1 rrr : Int) : Except String (List Int) := do
  expectArgs line 1 2
  let ea ← parseEA symbols allowUndefined (eaString line 0) pcWord
  return [encodeMem bit1 ea.mmm rrr ea.d8]

/-- Two registers and a skip condition. -/
def encodeRegisters (opcode bit3 : Int) : Except String (List Int) := do
  expectArgs line 2 3
  let rd ← parseReg (line.arg 0) true
  let rs ← parseReg (line.arg 1) true
  let skip ← parseSkip line.args[2]?
  return [op5 opcode rd skip (lor bit3 rs)]

/-- SR and SL -/
def encodeShift (tailBase : Int) : Except String (List Int) := do
  expectArgs line 1 3
  let r ← parseReg (line.arg 0) true
  let (em, skip) : Int × Int ←
    match line.args with
    | [_, a] =>
        match SKIP_MAP.lookup (toUpperCase a) with
        | some maybeSkip => pure (0, maybeSkip)
        | none => do pure (← parseEm (some a), 0)
    | [_, a, b] => do
        let em ← parseEm (some a)
        pure (em, ← parseSkip (some b))
    | _ => pure (0, 0)
  return [land (lor (lor (lor (shl 4 11) (shl r 8)) (shl skip 4)) (lor tailBase em)) 0xffff]

/-- SBIT, RBIT and TBIT -/
def encodeBit (opcode : Int) : Except String (List Int) := do
  expectArgs line 2 3
  let r ← parseReg (line.arg 0) true
  let i4 ← parseImm4 symbols allowUndefined (line.arg 1)
  let skip ← parseSkip line.args[2]?
  return [land (lor (lor (lor (shl opcode 11) (shl r 8)) (shl skip 4)) i4) 0xffff]

/-- AI and SI, with the expansion of large immediates -/
def encodeAiSi (opcode : Int) : Except String (List Int) := do
  expectArgs line 2 3
  let r ← parseReg (line.arg 0) true
  let skip ← parseSkip line.args[2]?
  let base := lor (lor (shl opcode 11) (shl r 8)) (shl skip 4)
  match ← splitAiSiImm4Chunks symbols allowUndefined line with
  | some chunks => return chunks.map fun i4 => land (lor base i4) 0xffff
  | none =>
      let i4 ← parseImm4 symbols allowUndefined (line.arg 1)
      return [land (lor base i4) 0xffff]

def encodeLpsw : Except String (List Int) := do
  expectArgs line 1 1
  let level ← forbidImmHash (line.arg 0) "LPSW level"
  let ll ← u2 (← evalExpr level symbols allowUndefined) "LPSW level"
  return [land (lor (lor (shl 4 11) 0x04) ll) 0xffff]

/-- An operation without operands. -/
def encodeFixed (word : Int) : Except String (List Int) := do
  expectArgs line 0 0
  return [word]

/-- PUSH and POP -/
def encodeStack (tail : Int) : Except String (List Int) := do
  expectArgs line 1 1
  let r ← parseReg (line.arg 0) true
  return [land (lor (lor (shl 4 11) (shl r 8)) tail) 0xffff]

/-- RD and WT -/
def encodeIo (opcode : Int) : Except String (List Int) := do
  expectArgs line 2 2
  let r ← parseReg (line.arg 0) true
  let port ← parseIoAddr8 symbols allowUndefined (line.arg 1)
  return [land (lor (lor (shl opcode 11) (shl r 8)) port) 0xffff]

def encodeMvi : Except String (List Int) := do
  expectArgs line 2 2
  let r ← parseReg (line.arg 0) true
  let imm ← parseImm8 symbols allowUndefined (line.arg 1)
  return [land (lor (lor (shl 1 11) (shl r 8)) imm) 0xffff]

/-- LD and STD -/
def encodeLong (bit6 : Int) : Except String (List Int) := do
  expectArgs line 2 3
  let rrr ← parseReg (line.arg 0) false
  let (bb, ad16) : Int × Int ←
    if line.args.length = 2 then do
      match ← parseAddrWithBB (line.arg 1) with
      | some (bb, addr) => pure (bb, ← parseImm16 symbols allowUndefined addr)
      | none => pure (0, ← parseImm16 symbols allowUndefined (line.arg 1))
    else do
      let bb ← parseBB (line.arg 1)
      pure (bb, ← parseImm16 symbols allowUndefined (line.arg 2))
  return [lor (lor (lor (lor 0x2700 bit6) (shl bb 4)) 0x08) rrr, ad16]

/-- LR and STR -/
def encodeLRSTR (indirBit : Int) : Except String (List Int) := do
  expectArgs line 2 3
  let rrr ← parseReg (line.arg 0) true
  let (bb, indir) : Int × IndirectReg ←
    if line.args.length = 2 then do pure (0, ← parseIndirect (line.arg 1))
    else do
      let bb ← parseBB (line.arg 1)
      pure (bb, ← parseIndirect (line.arg 2))
  return [lor (lor (lor (lor (lor (shl 4 11) (shl rrr 8)) (shl indir.mm 6)) (shl bb 4)) indirBit)
    indir.ii]

/-- `encodeRindirect` behind `expectArgs(line, 2, 3)`, with pointer and skip as operands 1 and 2 -/
def encodeRindirect (opcode5 tailBase : Int) : Except String (List Int) := do
  expectArgs line 2 3
  let indir ← parseIndirect (line.arg 1)
  let skip ←
    match line.args[2]? with
    | some token => parseSkip (some token)
    | none => pure 0
  return [op5 opcode5 7 skip (lor tailBase indir.ii)]

/-- A register and a 16-bit immediate. -/
def encodeImmediate (opcode tail : Int) : Except String (List Int) := do
  expectArgs line 2 3
  let rd ← parseReg (line.arg 0) true
  let skip ← parseSkip line.args[2]?
  let im16 ← parseImm16Value symbols allowUndefined (line.arg 1)
  return [op5 opcode rd skip tail, im16]

def encodeNeg : Except String (List Int) := do
  expectArgs line 1 3
  let rd ← parseReg (line.arg 0) true
  let (c, skip) ← parseCarrySkip line.args 1
  return [lor (lor (lor (lor (shl 3 11) (shl 7 8)) (shl skip 4)) (shl c 3)) rd]

/-- AD and SD -/
def encodeDoubleWord (opcode : Int) : Except String (List Int) := do
  expectArgs line 2 4
  requireDr0 (line.arg 0)
  let ii ← parseDr0MemRi (line.arg 1)
  let (c, skip) ← parseCarrySkip line.args 2
  return [op5 opcode 7 skip (lor (lor (shl c 3) 0x04) ii)]

/-- M and D -/
def encodeMulDiv (opcode : Int) : Except String (List Int) := do
  expectArgs line 2 3
  requireDr0 (line.arg 0)
  let ii ← parseDr0MemRi (line.arg 1)
  let skip ←
    match line.args[2]? with
    | some token => parseSkip (some token)
    | none => pure 0
  return [op5 opcode 7 skip (lor 0x0c ii)]

/-- DAA and DAS -/
def encodeDecimal (opcode : Int) : Except String (List Int) := do
  expectArgs line 2 4
  let indir ← parseIndirect (line.arg 1)
  let (c, skip) ← parseCarrySkip line.args 2
  return [op5 opcode 7 skip (lor (lor (shl c 3) 0x04) indir.ii)]

/-- FIX and FLT -/
def encodeConvert (tail : Int) : Except String (List Int) := do
  expectArgs line 2 3
  let skip ← parseSkip line.args[2]?
  return [lor (lor (lor (shl 3 11) (shl 7 8)) (shl skip 4)) tail]

/-- BD, BL, BALD and BALL -/
def encodeFar (word : Int) : Except String (List Int) := do
  expectArgs line 1 1
  return [word, ← parseImm16 symbols allowUndefined (line.arg 0)]

/-- BR and BALR -/
def encodeBranchPointer (tail : Int) : Except String (List Int) := do
  expectArgs line 1 1
  let indir ← parseIndirect (line.arg 0)
  return [lor (lor (lor (shl 4 11) (shl 7 8)) tail) indir.ii]

/-- TSET and TRST -/
def encodeTest (bit3 : Int) : Except String (List Int) := do
  expectArgs line 2 3
  let rs ← parseReg (line.arg 0) true
  let skip ← parseSkip line.args[2]?
  let ad16 ← parseImm16 symbols allowUndefined (line.arg 1)
  return [lor (lor (lor (lor (shl 2 11) (shl 7 8)) (shl skip 4)) bit3) rs, ad16]

/-- SRBT and DEBP, with the register as operand `i` -/
def encodeBitNumber (word : Int) (i : Nat) : Except String (List Int) := do
  expectArgs line 2 2
  let r ← parseReg (line.arg i) true
  return [lor word r]

/-- RDR and WTR -/
def encodeIoPointer (tail : Int) : Except String (List Int) := do
  expectArgs line 2 2
  let r ← parseReg (line.arg 0) true
  let indir ← parseIndirect (line.arg 1)
  return [lor (lor (lor (shl 4 11) (shl r 8)) tail) indir.ii]

/-- LB, LS, STB and STS -/
def encodeSpecialMemory (bit7 tail : Int) (parse : String → Except String Int) :
    Except String (List Int) := do
  expectArgs line 2 2
  let code ← parse (line.arg 0)
  return [lor (lor (lor 0x0f00 bit7) (shl code 4)) tail,
    ← parseImm16 symbols allowUndefined (line.arg 1)]

/-- CPYB, CPYS, CPYH, SETB, SETS and SETH -/
def encodeSpecialCopy (op form writeOp : String) (map : List (String × Int))
    (base bit7 bit3 : Int) (parse : String → Except String Int) : Except String (List Int) := do
  expectArgs line 2 2
  rejectCopySetOrder op form writeOp map line.args
  let r ← parseReg (line.arg 0) true
  let code ← parse (line.arg 1)
  return [lor (lor (lor (lor base bit7) (shl code 4)) bit3) r]

end Families

/-- The words of an operation. -/
def encodeMnemonic (m : Mnemonic) (line : ParsedLine) (pcWord : Int) (symbols : SymbolTable)
    (allowUndefined : Bool) : Except String (List Int) :=
  match m with
  | .L => encodeLoadStore line pcWord symbols allowUndefined 1
  | .ST => encodeLoadStore line pcWord symbols allowUndefined 0
  | .B => encodeMemoryOnly line pcWord symbols allowUndefined 1 7
  | .BAL => encodeMemoryOnly line pcWord symbols allowUndefined 0 7
  | .IMS => encodeMemoryOnly line pcWord symbols allowUndefined 1 6
  | .DMS => encodeMemoryOnly line pcWord symbols allowUndefined 0 6
  | .A => encodeRegisters line 0x0b 8
  | .S => encodeRegisters line 0x0b 0
  | .C => encodeRegisters line 0x0a 8
  | .CB => encodeRegisters line 0x0a 0
  | .MV => encodeRegisters line 0x0f 8
  | .MVB => encodeRegisters line 0x0f 0
  | .BSWP => encodeRegisters line 0x0e 8
  | .DSWP => encodeRegisters line 0x0e 0
  | .LAD => encodeRegisters line 0x0d 0
  | .AND => encodeRegisters line 0x0d 8
  | .OR => encodeRegisters line 0x0c 8
  | .EOR => encodeRegisters line 0x0c 0
  | .SR => encodeShift line 8
  | .SL => encodeShift line 12
  | .SBIT => encodeBit line symbols allowUndefined 7
  | .RBIT => encodeBit line symbols allowUndefined 6
  | .TBIT => encodeBit line symbols allowUndefined 5
  | .AI => encodeAiSi line symbols allowUndefined 9
  | .SI => encodeAiSi line symbols allowUndefined 8
  | .LPSW => encodeLpsw line symbols allowUndefined
  | .H => encodeFixed line 0x2000
  | .PUSH => encodeStack line 1
  | .POP => encodeStack line 2
  | .RET => encodeFixed line 0x2003
  | .RD => encodeIo line symbols allowUndefined 3
  | .WT => encodeIo line symbols allowUndefined 2
  | .MVI => encodeMvi line symbols allowUndefined
  | .LD => encodeLong line symbols allowUndefined 0
  | .STD => encodeLong line symbols allowUndefined 0x40
  | .LR => encodeLRSTR line 0
  | .STR => encodeLRSTR line 4
  | .MVWR => encodeRindirect line 0x0f 8
  | .MVWI => encodeImmediate line symbols allowUndefined 0x0f 7
  | .MVBR => encodeRindirect line 0x0f 0
  | .BSWR => encodeRindirect line 0x0e 8
  | .DSWR => encodeRindirect line 0x0e 0
  | .PSHM => encodeFixed line 0x170f
  | .POPM => encodeFixed line 0x1707
  | .AWR => encodeRindirect line 0x0b 8
  | .AWI => encodeImmediate line symbols allowUndefined 0x0b 0x0f
  | .SWR => encodeRindirect line 0x0b 0
  | .SWI => encodeImmediate line symbols allowUndefined 0x0b 7
  | .CWR => encodeRindirect line 0x0a 8
  | .CWI => encodeImmediate line symbols allowUndefined 0x0a 0x0f
  | .CBR => encodeRindirect line 0x0a 0
  | .CBI => encodeImmediate line symbols allowUndefined 0x0a 7
  | .NEG => encodeNeg line
  | .AD => encodeDoubleWord line 9
  | .SD => encodeDoubleWord line 8
  | .M => encodeMulDiv line 0x0f
  | .D => encodeMulDiv line 0x0e
  | .DAA => encodeDecimal line 0x0b
  | .DAS => encodeDecimal line 0x0a
  | .LADR => encodeRindirect line 0x0d 0
  | .LADI => encodeImmediate line symbols allowUndefined 0x0d 7
  | .ANDR => encodeRindirect line 0x0d 8
  | .ANDI => encodeImmediate line symbols allowUndefined 0x0d 0x0f
  | .ORR => encodeRindirect line 0x0c 8
  | .ORI => encodeImmediate line symbols allowUndefined 0x0c 0x0f
  | .EORR => encodeRindirect line 0x0c 0
  | .EORI => encodeImmediate line symbols allowUndefined 0x0c 7
  | .FA => encodeRindirect line 0x0d 0x0c
  | .FS => encodeRindirect line 0x0d 4
  | .FM => encodeRindirect line 0x0c 0x0c
  | .FD => encodeRindirect line 0x0c 4
  | .FIX => encodeConvert line 4
  | .FLT => encodeConvert line 0x0c
  | .BD => encodeFar line symbols allowUndefined 0x2607
  | .BL => encodeFar line symbols allowUndefined 0x270f
  | .BR => encodeBranchPointer line 4
  | .BALD => encodeFar line symbols allowUndefined 0x2617
  | .BALL => encodeFar line symbols allowUndefined 0x271f
  | .BALR => encodeBranchPointer line 0x14
  | .RETL => encodeFixed line 0x3f07
  | .TSET => encodeTest line symbols allowUndefined 8
  | .TRST => encodeTest line symbols allowUndefined 0
  | .SRBT => encodeBitNumber line 0x3f70 1
  | .DEBP => encodeBitNumber line 0x3ff0 0
  | .BLK => encodeFixed line 0x3f17
  | .RDR => encodeIoPointer line 0x14
  | .WTR => encodeIoPointer line 0x10
  | .LB => encodeSpecialMemory line symbols allowUndefined 0 7 (parseBBB · false)
  | .LS => encodeSpecialMemory line symbols allowUndefined 0 0x0f parsePPP
  | .STB => encodeSpecialMemory line symbols allowUndefined 0x80 7 (parseBBB · true)
  | .STS => encodeSpecialMemory line symbols allowUndefined 0x80 0x0f parsePPP
  | .CPYB => encodeSpecialCopy line "CPYB" "Rd, BRs" "SETB" BBB_MAP 0x0f00 0x80 0 (parseBBB · false)
  | .CPYS => encodeSpecialCopy line "CPYS" "Rd, SRs" "SETS" PPP_MAP 0x0f00 0x80 8 parsePPP
  | .CPYH => encodeSpecialCopy line "CPYH" "Rd, HRs" "SETH" HHH_MAP 0x3f00 0x80 0 parseHHH
  | .SETB => encodeSpecialCopy line "SETB" "Rs, BRd" "SETB" BBB_MAP 0x0f00 0 0 (parseBBB · true)
  | .SETS => encodeSpecialCopy line "SETS" "Rs, SRd" "SETS" PPP_MAP 0x0f00 0 8 parsePPP
  | .SETH => encodeSpecialCopy line "SETH" "Rs, HRd" "SETH" HHH_MAP 0x3f00 0 0 parseHHH
  | .dotWord =>
      .error ("Line " ++ Nat.repr line.lineNo ++ ": Unsupported opcode '" ++
        line.op.getD "undefined" ++ "'")

/-- The operation that a line names. -/
def lineMnemonic (line : ParsedLine) : Option Mnemonic :=
  line.op.bind fun op => Mnemonic.ofName (toUpperCase op)

/-- `encodeInstruction` -/
def encodeInstruction (line : ParsedLine) (pcWord : Int) (symbols : SymbolTable)
    (allowUndefined : Bool) : Except String (List Int) :=
  match line.op with
  | none | some "" => .error ("Line " ++ Nat.repr line.lineNo ++ ": missing opcode")
  | some _ =>
      encodeMnemonic ((lineMnemonic line).getD .dotWord) line pcWord symbols allowUndefined

end Mn1613
end AsmTs
end RetroCpu
