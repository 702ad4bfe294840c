import RetroCpu.AsmRs.Assembler
import RetroCpu.AsmTs.Mn1613Encoder

/-!
# The MN1613 encoder of the Rust assembler (`mn1613/mn1613_encoder.rs`)

The tables of names hold the same entries as those of the TypeScript encoder, which are
used here.  Families of operations share a definition, as there.
-/

namespace RetroCpu
namespace AsmRs
namespace Mn1613

open AsmTs (ParsedLine)
open AsmTs.Mn1613 (REG_MAP SKIP_MAP EM_MAP BB_MAP BBB_MAP PPP_MAP HHH_MAP II_MAP TWO_WORD_OPS)
open RetroCpu.Mn1613 (Mnemonic)

section Ranges

/-- A value of a range, cut to the bits of `mask`. -/
def ranged (lo hi : Int) (mask : Word) (range : String) (v : Int) (what : String) :
    Except Failure Word :=
  if v < lo ∨ v > hi then fail (what ++ " out of " ++ range ++ " range: " ++ Int.repr v)
  else .ok (BitVec.ofInt 16 v &&& mask)

def u8v (v : Int) (what : String) : Except Failure Word := ranged 0 0xff 0xff "8-bit" v what

def u4 (v : Int) (what : String) : Except Failure Word := ranged 0 0x0f 0x0f "4-bit" v what

def u2 (v : Int) (what : String) : Except Failure Word := ranged 0 0x03 0x03 "2-bit" v what

def s8 (v : Int) (what : String) : Except Failure Word :=
  ranged (-128) 127 0xff "signed 8-bit" v what

def u16 (v : Int) (what : String) : Except Failure Word :=
  ranged (-0x8000) 0xffff 0xffff "16-bit" v what

end Ranges

section Registers

/-- `is_two_word_op` -/
def isTwoWordOp (op : String) : Bool := TWO_WORD_OPS.contains (toAsciiUppercase op)

/-- A lookup that fails with a message. -/
def parseName (map : List (String × Int)) (token message : String) : Except Failure Word :=
  match map.lookup (toAsciiUppercase (trim token)) with
  | some v => .ok (BitVec.ofInt 16 v)
  | none => fail message

def parseReg (token : String) (allowStr : Bool) : Except Failure Word := do
  let reg ← parseName REG_MAP token ("Unknown register: " ++ token)
  if !allowStr ∧ reg = 6 then fail ("STR is not allowed here: " ++ token) else return reg

def parseSkip (token : Option String) : Except Failure Word :=
  parseName SKIP_MAP (token.getD "") ("Unknown skip condition: " ++ token.getD "")

def parseEm (token : String) : Except Failure Word :=
  parseName EM_MAP token ("Unknown EM operation: " ++ token)

def parseBb (token : String) : Except Failure Word :=
  parseName BB_MAP token ("Unknown base register: " ++ token)

def parseBbb (token : String) (forWrite : Bool) : Except Failure Word := do
  let v ← parseName BBB_MAP token ("Unknown base register: " ++ token)
  if forWrite ∧ v = 0 then fail "CSBR cannot be written directly" else return v

def parsePpp (token : String) : Except Failure Word :=
  parseName PPP_MAP token ("Unknown special register: " ++ token)

def parseHhh (token : String) : Except Failure Word :=
  parseName HHH_MAP token ("Unknown hardware register: " ++ token)

/-- `parse_carry_skip` -/
def parseCarrySkip (args : List String) (startIdx : Nat) : Except Failure (Word × Word) := do
  let rest := args.drop startIdx
  let (c, rest) : Word × List String :=
    match rest with
    | token :: rest' => if toAsciiUppercase (trim token) = "C" then (0, rest') else (1, rest)
    | [] => (1, [])
  match rest with
  | token :: _ => return (c, ← parseSkip (some token))
  | [] => return (c, 0)

structure IndirectReg where
  ii : Word
  mm : Word
deriving DecidableEq, Repr

/-- The text between a front and an end. -/
def between (front back : List Char) (cs : List Char) : Option (List Char) :=
  if cs.take front.length = front ∧ front.length + back.length ≤ cs.length ∧
      cs.drop (cs.length - back.length) = back then
    some ((cs.drop front.length).take (cs.length - front.length - back.length))
  else none

/-- `parse_indirect` -/
def parseIndirect (arg : String) : Except Failure IndirectReg :=
  let up := (toAsciiUppercase (trim arg)).toList
  let register (body : List Char) (mm : Word) : Except Failure IndirectReg := do
    return ⟨← parseName II_MAP (String.ofList body) ("Invalid indirect register: " ++ arg), mm⟩
  match between ['-', '('] [')'] up with
  | some body => register body 2
  | none =>
  match between ['('] [')', '+'] up with
  | some body => register body 3
  | none =>
  match between ['@', '('] [')'] up <|> between ['('] [')'] up with
  | some body =>
      if body.isEmpty then fail ("Invalid indirect operand: " ++ arg) else register body 1
  | none => fail ("Invalid indirect operand: " ++ arg)

def requireDr0 (arg : String) : Except Failure Unit :=
  if toAsciiUppercase (trim arg) ≠ "DR0" then
    fail ("First operand must be DR0 (got '" ++ arg ++ "')")
  else .ok ()

def parseDr0MemRi (arg : String) : Except Failure Word := do
  let indir ← parseIndirect arg
  if indir.mm ≠ 1 then fail ("Second operand must be (R1)-(R4) (got '" ++ arg ++ "')")
  else return indir.ii

end Registers

section Values

variable (symbols : SymbolTable) (allowUndefined : Bool)

def requireImmHash (arg what : String) : Except Failure String :=
  match (trim arg).toList with
  | '#' :: rest => .ok (trim (String.ofList rest))
  | _ => fail (what ++ ": immediate operand requires '#' (got '" ++ arg ++ "')")

def forbidImmHash (arg what : String) : Except Failure String :=
  let t := trim arg
  if t.toList.head? = some '#' then fail (what ++ " must not use '#' (got '" ++ arg ++ "')")
  else .ok t

def parseImm4 (arg : String) : Except Failure Word := do
  u4 (← evalExpr symbols allowUndefined (← requireImmHash arg "I4")) "I4"

/-- The loop of `split_ai_si_imm4_chunks`. -/
def chunkLoop : Nat → Nat → List Word
  | 0, _ => []
  | fuel + 1, remain =>
      if remain > 0 then
        let step := min remain 0x0f
        BitVec.ofNat 16 step :: chunkLoop fuel (remain - step)
      else []

/-- `split_ai_si_imm4_chunks` -/
def splitAiSiImm4Chunks (line : ParsedLine) : Except Failure (Option (List Word)) :=
  let op := operation line
  if op ≠ some "AI" ∧ op ≠ some "SI" then .ok none
  else if line.args.length ≠ 2 then .ok none
  else do
    let imm ← evalExpr symbols allowUndefined (← requireImmHash (line.arg 1) "I4")
    if imm < 0 then fail ("I4 out of 4-bit range: " ++ Int.repr imm)
    else if imm ≤ 0x0f then return some [BitVec.ofInt 16 imm]
    else return some (chunkLoop imm.toNat imm.toNat)

def parseImm8 (arg : String) : Except Failure Word := do
  u8v (← evalExpr symbols allowUndefined (← requireImmHash arg "I8")) "I8"

def parseIoAddr8 (arg : String) : Except Failure Word := do
  let t := trim arg
  let s :=
    match t.toList with
    | '#' :: rest => String.ofList rest
    | _ => t
  u8v (← evalExpr symbols allowUndefined s) "I8"

def parseImm16Value (arg : String) : Except Failure Word := do
  u16 (← evalExpr symbols allowUndefined (← requireImmHash arg "IM16")) "IM16"

/-- `strip_addr_decorators` -/
def stripAddrDecorators (arg : String) : Except Failure String :=
  let t := trim arg
  if t.toList.head? = some '#' then
    fail ("address operand must not use '#' (got '" ++ arg ++ "')")
  else
    let t := stripMark '@' t
    .ok (if wrappedIn '(' ')' t || wrappedIn '[' ']' t then trim (innerText t) else t)

def parseImm16 (arg : String) : Except Failure Word := do
  evalWord (← stripAddrDecorators arg) symbols allowUndefined

/-- `parse_addr_with_bb` -/
def parseAddrWithBb (arg : String) : Option (Word × String) :=
  let t := (trim arg).toList
  let up := t.map Char.toUpper
  BB_MAP.findSome? fun entry =>
    let suffix := ("(" ++ entry.1 ++ ")").toList
    (between [] suffix up).map fun addr =>
      (BitVec.ofInt 16 entry.2, trim (String.ofList (t.take addr.length)))

end Values

section EffectiveAddress

variable (symbols : SymbolTable) (allowUndefined : Bool)

structure EaMode where
  mmm : Word
  d8 : Word
deriving DecidableEq, Repr

def endsWith (cs back : List Char) : Bool := back.isSuffixOf cs

/-- The text before the first `pq`. -/
def before (p q : Char) : List Char → Option (List Char)
  | c :: d :: cs =>
      if c = p ∧ d = q then some []
      else (before p q (d :: cs)).map (c :: ·)
  | _ => none

/-- The text before the last `c`. -/
def beforeLast (c : Char) (cs : List Char) : List Char :=
  ((cs.reverse.dropWhile (· ≠ c)).drop 1).reverse

/-- The text after the last `c`. -/
def afterLast (c : Char) (cs : List Char) : List Char := (cs.reverse.takeWhile (· ≠ c)).reverse

/-- A displacement from 0 to 255. -/
def absoluteMode (expr : List Char) (mmm : Word) : Except Failure EaMode := do
  let v ← evalExpr symbols allowUndefined (trim (String.ofList expr))
  return ⟨mmm, ← u8v v "EA"⟩

/-- A displacement from the instruction. -/
def relativeMode (label : String) (pcWord mmm : Word) : Except Failure EaMode := do
  let v ← evalExpr symbols allowUndefined label
  let rel ← checked (v - pcWord.toNat)
  return ⟨mmm, ← s8 rel "EA relative"⟩

/-- The base register of `expr(X0)` and `expr(X1)`. -/
def indexBase (t : List Char) : Option Word :=
  if '(' ∈ t ∧ t.getLast? = some ')' then
    match toAsciiUppercase (trim (String.ofList (afterLast '(' t).dropLast)) with
    | "X0" => some 4
    | "X1" => some 5
    | _ => none
  else none

/-- The forms of `parse_ea` without an index register. -/
def parseEaPlain (t : List Char) (pcWord : Word) : Except Failure EaMode :=
  match between ['(', '*'] [')'] t <|> between ['[', '*'] [']'] t with
  | some body => absoluteMode symbols allowUndefined body 2
  | none =>
  match between ['('] [')'] t <|> between ['['] [']'] t with
  | some body => relativeMode symbols allowUndefined (trim (String.ofList body)) pcWord 3
  | none =>
      match t with
      | '*' :: rest => absoluteMode symbols allowUndefined rest 0
      | _ => relativeMode symbols allowUndefined (String.ofList t) pcWord 1

/-- `parse_ea` -/
def parseEa (arg : String) (pcWord : Word) : Except Failure EaMode :=
  let t := (trim arg).toList
  let up := t.map Char.toUpper
  if t.take 2 = ['(', '*'] ∧ (before ')' '(' t).isSome then
    if endsWith up "(X0)".toList then
      absoluteMode symbols allowUndefined (((before ')' '(' t).getD []).drop 2) 6
    else if endsWith up "(X1)".toList then
      absoluteMode symbols allowUndefined (((before ')' '(' t).getD []).drop 2) 7
    else fail ("Invalid indexed indirect EA: " ++ arg)
  else if t.take 2 = ['[', '*'] ∧ endsWith up "], X0".toList then
    absoluteMode symbols allowUndefined ((beforeLast ',' t).drop 2).dropLast 6
  else if t.take 2 = ['[', '*'] ∧ endsWith up "], X1".toList then
    absoluteMode symbols allowUndefined ((beforeLast ',' t).drop 2).dropLast 7
  else if endsWith up ", X0".toList then
    absoluteMode symbols allowUndefined (beforeLast ',' t) 4
  else if endsWith up ", X1".toList then
    absoluteMode symbols allowUndefined (beforeLast ',' t) 5
  else
    match indexBase t with
    | some mmm => absoluteMode symbols allowUndefined (beforeLast '(' t) mmm
    | none => parseEaPlain symbols allowUndefined t pcWord

example : parseEa .empty false "(* 5 + 1)(x1)" 0 = .ok ⟨7, 6⟩ := by decide +kernel

end EffectiveAddress

section Families

variable (line : ParsedLine) (pcWord : Word) (symbols : SymbolTable) (allowUndefined : Bool)

def op5 (op ddd skip tail : Word) : Word :=
  ((op &&& 0x1f) <<< 11) ||| ((ddd &&& 0x7) <<< 8) ||| ((skip &&& 0xf) <<< 4) ||| (tail &&& 0xf)

/-- `1 b MMM RRR dddddddd` -/
def encodeMem (bit1 mmm rrr d8 : Word) : Word :=
  (1 <<< 15) ||| ((bit1 &&& 1) <<< 14) ||| ((mmm &&& 0x7) <<< 11) ||| ((rrr &&& 0x7) <<< 8) |||
    (d8 &&& 0xff)

def expectArgs (nMin nMax : Nat) : Except Failure Unit :=
  if line.args.length < nMin ∨ line.args.length > nMax then
    fail ("Line " ++ Nat.repr line.lineNo ++ ": " ++ line.op.getD "" ++ " expects " ++
      Nat.repr nMin ++ (if nMin ≠ nMax then "-" ++ Nat.repr nMax else "") ++ " args")
  else .ok ()

/-- The effective address from operand `i` on, which may be split at a comma. -/
def eaString (i : Nat) : String :=
  if line.args.length = i + 2 then line.arg i ++ ", " ++ line.arg (i + 1) else line.arg i

/-- L and ST; the register is read before the operands are counted. -/
def encodeLoadStore (bit1 : Word) : Except Failure (List Word) :=
  match line.args with
  | [] => .error .panic
  | token :: _ => do
      let r ← parseReg token false
      expectArgs line 2 3
      let ea ← parseEa symbols allowUndefined (eaString line 1) pcWord
      return [encodeMem bit1 ea.mmm r ea.d8]

/-- B, BAL, IMS and DMS -/
def encodeMemoryOnly (bit1 rrr : Word) : Except Failure (List Word) := do
  expectArgs line 1 2
  let ea ← parseEa symbols allowUndefined (eaString line 0) pcWord
  return [encodeMem bit1 ea.mmm rrr ea.d8]

/-- Two registers and a skip condition. -/
def encodeRegisters (opcode bit3 : Word) : Except Failure (List Word) := do
  expectArgs line 2 3
  let rd ← parseReg (line.arg 0) true
  let rs ← parseReg (line.arg 1) true
  let skip ← parseSkip line.args[2]?
  return [op5 opcode rd skip (bit3 ||| rs)]

/-- The operation on E and the skip condition of SR and SL. -/
def shiftModifiers : Except Failure (Word × Word) :=
  match line.args with
  | [_, a] =>
      match parseSkip (some a) with
      | .ok skip => .ok (0, skip)
      | .error _ => do return (← parseEm a, 0)
  | [_, a, b] => do
      let em ← parseEm a
      return (em, ← parseSkip (some b))
  | _ => .ok (0, 0)

/-- SR and SL -/
def encodeShift (tailBase : Word) : Except Failure (List Word) := do
  expectArgs line 1 3
  let r ← parseReg (line.arg 0) true
  let (em, skip) ← shiftModifiers line
  return [(4 <<< 11) ||| (r <<< 8) ||| (skip <<< 4) ||| (tailBase ||| em)]

/-- SBIT, RBIT and TBIT -/
def encodeBit (opcode : Word) : Except Failure (List Word) := do
  expectArgs line 2 3
  let r ← parseReg (line.arg 0) true
  let i4 ← parseImm4 symbols allowUndefined (line.arg 1)
  let skip ← parseSkip line.args[2]?
  return [(opcode <<< 11) ||| (r <<< 8) ||| (skip <<< 4) ||| i4]

/-- AI and SI, with the expansion of large immediates -/
def encodeAiSi (opcode : Word) : Except Failure (List Word) := do
  expectArgs line 2 3
  let r ← parseReg (line.arg 0) true
  let skip ← parseSkip line.args[2]?
  let base := (opcode <<< 11) ||| (r <<< 8) ||| (skip <<< 4)
  match ← splitAiSiImm4Chunks symbols allowUndefined line with
  | some chunks => return chunks.map fun i4 => base ||| i4
  | none => do
      let i4 ← parseImm4 symbols allowUndefined (line.arg 1)
      return [base ||| i4]

def encodeLpsw : Except Failure (List Word) := do
  expectArgs line 1 1
  let level ← forbidImmHash (line.arg 0) "LPSW level"
  let ll ← u2 (← evalExpr symbols allowUndefined level) "LPSW level"
  return [(4 <<< 11) ||| 0x04 ||| ll]

/-- An operation without operands. -/
def encodeFixed (word : Word) : Except Failure (List Word) := do
  expectArgs line 0 0
  return [word]

/-- PUSH and POP -/
def encodeStack (tail : Word) : Except Failure (List Word) := do
  expectArgs line 1 1
  let r ← parseReg (line.arg 0) true
  return [(4 <<< 11) ||| (r <<< 8) ||| tail]

/-- RD and WT -/
def encodeIo (opcode : Word) : Except Failure (List Word) := do
  expectArgs line 2 2
  let r ← parseReg (line.arg 0) true
  let port ← parseIoAddr8 symbols allowUndefined (line.arg 1)
  return [(opcode <<< 11) ||| (r <<< 8) ||| port]

def encodeMvi : Except Failure (List Word) := do
  expectArgs line 2 2
  let r ← parseReg (line.arg 0) true
  let imm ← parseImm8 symbols allowUndefined (line.arg 1)
  return [(1 <<< 11) ||| (r <<< 8) ||| imm]

/-- The base register and the address of LD and STD. -/
def longAddress : Except Failure (Word × Word) :=
  if line.args.length = 2 then
    match parseAddrWithBb (line.arg 1) with
    | some (bb, addr) => do return (bb, ← parseImm16 symbols allowUndefined addr)
    | none => do return (0, ← parseImm16 symbols allowUndefined (line.arg 1))
  else do
    let bb ← parseBb (line.arg 1)
    return (bb, ← parseImm16 symbols allowUndefined (line.arg 2))

/-- LD and STD -/
def encodeLong (bit6 : Word) : Except Failure (List Word) := do
  expectArgs line 2 3
  let r ← parseReg (line.arg 0) false
  let (bb, ad16) ← longAddress line symbols allowUndefined
  return [0x2700 ||| bit6 ||| (bb <<< 4) ||| 0x08 ||| r, ad16]

/-- The base register and the pointer of LR and STR. -/
def pointerOperand : Except Failure (Word × IndirectReg) :=
  if line.args.length = 2 then do return (0, ← parseIndirect (line.arg 1))
  else do
    let bb ← parseBb (line.arg 1)
    return (bb, ← parseIndirect (line.arg 2))

/-- `encode_lrstr` -/
def encodeLrstr (indirBit : Word) : Except Failure (List Word) := do
  expectArgs line 2 3
  let rrr ← parseReg (line.arg 0) true
  let (bb, indir) ← pointerOperand line
  return [(4 <<< 11) ||| (rrr <<< 8) ||| (indir.mm <<< 6) ||| (bb <<< 4) ||| indirBit ||| indir.ii]

/-- The skip condition as operand 2, if there is one. -/
def skipOperand : Except Failure Word :=
  match line.args[2]? with
  | some token => parseSkip (some token)
  | none => .ok 0

/-- `encode_rindirect` behind `expect_args(line, 2, 3)`, with pointer and skip as operands 1
and 2 -/
def encodeRindirect (opcode5 tailBase : Word) : Except Failure (List Word) := do
  expectArgs line 2 3
  let indir ← parseIndirect (line.arg 1)
  let skip ← skipOperand line
  return [op5 opcode5 7 skip (tailBase ||| indir.ii)]

/-- A register and a 16-bit immediate. -/
def encodeImmediate (opcode tail : Word) : Except Failure (List Word) := do
  expectArgs line 2 3
  let rd ← parseReg (line.arg 0) true
  let skip ← parseSkip line.args[2]?
  let im16 ← parseImm16Value symbols allowUndefined (line.arg 1)
  return [op5 opcode rd skip tail, im16]

def encodeNeg : Except Failure (List Word) := do
  expectArgs line 1 3
  let rd ← parseReg (line.arg 0) true
  let (c, skip) ← parseCarrySkip line.args 1
  return [(3 <<< 11) ||| (7 <<< 8) ||| (skip <<< 4) ||| (c <<< 3) ||| rd]

/-- AD and SD -/
def encodeDoubleWord (opcode : Word) : Except Failure (List Word) := do
  expectArgs line 2 4
  requireDr0 (line.arg 0)
  let ii ← parseDr0MemRi (line.arg 1)
  let (c, skip) ← parseCarrySkip line.args 2
  return [op5 opcode 7 skip ((c <<< 3) ||| 0x04 ||| ii)]

/-- M and D -/
def encodeMulDiv (opcode : Word) : Except Failure (List Word) := do
  expectArgs line 2 3
  requireDr0 (line.arg 0)
  let ii ← parseDr0MemRi (line.arg 1)
  let skip ← skipOperand line
  return [op5 opcode 7 skip (0x0c ||| ii)]

/-- DAA and DAS -/
def encodeDecimal (opcode : Word) : Except Failure (List Word) := do
  expectArgs line 2 4
  let indir ← parseIndirect (line.arg 1)
  let (c, skip) ← parseCarrySkip line.args 2
  return [op5 opcode 7 skip ((c <<< 3) ||| 0x04 ||| indir.ii)]

/-- FIX and FLT -/
def encodeConvert (tail : Word) : Except Failure (List Word) := do
  expectArgs line 2 3
  let skip ← parseSkip line.args[2]?
  return [(3 <<< 11) ||| (7 <<< 8) ||| (skip <<< 4) ||| tail]

/-- BD, BL, BALD and BALL -/
def encodeFar (word : Word) : Except Failure (List Word) := do
  expectArgs line 1 1
  return [word, ← parseImm16 symbols allowUndefined (line.arg 0)]

/-- BR and BALR -/
def encodeBranchPointer (tail : Word) : Except Failure (List Word) := do
  expectArgs line 1 1
  let indir ← parseIndirect (line.arg 0)
  return [(4 <<< 11) ||| (7 <<< 8) ||| tail ||| indir.ii]

/-- TSET and TRST -/
def encodeTest (bit3 : Word) : Except Failure (List Word) := do
  expectArgs line 2 3
  let rs ← parseReg (line.arg 0) true
  let skip ← parseSkip line.args[2]?
  let ad16 ← parseImm16 symbols allowUndefined (line.arg 1)
  return [(2 <<< 11) ||| (7 <<< 8) ||| (skip <<< 4) ||| (bit3 ||| rs), ad16]

/-- SRBT and DEBP, with the register as operand `i` -/
def encodeBitNumber (word : Word) (i : Nat) : Except Failure (List Word) := do
  expectArgs line 2 2
  let r ← parseReg (line.arg i) true
  return [word ||| r]

/-- RDR and WTR -/
def encodeIoPointer (tail : Word) : Except Failure (List Word) := do
  expectArgs line 2 2
  let r ← parseReg (line.arg 0) true
  let indir ← parseIndirect (line.arg 1)
  return [(4 <<< 11) ||| (r <<< 8) ||| tail ||| indir.ii]

/-- LB, LS, STB and STS -/
def encodeSpecialMemory (bit7 tail : Word) (parse : String → Except Failure Word) :
    Except Failure (List Word) := do
  expectArgs line 2 2
  let code ← parse (line.arg 0)
  return [0x0f00 ||| bit7 ||| (code <<< 4) ||| tail,
    ← parseImm16 symbols allowUndefined (line.arg 1)]

/-- CPYB, CPYS, CPYH, SETB, SETS and SETH -/
def encodeSpecialCopy (base bit7 bit3 : Word) (parse : String → Except Failure Word) :
    Except Failure (List Word) := do
  expectArgs line 2 2
  let r ← parseReg (line.arg 0) true
  let code ← parse (line.arg 1)
  return [base ||| bit7 ||| (code <<< 4) ||| bit3 ||| r]

end Families

/-- The words of an operation. -/
def encodeMnemonic (m : Mnemonic) (line : ParsedLine) (pcWord : Word) (symbols : SymbolTable)
    (allowUndefined : Bool) : Except Failure (List Word) :=
  match m with
  | .L => encodeLoadStore line pcWord symbols allowUndefined 1
  | .ST => encodeLoadStore line pcWord symbols allowUndefined 0
  | .B => encodeMemoryOnly line pcWord symbols allowUndefined 1 7
  | .BAL => encodeMemoryOnly line pcWord symbols allowUndefined 0 7
  | .IMS => encodeMemoryOnly line pcWord symbols allowUndefined 1 6
  | .DMS => encodeMemoryOnly line pcWord symbols allowUndefined 0 6
  | .A => encodeRegisters line 0x0b 8
  | .S => encodeRegisters line 0x0b 0
  | .C => encodeRegisters line 0x0a 8
  | .CB => encodeRegisters line 0x0a 0
  | .MV => encodeRegisters line 0x0f 8
  | .MVB => encodeRegisters line 0x0f 0
  | .BSWP => encodeRegisters line 0x0e 8
  | .DSWP => encodeRegisters line 0x0e 0
  | .LAD => encodeRegisters line 0x0d 0
  | .AND => encodeRegisters line 0x0d 8
  | .OR => encodeRegisters line 0x0c 8
  | .EOR => encodeRegisters line 0x0c 0
  | .SR => encodeShift line 8
  | .SL => encodeShift line 12
  | .SBIT => encodeBit line symbols allowUndefined 7
  | .RBIT => encodeBit line symbols allowUndefined 6
  | .TBIT => encodeBit line symbols allowUndefined 5
  | .AI => encodeAiSi line symbols allowUndefined 9
  | .SI => encodeAiSi line symbols allowUndefined 8
  | .LPSW => encodeLpsw line symbols allowUndefined
  | .H => encodeFixed line 0x2000
  | .PUSH => encodeStack line 1
  | .POP => encodeStack line 2
  | .RET => encodeFixed line 0x2003
  | .RD => encodeIo line symbols allowUndefined 3
  | .WT => encodeIo line symbols allowUndefined 2
  | .MVI => encodeMvi line symbols allowUndefined
  | .LD => encodeLong line symbols allowUndefined 0
  | .STD => encodeLong line symbols allowUndefined 0x40
  | .LR => encodeLrstr line 0
  | .STR => encodeLrstr line 4
  | .MVWR => encodeRindirect line 0x0f 8
  | .MVWI => encodeImmediate line symbols allowUndefined 0x0f 7
  | .MVBR => encodeRindirect line 0x0f 0
  | .BSWR => encodeRindirect line 0x0e 8
  | .DSWR => encodeRindirect line 0x0e 0
  | .PSHM => encodeFixed line 0x170f
  | .POPM => encodeFixed line 0x1707
  | .AWR => encodeRindirect line 0x0b 8
  | .AWI => encodeImmediate line symbols allowUndefined 0x0b 0x0f
  | .SWR => encodeRindirect line 0x0b 0
  | .SWI => encodeImmediate line symbols allowUndefined 0x0b 7
  | .CWR => encodeRindirect line 0x0a 8
  | .CWI => encodeImmediate line symbols allowUndefined 0x0a 0x0f
  | .CBR => encodeRindirect line 0x0a 0
  | .CBI => encodeImmediate line symbols allowUndefined 0x0a 7
  | .NEG => encodeNeg line
  | .AD => encodeDoubleWord line 9
  | .SD => encodeDoubleWord line 8
  | .M => encodeMulDiv line 0x0f
  | .D => encodeMulDiv line 0x0e
  | .DAA => encodeDecimal line 0x0b
  | .DAS => encodeDecimal line 0x0a
  | .LADR => encodeRindirect line 0x0d 0
  | .LADI => encodeImmediate line symbols allowUndefined 0x0d 7
  | .ANDR => encodeRindirect line 0x0d 8
  | .ANDI => encodeImmediate line symbols allowUndefined 0x0d 0x0f
  | .ORR => encodeRindirect line 0x0c 8
  | .ORI => encodeImmediate line symbols allowUndefined 0x0c 0x0f
  | .EORR => encodeRindirect line 0x0c 0
  | .EORI => encodeImmediate line symbols allowUndefined 0x0c 7
  | .FA => encodeRindirect line 0x0d 0x0c
  | .FS => encodeRindirect line 0x0d 4
  | .FM => encodeRindirect line 0x0c 0x0c
  | .FD => encodeRindirect line 0x0c 4
  | .FIX => encodeConvert line 4
  | .FLT => encodeConvert line 0x0c
  | .BD => encodeFar line symbols allowUndefined 0x2607
  | .BL => encodeFar line symbols allowUndefined 0x270f
  | .BR => encodeBranchPointer line 4
  | .BALD => encodeFar line symbols allowUndefined 0x2617
  | .BALL => encodeFar line symbols allowUndefined 0x271f
  | .BALR => encodeBranchPointer line 0x14
  | .RETL => encodeFixed line 0x3f07
  | .TSET => encodeTest line symbols allowUndefined 8
  | .TRST => encodeTest line symbols allowUndefined 0
  | .SRBT => encodeBitNumber line 0x3f70 1
  | .DEBP => encodeBitNumber line 0x3ff0 0
  | .BLK => encodeFixed line 0x3f17
  | .RDR => encodeIoPointer line 0x14
  | .WTR => encodeIoPointer line 0x10
  | .LB => encodeSpecialMemory line symbols allowUndefined 0 7 (parseBbb · false)
  | .LS => encodeSpecialMemory line symbols allowUndefined 0 0x0f parsePpp
  | .STB => encodeSpecialMemory line symbols allowUndefined 0x80 7 (parseBbb · true)
  | .STS => encodeSpecialMemory line symbols allowUndefined 0x80 0x0f parsePpp
  | .CPYB => encodeSpecialCopy line 0x0f00 0x80 0 (parseBbb · false)
  | .CPYS => encodeSpecialCopy line 0x0f00 0x80 8 parsePpp
  | .CPYH => encodeSpecialCopy line 0x3f00 0x80 0 parseHhh
  | .SETB => encodeSpecialCopy line 0x0f00 0 0 (parseBbb · true)
  | .SETS => encodeSpecialCopy line 0x0f00 0 8 parsePpp
  | .SETH => encodeSpecialCopy line 0x3f00 0 0 parseHhh
  | .dotWord =>
      fail ("Line " ++ Nat.repr line.lineNo ++ ": Unsupported opcode '" ++ line.op.getD "" ++ "'")

/-- The operation that a line names. -/
def lineMnemonic (line : ParsedLine) : Option Mnemonic := (operation line).bind Mnemonic.ofName

/-- `encode_instruction` -/
def encodeInstruction (line : ParsedLine) (pcWord : Word) (symbols : SymbolTable)
    (allowUndefined : Bool) : Except Failure (List Word) :=
  match line.op with
  | none => fail ("Line " ++ Nat.repr line.lineNo ++ ": missing opcode")
  | some _ =>
      encodeMnemonic ((lineMnemonic line).getD .dotWord) line pcWord symbols allowUndefined

/-- `mn1613_instruction_size` -/
def instructionSize (line : ParsedLine) (symbols : SymbolTable) : Except Failure Word :=
  match operation line with
  | none => .ok 0
  | some op =>
      if op.toList.head? = some '.' then .ok 0
      else do
        match ← splitAiSiImm4Chunks symbols true line with
        | some chunks => return BitVec.ofNat 16 chunks.length
        | none => return if isTwoWordOp op then 2 else 1

end Mn1613

/-- The MN1613: addresses count words. -/
def mn1613 : Target where
  byteMode := false
  instructionSize := Mn1613.instructionSize
  encode line pc symbols := Mn1613.encodeInstruction line pc symbols false

end AsmRs
end RetroCpu
