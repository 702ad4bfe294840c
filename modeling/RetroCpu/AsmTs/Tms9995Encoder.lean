import RetroCpu.AsmTs.Assembler
import RetroCpu.Tms9995.Operations

/-!
# The TMS9995 encoder (`tms9995/tms9995_encode.ts`)

Addresses count bytes; an instruction takes one to three words.
-/

namespace RetroCpu
namespace AsmTs
namespace Tms9995

open Js RetroCpu.Tms9995

section Operands

/-- `Line n: …` -/
def errorAt (lineNo : Nat) (message : String) : String :=
  "Line " ++ Nat.repr lineNo ++ ": " ++ message

/-- A general address: register, `(R)`, symbolic or indexed, `(R)+`. -/
structure TmsGeneralAddr where
  mode : Int
  reg : Int
  extraWord : Option Int
deriving DecidableEq, Repr

def isR (c : Char) : Bool := c == 'R' || c == 'r'

def opening (c : Char) : Bool := c == '(' || c == '['

def closing (c : Char) : Bool := c == ')' || c == ']'

/-- `R([0-9]|1[0-5])` -/
def registerItems : List Item := [.one isR, .word registerNumbers]

/-- `/^R([0-9]|1[0-5])$/i` -/
def parseReg (tok : String) : Option Int :=
  match exec registerItems [[1]] (trim tok) with
  | some [digits] => some (registerNumbers.idxOf digits)
  | _ => none

variable (symbols : SymbolTable) (allowUndefined : Bool) (lineNo : Nat)

def evalTms (expr : String) : Except String Int := do
  return land (← evalExpr expr symbols allowUndefined).bits 0xffff

def requireImm (raw : String) : Except String Int :=
  let s := trim raw
  if !startsWith s '#' then
    .error (errorAt lineNo ("immediate requires '#' (sdas; got '" ++ raw ++ "')"))
  else evalTms symbols allowUndefined (trim (tail s))

/-- `(v << 16) >> 16` -/
def signed16 (v : Int) : Int := (BitVec.ofInt 16 v).toInt

def requireImmRange (raw : String) (lo hi : Int) (what : String) : Except String Int := do
  let s := signed16 (← requireImm symbols allowUndefined lineNo raw)
  if !allowUndefined ∧ (s < lo ∨ s > hi) then
    .error (errorAt lineNo (what ++ " " ++ Int.repr s ++ " out of range " ++ rangeText lo hi))
  else return if allowUndefined then 0 else s

/-- A register operand, behind its message. -/
def requireReg (tok message : String) : Except String Int :=
  match parseReg tok with
  | some r => .ok r
  | none => .error (errorAt lineNo message)

/-- `addr(Rn)`, and else an address. -/
def parseMemoryAddr (s : String) : Except String TmsGeneralAddr :=
  match exec ([.plus anyChar, .spaces, .one opening, .spaces] ++ registerItems ++
      [.spaces, .one closing, .spaces]) [[0], [4, 5]] s with
  | some [addr, name] =>
      let r := (parseReg name).getD 0
      if r = 0 then
        .error (errorAt lineNo "indexed addressing cannot use R0 (use a label / address)")
      else do return ⟨2, r, some (← evalTms symbols allowUndefined (trim addr))⟩
  | _ => do return ⟨2, 0, some (← evalTms symbols allowUndefined s)⟩

def parseGeneralAddr (raw : String) : Except String TmsGeneralAddr :=
  let s := trim raw
  if s = "" then .error (errorAt lineNo "empty addressing operand")
  else if startsWith s '#' then
    .error (errorAt lineNo ("'#' is immediate-only (use LI/AI/…; got '" ++ raw ++ "')"))
  else if startsWith s '@' ∨
      (matchPrefix ([.char '*', .spaces] ++ registerItems) s.toList).isSome then
    .error (errorAt lineNo
      ("TI syntax is not used (sdas: (Rn), (Rn)+, label, addr(Rn); got '" ++ raw ++ "')"))
  else
    let bracketed := [.one opening, .spaces] ++ registerItems ++ [.spaces, .one closing, .spaces]
    match exec (bracketed ++ [.char '+']) [[2, 3]] s with
    | some [name] => .ok ⟨3, (parseReg name).getD 0, none⟩
    | _ =>
    match exec bracketed [[2, 3]] s with
    | some [name] => .ok ⟨1, (parseReg name).getD 0, none⟩
    | _ =>
    match parseReg s with
    | some r => .ok ⟨0, r, none⟩
    | none => parseMemoryAddr symbols allowUndefined lineNo s

example : parseGeneralAddr .empty false 1 "[ r12 ] +" = .ok ⟨3, 12, none⟩ := by decide

end Operands

section Words

/-- The six bits of a general address. -/
def field6 (a : TmsGeneralAddr) : Int := lor (shl (land a.mode 3) 4) (land a.reg 0xf)

/-- The additional words of a general address. -/
def extras (a : TmsGeneralAddr) : List Int := (a.extraWord.map fun w => land w 0xffff).toList

variable (op : String) (base : Int) (args : List String) (lineNo : Nat)
  (symbols : SymbolTable) (allowUndefined : Bool)

/-- A jump counts words from the next instruction. -/
def encodeJump (pcByte : Int) : Except String (List Int) := do
  let label := args.getD 0 ""
  let target ← evalTms symbols allowUndefined label
  let distance := target - (pcByte + 2)
  let dispWords := if allowUndefined then 0 else distance.tdiv 2
  if !allowUndefined ∧ distance.tmod 2 ≠ 0 then
    .error (errorAt lineNo ("jump target " ++ label ++ " is not word-aligned relative to PC"))
  else if !allowUndefined ∧ (dispWords < -128 ∨ dispWords > 127) then
    .error (errorAt lineNo ("jump displacement " ++ Int.repr dispWords ++
      " out of range (-128..127)"))
  else return [lor base (land dispWords 0xff)]

/-- A number or register in bits 6 to 9, and a general address. -/
def withField (n : Int) (a : TmsGeneralAddr) : List Int :=
  lor (lor base (shl (land n 0xf) 6)) (field6 a) :: extras a

/-- LDCR and STCR; the counts 0 and 16 are encoded as 0. -/
def encodeTransfer : Except String (List Int) := do
  let bits ← requireImmRange symbols allowUndefined lineNo (args.getD 1 "") 0 16
    (op ++ " bit count")
  if !allowUndefined ∧ bits > 16 then
    .error (errorAt lineNo (op ++ " bit count " ++ Int.repr bits ++ " out of range"))
  else do
    let src ← parseGeneralAddr symbols allowUndefined lineNo (args.getD 0 "")
    return withField base (if bits = 16 ∨ bits = 0 then 0 else bits) src

/-- XOP, MPY and DIV -/
def encodeExtended : Except String (List Int) := do
  let src ← parseGeneralAddr symbols allowUndefined lineNo (args.getD 0 "")
  if op = "XOP" then do
    let n ← requireImmRange symbols allowUndefined lineNo (args.getD 1 "") 0 15 "XOP number"
    return withField base n src
  else do
    let r ← requireReg lineNo (args.getD 1 "") (op ++ " second operand must be Rn")
    return withField base r src

/-- The words of an operation of a format, with the operands it requires. -/
def encodeFormat (format : OpFormat) (pcByte : Int) : Except String (List Int) :=
  match format with
  | .fixed => .ok [base]
  | .immediate => do
      return [base, ← requireImm symbols allowUndefined lineNo (args.getD 0 "")]
  | .register => do
      let r ← requireReg lineNo (args.getD 0 "") (op ++ " requires Rn")
      return [lor base (land r 0xf)]
  | .registerImmediate => do
      let r ← requireReg lineNo (args.getD 0 "") (op ++ " first operand must be Rn")
      let imm ← requireImm symbols allowUndefined lineNo (args.getD 1 "")
      return [lor base (land r 0xf), imm]
  | .cru => do
      let disp ← requireImmRange symbols allowUndefined lineNo (args.getD 0 "") (-128) 127
        (op ++ " displacement")
      return [lor base (land disp 0xff)]
  | .jump => encodeJump base args lineNo symbols allowUndefined pcByte
  | .shift => do
      let r ← requireReg lineNo (args.getD 0 "") (op ++ " first operand must be Rn")
      let cnt ← requireImmRange symbols allowUndefined lineNo (args.getD 1 "") 0 15
        (op ++ " count")
      return [lor (lor base (shl (land cnt 0xf) 4)) (land r 0xf)]
  | .logical => do
      let r ← requireReg lineNo (args.getD 1 "") (op ++ " second operand must be Rn")
      let src ← parseGeneralAddr symbols allowUndefined lineNo (args.getD 0 "")
      return withField base r src
  | .transfer => encodeTransfer op base args lineNo symbols allowUndefined
  | .extended => encodeExtended op base args lineNo symbols allowUndefined
  | .single => do
      let a ← parseGeneralAddr symbols allowUndefined lineNo (args.getD 0 "")
      return lor base (field6 a) :: extras a
  | .dual => do
      let src ← parseGeneralAddr symbols allowUndefined lineNo (args.getD 0 "")
      let dst ← parseGeneralAddr symbols allowUndefined lineNo (args.getD 1 "")
      let word := lor (lor (lor (lor base (shl (land dst.mode 3) 10)) (shl (land dst.reg 0xf) 6))
        (shl (land src.mode 3) 4)) (land src.reg 0xf)
      return word :: (extras src ++ extras dst)

/-- An operation of the tables. -/
def encodeOperation (opText : String) (pcByte : Int) : Except String (List Int) :=
  match opFormat op with
  | none => .error (errorAt lineNo ("unknown TMS9995 opcode '" ++ opText ++ "'"))
  | some (format, base) =>
      if args.length ≠ format.operands then .error (errorAt lineNo (format.requirement op))
      else encodeFormat op base args lineNo symbols allowUndefined format pcByte

end Words

/-- `encodeTms9995Instruction`; `RT` stands for `B (R11)`. -/
def encodeTms9995Instruction (line : ParsedLine) (pcByte : Int) (symbols : SymbolTable)
    (allowUndefined : Bool) : Except String (List Int) :=
  match line.op with
  | none | some "" => .ok []
  | some opText =>
      let op := toUpperCase opText
      let args := line.args.map trim
      if op = "RT" then
        if args ≠ [] then .error (errorAt line.lineNo "RT takes no operands")
        else encodeOperation "B" ["(R11)"] line.lineNo symbols allowUndefined "B" pcByte
      else if op = "NOP" then
        if args ≠ [] then .error (errorAt line.lineNo "NOP takes no operands")
        else .ok [0x1000]
      else encodeOperation op args line.lineNo symbols allowUndefined opText pcByte

/-- `tms9995InstructionSize` -/
def tms9995InstructionSize (line : ParsedLine) : Except String Int := do
  return (← encodeTms9995Instruction line 0 .empty true).length * 2

end Tms9995

/-- The TMS9995: addresses count bytes. -/
def tms9995 : Target where
  byteMode := true
  instructionSize line _ := Tms9995.tms9995InstructionSize line
  encode line pc symbols := Tms9995.encodeTms9995Instruction line pc symbols false

end AsmTs
end RetroCpu
