import RetroCpu.AsmRs.Assembler
import RetroCpu.Tms9995.Operations

/-!
# The TMS9995 encoder of the Rust assembler (`tms9995/tms9995_encoder.rs`)
-/

namespace RetroCpu
namespace AsmRs
namespace Tms9995

open RetroCpu.Tms9995

section Operands

/-- `Line n: …` -/
def failAt {α : Type} (lineNo : Nat) (message : String) : Except Failure α :=
  fail ("Line " ++ Nat.repr lineNo ++ ": " ++ message)

/-- A general address: register, `(R)`, symbolic or indexed, `(R)+`. -/
structure GeneralAddr where
  mode : Word
  reg : Word
  extraWord : Option Word
deriving DecidableEq, Repr

/-- `str::parse::<u16>` -/
def parseU16 (cs : List Char) : Option Nat :=
  let digits :=
    match cs with
    | '+' :: rest => rest
    | _ => cs
  if digits.isEmpty then none else (digitsValue 10 digits).filter (· < 2 ^ 16)

/-- `parse_reg` -/
def parseReg (tok : String) : Option Word :=
  match (toAsciiUppercase (trim tok)).toList with
  | 'R' :: rest =>
      if rest.isEmpty then none
      else ((parseU16 rest).filter (· ≤ 15)).map fun n => BitVec.ofNat 16 n
  | _ => none

/-- `is_ti_star_reg` -/
def isTiStarReg (s : String) : Bool :=
  match (trim s).toList with
  | '*' :: rest => (parseReg (String.ofList rest)).isSome
  | _ => false

/-- The text before the last `c`, and the text after it. -/
def splitLast (c : Char) (cs : List Char) : Option (List Char × List Char) :=
  if c ∈ cs then
    some (((cs.reverse.dropWhile (· ≠ c)).drop 1).reverse, (cs.reverse.takeWhile (· ≠ c)).reverse)
  else none

/-- `(` or `[` in front. -/
def opened (cs : List Char) : Bool := cs.head? == some '(' || cs.head? == some '['

/-- `)` or `]` at the end. -/
def closed (cs : List Char) : Bool := cs.getLast? == some ')' || cs.getLast? == some ']'

/-- The register of `(Rn)+` or `[Rn]+`. -/
def autoIncrement (cs : List Char) : Option Word :=
  if opened cs ∧ cs.getLast? = some '+' ∧ closed cs.dropLast then
    parseReg (String.ofList (cs.drop 1).dropLast.dropLast)
  else none

/-- The register of `(Rn)` or `[Rn]`. -/
def indirect (cs : List Char) : Option Word :=
  if (cs.head? = some '(' ∧ cs.getLast? = some ')') ∨
      (cs.head? = some '[' ∧ cs.getLast? = some ']') then
    parseReg (String.ofList (cs.drop 1).dropLast)
  else none

/-- The address and the register of `addr(Rn)` or `addr[Rn]`. -/
def indexed (cs : List Char) : Option (String × Word) :=
  match splitLast '(' cs <|> splitLast '[' cs with
  | some (addr, rest) =>
      if closed cs then
        (parseReg (String.ofList rest.dropLast)).map fun r => (trim (String.ofList addr), r)
      else none
  | none => none

variable (symbols : SymbolTable) (allowUndefined : Bool) (lineNo : Nat)

/-- `eval_tms` -/
def evalTms (expr : String) : Except Failure Word := evalWord expr symbols allowUndefined

/-- `require_imm` -/
def requireImm (raw : String) : Except Failure Word :=
  match (trim raw).toList with
  | '#' :: rest => evalTms symbols allowUndefined (trim (String.ofList rest))
  | _ => failAt lineNo ("immediate requires '#' (sdas; got '" ++ raw ++ "')")

/-- `require_imm_range` -/
def requireImmRange (raw : String) (lo hi : Int) (what : String) : Except Failure Int := do
  let s := (← requireImm symbols allowUndefined lineNo raw).toInt
  if !allowUndefined ∧ (s < lo ∨ s > hi) then
    failAt lineNo (what ++ " " ++ Int.repr s ++ " out of range " ++ rangeText lo hi)
  else return if allowUndefined then 0 else s

/-- A register operand, behind its message. -/
def requireReg (tok message : String) : Except Failure Word :=
  match parseReg tok with
  | some r => .ok r
  | none => failAt lineNo message

/-- `addr(Rn)`, and else an address. -/
def parseMemoryAddr (s : String) : Except Failure GeneralAddr :=
  match indexed s.toList with
  | some (addr, r) =>
      if r = 0 then
        failAt lineNo "indexed addressing cannot use R0 (use a label / address)"
      else do return ⟨2, r, some (← evalTms symbols allowUndefined addr)⟩
  | none => do return ⟨2, 0, some (← evalTms symbols allowUndefined s)⟩

/-- `parse_general_addr` -/
def parseGeneralAddr (raw : String) : Except Failure GeneralAddr :=
  let s := trim raw
  let cs := s.toList
  if cs = [] then failAt lineNo "empty addressing operand"
  else if cs.head? = some '#' then
    failAt lineNo ("'#' is immediate-only (use LI/AI/…; got '" ++ raw ++ "')")
  else if cs.head? = some '@' ∨ isTiStarReg s then
    failAt lineNo
      ("TI syntax is not used (sdas: (Rn), (Rn)+, label, addr(Rn); got '" ++ raw ++ "')")
  else
    match autoIncrement cs with
    | some r => .ok ⟨3, r, none⟩
    | none =>
    match indirect cs with
    | some r => .ok ⟨1, r, none⟩
    | none =>
    match parseReg s with
    | some r => .ok ⟨0, r, none⟩
    | none => parseMemoryAddr symbols allowUndefined lineNo s

example : parseGeneralAddr .empty false 1 "[ r12 ]+" = .ok ⟨3, 12, none⟩ := by decide

end Operands

section Words

/-- The six bits of a general address (`pack_addr`). -/
def field6 (a : GeneralAddr) : Word := ((a.mode &&& 3) <<< 4) ||| (a.reg &&& 0xf)

/-- The additional words of a general address (`pack_addr`). -/
def extras (a : GeneralAddr) : List Word := a.extraWord.toList

variable (op : String) (base : Word) (args : List String) (lineNo : Nat)
  (symbols : SymbolTable) (allowUndefined : Bool)

/-- A jump counts words from the next instruction. -/
def encodeJump (pcByte : Word) : Except Failure (List Word) := do
  let label := args.getD 0 ""
  let target ← evalTms symbols allowUndefined label
  let distance : Int := (target.toNat : Int) - (pcByte.toNat + 2)
  let dispWords := if allowUndefined then 0 else distance.tdiv 2
  if !allowUndefined ∧ distance.tmod 2 ≠ 0 then
    failAt lineNo ("jump target " ++ label ++ " is not word-aligned relative to PC")
  else if !allowUndefined ∧ (dispWords < -128 ∨ dispWords > 127) then
    failAt lineNo ("jump displacement " ++ Int.repr dispWords ++ " out of range (-128..127)")
  else return [base ||| (BitVec.ofInt 16 dispWords &&& 0xff)]

/-- A number or register in bits 6 to 9, and a general address. -/
def withField (n : Word) (a : GeneralAddr) : List Word :=
  (base ||| ((n &&& 0xf) <<< 6) ||| field6 a) :: extras a

/-- LDCR and STCR; the counts 0 and 16 are encoded as 0. -/
def encodeTransfer : Except Failure (List Word) := do
  let bits ← requireImmRange symbols allowUndefined lineNo (args.getD 1 "") 0 16
    (op ++ " bit count")
  if !allowUndefined ∧ bits > 16 then
    failAt lineNo (op ++ " bit count " ++ Int.repr bits ++ " out of range")
  else do
    let src ← parseGeneralAddr symbols allowUndefined lineNo (args.getD 0 "")
    return withField base (if bits = 16 ∨ bits = 0 then 0 else BitVec.ofInt 16 bits) src

/-- XOP, MPY and DIV -/
def encodeExtended : Except Failure (List Word) := do
  let src ← parseGeneralAddr symbols allowUndefined lineNo (args.getD 0 "")
  if op = "XOP" then do
    let n ← requireImmRange symbols allowUndefined lineNo (args.getD 1 "") 0 15 "XOP number"
    return withField base (BitVec.ofInt 16 n) src
  else do
    let r ← requireReg lineNo (args.getD 1 "") (op ++ " second operand must be Rn")
    return withField base r src

/-- The words of an operation of a format, with the operands it requires. -/
def encodeFormat (format : OpFormat) (pcByte : Word) : Except Failure (List Word) :=
  match format with
  | .fixed => .ok [base]
  | .immediate => do
      return [base, ← requireImm symbols allowUndefined lineNo (args.getD 0 "")]
  | .register => do
      let r ← requireReg lineNo (args.getD 0 "") (op ++ " requires Rn")
      return [base ||| (r &&& 0xf)]
  | .registerImmediate => do
      let r ← requireReg lineNo (args.getD 0 "") (op ++ " first operand must be Rn")
      let imm ← requireImm symbols allowUndefined lineNo (args.getD 1 "")
      return [base ||| (r &&& 0xf), imm]
  | .cru => do
      let disp ← requireImmRange symbols allowUndefined lineNo (args.getD 0 "") (-128) 127
        (op ++ " displacement")
      return [base ||| (BitVec.ofInt 16 disp &&& 0xff)]
  | .jump => encodeJump base args lineNo symbols allowUndefined pcByte
  | .shift => do
      let r ← requireReg lineNo (args.getD 0 "") (op ++ " first operand must be Rn")
      let cnt ← requireImmRange symbols allowUndefined lineNo (args.getD 1 "") 0 15
        (op ++ " count")
      return [base ||| ((BitVec.ofInt 16 cnt &&& 0xf) <<< 4) ||| (r &&& 0xf)]
  | .logical => do
      let r ← requireReg lineNo (args.getD 1 "") (op ++ " second operand must be Rn")
      let src ← parseGeneralAddr symbols allowUndefined lineNo (args.getD 0 "")
      return withField base r src
  | .transfer => encodeTransfer op base args lineNo symbols allowUndefined
  | .extended => encodeExtended op base args lineNo symbols allowUndefined
  | .single => do
      let a ← parseGeneralAddr symbols allowUndefined lineNo (args.getD 0 "")
      return (base ||| field6 a) :: extras a
  | .dual => do
      let src ← parseGeneralAddr symbols allowUndefined lineNo (args.getD 0 "")
      let dst ← parseGeneralAddr symbols allowUndefined lineNo (args.getD 1 "")
      let word := base ||| ((dst.mode &&& 3) <<< 10) ||| ((dst.reg &&& 0xf) <<< 6) |||
        ((src.mode &&& 3) <<< 4) ||| (src.reg &&& 0xf)
      return word :: (extras src ++ extras dst)

/-- An operation of the tables. -/
def encodeOperation (opRaw : String) (pcByte : Word) : Except Failure (List Word) :=
  match opFormat op with
  | none => failAt lineNo ("unknown TMS9995 opcode '" ++ opRaw ++ "'")
  | some (format, base) =>
      if args.length ≠ format.operands then failAt lineNo (format.requirement op)
      else
        encodeFormat op (BitVec.ofNat 16 base) args lineNo symbols allowUndefined format pcByte

end Words

/-- `encode_instruction`; `RT` stands for `B (R11)`. -/
def encodeInstruction (line : AsmTs.ParsedLine) (pcByte : Word) (symbols : SymbolTable)
    (allowUndefined : Bool) : Except Failure (List Word) :=
  match line.op with
  | none => .ok []
  | some opRaw =>
      let op := toAsciiUppercase opRaw
      let args := line.args.map trim
      if op = "RT" then
        if args ≠ [] then failAt line.lineNo "RT takes no operands"
        else encodeOperation "B" ["(R11)"] line.lineNo symbols allowUndefined "B" pcByte
      else if op = "NOP" then
        if args ≠ [] then failAt line.lineNo "NOP takes no operands"
        else .ok [0x1000]
      else encodeOperation op args line.lineNo symbols allowUndefined opRaw pcByte

/-- `instruction_size` -/
def instructionSize (line : AsmTs.ParsedLine) : Except Failure Word := do
  return BitVec.ofNat 16 (← encodeInstruction line 0 .empty true).length * 2

end Tms9995

/-- The TMS9995: addresses count bytes. -/
def tms9995 : Target where
  byteMode := true
  instructionSize line _ := Tms9995.instructionSize line
  encode line pc symbols := Tms9995.encodeInstruction line pc symbols false

end AsmRs
end RetroCpu
