import RetroCpu.DisAssembler.Mn1613

/-!
# Printed instructions of the MN1613 (`dis_assembler/mn1613/format.ts`)

A decoded instruction as a line for the assembler, without a label table.
-/

namespace RetroCpu
namespace Mn1613

/-- The name that is printed -/
def Mnemonic.name (m : Mnemonic) : String :=
  match mnemonics.find? fun entry => entry.2 == m with
  | some entry => entry.1
  | none => ".word"

end Mn1613

namespace DisAssembler
namespace Mn1613

open Js RetroCpu.Mn1613

section Format

def SKIP_NAME : List String :=
  ["", "SKP", "M", "PZ", "Z", "NZ", "MZ", "P", "EZ", "ENZ", "OZ", "ONZ", "LMZ", "LP", "LPZ", "LM"]

def EE_NAME : List String := ["", "RE", "SE", "CE"]

/-- 16 bits as `0xHHHH` -/
def hex16 (v : Int) : String :=
  let w := land v 0xffff
  String.ofList ['0', 'x', hexDigit (ushr w 12), hexDigit (land (ushr w 8) 0xf),
    hexDigit (land (ushr w 4) 0xf), hexDigit (land w 0xf)]

/-- `immText` -/
def immText (v : Int) (bits : Nat) : String :=
  if bits = 16 then "#" ++ hex16 v
  else if bits = 8 then "#" ++ hex8 v
  else "#" ++ Int.repr (land v 0xf)

/-- `formatAddr` -/
def formatAddr (v : Int) (form : AddrForm) (bb : Option String) : String :=
  match form with
  | .plain => hex16 v
  | .zp => "*" ++ hex8 v
  | .paren => "(" ++ hex16 v ++ ")"
  | .at_ => "@" ++ hex16 v
  | .starParen => "(*" ++ hex8 v ++ ")"
  | .io => hex8 v
  | .bb => hex16 v ++ "(" ++ bb.getD "CSBR" ++ ")"

/-- `formatOp`; an empty text counts as none. -/
def formatOp : DecodedOp → String
  | .raw s => s
  | .imm v bits => immText v bits
  | .skip n => SKIP_NAME.getD (land n 0xf).toNat ""
  | .ee n => EE_NAME.getD (land n 3).toNat ""
  | .c => "C"
  | .addr v form bb => formatAddr v form bb

attribute [grind =] formatOp

/-- A mnemonic and its operands -/
def printLine (mnemonic : String) (args : List String) : String :=
  if args = [] then mnemonic else mnemonic ++ " " ++ ", ".intercalate args

/-- `formatDecoded` -/
def formatDecoded (inst : DecodedInst) : String :=
  let args := (inst.ops.map formatOp).filter (· ≠ "")
  match inst.mnemonic, inst.ops with
  | .dotWord, .imm v _ :: _ => ".word " ++ hex16 v
  | mnemonic, _ => printLine mnemonic.name args

example : formatDecoded (decodeWord 0x20 0xc8fe 0) = "L R0, 0x001e" := by decide

end Format

end Mn1613
end DisAssembler
end RetroCpu
