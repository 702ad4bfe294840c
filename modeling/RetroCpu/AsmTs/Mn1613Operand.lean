import RetroCpu.AsmTs.Expression
import RetroCpu.Lib.JsNumber

/-!
# Operands of the MN1613 assembler (`mn1613/mn1613_encoder.ts`, first part)

Register tables, range checks and the parsers of the operand forms.
-/

namespace RetroCpu
namespace AsmTs
namespace Mn1613

open Js

section Maps

def REG_MAP : List (String × Int) :=
  [("R0", 0), ("R1", 1), ("R2", 2), ("R3", 3), ("X0", 3), ("R4", 4), ("X1", 4), ("SP", 5),
    ("STR", 6)]

def SKIP_MAP : List (String × Int) :=
  [("", 0), ("SKP", 1), ("M", 2), ("PZ", 3), ("Z", 4), ("E", 4), ("NZ", 5), ("NE", 5),
    ("MZ", 6), ("P", 7), ("EZ", 8), ("ENZ", 9), ("OZ", 10), ("ONZ", 11), ("LMZ", 12),
    ("LP", 13), ("LPZ", 14), ("LM", 15)]

def EM_MAP : List (String × Int) := [("", 0), ("RE", 1), ("SE", 2), ("CE", 3)]

/-- Base registers. -/
def BB_MAP : List (String × Int) := [("CSBR", 0), ("SSBR", 1), ("TSR0", 2), ("TSR1", 3)]

/-- Base registers and `OSR0` to `OSR3`. -/
def BBB_MAP : List (String × Int) :=
  [("CSBR", 0), ("SSBR", 1), ("TSR0", 2), ("TSR1", 3), ("OSR0", 4), ("OSR1", 5), ("OSR2", 6),
    ("OSR3", 7)]

/-- Special registers. -/
def PPP_MAP : List (String × Int) := [("SBRB", 0), ("ICB", 1), ("NPP", 2)]

/-- Hardware registers. -/
def HHH_MAP : List (String × Int) :=
  [("TCR", 0), ("TIR", 1), ("TSR", 2), ("SCR", 3), ("SSR", 4), ("SOR", 5), ("IISR", 6)]

/-- Pointer registers. -/
def II_MAP : List (String × Int) := [("R1", 0), ("R2", 1), ("R3", 2), ("R4", 3)]

/-- The operations that always take two words. -/
def TWO_WORD_OPS : List String :=
  ["LD", "STD", "BD", "BL", "BALD", "BALL", "TSET", "TRST", "LB", "LS", "STB", "STS", "MVWI",
    "AWI", "SWI", "CWI", "CBI", "ANDI", "ORI", "EORI", "LADI"]

end Maps

section Ranges

def u8 (v : Number) (what : String) : Except String Int :=
  if !v.isInteger || v.ltInt 0 || v.gtInt 0xff then
    .error (what ++ " out of 8-bit range: " ++ v.toString)
  else .ok (land v.bits 0xff)

def u4 (v : Number) (what : String) : Except String Int :=
  if v.ltInt 0 || v.gtInt 0xf then .error (what ++ " out of 4-bit range: " ++ v.toString)
  else .ok (land v.bits 0xf)

def u2 (v : Number) (what : String) : Except String Int :=
  if v.ltInt 0 || v.gtInt 0x3 then .error (what ++ " out of 2-bit range: " ++ v.toString)
  else .ok (land v.bits 0x3)

def s8 (v : Number) (what : String) : Except String Int :=
  if v.ltInt (-128) || v.gtInt 127 then
    .error (what ++ " out of signed 8-bit range: " ++ v.toString)
  else .ok (land v.bits 0xff)

def u16 (v : Number) (what : String) : Except String Int :=
  if !v.isInteger || v.ltInt (-0x8000) || v.gtInt 0xffff then
    .error (what ++ " out of 16-bit range: " ++ v.toString)
  else .ok (land v.bits 0xffff)

end Ranges

section Registers

/-- A lookup that fails with a message. -/
def parseName (map : List (String × Int)) (key : String) (message : String) : Except String Int :=
  match map.lookup key with
  | some v => .ok v
  | none => .error message

def parseReg (token : String) (allowStr : Bool) : Except String Int := do
  let reg ← parseName REG_MAP (toUpperCase token) ("Unknown register: " ++ token)
  if !allowStr && reg = 6 then throw ("STR is not allowed here: " ++ token)
  return reg

/-- `(token ?? "").trim().toUpperCase()` -/
def optionalKey (token : Option String) : String := toUpperCase (trim (token.getD ""))

def parseSkip (token : Option String) : Except String Int :=
  parseName SKIP_MAP (optionalKey token)
    ("Unknown skip condition: " ++ token.getD "undefined")

def parseEm (token : Option String) : Except String Int :=
  parseName EM_MAP (optionalKey token) ("Unknown EM operation: " ++ token.getD "undefined")

def parseBB (token : String) : Except String Int :=
  parseName BB_MAP (toUpperCase (trim token)) ("Unknown base register: " ++ token)

def parsePPP (token : String) : Except String Int :=
  parseName PPP_MAP (toUpperCase (trim token)) ("Unknown special register: " ++ token)

def parseBBB (token : String) (forWrite : Bool) : Except String Int := do
  let v ← parseName BBB_MAP (toUpperCase (trim token)) ("Unknown base register: " ++ token)
  if forWrite && v = 0 then throw "CSBR cannot be written directly"
  return v

def parseHHH (token : String) : Except String Int :=
  parseName HHH_MAP (toUpperCase (trim token)) ("Unknown hardware register: " ++ token)

def isNamedReg (map : List (String × Int)) (token : String) : Bool :=
  (map.lookup (toUpperCase (trim token))).isSome

/-- The operand order of CPYB, SETB and the like. -/
def rejectCopySetOrder (op form writeOp : String) (specialMap : List (String × Int))
    (args : List String) : Except String Unit :=
  let a0 := args.getD 0 ""
  let a1 := args.getD 1 ""
  if isNamedReg specialMap a0 then
    let use := writeOp ++ " " ++ trim a1 ++ ", " ++ trim a0 ++ "."
    let hint :=
      if op.toList.take 3 = "CPY".toList ∧ writeOp ≠ op then
        " To write " ++ trim a0 ++ " use " ++ use
      else " Use " ++ use
    .error (op ++ " is " ++ form ++ " (general register first). '" ++ trim a0 ++
      "' is not a general register." ++ hint)
  else .ok ()

/-- `C` for the carry. -/
def isCarry (token : String) : Bool := toUpperCase (trim token) == "C"

/-- `[C][, Skip]` from operand `startIdx` on: the bit `c` and the skip condition. -/
def parseCarrySkip (args : List String) (startIdx : Nat) : Except String (Int × Int) := do
  let rest := args.drop startIdx
  let (c, rest) : Int × List String :=
    match rest with
    | token :: rest' => if isCarry token then (0, rest') else (1, rest)
    | [] => (1, [])
  match rest with
  | token :: _ => return (c, ← parseSkip (some token))
  | [] => return (c, 0)

/-- A pointer register and its mode. -/
structure IndirectReg where
  ii : Int
  mm : Int
deriving DecidableEq, Repr

def pointerItems : List Item :=
  [.one fun c => c == 'R' || c == 'r', .one fun c => '1' ≤ c && c ≤ '4']

/-- `(Ri)`, `@(Ri)`, `-(Ri)` and `(Ri)+` -/
def parseIndirect (arg : String) : Except String IndirectReg :=
  let t := trim arg
  let register (name : String) (mm : Int) : Except String IndirectReg :=
    match II_MAP.lookup (toUpperCase name) with
    | some ii => .ok ⟨ii, mm⟩
    | none => .error ("Invalid indirect register: " ++ name)
  let bracketed := [.char '(', .spaces] ++ pointerItems ++ [.spaces, .char ')']
  match exec (.char '-' :: bracketed) [[3, 4]] t with
  | some [name] => register name 2
  | _ =>
      match exec (bracketed ++ [.char '+']) [[2, 3]] t with
      | some [name] => register name 3
      | _ =>
          match exec (.opt (· == '@') :: bracketed) [[3, 4]] t with
          | some [name] => register name 1
          | _ => .error ("Invalid indirect operand: " ++ arg)

def requireDr0 (arg : String) : Except String Unit :=
  if toUpperCase (trim arg) ≠ "DR0" then
    .error ("First operand must be DR0 (got '" ++ arg ++ "')")
  else .ok ()

def parseDr0MemRi (arg : String) : Except String Int := do
  let indir ← parseIndirect arg
  if indir.mm ≠ 1 then throw ("Second operand must be (R1)–(R4) (got '" ++ arg ++ "')")
  return indir.ii

end Registers

section Values

variable (symbols : SymbolTable) (allowUndefined : Bool)

def requireImmHash (arg what : String) : Except String String :=
  let t := trim arg
  if !startsWith t '#' then
    .error (what ++ ": immediate operand requires '#' (got '" ++ arg ++ "')")
  else .ok (trim (tail t))

def forbidImmHash (arg what : String) : Except String String :=
  let t := trim arg
  if startsWith t '#' then .error (what ++ " must not use '#' (got '" ++ arg ++ "')") else .ok t

def parseImm4 (arg : String) : Except String Int := do
  u4 (← evalExpr (← requireImmHash arg "I4") symbols allowUndefined) "I4"

def parseImm8 (arg : String) : Except String Int := do
  u8 (← evalExpr (← requireImmHash arg "I8") symbols allowUndefined) "I8"

def parseIoAddr8 (arg : String) : Except String Int := do
  let bare := if startsWith arg '#' then tail arg else arg
  u8 (← evalExpr (trim bare) symbols allowUndefined) "I8"

def parseImm16Value (arg : String) : Except String Int := do
  u16 (← evalExpr (← requireImmHash arg "IM16") symbols allowUndefined) "IM16"

/-- Strip `@`, then `( )`, then `[ ]` from an address. -/
def stripAddrDecorators (arg : String) : Except String String :=
  let t := trim arg
  if startsWith t '#' then
    .error ("address operand must not use '#' (got '" ++ arg ++ "')")
  else
    let t := if startsWith t '@' then trim (tail t) else t
    let t := if startsWith t '(' && endsWith t ')' then trim (inner t) else t
    .ok (if startsWith t '[' && endsWith t ']' then trim (inner t) else t)

def parseImm16 (arg : String) : Except String Int := do
  return land (← evalExpr (← stripAddrDecorators arg) symbols allowUndefined).bits 0xffff

/-- `addr(BRn)`: the base register and the address. -/
def parseAddrWithBB (arg : String) : Except String (Option (Int × String)) :=
  let items := [.plus anyChar, .char '(', .spaces, .word ["CSBR", "SSBR", "TSR0", "TSR1"],
    .spaces, .char ')']
  match exec items [[0], [3]] (trim arg) with
  | some [addr, bb] => do return some (← parseBB bb, trim addr)
  | _ => .ok none

/-- 4-bit pieces of the immediate of AI and SI; the source's loop takes 15 at a time. -/
def chunkLoop : Nat → Nat → List Int
  | 0, _ => []
  | fuel + 1, remain =>
      if remain > 0 then
        let step := min 0x0f remain
        (step : Int) :: chunkLoop fuel (remain - step)
      else []

/-- `splitAiSiImm4Chunks`; `none` where it does not apply. -/
def splitAiSiImm4Chunks (line : ParsedLine) : Except String (Option (List Int)) := do
  match line.op with
  | none => return none
  | some op =>
      let op := toUpperCase op
      if op ≠ "AI" ∧ op ≠ "SI" then return none
      if line.args.length ≠ 2 then return none
      let imm ← evalExpr (← requireImmHash (line.arg 1) "I4") symbols allowUndefined
      match imm with
      | .int n =>
          if n < 0 then throw ("I4 out of 4-bit range: " ++ imm.toString)
          else if n ≤ 0x0f then return some [n]
          else return some (chunkLoop n.toNat n.toNat)
      | _ => throw ("I4 out of 4-bit range: " ++ imm.toString)

end Values

section EffectiveAddress

variable (symbols : SymbolTable) (allowUndefined : Bool)

/-- An addressing mode and its displacement. -/
structure EAMode where
  mmm : Int
  d8 : Int
deriving DecidableEq, Repr

/-- `[A-Za-z_][A-Za-z0-9_]*` -/
def nameItems : List Item := [.one nameStart, .star namePart]

/-- An indexed form, with mode `x0` or `x1`. -/
def indexedMode (t d name : String) (x0 x1 : Int) : Except String EAMode := do
  let idx := toUpperCase name
  if idx ≠ "X0" ∧ idx ≠ "X1" then
    throw ("index register must be X0 or X1 (got '" ++ name ++ "' in '" ++ t ++ "')")
  let d8 ← u8 (← evalExpr d symbols allowUndefined) "EA"
  return ⟨if idx = "X0" then x0 else x1, d8⟩

def zeroPageMode (d : String) (mmm : Int) : Except String EAMode := do
  return ⟨mmm, ← u8 (← evalExpr d symbols allowUndefined) "EA"⟩

def relativeMode (label : String) (pcWord : Int) (mmm : Int) : Except String EAMode := do
  let rel := (← evalExpr label symbols allowUndefined).sub (.int pcWord)
  return ⟨mmm, ← s8 rel "EA relative"⟩

/-- The forms of `parseEA` without an index register. -/
def parseEAPlain (t : String) (pcWord : Int) : Except String EAMode :=
  match exec [.char '(', .spaces, .char '*', .plus anyChar, .spaces, .char ')'] [[3]] t with
  | some [d] => zeroPageMode symbols allowUndefined d 2
  | _ =>
  match exec [.char '[', .spaces, .char '*', .plus anyChar, .spaces, .char ']'] [[3]] t with
  | some [d] => zeroPageMode symbols allowUndefined d 2
  | _ =>
  match exec [.char '(', .plus anyChar, .char ')'] [[1]] t with
  | some [label] => relativeMode symbols allowUndefined label pcWord 3
  | _ =>
  match exec [.char '[', .plus anyChar, .char ']'] [[1]] t with
  | some [label] => relativeMode symbols allowUndefined label pcWord 3
  | _ =>
      if startsWith t '*' then zeroPageMode symbols allowUndefined (tail t) 0
      else relativeMode symbols allowUndefined t pcWord 1

/-- `parseEA` -/
def parseEA (arg : String) (pcWord : Int) : Except String EAMode :=
  let t := trim arg
  let name := nameItems
  match exec ([.char '(', .spaces, .char '*', .plus anyChar, .spaces, .char ')', .spaces,
      .char '(', .spaces] ++ name ++ [.spaces, .char ')']) [[3], [9, 10]] t with
  | some [d, x] => indexedMode symbols allowUndefined t d x 6 7
  | _ =>
  match exec ([.char '[', .spaces, .char '*', .plus anyChar, .spaces, .char ']', .spaces,
      .char ',', .spaces] ++ name) [[3], [9, 10]] t with
  | some [d, x] => indexedMode symbols allowUndefined t d x 6 7
  | _ =>
  match exec ([.plus anyChar, .char '(', .spaces] ++ name ++ [.spaces, .char ')'])
      [[0], [3, 4]] t with
  | some [d, x] => indexedMode symbols allowUndefined t d x 4 5
  | _ =>
  match exec ([.plus anyChar, .spaces, .char ',', .spaces] ++ name) [[0], [4, 5]] t with
  | some [d, x] =>
      let idx := toUpperCase x
      if idx = "X0" ∨ idx = "X1" then indexedMode symbols allowUndefined t d x 4 5
      else parseEAPlain symbols allowUndefined t pcWord
  | _ => parseEAPlain symbols allowUndefined t pcWord

example : parseEA .empty false "(* 5 + 1 )( x1 )" 0 = .ok ⟨7, 6⟩ := by decide +kernel

end EffectiveAddress

end Mn1613
end AsmTs
end RetroCpu
