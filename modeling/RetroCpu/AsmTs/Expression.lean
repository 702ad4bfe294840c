import RetroCpu.AsmTs.Types
import RetroCpu.Lib.JsString
import RetroCpu.Lib.Precedence

/-!
# Expressions of the assembler (`expression.ts`)

An expression is rewritten (`len(label)`, character literals), cut into tokens, and
evaluated by recursive descent over the six binary precedence levels.  Characters that
belong to no token are skipped, as the source does.
-/

namespace RetroCpu
namespace AsmTs

open Js Precedence

section Rewriting

def isIdentChar (ch : Option Char) : Bool :=
  match ch with
  | none => false
  | some c => symbolPart c

def isBlank (c : Char) : Bool := c == ' ' || c == '\t'

/-- `[A-Za-z_.$][A-Za-z0-9_.$]*` -/
def symbolPattern : List Item := [.one symbolStart, .star symbolPart]

/-- The rest of `len(label)` behind the bracket: the length, and what follows. -/
def lenCall (expr : String) (stringLens : JsMap Nat) (globlNames : List String)
    (cs : List Char) : Except String (Nat × List Char) :=
  match matchPrefix symbolPattern (cs.dropWhile isBlank) with
  | none => .error ("len() requires a string label: " ++ expr)
  | some (segments, rest) =>
      let name := String.ofList segments.flatten
      match rest.dropWhile isBlank with
      | ')' :: rest =>
          let key := toUpperCase name
          if globlNames.contains key then
            .error ("len() cannot use a global label: " ++ name)
          else
            match stringLens.get key with
            | none => .error ("len() requires a string label: " ++ name)
            | some len => .ok (len, rest)
      | _ => .error ("len() requires a string label: " ++ expr)

/-- The loop of `substLenCalls`; `prev` is the character before `cs`. -/
def substLenLoop (expr : String) (stringLens : JsMap Nat) (globlNames : List String) :
    Nat → Option Char → List Char → Except String (List Char)
  | 0, _, _ => .ok []
  | _ + 1, _, [] => .ok []
  | fuel + 1, prev, c :: cs =>
      match matchPrefix [.word ["len"], .spaces, .char '('] (c :: cs) with
      | some (_, rest) =>
          if isIdentChar prev then do
            return c :: (← substLenLoop expr stringLens globlNames fuel (some c) cs)
          else do
            let (len, rest) ← lenCall expr stringLens globlNames rest
            return (Nat.repr len).toList ++
              (← substLenLoop expr stringLens globlNames fuel (some ')') rest)
      | none => do
          return c :: (← substLenLoop expr stringLens globlNames fuel (some c) cs)

/-- `substLenCalls` -/
def substLenCalls (expr : String) (stringLens : JsMap Nat) (globlNames : List String) :
    Except String String := do
  let cs := expr.toList
  return String.ofList (← substLenLoop expr stringLens globlNames (cs.length + 1) none cs)

/-- The loop of `substCharLiterals`. -/
def substCharLoop (expr : String) : List Char → Except String (List Char)
  | [] => .ok []
  | '\'' :: c :: '\'' :: cs =>
      if c.toNat > 0xffff then .error ("Invalid character literal: " ++ expr)
      else if c.toNat > 255 then .error ("Character literal out of range: " ++ expr)
      else do return (Nat.repr c.toNat).toList ++ (← substCharLoop expr cs)
  | '\'' :: _ => .error ("Invalid character literal: " ++ expr)
  | c :: cs => do return c :: (← substCharLoop expr cs)

/-- `substCharLiterals` -/
def substCharLiterals (expr : String) : Except String String := do
  return String.ofList (← substCharLoop expr expr.toList)

end Rewriting

section Tokens

/-- The alternatives of the token pattern, in order. -/
def tokenPatterns : List (List Item) :=
  [symbolPattern,
    [.char '>', .plus hexChar],
    [.char '0', .one fun c => c == 'x' || c == 'X', .plus hexChar],
    [.char '0', .one fun c => c == 'o' || c == 'O', .plus octalChar],
    [.char '0', .one fun c => c == 'b' || c == 'B', .plus binaryChar],
    [.plus hexChar, .one fun c => c == 'H' || c == 'h'],
    [.plus octalChar, .one fun c => c == 'O' || c == 'o' || c == 'Q' || c == 'q'],
    [.plus binaryChar, .one fun c => c == 'B' || c == 'b'],
    [.plus Char.isDigit, .opt fun c => c == 'D' || c == 'd'],
    [.char '<', .char '<'],
    [.char '>', .char '>'],
    [.one fun c => "()+-*/%&|^~".toList.contains c]]

/-- The token at the front of the input. -/
def nextToken (cs : List Char) : Option (List Char × List Char) :=
  tokenPatterns.findSome? fun items =>
    (matchPrefix items cs).map fun r => (r.1.flatten, r.2)

def tokenLoop : Nat → List Char → List String
  | 0, _ => []
  | _ + 1, [] => []
  | fuel + 1, c :: cs =>
      match nextToken (c :: cs) with
      | some (token, rest) => String.ofList token :: tokenLoop fuel rest
      | none => tokenLoop fuel cs

/-- `rewritten.match(…)` -/
def tokens (s : String) : List String := tokenLoop s.toList.length s.toList

end Tokens

section Numbers

def digitValue (c : Char) : Nat :=
  if c.isDigit then c.toNat - '0'.toNat
  else if 'a' ≤ c && c ≤ 'f' then c.toNat - 'a'.toNat + 10
  else c.toNat - 'A'.toNat + 10

/-- `Number.parseInt(digits, radix)` -/
def parseInt (digits : List Char) (radix : Nat) : Number :=
  .ofInt (digits.foldl (fun v c => v * radix + digitValue c) 0 : Nat)

/-- `parseNumber` -/
def parseNumber (token : String) : Option Number :=
  let t := trim token
  let cs := t.toList
  if test [.char '>', .plus hexChar] t then some (parseInt (cs.drop 1) 16)
  else if test [.char '0', .one fun c => c == 'x' || c == 'X', .plus hexChar] t then
    some (parseInt (cs.drop 2) 16)
  else if test [.char '0', .one fun c => c == 'o' || c == 'O', .plus octalChar] t then
    some (parseInt (cs.drop 2) 8)
  else if test [.char '0', .one fun c => c == 'b' || c == 'B', .plus binaryChar] t then
    some (parseInt (cs.drop 2) 2)
  else if test [.plus hexChar, .one fun c => c == 'H' || c == 'h'] t then
    some (parseInt cs.dropLast 16)
  else if test [.plus octalChar, .one fun c => c == 'O' || c == 'o' || c == 'Q' || c == 'q'] t then
    some (parseInt cs.dropLast 8)
  else if test [.plus binaryChar, .one fun c => c == 'B' || c == 'b'] t then
    some (parseInt cs.dropLast 2)
  else if test [.plus Char.isDigit, .one fun c => c == 'D' || c == 'd'] t then
    some (parseInt cs.dropLast 10)
  else if test [.plus Char.isDigit] t then some (parseInt cs 10)
  else none

end Numbers

section Evaluation

variable (expr : String) (symbols : SymbolTable) (allowUndefined : Bool)

/-- The value of a token that is neither bracket nor sign. -/
def parseAtom (t : String) : Except String Number :=
  match parseNumber t with
  | some num => .ok num
  | none =>
      match symbols.get (toUpperCase t) with
      | some val => .ok val
      | none => if allowUndefined then .ok (.int 0) else .error ("Undefined symbol: " ++ t)

/-- `+`, `-` and `~` before an operand -/
def parseSign (t : String) : Option (Number → Except String Number) :=
  if t = "+" then some fun v => .ok v
  else if t = "-" then some fun v => .ok v.neg
  else if t = "~" then some fun v => .ok (.int (land (lnot v.bits) 0xffff))
  else none

/-- `parseMulDiv`: `*`, `/` and `%` -/
def mulDiv (t : String) : Option (Operator String Number) :=
  if t = "*" then some fun v r => .ok (v.mul r)
  else if t = "/" then some fun v r =>
    if r = .int 0 then .error ("Division by zero in expression: " ++ expr) else .ok (v.divTrunc r)
  else if t = "%" then some fun v r =>
    if r = .int 0 then .error ("Modulo by zero in expression: " ++ expr) else .ok (v.rem r)
  else none

/-- `parseAddSub`: `+` and `-` -/
def addSub (t : String) : Option (Operator String Number) :=
  if t = "+" then some fun v r => .ok (v.add r)
  else if t = "-" then some fun v r => .ok (v.sub r)
  else none

/-- `parseShift`: `<<` and `>>` -/
def shift (t : String) : Option (Operator String Number) :=
  if t = "<<" then some fun v r => .ok (.int (land (shl v.bits r.bits) 0xffff))
  else if t = ">>" then some fun v r => .ok (.int (land (ushr v.bits r.bits) 0xffff))
  else none

/-- `parseBitwiseAnd`, `parseBitwiseXor` and `parseBitwiseOr`: `&`, `^` or `|` -/
def bitwise (symbol : String) (f : Int → Int → Int) (t : String) :
    Option (Operator String Number) :=
  if t = symbol then some fun v r => .ok (.int (f v.bits r.bits)) else none

/-- The operands and operators of the evaluator, from `parsePrimary` up. -/
def evaluator : Algebra String Number where
  atom := parseAtom symbols allowUndefined
  unary := parseSign
  levels := [mulDiv expr, addSub, shift, bitwise "&" land, bitwise "^" lxor, bitwise "|" lor]
  noOperand := "Invalid expression: " ++ expr
  noBracket := "Missing ')' in expression: " ++ expr

/-- The value of a list of tokens. -/
def evalTokens (ts : List String) : Except String Number := do
  if ts.isEmpty then throw ("Empty expression: " ++ expr)
  let (result, rest) ← expression (evaluator expr symbols allowUndefined) (ts.length + 1) ts
  match rest with
  | [] => return result
  | t :: _ => throw ("Unexpected token in expression: " ++ t)

/-- `evalExpr` with the string lengths that `len()` may use -/
def evalExprLens (stringLens : JsMap Nat) (globlNames : List String) : Except String Number := do
  let rewritten ← substCharLiterals (← substLenCalls expr stringLens globlNames)
  evalTokens expr symbols allowUndefined (tokens rewritten)

/-- `evalExpr` without string lengths, as the passes call it -/
def evalExpr : Except String Number := evalExprLens expr symbols allowUndefined .empty []

end Evaluation

example : evalExpr "(1 + 2) * 0x10 - 'A' / 2 | ~0FFF0H" .empty false = .ok (.int 0x1f) := by
  decide +kernel

end AsmTs
end RetroCpu
