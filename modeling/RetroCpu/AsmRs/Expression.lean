import RetroCpu.Lib.JsMap
import RetroCpu.Lib.JsNumber
import RetroCpu.Lib.Precedence

/-!
# Expressions of the Rust assembler (`expression.rs`)

Values are `i32`: an operation whose result does not fit panics in a checked build, as do a
shift by 32 or more and a slice of a string that cuts a character.
-/

namespace RetroCpu
namespace AsmRs

open Js Precedence

/-- How a call ends that returns no value. -/
inductive Failure
  | error (message : String)
  | panic
deriving DecidableEq, Repr

/-- Defined symbols; nothing depends on the order of the entries. -/
abbrev SymbolTable := JsMap (BitVec 16)

section Characters

/-- `char::is_whitespace` -/
def isWhitespace (c : Char) : Bool :=
  let n := c.toNat
  (9 ≤ n && n ≤ 13) || n == 0x20 || n == 0x85 || n == 0xa0 || n == 0x1680 ||
    (0x2000 ≤ n && n ≤ 0x200a) || n == 0x2028 || n == 0x2029 || n == 0x202f || n == 0x205f ||
    n == 0x3000

/-- `u8::is_ascii_whitespace` -/
def isAsciiWhitespace (c : Char) : Bool :=
  c == ' ' || c == '\t' || c == '\n' || c == '\r' || c.toNat == 12

def trim (s : String) : String :=
  String.ofList ((s.toList.dropWhile isWhitespace).reverse.dropWhile isWhitespace).reverse

def toAsciiUppercase (s : String) : String := String.ofList (s.toList.map Char.toUpper)

/-- `char::to_digit` -/
def toDigit (radix : Nat) (c : Char) : Option Nat :=
  let v :=
    if c.isDigit then some (c.toNat - '0'.toNat)
    else if 'a' ≤ c && c ≤ 'z' then some (c.toNat - 'a'.toNat + 10)
    else if 'A' ≤ c && c ≤ 'Z' then some (c.toNat - 'A'.toNat + 10)
    else none
  v.filter (· < radix)

/-- `char::is_ascii_hexdigit` -/
def isHexDigit (c : Char) : Bool := (toDigit 16 c).isSome

end Characters

section Numbers

/-- The values of an `i32`. -/
def InI32 (x : Int) : Prop := -2 ^ 31 ≤ x ∧ x < 2 ^ 31

instance (x : Int) : Decidable (InI32 x) := inferInstanceAs (Decidable (_ ∧ _))

/-- The number of a sequence of digits. -/
def digitsValue (radix : Nat) (cs : List Char) : Option Nat :=
  cs.foldlM (fun v c => (toDigit radix c).map (v * radix + ·)) 0

/-- `i32::from_str_radix` -/
def fromStrRadix (cs : List Char) (radix : Nat) : Option Int :=
  let (negative, digits) : Bool × List Char :=
    match cs with
    | '-' :: rest => (true, rest)
    | '+' :: rest => (false, rest)
    | _ => (false, cs)
  if digits.isEmpty then none
  else
    ((digitsValue radix digits).map fun (n : Nat) => if negative then -(n : Int) else n).filter
      fun x => decide (InI32 x)

/-- `&t[..2]` and what follows; `none` where the slice would cut a character. -/
def split2 : List Char → Option (List Char × List Char)
  | a :: rest =>
      if a.utf8Size = 2 then some ([a], rest)
      else
        match rest with
        | b :: rest => if a.utf8Size = 1 ∧ b.utf8Size = 1 then some ([a, b], rest) else none
        | [] => none
  | [] => none

def byteLength (cs : List Char) : Nat := (cs.map Char.utf8Size).sum

/-- The notations with a suffix, and plain digits. -/
def suffixNumber (cs : List Char) : Except Failure (Option Int) :=
  let plain := if cs.all Char.isDigit then fromStrRadix cs 10 else none
  match cs.getLast? with
  | none => .ok plain
  | some suffix =>
      if byteLength cs ≤ 1 then .ok plain
      else if suffix.utf8Size ≠ 1 then .error .panic
      else
        let body := cs.dropLast
        let letter := suffix.toUpper
        .ok (
          if letter = 'H' ∧ body.all isHexDigit then fromStrRadix body 16
          else if (letter = 'O' ∨ letter = 'Q') ∧ (body.all fun c => '0' ≤ c && c ≤ '7') then
            fromStrRadix body 8
          else if letter = 'B' ∧ (body.all fun c => c == '0' || c == '1') then fromStrRadix body 2
          else if letter = 'D' ∧ body.all Char.isDigit then fromStrRadix body 10
          else plain)

/-- `parse_number` -/
def parseNumber (token : String) : Except Failure (Option Int) :=
  let cs := (trim token).toList
  let prefixed : Except Failure (Option Int) :=
    if byteLength cs ≤ 2 then suffixNumber cs
    else
      match split2 cs with
      | none => .error .panic
      | some (two, rest) =>
          if two = ['0', 'x'] ∨ two = ['0', 'X'] then .ok (fromStrRadix rest 16)
          else if two = ['0', 'o'] ∨ two = ['0', 'O'] then .ok (fromStrRadix rest 8)
          else if two = ['0', 'b'] ∨ two = ['0', 'B'] then .ok (fromStrRadix rest 2)
          else suffixNumber cs
  match cs with
  | '>' :: hex => if !hex.isEmpty ∧ hex.all isHexDigit then .ok (fromStrRadix hex 16) else prefixed
  | _ => prefixed

end Numbers

section Tokens

/-- The loop of `subst_char_literals`. -/
def substCharLoop (expr : String) : List Char → Except Failure (List Char)
  | [] => .ok []
  | '\'' :: c :: '\'' :: cs =>
      if c.toNat > 255 then .error (.error ("Character literal out of range: " ++ expr))
      else do return (Nat.repr c.toNat).toList ++ (← substCharLoop expr cs)
  | '\'' :: _ => .error (.error ("Invalid character literal: " ++ expr))
  | c :: cs => do return c :: (← substCharLoop expr cs)

/-- `subst_char_literals` -/
def substCharLiterals (expr : String) : Except Failure String := do
  return String.ofList (← substCharLoop expr expr.toList)

def isOperatorChar (c : Char) : Bool := "()+-*/%&|^~".toList.contains c

/-- `<<` or `>>` at the front -/
def isShiftAt (c : Char) (cs : List Char) : Bool :=
  (c == '<' || c == '>') && cs.head? == some c

/-- The slice of two bytes at `c`, where another byte follows, cuts no character. -/
def sliceFits (c : Char) (cs : List Char) : Bool :=
  c.utf8Size == 2 || (c.utf8Size == 1 && cs.head?.all fun d => d.utf8Size == 1)

/-- The inner loop of `tokenize`: a word, and what follows. -/
def wordLoop : List Char → Except Failure (List Char × List Char)
  | [] => .ok ([], [])
  | c :: cs =>
      if isAsciiWhitespace c ∨ isOperatorChar c then .ok ([], c :: cs)
      else if !sliceFits c cs then .error .panic
      else if isShiftAt c cs then .ok ([], c :: cs)
      else if c.utf8Size ≠ 1 ∧ cs ≠ [] then .error .panic
      else do
        let (word, rest) ← wordLoop cs
        return (c :: word, rest)

/-- The outer loop of `tokenize`. -/
def tokenizeLoop : Nat → List Char → Except Failure (List String)
  | 0, _ => .ok []
  | _ + 1, [] => .ok []
  | fuel + 1, c :: cs =>
      if isAsciiWhitespace c then tokenizeLoop fuel cs
      else if !sliceFits c cs then .error .panic
      else if isShiftAt c cs then do
        return String.ofList [c, c] :: (← tokenizeLoop fuel (cs.drop 1))
      else if isOperatorChar c then do return String.ofList [c] :: (← tokenizeLoop fuel cs)
      else do
        let (word, rest) ← wordLoop (c :: cs)
        return String.ofList word :: (← tokenizeLoop fuel rest)

attribute [grind =] tokenizeLoop

/-- `tokenize` -/
def tokenize (expr : String) : Except Failure (List String) :=
  tokenizeLoop expr.toList.length expr.toList

end Tokens

section Evaluation

variable (sourceExpr : String) (symbols : SymbolTable) (allowUndefined : Bool)

/-- The value of an `i32` operation. -/
def checked (x : Int) : Except Failure Int := if InI32 x then .ok x else .error .panic

/-- The operand of `parse_primary`. -/
def parseAtom (t : String) : Except Failure Int := do
  match ← parseNumber t with
  | some num => return num
  | none =>
      match symbols.get (toAsciiUppercase t) with
      | some v => return num v
      | none => if allowUndefined then return 0 else .error (.error ("Undefined symbol: " ++ t))

/-- `+`, `-` and `~` before an operand -/
def parseSign (t : String) : Option (Int → Except Failure Int) :=
  if t = "+" then some fun v => .ok v
  else if t = "-" then some fun v => checked (-v)
  else if t = "~" then some fun v => .ok (land (lnot v) 0xffff)
  else none

/-- `parse_mul` -/
def mulDiv (t : String) : Option (Operator Failure Int) :=
  if t = "*" then some fun v r => checked (v * r)
  else if t = "/" then some fun v r =>
    if r = 0 then .error (.error ("Division by zero in expression: " ++ sourceExpr))
    else checked (v.tdiv r)
  else if t = "%" then some fun v r =>
    if r = 0 then .error (.error ("Modulo by zero in expression: " ++ sourceExpr))
    -- the remainder of `i32::MIN` by -1 panics with the quotient
    else do
      let _ ← checked (v.tdiv r)
      return v.tmod r
  else none

/-- `parse_add` -/
def addSub (t : String) : Option (Operator Failure Int) :=
  if t = "+" then some fun v r => checked (v + r)
  else if t = "-" then some fun v r => checked (v - r)
  else none

/-- `parse_shift`; a count outside 0 to 31 panics -/
def shift (t : String) : Option (Operator Failure Int) :=
  let counted (f : Int → Int → Int) : Operator Failure Int := fun v r =>
    if 0 ≤ r ∧ r < 32 then .ok (land (f v r) 0xffff) else .error .panic
  if t = "<<" then some (counted shl)
  else if t = ">>" then some (counted ushr)
  else none

/-- `parse_and`, `parse_xor` and `parse_or` -/
def bitwise (symbol : String) (f : Int → Int → Int) (t : String) :
    Option (Operator Failure Int) :=
  if t = symbol then some fun v r => .ok (f v r) else none

/-- The operands and operators of the evaluator, from `parse_primary` up. -/
def evaluator : Algebra Failure Int where
  atom := parseAtom symbols allowUndefined
  unary := parseSign
  levels := [mulDiv sourceExpr, addSub, shift, bitwise "&" land, bitwise "^" lxor,
    bitwise "|" lor]
  noOperand := .error ("Invalid expression: " ++ sourceExpr)
  noBracket := .error ("Missing ')' in expression: " ++ sourceExpr)

def evalTokens (ts : List String) : Except Failure Int := do
  if ts.isEmpty then .error (.error ("Empty expression: " ++ sourceExpr))
  else
    let (result, rest) ← expression (evaluator sourceExpr symbols allowUndefined) (ts.length + 1) ts
    match rest with
    | [] => return result
    | t :: _ => .error (.error ("Unexpected token in expression: " ++ t))

/-- `eval_expr` -/
def evalExpr (expr : String) : Except Failure Int := do
  let rewritten ← substCharLiterals expr
  evalTokens expr symbols allowUndefined (← tokenize rewritten)

end Evaluation

example : evalExpr .empty false "(1 + 2) * 0x10 - 'A' / 2 | ~0FFF0H" = .ok 0x1f := by
  decide +kernel

section StringData

/-- `ascii_codes_from_string_arg` -/
def asciiCodesFromStringArg (arg : String) : Except Failure (Option (List Nat)) :=
  let t := (trim arg).toList
  if byteLength t < 2 ∨ t.head? ≠ some '"' ∨ t.getLast? ≠ some '"' then .ok none
  else
    let body := (t.drop 1).dropLast
    if body.contains '"' then .error (.error ("Invalid string literal: " ++ arg))
    else if body.any fun c => c.toNat > 255 then
      .error (.error ("String character out of range: " ++ arg))
    else .ok (some (body.map Char.toNat))

end StringData

end AsmRs
end RetroCpu
