import RetroCpu.AsmTs.Types
import RetroCpu.Lib.JsString

/-!
# Source lines (`parser.ts`)

A parser reads an input from an index on; it yields a value and the next index, or what it
expected and where.  Indices count characters.
-/

namespace RetroCpu
namespace AsmTs
namespace LineParser

open Js

section Combinators

/-- `ParseResult<T>` -/
inductive ParseResult (α : Type)
  | ok (value : α) (next : Nat)
  | ng (expected : String) (index : Nat)
deriving DecidableEq, Repr

/-- `Parser<T>` -/
abbrev Parser (α : Type) := List Char → Nat → ParseResult α

variable {α β σ : Type}

def mapP (parser : Parser α) (fn : α → β) : Parser β := fun input index =>
  match parser input index with
  | .ok value next => .ok (fn value) next
  | .ng expected index => .ng expected index

def seqP (left : Parser α) (right : Parser β) : Parser (α × β) := fun input index =>
  match left input index with
  | .ng expected index => .ng expected index
  | .ok value next =>
      match right input next with
      | .ng expected index => .ng expected index
      | .ok value' next' => .ok (value, value') next'

/-- Where both fail, the failure further on is reported. -/
def orP (first second : Parser α) : Parser α := fun input index =>
  match first input index with
  | .ok value next => .ok value next
  | .ng expected failed =>
      match second input index with
      | .ok value next => .ok value next
      | .ng expected' failed' =>
          if failed' ≥ failed then .ng expected' failed' else .ng expected failed

def optionalP (parser : Parser α) : Parser (Option α) := fun input index =>
  match parser input index with
  | .ok value next => .ok (some value) next
  | .ng _ _ => .ok none index

/-- The loop of `manyP`, which ends where the parser fails or stays. -/
def manyLoop (parser : Parser α) (input : List Char) : Nat → Nat → List α × Nat
  | 0, cur => ([], cur)
  | fuel + 1, cur =>
      match parser input cur with
      | .ng _ _ => ([], cur)
      | .ok value next =>
          if next = cur then ([], cur)
          else
            let (values, last) := manyLoop parser input fuel next
            (value :: values, last)

def manyP (parser : Parser α) : Parser (List α) := fun input index =>
  let (values, last) := manyLoop parser input (input.length + 1) index
  .ok values last

def charP (ch : Char) : Parser Char := fun input index =>
  if input[index]? = some ch then .ok ch (index + 1)
  else .ng ("'" ++ String.singleton ch ++ "'") index

/-- The match of a pattern at the index -/
def regexP (re : List Item) (expected : String) : Parser String := fun input index =>
  match matchPrefix re (input.drop index) with
  | some (segments, _) =>
      .ok (String.ofList segments.flatten) (index + segments.flatten.length)
  | none => .ng expected index

/-- At least one item, with separators in between. -/
def sepBy1P (item : Parser α) (sep : Parser σ) : Parser (List α) := fun input index =>
  match item input index with
  | .ng expected index => .ng expected index
  | .ok first next =>
      match manyP (seqP sep item) input next with
      | .ng expected index => .ng expected index
      | .ok rest last => .ok (first :: rest.map Prod.snd) last

end Combinators

section Comments

/-- The loop of `stripLineComment`; `quote` is the quotation mark that is open. -/
def stripLoop : Option Char → List Char → List Char
  | _, [] => []
  | some q, ch :: cs => ch :: stripLoop (if ch = q then none else some q) cs
  | none, ch :: cs =>
      if ch = '\'' ∨ ch = '"' then ch :: stripLoop (some ch) cs
      else if ch = ';' then []
      else if ch = '/' ∧ cs.head? = some '/' then []
      else ch :: stripLoop none cs

/-- `stripLineComment` -/
def stripLineComment (line : List Char) : List Char := stripLoop none line

end Comments

section Lines

/-- `[ \t]` -/
def isBlank (c : Char) : Bool := c == ' ' || c == '\t'

def ws0 : Parser String := regexP [.star isBlank] "whitespace"

def ws1 : Parser String := regexP [.plus isBlank] "whitespace"

/-- `[A-Za-z_.$][A-Za-z0-9_.$]*` -/
def identItems : List Item := [.one symbolStart, .star symbolPart]

def ident : Parser String := regexP identItems "label"

def opToken : Parser String := regexP [.plus fun c => !isSpace c] "opcode"

/-- `parseLabelDecl` -/
def parseLabelDecl : Parser String := mapP (seqP ident (charP ':')) fun r => r.1

/-- The characters up to and with a closing quotation mark, and those behind it. -/
def skipQuote (q : Char) : List Char → List Char × List Char
  | [] => ([], [])
  | ch :: cs =>
      if ch = q then ([ch], cs)
      else
        let (inside, rest) := skipQuote q cs
        (ch :: inside, rest)

/-- The loop of `parseOperand`: the characters up to a comma outside of brackets and quotes. -/
def operandLoop : Nat → Int → Int → List Char → List Char
  | 0, _, _, _ => []
  | _ + 1, _, _, [] => []
  | fuel + 1, bracket, paren, ch :: cs =>
      if (ch = '\'' ∨ ch = '"') ∧ bracket = 0 ∧ paren = 0 then
        let (inside, rest) := skipQuote ch cs
        ch :: inside ++ operandLoop fuel bracket paren rest
      else if ch = '[' then ch :: operandLoop fuel (bracket + 1) paren cs
      else if ch = ']' then ch :: operandLoop fuel (bracket - 1) paren cs
      else if ch = '(' then ch :: operandLoop fuel bracket (paren + 1) cs
      else if ch = ')' then ch :: operandLoop fuel bracket (paren - 1) cs
      else if ch = ',' ∧ bracket = 0 ∧ paren = 0 then []
      else ch :: operandLoop fuel bracket paren cs

attribute [grind =] operandLoop

/-- The characters of the operand at the front of some characters -/
def operandChars (cs : List Char) : List Char := operandLoop (cs.length + 1) 0 0 cs

/-- `parseOperand` -/
def parseOperand : Parser String := fun input index =>
  let taken := operandChars (input.drop index)
  let token := trimChars taken
  if token = [] then .ng "operand" index
  else .ok (String.ofList token) (index + taken.length)

/-- `parseArgsList` -/
def parseArgsList : Parser (List String) :=
  sepBy1P parseOperand (mapP (seqP (seqP ws0 (charP ',')) ws0) fun _ => ",")

/-- `ParsedBody` -/
structure ParsedBody where
  label : Option String
  op : Option String
  args : List String
deriving DecidableEq, Repr

/-- `tryParseSdasStyleEqu`: `NAME .equ value` without a colon, on the rest of a body.  The word
boundary of the pattern is left out, as a blank follows. -/
def tryParseSdasStyleEqu (rest : List Char) : Option ParsedBody :=
  let items := identItems ++ [.plus isBlank, .word [".equ", "equ"], .plus isBlank, .plus anyChar]
  match matchAll items rest with
  | some [start, part, _, op, _, value] =>
      some
        { label := some (String.ofList (start ++ part))
          op := some (if startsWith (String.ofList op) '.' then ".EQU" else "EQU")
          args := [String.ofList (trimChars value)] }
  | _ => none

/-- `NAME .ds` and `NAME .blkw` without a colon: the directive and the name. -/
def dsNoColon (rest : List Char) : Option (String × String) :=
  match matchPrefix (identItems ++ [.plus isBlank, .word [".ds", ".blkw"]]) rest with
  | some ([start, part, _, directive], behind) =>
      -- the word boundary
      if behind.head?.any namePart then none
      else some (String.ofList directive, String.ofList (start ++ part))
  | _ => none

/-- The operands of an operation, if there are any. -/
def opTail : Parser (List String) :=
  orP (mapP (seqP ws1 parseArgsList) fun r => r.2) (mapP ws0 fun _ => [])

/-- An operation and its operands, up to the end of the body. -/
def parseOperation (label : Option String) : Parser ParsedBody := fun body cur =>
  match opToken body cur with
  | .ng expected index => .ng expected index
  | .ok op cur =>
      match opTail body cur with
      | .ng expected index => .ng expected index
      | .ok args cur =>
          match ws0 body cur with
          | .ng expected index => .ng expected index
          | .ok _ cur =>
              if cur ≠ body.length then .ng "end of line" cur
              else .ok { label := label, op := some (toUpperCase op), args := args } cur

/-- `parseBody` -/
def parseBody (body : List Char) : ParseResult ParsedBody :=
  match optionalP parseLabelDecl body 0 with
  | .ng expected index => .ng expected index
  | .ok label cur =>
      match ws0 body cur with
      | .ng expected index => .ng expected index
      | .ok _ cur =>
          if cur ≥ body.length then .ok { label := label, op := none, args := [] } cur
          else
            match label with
            | some name => parseOperation (some name) body cur
            | none =>
                match tryParseSdasStyleEqu (body.drop cur) with
                | some parsed => .ok parsed body.length
                | none =>
                    match dsNoColon (body.drop cur) with
                    | some (directive, name) =>
                        .ng (directive ++ " label must end with ':' (write " ++ name ++ ": " ++
                          directive ++ " ...)") cur
                    | none => parseOperation none body cur

end Lines

section Sources

/-- `replace(/\r\n/g, "\n")` -/
def joinLineEnds : List Char → List Char
  | '\r' :: '\n' :: cs => '\n' :: joinLineEnds cs
  | c :: cs => c :: joinLineEnds cs
  | [] => []

/-- A line of the source, as `parseSource` parses it. -/
def parseLine (lineNo : Nat) (raw : List Char) : Except String ParsedLine :=
  let stripped := stripLineComment raw
  let body := trimChars stripped
  let text := String.ofList raw
  if body = [] then .ok { lineNo := lineNo, text := text, label := none, op := none, args := [] }
  else if stripped.head? = some '.' then
    .error ("Line " ++ Nat.repr lineNo ++ ": pseudo-op must not start in column 1 " ++
      "(indent .cpu/.area/.org/.include/.equ; labels go in column 1)")
  else
    match parseBody body with
    | .ng expected index =>
        .error ("Parse error at line " ++ Nat.repr lineNo ++ " (col " ++ Nat.repr (index + 1) ++
          "): expected " ++ expected)
    | .ok parsed _ =>
        .ok
          { lineNo := lineNo
            text := text
            label := parsed.label
            op := parsed.op
            args := parsed.args }

/-- The loop of `parseSource` -/
def parseLines : Nat → List (List Char) → Except String (List ParsedLine)
  | _, [] => .ok []
  | lineNo, raw :: lines => do
      let parsed ← parseLine lineNo raw
      return parsed :: (← parseLines (lineNo + 1) lines)

/-- `parseSource`; its lines as they stand are the `text` of the parsed ones. -/
def parseSource (text : String) : Except String (List ParsedLine) :=
  parseLines 1 (pieces (· == '\n') (joinLineEnds text.toList))

example : parseBody "A: .word (1, 2), ',' ".toList =
    .ok { label := some "A", op := some ".WORD", args := ["(1, 2)", "','"] } 21 := by
  decide

end Sources

end LineParser
end AsmTs
end RetroCpu
