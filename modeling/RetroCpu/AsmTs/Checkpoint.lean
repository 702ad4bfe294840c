import RetroCpu.AsmTs.AreaOrder
import RetroCpu.AsmTs.Types

/-!
# Checkpoints of comments (`checkpoint.ts`)

`; @cp name` marks the next line that emits something.
-/

namespace RetroCpu
namespace AsmTs

open Js

section Comments

/-- A name behind `cp`: white space, and then what is not white space. -/
def checkpointTail (cs : List Char) : List Char :=
  match cs with
  | c :: rest => if isSpace c then (rest.dropWhile isSpace).takeWhile (!isSpace ·) else []
  | [] => []

/-- What follows the first `; @cp`. -/
def findCheckpoint : List Char → Option (List Char)
  | [] => none
  | c :: cs =>
      let here :=
        if c = ';' then
          match cs.dropWhile isSpace with
          | mark :: letterC :: letterP :: rest =>
              if (mark = '@' ∨ mark.toNat = 0xff20) ∧ letterC.toUpper = 'C' ∧ letterP.toUpper = 'P'
              then some (checkpointTail rest)
              else none
          | _ => none
        else none
      match here with
      | some name => some name
      | none => findCheckpoint cs

/-- `checkpointNameInLine` -/
def checkpointNameInLine (text : String) (lineNo : Nat) : Except String (Option String) :=
  match findCheckpoint text.toList with
  | none => .ok none
  | some cs =>
      let name := String.ofList cs
      if test [.one nameStart, .star namePart] name then .ok (some name)
      else .error ("Line " ++ Nat.repr lineNo ++ ": invalid checkpoint name \"" ++ name ++
        "\" (; @cp は英数字と _ のみ、先頭は英字/_)")

end Comments

section Binding

def SKIP_PSEUDO : List String :=
  ["CPU", "AREA", "ORG", "INCLUDE", "EQU", "GLOBL", "GLOBAL", "MACRO", "ENDM", "IF", "ELSE",
    "ENDIF", "IFDEF", "IFNDEF", "LIST", "NLIST", "MODULE"]

/-- An instruction or a data line. -/
def isEmittingLine (line : ParsedLine) : Bool :=
  match line.op.filter (· ≠ "") with
  | none => false
  | some op =>
      let op := toUpperCase op
      let op := if startsWith op '.' then tail op else op
      !SKIP_PSEUDO.contains op

/-- The names that wait for a line, and the lines that have been found. -/
structure Binding where
  pending : List String := []
  bound : List (String × Nat) := []

def bindLine (b : Binding) (line : ParsedLine) : Except String Binding := do
  let target (name : String) := (name, line.lineNo)
  match ← checkpointNameInLine line.text line.lineNo with
  | some name =>
      if isEmittingLine line then
        return { bound := b.bound ++ b.pending.map target ++ [target name] }
      else return { b with pending := b.pending ++ [name] }
  | none =>
      if isEmittingLine line then return { bound := b.bound ++ b.pending.map target }
      else return b

def padSerial (n : Nat) : String :=
  let digits := (Nat.repr n).toList
  String.ofList (List.replicate (4 - digits.length) '0' ++ digits)

/-- One bound name: its serial number, area and address. -/
def placeCheckpoint (words : List EmittedWord) (storageAddrs : List (Nat × Int))
    (lineAreas : List (Nat × String)) (byName : JsMap Nat) (b : String × Nat) :
    Except String (AsmCheckpoint × JsMap Nat) :=
  let next := (byName.get b.1).getD 0 + 1
  let place (area : String) (address : Int) : AsmCheckpoint × JsMap Nat :=
    (⟨b.1, padSerial next, canonicalAreaName area, address⟩, byName.set b.1 next)
  match words.find? (·.lineNo = b.2) with
  | some word => .ok (place word.area word.address)
  | none =>
      match storageAddrs.lookup b.2 with
      | some storage => .ok (place ((lineAreas.lookup b.2).getD "_CODE") storage)
      | none =>
          .error ("checkpoint \"" ++ b.1 ++ "\" has no address at line " ++ Nat.repr b.2)

def placeCheckpoints (words : List EmittedWord) (storageAddrs : List (Nat × Int))
    (lineAreas : List (Nat × String)) :
    JsMap Nat → List (String × Nat) → Except String (List AsmCheckpoint)
  | _, [] => .ok []
  | byName, b :: rest => do
      let (cp, byName) ← placeCheckpoint words storageAddrs lineAreas byName b
      return cp :: (← placeCheckpoints words storageAddrs lineAreas byName rest)

/-- `collectCheckpoints`; of two entries for a line in the maps, the newest comes first. -/
def collectCheckpoints (parsed : List ParsedLine) (words : List EmittedWord)
    (storageAddrs : List (Nat × Int)) (lineAreas : List (Nat × String)) :
    Except String (List AsmCheckpoint) := do
  let b ← parsed.foldlM bindLine {}
  if !b.pending.isEmpty then
    throw ("checkpoint has no following instruction: " ++ ", ".intercalate b.pending)
  placeCheckpoints words storageAddrs lineAreas .empty b.bound

/-- The symbol of a checkpoint in an object file. -/
def checkpointId (name serial : String) : String := "__CP$" ++ name ++ "$" ++ serial

end Binding

end AsmTs
end RetroCpu
