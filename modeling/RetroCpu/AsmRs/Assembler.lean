import RetroCpu.AsmRs.Expression
import RetroCpu.AsmTs.Types
import RetroCpu.Lib.JsString

/-!
# The two passes of the Rust assembler (`assembler.rs`, `reloc.rs`)

Addresses and words are `u16`.  The maps of the source are unordered; nothing here depends
on the order of their entries.
-/

namespace RetroCpu
namespace AsmRs

open AsmTs (ParsedLine SymbolKind RelocWidth)
open Js (JsMap words)

abbrev Word := BitVec 16

section Types

structure SymbolInfo where
  value : Word
  kind : SymbolKind
  area : Option String
deriving DecidableEq, Repr

abbrev SymbolInfoTable := JsMap SymbolInfo

inductive RelocOperand
  | symbol (name : String)
  | word (value : Word) (area : Option String)
  | const (value : Word)
deriving DecidableEq, Repr

structure WordDiffReloc where
  byteAddr : Word
  left : RelocOperand
  right : RelocOperand
  area : Option String
  width : Option RelocWidth
deriving DecidableEq, Repr

structure EmittedWord where
  address : Word
  area : String
  value : Word
  lineNo : Nat
  source : String
deriving DecidableEq, Repr

structure AssemblyResult where
  words : List EmittedWord
  symbols : SymbolTable
  byteMode : Bool
  storageAddrs : List (Nat × Word)
  symbolInfos : SymbolInfoTable
  relocs : List WordDiffReloc
deriving DecidableEq

end Types

/-- `AsmError::new` -/
def fail {α : Type} (message : String) : Except Failure α := .error (.error message)

section Reloc

/-- `collect_globl_names` -/
def collectGloblNames (parsed : List ParsedLine) : List String :=
  parsed.flatMap fun line =>
    match line.op with
    | none => []
    | some op =>
        let op := toAsciiUppercase op
        if op = ".GLOBL" ∨ op = ".GLOBAL" then line.args.map toAsciiUppercase else []

/-- `build_symbol_infos` -/
def buildSymbolInfos (symbols : SymbolTable) (globlNames : List String)
    (symbolAreas : JsMap String) : SymbolInfoTable :=
  let infos := symbols.entries.foldl (fun (infos : SymbolInfoTable) entry =>
    let (name, value) := entry
    infos.set name ⟨value, if name ∈ globlNames then .global else .local, symbolAreas.get name⟩)
    .empty
  globlNames.foldl (fun infos name =>
    if infos.has name then infos else infos.set name ⟨0, .external, none⟩) infos

def isIdentChar (c : Char) : Bool := c.isAlphanum || c == '_' || c == '.' || c == '$'

/-- `is_simple_ident` -/
def isSimpleIdent (s : String) : Bool :=
  match s.toList with
  | [] => false
  | first :: rest =>
      (first.isAlpha || first == '_' || first == '.' || first == '$') && rest.all isIdentChar

/-- `strip_prefix` of one character, and trim -/
def stripMark (mark : Char) (t : String) : String :=
  match t.toList with
  | c :: rest => if c = mark then trim (String.ofList rest) else t
  | [] => t

/-- The first and the last character. -/
def wrappedIn (opening closing : Char) (t : String) : Bool :=
  t.toList.head? == some opening && t.toList.getLast? == some closing

/-- `t[1..t.len() - 1]` -/
def innerText (t : String) : String := String.ofList (t.toList.drop 1).dropLast

/-- `parse_simple_symbol_operand` -/
def parseSimpleSymbolOperand (expr : String) : Option String :=
  let t := stripMark '@' (stripMark '#' (trim expr))
  let t := if wrappedIn '(' ')' t || wrappedIn '[' ']' t then trim (innerText t) else t
  if isSimpleIdent t then some (toAsciiUppercase t) else none

variable (symbolInfos : SymbolInfoTable)

/-- `to_reloc_operand` -/
def toRelocOperand (name : String) : Option RelocOperand :=
  (symbolInfos.get name).map fun info =>
    if info.kind = .external then .symbol name else .word info.value info.area

/-- `match_word_diff_reloc` -/
def matchWordDiffReloc (expr : String) : Option (RelocOperand × RelocOperand) :=
  match Js.pieces (· == '-') (trim expr).toList with
  | [l, r] =>
      let l := trim (String.ofList l)
      let r := trim (String.ofList r)
      if isSimpleIdent l && isSimpleIdent r then
        match toRelocOperand symbolInfos (toAsciiUppercase l),
          toRelocOperand symbolInfos (toAsciiUppercase r) with
        | some (.word _ _), some (.word _ _) => none
        | some left, some right => some (left, right)
        | _, _ => none
      else none
  | _ => none

/-- The operand of a symbol, where the areas `areas` move. -/
def matchSymbol (areas : List String) (name : String) : Option (RelocOperand × RelocOperand) :=
  match symbolInfos.get name with
  | none => none
  | some info =>
      if info.kind = .external ∨ info.kind = .global then some (.symbol name, .const 0)
      else
        match info.area.map fun a => toAsciiUppercase (trim a) with
        | none => none
        | some area =>
            if area ∈ areas then some (.word info.value (some area), .const 0) else none

/-- `match_abs_addr_reloc` -/
def matchAbsAddrReloc (expr : String) : Option (RelocOperand × RelocOperand) :=
  match parseSimpleSymbolOperand expr with
  | none => none
  | some name =>
      matchSymbol symbolInfos ["_CODE", "_DATA", "_WORK", "_SYS_PAGE0", "_USR_PAGE0"] name

/-- What follows the star of `*SYM`, `(*SYM)` or `[*SYM]`. -/
def page0StarName (expr : String) : Option String :=
  let star (t : String) : Option String :=
    match t.toList with
    | '*' :: rest => some (trim (String.ofList rest))
    | _ => none
  let t := trim expr
  match star t with
  | some name => some name
  | none =>
      let opened := t.toList.head? == some '(' || t.toList.head? == some '['
      let closed := t.toList.length ≥ 2 &&
        (t.toList.getLast? == some ')' || t.toList.getLast? == some ']')
      if opened && closed then star (trim (innerText t)) else none

/-- `match_page0_star_reloc` -/
def matchPage0StarReloc (expr : String) : Option (RelocOperand × RelocOperand) :=
  match page0StarName expr with
  | none => none
  | some nameRaw =>
      match parseSimpleSymbolOperand nameRaw with
      | none => none
      | some name => matchSymbol symbolInfos ["_SYS_PAGE0", "_USR_PAGE0"] name

/-- The occurrence of a name of `n` characters at the front of `cs` stands alone. -/
def standsAlone (n : Nat) (before : Option Char) (cs : List Char) : Bool :=
  !(before.any isIdentChar) && !((cs.drop n).head?.any isIdentChar)

/-- `contains_word_ident`, over the occurrences that do not overlap; `cs` and `name` are in
upper case and `before` is the character before `cs`. -/
def containsWordIdent (name : List Char) : Nat → Option Char → List Char → Bool
  | 0, _, _ => false
  | fuel + 1, before, cs =>
      if cs.take name.length = name then
        let skip := max name.length 1
        standsAlone name.length before cs ||
          (skip ≤ cs.length && containsWordIdent name fuel (cs.take skip).getLast? (cs.drop skip))
      else
        match cs with
        | [] => false
        | c :: cs => containsWordIdent name fuel (some c) cs

end Reloc

section Areas

structure AreaLoc where
  pc : Word
  noload : Bool
deriving DecidableEq, Repr

structure AreaContext where
  current : String
  areas : JsMap AreaLoc

/-- `create_area_context` -/
def createAreaContext : AreaContext := ⟨"", JsMap.empty.set "" ⟨0, false⟩⟩

variable (ctx : AreaContext)

def currentLoc : AreaLoc := (ctx.areas.get ctx.current).getD ⟨0, false⟩

def areaPc : Word := (currentLoc ctx).pc

def setAreaPc (pc : Word) : AreaContext :=
  { ctx with areas := ctx.areas.set ctx.current { currentLoc ctx with pc } }

def areaNoload : Bool := (currentLoc ctx).noload

def switchArea (name : String) (noload : Bool) : AreaContext :=
  let key := toAsciiUppercase (trim name)
  let loc :=
    match ctx.areas.get key with
    | some loc => if noload then { loc with noload := true } else loc
    | none => ⟨0, noload⟩
  ⟨key, ctx.areas.set key loc⟩

def AREA_FLAGS : List String :=
  ["REL", "ABS", "CON", "OVR", "PAG", "NOPAG", "NOLOAD", "CODE", "DATA", "XDATA", "BIT"]

/-- `Line n: …` -/
def lineError (line : ParsedLine) (message : String) : String :=
  "Line " ++ Nat.repr line.lineNo ++ ": " ++ message

/-- `parse_area_directive` -/
def parseAreaDirective (line : ParsedLine) : Except Failure (String × Bool) :=
  let missing := lineError line ".area requires a name"
  if line.args.isEmpty ∨ trim (line.args.headD "") = "" then fail missing
  else
    let joined := (trim (" ".intercalate line.args)).toList
    let name := trim (String.ofList (joined.takeWhile (· ≠ '(')))
    let separator (c : Char) : Bool := isWhitespace c || c == ',' || c == '(' || c == ')'
    let flags := (words separator (joined.dropWhile (· ≠ '('))).map fun f =>
      toAsciiUppercase (String.ofList f)
    if name = "" then fail missing
    else
      match flags.find? fun f => !AREA_FLAGS.contains f with
      | some f =>
          fail (lineError line ("unknown .area flag '" ++ f ++ "' (REL/ABS/CON/OVR/PAG/NOLOAD/...)"))
      | none => .ok (name, toAsciiUppercase name == "_WORK" || flags.contains "NOLOAD")

end Areas

section Lines

/-- What the processors do differently. -/
structure Target where
  byteMode : Bool
  /-- The address units of an instruction, as the first pass counts them. -/
  instructionSize : ParsedLine → SymbolTable → Except Failure Word
  encode : ParsedLine → Word → SymbolTable → Except Failure (List Word)

/-- Address units of a word. -/
def Target.addrStep (target : Target) : Word := if target.byteMode then 2 else 1

/-- The byte address of an address of the target. -/
def Target.byteAddr (target : Target) (address : Word) : Word :=
  if target.byteMode then address else address * 2

/-- `expand_word_args` -/
def expandWordArgs (args : List String) : Except Failure (List String) := do
  let parts ← args.mapM fun arg => do
    match ← asciiCodesFromStringArg arg with
    | some codes => return codes.map Nat.repr
    | none => return [arg]
  return parts.flatten

def isDataOp (op : String) : Bool := op == ".WORD" || op == ".DW" || op == "DW"

def isStorageOp (op : String) : Bool := op == ".DS" || op == ".BLKW"

def isEquOp (op : String) : Bool := op == ".EQU" || op == "EQU"

/-- `.cpu`, `.globl` and `.global` -/
def isNoteOp (op : String) : Bool := op == ".CPU" || op == ".GLOBL" || op == ".GLOBAL"

/-- The operation of a line, in upper case. -/
def operation (line : ParsedLine) : Option String := line.op.map toAsciiUppercase

/-- `directive_size` -/
def directiveSize (target : Target) (line : ParsedLine) (op : String) : Except Failure Word := do
  if isDataOp op then
    let words := BitVec.ofNat 16 (← expandWordArgs line.args).length
    -- the product by 2 is a checked one
    if target.byteMode ∧ words.toNat * 2 ≥ 2 ^ 16 then .error .panic
    else return words * target.addrStep
  else return 0

/-- The address units of a reservation of `count` elements. -/
def storageSize (target : Target) (op : String) (count : Word) : Word :=
  if target.byteMode && op == ".BLKW" then count * 2 else count

end Lines

section FirstPass

variable (target : Target)

structure Pass1 where
  symbols : SymbolTable := .empty
  symbolAreas : JsMap String := .empty
  areas : AreaContext := createAreaContext

/-- The value of an expression, as an address. -/
def evalWord (expr : String) (symbols : SymbolTable) (allowUndefined : Bool) :
    Except Failure Word := do
  return BitVec.ofInt 16 (← evalExpr symbols allowUndefined expr)

/-- The label of a line that is no `.equ`. -/
def pass1Label (st : Pass1) (line : ParsedLine) : Except Failure Pass1 :=
  let isLabelEqu := (operation line).any isEquOp
  match line.label with
  | none => .ok st
  | some label =>
      if isLabelEqu then .ok st
      else
        let key := toAsciiUppercase label
        if st.symbols.has key then fail (lineError line ("Duplicate symbol " ++ label))
        else .ok { st with
          symbols := st.symbols.set key (areaPc st.areas)
          symbolAreas := st.symbolAreas.set key st.areas.current }

/-- `LABEL .equ value`, with the label in the place of the operation -/
def isSdasEqu (line : ParsedLine) : Bool :=
  match line.label, line.op with
  | none, some op =>
      line.args.length ≥ 2 && op.toList.head? != some '.' && toAsciiUppercase op != "DW" &&
        toAsciiUppercase (line.arg 0) == ".EQU"
  | _, _ => false

def pass1Equ (st : Pass1) (line : ParsedLine) : Except Failure Pass1 :=
  match line.label with
  | none => fail (lineError line ".equ requires a label")
  | some label =>
      if line.args.length ≠ 1 then fail (lineError line ".equ requires one argument")
      else do
        let v ← evalWord (line.arg 0) st.symbols true
        return { st with symbols := st.symbols.set (toAsciiUppercase label) v }

/-- The areas after a line that is no `.equ`. -/
def pass1Areas (st : Pass1) (line : ParsedLine) (op : String) : Except Failure AreaContext :=
  let areas := st.areas
  if isNoteOp op then .ok areas
  else if op = ".AREA" then do
    let (name, noload) ← parseAreaDirective line
    return switchArea areas name noload
  else if op = ".ORG" then
    if line.args.length ≠ 1 then fail (lineError line ".org requires one argument")
    else do return setAreaPc areas (← evalWord (line.arg 0) st.symbols true)
  else if isStorageOp op then
    if line.args.length ≠ 1 then
      fail (lineError line (line.op.getD "" ++ " requires one argument"))
    else do
      let count ← evalExpr st.symbols true (line.arg 0)
      if count < 0 then fail (lineError line (line.op.getD "" ++ " count must not be negative"))
      else return setAreaPc areas (areaPc areas + storageSize target op (BitVec.ofInt 16 count))
  else do
    let size ← directiveSize target line op
    if size ≠ 0 then return setAreaPc areas (areaPc areas + size)
    else return setAreaPc areas (areaPc areas + (← target.instructionSize line st.symbols))

/-- One line of the first pass. -/
def pass1Line (st : Pass1) (line : ParsedLine) : Except Failure Pass1 := do
  let st ← pass1Label st line
  match operation line with
  | none => return st
  | some op =>
      if isSdasEqu line then
        let v ← evalWord (line.arg 1) st.symbols true
        return { st with symbols := st.symbols.set op v }
      else if isEquOp op then pass1Equ st line
      else return { st with areas := ← pass1Areas target st line op }

def pass1 (lines : List ParsedLine) : Except Failure Pass1 := lines.foldlM (pass1Line target) {}

end FirstPass

section SecondPass

variable (target : Target) (symbols : SymbolTable) (symbolInfos : SymbolInfoTable)

structure Pass2 where
  words : List EmittedWord := []
  relocs : List WordDiffReloc := []
  /-- Addresses of the reservations, newest first. -/
  storageAddrs : List (Nat × Word) := []
  areas : AreaContext := createAreaContext

/-- The word of a data operand, and its relocation. -/
def evalWordArg (arg : String) (areas : AreaContext) : Except Failure (Word × List WordDiffReloc) :=
  if (matchWordDiffReloc symbolInfos arg).isSome then
    fail ("unsupported external expression '" ++ arg ++
      "' (sdld cannot relocate A-B; both labels must be in the same module)")
  else
    match matchAbsAddrReloc symbolInfos arg with
    | some (left, right) => do
        let placeholder : Word ←
          match left with
          | .symbol _ => pure 0
          | .word _ _ => do
              let v ← evalWord arg symbols false
              pure (if target.byteMode then v else v * 2)
          | .const _ => evalWord arg symbols false
        return (placeholder,
          [⟨target.byteAddr (areaPc areas), left, right, some areas.current, none⟩])
    | none =>
        let expr := (toAsciiUppercase arg).toList
        let external (entry : String × SymbolInfo) : Bool :=
          entry.2.kind = .external &&
            containsWordIdent (toAsciiUppercase entry.1).toList (expr.length + 1) none expr
        if symbolInfos.entries.any external then
          fail ("unsupported external expression '" ++ arg ++
            "' (only A - B address diffs are supported)")
        else do return (← evalWord arg symbols false, [])

/-- An output word at the location counter, which no area without image has. -/
def emitWord (st : Pass2) (line : ParsedLine) (value : Word) : List EmittedWord :=
  if areaNoload st.areas then []
  else [⟨areaPc st.areas, st.areas.current, value, line.lineNo, line.text⟩]

/-- Emit a word and advance. -/
def pushWord (line : ParsedLine) (st : Pass2) (value : Word) : Pass2 :=
  { st with
    words := st.words ++ emitWord st line value
    areas := setAreaPc st.areas (areaPc st.areas + target.addrStep) }

/-- One word of a data line. -/
def pass2Word (line : ParsedLine) (st : Pass2) (arg : String) : Except Failure Pass2 := do
  let (value, relocs) ← evalWordArg target symbols symbolInfos arg st.areas
  let st := pushWord target line st value
  return { st with relocs := st.relocs ++ relocs }

/-- The table of the encoder: external symbols count as 0. -/
def symbolsForEncode : SymbolTable :=
  symbolInfos.entries.foldl (fun (table : SymbolTable) entry =>
    if entry.2.kind = .external ∧ !table.has entry.1 then table.set entry.1 0 else table) symbols

/-- Replace the last element. -/
def mapLast {α : Type} (f : α → α) : List α → List α
  | [] => []
  | [a] => [f a]
  | a :: b :: l => a :: mapLast f (b :: l)

attribute [grind =] mapLast

/-- What a relocation stores in the last word of an instruction. -/
def absValue (left : RelocOperand) (v : Word) : Word :=
  match left with
  | .symbol _ => 0
  | .word _ _ => if target.byteMode then v else v * 2
  | .const _ => v

/-- `apply_tms9995_abs_reloc_to_last_word` and `apply_mn1613_abs_reloc_to_last_word` -/
def applyAbsReloc (line : ParsedLine) (pc : Word) (area : String) (ws : List EmittedWord) :
    List EmittedWord × List WordDiffReloc :=
  match line.args.findSome? (matchAbsAddrReloc symbolInfos), ws.getLast? with
  | some (left, right), some last =>
      let byteAddr := if target.byteMode then last.address else (pc + 1) * 2
      (mapLast (fun w => { w with value := absValue target left w.value }) ws,
        [⟨byteAddr, left, right, some area, none⟩])
  | _, _ => (ws, [])

/-- What a zero-page relocation stores in the word of an instruction. -/
def low8Value (left : RelocOperand) (v : Word) : Word :=
  match left with
  | .symbol _ => v &&& 0xff00
  | .word offset _ => (v &&& 0xff00) ||| (offset * 2 &&& 0xff)
  | .const _ => v

/-- `apply_mn1613_page0_reloc_to_last_word` -/
def applyPage0Reloc (line : ParsedLine) (pc : Word) (area : String) (ws : List EmittedWord) :
    List EmittedWord × List WordDiffReloc :=
  match line.args.findSome? (matchPage0StarReloc symbolInfos), ws.getLast? with
  | some (left, right), some _ =>
      (mapLast (fun w => { w with value := low8Value left w.value }) ws,
        [⟨pc * 2 + 1, left, right, some area, some .low8⟩])
  | _, _ => (ws, [])

/-- The words of an instruction at the location counter, which runs along. -/
def instructionWords (line : ParsedLine) (st : Pass2) (ws : List Word) : Pass2 :=
  ws.foldl (pushWord target line) { st with words := [] }

/-- The relocation that the operands of an instruction ask for. -/
def relocateInstruction (line : ParsedLine) (pc : Word) (area : String) (count : Nat)
    (ws : List EmittedWord) : List EmittedWord × List WordDiffReloc :=
  if count ≥ 2 then applyAbsReloc target symbolInfos line pc area ws
  else if count = 1 ∧ !target.byteMode then applyPage0Reloc symbolInfos line pc area ws
  else (ws, [])

def pass2Instruction (st : Pass2) (line : ParsedLine) : Except Failure Pass2 :=
  let pc := areaPc st.areas
  match target.encode line pc (symbolsForEncode symbols symbolInfos) with
  | .error (.error e) =>
      fail (lineError line (e ++ " (" ++ trim line.text ++ ")"))
  | .error .panic => .error .panic
  | .ok ws =>
      let emitted := instructionWords target line st ws
      let (words, relocs) :=
        relocateInstruction target symbolInfos line pc st.areas.current ws.length emitted.words
      .ok { emitted with words := st.words ++ words, relocs := st.relocs ++ relocs }

/-- The first operand, or `0`. -/
def firstArg (line : ParsedLine) : String := line.args.headD "0"

/-- One line of the second pass. -/
def pass2Line (st : Pass2) (line : ParsedLine) : Except Failure Pass2 :=
  match operation line with
  | none => .ok st
  | some op =>
      if isNoteOp op then .ok st
      else if op = ".AREA" then do
        let (name, noload) ← parseAreaDirective line
        return { st with areas := switchArea st.areas name noload }
      else if op = ".ORG" then do
        return { st with areas := setAreaPc st.areas (← evalWord (firstArg line) symbols false) }
      else if isEquOp op then .ok st
      else if isStorageOp op then do
        let count ← evalWord (firstArg line) symbols false
        let pc := areaPc st.areas
        return { st with
          storageAddrs := (line.lineNo, pc) :: st.storageAddrs
          areas := setAreaPc st.areas (pc + storageSize target op count) }
      else if isDataOp op then do
        (← expandWordArgs line.args).foldlM (pass2Word target symbols symbolInfos line) st
      else if op.toList.head? = some '.' then .ok st
      else pass2Instruction target symbols symbolInfos st line

def pass2 (lines : List ParsedLine) : Except Failure Pass2 :=
  lines.foldlM (pass2Line target symbols symbolInfos) {}

end SecondPass

/-- `assemble`, behind `parse_source` -/
def assemble (target : Target) (parsed : List ParsedLine) : Except Failure AssemblyResult := do
  let globlNames := collectGloblNames parsed
  let first ← pass1 target parsed
  let symbolInfos := buildSymbolInfos first.symbols globlNames first.symbolAreas
  let second ← pass2 target first.symbols symbolInfos parsed
  return {
    words := second.words
    symbols := first.symbols
    byteMode := target.byteMode
    storageAddrs := second.storageAddrs
    symbolInfos
    relocs := second.relocs }

end AsmRs
end RetroCpu
