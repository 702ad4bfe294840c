import RetroCpu.AsmTs.Checkpoint
import RetroCpu.AsmTs.Mn1613Encoder
import RetroCpu.AsmTs.Reloc

/-!
# The two passes of the assembler (`assembler.ts`)

Both passes are loops over the parsed lines.  A pass is a step on its state for one line,
folded over the source.  What the processors do differently is a `Target`; the test whether
an operand mentions a symbol, which the source makes from a pattern around the name, is a
parameter.
-/

namespace RetroCpu
namespace AsmTs

open Js

section Areas

/-- The location counter of an area. -/
structure AreaLoc where
  pc : Int
  noload : Bool
deriving DecidableEq, Repr

structure AreaContext where
  current : String
  areas : JsMap AreaLoc
deriving DecidableEq

/-- The unnamed area at 0. -/
def createAreaContext : AreaContext := ⟨"", JsMap.empty.set "" ⟨0, false⟩⟩

variable (ctx : AreaContext)

def currentLoc : AreaLoc := (ctx.areas.get ctx.current).getD ⟨0, false⟩

def areaPc : Int := (currentLoc ctx).pc

def setAreaPc (pc : Int) : AreaContext :=
  { ctx with areas := ctx.areas.set ctx.current { currentLoc ctx with pc := land pc 0xffff } }

def areaNoload : Bool := (currentLoc ctx).noload

def switchArea (name : String) (noload : Bool) : AreaContext :=
  let key := toUpperCase name
  let loc :=
    match ctx.areas.get key with
    | none => ⟨0, noload⟩
    | some loc => if noload then { loc with noload := true } else loc
  ⟨key, ctx.areas.set key loc⟩

def AREA_FLAGS : List String :=
  ["REL", "ABS", "CON", "OVR", "PAG", "NOPAG", "NOLOAD", "CODE", "DATA", "XDATA", "BIT"]

/-- The name and the `NOLOAD` attribute of `.area`. -/
def parseAreaDirective (args : List String) (lineNo : Nat) : Except String (String × Bool) :=
  let missing := "Line " ++ Nat.repr lineNo ++ ": .area requires a name"
  if args.isEmpty ∨ trim (args.headD "") = "" then .error missing
  else
    let joined := (trim (" ".intercalate args)).toList
    let name := trim (String.ofList (joined.takeWhile (· ≠ '(')))
    let flagText := joined.dropWhile (· ≠ '(')
    let separator (c : Char) : Bool := isSpace c || c == ',' || c == '(' || c == ')'
    let flags := (words separator flagText).map fun f => toUpperCase (String.ofList f)
    if name = "" then .error missing
    else
      match flags.find? fun f => !AREA_FLAGS.contains f with
      | some f =>
          .error ("Line " ++ Nat.repr lineNo ++ ": unknown .area flag '" ++ f ++
            "' (REL/ABS/CON/OVR/PAG/NOLOAD/...)")
      | none => .ok (name, toUpperCase name == "_WORK" || flags.contains "NOLOAD")

/-- `snapshotAreas`: the sizes that the second pass has reached. -/
def snapshotAreas : List AreaInfo :=
  let byName := ctx.areas.entries.foldl (fun (byName : JsMap AreaInfo) entry =>
    let (name, loc) := entry
    if name = "" ∧ loc.pc = 0 then byName
    else
      let key := canonicalAreaName name
      let noload := loc.noload || key == "_WORK"
      match byName.get key with
      | none => byName.set key ⟨key, loc.pc, noload⟩
      | some prev => byName.set key { prev with
          size := max prev.size loc.pc
          noload := prev.noload || noload }) .empty
  (orderLinkAreaNames (byName.entries.map (·.1))).filterMap byName.get

end Areas

section Lines

/-- What both passes make of an operation. -/
inductive LineKind
  | equ
  | org
  | area
  /-- `.globl`, `.global` and `.cpu` -/
  | note
  /-- `.ds` and `.blkw` -/
  | storage
  /-- `.word`, `.dw` and `dw` -/
  | data
  | otherDirective
  | instruction
deriving DecidableEq, Repr

def isDirective (op : String) : Bool := startsWith op '.' || op == "DW"

/-- The tests of the passes, in their order; `op` is in upper case. -/
def lineKind (op : String) : LineKind :=
  if op = ".EQU" ∨ op = "EQU" then .equ
  else if op = ".ORG" then .org
  else if op = ".AREA" then .area
  else if op = ".GLOBL" ∨ op = ".GLOBAL" ∨ op = ".CPU" then .note
  else if op = ".DS" ∨ op = ".BLKW" then .storage
  else if op = ".WORD" ∨ op = ".DW" ∨ op = "DW" then .data
  else if isDirective op then .otherDirective
  else .instruction

/-- The operation of a line, in upper case. -/
def ParsedLine.operation (line : ParsedLine) : Option String :=
  (line.op.filter (· ≠ "")).map toUpperCase

/-- The label of a line. -/
def ParsedLine.name (line : ParsedLine) : Option String := line.label.filter (· ≠ "")

/-- `Line n: …` -/
def lineError (line : ParsedLine) (message : String) : String :=
  "Line " ++ Nat.repr line.lineNo ++ ": " ++ message

/-- What the processors do differently. -/
structure Target where
  /-- Addresses count bytes. -/
  byteMode : Bool
  /-- The address units of an instruction, as the first pass counts them. -/
  instructionSize : ParsedLine → SymbolTable → Except String Int
  /-- The words of an instruction at an address. -/
  encode : ParsedLine → Int → SymbolTable → Except String (List Int)

/-- Address units of a word. -/
def Target.addrStep (target : Target) : Int := if target.byteMode then 2 else 1

/-- The MN1613: addresses count words. -/
def mn1613 : Target where
  byteMode := false
  instructionSize line symbols := do
    match ← Mn1613.splitAiSiImm4Chunks symbols true line with
    | some chunks => return chunks.length
    | none => return if Mn1613.TWO_WORD_OPS.contains (line.operation.getD "") then 2 else 1
  encode line pc symbols := Mn1613.encodeInstruction line pc symbols false

/-- One expression for each word of a data line. -/
def expandWordDirectiveArgs (line : ParsedLine) : Except String (List String) := do
  let parts ← line.args.mapM fun arg =>
    match asciiCodesFromStringArg arg with
    | .error msg => .error (lineError line msg)
    | .ok (some codes) => .ok (codes.map Nat.repr)
    | .ok none => .ok [arg]
  return parts.flatten

/-- `evalStorageReserve`: the address units of a reservation. -/
def evalStorageReserve (target : Target) (line : ParsedLine) (symbols : SymbolTable)
    (allowUndefined : Bool) : Except String Int :=
  let op := line.op.getD ""
  if line.args.length ≠ 1 then .error (lineError line (op ++ " requires one argument"))
  else do
    let count ← evalExpr (line.arg 0) symbols allowUndefined
    if count.ltInt 0 then .error (lineError line (op ++ " count must not be negative"))
    else
      let size := if target.byteMode && toUpperCase op == ".BLKW" then count.mul (.int 2) else count
      return land size.bits 0xffff

/-- `directiveSize` of a data line -/
def dataSize (target : Target) (line : ParsedLine) : Except String Int := do
  return (← expandWordDirectiveArgs line).length * target.addrStep

end Lines

section StringLengths

/-- The loop of `wordDirectiveStringLen`. -/
def stringLenLoop : List String → Nat → Except String (Option Nat)
  | [], n => .ok (some n)
  | arg :: rest, n => do
      match ← asciiCodesFromStringArg arg with
      | none => return none
      | some codes => stringLenLoop rest (n + codes.length)

/-- The number of words of a data line of strings only. -/
def wordDirectiveStringLen (args : List String) : Except String (Option Nat) :=
  if args.isEmpty then .ok none else stringLenLoop args 0

/-- The labels that wait for a data line, and the lengths found. -/
structure StringLens where
  pending : List String := []
  lenses : JsMap Nat := .empty

def StringLens.assign (st : StringLens) (names : List String) (args : List String) :
    Except String StringLens := do
  match ← wordDirectiveStringLen args with
  | none => return { st with pending := [] }
  | some n => return ⟨[], names.foldl (fun l name => l.set (toUpperCase name) n) st.lenses⟩

def stringLensLine (st : StringLens) (line : ParsedLine) : Except String StringLens :=
  match line.name, line.operation with
  | some label, none => .ok { st with pending := st.pending ++ [label] }
  | some label, some op =>
      if lineKind op = .data then st.assign (st.pending ++ [label]) line.args
      else .ok { st with pending := [] }
  | none, none => .ok st
  | none, some op =>
      if lineKind op = .data ∧ st.pending ≠ [] then st.assign st.pending line.args
      else .ok { st with pending := [] }

/-- `collectStringLens` -/
def collectStringLens (lines : List ParsedLine) : Except String (JsMap Nat) := do
  return (← lines.foldlM stringLensLine {}).lenses

/-- `applyLenCalls` -/
def applyLenCalls (lines : List ParsedLine) (stringLens : JsMap Nat) (globlNames : List String) :
    Except String (List ParsedLine) :=
  lines.mapM fun line => do
    let args ← line.args.mapM fun a =>
      match substLenCalls a stringLens globlNames with
      | .error msg => .error (lineError line msg)
      | .ok a => .ok a
    return { line with args }

end StringLengths

section Symbols

def defineLabel (sym : SymbolTable) (label : String) (value : Int) (line : ParsedLine) :
    Except String SymbolTable :=
  let key := toUpperCase label
  if sym.has key then .error (lineError line ("Duplicate symbol " ++ label))
  else .ok (sym.set key (.int value))

/-- `collectGloblNames` -/
def collectGloblNames (lines : List ParsedLine) : List String :=
  lines.foldl (fun names line =>
    if line.operation = some ".GLOBL" ∨ line.operation = some ".GLOBAL" then
      line.args.foldl (fun names arg =>
        let n := toUpperCase (trim arg)
        if trim arg = "" ∨ n ∈ names then names else names ++ [n]) names
    else names) []

/-- `buildSymbolInfos` -/
def buildSymbolInfos (symbols : SymbolTable) (globlNames : List String)
    (symbolAreas : JsMap String) : SymbolInfoTable :=
  let infos := symbols.entries.foldl (fun (infos : SymbolInfoTable) entry =>
    let (name, value) := entry
    infos.set name ⟨value, if name ∈ globlNames then .global else .local, symbolAreas.get name⟩)
    .empty
  globlNames.foldl (fun infos name =>
    if infos.has name then infos else infos.set name ⟨.int 0, .external, none⟩) infos

/-- The table of the encoder: external symbols count as 0. -/
def symbolsForEncode (symbols : SymbolTable) (symbolInfos : SymbolInfoTable) : SymbolTable :=
  symbolInfos.entries.foldl (fun (table : SymbolTable) entry =>
    if entry.2.kind = .external ∧ !table.has entry.1 then table.set entry.1 (.int 0) else table)
    symbols

end Symbols

section FirstPass

variable (target : Target)

structure Pass1 where
  symbols : SymbolTable := .empty
  symbolAreas : JsMap String := .empty
  /-- The area of each line, newest first. -/
  lineAreas : List (Nat × String) := []
  areas : AreaContext := createAreaContext
deriving DecidableEq

def pass1Label (st : Pass1) (line : ParsedLine) (label : String) : Except String Pass1 := do
  let symbols ← defineLabel st.symbols label (areaPc st.areas) line
  let area := canonicalAreaName st.areas.current
  return { st with symbols, symbolAreas := st.symbolAreas.set (toUpperCase label) area }

def pass1Equ (st : Pass1) (line : ParsedLine) : Except String Pass1 :=
  match line.name with
  | some label =>
      if line.args.length ≠ 1 then
        .error (lineError line ".equ label form requires one expression")
      else do
        let value ← evalExpr (line.arg 0) st.symbols true
        return { st with symbols := st.symbols.set (toUpperCase label) value }
  | none =>
      if line.args.length < 2 then .error (lineError line "EQU requires label or 'name, expr'")
      else do
        let value ← evalExpr (line.arg 1) st.symbols true
        return { st with symbols := st.symbols.set (toUpperCase (line.arg 0)) value }

def initialValuesError (areas : AreaContext) (line : ParsedLine) : String :=
  lineError line (areas.current ++ " cannot have initial values (use .ds)")

def noloadError (areas : AreaContext) (line : ParsedLine) : String :=
  lineError line ("cannot emit instructions in noload area " ++ areas.current)

/-- The areas after a line that is no `.equ`. -/
def pass1Areas (st : Pass1) (line : ParsedLine) (kind : LineKind) : Except String AreaContext :=
  let areas := st.areas
  match kind with
  | .equ | .note | .otherDirective => .ok areas
  | .org =>
      if line.args.length ≠ 1 then .error (lineError line ".org requires one argument")
      else do return setAreaPc areas (← evalExpr (line.arg 0) st.symbols true).bits
  | .area => do
      let (name, noload) ← parseAreaDirective line.args line.lineNo
      return switchArea areas name noload
  | .storage => do
      return setAreaPc areas (areaPc areas + (← evalStorageReserve target line st.symbols true))
  | .data =>
      if areaNoload areas then .error (initialValuesError areas line)
      else do return setAreaPc areas (areaPc areas + (← dataSize target line))
  | .instruction =>
      if areaNoload areas then .error (noloadError areas line)
      else do return setAreaPc areas (areaPc areas + (← target.instructionSize line st.symbols))

/-- One line of the first pass. -/
def pass1Line (st : Pass1) (line : ParsedLine) : Except String Pass1 := do
  let st := { st with
    lineAreas := (line.lineNo, canonicalAreaName st.areas.current) :: st.lineAreas }
  let kind := line.operation.map lineKind
  if kind = some .equ then pass1Equ st line
  else
    let st ← match line.name with
      | some label => pass1Label st line label
      | none => pure st
    match kind with
    | none => return st
    | some kind => do return { st with areas := ← pass1Areas target st line kind }

/-- `pass1` -/
def pass1 (lines : List ParsedLine) : Except String Pass1 := lines.foldlM (pass1Line target) {}

end FirstPass

section SecondPass

variable (target : Target) (mentions : String → String → Except String Bool)
  (symbols : SymbolTable) (symbolInfos : SymbolInfoTable)

structure Pass2 where
  words : List EmittedWord := []
  relocs : List WordDiffReloc := []
  /-- Addresses of the reservations, newest first. -/
  storageAddrs : List (Nat × Int) := []
  areas : AreaContext := createAreaContext
deriving DecidableEq

/-- An output word of a line. -/
def emittedWord (areas : AreaContext) (line : ParsedLine) (address value : Int) : EmittedWord :=
  ⟨address, land value 0xffff, line.lineNo, line.text, canonicalAreaName areas.current⟩

/-- The byte address of an address of the target. -/
def Target.byteAddr (address : Int) : Int := if target.byteMode then address else address * 2

/-- An external symbol in a larger expression. -/
def rejectExternals (line : ParsedLine) (arg : String) : List (String × SymbolInfo) →
    Except String Unit
  | [] => .ok ()
  | (name, info) :: rest =>
      if info.kind = .external then do
        if ← mentions name arg then
          .error (lineError line ("unsupported external expression '" ++ arg ++
            "' (only A - B address diffs are supported)"))
        else rejectExternals line arg rest
      else rejectExternals line arg rest

/-- What the word of a relocated data operand holds. -/
def placeholder (arg : String) (left : RelocOperand) : Except String Int :=
  match left with
  | .symbol _ => .ok 0
  | .word _ _ => do
      let v := land (← evalExpr arg symbols false).bits 0xffff
      return if target.byteMode then v else land (v * 2) 0xffff
  | .const _ => do return land (← evalExpr arg symbols false).bits 0xffff

/-- One word of a data line. -/
def pass2Word (line : ParsedLine) (st : Pass2) (arg : String) : Except String Pass2 :=
  let pc := areaPc st.areas
  let areas := setAreaPc st.areas (pc + target.addrStep)
  if (matchWordDiffReloc symbolInfos arg).isSome then
    .error (lineError line ("unsupported external expression '" ++ arg ++
      "' (sdld cannot relocate A-B; both labels must be in the same module)"))
  else
    match matchAbsAddrReloc symbolInfos arg with
    | some (left, right) => do
        let word := emittedWord st.areas line pc (← placeholder target symbols arg left)
        let reloc :=
          ⟨target.byteAddr pc, left, right, some (canonicalAreaName st.areas.current), none⟩
        return { st with words := st.words ++ [word], relocs := st.relocs ++ [reloc], areas }
    | none => do
        rejectExternals mentions line arg symbolInfos.entries
        match evalExpr arg symbols false >>= fun v => Mn1613.u16 v (line.op.getD "") with
        | .error msg => .error (lineError line msg)
        | .ok value =>
            return { st with words := st.words ++ [emittedWord st.areas line pc value], areas }

/-- Replace the last element. -/
def mapLast {α : Type} (f : α → α) : List α → List α
  | [] => []
  | [a] => [f a]
  | a :: b :: l => a :: mapLast f (b :: l)

attribute [grind =] mapLast

/-- The words of an instruction before relocation. -/
def instructionWords (areas : AreaContext) (line : ParsedLine) (pc : Int) (ws : List Int) :
    List EmittedWord :=
  ws.mapIdx fun i w => emittedWord areas line (pc + i * target.addrStep) w

/-- What a relocation stores in the last word of an instruction. -/
def absValue (left : RelocOperand) (v : Int) : Int :=
  match left with
  | .symbol _ => 0
  | .word _ _ => if target.byteMode then v else land (v * 2) 0xffff
  | .const _ => v

/-- What a zero-page relocation stores in the word of an instruction. -/
def low8Value (left : RelocOperand) (v : Int) : Int :=
  match left with
  | .symbol _ => land v 0xff00
  | .word offset _ => lor (land v 0xff00) (land (offset * 2) 0xff)
  | .const _ => v

/-- The relocation of the last word of an instruction. -/
def relocateLast (area : String) (ws : List EmittedWord) (left right : RelocOperand) :
    List EmittedWord × List WordDiffReloc :=
  (mapLast (fun w => { w with value := absValue target left w.value }) ws,
    (ws.getLast?.map fun last =>
      ⟨target.byteAddr last.address, left, right, some area, none⟩).toList)

/-- The zero-page relocation of an instruction of one word. -/
def relocateLow8 (area : String) (ws : List EmittedWord) (pc : Int) (left right : RelocOperand) :
    List EmittedWord × List WordDiffReloc :=
  (mapLast (fun w => { w with value := low8Value left w.value }) ws,
    [⟨pc * 2 + 1, left, right, some area, some .low8⟩])

/-- The relocation that the operands of an instruction ask for. -/
def relocateInstruction (line : ParsedLine) (area : String) (pc : Int) (ws : List EmittedWord) :
    List EmittedWord × List WordDiffReloc :=
  if ws.length ≥ 2 then
    match line.args.findSome? (matchAbsAddrReloc symbolInfos) with
    | some (left, right) => relocateLast target area ws left right
    | none => (ws, [])
  else if ws.length = 1 ∧ !target.byteMode then
    match line.args.findSome? (matchPage0StarReloc symbolInfos) with
    | some (left, right) => relocateLow8 area ws pc left right
    | none => (ws, [])
  else (ws, [])

def pass2Instruction (st : Pass2) (line : ParsedLine) : Except String Pass2 :=
  if areaNoload st.areas then .error (noloadError st.areas line)
  else do
    let pc := areaPc st.areas
    let ws ← target.encode line pc (symbolsForEncode symbols symbolInfos)
    let emitted := relocateInstruction target symbolInfos line
      (canonicalAreaName st.areas.current) pc (instructionWords target st.areas line pc ws)
    return { st with
      words := st.words ++ emitted.1
      relocs := st.relocs ++ emitted.2
      areas := setAreaPc st.areas (pc + ws.length * target.addrStep) }

/-- One line of the second pass. -/
def pass2Line (st : Pass2) (line : ParsedLine) : Except String Pass2 :=
  match line.operation.map lineKind with
  | none | some .equ | some .note => .ok st
  | some .org => do
      return { st with
        areas := setAreaPc st.areas (← evalExpr (line.arg 0) symbols false).bits }
  | some .area => do
      let (name, noload) ← parseAreaDirective line.args line.lineNo
      return { st with areas := switchArea st.areas name noload }
  | some .storage => do
      let pc := areaPc st.areas
      let size ← evalStorageReserve target line symbols false
      return { st with
        storageAddrs := (line.lineNo, pc) :: st.storageAddrs
        areas := setAreaPc st.areas (pc + size) }
  | some .data =>
      if areaNoload st.areas then .error (initialValuesError st.areas line)
      else do
        (← expandWordDirectiveArgs line).foldlM (pass2Word target mentions symbols symbolInfos line) st
  | some .otherDirective | some .instruction => pass2Instruction target symbols symbolInfos st line

/-- `pass2` -/
def pass2 (lines : List ParsedLine) : Except String Pass2 :=
  lines.foldlM (pass2Line target mentions symbols symbolInfos) {}

end SecondPass

/-- `assemble`, behind `parseSource` -/
def assemble (target : Target) (mentions : String → String → Except String Bool)
    (parsed : List ParsedLine) : Except String AssemblyResult := do
  let globlNames := collectGloblNames parsed
  let stringLens ← collectStringLens parsed
  let parsed ← applyLenCalls parsed stringLens globlNames
  let first ← pass1 target parsed
  let symbolInfos := buildSymbolInfos first.symbols globlNames first.symbolAreas
  let second ← pass2 target mentions first.symbols symbolInfos parsed
  let checkpoints ← collectCheckpoints parsed second.words second.storageAddrs first.lineAreas
  return {
    words := second.words
    symbols := first.symbols
    symbolInfos
    relocs := second.relocs
    areas := snapshotAreas second.areas
    storageAddrs := second.storageAddrs
    byteMode := target.byteMode
    checkpoints }

end AsmTs
end RetroCpu
