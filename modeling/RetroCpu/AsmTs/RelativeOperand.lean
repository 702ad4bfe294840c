import RetroCpu.AsmTs.Extents
import RetroCpu.AsmTs.Tms9995Encoder
import RetroCpu.Mn1613.MemoryGroup

/-!
# Relative operands

A PC-relative field is fixed when it is assembled.  `Refers` says what an operand must be
for that, under every placement of the areas and every value of the external symbols;
`InReach` is all that the encoders check.
-/

namespace RetroCpu
namespace AsmTs

open Js Checked
open RetroCpu.Mn1613 (MemoryOp)

section Placement

/-- Where the linker puts the areas, and the values of the external symbols. -/
structure Placement where
  base : String → Int
  external : String → Int

/-- Every area at 0, every external symbol 0. -/
def Placement.origin : Placement := ⟨fun _ => 0, fun _ => 0⟩

/-- The value of a symbol in the linked program. -/
def Placement.value (p : Placement) (name : String) (info : SymbolInfo) : Number :=
  if info.kind = .external then .int (p.external name)
  else
    match info.area with
    | some area => info.value.add (.int (p.base area))
    | none => info.value

def Placement.symbols (p : Placement) (symbolInfos : SymbolInfoTable) : SymbolTable :=
  symbolInfos.entries.foldl (fun (table : SymbolTable) entry =>
    table.set entry.1 (p.value entry.1 entry.2)) .empty

/-- The labels and the external symbols are addresses. -/
def Placement.Fits (p : Placement) (symbolInfos : SymbolInfoTable) : Prop :=
  ∀ entry ∈ symbolInfos.entries, entry.2.kind = .external ∨ entry.2.area.isSome →
    ∃ n : Int, p.value entry.1 entry.2 = .int n ∧ 0 ≤ n ∧ n < 0x10000

/-- The expression has one value wherever the areas are, or it moves along with `area`. -/
def Refers (symbolInfos : SymbolInfoTable) (area expr : String) : Prop :=
  (∀ p : Placement, p.Fits symbolInfos →
    evalExpr expr (p.symbols symbolInfos) false =
      evalExpr expr (Placement.origin.symbols symbolInfos) false) ∨
  (∀ p : Placement, p.Fits symbolInfos → ∀ v,
    evalExpr expr (Placement.origin.symbols symbolInfos) false = .ok v →
    evalExpr expr (p.symbols symbolInfos) false = .ok (v.add (.int (p.base area))))

end Placement

inductive CpuType
  | mn1613
  | tms9995
deriving DecidableEq, Repr

def CpuType.target : CpuType → Target
  | mn1613 => AsmTs.mn1613
  | tms9995 => AsmTs.tms9995

section Operands

/-- The address operand is read as a distance, in mode 001 or 011, whatever the symbols. -/
def ReadsRelative (arg label : String) : Prop :=
  ∃ mmm : Int, (mmm = 1 ∨ mmm = 3) ∧ ∀ symbols allowUndefined pcWord,
    Mn1613.parseEA symbols allowUndefined arg pcWord =
      Mn1613.relativeMode symbols allowUndefined label pcWord mmm

/-- The line is a well-formed instruction with a PC-relative field, computed from `label`. -/
def RelativeOperand (cpu : CpuType) (line : ParsedLine) (label : String) : Prop :=
  match cpu with
  | .mn1613 => ∃ op : MemoryOp, Mn1613.lineMnemonic line = some op.mnemonic ∧
      op.addressArg + 1 ≤ line.args.length ∧ line.args.length ≤ op.addressArg + 2 ∧
      (op.takesRegister = true → ∃ r, Mn1613.parseReg (line.arg 0) false = .ok r) ∧
      ReadsRelative (Mn1613.eaString line op.addressArg) label
  | .tms9995 => ∃ name base, line.operation = some name ∧
      RetroCpu.Tms9995.opFormat name = some (.jump, base) ∧ line.args = [line.arg 0] ∧
      label = trim (line.arg 0)

/-- The value that the encoder has for the label is near enough to the instruction. -/
def InReach (cpu : CpuType) (v : Number) (pc : Int) : Prop :=
  match cpu with
  | .mn1613 => ¬ ((v.sub (.int pc)).ltInt (-128) ∨ (v.sub (.int pc)).gtInt 127)
  | .tms9995 =>
      let distance := land v.bits 0xffff - (pc + 2)
      distance.tmod 2 = 0 ∧ -128 ≤ distance.tdiv 2 ∧ distance.tdiv 2 ≤ 127

end Operands

section Encoders

variable {symbols : SymbolTable} {line : ParsedLine} {label : String} {pc : Int}

theorem expectArgs_ok {lo hi : Nat} (hlo : lo ≤ line.args.length) (hhi : line.args.length ≤ hi) :
    Mn1613.expectArgs line lo hi = .ok () := by
  rw [Mn1613.expectArgs, if_neg (by omega)]

/-- A distance is encoded if it is within reach. -/
theorem relativeMode_isOk {mmm : Int} :
    (∃ mode, Mn1613.relativeMode symbols false label pc mmm = .ok mode) ↔
      ∃ v, evalExpr label symbols false = .ok v ∧ InReach .mn1613 v pc := by
  constructor
  · rintro ⟨mode, h⟩
    obtain ⟨v, hv, h⟩ := bind_eq_ok.mp h
    obtain ⟨d8, hd, _⟩ := bind_eq_ok.mp h
    rw [Mn1613.s8, error_ite_eq_ok] at hd
    exact ⟨v, hv, by simpa [InReach] using hd.1⟩
  · rintro ⟨v, hv, hreach⟩
    refine ⟨⟨mmm, land (v.sub (.int pc)).bits 0xff⟩, ?_⟩
    rw [Mn1613.relativeMode, hv]
    refine bind_eq_ok.mpr ⟨v, rfl, bind_eq_ok.mpr ⟨_, ?_, rfl⟩⟩
    rw [Mn1613.s8, error_ite_eq_ok]
    exact ⟨by simpa [InReach] using hreach, rfl⟩

/-- A line of the group is encoded if its address is. -/
theorem encode_memory_isOk {op : MemoryOp} (hop : Mn1613.lineMnemonic line = some op.mnemonic)
    (hlo : op.addressArg + 1 ≤ line.args.length) (hhi : line.args.length ≤ op.addressArg + 2)
    (hreg : op.takesRegister = true → ∃ r, Mn1613.parseReg (line.arg 0) false = .ok r) :
    (∃ ws, Mn1613.encodeInstruction line pc symbols false = .ok ws) ↔
      ∃ mode, Mn1613.parseEA symbols false (Mn1613.eaString line op.addressArg) pc = .ok mode := by
  constructor
  · rintro ⟨ws, h⟩
    obtain ⟨r, mode, hoperands, _⟩ := RetroCpu.Mn1613.encode_memory_line hop h
    exact ⟨mode, hoperands.address⟩
  · rintro ⟨mode, hmode⟩
    have hargs := expectArgs_ok hlo hhi
    have henc : Mn1613.encodeInstruction line pc symbols false =
        Mn1613.encodeMnemonic op.mnemonic line pc symbols false := by
      unfold Mn1613.encodeInstruction
      split
      next h => simp [Mn1613.lineMnemonic, h] at hop
      next h =>
        have hnone : Mn1613.lineMnemonic line = none := by
          rw [Mn1613.lineMnemonic, h]
          decide
        rw [hnone] at hop
        cases hop
      next => rw [hop, Option.getD_some]
    rw [henc]
    have loadStore (hone : op.addressArg = 1) (htakes : op.takesRegister = true) (bit1 : Int) :
        ∃ ws, Mn1613.encodeLoadStore line pc symbols false bit1 = .ok ws := by
      obtain ⟨r, hr⟩ := hreg htakes
      rw [hone] at hargs hmode
      exact ⟨_, bind_eq_ok.mpr ⟨(), hargs, bind_eq_ok.mpr ⟨r, hr,
        bind_eq_ok.mpr ⟨mode, hmode, rfl⟩⟩⟩⟩
    have memoryOnly (hzero : op.addressArg = 0) (bit1 rrr : Int) :
        ∃ ws, Mn1613.encodeMemoryOnly line pc symbols false bit1 rrr = .ok ws := by
      rw [hzero] at hargs hmode
      exact ⟨_, bind_eq_ok.mpr ⟨(), hargs, bind_eq_ok.mpr ⟨mode, hmode, rfl⟩⟩⟩
    cases op with
    | L => exact loadStore rfl rfl 1
    | ST => exact loadStore rfl rfl 0
    | B => exact memoryOnly rfl 1 7
    | BAL => exact memoryOnly rfl 0 7
    | IMS => exact memoryOnly rfl 1 6
    | DMS => exact memoryOnly rfl 0 6

theorem encodeJump_isOk {base : Int} {args : List String} {lineNo : Nat} :
    (∃ ws, Tms9995.encodeJump base args lineNo symbols false pc = .ok ws) ↔
      ∃ v, evalExpr (args.getD 0 "") symbols false = .ok v ∧ InReach .tms9995 v pc := by
  constructor
  · rintro ⟨ws, h⟩
    obtain ⟨target, htarget, h⟩ := bind_eq_ok.mp h
    obtain ⟨v, hv, htarget⟩ := bind_eq_ok.mp htarget
    obtain rfl := pure_eq_ok.mp htarget
    obtain ⟨heven, h⟩ := error_ite_eq_ok.mp h
    obtain ⟨hreach, _⟩ := error_ite_eq_ok.mp h
    refine ⟨v, hv, ?_⟩
    simp only [InReach]
    simp at heven hreach
    exact ⟨heven, hreach⟩
  · rintro ⟨v, hv, heven, hlo, hhi⟩
    have htarget : Tms9995.evalTms symbols false (args.getD 0 "") = .ok (land v.bits 0xffff) :=
      bind_eq_ok.mpr ⟨v, hv, rfl⟩
    refine ⟨[lor base (land ((land v.bits 0xffff - (pc + 2)).tdiv 2) 0xff)],
      bind_eq_ok.mpr ⟨_, htarget, error_ite_eq_ok.mpr ⟨?_, error_ite_eq_ok.mpr ⟨?_, rfl⟩⟩⟩⟩
    · simp [heven]
    · simp [hlo, hhi]

/-- A line that names an operation of the tables. -/
theorem encode_format {name : String} {format : RetroCpu.Tms9995.OpFormat} {base : Nat}
    (hname : line.operation = some name)
    (hformat : RetroCpu.Tms9995.opFormat name = some (format, base)) :
    tms9995.encode line pc symbols =
      if (line.args.map trim).length ≠ format.operands then
        .error (Tms9995.errorAt line.lineNo (format.requirement name))
      else Tms9995.encodeFormat name base (line.args.map trim) line.lineNo symbols false format pc := by
  obtain ⟨opText, hop, rfl⟩ := Option.map_eq_some_iff.mp hname
  obtain ⟨hop, hne⟩ := Option.filter_eq_some_iff.mp hop
  have hformats : RetroCpu.Tms9995.opFormat "RT" = none ∧
      RetroCpu.Tms9995.opFormat "NOP" = none := by
    decide
  have hrt : toUpperCase opText ≠ "RT" := by
    intro h
    rw [h, hformats.1] at hformat
    cases hformat
  have hnop : toUpperCase opText ≠ "NOP" := by
    intro h
    rw [h, hformats.2] at hformat
    cases hformat
  change Tms9995.encodeTms9995Instruction line pc symbols false = _
  unfold Tms9995.encodeTms9995Instruction
  split
  next h => simp [h] at hop
  next h =>
    rw [h] at hop
    obtain rfl := Option.some.inj hop
    simp at hne
  next opText' _ h =>
    obtain rfl : opText' = opText := Option.some.inj (h.symm.trans hop)
    rw [if_neg hrt, if_neg hnop, Tms9995.encodeOperation, hformat]

/-- A line that names a jump, with one operand. -/
theorem encode_jump {name : String} {base : Nat} (hname : line.operation = some name)
    (hformat : RetroCpu.Tms9995.opFormat name = some (.jump, base))
    (hargs : line.args = [line.arg 0]) :
    tms9995.encode line pc symbols =
      Tms9995.encodeJump base [trim (line.arg 0)] line.lineNo symbols false pc := by
  rw [encode_format hname hformat, hargs]
  rfl

/-- A relative operand is encoded exactly when the value of its label is within reach. -/
theorem encode_relative_isOk {cpu : CpuType} (h : RelativeOperand cpu line label) :
    (∃ ws, cpu.target.encode line pc symbols = .ok ws) ↔
      ∃ v, evalExpr label symbols false = .ok v ∧ InReach cpu v pc := by
  cases cpu with
  | mn1613 =>
      obtain ⟨op, hop, hlo, hhi, hreg, mmm, _, hread⟩ := h
      have hencode := @encode_memory_isOk symbols line pc op hop hlo hhi hreg
      rw [hread] at hencode
      exact hencode.trans relativeMode_isOk
  | tms9995 =>
      obtain ⟨name, base, hname, hformat, hargs, rfl⟩ := h
      change (∃ ws, tms9995.encode line pc symbols = .ok ws) ↔ _
      rw [encode_jump hname hformat hargs]
      exact encodeJump_isOk

end Encoders

section Modes

open AsmTs.Mn1613 (EAMode zeroPageMode indexedMode relativeMode parseEA parseEAPlain)

variable {symbols : SymbolTable} {allowUndefined : Bool} {mode : EAMode}

theorem zeroPageMode_mmm {d : String} {mmm : Int}
    (h : zeroPageMode symbols allowUndefined d mmm = .ok mode) : mode.mmm = mmm := by
  obtain ⟨v, _, h⟩ := bind_eq_ok.mp h
  obtain ⟨d8, _, h⟩ := bind_eq_ok.mp h
  obtain rfl := pure_eq_ok.mp h
  rfl

theorem indexedMode_mmm {t d name : String} {x0 x1 : Int}
    (h : indexedMode symbols allowUndefined t d name x0 x1 = .ok mode) :
    mode.mmm = x0 ∨ mode.mmm = x1 := by
  rw [indexedMode] at h
  by_cases hidx : toUpperCase name ≠ "X0" ∧ toUpperCase name ≠ "X1"
  · rw [if_pos hidx] at h
    obtain ⟨_, hthrow, _⟩ := bind_eq_ok.mp h
    cases throw_ne_ok hthrow
  · rw [if_neg hidx] at h
    obtain ⟨v, _, h⟩ := bind_eq_ok.mp h
    obtain ⟨d8, _, h⟩ := bind_eq_ok.mp h
    obtain rfl := pure_eq_ok.mp h
    by_cases hx : toUpperCase name = "X0"
    · exact .inl (if_pos hx)
    · exact .inr (if_neg hx)

/-- What is read as a mode 001 or 011 is a distance. -/
theorem parseEAPlain_relative {t : String} {pcWord : Int}
    (h : parseEAPlain symbols allowUndefined t pcWord = .ok mode)
    (hm : mode.mmm = 1 ∨ mode.mmm = 3) :
    ∃ label mmm, (mmm = 1 ∨ mmm = 3) ∧ ∀ symbols allowUndefined pcWord,
      parseEAPlain symbols allowUndefined t pcWord =
        relativeMode symbols allowUndefined label pcWord mmm := by
  unfold parseEAPlain at h
  split at h
  · have := zeroPageMode_mmm h
    omega
  · split at h
    · have := zeroPageMode_mmm h
      omega
    · split at h
      · next label hround =>
        refine ⟨label, 3, .inr rfl, fun symbols au pc => ?_⟩
        unfold parseEAPlain
        simp only [hround]
      · split at h
        · next label hsquare =>
          refine ⟨label, 3, .inr rfl, fun symbols au pc => ?_⟩
          unfold parseEAPlain
          simp only [hsquare]
        · split at h
          · have := zeroPageMode_mmm h
            omega
          · next hstar =>
            refine ⟨t, 1, .inl rfl, fun symbols au pc => ?_⟩
            unfold parseEAPlain
            simp only
            exact if_neg hstar

theorem parseEA_relative {arg : String} {pcWord : Int}
    (h : parseEA symbols allowUndefined arg pcWord = .ok mode)
    (hm : mode.mmm = 1 ∨ mode.mmm = 3) : ∃ label, ReadsRelative arg label := by
  have hplain (h : parseEAPlain symbols allowUndefined (trim arg) pcWord = .ok mode)
      (heq : ∀ symbols au pc, parseEA symbols au arg pc = parseEAPlain symbols au (trim arg) pc) :
      ∃ label, ReadsRelative arg label := by
    obtain ⟨label, mmm, hmmm, hread⟩ := parseEAPlain_relative h hm
    exact ⟨label, mmm, hmmm, fun symbols au pc => (heq symbols au pc).trans (hread symbols au pc)⟩
  unfold parseEA at h
  simp only at h
  split at h
  · have := indexedMode_mmm h
    omega
  · split at h
    · have := indexedMode_mmm h
      omega
    · split at h
      · have := indexedMode_mmm h
        omega
      · split at h
        · next hcomma =>
          split at h
          · have := indexedMode_mmm h
            omega
          · next hidx =>
            refine hplain h fun symbols au pc => ?_
            unfold parseEA
            simp only [hcomma]
            exact if_neg hidx
        · refine hplain h fun symbols au pc => ?_
          unfold parseEA
          simp only

end Modes

section SecondPass

variable {cpu : CpuType} {mentions : String → String → Except String Bool}
  {symbols : SymbolTable} {symbolInfos : SymbolInfoTable} {line : ParsedLine} {label : String}

/-- The operations are no directives. -/
theorem lineKind_relative (h : RelativeOperand cpu line label) :
    line.operation.map lineKind = some .instruction := by
  cases cpu with
  | mn1613 =>
      obtain ⟨op, hop, _⟩ := h
      obtain ⟨opText, htext, hname⟩ := Option.bind_eq_some_iff.mp hop
      have hmem : (toUpperCase opText, op.mnemonic) ∈ RetroCpu.Mn1613.mnemonics :=
        mem_of_lookup hname
      have hkind : ∀ entry ∈ RetroCpu.Mn1613.mnemonics,
          entry.1 ≠ "" ∧ lineKind entry.1 = .instruction := by
        decide +kernel
      obtain ⟨hne, hline⟩ := hkind _ hmem
      have hopText : opText ≠ "" := by
        rintro rfl
        exact hne rfl
      simp [ParsedLine.operation, htext, hopText, hline]
  | tms9995 =>
      obtain ⟨name, base, hname, hformat, _⟩ := h
      obtain ⟨entry, hentry, hlookup⟩ := List.exists_of_findSome?_eq_some hformat
      obtain ⟨code, hcode, _⟩ := Option.map_eq_some_iff.mp hlookup
      have hkind : ∀ entry ∈ RetroCpu.Tms9995.formats, ∀ op ∈ entry.2,
          lineKind op.1 = .instruction := by
        decide
      rw [hname, Option.map_some, hkind entry hentry _ (mem_of_lookup hcode)]

/-- The second pass accepts a relative operand exactly when the value that the encoder has
for it is within reach of the location counter. -/
theorem pass2Line_relative (h : RelativeOperand cpu line label) {st : Pass2}
    (hload : areaNoload st.areas = false) :
    (∃ st', pass2Line cpu.target mentions symbols symbolInfos st line = .ok st') ↔
      ∃ v, evalExpr label (symbolsForEncode symbols symbolInfos) false = .ok v ∧
        InReach cpu v (areaPc st.areas) := by
  rw [← encode_relative_isOk h, pass2Line, lineKind_relative h]
  change (∃ st', pass2Instruction cpu.target symbols symbolInfos st line = .ok st') ↔ _
  rw [pass2Instruction, if_neg (by simp [hload])]
  constructor
  · rintro ⟨st', hst⟩
    obtain ⟨ws, hws, _⟩ := bind_eq_ok.mp hst
    exact ⟨ws, hws⟩
  · rintro ⟨ws, hws⟩
    exact ⟨_, bind_eq_ok.mpr ⟨ws, hws, rfl⟩⟩

end SecondPass

section Fields

/-- The words of a line hold a PC-relative field. -/
def HasRelativeField (cpu : CpuType) (line : ParsedLine) (ws : List Int) : Prop :=
  match cpu with
  | .mn1613 => ∃ op : MemoryOp, Mn1613.lineMnemonic line = some op.mnemonic ∧
      ∃ w, ws = [w] ∧ (land (ushr w 11) 0x7 = 1 ∨ land (ushr w 11) 0x7 = 3)
  | .tms9995 => ∃ name base, line.operation = some name ∧
      RetroCpu.Tms9995.opFormat name = some (.jump, base)

variable {cpu : CpuType} {line : ParsedLine} {pc : Int} {symbols : SymbolTable} {ws : List Int}

/-- The MMM field. -/
theorem mode_of_word {op : MemoryOp} {r : Int} {mode : Mn1613.EAMode}
    (hfit : RetroCpu.Mn1613.EAFits mode) (hr : 0 ≤ r ∧ r ≤ 5) :
    land (ushr (op.word r mode) 11) 0x7 = mode.mmm := by
  have hb := op.bit1_range
  have hf := op.field_range hr
  obtain ⟨hm, hd⟩ := hfit
  rw [MemoryOp.word, RetroCpu.Mn1613.encodeMem_eq hb hm hf hd,
    ushr_div 11 (by omega) (by omega) (by omega),
    show (0x7 : Int) = ((2 ^ 3 - 1 : Nat) : Int) from rfl, land_mask _ (by decide)]
  omega

theorem counts_of_expectArgs {lo hi : Nat} (h : Mn1613.expectArgs line lo hi = .ok ()) :
    lo ≤ line.args.length ∧ line.args.length ≤ hi := by
  rw [Mn1613.expectArgs, error_ite_eq_ok] at h
  omega

/-- The number of operands of an accepted line. -/
theorem encode_memory_counts {op : MemoryOp} (hop : Mn1613.lineMnemonic line = some op.mnemonic)
    (h : Mn1613.encodeInstruction line pc symbols false = .ok ws) :
    op.addressArg + 1 ≤ line.args.length ∧ line.args.length ≤ op.addressArg + 2 := by
  have henc : Mn1613.encodeMnemonic op.mnemonic line pc symbols false = .ok ws := by
    unfold Mn1613.encodeInstruction at h
    split at h
    · cases h
    · cases h
    · rwa [hop] at h
  cases op with
  | L | ST | B | BAL | IMS | DMS =>
      obtain ⟨_, hargs, _⟩ := bind_eq_ok.mp henc
      exact counts_of_expectArgs hargs

/-- A PC-relative field comes from a relative operand. -/
theorem relativeOperand_of_field (hfield : HasRelativeField cpu line ws)
    (h : cpu.target.encode line pc symbols = .ok ws) : ∃ label, RelativeOperand cpu line label := by
  cases cpu with
  | mn1613 =>
      obtain ⟨op, hop, w, hw, hmode⟩ := hfield
      obtain ⟨r, mode, hoperands, hr, hfit, hws⟩ := RetroCpu.Mn1613.encode_memory_line hop h
      obtain ⟨hlo, hhi⟩ := encode_memory_counts hop h
      obtain ⟨rfl⟩ := List.cons.inj (hw.symm.trans hws)
      rw [mode_of_word hfit hr] at hmode
      obtain ⟨label, hread⟩ := parseEA_relative hoperands.address hmode
      exact ⟨label, op, hop, hlo, hhi, fun htakes => ⟨r, hoperands.register htakes⟩, hread⟩
  | tms9995 =>
      obtain ⟨name, base, hname, hformat⟩ := hfield
      change tms9995.encode line pc symbols = .ok ws at h
      rw [encode_format hname hformat] at h
      obtain ⟨hcount, _⟩ := error_ite_eq_ok.mp h
      have hone : line.args.length = 1 := by
        simpa [RetroCpu.Tms9995.OpFormat.operands] using hcount
      obtain ⟨arg, harg⟩ := List.length_eq_one_iff.mp hone
      refine ⟨_, name, base, hname, hformat, ?_, rfl⟩
      rw [ParsedLine.arg, harg]
      rfl

end Fields

/-- What the second pass works on, for a program that the first pass accepts. -/
structure SecondPass (target : Target) (parsed : List ParsedLine) where
  lines : List ParsedLine
  first : Pass1
  hlines : passLines parsed = .ok lines
  hfirst : pass1 target lines = .ok first

namespace SecondPass

variable {cpu : CpuType} {parsed : List ParsedLine} (p : SecondPass cpu.target parsed)
  (mentions : String → String → Except String Bool)

def symbolInfos : SymbolInfoTable :=
  buildSymbolInfos p.first.symbols (collectGloblNames parsed) p.first.symbolAreas

/-- One line of the pass. -/
def step (st : Pass2) (line : ParsedLine) : Except String Pass2 :=
  pass2Line cpu.target mentions p.first.symbols p.symbolInfos st line

/-- The pass comes to the line in the state `st`. -/
def Reaches (st : Pass2) (line : ParsedLine) : Prop :=
  ∃ before after, p.lines = before ++ line :: after ∧ before.foldlM (p.step mentions) {} = .ok st

/-- The symbols of the encoder. -/
def table : SymbolTable := symbolsForEncode p.first.symbols p.symbolInfos

/-- The label of a relative operand may be fixed in the state `st`. -/
def Known (st : Pass2) (label : String) : Prop :=
  Refers p.symbolInfos (canonicalAreaName st.areas.current) label

/-- Every relative operand whose distance is not known is an error. -/
def RefusesUnknown : Prop :=
  ∀ st line label, p.Reaches mentions st line → areaNoload st.areas = false →
    RelativeOperand cpu line label → ¬ p.Known st label →
    ∃ message, p.step mentions st line = .error message

/-- The value that stands for a distance not known is never within reach. -/
def PlaceholdersFar : Prop :=
  ∀ st line label, p.Reaches mentions st line → areaNoload st.areas = false →
    RelativeOperand cpu line label → ¬ p.Known st label →
    ∀ v, evalExpr label p.table false = .ok v → ¬ InReach cpu v (areaPc st.areas)

/-- Every PC-relative field comes from an operand whose distance is known. -/
def FieldsKnown : Prop :=
  ∀ st line ws, p.Reaches mentions st line →
    cpu.target.encode line (areaPc st.areas) p.table = .ok ws → HasRelativeField cpu line ws →
    ∃ label, RelativeOperand cpu line label ∧ p.Known st label

theorem refusesUnknown_iff : p.RefusesUnknown mentions ↔ p.PlaceholdersFar mentions := by
  constructor
  · intro h st line label hreach hload hrel hunknown v hv hin
    obtain ⟨message, herror⟩ := h st line label hreach hload hrel hunknown
    obtain ⟨st', hst⟩ := (pass2Line_relative hrel hload).mpr ⟨v, hv, hin⟩
    cases herror.symm.trans hst
  · intro h st line label hreach hload hrel hunknown
    cases hst : p.step mentions st line with
    | error message => exact ⟨message, rfl⟩
    | ok st' =>
        obtain ⟨v, hv, hin⟩ := (pass2Line_relative hrel hload).mp ⟨st', hst⟩
        exact absurd hin (h st line label hreach hload hrel hunknown v hv)

/-- Every line of an accepted program is accepted where the pass comes to it. -/
theorem step_of_reaches {result : AssemblyResult} {st : Pass2} {line : ParsedLine}
    (hok : assemble cpu.target mentions parsed = .ok result) (hreach : p.Reaches mentions st line) :
    ∃ st', p.step mentions st line = .ok st' := by
  obtain ⟨lines, first, second, hassembled⟩ := assemble_eq_ok hok
  obtain rfl : lines = p.lines := Except.ok.inj (hassembled.hlines.symm.trans p.hlines)
  obtain rfl : first = p.first := Except.ok.inj (hassembled.hfirst.symm.trans p.hfirst)
  have hsecond := hassembled.hsecond
  rw [hassembled.symbols, hassembled.symbolInfos] at hsecond
  obtain ⟨before, after, hlines, hbefore⟩ := hreach
  rw [pass2, hlines, List.foldlM_append] at hsecond
  obtain ⟨st₁, hst₁, hsecond⟩ := bind_eq_ok.mp hsecond
  obtain rfl : st₁ = st := Except.ok.inj (hst₁.symm.trans hbefore)
  rw [List.foldlM_cons] at hsecond
  obtain ⟨st', hst', _⟩ := bind_eq_ok.mp hsecond
  exact ⟨st', hst'⟩

/-- An instruction is accepted in an area with an image only. -/
theorem noload_of_step {st st' : Pass2} {line : ParsedLine} {label : String}
    (hrel : RelativeOperand cpu line label) (h : p.step mentions st line = .ok st') :
    areaNoload st.areas = false := by
  rw [step, pass2Line, lineKind_relative hrel] at h
  by_contra hload
  change pass2Instruction cpu.target p.first.symbols p.symbolInfos st line = .ok st' at h
  rw [pass2Instruction, if_pos (by simpa using hload)] at h
  cases h

theorem fieldsKnown {result : AssemblyResult}
    (hok : assemble cpu.target mentions parsed = .ok result) (hfar : p.PlaceholdersFar mentions) :
    p.FieldsKnown mentions := by
  intro st line ws hreach hencode hfield
  obtain ⟨label, hrel⟩ := relativeOperand_of_field hfield hencode
  obtain ⟨st', hst'⟩ := p.step_of_reaches mentions hok hreach
  have hload := p.noload_of_step mentions hrel hst'
  refine ⟨label, hrel, ?_⟩
  by_contra hunknown
  obtain ⟨v, hv, hin⟩ := (pass2Line_relative hrel hload).mp ⟨st', hst'⟩
  exact hfar st line label hreach hload hrel hunknown v hv hin

end SecondPass

end AsmTs
end RetroCpu
