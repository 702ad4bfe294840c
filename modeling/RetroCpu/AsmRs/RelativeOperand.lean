import Mathlib.Tactic.IntervalCases
import RetroCpu.AsmRs.Extents
import RetroCpu.AsmRs.Mn1613Encoder
import RetroCpu.AsmRs.Tms9995Encoder
import RetroCpu.AsmTs.RelativeOperand

/-!
# Relative operands in the Rust assembler
-/

namespace RetroCpu
namespace AsmRs

open AsmTs (ParsedLine CpuType)
open Checked
open RetroCpu.Mn1613 (MemoryOp)

/-- The processor of the Rust assembler. -/
def target : CpuType → Target
  | .mn1613 => mn1613
  | .tms9995 => tms9995

section Placement

/-- Where the linker puts the areas, and the values of the external symbols. -/
structure Placement where
  base : String → Word
  external : String → Word

/-- Every area at 0, every external symbol 0. -/
def Placement.origin : Placement := ⟨fun _ => 0, fun _ => 0⟩

/-- The value of a symbol in the linked program. -/
def Placement.value (p : Placement) (name : String) (info : SymbolInfo) : Word :=
  if info.kind = .external then p.external name
  else
    match info.area with
    | some area => info.value + p.base (canonicalAreaName area)
    | none => info.value

def Placement.symbols (p : Placement) (symbolInfos : SymbolInfoTable) : SymbolTable :=
  symbolInfos.entries.foldl (fun (table : SymbolTable) entry =>
    table.set entry.1 (p.value entry.1 entry.2)) .empty

/-- The labels are addresses. -/
def Placement.Fits (p : Placement) (symbolInfos : SymbolInfoTable) : Prop :=
  ∀ entry ∈ symbolInfos.entries, ∀ area, entry.2.kind ≠ .external → entry.2.area = some area →
    entry.2.value.toNat + (p.base (canonicalAreaName area)).toNat < 2 ^ 16

/-- The expression has one value wherever the areas are, or it moves along with `area`. -/
def Refers (symbolInfos : SymbolInfoTable) (area expr : String) : Prop :=
  (∀ p : Placement, p.Fits symbolInfos →
    evalExpr (p.symbols symbolInfos) false expr =
      evalExpr (Placement.origin.symbols symbolInfos) false expr) ∨
  (∀ p : Placement, p.Fits symbolInfos → ∀ v,
    evalExpr (Placement.origin.symbols symbolInfos) false expr = .ok v →
    evalExpr (p.symbols symbolInfos) false expr = .ok (v + (p.base area).toNat))

end Placement

section Operands

/-- The address operand is read as a distance, in mode 001 or 011, whatever the symbols. -/
def ReadsRelative (arg label : String) : Prop :=
  ∃ mmm : Word, (mmm = 1 ∨ mmm = 3) ∧ ∀ symbols allowUndefined pcWord,
    Mn1613.parseEa symbols allowUndefined arg pcWord =
      Mn1613.relativeMode symbols allowUndefined label pcWord mmm

/-- The line is a well-formed instruction with a PC-relative field, computed from `label`. -/
def RelativeOperand (cpu : CpuType) (line : ParsedLine) (label : String) : Prop :=
  match cpu with
  | .mn1613 => ∃ op : MemoryOp, Mn1613.lineMnemonic line = some op.mnemonic ∧
      op.addressArg + 1 ≤ line.args.length ∧ line.args.length ≤ op.addressArg + 2 ∧
      (op.takesRegister = true → ∃ r, Mn1613.parseReg (line.arg 0) false = .ok r) ∧
      ReadsRelative (Mn1613.eaString line op.addressArg) label
  | .tms9995 => ∃ name base, operation line = some name ∧
      RetroCpu.Tms9995.opFormat name = some (.jump, base) ∧ line.args = [line.arg 0] ∧
      label = trim (line.arg 0)

/-- The jump has an even distance, of at most 127 words forward or 128 backward. -/
def JumpReaches (dest pc : Word) : Prop :=
  let distance : Int := (dest.toNat : Int) - (pc.toNat + 2)
  distance.tmod 2 = 0 ∧ -128 ≤ distance.tdiv 2 ∧ distance.tdiv 2 ≤ 127

instance (dest pc : Word) : Decidable (JumpReaches dest pc) :=
  inferInstanceAs (Decidable (_ ∧ _ ∧ _))

/-- The value that the encoder has for the label is near enough to the instruction. -/
def InReach (cpu : CpuType) (v : Int) (pc : Word) : Prop :=
  match cpu with
  | .mn1613 => -128 ≤ v - pc.toNat ∧ v - pc.toNat ≤ 127
  | .tms9995 => JumpReaches (BitVec.ofInt 16 v) pc

/-- The distance of the MN1613 is computed in an `i32`. -/
def DistanceFits (cpu : CpuType) (v : Int) (pc : Word) : Prop :=
  cpu = .mn1613 → InI32 (v - pc.toNat)

/-- The label has no value, or one out of reach, and nothing overflows before that is seen. -/
def Misses (cpu : CpuType) (symbols : SymbolTable) (label : String) (pc : Word) : Prop :=
  (∃ message, evalExpr symbols false label = .error (.error message)) ∨
  ∃ v, evalExpr symbols false label = .ok v ∧ DistanceFits cpu v pc ∧ ¬ InReach cpu v pc

end Operands

section Encoders

variable {symbols : SymbolTable} {line : ParsedLine} {label : String} {pc : Word}

/-- The program stops with a message. -/
def Reports {α : Type} (x : Except Failure α) : Prop := ∃ message, x = .error (.error message)

theorem reports_bind {α β : Type} {x : Except Failure α} {f : α → Except Failure β} :
    Reports (x >>= f) ↔ Reports x ∨ ∃ a, x = .ok a ∧ Reports (f a) := by
  constructor
  · rintro ⟨message, h⟩
    rcases bind_eq_error.mp h with h | ⟨a, ha, h⟩
    · exact .inl ⟨message, h⟩
    · exact .inr ⟨a, ha, message, h⟩
  · rintro (⟨message, h⟩ | ⟨a, ha, message, h⟩)
    · exact ⟨message, bind_eq_error.mpr (.inl h)⟩
    · exact ⟨message, bind_eq_error.mpr (.inr ⟨a, ha, h⟩)⟩

theorem not_reports_pure {α : Type} {a : α} : ¬ Reports (pure a : Except Failure α) := by
  rintro ⟨message, h⟩
  cases h

theorem reports_fail {α : Type} {message : String} : Reports (fail message : Except Failure α) :=
  ⟨message, rfl⟩

theorem checked_eq_ok {x y : Int} : AsmRs.checked x = .ok y ↔ InI32 x ∧ x = y := by
  by_cases h : InI32 x
  · simp [AsmRs.checked, h]
  · simp [AsmRs.checked, h]

theorem not_reports_checked {x : Int} : ¬ Reports (AsmRs.checked x) := by
  rintro ⟨message, h⟩
  rw [AsmRs.checked] at h
  split at h
  · cases h
  · cases h

theorem expectArgs_ok {lo hi : Nat} (hlo : lo ≤ line.args.length) (hhi : line.args.length ≤ hi) :
    Mn1613.expectArgs line lo hi = .ok () := by
  rw [Mn1613.expectArgs, if_neg (by omega)]

theorem s8_isOk {v : Int} {what : String} :
    (∃ d8, Mn1613.s8 v what = .ok d8) ↔ -128 ≤ v ∧ v ≤ 127 := by
  rw [Mn1613.s8, Mn1613.ranged]
  by_cases h : v < -128 ∨ v > 127
  · rw [if_pos h]
    constructor
    · rintro ⟨d8, hd8⟩
      cases hd8
    · omega
  · rw [if_neg h]
    exact ⟨fun _ => by omega, fun _ => ⟨_, rfl⟩⟩

theorem s8_reports {v : Int} {what : String} :
    Reports (Mn1613.s8 v what) ↔ ¬ (-128 ≤ v ∧ v ≤ 127) := by
  rw [Mn1613.s8, Mn1613.ranged]
  by_cases h : v < -128 ∨ v > 127
  · rw [if_pos h]
    exact ⟨fun _ => by omega, fun _ => reports_fail⟩
  · rw [if_neg h]
    exact ⟨fun hr => absurd hr not_reports_pure, fun _ => by omega⟩

/-- A distance is encoded if it is within reach. -/
theorem relativeMode_isOk {mmm : Word} :
    (∃ mode, Mn1613.relativeMode symbols false label pc mmm = .ok mode) ↔
      ∃ v, evalExpr symbols false label = .ok v ∧ InReach .mn1613 v pc := by
  constructor
  · rintro ⟨mode, h⟩
    obtain ⟨v, hv, h⟩ := bind_eq_ok.mp h
    obtain ⟨rel, hrel, h⟩ := bind_eq_ok.mp h
    obtain ⟨d8, hd8, _⟩ := bind_eq_ok.mp h
    obtain ⟨_, rfl⟩ := checked_eq_ok.mp hrel
    exact ⟨v, hv, s8_isOk.mp ⟨d8, hd8⟩⟩
  · rintro ⟨v, hv, hreach⟩
    obtain ⟨d8, hd8⟩ := (@s8_isOk _ "EA relative").mpr hreach
    have hfits : InI32 (v - pc.toNat) := by
      have := hreach.1
      have := hreach.2
      constructor
      · omega
      · omega
    exact ⟨⟨mmm, d8⟩, bind_eq_ok.mpr ⟨v, hv, bind_eq_ok.mpr
      ⟨_, checked_eq_ok.mpr ⟨hfits, rfl⟩, bind_eq_ok.mpr ⟨d8, hd8, rfl⟩⟩⟩⟩

theorem relativeMode_reports {mmm : Word} :
    Reports (Mn1613.relativeMode symbols false label pc mmm) ↔
      Misses .mn1613 symbols label pc := by
  constructor
  · intro h
    rcases reports_bind.mp h with h | ⟨v, hv, h⟩
    · exact .inl h
    · rcases reports_bind.mp h with h | ⟨rel, hrel, h⟩
      · exact absurd h not_reports_checked
      · obtain ⟨hfits, rfl⟩ := checked_eq_ok.mp hrel
        rcases reports_bind.mp h with h | ⟨d8, _, h⟩
        · exact .inr ⟨v, hv, fun _ => hfits, s8_reports.mp h⟩
        · exact absurd h not_reports_pure
  · rintro (h | ⟨v, hv, hfits, hfar⟩)
    · exact reports_bind.mpr (.inl h)
    · exact reports_bind.mpr (.inr ⟨v, hv, reports_bind.mpr (.inr
        ⟨_, checked_eq_ok.mpr ⟨hfits rfl, rfl⟩, reports_bind.mpr (.inl (s8_reports.mpr hfar))⟩)⟩)

/-- A line of the group is its address, packed into a word. -/
theorem encode_memory {op : MemoryOp} (hop : Mn1613.lineMnemonic line = some op.mnemonic)
    (hlo : op.addressArg + 1 ≤ line.args.length) (hhi : line.args.length ≤ op.addressArg + 2)
    (hreg : op.takesRegister = true → ∃ r, Mn1613.parseReg (line.arg 0) false = .ok r) :
    ∃ pack : Mn1613.EaMode → List Word,
      Mn1613.encodeInstruction line pc symbols false =
        (Mn1613.parseEa symbols false (Mn1613.eaString line op.addressArg) pc >>=
          fun mode => pure (pack mode)) := by
  have hargs := expectArgs_ok hlo hhi
  have henc : Mn1613.encodeInstruction line pc symbols false =
      Mn1613.encodeMnemonic op.mnemonic line pc symbols false := by
    unfold Mn1613.encodeInstruction
    split
    next h => simp [Mn1613.lineMnemonic, operation, h] at hop
    next => rw [hop, Option.getD_some]
  rw [henc]
  have loadStore (hone : op.addressArg = 1) (htakes : op.takesRegister = true) (bit1 : Word) :
      ∃ pack : Mn1613.EaMode → List Word,
        Mn1613.encodeLoadStore line pc symbols false bit1 =
          (Mn1613.parseEa symbols false (Mn1613.eaString line op.addressArg) pc >>=
            fun mode => pure (pack mode)) := by
    obtain ⟨r, hr⟩ := hreg htakes
    rw [hone] at hargs hlo ⊢
    refine ⟨fun mode => [Mn1613.encodeMem bit1 mode.mmm r mode.d8], ?_⟩
    unfold Mn1613.encodeLoadStore
    split
    next h => simp [h] at hlo
    next token rest h =>
      have htoken : line.arg 0 = token := by
        rw [ParsedLine.arg, h]
        rfl
      rw [htoken] at hr
      rw [hr, ok_bind, hargs, ok_bind]
  have memoryOnly (hzero : op.addressArg = 0) (bit1 rrr : Word) :
      ∃ pack : Mn1613.EaMode → List Word,
        Mn1613.encodeMemoryOnly line pc symbols false bit1 rrr =
          (Mn1613.parseEa symbols false (Mn1613.eaString line op.addressArg) pc >>=
            fun mode => pure (pack mode)) := by
    rw [hzero] at hargs ⊢
    refine ⟨fun mode => [Mn1613.encodeMem bit1 mode.mmm rrr mode.d8], ?_⟩
    rw [Mn1613.encodeMemoryOnly, hargs, ok_bind]
  cases op with
  | L => exact loadStore rfl rfl 1
  | ST => exact loadStore rfl rfl 0
  | B => exact memoryOnly rfl 1 7
  | BAL => exact memoryOnly rfl 0 7
  | IMS => exact memoryOnly rfl 1 6
  | DMS => exact memoryOnly rfl 0 6

/-- A jump is encoded if its target is within reach, and an error else. -/
theorem encodeJump_eq {base : Word} {args : List String} {lineNo : Nat} :
    ∃ (word : Word → Word) (message : Word → String),
      Tms9995.encodeJump base args lineNo symbols false pc =
        (Tms9995.evalTms symbols false (args.getD 0 "") >>= fun dest =>
          if JumpReaches dest pc then pure [word dest] else fail (message dest)) := by
  refine ⟨fun dest => base ||| (BitVec.ofInt 16 (((dest.toNat : Int) - (pc.toNat + 2)).tdiv 2)
      &&& 0xff),
    fun dest => "Line " ++ Nat.repr lineNo ++ ": " ++
      if ((dest.toNat : Int) - (pc.toNat + 2)).tmod 2 ≠ 0 then
        "jump target " ++ args.getD 0 "" ++ " is not word-aligned relative to PC"
      else "jump displacement " ++ Int.repr (((dest.toNat : Int) - (pc.toNat + 2)).tdiv 2) ++
        " out of range (-128..127)", ?_⟩
  refine congrArg (Tms9995.evalTms symbols false (args.getD 0 "") >>= ·) (funext fun dest => ?_)
  simp only [Bool.not_false, true_and, Bool.false_eq_true, if_false]
  by_cases heven : ((dest.toNat : Int) - (pc.toNat + 2)).tmod 2 = 0
  · rw [if_neg (not_not.mpr heven)]
    by_cases hreach : -128 ≤ ((dest.toNat : Int) - (pc.toNat + 2)).tdiv 2 ∧
        ((dest.toNat : Int) - (pc.toNat + 2)).tdiv 2 ≤ 127
    · rw [if_neg (by omega), if_pos ⟨heven, hreach⟩]
    · rw [if_pos (by omega), if_neg (fun h => hreach h.2), if_neg (not_not.mpr heven)]
      rfl
  · rw [if_pos heven, if_neg (fun h => heven h.1), if_pos heven]
    rfl

theorem encodeJump_isOk {base : Word} {args : List String} {lineNo : Nat} :
    (∃ ws, Tms9995.encodeJump base args lineNo symbols false pc = .ok ws) ↔
      ∃ v, evalExpr symbols false (args.getD 0 "") = .ok v ∧ InReach .tms9995 v pc := by
  obtain ⟨word, message, heq⟩ := @encodeJump_eq symbols pc base args lineNo
  rw [heq]
  constructor
  · rintro ⟨ws, h⟩
    obtain ⟨dest, hdest, h⟩ := bind_eq_ok.mp h
    obtain ⟨v, hv, hdest⟩ := bind_eq_ok.mp hdest
    obtain rfl := pure_eq_ok.mp hdest
    refine ⟨v, hv, ?_⟩
    by_contra hfar
    rw [if_neg (show ¬ JumpReaches _ _ from hfar)] at h
    cases h
  · rintro ⟨v, hv, hreach⟩
    exact ⟨_, bind_eq_ok.mpr ⟨_, bind_eq_ok.mpr ⟨v, hv, rfl⟩, if_pos hreach⟩⟩

theorem encodeJump_reports {base : Word} {args : List String} {lineNo : Nat} :
    Reports (Tms9995.encodeJump base args lineNo symbols false pc) ↔
      Misses .tms9995 symbols (args.getD 0 "") pc := by
  obtain ⟨word, message, heq⟩ := @encodeJump_eq symbols pc base args lineNo
  rw [heq]
  constructor
  · intro h
    rcases reports_bind.mp h with h | ⟨dest, hdest, h⟩
    · rcases reports_bind.mp h with h | ⟨v, _, h⟩
      · exact .inl h
      · exact absurd h not_reports_pure
    · obtain ⟨v, hv, hdest⟩ := bind_eq_ok.mp hdest
      obtain rfl := pure_eq_ok.mp hdest
      refine .inr ⟨v, hv, nofun, fun hreach => ?_⟩
      rw [if_pos (show JumpReaches _ _ from hreach)] at h
      exact not_reports_pure h
  · rintro (h | ⟨v, hv, _, hfar⟩)
    · exact reports_bind.mpr (.inl (reports_bind.mpr (.inl h)))
    · refine reports_bind.mpr (.inr ⟨_, bind_eq_ok.mpr ⟨v, hv, rfl⟩, ?_⟩)
      rw [if_neg (show ¬ JumpReaches _ _ from hfar)]
      exact reports_fail

/-- A line that names an operation of the tables. -/
theorem encode_format {name : String} {format : RetroCpu.Tms9995.OpFormat} {base : Nat}
    (hname : operation line = some name)
    (hformat : RetroCpu.Tms9995.opFormat name = some (format, base)) :
    tms9995.encode line pc symbols =
      if (line.args.map trim).length ≠ format.operands then
        Tms9995.failAt line.lineNo (format.requirement name)
      else Tms9995.encodeFormat name (BitVec.ofNat 16 base) (line.args.map trim) line.lineNo
        symbols false format pc := by
  obtain ⟨opRaw, hop, rfl⟩ := Option.map_eq_some_iff.mp hname
  have hformats : RetroCpu.Tms9995.opFormat "RT" = none ∧
      RetroCpu.Tms9995.opFormat "NOP" = none := by
    decide +kernel
  have hrt : toAsciiUppercase opRaw ≠ "RT" := by
    intro h
    rw [h, hformats.1] at hformat
    cases hformat
  have hnop : toAsciiUppercase opRaw ≠ "NOP" := by
    intro h
    rw [h, hformats.2] at hformat
    cases hformat
  change Tms9995.encodeInstruction line pc symbols false = _
  unfold Tms9995.encodeInstruction
  rw [hop]
  dsimp only
  rw [if_neg hrt, if_neg hnop, Tms9995.encodeOperation, hformat]

/-- A line that names a jump, with one operand. -/
theorem encode_jump {name : String} {base : Nat} (hname : operation line = some name)
    (hformat : RetroCpu.Tms9995.opFormat name = some (.jump, base))
    (hargs : line.args = [line.arg 0]) :
    tms9995.encode line pc symbols =
      Tms9995.encodeJump (BitVec.ofNat 16 base) [trim (line.arg 0)] line.lineNo symbols false pc := by
  rw [encode_format hname hformat, hargs]
  rfl

/-- A relative operand is encoded exactly when the value of its label is within reach, and
reported as an error exactly when it misses. -/
theorem encode_relative {cpu : CpuType} (h : RelativeOperand cpu line label) :
    ((∃ ws, (target cpu).encode line pc symbols = .ok ws) ↔
      ∃ v, evalExpr symbols false label = .ok v ∧ InReach cpu v pc) ∧
    (Reports ((target cpu).encode line pc symbols) ↔ Misses cpu symbols label pc) := by
  cases cpu with
  | mn1613 =>
      obtain ⟨op, hop, hlo, hhi, hreg, mmm, _, hread⟩ := h
      obtain ⟨pack, hencode⟩ := @encode_memory symbols line pc op hop hlo hhi hreg
      rw [hread] at hencode
      change ((∃ ws, Mn1613.encodeInstruction line pc symbols false = .ok ws) ↔ _) ∧
        (Reports (Mn1613.encodeInstruction line pc symbols false) ↔ _)
      rw [hencode, ← @relativeMode_isOk symbols label pc mmm,
        ← @relativeMode_reports symbols label pc mmm]
      constructor
      · constructor
        · rintro ⟨ws, h⟩
          obtain ⟨mode, hmode, _⟩ := bind_eq_ok.mp h
          exact ⟨mode, hmode⟩
        · rintro ⟨mode, hmode⟩
          exact ⟨_, bind_eq_ok.mpr ⟨mode, hmode, rfl⟩⟩
      · constructor
        · intro h
          rcases reports_bind.mp h with h | ⟨_, _, h⟩
          · exact h
          · exact absurd h not_reports_pure
        · exact fun h => reports_bind.mpr (.inl h)
  | tms9995 =>
      obtain ⟨name, base, hname, hformat, hargs, rfl⟩ := h
      change ((∃ ws, tms9995.encode line pc symbols = .ok ws) ↔ _) ∧
        (Reports (tms9995.encode line pc symbols) ↔ _)
      rw [encode_jump hname hformat hargs]
      exact ⟨encodeJump_isOk, encodeJump_reports⟩

end Encoders

section Modes

open AsmRs.Mn1613 (EaMode absoluteMode relativeMode parseEa parseEaPlain indexBase)

variable {symbols : SymbolTable} {allowUndefined : Bool} {mode : EaMode}

theorem absoluteMode_mmm {expr : List Char} {mmm : Word}
    (h : absoluteMode symbols allowUndefined expr mmm = .ok mode) : mode.mmm = mmm := by
  obtain ⟨v, _, h⟩ := bind_eq_ok.mp h
  obtain ⟨d8, _, h⟩ := bind_eq_ok.mp h
  obtain rfl := pure_eq_ok.mp h
  rfl

/-- The modes that are no distances. -/
def Absolute (mmm : Word) : Prop := mmm &&& 7 ≠ 1 ∧ mmm &&& 7 ≠ 3

instance (mmm : Word) : Decidable (Absolute mmm) := inferInstanceAs (Decidable (_ ∧ _))

theorem absoluteMode_absolute {expr : List Char} {mmm : Word} (hmmm : Absolute mmm)
    (h : absoluteMode symbols allowUndefined expr mmm = .ok mode) : Absolute mode.mmm := by
  rwa [absoluteMode_mmm h]

theorem indexBase_absolute {t : List Char} {mmm : Word} (h : indexBase t = some mmm) :
    Absolute mmm := by
  unfold indexBase at h
  split at h
  · split at h
    · cases h
      decide
    · cases h
      decide
    · cases h
  · cases h

/-- What is read as a mode 001 or 011 is a distance. -/
theorem parseEaPlain_relative {t : List Char} {pcWord : Word}
    (h : parseEaPlain symbols allowUndefined t pcWord = .ok mode) (hm : ¬ Absolute mode.mmm) :
    ∃ label mmm, (mmm = 1 ∨ mmm = 3) ∧ ∀ symbols allowUndefined pcWord,
      parseEaPlain symbols allowUndefined t pcWord =
        relativeMode symbols allowUndefined label pcWord mmm := by
  unfold parseEaPlain at h
  split at h
  · exact absurd (absoluteMode_absolute (by decide) h) hm
  · next hstar =>
    split at h
    · next body hbody =>
      refine ⟨trim (String.ofList body), 3, .inr rfl, fun symbols au pc => ?_⟩
      unfold parseEaPlain
      simp only [hstar, hbody]
    · next hbody =>
      split at h
      · exact absurd (absoluteMode_absolute (by decide) h) hm
      · next hplain =>
        refine ⟨String.ofList t, 1, .inl rfl, fun symbols au pc => ?_⟩
        unfold parseEaPlain
        simp only [hstar, hbody]

theorem parseEa_relative {arg : String} {pcWord : Word}
    (h : parseEa symbols allowUndefined arg pcWord = .ok mode) (hm : ¬ Absolute mode.mmm) :
    ∃ label, ReadsRelative arg label := by
  unfold parseEa at h
  simp only at h
  split at h
  · split at h
    · exact absurd (absoluteMode_absolute (by decide) h) hm
    · split at h
      · exact absurd (absoluteMode_absolute (by decide) h) hm
      · cases h
  · next h1 =>
    split at h
    · exact absurd (absoluteMode_absolute (by decide) h) hm
    · next h2 =>
      split at h
      · exact absurd (absoluteMode_absolute (by decide) h) hm
      · next h3 =>
        split at h
        · exact absurd (absoluteMode_absolute (by decide) h) hm
        · next h4 =>
          split at h
          · exact absurd (absoluteMode_absolute (by decide) h) hm
          · next h5 =>
            split at h
            · next hbase => exact absurd (absoluteMode_absolute (indexBase_absolute hbase) h) hm
            · next hbase =>
              obtain ⟨label, mmm, hmmm, hread⟩ := parseEaPlain_relative h hm
              refine ⟨label, mmm, hmmm, fun symbols au pc => ?_⟩
              rw [parseEa]
              rw [if_neg h1, if_neg h2, if_neg h3, if_neg h4, if_neg h5, hbase]
              exact hread symbols au pc

end Modes

section SecondPass

variable {cpu : CpuType} {symbols : SymbolTable} {symbolInfos : SymbolInfoTable}
  {line : ParsedLine} {label : String}

/-- The name of an instruction. -/
def IsInstruction (op : String) : Prop :=
  isNoteOp op = false ∧ op ≠ ".AREA" ∧ op ≠ ".ORG" ∧ isEquOp op = false ∧
    isStorageOp op = false ∧ isDataOp op = false ∧ op.toList.head? ≠ some '.'

instance (op : String) : Decidable (IsInstruction op) :=
  inferInstanceAs (Decidable (_ ∧ _ ∧ _ ∧ _ ∧ _ ∧ _ ∧ _))

/-- The operations are no directives. -/
theorem operation_relative (h : RelativeOperand cpu line label) :
    ∃ op, operation line = some op ∧ IsInstruction op := by
  cases cpu with
  | mn1613 =>
      obtain ⟨op, hop, _⟩ := h
      obtain ⟨name, hname, hlookup⟩ := Option.bind_eq_some_iff.mp hop
      have hkind : ∀ entry ∈ RetroCpu.Mn1613.mnemonics, IsInstruction entry.1 := by
        decide +kernel
      exact ⟨name, hname, hkind _ (Js.mem_of_lookup hlookup)⟩
  | tms9995 =>
      obtain ⟨name, base, hname, hformat, _⟩ := h
      obtain ⟨entry, hentry, hlookup⟩ := List.exists_of_findSome?_eq_some hformat
      obtain ⟨code, hcode, _⟩ := Option.map_eq_some_iff.mp hlookup
      have hkind : ∀ entry ∈ RetroCpu.Tms9995.formats, ∀ op ∈ entry.2, IsInstruction op.1 := by
        decide +kernel
      exact ⟨name, hname, hkind entry hentry _ (Js.mem_of_lookup hcode)⟩

theorem pass2Line_instruction {target : Target} {st : Pass2} {op : String}
    (hop : operation line = some op) (h : IsInstruction op) :
    pass2Line target symbols symbolInfos st line =
      pass2Instruction target symbols symbolInfos st line := by
  obtain ⟨hnote, harea, horg, hequ, hstorage, hdata, hdot⟩ := h
  rw [pass2Line, hop]
  dsimp only
  rw [if_neg (by simp [hnote]), if_neg harea, if_neg horg, if_neg (by simp [hequ]),
    if_neg (by simp [hstorage]), if_neg (by simp [hdata]), if_neg hdot]

/-- The second pass accepts a relative operand exactly when the value that the encoder has
for it is within reach of the location counter, and reports an error when it misses. -/
theorem pass2Line_relative (h : RelativeOperand cpu line label) {st : Pass2} :
    ((∃ st', pass2Line (target cpu) symbols symbolInfos st line = .ok st') ↔
      ∃ v, evalExpr (symbolsForEncode symbols symbolInfos) false label = .ok v ∧
        InReach cpu v (areaPc st.areas)) ∧
    (Reports (pass2Line (target cpu) symbols symbolInfos st line) ↔
      Misses cpu (symbolsForEncode symbols symbolInfos) label (areaPc st.areas)) := by
  obtain ⟨op, hop, hinstruction⟩ := operation_relative h
  obtain ⟨hok, hreports⟩ := @encode_relative (symbolsForEncode symbols symbolInfos) line label
    (areaPc st.areas) cpu h
  rw [pass2Line_instruction hop hinstruction, ← hok, ← hreports, pass2Instruction]
  cases hencode : (target cpu).encode line (areaPc st.areas)
      (symbolsForEncode symbols symbolInfos) with
  | ok ws =>
      constructor
      · exact ⟨fun _ => ⟨ws, rfl⟩, fun _ => ⟨_, rfl⟩⟩
      · constructor
        · rintro ⟨message, h⟩
          cases h
        · rintro ⟨message, h⟩
          cases h
  | error failure =>
      cases failure with
      | error message =>
          constructor
          · constructor
            · rintro ⟨st', h⟩
              cases h
            · rintro ⟨ws, h⟩
              cases h
          · exact ⟨fun _ => ⟨message, rfl⟩, fun _ => reports_fail⟩
      | panic =>
          constructor
          · constructor
            · rintro ⟨st', h⟩
              cases h
            · rintro ⟨ws, h⟩
              cases h
          · constructor
            · rintro ⟨message, h⟩
              cases h
            · rintro ⟨message, h⟩
              cases h

end SecondPass

section Fields

/-- The words of a line hold a PC-relative field. -/
def HasRelativeField (cpu : CpuType) (line : ParsedLine) (ws : List Word) : Prop :=
  match cpu with
  | .mn1613 => ∃ op : MemoryOp, Mn1613.lineMnemonic line = some op.mnemonic ∧
      ∃ w, ws = [w] ∧ ((w >>> 11) &&& 7 = 1 ∨ (w >>> 11) &&& 7 = 3)
  | .tms9995 => ∃ name base, operation line = some name ∧
      RetroCpu.Tms9995.opFormat name = some (.jump, base)

variable {cpu : CpuType} {line : ParsedLine} {pc : Word} {symbols : SymbolTable} {ws : List Word}

/-- The MMM field. -/
theorem mode_of_word (bit1 mmm rrr d8 : Word) :
    (Mn1613.encodeMem bit1 mmm rrr d8 >>> 11) &&& 7 = mmm &&& 7 := by
  apply BitVec.eq_of_getLsbD_eq
  intro i hi
  simp only [Mn1613.encodeMem, BitVec.getLsbD_and, BitVec.getLsbD_ushiftRight, BitVec.getLsbD_or,
    BitVec.getLsbD_shiftLeft]
  interval_cases i <;> simp

theorem counts_of_expectArgs {lo hi : Nat} (h : Mn1613.expectArgs line lo hi = .ok ()) :
    lo ≤ line.args.length ∧ line.args.length ≤ hi := by
  rw [Mn1613.expectArgs] at h
  split at h
  · cases h
  · omega

/-- An accepted line of the group. -/
theorem encode_memory_line {op : MemoryOp} (hop : Mn1613.lineMnemonic line = some op.mnemonic)
    (h : Mn1613.encodeInstruction line pc symbols false = .ok ws) :
    op.addressArg + 1 ≤ line.args.length ∧ line.args.length ≤ op.addressArg + 2 ∧
      (op.takesRegister = true → ∃ r, Mn1613.parseReg (line.arg 0) false = .ok r) ∧
      ∃ mode bit1 rrr,
        Mn1613.parseEa symbols false (Mn1613.eaString line op.addressArg) pc = .ok mode ∧
        ws = [Mn1613.encodeMem bit1 mode.mmm rrr mode.d8] := by
  have henc : Mn1613.encodeMnemonic op.mnemonic line pc symbols false = .ok ws := by
    unfold Mn1613.encodeInstruction at h
    split at h
    · cases h
    · rwa [hop] at h
  have loadStore {bit1 : Word}
      (h : Mn1613.encodeLoadStore line pc symbols false bit1 = .ok ws) :
      2 ≤ line.args.length ∧ line.args.length ≤ 3 ∧
        (∃ r, Mn1613.parseReg (line.arg 0) false = .ok r) ∧
        ∃ mode bit1 rrr,
          Mn1613.parseEa symbols false (Mn1613.eaString line 1) pc = .ok mode ∧
          ws = [Mn1613.encodeMem bit1 mode.mmm rrr mode.d8] := by
    unfold Mn1613.encodeLoadStore at h
    split at h
    · cases h
    · next token rest hargs =>
      obtain ⟨r, hr, h⟩ := bind_eq_ok.mp h
      obtain ⟨_, hcount, h⟩ := bind_eq_ok.mp h
      obtain ⟨mode, hmode, h⟩ := bind_eq_ok.mp h
      obtain ⟨hlo, hhi⟩ := counts_of_expectArgs hcount
      obtain rfl := pure_eq_ok.mp h
      have htoken : line.arg 0 = token := by
        rw [ParsedLine.arg, hargs]
        rfl
      exact ⟨hlo, hhi, ⟨r, htoken ▸ hr⟩, mode, bit1, r, hmode, rfl⟩
  have memoryOnly {bit1 rrr : Word}
      (h : Mn1613.encodeMemoryOnly line pc symbols false bit1 rrr = .ok ws) :
      1 ≤ line.args.length ∧ line.args.length ≤ 2 ∧
        ∃ mode bit1 rrr,
          Mn1613.parseEa symbols false (Mn1613.eaString line 0) pc = .ok mode ∧
          ws = [Mn1613.encodeMem bit1 mode.mmm rrr mode.d8] := by
    obtain ⟨_, hcount, h⟩ := bind_eq_ok.mp h
    obtain ⟨mode, hmode, h⟩ := bind_eq_ok.mp h
    obtain ⟨hlo, hhi⟩ := counts_of_expectArgs hcount
    obtain rfl := pure_eq_ok.mp h
    exact ⟨hlo, hhi, mode, bit1, rrr, hmode, rfl⟩
  cases op with
  | L | ST =>
      obtain ⟨hlo, hhi, hreg, hmode⟩ := loadStore henc
      exact ⟨hlo, hhi, fun _ => hreg, hmode⟩
  | B | BAL | IMS | DMS =>
      obtain ⟨hlo, hhi, hmode⟩ := memoryOnly henc
      exact ⟨hlo, hhi, fun hreg => absurd hreg Bool.false_ne_true, hmode⟩

/-- A PC-relative field comes from a relative operand. -/
theorem relativeOperand_of_field (hfield : HasRelativeField cpu line ws)
    (h : (target cpu).encode line pc symbols = .ok ws) :
    ∃ label, RelativeOperand cpu line label := by
  cases cpu with
  | mn1613 =>
      obtain ⟨op, hop, w, hw, hmode⟩ := hfield
      obtain ⟨hlo, hhi, hreg, mode, bit1, rrr, haddress, hws⟩ := encode_memory_line hop h
      obtain ⟨rfl⟩ := List.cons.inj (hw.symm.trans hws)
      rw [mode_of_word] at hmode
      have hrelative : ¬ Absolute mode.mmm := by
        rintro ⟨h1, h3⟩
        exact hmode.elim h1 h3
      obtain ⟨label, hread⟩ := parseEa_relative haddress hrelative
      exact ⟨label, op, hop, hlo, hhi, hreg, hread⟩
  | tms9995 =>
      obtain ⟨name, base, hname, hformat⟩ := hfield
      change tms9995.encode line pc symbols = .ok ws at h
      rw [encode_format hname hformat] at h
      have hone : line.args.length = 1 := by
        by_contra hcount
        rw [if_pos (by simpa [RetroCpu.Tms9995.OpFormat.operands] using hcount)] at h
        cases h
      obtain ⟨arg, harg⟩ := List.length_eq_one_iff.mp hone
      refine ⟨_, name, base, hname, hformat, ?_, rfl⟩
      rw [ParsedLine.arg, harg]
      rfl

end Fields

/-- What the second pass works on, for a program that the first pass accepts. -/
structure SecondPass (target : Target) (parsed : List ParsedLine) where
  first : Pass1
  hfirst : pass1 target parsed = .ok first

namespace SecondPass

variable {cpu : CpuType} {parsed : List ParsedLine} (p : SecondPass (target cpu) parsed)

def symbolInfos : SymbolInfoTable :=
  buildSymbolInfos p.first.symbols (collectGloblNames parsed) p.first.symbolAreas

/-- One line of the pass. -/
def step (st : Pass2) (line : ParsedLine) : Except Failure Pass2 :=
  pass2Line (target cpu) p.first.symbols p.symbolInfos st line

/-- The pass comes to the line in the state `st`. -/
def Reaches (st : Pass2) (line : ParsedLine) : Prop :=
  ∃ before after, parsed = before ++ line :: after ∧ before.foldlM p.step {} = .ok st

/-- The symbols of the encoder. -/
def table : SymbolTable := symbolsForEncode p.first.symbols p.symbolInfos

/-- The label of a relative operand may be fixed in the state `st`. -/
def Known (st : Pass2) (label : String) : Prop :=
  Refers p.symbolInfos (canonicalAreaName st.areas.current) label

/-- Every relative operand whose distance is not known is an error. -/
def RefusesUnknown : Prop :=
  ∀ st line label, p.Reaches st line → areaNoload st.areas = false →
    RelativeOperand cpu line label → ¬ p.Known st label →
    ∃ message, p.step st line = .error (.error message)

/-- The value that stands for a distance not known is never within reach. -/
def PlaceholdersFar : Prop :=
  ∀ st line label, p.Reaches st line → areaNoload st.areas = false →
    RelativeOperand cpu line label → ¬ p.Known st label →
    Misses cpu p.table label (areaPc st.areas)

/-- Every PC-relative field of an area with an image comes from an operand whose distance is
known. -/
def FieldsKnown : Prop :=
  ∀ st line ws, p.Reaches st line → areaNoload st.areas = false →
    (target cpu).encode line (areaPc st.areas) p.table = .ok ws → HasRelativeField cpu line ws →
    ∃ label, RelativeOperand cpu line label ∧ p.Known st label

theorem refusesUnknown_iff : p.RefusesUnknown ↔ p.PlaceholdersFar := by
  constructor
  · intro h st line label hreach hload hrel hunknown
    exact (pass2Line_relative hrel).2.mp (h st line label hreach hload hrel hunknown)
  · intro h st line label hreach hload hrel hunknown
    exact (pass2Line_relative hrel).2.mpr (h st line label hreach hload hrel hunknown)

/-- Every line of an accepted program is accepted where the pass comes to it. -/
theorem step_of_reaches {result : AssemblyResult} {st : Pass2} {line : ParsedLine}
    (hok : assemble (target cpu) parsed = .ok result) (hreach : p.Reaches st line) :
    ∃ st', p.step st line = .ok st' := by
  obtain ⟨first, second, hassembled⟩ := assemble_eq_ok hok
  obtain rfl : first = p.first := Except.ok.inj (hassembled.hfirst.symm.trans p.hfirst)
  have hsecond := hassembled.hsecond
  rw [hassembled.symbols, hassembled.symbolInfos] at hsecond
  obtain ⟨before, after, hlines, hbefore⟩ := hreach
  have hrun : (before ++ line :: after).foldlM p.step {} = .ok second := by
    rw [← hlines]
    exact hsecond
  rw [List.foldlM_append] at hrun
  obtain ⟨st₁, hst₁, hrun⟩ := bind_eq_ok.mp hrun
  obtain rfl : st₁ = st := Except.ok.inj (hst₁.symm.trans hbefore)
  rw [List.foldlM_cons] at hrun
  obtain ⟨st', hst', _⟩ := bind_eq_ok.mp hrun
  exact ⟨st', hst'⟩

theorem fieldsKnown {result : AssemblyResult} (hok : assemble (target cpu) parsed = .ok result)
    (hfar : p.PlaceholdersFar) : p.FieldsKnown := by
  intro st line ws hreach hload hencode hfield
  obtain ⟨label, hrel⟩ := relativeOperand_of_field hfield hencode
  obtain ⟨st', hst'⟩ := p.step_of_reaches hok hreach
  refine ⟨label, hrel, ?_⟩
  by_contra hunknown
  obtain ⟨message, hmessage⟩ := (p.refusesUnknown_iff.mpr hfar) st line label hreach hload hrel hunknown
  cases hst'.symm.trans hmessage

end SecondPass

end AsmRs
end RetroCpu
