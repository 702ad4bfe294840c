import Mathlib.Tactic.IntervalCases
import RetroCpu.Tms9995.PrintedOperand

/-!
# Disassembling what the assembler emits

The words of an accepted line are decoded as its operation, with its operands.
-/

namespace RetroCpu
namespace Tms9995

open AsmRs (SymbolTable Failure)
open AsmRs.Tms9995
open DisAssembler.Tms9995
open MaskTable Checked

section Words

variable (b c n m r x : Word)

theorem low4_and_mask : ((b &&& 0xfff0) ||| (r &&& 0xf)) &&& 0xfff0 = b &&& 0xfff0 ∧
    ((b &&& 0xfff0) ||| (r &&& 0xf)) &&& 0xf = r &&& 0xf := by
  constructor
  all_goals
    apply BitVec.eq_of_getLsbD_eq
    intro i hi
    simp only [BitVec.getLsbD_and, BitVec.getLsbD_or]
    interval_cases i <;> simp

theorem low8_and_mask : ((b &&& 0xff00) ||| (x &&& 0xff)) &&& 0xff00 = b &&& 0xff00 ∧
    ((b &&& 0xff00) ||| (x &&& 0xff)).setWidth 8 = x.setWidth 8 := by
  constructor
  all_goals
    apply BitVec.eq_of_getLsbD_eq
    intro i hi
    simp only [BitVec.getLsbD_and, BitVec.getLsbD_or, BitVec.getLsbD_setWidth]
    interval_cases i <;> simp

/-- The word of a shift. -/
def shiftWord : Word := b ||| ((c &&& 0xf) <<< 4) ||| (r &&& 0xf)

theorem shift_and_mask :
    shiftWord (b &&& 0xff00) c r &&& 0xff00 = b &&& 0xff00 ∧
    shiftWord (b &&& 0xff00) c r &&& 0xf = r &&& 0xf ∧
    (shiftWord (b &&& 0xff00) c r >>> 4) &&& 0xf = c &&& 0xf := by
  refine ⟨?_, ?_, ?_⟩
  all_goals
    apply BitVec.eq_of_getLsbD_eq
    intro i hi
    simp only [shiftWord, BitVec.getLsbD_and, BitVec.getLsbD_or, BitVec.getLsbD_ushiftRight,
      BitVec.getLsbD_shiftLeft]
    interval_cases i <;> simp

/-- A general address in six bits. -/
def sixBits (m r : Word) : Word := ((m &&& 3) <<< 4) ||| (r &&& 0xf)

theorem sixBits_fields : (sixBits m r >>> 4) &&& 3 = m &&& 3 ∧ sixBits m r &&& 0xf = r &&& 0xf := by
  constructor
  all_goals
    apply BitVec.eq_of_getLsbD_eq
    intro i hi
    simp only [sixBits, BitVec.getLsbD_and, BitVec.getLsbD_or, BitVec.getLsbD_ushiftRight,
      BitVec.getLsbD_shiftLeft]
    interval_cases i <;> simp

theorem single_and_mask :
    ((b &&& 0xffc0) ||| sixBits m r) &&& 0xffc0 = b &&& 0xffc0 ∧
    ((b &&& 0xffc0) ||| sixBits m r) &&& 0x3f = sixBits m r := by
  constructor
  all_goals
    apply BitVec.eq_of_getLsbD_eq
    intro i hi
    simp only [sixBits, BitVec.getLsbD_and, BitVec.getLsbD_or, BitVec.getLsbD_shiftLeft]
    interval_cases i <;> simp

/-- The word of an operation with a general operand and a number or register. -/
def fieldWord : Word := b ||| ((n &&& 0xf) <<< 6) ||| sixBits m r

theorem field_and_mask :
    fieldWord (b &&& 0xfc00) n m r &&& 0xfc00 = b &&& 0xfc00 ∧
    fieldWord (b &&& 0xfc00) n m r &&& 0x3f = sixBits m r ∧
    field4 (fieldWord (b &&& 0xfc00) n m r) = n &&& 0xf := by
  refine ⟨?_, ?_, ?_⟩
  all_goals
    apply BitVec.eq_of_getLsbD_eq
    intro i hi
    simp only [fieldWord, sixBits, field4, BitVec.getLsbD_and, BitVec.getLsbD_or,
      BitVec.getLsbD_ushiftRight, BitVec.getLsbD_shiftLeft]
    interval_cases i <;> simp

variable (m' r' : Word)

/-- The word of an operation with two general operands. -/
def dualWord : Word :=
  b ||| ((m' &&& 3) <<< 10) ||| ((r' &&& 0xf) <<< 6) ||| ((m &&& 3) <<< 4) ||| (r &&& 0xf)

theorem dual_and_mask :
    dualWord (b &&& 0xf000) m r m' r' &&& 0xf000 = b &&& 0xf000 ∧
    dualWord (b &&& 0xf000) m r m' r' &&& 0x3f = sixBits m r ∧
    (dualWord (b &&& 0xf000) m r m' r' >>> 6) &&& 0x3f = sixBits m' r' := by
  refine ⟨?_, ?_, ?_⟩
  all_goals
    apply BitVec.eq_of_getLsbD_eq
    intro i hi
    simp only [sixBits, dualWord, BitVec.getLsbD_and, BitVec.getLsbD_or,
      BitVec.getLsbD_ushiftRight, BitVec.getLsbD_shiftLeft]
    interval_cases i <;> simp

end Words

section Tables

/-- The bits of the opcode. -/
def maskOf : OpFormat → Word
  | .fixed | .immediate => 0xffff
  | .register | .registerImmediate => 0xfff0
  | .shift | .jump | .cru => 0xff00
  | .single => 0xffc0
  | .logical | .transfer | .extended => 0xfc00
  | .dual => 0xf000

theorem rows_apart : rows.Pairwise Row.Apart := by
  decide

/-- The operations of the assembler are rows of the disassembler. -/
theorem row_of_opFormat {name : String} {format : OpFormat} {base : Nat}
    (h : opFormat name = some (format, base)) :
    (⟨maskOf format, BitVec.ofNat 16 base, (format, name)⟩ : Row 16 (OpFormat × String)) ∈ rows ∧
      BitVec.ofNat 16 base &&& maskOf format = BitVec.ofNat 16 base ∧
      BitVec.ofNat 16 base ≠ 0 := by
  obtain ⟨entry, hentry, hlookup⟩ := List.exists_of_findSome?_eq_some h
  obtain ⟨code, hcode, heq⟩ := Option.map_eq_some_iff.mp hlookup
  obtain ⟨rfl, rfl⟩ := Prod.mk.inj heq
  have hall : ∀ entry ∈ formats, ∀ op ∈ entry.2,
      (⟨maskOf entry.1, BitVec.ofNat 16 op.2, (entry.1, op.1)⟩ : Row 16 (OpFormat × String)) ∈ rows ∧
        BitVec.ofNat 16 op.2 &&& maskOf entry.1 = BitVec.ofNat 16 op.2 ∧
        BitVec.ofNat 16 op.2 ≠ 0 := by
    decide
  exact hall entry hentry _ (Js.mem_of_lookup hcode)

/-- The rows of the disassembler are operations of the assembler. -/
theorem opFormat_of_row {row : Row 16 (OpFormat × String)} (h : row ∈ rows) :
    opFormat row.result.2 = some (row.result.1, row.value.toNat) ∧
      row.mask = maskOf row.result.1 := by
  have hall : ∀ row ∈ rows, opFormat row.result.2 = some (row.result.1, row.value.toNat) ∧
      row.mask = maskOf row.result.1 := by
    decide
  exact hall row h

variable {readWord : Word → Word} {pc : Word}

theorem even_and (h : pc.toNat % 2 = 0) : pc &&& 0xfffe = pc := by
  have hbit : pc[0] = false := by
    rw [← BitVec.getLsbD_eq_getElem, BitVec.getLsbD, Nat.testBit_zero]
    simp [h]
  apply BitVec.eq_of_getLsbD_eq
  intro i hi
  rw [BitVec.getLsbD_and]
  interval_cases i <;> simp [hbit]

/-- A word is decoded by the row that it matches. -/
theorem decode_of_opFormat {name : String} {format : OpFormat} {base : Nat}
    (hformat : opFormat name = some (format, base)) (heven : pc.toNat % 2 = 0)
    (hmatch : readWord pc &&& maskOf format = BitVec.ofNat 16 base) :
    decodeTms9995 readWord pc = decodeFormat readWord name (readWord pc) pc format := by
  obtain ⟨hrow, _, hne⟩ := row_of_opFormat hformat
  have hzero : readWord pc ≠ 0 := by
    intro h
    rw [h] at hmatch
    exact hne (hmatch.symm.trans (by simp))
  rw [decodeTms9995]
  simp only [even_and heven]
  rw [if_neg hzero, firstMatch_eq rows_apart hrow hmatch]

end Tables

section Operands

/-- What an operand of a format is. -/
inductive Kind
  | general
  | reg
  | imm
  | disp
  | count
  | bits
  | trap
  | label
deriving DecidableEq, Repr

/-- The operands of an operation. -/
def kinds (op : String) : OpFormat → List Kind
  | .fixed => []
  | .immediate => [.imm]
  | .register => [.reg]
  | .registerImmediate => [.reg, .imm]
  | .cru => [.disp]
  | .jump => [.label]
  | .shift => [.reg, .count]
  | .logical => [.general, .reg]
  | .transfer => [.general, .bits]
  | .extended => if op = "XOP" then [.general, .trap] else [.general, .reg]
  | .single => [.general]
  | .dual => [.general, .general]

/-- A general address as an operand. -/
def generalOp (a : GeneralAddr) : DecodedOp :=
  match a.extraWord with
  | some w => if a.reg = 0 then .sym w else .indexed w a.reg
  | none => if a.mode = 0 then .reg a.reg else if a.mode = 1 then .indirect a.reg else .autoInc a.reg

/-- The operand that a text stands for. -/
def readOperand (symbols : SymbolTable) (lineNo : Nat) (kind : Kind) (text : String) :
    Except Failure DecodedOp :=
  match kind with
  | .general => do return generalOp (← parseGeneralAddr symbols false lineNo text)
  | .reg => do return .reg (← requireReg lineNo text "")
  | .imm => do return .imm (← requireImm symbols false lineNo text)
  | .disp => do
      return .immDisp (BitVec.ofInt 8 (← requireImmRange symbols false lineNo text (-128) 127 ""))
  | .count => do
      return .immCount (BitVec.ofInt 8 (← requireImmRange symbols false lineNo text 0 15 ""))
  | .bits => do
      let n ← requireImmRange symbols false lineNo text 0 16 ""
      return .immCount (if n = 0 then 16 else BitVec.ofInt 8 n)
  | .trap => do
      return .xopNum (BitVec.ofInt 8 (← requireImmRange symbols false lineNo text 0 15 ""))
  | .label => do return .jumpTarget (← evalTms symbols false text)

/-- The operands of an operation, one by one. -/
def readOperands (symbols : SymbolTable) (lineNo : Nat) (ks : List Kind) (args : List String) :
    Except Failure (List DecodedOp) :=
  (ks.zip args).mapM fun entry => readOperand symbols lineNo entry.1 entry.2

/-- The words stand in memory from `pc` on. -/
def Holds (readWord : Word → Word) (pc : Word) (ws : List Word) : Prop :=
  ∀ i w, ws[i]? = some w → readWord (pc + BitVec.ofNat 16 (i * 2)) = w

variable {symbols : SymbolTable} {lineNo : Nat} {readWord : Word → Word} {pc : Word}

theorem Holds.head {w : Word} {ws : List Word} (h : Holds readWord pc (w :: ws)) :
    readWord pc = w := by
  simpa using h 0 w rfl

/-- What `parse_general_addr` builds. -/
structure Readable (a : GeneralAddr) : Prop where
  reg : a.reg &&& 0xf = a.reg
  mode : a.extraWord = none ∧ (a.mode = 0 ∨ a.mode = 1 ∨ a.mode = 3) ∨
    (∃ w, a.extraWord = some w) ∧ a.mode = 2

theorem parseReg_fits {text : String} {r : Word} (h : parseReg text = some r) :
    r &&& 0xf = r ∧ r.toNat ≤ 15 := by
  unfold parseReg at h
  split at h
  · split at h
    · cases h
    · obtain ⟨n, hn, rfl⟩ := Option.map_eq_some_iff.mp h
      have hle := (Option.filter_eq_some_iff.mp hn).2
      have hle : n ≤ 15 := by simpa using hle
      have hall : ∀ n : Fin 16, BitVec.ofNat 16 n &&& 0xf = BitVec.ofNat 16 n := by
        decide
      refine ⟨hall ⟨n, by omega⟩, ?_⟩
      rw [BitVec.toNat_ofNat]
      omega
  · cases h

theorem autoIncrement_fits {cs : List Char} {r : Word} (h : autoIncrement cs = some r) :
    r &&& 0xf = r := by
  unfold autoIncrement at h
  split at h
  · exact (parseReg_fits h).1
  · cases h

theorem indirect_fits {cs : List Char} {r : Word} (h : indirect cs = some r) :
    r &&& 0xf = r := by
  unfold indirect at h
  split at h
  · exact (parseReg_fits h).1
  · cases h

theorem indexed_fits {cs : List Char} {addr : String} {r : Word}
    (h : indexed cs = some (addr, r)) : r &&& 0xf = r := by
  unfold indexed at h
  split at h
  · split at h
    · obtain ⟨r', hr', heq⟩ := Option.map_eq_some_iff.mp h
      obtain ⟨_, rfl⟩ := Prod.mk.inj heq
      exact (parseReg_fits hr').1
    · cases h
  · cases h

theorem parseMemoryAddr_readable {text : String} {a : GeneralAddr}
    (h : parseMemoryAddr symbols false lineNo text = .ok a) : Readable a := by
  unfold parseMemoryAddr at h
  split at h
  · next addr r hindexed =>
      split at h
      · cases h
      · obtain ⟨v, _, h⟩ := bind_eq_ok.mp h
        obtain rfl := pure_eq_ok.mp h
        exact ⟨indexed_fits hindexed, .inr ⟨⟨_, rfl⟩, rfl⟩⟩
  · obtain ⟨v, _, h⟩ := bind_eq_ok.mp h
    obtain rfl := pure_eq_ok.mp h
    exact ⟨BitVec.zero_and, .inr ⟨⟨_, rfl⟩, rfl⟩⟩

theorem parseGeneralAddr_readable {text : String} {a : GeneralAddr}
    (h : parseGeneralAddr symbols false lineNo text = .ok a) : Readable a := by
  unfold parseGeneralAddr at h
  dsimp only at h
  split at h
  · cases h
  split at h
  · cases h
  split at h
  · cases h
  split at h
  · next hauto =>
      cases h
      exact ⟨autoIncrement_fits hauto, .inl ⟨rfl, .inr (.inr rfl)⟩⟩
  split at h
  · next hindirect =>
      cases h
      exact ⟨indirect_fits hindirect, .inl ⟨rfl, .inr (.inl rfl)⟩⟩
  split at h
  · next hreg =>
      cases h
      exact ⟨(parseReg_fits hreg).1, .inl ⟨rfl, .inl rfl⟩⟩
  · exact parseMemoryAddr_readable h

/-- The six bits of a general address are decoded as it. -/
theorem decodeField6_eq {a : GeneralAddr} (h : Readable a) {k : Nat}
    (hmem : ∀ w, a.extraWord = some w → readWord (pc + BitVec.ofNat 16 (k * 2)) = w) :
    decodeField6 readWord (sixBits a.mode a.reg) pc k = (generalOp a, (extras a).length) := by
  obtain ⟨mode, reg, extraWord⟩ := a
  obtain ⟨hmode, hreg⟩ := sixBits_fields mode reg
  obtain ⟨hfits, hcases⟩ := h
  dsimp only at hfits hcases hmem ⊢
  rw [hfits] at hreg
  rw [decodeField6]
  simp only [hmode, hreg]
  rcases hcases with ⟨rfl, rfl | rfl | rfl⟩ | ⟨⟨w, rfl⟩, rfl⟩
  · rfl
  · rfl
  · rfl
  · have hw := hmem w rfl
    simp only [hw, generalOp, extras]
    by_cases h0 : reg = 0#16
    · simp [h0]
    · simp [h0]

end Operands

section Formats

/-- The words that the assembler emits for operands stand in memory, at an even address. -/
structure Emitted (symbols : SymbolTable) (lineNo : Nat) (readWord : Word → Word) (pc : Word)
    (op : String) (format : OpFormat) (base : Word) (args : List String) (ws : List Word) :
    Prop where
  mask : base &&& maskOf format = base
  decoded : ∀ w, readWord pc = w → w &&& maskOf format = base →
    decodeTms9995 readWord pc = decodeFormat readWord op w pc format
  holds : Holds readWord pc ws
  words : encodeFormat op base args lineNo symbols false format pc = .ok ws

variable {symbols : SymbolTable} {lineNo : Nat} {readWord : Word → Word} {pc : Word}
  {op : String} {format : OpFormat} {base : Word} {args : List String} {ws : List Word}

theorem emitted {base : Nat} (hformat : opFormat op = some (format, base))
    (heven : pc.toNat % 2 = 0) (hmem : Holds readWord pc ws)
    (h : encodeFormat op (BitVec.ofNat 16 base) args lineNo symbols false format pc = .ok ws) :
    Emitted symbols lineNo readWord pc op format (BitVec.ofNat 16 base) args ws := by
  refine ⟨(row_of_opFormat hformat).2.1, ?_, hmem, h⟩
  rintro _ rfl hmask
  exact decode_of_opFormat hformat heven hmask

theorem Emitted.head {w : Word} {rest : List Word}
    (e : Emitted symbols lineNo readWord pc op format base args (w :: rest)) : readWord pc = w :=
  e.holds.head

/-- The words are decoded as the operation, with its operands. -/
def DecodesTo (symbols : SymbolTable) (lineNo : Nat) (readWord : Word → Word) (pc : Word)
    (op : String) (ks : List Kind) (args : List String) (ws : List Word) : Prop :=
  ∃ ops, readOperands symbols lineNo ks args = .ok ops ∧
    decodeTms9995 readWord pc = ⟨op, ops, ws.length, readWord pc⟩

/-- An immediate operand does not depend on its message. -/
theorem requireImmRange_what {text what : String} {lo hi v : Int}
    (h : requireImmRange symbols false lineNo text lo hi what = .ok v) (what' : String) :
    requireImmRange symbols false lineNo text lo hi what' = .ok v ∧ lo ≤ v ∧ v ≤ hi := by
  obtain ⟨w, hw, h⟩ := bind_eq_ok.mp h
  obtain ⟨hrange, h⟩ := error_ite_eq_ok.mp h
  have hrange : ¬ (w.toInt < lo ∨ w.toInt > hi) := by simpa using hrange
  have hv : w.toInt = v := pure_eq_ok.mp h
  refine ⟨bind_eq_ok.mpr ⟨w, hw, error_ite_eq_ok.mpr ⟨?_, congrArg Except.ok hv⟩⟩,
    by omega, by omega⟩
  simpa using hrange

theorem requireReg_eq {text message : String} {r : Word}
    (h : requireReg lineNo text message = .ok r) : parseReg text = some r := by
  unfold requireReg at h
  split at h
  · next hr =>
      cases h
      exact hr
  · cases h

theorem requireReg_of {text : String} {r : Word} (h : parseReg text = some r) (message : String) :
    requireReg lineNo text message = .ok r := by
  rw [requireReg, h]

theorem readOperands_one {k : Kind} {a : String} {o : DecodedOp}
    (h : readOperand symbols lineNo k a = .ok o) :
    readOperands symbols lineNo [k] [a] = .ok [o] := by
  simp only [readOperands, List.zip_cons_cons, List.zip_nil_right, List.mapM_cons, List.mapM_nil, h]
  rfl

theorem readOperands_two {k k' : Kind} {a a' : String} {o o' : DecodedOp}
    (h : readOperand symbols lineNo k a = .ok o) (h' : readOperand symbols lineNo k' a' = .ok o') :
    readOperands symbols lineNo [k, k'] [a, a'] = .ok [o, o'] := by
  simp only [readOperands, List.zip_cons_cons, List.zip_nil_right, List.mapM_cons, List.mapM_nil, h,
    h']
  rfl

theorem decode_fixed (e : Emitted symbols lineNo readWord pc op .fixed base [] ws) :
    DecodesTo symbols lineNo readWord pc op [] [] ws := by
  obtain rfl := pure_eq_ok.mp e.words
  refine ⟨[], rfl, ?_⟩
  rw [e.decoded base e.head e.mask, decodeFormat, e.head]
  rfl

theorem decode_immediate {a : String}
    (e : Emitted symbols lineNo readWord pc op .immediate base [a] ws) :
    DecodesTo symbols lineNo readWord pc op [.imm] [a] ws := by
  obtain ⟨v, hv, h⟩ := bind_eq_ok.mp e.words
  obtain rfl := pure_eq_ok.mp h
  have hsecond : readWord (pc + 2) = v := e.holds 1 v rfl
  refine ⟨[.imm v], readOperands_one (bind_eq_ok.mpr ⟨v, hv, rfl⟩), ?_⟩
  rw [e.decoded base e.head e.mask, decodeFormat, hsecond, e.head]
  rfl

theorem decode_register {a : String}
    (e : Emitted symbols lineNo readWord pc op .register base [a] ws) :
    DecodesTo symbols lineNo readWord pc op [.reg] [a] ws := by
  obtain ⟨r, hr, h⟩ := bind_eq_ok.mp e.words
  obtain rfl := pure_eq_ok.mp h
  have hreg := requireReg_eq hr
  obtain ⟨hmask, hlow⟩ := low4_and_mask base r
  rw [show base &&& 0xfff0 = base from e.mask] at hmask hlow
  replace hlow := hlow.trans (parseReg_fits hreg).1
  refine ⟨[.reg r], readOperands_one (bind_eq_ok.mpr ⟨r, requireReg_of hreg _, rfl⟩), ?_⟩
  rw [e.decoded _ e.head hmask, decodeFormat, hlow, e.head]
  rfl

theorem decode_registerImmediate {a a' : String}
    (e : Emitted symbols lineNo readWord pc op .registerImmediate base [a, a'] ws) :
    DecodesTo symbols lineNo readWord pc op [.reg, .imm] [a, a'] ws := by
  obtain ⟨r, hr, h⟩ := bind_eq_ok.mp e.words
  obtain ⟨v, hv, h⟩ := bind_eq_ok.mp h
  obtain rfl := pure_eq_ok.mp h
  have hreg := requireReg_eq hr
  obtain ⟨hmask, hlow⟩ := low4_and_mask base r
  rw [show base &&& 0xfff0 = base from e.mask] at hmask hlow
  replace hlow := hlow.trans (parseReg_fits hreg).1
  have hsecond : readWord (pc + 2) = v := e.holds 1 v rfl
  refine ⟨[.reg r, .imm v], readOperands_two (bind_eq_ok.mpr ⟨r, requireReg_of hreg _, rfl⟩)
    (bind_eq_ok.mpr ⟨v, hv, rfl⟩), ?_⟩
  rw [e.decoded _ e.head hmask, decodeFormat, hlow, hsecond, e.head]
  rfl

/-- The low byte of a signed displacement. -/
theorem byte_of_displacement {d : Int} :
    (BitVec.ofInt 16 d).setWidth 8 = BitVec.ofInt 8 d := by
  apply BitVec.eq_of_toNat_eq
  simp only [BitVec.toNat_setWidth, BitVec.toNat_ofInt]
  omega

theorem toInt_of_displacement {d : Int} (hlo : -128 ≤ d) (hhi : d ≤ 127) :
    (BitVec.ofInt 8 d).toInt = d := by
  rw [BitVec.toInt_ofInt]
  exact Int.bmod_eq_of_le (by omega) (by omega)

theorem decode_cru {a : String} (e : Emitted symbols lineNo readWord pc op .cru base [a] ws) :
    DecodesTo symbols lineNo readWord pc op [.disp] [a] ws := by
  obtain ⟨d, hd, h⟩ := bind_eq_ok.mp e.words
  obtain rfl := pure_eq_ok.mp h
  obtain ⟨hd, hlo, hhi⟩ := requireImmRange_what hd ""
  obtain ⟨hmask, hlow⟩ := low8_and_mask base (BitVec.ofInt 16 d)
  rw [show base &&& 0xff00 = base from e.mask] at hmask hlow
  refine ⟨[.immDisp (BitVec.ofInt 8 d)], readOperands_one (bind_eq_ok.mpr ⟨d, hd, rfl⟩), ?_⟩
  rw [e.decoded _ e.head hmask, decodeFormat, hlow, byte_of_displacement, e.head]
  rfl

theorem decode_jump {a : String} (e : Emitted symbols lineNo readWord pc op .jump base [a] ws) :
    DecodesTo symbols lineNo readWord pc op [.label] [a] ws := by
  obtain ⟨dest, hdest, h⟩ := bind_eq_ok.mp e.words
  obtain ⟨heven, h⟩ := error_ite_eq_ok.mp h
  obtain ⟨hrange, h⟩ := error_ite_eq_ok.mp h
  have hws := pure_eq_ok.mp h
  simp only [Bool.not_false, true_and, Bool.false_eq_true, if_false, not_not] at heven hrange hws
  subst hws
  have hsplit := Int.tmod_add_mul_tdiv ((dest.toNat : Int) - (pc.toNat + 2)) 2
  generalize hq : ((dest.toNat : Int) - (pc.toNat + 2)).tdiv 2 = q at *
  obtain ⟨hmask, hlow⟩ := low8_and_mask base (BitVec.ofInt 16 q)
  rw [show base &&& 0xff00 = base from e.mask] at hmask hlow
  have htarget : jumpTarget pc (base ||| BitVec.ofInt 16 q &&& 0xff) = dest := by
    rw [jumpTarget, hlow, byte_of_displacement, toInt_of_displacement (by omega) (by omega),
      show (pc.toNat + 2 : Int) + q * 2 = (dest.toNat : Int) by omega, BitVec.ofInt_natCast,
      BitVec.ofNat_toNat, BitVec.setWidth_eq]
  refine ⟨[.jumpTarget dest], readOperands_one (bind_eq_ok.mpr ⟨dest, hdest, rfl⟩), ?_⟩
  rw [e.decoded _ e.head hmask, decodeFormat, htarget, e.head]
  rfl

/-- The four bits of a count. -/
theorem byte_of_count {n : Int} (hlo : 0 ≤ n) (hhi : n ≤ 15) :
    (BitVec.ofInt 16 n &&& 0xf).setWidth 8 = BitVec.ofInt 8 n := by
  have hall : ∀ n : Fin 16, (BitVec.ofInt 16 (n.val : Int) &&& 0xf).setWidth 8 =
      BitVec.ofInt 8 (n.val : Int) := by
    decide
  have h := hall ⟨n.toNat, by omega⟩
  rwa [show ((n.toNat : Nat) : Int) = n by omega] at h

theorem decode_shift {a a' : String}
    (e : Emitted symbols lineNo readWord pc op .shift base [a, a'] ws) :
    DecodesTo symbols lineNo readWord pc op [.reg, .count] [a, a'] ws := by
  obtain ⟨r, hr, h⟩ := bind_eq_ok.mp e.words
  obtain ⟨n, hn, h⟩ := bind_eq_ok.mp h
  obtain rfl := pure_eq_ok.mp h
  have hreg := requireReg_eq hr
  obtain ⟨hn, hlo, hhi⟩ := requireImmRange_what hn ""
  obtain ⟨hmask, hlow, hcount⟩ := shift_and_mask base (BitVec.ofInt 16 n) r
  rw [show base &&& 0xff00 = base from e.mask] at hmask hlow hcount
  replace hlow := hlow.trans (parseReg_fits hreg).1
  have hbyte := byte_of_count hlo hhi
  refine ⟨[.reg r, .immCount (BitVec.ofInt 8 n)],
    readOperands_two (bind_eq_ok.mpr ⟨r, requireReg_of hreg _, rfl⟩)
      (bind_eq_ok.mpr ⟨n, hn, rfl⟩), ?_⟩
  rw [e.decoded (shiftWord base (BitVec.ofInt 16 n) r) e.head hmask, decodeFormat, hlow, hcount,
    hbyte, e.head]
  rfl

/-- The source operand of a word with one general address. -/
theorem withField_eq {a : GeneralAddr} (ha : Readable a) {w : Word} (more : List Word)
    (hhead : w &&& 0x3f = sixBits a.mode a.reg)
    (hholds : Holds readWord pc (w :: (extras a ++ more))) (mnemonic : String)
    (rest : List DecodedOp) :
    DisAssembler.Tms9995.withField readWord mnemonic w pc rest =
      ⟨mnemonic, generalOp a :: rest, 1 + (extras a).length, w⟩ := by
  have hfield : decodeField6 readWord (sixBits a.mode a.reg) pc 1 =
      (generalOp a, (extras a).length) := by
    refine decodeField6_eq ha ?_
    intro v hv
    exact hholds 1 v (by simp [extras, hv])
  rw [DisAssembler.Tms9995.withField, hhead, hfield]

/-- The word of an operation with a general operand and a number or register, decoded. -/
theorem decode_withField {src : GeneralAddr} {n : Word} {rest : List DecodedOp}
    (hsrc : Readable src)
    (hdecode : decodeTms9995 readWord pc = DisAssembler.Tms9995.withField readWord op
      (fieldWord base n src.mode src.reg) pc rest)
    (hbase : base &&& 0xfc00 = base)
    (hholds : Holds readWord pc (AsmRs.Tms9995.withField base n src)) :
    decodeTms9995 readWord pc = ⟨op, generalOp src :: rest,
      (AsmRs.Tms9995.withField base n src).length, readWord pc⟩ := by
  have hsix := (field_and_mask base n src.mode src.reg).2.1
  rw [hbase] at hsix
  have hholds' : Holds readWord pc (fieldWord base n src.mode src.reg :: (extras src ++ [])) := by
    rw [List.append_nil]
    exact hholds
  rw [hdecode, withField_eq hsrc [] hsix hholds', hholds.head, AsmRs.Tms9995.withField,
    List.length_cons, Nat.add_comm]
  rfl

theorem decode_single {a : String}
    (e : Emitted symbols lineNo readWord pc op .single base [a] ws) :
    DecodesTo symbols lineNo readWord pc op [.general] [a] ws := by
  obtain ⟨src, hsrc, h⟩ := bind_eq_ok.mp e.words
  obtain rfl := pure_eq_ok.mp h
  obtain ⟨hmask, hsix⟩ := single_and_mask base src.mode src.reg
  rw [show base &&& 0xffc0 = base from e.mask] at hmask hsix
  refine ⟨[generalOp src], readOperands_one (bind_eq_ok.mpr ⟨src, hsrc, rfl⟩), ?_⟩
  have hholds : Holds readWord pc ((base ||| sixBits src.mode src.reg) :: (extras src ++ [])) := by
    rw [List.append_nil]
    exact e.holds
  rw [e.decoded (base ||| sixBits src.mode src.reg) e.head hmask, decodeFormat,
    withField_eq (parseGeneralAddr_readable hsrc) [] hsix hholds, e.head, List.length_cons,
    Nat.add_comm]
  rfl

/-- The opcode and the number of a word with such a field. -/
theorem field_of_mask (hbase : base &&& 0xfc00 = base) (n : Word) (src : GeneralAddr) :
    fieldWord base n src.mode src.reg &&& 0xfc00 = base ∧
      field4 (fieldWord base n src.mode src.reg) = n &&& 0xf := by
  obtain ⟨hmask, _, hfield⟩ := field_and_mask base n src.mode src.reg
  rw [hbase] at hmask hfield
  exact ⟨hmask, hfield⟩

theorem decode_logical {a a' : String}
    (e : Emitted symbols lineNo readWord pc op .logical base [a, a'] ws) :
    DecodesTo symbols lineNo readWord pc op [.general, .reg] [a, a'] ws := by
  obtain ⟨r, hr, h⟩ := bind_eq_ok.mp e.words
  obtain ⟨src, hsrc, h⟩ := bind_eq_ok.mp h
  obtain rfl := pure_eq_ok.mp h
  have hreg := requireReg_eq hr
  obtain ⟨hmask, hfield⟩ := field_of_mask e.mask r src
  refine ⟨[generalOp src, .reg r], readOperands_two (bind_eq_ok.mpr ⟨src, hsrc, rfl⟩)
    (bind_eq_ok.mpr ⟨r, requireReg_of hreg _, rfl⟩), ?_⟩
  refine decode_withField (parseGeneralAddr_readable hsrc) ?_ e.mask e.holds
  rw [e.decoded (fieldWord base r src.mode src.reg) e.head hmask, decodeFormat, hfield,
    (parseReg_fits hreg).1]

/-- The field of a bit count. -/
def bitsField (n : Int) : Word := if n = 16 ∨ n = 0 then 0 else BitVec.ofInt 16 n

/-- A bit count of 0 is one of 16. -/
theorem bits_of_field {n : Int} (hlo : 0 ≤ n) (hhi : n ≤ 16) :
    (if bitsField n &&& 0xf = 0 then 16 else (bitsField n &&& 0xf).setWidth 8 : BitVec 8) =
      if n = 0 then 16 else BitVec.ofInt 8 n := by
  have hall : ∀ k : Fin 17,
      (if bitsField k.val &&& 0xf = 0 then 16
        else (bitsField k.val &&& 0xf).setWidth 8 : BitVec 8) =
      if (k.val : Int) = 0 then 16 else BitVec.ofInt 8 (k.val : Int) := by
    decide
  obtain ⟨k, rfl⟩ : ∃ k : Fin 17, (k.val : Int) = n := ⟨⟨n.toNat, by omega⟩, by simp [hlo]⟩
  exact hall k

theorem decode_transfer {a a' : String}
    (e : Emitted symbols lineNo readWord pc op .transfer base [a, a'] ws) :
    DecodesTo symbols lineNo readWord pc op [.general, .bits] [a, a'] ws := by
  obtain ⟨n, hn, h⟩ := bind_eq_ok.mp e.words
  obtain ⟨_, h⟩ := error_ite_eq_ok.mp h
  obtain ⟨src, hsrc, h⟩ := bind_eq_ok.mp h
  obtain rfl : AsmRs.Tms9995.withField base (bitsField n) src = ws := pure_eq_ok.mp h
  obtain ⟨hn, hlo, hhi⟩ := requireImmRange_what hn ""
  obtain ⟨hmask, hfield⟩ := field_of_mask e.mask (bitsField n) src
  refine ⟨[generalOp src, .immCount (if n = 0 then 16 else BitVec.ofInt 8 n)],
    readOperands_two (bind_eq_ok.mpr ⟨src, hsrc, rfl⟩) (bind_eq_ok.mpr ⟨n, hn, rfl⟩), ?_⟩
  refine decode_withField (parseGeneralAddr_readable hsrc) ?_ e.mask e.holds
  rw [e.decoded (fieldWord base (bitsField n) src.mode src.reg) e.head hmask, decodeFormat,
    bitCount, hfield, bits_of_field hlo hhi]

theorem decode_extended {a a' : String}
    (e : Emitted symbols lineNo readWord pc op .extended base [a, a'] ws) :
    DecodesTo symbols lineNo readWord pc op (kinds op .extended) [a, a'] ws := by
  obtain ⟨src, hsrc, h⟩ := bind_eq_ok.mp e.words
  by_cases hxop : op = "XOP"
  · rw [if_pos hxop] at h
    obtain ⟨n, hn, h⟩ := bind_eq_ok.mp h
    obtain rfl := pure_eq_ok.mp h
    obtain ⟨hn, hlo, hhi⟩ := requireImmRange_what hn ""
    obtain ⟨hmask, hfield⟩ := field_of_mask e.mask (BitVec.ofInt 16 n) src
    rw [kinds, if_pos hxop]
    refine ⟨[generalOp src, .xopNum (BitVec.ofInt 8 n)],
      readOperands_two (bind_eq_ok.mpr ⟨src, hsrc, rfl⟩) (bind_eq_ok.mpr ⟨n, hn, rfl⟩), ?_⟩
    refine decode_withField (parseGeneralAddr_readable hsrc) ?_ e.mask e.holds
    rw [e.decoded (fieldWord base (BitVec.ofInt 16 n) src.mode src.reg) e.head hmask, decodeFormat,
      if_pos hxop, hfield, byte_of_count hlo hhi]
  · rw [if_neg hxop] at h
    obtain ⟨r, hr, h⟩ := bind_eq_ok.mp h
    obtain rfl := pure_eq_ok.mp h
    have hreg := requireReg_eq hr
    obtain ⟨hmask, hfield⟩ := field_of_mask e.mask r src
    rw [kinds, if_neg hxop]
    refine ⟨[generalOp src, .reg r], readOperands_two (bind_eq_ok.mpr ⟨src, hsrc, rfl⟩)
      (bind_eq_ok.mpr ⟨r, requireReg_of hreg _, rfl⟩), ?_⟩
    refine decode_withField (parseGeneralAddr_readable hsrc) ?_ e.mask e.holds
    rw [e.decoded (fieldWord base r src.mode src.reg) e.head hmask, decodeFormat, if_neg hxop,
      hfield, (parseReg_fits hreg).1]

theorem decode_dual {a a' : String}
    (e : Emitted symbols lineNo readWord pc op .dual base [a, a'] ws) :
    DecodesTo symbols lineNo readWord pc op [.general, .general] [a, a'] ws := by
  obtain ⟨src, hsrc, h⟩ := bind_eq_ok.mp e.words
  obtain ⟨dst, hdst, h⟩ := bind_eq_ok.mp h
  obtain rfl := pure_eq_ok.mp h
  obtain ⟨hmask, hlow, hhigh⟩ := dual_and_mask base src.mode src.reg dst.mode dst.reg
  rw [show base &&& 0xf000 = base from e.mask] at hmask hlow hhigh
  have hfirst : decodeField6 readWord (sixBits src.mode src.reg) pc 1 =
      (generalOp src, (extras src).length) := by
    refine decodeField6_eq (parseGeneralAddr_readable hsrc) ?_
    intro v hv
    exact e.holds 1 v (by simp [extras, hv])
  have hsecond : decodeField6 readWord (sixBits dst.mode dst.reg) pc (1 + (extras src).length) =
      (generalOp dst, (extras dst).length) := by
    refine decodeField6_eq (parseGeneralAddr_readable hdst) ?_
    intro v hv
    refine e.holds _ v ?_
    rw [Nat.add_comm, List.getElem?_cons_succ, List.getElem?_append_right (Nat.le_refl _)]
    simp [extras, hv]
  refine ⟨[generalOp src, generalOp dst],
    readOperands_two (bind_eq_ok.mpr ⟨src, hsrc, rfl⟩) (bind_eq_ok.mpr ⟨dst, hdst, rfl⟩), ?_⟩
  rw [e.decoded (dualWord base src.mode src.reg dst.mode dst.reg) e.head hmask, decodeFormat,
    decodeFmt1, hlow, hhigh, hfirst]
  simp only [hsecond]
  have hlength : 1 + (extras src).length + (extras dst).length =
      (dualWord base src.mode src.reg dst.mode dst.reg :: (extras src ++ extras dst)).length := by
    simp only [List.length_cons, List.length_append]
    omega
  rw [hlength, e.head]
  rfl

/-- Whatever an operation and its operands are encoded as is decoded as them. -/
theorem decode_encodeFormat (e : Emitted symbols lineNo readWord pc op format base args ws)
    (hargs : args.length = format.operands) :
    DecodesTo symbols lineNo readWord pc op (kinds op format) args ws := by
  cases format with
  | fixed =>
      obtain rfl := List.eq_nil_of_length_eq_zero hargs
      exact decode_fixed e
  | immediate =>
      obtain ⟨a, rfl⟩ := List.length_eq_one_iff.mp hargs
      exact decode_immediate e
  | register =>
      obtain ⟨a, rfl⟩ := List.length_eq_one_iff.mp hargs
      exact decode_register e
  | registerImmediate =>
      obtain ⟨a, a', rfl⟩ := List.length_eq_two.mp hargs
      exact decode_registerImmediate e
  | cru =>
      obtain ⟨a, rfl⟩ := List.length_eq_one_iff.mp hargs
      exact decode_cru e
  | jump =>
      obtain ⟨a, rfl⟩ := List.length_eq_one_iff.mp hargs
      exact decode_jump e
  | shift =>
      obtain ⟨a, a', rfl⟩ := List.length_eq_two.mp hargs
      exact decode_shift e
  | logical =>
      obtain ⟨a, a', rfl⟩ := List.length_eq_two.mp hargs
      exact decode_logical e
  | transfer =>
      obtain ⟨a, a', rfl⟩ := List.length_eq_two.mp hargs
      exact decode_transfer e
  | extended =>
      obtain ⟨a, a', rfl⟩ := List.length_eq_two.mp hargs
      exact decode_extended e
  | single =>
      obtain ⟨a, rfl⟩ := List.length_eq_one_iff.mp hargs
      exact decode_single e
  | dual =>
      obtain ⟨a, a', rfl⟩ := List.length_eq_two.mp hargs
      exact decode_dual e

end Formats

section Lines

variable {symbols : SymbolTable} {lineNo : Nat} {readWord : Word → Word} {pc : Word}

/-- The operands of an operation of the tables. -/
def operationMeaning (symbols : SymbolTable) (line : AsmTs.ParsedLine) (op : String) :
    Except Failure (String × List DecodedOp) :=
  match opFormat op with
  | none => .error .panic
  | some (format, _) => do
      return (op, ← readOperands symbols line.lineNo (kinds op format) (line.args.map AsmRs.trim))

/-- The operation and the operands of a line; RT and NOP stand for others. -/
def lineMeaning (symbols : SymbolTable) (pc : Word) (line : AsmTs.ParsedLine) :
    Except Failure (String × List DecodedOp) :=
  match AsmRs.operation line with
  | none => .error .panic
  | some op =>
      if op = "RT" then .ok ("B", [.indirect 11])
      else if op = "NOP" then .ok ("JMP", [.jumpTarget (pc + 2)])
      else operationMeaning symbols line op

/-- NOP is a jump to the next instruction. -/
theorem decode_nop (heven : pc.toNat % 2 = 0) (hmem : Holds readWord pc [0x1000]) :
    decodeTms9995 readWord pc = ⟨"JMP", [.jumpTarget (pc + 2)], 1, readWord pc⟩ := by
  have hformat : opFormat "JMP" = some (.jump, 0x1000) := by
    decide
  have htarget : jumpTarget pc 0x1000 = pc + 2 := by
    have hzero : ((0x1000 : Word).setWidth 8).toInt = 0 := by
      decide
    have htwo : (2 : Word).toNat = 2 := rfl
    apply BitVec.eq_of_toNat_eq
    rw [jumpTarget, hzero, BitVec.toNat_ofInt, BitVec.toNat_add, htwo]
    omega
  rw [decode_of_opFormat hformat heven (by rw [hmem.head]; decide), hmem.head, decodeFormat,
    htarget]

/-- An operation of the tables. -/
theorem decode_encodeOperation {op opRaw : String} {args : List String} {ws : List Word}
    (heven : pc.toNat % 2 = 0) (hmem : Holds readWord pc ws)
    (h : encodeOperation op args lineNo symbols false opRaw pc = .ok ws) :
    ∃ format base, opFormat op = some (format, base) ∧
      DecodesTo symbols lineNo readWord pc op (kinds op format) args ws := by
  unfold encodeOperation at h
  split at h
  · cases h
  · next format base hformat =>
      obtain ⟨hcount, h⟩ := error_ite_eq_ok.mp h
      exact ⟨format, base, hformat,
        decode_encodeFormat (emitted hformat heven hmem h) (not_not.mp hcount)⟩

/-- RT is a branch through R11. -/
theorem decode_return {opRaw : String} {ws : List Word} (heven : pc.toNat % 2 = 0)
    (hmem : Holds readWord pc ws)
    (h : encodeOperation "B" ["(R11)"] lineNo symbols false opRaw pc = .ok ws) :
    decodeTms9995 readWord pc = ⟨"B", [.indirect 11], ws.length, readWord pc⟩ := by
  obtain ⟨format, base, hformat, ops, hops, hdecode⟩ := decode_encodeOperation heven hmem h
  have hbranch : opFormat "B" = some (.single, 0x440) := by
    decide
  obtain ⟨rfl, rfl⟩ := Prod.mk.inj (Option.some.inj (hbranch.symm.trans hformat))
  have hread : parseGeneralAddr symbols false lineNo "(R11)" = .ok ⟨1, 11, none⟩ :=
    read_indirect 11
  have hoperands : readOperands symbols lineNo [.general] ["(R11)"] = .ok [.indirect 11] :=
    readOperands_one (bind_eq_ok.mpr ⟨_, hread, rfl⟩)
  obtain rfl := Except.ok.inj (hoperands.symm.trans hops)
  exact hdecode

/-- What the assembler emits for a line is decoded as its operation with its operands. -/
theorem decode_encodeInstruction {line : AsmTs.ParsedLine} {ws : List Word}
    (heven : pc.toNat % 2 = 0) (hop : line.op ≠ none)
    (h : encodeInstruction line pc symbols false = .ok ws) (hmem : Holds readWord pc ws) :
    ∃ op ops, lineMeaning symbols pc line = .ok (op, ops) ∧
      decodeTms9995 readWord pc = ⟨op, ops, ws.length, readWord pc⟩ := by
  obtain ⟨opRaw, hraw⟩ := Option.ne_none_iff_exists'.mp hop
  have hoperation : AsmRs.operation line = some (AsmRs.toAsciiUppercase opRaw) := by
    rw [AsmRs.operation, hraw]
    rfl
  unfold encodeInstruction at h
  rw [hraw] at h
  dsimp only at h
  by_cases hrt : AsmRs.toAsciiUppercase opRaw = "RT"
  · rw [if_pos hrt] at h
    obtain ⟨_, h⟩ := error_ite_eq_ok.mp h
    refine ⟨_, _, ?_, decode_return heven hmem h⟩
    rw [lineMeaning, hoperation]
    exact if_pos hrt
  · rw [if_neg hrt] at h
    by_cases hnop : AsmRs.toAsciiUppercase opRaw = "NOP"
    · rw [if_pos hnop] at h
      obtain ⟨_, h⟩ := error_ite_eq_ok.mp h
      obtain rfl := Except.ok.inj h
      refine ⟨_, _, ?_, decode_nop heven hmem⟩
      rw [lineMeaning, hoperation]
      exact (if_neg hrt).trans (if_pos hnop)
    · rw [if_neg hnop] at h
      obtain ⟨format, base, hformat, ops, hops, hdecode⟩ := decode_encodeOperation heven hmem h
      refine ⟨_, ops, ?_, hdecode⟩
      rw [lineMeaning, hoperation]
      refine (if_neg hrt).trans ((if_neg hnop).trans ?_)
      rw [operationMeaning, hformat]
      exact bind_eq_ok.mpr ⟨ops, hops, rfl⟩

end Lines

end Tms9995
end RetroCpu
