import RetroCpu.AsmTs.Mn1613Encoder
import RetroCpu.Mn1613.DecodeLength
import RetroCpu.Mn1613.View
import Mathlib.Tactic.IntervalCases

/-!
# The memory-reference group: assembler against emulator

`L`, `ST`, `B`, `BAL`, `IMS` and `DMS` share one word format `1 b MMM RRR dddddddd`.  The
assembler tells IMS and DMS from L and ST by `RRR = 6`, the emulator by `MMM = 7`.
-/

namespace RetroCpu
namespace Mn1613

open Js Prog
open EmuTs.Mn1613 (CPURegister Cpu Board)
open AsmTs (ParsedLine SymbolTable)
open AsmTs.Mn1613 (EAMode encodeMem parseEA parseReg eaString encodeInstruction lineMnemonic)

section Word

variable {bit1 mmm rrr d8 : Int}

/-- The fields of a memory-reference word. -/
theorem encodeMem_eq (hb : 0 ≤ bit1 ∧ bit1 ≤ 1) (hm : 0 ≤ mmm ∧ mmm ≤ 7) (hr : 0 ≤ rrr ∧ rrr ≤ 7)
    (hd : 0 ≤ d8 ∧ d8 ≤ 0xff) :
    encodeMem bit1 mmm rrr d8 = 32768 + bit1 * 16384 + mmm * 2048 + rrr * 256 + d8 := by
  have hb' : land bit1 1 = bit1 := by
    rw [show (1 : Int) = ((2 ^ 1 - 1 : Nat) : Int) from rfl, land_mask _ (by decide)]
    omega
  have hm' : land mmm 0x7 = mmm := by
    rw [show (0x7 : Int) = ((2 ^ 3 - 1 : Nat) : Int) from rfl, land_mask _ (by decide)]
    omega
  have hr' : land rrr 0x7 = rrr := by
    rw [show (0x7 : Int) = ((2 ^ 3 - 1 : Nat) : Int) from rfl, land_mask _ (by decide)]
    omega
  have hd' : land d8 0xff = d8 := by
    rw [land_ff]
    omega
  have h1 : shl (1 : Int) 15 = 32768 := shl_mul 15 (by omega) (by omega) (by omega)
  have h2 : shl bit1 14 = bit1 * 16384 := shl_mul 14 (by omega) (by omega) (by omega)
  have h3 : shl mmm 11 = mmm * 2048 := shl_mul 11 (by omega) (by omega) (by omega)
  have h4 : shl rrr 8 = rrr * 256 := shl_mul 8 (by omega) (by omega) (by omega)
  have h5 : lor 32768 (bit1 * 16384) = 32768 + bit1 * 16384 :=
    lor_add 15 (by omega) (by omega) (by omega) (by omega) (by omega) (by omega)
  have h6 : lor (32768 + bit1 * 16384) (mmm * 2048) = 32768 + bit1 * 16384 + mmm * 2048 :=
    lor_add 14 (by omega) (by omega) (by omega) (by omega) (by omega) (by omega)
  have h7 : lor (32768 + bit1 * 16384 + mmm * 2048) (rrr * 256) =
      32768 + bit1 * 16384 + mmm * 2048 + rrr * 256 :=
    lor_add 11 (by omega) (by omega) (by omega) (by omega) (by omega) (by omega)
  rw [encodeMem, hb', hm', hr', hd', h1, h2, h3, h4, h5, h6, h7]
  exact lor_add 8 (by omega) (by omega) (by omega) (by omega) (by omega) (by omega)

/-- The decoder reads the fields back. -/
theorem decode_encodeMem (hb : 0 ≤ bit1 ∧ bit1 ≤ 1) (hm : 0 ≤ mmm ∧ mmm ≤ 7)
    (hr : 0 ≤ rrr ∧ rrr ≤ 7) (hd : 0 ≤ d8 ∧ d8 ≤ 0xff) :
    land (ushr (encodeMem bit1 mmm rrr d8) 11) 0x1f = 16 + bit1 * 8 + mmm ∧
      land (ushr (encodeMem bit1 mmm rrr d8) 8) 0x7 = rrr ∧
      land (encodeMem bit1 mmm rrr d8) 0xff = d8 := by
  rw [encodeMem_eq hb hm hr hd]
  refine ⟨?_, ?_, ?_⟩
  · rw [ushr_div 11 (by omega) (by omega) (by omega),
      show (0x1f : Int) = ((2 ^ 5 - 1 : Nat) : Int) from rfl, land_mask _ (by decide)]
    omega
  · rw [ushr_div 8 (by omega) (by omega) (by omega),
      show (0x7 : Int) = ((2 ^ 3 - 1 : Nat) : Int) from rfl, land_mask _ (by decide)]
    omega
  · rw [land_ff]
    omega

end Word

section Ranges

open AsmTs.Mn1613 Checked

theorem land_ff_range (x : Int) : 0 ≤ land x 0xff ∧ land x 0xff ≤ 0xff := by
  rw [land_ff]
  omega

theorem u8_range {v : Number} {what : String} {d : Int} (h : u8 v what = .ok d) :
    0 ≤ d ∧ d ≤ 0xff := by
  rw [u8, error_ite_eq_ok] at h
  obtain rfl := Except.ok.inj h.2
  exact land_ff_range _

theorem s8_range {v : Number} {what : String} {d : Int} (h : s8 v what = .ok d) :
    0 ≤ d ∧ d ≤ 0xff := by
  rw [s8, error_ite_eq_ok] at h
  obtain rfl := Except.ok.inj h.2
  exact land_ff_range _

/-- A number found in a table stands in it. -/
theorem parseName_mem {map : List (String × Int)} {key message : String} {v : Int}
    (h : parseName map key message = .ok v) : (key, v) ∈ map := by
  unfold parseName at h
  split at h
  next v' hlookup =>
    obtain rfl := Except.ok.inj h
    exact mem_of_lookup hlookup
  next => cases h

/-- A mode and a displacement that fit their fields. -/
def EAFits (mode : EAMode) : Prop := (0 ≤ mode.mmm ∧ mode.mmm ≤ 7) ∧ 0 ≤ mode.d8 ∧ mode.d8 ≤ 0xff

variable {symbols : SymbolTable} {allowUndefined : Bool} {mode : EAMode}

theorem zeroPageMode_fits {d : String} {mmm : Int} (hm : 0 ≤ mmm ∧ mmm ≤ 7)
    (h : zeroPageMode symbols allowUndefined d mmm = .ok mode) : EAFits mode := by
  obtain ⟨v, _, h⟩ := bind_eq_ok.mp h
  obtain ⟨d8, hd, h⟩ := bind_eq_ok.mp h
  obtain rfl := pure_eq_ok.mp h
  exact ⟨hm, u8_range hd⟩

theorem relativeMode_fits {label : String} {pcWord mmm : Int} (hm : 0 ≤ mmm ∧ mmm ≤ 7)
    (h : relativeMode symbols allowUndefined label pcWord mmm = .ok mode) : EAFits mode := by
  obtain ⟨v, _, h⟩ := bind_eq_ok.mp h
  obtain ⟨d8, hd, h⟩ := bind_eq_ok.mp h
  obtain rfl := pure_eq_ok.mp h
  exact ⟨hm, s8_range hd⟩

theorem indexedMode_fits {t d name : String} {x0 x1 : Int} (h0 : 0 ≤ x0 ∧ x0 ≤ 7)
    (h1 : 0 ≤ x1 ∧ x1 ≤ 7) (h : indexedMode symbols allowUndefined t d name x0 x1 = .ok mode) :
    EAFits mode := by
  rw [indexedMode] at h
  by_cases hidx : toUpperCase name ≠ "X0" ∧ toUpperCase name ≠ "X1"
  · rw [if_pos hidx] at h
    obtain ⟨_, hthrow, _⟩ := bind_eq_ok.mp h
    cases throw_ne_ok hthrow
  · rw [if_neg hidx] at h
    obtain ⟨v, _, h⟩ := bind_eq_ok.mp h
    obtain ⟨d8, hd, h⟩ := bind_eq_ok.mp h
    obtain rfl := pure_eq_ok.mp h
    constructor
    · change 0 ≤ (if _ then x0 else x1) ∧ (if _ then x0 else x1) ≤ 7
      split
      · exact h0
      · exact h1
    · exact u8_range hd

theorem parseEAPlain_fits {t : String} {pcWord : Int}
    (h : parseEAPlain symbols allowUndefined t pcWord = .ok mode) : EAFits mode := by
  unfold parseEAPlain at h
  split at h
  · exact zeroPageMode_fits (by decide) h
  · split at h
    · exact zeroPageMode_fits (by decide) h
    · split at h
      · exact relativeMode_fits (by decide) h
      · split at h
        · exact relativeMode_fits (by decide) h
        · split at h
          · exact zeroPageMode_fits (by decide) h
          · exact relativeMode_fits (by decide) h

theorem parseEA_fits {arg : String} {pcWord : Int}
    (h : parseEA symbols allowUndefined arg pcWord = .ok mode) : EAFits mode := by
  unfold parseEA at h
  simp only at h
  split at h
  · exact indexedMode_fits (by decide) (by decide) h
  · split at h
    · exact indexedMode_fits (by decide) (by decide) h
    · split at h
      · exact indexedMode_fits (by decide) (by decide) h
      · split at h
        · split at h
          · exact indexedMode_fits (by decide) (by decide) h
          · exact parseEAPlain_fits h
        · exact parseEAPlain_fits h

/-- The registers that do not include `STR` are numbered up to 5. -/
theorem parseReg_range {token : String} {r : Int} (h : parseReg token false = .ok r) :
    0 ≤ r ∧ r ≤ 5 := by
  rw [parseReg] at h
  obtain ⟨reg, hname, h⟩ := bind_eq_ok.mp h
  by_cases hreg : reg = 6
  · rw [if_pos (by simp [hreg])] at h
    obtain ⟨_, hthrow, _⟩ := bind_eq_ok.mp h
    cases throw_ne_ok hthrow
  · rw [if_neg (by simp [hreg])] at h
    obtain rfl := pure_eq_ok.mp h
    have hmem := parseName_mem hname
    simp only [REG_MAP, List.mem_cons, Prod.mk.injEq, List.not_mem_nil, or_false] at hmem
    omega

end Ranges

/-- The operations of the group. -/
inductive MemoryOp where
  | L
  | ST
  | B
  | BAL
  | IMS
  | DMS
deriving DecidableEq, Repr

namespace MemoryOp

def mnemonic : MemoryOp → Mnemonic
  | L => .L
  | ST => .ST
  | B => .B
  | BAL => .BAL
  | IMS => .IMS
  | DMS => .DMS

/-- The operations that name a register. -/
def takesRegister : MemoryOp → Bool
  | L | ST => true
  | _ => false

/-- The place of the address among the operands. -/
def addressArg (op : MemoryOp) : Nat := if op.takesRegister then 1 else 0

/-- The bit `b` of the word. -/
def bit1 : MemoryOp → Int
  | L | B | IMS => 1
  | ST | BAL | DMS => 0

/-- The RRR field: the register of L and ST, 7 for the jumps and 6 for IMS and DMS. -/
def field (r : Int) : MemoryOp → Int
  | L | ST => r
  | B | BAL => 7
  | IMS | DMS => 6

/-- The word of an operation. -/
def word (op : MemoryOp) (r : Int) (mode : EAMode) : Int :=
  encodeMem op.bit1 mode.mmm (op.field r) mode.d8

theorem bit1_range (op : MemoryOp) : 0 ≤ op.bit1 ∧ op.bit1 ≤ 1 := by
  cases op <;> decide

theorem field_range (op : MemoryOp) {r : Int} (hr : 0 ≤ r ∧ r ≤ 5) :
    0 ≤ op.field r ∧ op.field r ≤ 7 := by
  cases op with
  | L | ST => exact ⟨hr.1, hr.2.trans (by decide)⟩
  | B | BAL | IMS | DMS => exact ⟨by simp [field], by simp [field]⟩

end MemoryOp

/-- The operands of a line: a register `R0`..`R4` or `SP` for L and ST, and an address. -/
structure MemoryOperands (op : MemoryOp) (line : ParsedLine) (pcWord : Int)
    (symbols : SymbolTable) (allowUndefined : Bool) (r : Int) (mode : EAMode) : Prop where
  register : op.takesRegister = true → parseReg (line.arg 0) false = .ok r
  address : parseEA symbols allowUndefined (eaString line op.addressArg) pcWord = .ok mode

section Encoding

open AsmTs.Mn1613 Checked

variable {op : MemoryOp} {line : ParsedLine} {pcWord : Int} {symbols : SymbolTable}
  {allowUndefined : Bool} {ws : List Int}

theorem encodeLoadStore_ok {bit1 : Int}
    (h : encodeLoadStore line pcWord symbols allowUndefined bit1 = .ok ws) :
    ∃ r mode, parseReg (line.arg 0) false = .ok r ∧
      parseEA symbols allowUndefined (eaString line 1) pcWord = .ok mode ∧
      ws = [encodeMem bit1 mode.mmm r mode.d8] := by
  obtain ⟨_, _, h⟩ := bind_eq_ok.mp h
  obtain ⟨r, hr, h⟩ := bind_eq_ok.mp h
  obtain ⟨mode, hmode, h⟩ := bind_eq_ok.mp h
  exact ⟨r, mode, hr, hmode, (pure_eq_ok.mp h).symm⟩

theorem encodeMemoryOnly_ok {bit1 rrr : Int}
    (h : encodeMemoryOnly line pcWord symbols allowUndefined bit1 rrr = .ok ws) :
    ∃ mode, parseEA symbols allowUndefined (eaString line 0) pcWord = .ok mode ∧
      ws = [encodeMem bit1 mode.mmm rrr mode.d8] := by
  obtain ⟨_, _, h⟩ := bind_eq_ok.mp h
  obtain ⟨mode, hmode, h⟩ := bind_eq_ok.mp h
  exact ⟨mode, hmode, (pure_eq_ok.mp h).symm⟩

/-- An accepted line of the group gives one word, made of its operands. -/
theorem encode_memory_line (hop : lineMnemonic line = some op.mnemonic)
    (h : encodeInstruction line pcWord symbols allowUndefined = .ok ws) :
    ∃ r mode, MemoryOperands op line pcWord symbols allowUndefined r mode ∧
      (0 ≤ r ∧ r ≤ 5) ∧ EAFits mode ∧ ws = [op.word r mode] := by
  have henc : encodeMnemonic op.mnemonic line pcWord symbols allowUndefined = .ok ws := by
    unfold encodeInstruction at h
    split at h
    · cases h
    · cases h
    · rwa [hop] at h
  have transfer (hreg : op.takesRegister = true) (hfield : ∀ r, op.field r = r)
      (h : encodeLoadStore line pcWord symbols allowUndefined op.bit1 = .ok ws) :
      ∃ r mode, MemoryOperands op line pcWord symbols allowUndefined r mode ∧
        (0 ≤ r ∧ r ≤ 5) ∧ EAFits mode ∧ ws = [op.word r mode] := by
    obtain ⟨r, mode, hr, hmode, rfl⟩ := encodeLoadStore_ok h
    refine ⟨r, mode, ⟨fun _ => hr, ?_⟩, parseReg_range hr, parseEA_fits hmode, ?_⟩
    · rw [MemoryOp.addressArg, if_pos hreg]
      exact hmode
    · rw [MemoryOp.word, hfield]
  have only (hreg : ¬ op.takesRegister = true) {rrr : Int} (hfield : op.field 0 = rrr)
      (h : encodeMemoryOnly line pcWord symbols allowUndefined op.bit1 rrr = .ok ws) :
      ∃ r mode, MemoryOperands op line pcWord symbols allowUndefined r mode ∧
        (0 ≤ r ∧ r ≤ 5) ∧ EAFits mode ∧ ws = [op.word r mode] := by
    obtain ⟨mode, hmode, rfl⟩ := encodeMemoryOnly_ok h
    refine ⟨0, mode, ⟨fun h => absurd h hreg, ?_⟩, by decide, parseEA_fits hmode, ?_⟩
    · rw [MemoryOp.addressArg, if_neg hreg]
      exact hmode
    · rw [MemoryOp.word, hfield]
  cases op with
  | L => exact transfer rfl (fun _ => rfl) henc
  | ST => exact transfer rfl (fun _ => rfl) henc
  | B => exact only Bool.false_ne_true rfl henc
  | BAL => exact only Bool.false_ne_true rfl henc
  | IMS => exact only Bool.false_ne_true rfl henc
  | DMS => exact only Bool.false_ne_true rfl henc

end Encoding

section Semantics

/-- The value of `R0`..`R4` or `SP`. -/
def registerValue (r : Int) (c : CPURegister) : Int :=
  if h : r.toNat < 5 then c.R ⟨r.toNat, h⟩ else c.SP

/-- Assign to `R0`..`R4` or `SP`. -/
def setRegister (r v : Int) (c : CPURegister) : CPURegister :=
  if h : r.toNat < 5 then { c with R := Function.update c.R ⟨r.toNat, h⟩ v } else { c with SP := v }

/-- Replace the word at `ea` and skip if the new word is zero. -/
def replaceAndSkip (f : BitVec 16 → BitVec 16) (ea : Int) (c : View) : View :=
  let v := f (c.2 (codeCell c ea))
  let c' : View := (c.1, Function.update c.2 (codeCell c ea) v)
  if v = 0 then skipped c' else c'

/-- What an operation does at the effective address `ea`, `IC` being past the instruction. -/
def perform (op : MemoryOp) (r ea : Int) (c : View) : View :=
  match op with
  | .L => (setRegister r (num (c.2 (codeCell c ea))) c.1, c.2)
  | .ST => (c.1, Function.update c.2 (codeCell c ea) (BitVec.ofInt 16 (registerValue r c.1)))
  | .B => ({ c.1 with IC := ea }, c.2)
  | .BAL =>
      ({ c.1 with SP := land (c.1.SP - 1) 0xffff, IC := ea },
        Function.update c.2 (BitVec.ofInt 18 (EmuTs.Mn1613.phys c.1.SP c.1.SSBR))
          (BitVec.ofInt 16 c.1.IC))
  | .IMS => replaceAndSkip (· + 1) ea c
  | .DMS => replaceAndSkip (· - 1) ea c

variable {σ : Type} (bd : Board σ)

/-- Executing the word `w` performs the operation, from every state. -/
def ExecutesAs (op : MemoryOp) (r : Int) (mode : EAMode) (w : Int) : Prop :=
  ∀ s : Cpu σ, (EmuTs.Mn1613.instruction bd s).1 = w →
    view (EmuTs.Mn1613.stepOne bd s) =
      let s' := (EmuTs.Mn1613.instruction bd s).2
      perform op r ((EmuTs.Mn1613.ea bd mode.mmm mode.d8).run s').1 (view s')

/-- The modes in which the emulator takes the word for the operation it encodes. -/
def TakenAsItself (op : MemoryOp) (mmm : Int) : Prop :=
  match op with
  | .L | .ST => mmm ≠ 7
  | .B | .BAL => True
  | .IMS | .DMS => mmm = 7

end Semantics

section Execution

open EmuTs.Mn1613

variable {σ : Type} (bd : Board σ) (s : Cpu σ)

theorem view_ea (mmm d : Int) : view ((ea bd mmm d).run s).2 = view s := by
  rw [ea]
  simp only [run_bind]
  split <;> rfl

theorem view_sw {r : Int} (hr : 0 ≤ r ∧ r ≤ 5) (x : BitVec 16) :
    view ((sw r (num x)).run s).2 = (setRegister r (num x) (view s).1, (view s).2) := by
  obtain ⟨h0, h5⟩ := hr
  rw [sw, land_ffff_num]
  interval_cases r <;> rfl

theorem gr_value {r : Int} (hr : 0 ≤ r ∧ r ≤ 5) :
    ((gr r).run s).1 = registerValue r (view s).1 := by
  obtain ⟨h0, h5⟩ := hr
  interval_cases r <;> rfl

theorem view_gr (k : Int) : view ((gr k).run s).2 = view s := rfl

theorem gr_str : ((gr 6).run s).1 = (view s).1.STR := rfl

/-- Loading `STR` leaves the memory alone. -/
theorem view_sw_str (v : Int) : (view ((sw 6 v).run s).2).2 = (view s).2 := rfl

variable {mmm d r : Int}

theorem memory_fields {b : Int} (hb : 0 ≤ b ∧ b ≤ 1) (hm : 0 ≤ mmm ∧ mmm ≤ 7) :
    land (16 + b * 8 + mmm) 7 = mmm ∧ (land (16 + b * 8 + mmm) 8 ≠ 0 ↔ b = 1) := by
  obtain ⟨hb0, hb1⟩ := hb
  obtain ⟨hm0, hm7⟩ := hm
  interval_cases b <;> interval_cases mmm <;> decide

/-- The arms of the decoder, after the effective address. -/
theorem run_execMemory {b : Int} (hb : 0 ≤ b ∧ b ≤ 1) (hm : 0 ≤ mmm ∧ mmm ≤ 7) :
    (execMemory bd (16 + b * 8 + mmm) r d).run s =
      (if r = 7 then
        if b = 1 then setReg fun c => { c with IC := ((ea bd mmm d).run s).1 }
        else do
          push bd (← reg CPURegister.IC)
          setReg fun c => { c with IC := ((ea bd mmm d).run s).1 }
      else if mmm = 7 then do
        let cur ← rdC bd ((ea bd mmm d).run s).1
        let res := if b = 1 then land (cur + 1) 0xffff else land (cur - 1) 0xffff
        wrC bd ((ea bd mmm d).run s).1 res
        if res = 0 then skipNext bd else pure ()
      else if b = 1 then do sw r (← rdC bd ((ea bd mmm d).run s).1)
      else do wrC bd ((ea bd mmm d).run s).1 (← gr r) : M σ Unit).run
        ((ea bd mmm d).run s).2 := by
  obtain ⟨h7, h8⟩ := memory_fields hb hm
  simp only [execMemory, run_bind, h7, decide_eq_true_eq, h8]

/-- Replacing a word and skipping, as IMS and DMS do. -/
theorem view_replace (f : BitVec 16 → BitVec 16) (ea : Int) (c : View) (hc : view s = c) :
    view (((do
        wrC bd ea (num (f (c.2 (codeCell c ea))))
        if num (f (c.2 (codeCell c ea))) = 0 then skipNext bd else pure ()) : M σ Unit).run s).2 =
      replaceAndSkip f ea c := by
  subst hc
  rw [run_bind, run_ite, replaceAndSkip]
  have hwr := view_wrC bd s ea (num (f ((view s).2 (codeCell (view s) ea))))
  rw [ofInt_num] at hwr
  by_cases hz : f ((view s).2 (codeCell (view s) ea)) = 0
  · rw [if_pos hz, if_pos (by rw [hz]; rfl), view_skipNext, hwr]
  · rw [if_neg hz, if_neg (fun h => hz (num_inj.mp (h.trans rfl)))]
    exact hwr

/-- The arm of the decoder for `MMM = 7`. -/
theorem view_modeSeven {b : Int} (hb : 0 ≤ b ∧ b ≤ 1) (hr : r ≠ 7) :
    view ((execMemory bd (16 + b * 8 + 7) r d).run s).2 =
      replaceAndSkip (if b = 1 then (· + 1) else (· - 1)) ((ea bd 7 d).run s).1 (view s) := by
  rw [run_execMemory bd s hb (by decide), if_neg hr, if_pos rfl, run_bind, rdC_value,
    view_ea bd s 7 d]
  have hstep := view_replace bd ((rdC bd ((ea bd 7 d).run s).1).run ((ea bd 7 d).run s).2).2
  by_cases hbit : b = 1
  · rw [if_pos hbit, if_pos hbit, ← hstep (· + 1) _ _ (view_ea bd s 7 d),
      land_add_ofNat _ 1 (by decide)]
    rfl
  · rw [if_neg hbit, if_neg hbit, ← hstep (· - 1) _ _ (view_ea bd s 7 d),
      land_sub_ofNat _ 1 (by decide)]
    rfl

/-- The word of an operation, executed, performs it in the modes that are taken as itself. -/
theorem view_execMemory (op : MemoryOp) (hm : 0 ≤ mmm ∧ mmm ≤ 7) (hr : 0 ≤ r ∧ r ≤ 5)
    (hself : TakenAsItself op mmm) :
    view ((execMemory bd (16 + op.bit1 * 8 + mmm) (op.field r) d).run s).2 =
      perform op r ((ea bd mmm d).run s).1 (view s) := by
  have hr7 : r ≠ 7 := by omega
  have hview := view_ea bd s mmm d
  cases op with
  | L =>
      have hfield : ¬ MemoryOp.L.field r = 7 := hr7
      have hbit : MemoryOp.L.bit1 = 1 := rfl
      rw [run_execMemory bd s MemoryOp.L.bit1_range hm, if_neg hfield, if_neg hself, if_pos hbit,
        run_bind, rdC_value, ← hview]
      exact view_sw _ hr _
  | ST =>
      have hfield : ¬ MemoryOp.ST.field r = 7 := hr7
      have hbit : ¬ MemoryOp.ST.bit1 = 1 := by decide
      have hgr (s' : Cpu σ) : ((gr (MemoryOp.ST.field r)).run s').1 = registerValue r (view s').1 :=
        gr_value s' hr
      rw [run_execMemory bd s MemoryOp.ST.bit1_range hm, if_neg hfield, if_neg hself, if_neg hbit,
        run_bind, view_wrC, hgr, ← hview]
      rfl
  | B =>
      rw [run_execMemory bd s MemoryOp.B.bit1_range hm, ← hview]
      rfl
  | BAL =>
      have hfield : MemoryOp.BAL.field r = 7 := rfl
      have hbit : ¬ MemoryOp.BAL.bit1 = 1 := by decide
      have hpush (s' : Cpu σ) := view_push bd s' s'.reg.IC
      rw [run_execMemory bd s MemoryOp.BAL.bit1_range hm, if_pos hfield, if_neg hbit, run_bind,
        run_bind, ← hview]
      exact congrArg (fun c : View => ({ c.1 with IC := ((ea bd mmm d).run s).1 }, c.2)) (hpush _)
  | IMS =>
      obtain rfl : mmm = 7 := hself
      exact view_modeSeven bd s MemoryOp.IMS.bit1_range (by simp [MemoryOp.field])
  | DMS =>
      obtain rfl : mmm = 7 := hself
      exact view_modeSeven bd s MemoryOp.DMS.bit1_range (by simp [MemoryOp.field])

end Execution

section Misread

open EmuTs.Mn1613

/-- The word replaced is really another one. -/
theorem replaceAndSkip_mem {f : BitVec 16 → BitVec 16} (hf : ∀ x, f x ≠ x) (ea : Int) (c : View) :
    (replaceAndSkip f ea c).2 ≠ c.2 := by
  have hmem : (replaceAndSkip f ea c).2 =
      Function.update c.2 (codeCell c ea) (f (c.2 (codeCell c ea))) := by
    rw [replaceAndSkip]
    split <;> rfl
  intro h
  rw [hmem] at h
  have hcell := congrFun h (codeCell c ea)
  rw [Function.update_self] at hcell
  exact hf _ hcell

/-- Replacing a word is not clearing it: where the new word is zero, `IC` moves on. -/
theorem replaceAndSkip_ne_clear (f : BitVec 16 → BitVec 16) (ea : Int) (c : View) :
    replaceAndSkip f ea c ≠ (c.1, Function.update c.2 (codeCell c ea) 0) := by
  intro h
  rw [replaceAndSkip] at h
  by_cases hz : f (c.2 (codeCell c ea)) = 0
  · have hic := congrArg (fun v : View => v.1.IC) h
    simp only [if_pos hz, skipped, land_ffff] at hic
    split at hic <;> omega
  · rw [if_neg hz] at h
    have hcell := congrFun (congrArg Prod.snd h) (codeCell c ea)
    simp only [Function.update_self] at hcell
    exact hz hcell

variable {σ : Type} (bd : Board σ) {s : Cpu σ} {mmm d r : Int}

/-- In the other modes the word does something else, at least while the registers are clear. -/
theorem view_execMemory_ne (op : MemoryOp) (hm : 0 ≤ mmm ∧ mmm ≤ 7) (hr : 0 ≤ r ∧ r ≤ 5)
    (hself : ¬ TakenAsItself op mmm) (hR : ∀ i, s.reg.R i = 0) (hSP : s.reg.SP = 0)
    (hSTR : s.reg.STR = 0) :
    view ((execMemory bd (16 + op.bit1 * 8 + mmm) (op.field r) d).run s).2 ≠
      perform op r ((ea bd mmm d).run s).1 (view s) := by
  have hr7 : r ≠ 7 := by omega
  have hsucc (x : BitVec 16) : x + 1 ≠ x := by
    intro h
    have hone := congrArg BitVec.toNat h
    have hlt := x.isLt
    simp only [BitVec.toNat_add, BitVec.ofNat_eq_ofNat, BitVec.toNat_ofNat] at hone
    omega
  have hview := view_ea bd s mmm d
  intro h
  cases op with
  | L =>
      obtain rfl : mmm = 7 := by simpa [TakenAsItself] using hself
      have hfield : MemoryOp.L.field r = r := rfl
      have hbit : MemoryOp.L.bit1 = 1 := rfl
      rw [hfield, view_modeSeven bd s MemoryOp.L.bit1_range hr7, if_pos hbit,
        perform] at h
      have hmem := congrArg Prod.snd h
      exact replaceAndSkip_mem hsucc _ _ hmem
  | ST =>
      obtain rfl : mmm = 7 := by simpa [TakenAsItself] using hself
      have hzero : registerValue r (view s).1 = 0 := by
        rw [registerValue]
        split
        · exact hR _
        · exact hSP
      have hfield : MemoryOp.ST.field r = r := rfl
      rw [hfield, view_modeSeven bd s MemoryOp.ST.bit1_range hr7, perform, hzero] at h
      exact replaceAndSkip_ne_clear _ _ _ h
  | B => exact hself trivial
  | BAL => exact hself trivial
  | IMS =>
      have hfield : ¬ MemoryOp.IMS.field r = 7 := by simp [MemoryOp.field]
      have hbit : MemoryOp.IMS.bit1 = 1 := rfl
      have hm7 : ¬ mmm = 7 := hself
      rw [run_execMemory bd s MemoryOp.IMS.bit1_range hm, if_neg hfield, if_neg hm7,
        if_pos hbit, run_bind, perform, ← hview] at h
      have hmem := congrArg Prod.snd h
      rw [show MemoryOp.IMS.field r = 6 from rfl, view_sw_str, view_rdC] at hmem
      exact replaceAndSkip_mem hsucc _ _ hmem.symm
  | DMS =>
      have hfield : ¬ MemoryOp.DMS.field r = 7 := by simp [MemoryOp.field]
      have hbit : ¬ MemoryOp.DMS.bit1 = 1 := by decide
      have hgr : ((gr (MemoryOp.DMS.field r)).run ((ea bd mmm d).run s).2).1 = 0 := by
        rw [show MemoryOp.DMS.field r = 6 from rfl, gr_str, hview]
        exact hSTR
      have hm7 : ¬ mmm = 7 := hself
      rw [run_execMemory bd s MemoryOp.DMS.bit1_range hm, if_neg hfield, if_neg hm7,
        if_neg hbit, run_bind, view_wrC, hgr, ← hview, view_gr, perform,
        show BitVec.ofInt 16 0 = 0 from rfl] at h
      exact replaceAndSkip_ne_clear _ _ _ h.symm

end Misread

section Agreement

open EmuTs.Mn1613

variable {op : MemoryOp} {r : Int} {mode : EAMode}

theorem execute_word {σ : Type} (bd : Board σ) (hfit : EAFits mode) (hr : 0 ≤ r ∧ r ≤ 5) :
    execute bd (op.word r mode) =
      execMemory bd (16 + op.bit1 * 8 + mode.mmm) (op.field r) mode.d8 := by
  obtain ⟨hop, hrrr, hlo⟩ :=
    decode_encodeMem op.bit1_range hfit.1 (op.field_range hr) hfit.2
  have hbit := op.bit1_range.1
  have hm := hfit.1.1
  rw [execute, MemoryOp.word, hop, hrrr, hlo, if_pos (by omega)]

theorem word_range (hfit : EAFits mode) (hr : 0 ≤ r ∧ r ≤ 5) :
    0 ≤ op.word r mode ∧ op.word r mode < 2 ^ 16 := by
  have hb := op.bit1_range
  have hf := op.field_range hr
  obtain ⟨hm, hd⟩ := hfit
  rw [MemoryOp.word, encodeMem_eq hb hm hf hd]
  omega

/-- A core just loaded, with the word `w` at address 0. -/
def loaded (w : Int) : Cpu Unit :=
  Cpu.initial (Function.update (fun _ => 0) 0 (BitVec.ofInt 16 w)) ()

theorem instruction_loaded {w : Int} (hw : 0 ≤ w ∧ w < 2 ^ 16) :
    (instruction Device.silent.board (loaded w)).1 = w := by
  have hidle : (loaded w).pendingIRQ = 0 := rfl
  have hinstr : (instruction Device.silent.board (loaded w)).1 =
      (fetchInstruction Device.silent.board (loaded w)).1 := by
    rw [instruction, run_bind, checkIRQ_idle _ hidle]
    rfl
  have hphys : BitVec.ofInt 18 (phys (loaded w).reg.IC (loaded w).reg.CSBR) = 0 := by
    change BitVec.ofInt 18 (phys 0 0) = 0
    decide
  have hmem : (loaded w).mem 0 = BitVec.ofInt 16 w := by
    simp [loaded, Cpu.initial]
  rw [hinstr, fetchInstruction_word, codeWord, hphys, hmem]
  exact num_ofInt hw.1 hw.2

/-- The word of an operation is executed as the operation exactly in the modes taken as
itself. -/
theorem executesAs_iff (hfit : EAFits mode) (hr : 0 ≤ r ∧ r ≤ 5) :
    (∀ (σ : Type) (bd : Board σ), ExecutesAs bd op r mode (op.word r mode)) ↔
      TakenAsItself op mode.mmm := by
  constructor
  · intro h
    by_contra hself
    have hstep := h Unit Device.silent.board (loaded (op.word r mode))
      (instruction_loaded (word_range hfit hr))
    rw [stepOne_eq, instruction_loaded (word_range hfit hr), execute_word _ hfit hr] at hstep
    exact view_execMemory_ne Device.silent.board op hfit.1 hr hself (fun _ => rfl) rfl rfl hstep
  · intro hself σ bd s hfetch
    rw [stepOne_eq, hfetch, execute_word bd hfit hr]
    exact view_execMemory bd _ op hfit.1 hr hself

/-- `L R0, (*5)(X1)` -/
def loadIndexed : ParsedLine :=
  { lineNo := 1, text := "L R0, (*5)(X1)", label := none, op := some "L"
    args := ["R0", "(*5)(X1)"] }

end Agreement

end Mn1613
end RetroCpu
