import RetroCpu.Lib.BitField
import RetroCpu.EmuTs.Mn1613Effect
import RetroCpu.Mn1613.StepEquiv
import RetroCpu.Mn1613.View

/-!
# Skipping an instruction

A skip steps over the next instruction by looking its length up in a table of its
own, `is2Word`.  Row by row the table is compared here with `operandWords`, the
number of words that the decoders really fetch.  All rows agree but one: SD and AD
are listed as two words and take one.
-/

namespace RetroCpu
namespace Mn1613

open Js Prog BitField Simulation
open EmuTs.Mn1613 (operandWords operandWords04 operandWords0b operandWords0f immediateWords)
open EmuRs.Mn1613 (U16)

/-- The instructions SD and AD. -/
def isDouble (ir : U16) : Prop :=
  (((ir >>> 11) &&& 0x1f).toNat = 8 ∨ ((ir >>> 11) &&& 0x1f).toNat = 9) ∧
    (ir >>> 8) &&& 0x7 = 7 ∧ (ir &&& 0xff) &&& 4 ≠ 0

instance (ir : U16) : Decidable (isDouble ir) := by
  unfold isDouble
  infer_instance

section Table

theorem immediateWords_num (lo : U16) :
    immediateWords (num lo) = if lo &&& 7#16 = 7#16 then 1 else 0 := by
  have h1 : (lo >>> 3) &&& 1#16 = 1#16 ↔ lo.toNat / 8 % 2 = 1 :=
    field_eq_iff lo 3 1 1 (by decide) (by decide)
  have h0 : (lo >>> 3) &&& 1#16 = 0#16 ↔ lo.toNat / 8 % 2 = 0 :=
    field_eq_iff lo 3 1 0 (by decide) (by decide)
  by_cases h7 : lo &&& 7#16 = 7#16
  · simp [immediateWords, h0, h1, h7]
  · simp [immediateWords, h7]

theorem low_nibble_iff (lo : U16) :
    (lo &&& 15#16 = 15#16 ∨ lo &&& 15#16 = 7#16) ↔ lo &&& 7#16 = 7#16 := by
  have h15 : lo &&& 15#16 = 15#16 ↔ lo.toNat % 16 = 15 :=
    mask_eq_iff lo 4 15 (by decide) (by decide)
  have h7 : lo &&& 15#16 = 7#16 ↔ lo.toNat % 16 = 7 :=
    mask_eq_iff lo 4 7 (by decide) (by decide)
  have h : lo &&& 7#16 = 7#16 ↔ lo.toNat % 8 = 7 :=
    mask_eq_iff lo 3 7 (by decide) (by decide)
  rw [h15, h7, h]
  omega

/-- The row of group `0x04`. -/
theorem operandWords04_num (r lo : U16) :
    operandWords04 (num r) (num lo) = 1 ↔
      (r = 7 ∧ lo &&& 8 ≠ 0) ∨ (r = 6 ∧ (lo = 7 ∨ lo = 0x17)) := by
  have h8 (h : lo &&& 252#16 = 4#16 ∨ lo &&& 252#16 = 20#16) : lo &&& 8#16 = 0#16 := by
    have hand : lo &&& 8#16 = (lo &&& 252#16) &&& 8#16 := by
      rw [BitVec.and_assoc]
      rfl
    rcases h with h | h <;> rw [hand, h] <;> rfl
  simp [operandWords04]
  by_cases h7 : r = 7#16
  · subst h7
    simp
    by_cases hb : lo &&& 252#16 = 4#16
    · simp [hb, h8 (.inl hb)]
    · by_cases hb' : lo &&& 252#16 = 20#16
      · simp [hb', h8 (.inr hb')]
      · simp [hb, hb']
  · by_cases h6 : r = 6#16
    · subst h6
      by_cases hb : lo = 7#16 <;> simp [hb]
    · simp [h7, h6]

/-- The row of group `0x0f`. -/
theorem operandWords0f_num (r lo : U16) :
    operandWords0f (num r) (num lo) = 1 ↔ lo &&& 15 = 7 := by
  have h7 : lo &&& 15#16 = 7#16 ↔ lo.toNat % 16 = 7 :=
    mask_eq_iff lo 4 7 (by decide) (by decide)
  have h : lo &&& 7#16 = 7#16 ↔ lo.toNat % 8 = 7 :=
    mask_eq_iff lo 3 7 (by decide) (by decide)
  have h3 : (lo >>> 3) &&& 1#16 = 0#16 ↔ lo.toNat / 8 % 2 = 0 :=
    field_eq_iff lo 3 1 0 (by decide) (by decide)
  have h23 : (lo >>> 2) &&& 3#16 = 3#16 ↔ lo.toNat / 4 % 4 = 3 :=
    field_eq_iff lo 2 2 3 (by decide) (by decide)
  have h22 : (lo >>> 2) &&& 3#16 = 2#16 ↔ lo.toNat / 4 % 4 = 2 :=
    field_eq_iff lo 2 2 2 (by decide) (by decide)
  by_cases hr : r = 7#16
  · simp [operandWords0f, hr, h, h3, h7, h22, h23, ite_eq_iff]
    omega
  · simp [operandWords0f, hr, h, h3, h7]
    omega

/-- The row of group `0x0b`: with `rrr = 7` nothing is fetched. -/
theorem operandWords0b_num (r lo : U16) :
    operandWords0b (num r) (num lo) = 1 ↔ r ≠ 7 ∧ lo &&& 7 = 7 := by
  have h4 : lo &&& 4#16 = 0#16 ↔ lo.toNat / 4 % 2 = 0 := and_bit_eq_zero lo 2 (by decide)
  have h22 : (lo >>> 2) &&& 3#16 = 2#16 ↔ lo.toNat / 4 % 4 = 2 :=
    field_eq_iff lo 2 2 2 (by decide) (by decide)
  have h20 : (lo >>> 2) &&& 3#16 = 0#16 ↔ lo.toNat / 4 % 4 = 0 :=
    field_eq_iff lo 2 2 0 (by decide) (by decide)
  by_cases h7 : r = 7#16
  · simp [operandWords0b, h7, h4, h20, h22]
    grind
  · simp [operandWords0b, h7, immediateWords_num]

/-- The fields of an instruction word, as the two decoders see them. -/
theorem fields_num (ir : U16) :
    land (ushr (num ir) 11) 0x1f = num ((ir >>> 11) &&& 0x1f) ∧
      land (ushr (num ir) 8) 0x7 = num ((ir >>> 8) &&& 0x7) ∧
      land (num ir) 0xff = num (ir &&& 0xff) := by
  simp

theorem memory_group_iff (ir : U16) :
    num ((ir >>> 11) &&& 0x1f) ≥ 0x10 ↔ 16 ≤ ((ir >>> 11) &&& 0x1f).toNat := by
  simp [BitVec.le_def]

/-- Outside SD and AD the table lists the length that the decoder has. -/
theorem is2word_iff {ir : U16} (h : ¬ isDouble ir) :
    EmuRs.Mn1613.is2word ir = true ↔ operandWords (num ir) = 1 := by
  obtain ⟨hop, hrrr, hlo⟩ := fields_num ir
  have hge := memory_group_iff ir
  unfold EmuRs.Mn1613.is2word operandWords
  unfold isDouble at h
  simp only [hop, hrrr, hlo, toNat_num, hge]
  generalize ((ir >>> 11) &&& 0x1f).toNat = n at h
  generalize (ir >>> 8) &&& 0x7 = r at h
  generalize ir &&& 0xff = lo at h
  rcases n with _ | _ | _ | _ | _ | _ | _ | _ | _ | _ | _ | _ | _ | _ | _ | _ | n
  case succ.zero =>
    by_cases h7 : r = 7#16 <;> simp [h7]
  case succ.succ.zero =>
    by_cases h7 : r = 7#16
    · by_cases hf : lo = 15#16
      · simp [h7, hf]
      · by_cases h07 : lo = 7#16 <;> simp [h7, hf, h07]
    · simp [h7]
  case succ.succ.succ.succ.zero =>
    simp [operandWords04_num]
  case succ.succ.succ.succ.succ.succ.succ.succ.zero =>
    simpa using h
  case succ.succ.succ.succ.succ.succ.succ.succ.succ.zero =>
    simpa using h
  case succ.succ.succ.succ.succ.succ.succ.succ.succ.succ.succ.zero =>
    simp [operandWords0b_num, low_nibble_iff]
  case succ.succ.succ.succ.succ.succ.succ.succ.succ.succ.succ.succ.succ.succ.succ.zero =>
    simp [operandWords0f_num]
  all_goals
    by_cases h7 : r = 7#16 <;> simp [h7, immediateWords_num, low_nibble_iff]

/-- SD and AD are listed as two words and have no operand word. -/
theorem isDouble_length {ir : U16} (h : isDouble ir) :
    EmuRs.Mn1613.is2word ir = true ∧ operandWords (num ir) = 0 := by
  obtain ⟨hop, hrrr, hlo⟩ := fields_num ir
  have hge := memory_group_iff ir
  unfold EmuRs.Mn1613.is2word operandWords
  obtain ⟨hn, hr, hl⟩ := h
  simp only [hop, hrrr, hlo, toNat_num, hge]
  generalize ((ir >>> 11) &&& 0x1f).toNat = n at hn
  generalize (ir >>> 8) &&& 0x7 = r at hr
  generalize ir &&& 0xff = lo at hl
  subst hr
  rcases hn with rfl | rfl <;> simpa using hl

theorem operandWords_le (ir : Int) : operandWords ir ≤ 1 := by
  unfold operandWords operandWords04 operandWords0b operandWords0f immediateWords
  simp only
  split
  · exact Nat.zero_le _
  · split
    case h_9 => exact Nat.zero_le _
    all_goals split_ifs <;> simp

end Table

section Fetches

variable {σ : Type}

/-- The TypeScript decoder fetches `operandWords` words. -/
theorem execute_fetches (bd : EmuTs.Mn1613.Board σ) (ir : Int) (s : EmuTs.Mn1613.Cpu σ) :
    ((EmuTs.Mn1613.execute bd ir).run s).2.fetches = s.fetches + operandWords ir :=
  (EmuTs.Mn1613.execute_moves (W := EmuTs.Mn1613.Scope.plain bd fun _ => False) bd ir
    (fun h => h.elim) s).2.1

/-- A floating-point instruction has no operand word. -/
theorem operandWords_float {ir : U16} (h : isFloat ir) : operandWords (num ir) = 0 := by
  obtain ⟨hop, hrrr, hlo⟩ := fields_num ir
  unfold operandWords
  rw [hop, hrrr, hlo]
  rcases h with ⟨hn, hr, -⟩ | ⟨hn | hn, hr, -⟩ <;> rw [hn, hr] <;> simp

section RustFloat

/-- The programs of the Rust core that do not touch the fetch count. -/
abbrev NoFetch {α : Type} (m : EmuRs.Mn1613.M σ α) : Prop := Keeps (fun t => t.fetches) m

open EmuRs.Mn1613

theorem noFetch_reg {α : Type} (f : CpuRegister → α) : NoFetch (σ := σ) (reg f) := fun _ => rfl

theorem noFetch_setReg (f : CpuRegister → CpuRegister) : NoFetch (σ := σ) (setReg f) :=
  fun _ => rfl

theorem noFetch_rdC (la : U16) : NoFetch (σ := σ) (rdC la) := fun _ => rfl

theorem noFetch_skipIf (kkkk v : U16) : NoFetch (σ := σ) (skipIf kkkk v) := by
  refine Keeps.bind (noFetch_reg _) fun c => Keeps.ite ?_ (Keeps.pure _)
  refine Keeps.bind (noFetch_reg _) fun _ => Keeps.bind (noFetch_rdC _) fun _ => ?_
  exact Keeps.bind (noFetch_setReg _) fun _ => Keeps.ite (noFetch_setReg _) (Keeps.pure _)

theorem noFetch_fpEncode (v : Float) : NoFetch (σ := σ) (fpEncode v) :=
  Keeps.bind (noFetch_setReg _) fun _ => Keeps.bind (noFetch_setReg _) fun _ => noFetch_setReg _

theorem noFetch_fpDecodeAt (ea : U16) : NoFetch (σ := σ) (fpDecodeAt ea) :=
  Keeps.bind (noFetch_rdC _) fun _ => Keeps.bind (noFetch_rdC _) fun _ => Keeps.pure _

theorem noFetch_fpFinish (kkkk : U16) : NoFetch (σ := σ) (fpFinish kkkk) :=
  Keeps.bind (noFetch_setReg _) fun _ => Keeps.bind (noFetch_reg _) fun _ => noFetch_skipIf _ _

theorem noFetch_execFix (kkkk : U16) : NoFetch (σ := σ) (execFix kkkk) := by
  refine Keeps.bind (noFetch_reg _) fun _ => Keeps.bind (noFetch_setReg _) fun _ => ?_
  refine Keeps.bind (noFetch_setReg _) fun _ => Keeps.bind (noFetch_setReg _) fun _ => ?_
  exact Keeps.bind (noFetch_reg _) fun _ => noFetch_skipIf _ _

theorem noFetch_execFlt (kkkk : U16) : NoFetch (σ := σ) (execFlt kkkk) :=
  Keeps.bind (noFetch_reg _) fun _ => Keeps.bind (noFetch_fpEncode _) fun _ => noFetch_fpFinish _

theorem noFetch_execFloat (f : Float → Float → Float) (kkkk b10 : U16) :
    NoFetch (σ := σ) (execFloat f kkkk b10) := by
  refine Keeps.bind (noFetch_reg _) fun _ => Keeps.bind (noFetch_fpDecodeAt _) fun _ => ?_
  refine Keeps.bind (noFetch_reg _) fun _ => Keeps.bind (noFetch_fpEncode _) fun _ => ?_
  exact noFetch_fpFinish _

theorem noFetch_execFd (kkkk b10 : U16) : NoFetch (σ := σ) (execFd kkkk b10) := by
  refine Keeps.bind (noFetch_reg _) fun _ => Keeps.bind (noFetch_fpDecodeAt _) fun _ => ?_
  refine Keeps.ite ?_ ?_
  · exact Keeps.bind (noFetch_setReg _) fun _ => noFetch_fpFinish _
  · exact Keeps.bind (noFetch_reg _) fun _ => Keeps.bind (noFetch_fpEncode _) fun _ =>
      noFetch_fpFinish _

theorem noFetch_float (io : Io σ) {ir : U16} (h : isFloat ir) : NoFetch (execute io ir) := by
  rcases h with ⟨hn, hr, hl⟩ | ⟨hn | hn, hr, hl⟩
  · have hrun : execute io ir = exec03 io 7 (ir &&& 0xff) := by
      unfold execute
      simp only [hn, hr]
      rfl
    rw [hrun, exec03, if_neg (by simp)]
    simp only [hl, if_true]
    exact Keeps.ite (noFetch_execFix _) (noFetch_execFlt _)
  · have hrun : execute io ir = exec0c 7 (ir &&& 0xff) := by
      unfold execute
      simp only [hn, hr]
      rfl
    rw [hrun, exec0c, if_pos rfl]
    rcases hl with hl | hl
    · rw [if_pos hl]
      exact noFetch_execFloat _ _ _
    · rw [if_neg (by rw [hl]; decide), if_pos hl]
      exact noFetch_execFd _ _
  · have hrun : execute io ir = exec0d 7 (ir &&& 0xff) := by
      unfold execute
      simp only [hn, hr]
      rfl
    rw [hrun, exec0d, if_pos rfl]
    rcases hl with hl | hl
    · rw [if_pos hl]
      exact noFetch_execFloat _ _ _
    · rw [if_neg (by rw [hl]; decide), if_pos hl]
      exact noFetch_execFloat _ _ _

end RustFloat

/-- The Rust decoder fetches `operandWords` words. -/
theorem rs_execute_fetches (io : EmuRs.Mn1613.Io σ) (ir : U16) (t : EmuRs.Mn1613.Core σ) :
    ((EmuRs.Mn1613.execute io ir).run t).2.fetches = t.fetches + operandWords (num ir) := by
  by_cases hfp : isFloat ir
  · rw [operandWords_float hfp]
    exact noFetch_float io hfp t
  · have hsim := (execute_sim (Device.ofIo io) ir hfp _ _ (rel_fromRs t)).2
    rw [Device.io_ofIo] at hsim
    rw [← hsim.fetches, execute_fetches]
    rfl

end Fetches

section Skip

variable {σ : Type}

/-- The word of the code segment at `IC`. -/
def codeWord (s : EmuTs.Mn1613.Cpu σ) : U16 :=
  s.mem (BitVec.ofInt 18 (EmuTs.Mn1613.phys s.reg.IC s.reg.CSBR))

/-- The word of the code segment at `ic` in the Rust core. -/
def codeWordRs (t : EmuRs.Mn1613.Core σ) : U16 :=
  EmuRs.Mn1613.readPhys t.ram (EmuRs.Mn1613.phys t.regs.ic t.regs.csbr)

theorem skipNext_IC (bd : EmuTs.Mn1613.Board σ) (s : EmuTs.Mn1613.Cpu σ) :
    ((EmuTs.Mn1613.skipNext bd).run s).2.reg.IC =
      land (s.reg.IC + 1 + if EmuRs.Mn1613.is2word (codeWord s) then 1 else 0) 0xffff := by
  have hrun : ((EmuTs.Mn1613.skipNext bd).run s).2.reg.IC =
      if EmuTs.Mn1613.is2Word
          (EmuTs.Mn1613.getUint16 s.mem (land (EmuTs.Mn1613.phys s.reg.IC s.reg.CSBR) 0x3ffff))
      then land (land (s.reg.IC + 1) 0xffff + 1) 0xffff else land (s.reg.IC + 1) 0xffff := by
    simp only [EmuTs.Mn1613.skipNext, run_bind, run_ite]
    change (if EmuTs.Mn1613.is2Word (EmuTs.Mn1613.getUint16 s.mem
      (land (EmuTs.Mn1613.phys s.reg.IC s.reg.CSBR) 0x3ffff)) then _ else _ :
        Unit × EmuTs.Mn1613.Cpu σ).2.reg.IC = _
    split_ifs <;> rfl
  rw [hrun, getUint16_phys, is2Word_num, ← codeWord]
  simp only [land_ffff]
  cases EmuRs.Mn1613.is2word (codeWord s) with
  | false => simp
  | true =>
      simp only [if_true]
      omega

theorem rs_skipNext_ic (t : EmuRs.Mn1613.Core σ) :
    ((EmuRs.Mn1613.skipNext (σ := σ)).run t).2.regs.ic =
      t.regs.ic + 1 + if EmuRs.Mn1613.is2word (codeWordRs t) then 1 else 0 := by
  have hmask (x : EmuRs.Mn1613.U32) :
      x &&& EmuRs.Mn1613.PHYS_MASK &&& EmuRs.Mn1613.PHYS_MASK = x &&& EmuRs.Mn1613.PHYS_MASK := by
    rw [BitVec.and_assoc]
    rfl
  have hrun : ((EmuRs.Mn1613.skipNext (σ := σ)).run t).2.regs.ic =
      if EmuRs.Mn1613.is2word (EmuRs.Mn1613.readPhys t.ram
          (EmuRs.Mn1613.phys t.regs.ic t.regs.csbr &&& EmuRs.Mn1613.PHYS_MASK))
      then t.regs.ic + 1 + 1 else t.regs.ic + 1 := by
    simp only [EmuRs.Mn1613.skipNext, run_bind, run_ite]
    change (if EmuRs.Mn1613.is2word (EmuRs.Mn1613.readPhys t.ram
      (EmuRs.Mn1613.phys t.regs.ic t.regs.csbr &&& EmuRs.Mn1613.PHYS_MASK)) then _ else _ :
        Unit × EmuRs.Mn1613.Core σ).2.regs.ic = _
    split_ifs <;> rfl
  have hword : EmuRs.Mn1613.readPhys t.ram
      (EmuRs.Mn1613.phys t.regs.ic t.regs.csbr &&& EmuRs.Mn1613.PHYS_MASK) = codeWordRs t := by
    simp only [codeWordRs, EmuRs.Mn1613.readPhys, hmask]
  rw [hrun, hword]
  split_ifs <;> simp

/-- The number of words after `ir` that its execution in state `s` fetches. -/
def fetched (bd : EmuTs.Mn1613.Board σ) (ir : U16) (s : EmuTs.Mn1613.Cpu σ) : Nat :=
  ((EmuTs.Mn1613.execute bd (num ir)).run s).2.fetches - s.fetches

/-- The number of words after `ir` that its execution by the Rust core in state `t` fetches. -/
def fetchedRs (io : EmuRs.Mn1613.Io σ) (ir : U16) (t : EmuRs.Mn1613.Core σ) : Nat :=
  ((EmuRs.Mn1613.execute io ir).run t).2.fetches - t.fetches

theorem fetched_eq (bd : EmuTs.Mn1613.Board σ) (ir : U16) (s : EmuTs.Mn1613.Cpu σ) :
    fetched bd ir s = operandWords (num ir) := by
  rw [fetched, execute_fetches, Nat.add_sub_cancel_left]

theorem fetchedRs_eq (io : EmuRs.Mn1613.Io σ) (ir : U16) (t : EmuRs.Mn1613.Core σ) :
    fetchedRs io ir t = operandWords (num ir) := by
  rw [fetchedRs, rs_execute_fetches, Nat.add_sub_cancel_left]

theorem is2word_iff_operandWords (ir : U16) :
    (EmuRs.Mn1613.is2word ir = true ↔ operandWords (num ir) = 1) ↔ ¬ isDouble ir := by
  constructor
  · intro h hd
    obtain ⟨h2, h0⟩ := isDouble_length hd
    have h1 := h.mp h2
    omega
  · exact is2word_iff

/-- The skip steps over the instruction and its operand words. -/
theorem skip_length_iff (ir : U16) :
    (if EmuRs.Mn1613.is2word ir then 1 else 0) = operandWords (num ir) ↔ ¬ isDouble ir := by
  rw [← is2word_iff_operandWords]
  have hle := operandWords_le (num ir)
  cases EmuRs.Mn1613.is2word ir with
  | false =>
      simp
      omega
  | true => simp [eq_comm]

/-- The skip-length law of both cores, with its exact condition.  For every
instruction word the table agrees with the number of words fetched by executing it,
and a skip in any state lands on the instruction after the skipped one, if and only
if the word is not SD or AD. -/
theorem skip_length_law (bd : EmuTs.Mn1613.Board σ) (io : EmuRs.Mn1613.Io σ) (ir : U16)
    (s u : EmuTs.Mn1613.Cpu σ) (t v : EmuRs.Mn1613.Core σ) :
    ((EmuTs.Mn1613.is2Word (num ir) = true ↔ fetched bd ir u = 1) ↔ ¬ isDouble ir) ∧
      ((EmuRs.Mn1613.is2word ir = true ↔ fetchedRs io ir v = 1) ↔ ¬ isDouble ir) ∧
      (((EmuTs.Mn1613.skipNext bd).run s).2.reg.IC =
          land (s.reg.IC + 1 + fetched bd (codeWord s) u) 0xffff ↔ ¬ isDouble (codeWord s)) ∧
      (((EmuRs.Mn1613.skipNext (σ := σ)).run t).2.regs.ic =
          t.regs.ic + 1 + BitVec.ofNat 16 (fetchedRs io (codeWordRs t) v) ↔
        ¬ isDouble (codeWordRs t)) := by
  refine ⟨?_, ?_, ?_, ?_⟩
  · rw [is2Word_num, fetched_eq, is2word_iff_operandWords]
  · rw [fetchedRs_eq, is2word_iff_operandWords]
  · rw [skipNext_IC, fetched_eq, ← skip_length_iff]
    have hle := operandWords_le (num (codeWord s))
    simp only [land_ffff]
    cases EmuRs.Mn1613.is2word (codeWord s) with
    | false =>
        simp
        omega
    | true =>
        simp
        omega
  · rw [rs_skipNext_ic, fetchedRs_eq, ← skip_length_iff]
    have hle := operandWords_le (num (codeWordRs t))
    have hcase : operandWords (num (codeWordRs t)) = 0 ∨ operandWords (num (codeWordRs t)) = 1 := by
      omega
    cases EmuRs.Mn1613.is2word (codeWordRs t) with
    | false => rcases hcase with h | h <;> simp [h]
    | true => rcases hcase with h | h <;> simp [h]

/-- `AI R0, 1, SKP` before `AD DR0, (R1)`: the table lists AD as two words, executing it
fetches none, and the skip leaves `IC` at 3 instead of 2. -/
theorem skip_over_ad :
    let s := EmuTs.Mn1613.Cpu.initial (fun a => if a = 0 then 0x4811#16 else 0x4f04#16) ((), [])
    let bd := Device.silent.logged.board
    EmuTs.Mn1613.is2Word 0x4f04 = true ∧ fetched bd 0x4f04 s = 0 ∧
      (EmuTs.Mn1613.stepOne bd s).reg.IC = 3 := by
  decide

end Skip

end Mn1613
end RetroCpu
