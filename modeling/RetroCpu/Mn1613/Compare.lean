import Mathlib
import RetroCpu.Mn1613.Operands

/-!
# Comparisons of the MN1613

C, CWR and CWI compare words, CB, CBR and CBI low bytes, and skip the next instruction.
The skip conditions for unsigned numbers are computed from E, and so the code sets E and V
by a subtraction, although `MN1613.mdc` lists neither flag for a comparison.
-/

namespace RetroCpu
namespace Mn1613

open Js Prog Carry
open EmuTs.Mn1613

/-- The skip conditions that compare unsigned numbers. -/
inductive Condition
  | Z
  | NZ
  | LMZ
  | LP
  | LPZ
  | LM
deriving DecidableEq, Repr

namespace Condition

local instance instNeZeroSixteen : @NeZero Nat Zero.ofOfNat0 16 := Nat.instNeZeroSucc

/-- The skip code. -/
def code : Condition → Fin 16
  | Z => 0x4
  | NZ => 0x5
  | LMZ => 0xc
  | LP => 0xd
  | LPZ => 0xe
  | LM => 0xf

/-- What a skip says about the operands of a comparison. -/
def holds (a b : Int) : Condition → Prop
  | Z => a = b
  | NZ => a ≠ b
  | LMZ => a ≤ b
  | LP => a > b
  | LPZ => a ≥ b
  | LM => a < b

instance (a b : Int) (cond : Condition) : Decidable (cond.holds a b) :=
  match cond with
  | Z => inferInstanceAs (Decidable (a = b))
  | NZ => inferInstanceAs (Decidable (a ≠ b))
  | LMZ => inferInstanceAs (Decidable (a ≤ b))
  | LP => inferInstanceAs (Decidable (a > b))
  | LPZ => inferInstanceAs (Decidable (a ≥ b))
  | LM => inferInstanceAs (Decidable (a < b))

end Condition

/-- The comparisons, with the fields of their words. -/
inductive CompareInsn
  | C (d s : Fin 7)
  | CWR (i : Fin 4)
  | CWI (d : Fin 7)
  | CB (d s : Fin 7)
  | CBR (i : Fin 4)
  | CBI (d : Fin 7)
deriving DecidableEq, Repr

namespace CompareInsn

/-- The instruction word, with the skip code `k`. -/
def word (insn : CompareInsn) (k : Fin 16) : Int :=
  match insn with
  | C d s => fieldWord 0x0a d (k * 16 + (8 + s))
  | CWR i => fieldWord 0x0a 7 (k * 16 + (8 + i))
  | CWI d => fieldWord 0x0a d (k * 16 + 15)
  | CB d s => fieldWord 0x0a d (k * 16 + s)
  | CBR i => fieldWord 0x0a 7 (k * 16 + i)
  | CBI d => fieldWord 0x0a d (k * 16 + 7)

/-- The left operand. -/
def left (insn : CompareInsn) (r : CPURegister) : Int :=
  match insn with
  | C d _ => general r d
  | CWR _ => r.R 0
  | CWI d => general r d
  | CB d _ => general r d % 256
  | CBR _ => r.R 0 % 256
  | CBI d => general r d % 256

/-- The right operand: a register, a memory word, the second word of the instruction, or the
low byte of one of them. -/
def right (insn : CompareInsn) (c : View) : Int :=
  match insn with
  | C _ s => general c.1 s
  | CWR i => codeValue c (c.1.R i.succ)
  | CWI _ => codeValue c c.1.IC
  | CB _ s => general c.1 s % 256
  | CBR i => codeValue c (c.1.R i.succ) % 256
  | CBI _ => codeValue c c.1.IC % 256

/-- The second word of the instruction has been fetched. -/
def fetched (insn : CompareInsn) (c : View) : View :=
  match insn with
  | CWI _ => ({ c.1 with IC := land (c.1.IC + 1) 0xffff }, c.2)
  | CBI _ => ({ c.1 with IC := land (c.1.IC + 1) 0xffff }, c.2)
  | _ => c

/-- The comparison with the condition `cond` leaves only `IC` changed, and skips when the
condition holds of its operands. -/
structure Compares (insn : CompareInsn) (cond : Condition) (c c' : View) : Prop where
  skips : c'.1.IC = if cond.holds (insn.left c.1) (insn.right c)
    then (skipped (insn.fetched c)).1.IC else (insn.fetched c).1.IC
  registers : c'.1 = { c.1 with IC := c'.1.IC }
  memory : c'.2 = c.2

/-- The flags already are those of the difference of the operands. -/
def FlagsAgree (insn : CompareInsn) (c : View) : Prop :=
  (c.1.E = true ↔ insn.left c.1 < insn.right c) ∧
    (c.1.V = true ↔ ¬ Fits 65536 (signed 65536 (insn.left c.1) - signed 65536 (insn.right c)))

end CompareInsn

section Execution

variable {σ : Type} (bd : Board σ) (s : Cpu σ)

/-- The view after the difference `a - b` has set the flags. -/
def subView (c : View) (a b : Int) : View := (subFlags c.1 a b, c.2)

/-- The conditions test the flags and the result of a subtraction. -/
theorem skip_sub {a b : Int} (ha : Within 0xffff a) (hb : Within 0xffff b) (cond : Condition)
    (hreg : ∃ r, s.reg = subFlags r a b) :
    ((skip cond.code (land (a - b) 0xffff)).run s).1 = true ↔ cond.holds a b := by
  obtain ⟨r, hr⟩ := hreg
  have hE : (land s.reg.STR STR_E ≠ 0) ↔ a < b := by
    rw [hr]
    have h := subFlags_E (r := r) (a := a) (b := b)
    rw [CPURegister.E, decide_eq_true_iff] at h
    rw [h]
    omega
  have hZ : land (land (a - b) 0xffff) 0xffff = 0 ↔ a = b := by
    obtain ⟨ha0, ha1⟩ := ha
    obtain ⟨hb0, hb1⟩ := hb
    rw [land_ffff, land_ffff]
    omega
  rw [skip, reg_run]
  cases cond with
  | Z =>
      change decide _ = true ↔ _
      rw [decide_eq_true_iff]
      exact hZ
  | NZ =>
      change (!decide _) = true ↔ _
      rw [Bool.not_eq_true', decide_eq_false_iff_not, hZ]
      exact Iff.rfl
  | LMZ =>
      change (decide _ || decide _) = true ↔ a ≤ b
      rw [Bool.or_eq_true, decide_eq_true_iff, decide_eq_true_iff, hE, hZ]
      exact le_iff_lt_or_eq.symm
  | LP =>
      change (!decide _ && !decide _) = true ↔ a > b
      rw [Bool.and_eq_true, Bool.not_eq_true', Bool.not_eq_true', decide_eq_false_iff_not,
        decide_eq_false_iff_not, hE, hZ]
      omega
  | LPZ =>
      change (!decide _) = true ↔ a ≥ b
      rw [Bool.not_eq_true', decide_eq_false_iff_not, hE]
      exact not_lt
  | LM =>
      change (decide _ && !decide _) = true ↔ a < b
      rw [Bool.and_eq_true, Bool.not_eq_true', decide_eq_true_iff, decide_eq_false_iff_not, hE, hZ]
      omega

/-- A comparison of `a` and `b` in the state `s`. -/
theorem view_compare {a b : Int} (ha : Within 0xffff a) (hb : Within 0xffff b)
    (cond : Condition) :
    view ((skipIf bd cond.code ((sub a b).run s).1).run ((sub a b).run s).2).2 =
      if cond.holds a b then skipped (subView (view s) a b) else subView (view s) a b := by
  rw [sub_run, view_skipIf]
  have h := skip_sub { s with reg := subFlags s.reg a b } ha hb cond ⟨_, rfl⟩
  by_cases hcond : cond.holds a b
  · rw [if_pos hcond, if_pos (h.mpr hcond)]
    rfl
  · rw [if_neg hcond, if_neg (mt h.mp hcond)]
    rfl

/-- The low byte of an operand. -/
theorem within_byte (x : Int) : Within 0xffff (x % 256) := by
  constructor <;> omega

variable {s} in
/-- The view after a comparison. -/
theorem view_after {o b : Int} (hs : Bounded o b s.reg) (insn : CompareInsn) (cond : Condition) :
    view (after bd (insn.word cond.code) s) =
      (let c := subView (insn.fetched (view s)) (insn.left s.reg) (insn.right (view s))
       if cond.holds (insn.left s.reg) (insn.right (view s)) then skipped c else c) := by
  have hk := skip_range cond.code
  cases insn with
  | C d t =>
      obtain ⟨hk, h2, h3, h10, h7, h4⟩ := low_fields (j := 8 + (t.val : Int))
        (skip_range cond.code) (by omega)
      have ht : (8 + (t.val : Int)) % 8 = t.val := by omega
      have h3' : (8 + (t.val : Int)) / 8 = 1 := by omega
      rw [after, CompareInsn.word, execute_0a bd (by omega) (by omega), exec0a, hk, h2, h3, h10, h7,
        ht, h3', if_neg (register_ne d), if_neg (by omega), if_neg (by omega), if_pos rfl, run_bind,
        gr_run, run_bind, run_bind, gr_run]
      exact view_compare bd s (within_general hs d) (within_general hs t) cond
  | CWR i =>
      obtain ⟨hk, h2, h3, h10, h7, h4⟩ := low_fields (j := 8 + (i.val : Int))
        (skip_range cond.code) (by omega)
      have hi : (8 + (i.val : Int)) % 4 = i.val := by omega
      have h2' : (8 + (i.val : Int)) / 4 = 2 := by omega
      obtain ⟨s₁, hread, hview⟩ := rdC_run bd s (s.reg.R i.succ)
      rw [after, CompareInsn.word, execute_0a bd (by omega) (by omega), exec0a, hk, h2, h2', h10, hi,
        if_pos rfl, if_neg (by omega), if_pos rfl, run_bind, reg_run, run_bind, run_bind, run_bind,
        ri_run, hread]
      have h := view_compare bd s₁ (hs.R 0) (within_codeValue (view s) (s.reg.R i.succ)) cond
      rw [hview] at h
      exact h
  | CWI d =>
      obtain ⟨hk, h2, h3, h10, h7, h4⟩ := low_fields (skip_range cond.code)
        (show 0 ≤ (15 : Int) ∧ (15 : Int) < 16 by decide)
      rw [after, CompareInsn.word, execute_0a bd (by omega) (by omega), exec0a, hk, h2, h3, h10, h7,
        if_neg (register_ne d), if_pos (by decide), run_bind, fetch_value, run_bind, run_bind, gr_run,
        general_fetch]
      have h := view_compare bd ((fetch bd).run s).2 (within_general hs d)
        (within_codeValue (view s) s.reg.IC) cond
      rw [view_fetch] at h
      exact h
  | CB d t =>
      obtain ⟨hk, h2, h3, h10, h7, h4⟩ := low_fields (j := (t.val : Int)) (skip_range cond.code)
        (by omega)
      have ht : (t.val : Int) % 8 = t.val := by omega
      have h3' : (t.val : Int) / 8 = 0 := by omega
      rw [after, CompareInsn.word, execute_0a bd (by omega) (by omega), exec0a, hk, h2, h3, h10, h7,
        ht, h3', if_neg (register_ne d), if_neg (by omega), if_neg (by omega), if_neg (by omega),
        run_bind, gr_run, run_bind, run_bind, gr_run, land_ff, land_ff]
      exact view_compare bd s (within_byte _) (within_byte _) cond
  | CBR i =>
      obtain ⟨hk, h2, h3, h10, h7, h4⟩ := low_fields (j := (i.val : Int)) (skip_range cond.code)
        (by omega)
      have hi : (i.val : Int) % 4 = i.val := by omega
      have h2' : (i.val : Int) / 4 = 0 := by omega
      obtain ⟨s₁, hread, hview⟩ := rdC_run bd s (s.reg.R i.succ)
      rw [after, CompareInsn.word, execute_0a bd (by omega) (by omega), exec0a, hk, h2, h2', h10, hi,
        if_pos rfl, if_neg (by omega), if_neg (by decide), run_bind, reg_run, run_bind, run_bind,
        run_bind, ri_run, hread, land_ff, land_ff]
      have h := view_compare bd s₁ (within_byte (s.reg.R 0))
        (within_byte (codeValue (view s) (s.reg.R i.succ))) cond
      rw [hview] at h
      exact h
  | CBI d =>
      obtain ⟨hk, h2, h3, h10, h7, h4⟩ := low_fields (skip_range cond.code)
        (show 0 ≤ (7 : Int) ∧ (7 : Int) < 16 by decide)
      rw [after, CompareInsn.word, execute_0a bd (by omega) (by omega), exec0a, hk, h2, h3, h10, h7,
        if_neg (register_ne d), if_neg (by decide), if_pos (by decide), run_bind, fetch_value,
        run_bind, run_bind, gr_run, general_fetch, land_ff, land_ff]
      have h := view_compare bd ((fetch bd).run s).2 (within_byte (general s.reg d))
        (within_byte (codeValue (view s) s.reg.IC)) cond
      rw [view_fetch] at h
      exact h

end Execution

section Main

variable {σ : Type} (bd : Board σ) {a b : Int} {r : CPURegister}

/-- A subtraction leaves the status word as it was when its flags were set before. -/
theorem subFlags_self (hSTR : Within 0xffff r.STR) (ha : Within 0xffff a) (hb : Within 0xffff b) :
    (subFlags r a b).STR = r.STR ↔ (r.E = true ↔ a < b) ∧
      (r.V = true ↔ ¬ Fits 65536 (signed 65536 a - signed 65536 b)) := by
  constructor
  · intro h
    rw [← E_of_STR h, ← V_of_STR h, subFlags_E, subFlags_V ha hb]
    exact ⟨⟨by omega, by omega⟩, Iff.rfl⟩
  · rintro ⟨hE, hV⟩
    have hborrow : decide (a - b < 0) = r.E := by
      rw [Bool.eq_iff_iff, decide_eq_true_iff, hE]
      omega
    have hover : decide (land (land (lxor a b) (lxor a (a - b))) 0x8000 ≠ 0) = r.V := by
      rw [Bool.eq_iff_iff, decide_eq_true_iff, hV]
      exact sub_overflow ha hb
    rw [subFlags, hborrow, hover, withE_self hSTR, withV_self hSTR]

theorem within_left {o b : Int} (hr : Bounded o b r) (insn : CompareInsn) :
    Within 0xffff (insn.left r) := by
  cases insn with
  | C d s => exact within_general hr d
  | CWR i => exact hr.R 0
  | CWI d => exact within_general hr d
  | CB d s => exact within_byte _
  | CBR i => exact within_byte _
  | CBI d => exact within_byte _

theorem within_right {o b : Int} {c : View} (hr : Bounded o b c.1) (insn : CompareInsn) :
    Within 0xffff (insn.right c) := by
  cases insn with
  | C d s => exact within_general hr s
  | CWR i => exact within_codeValue _ _
  | CWI d => exact within_codeValue _ _
  | CB d s => exact within_byte _
  | CBR i => exact within_byte _
  | CBI d => exact within_byte _

/-- The fetch of the second word changes `IC` only. -/
theorem exists_fetched (insn : CompareInsn) (c : View) :
    ∃ ic, insn.fetched c = ({ c.1 with IC := ic }, c.2) := by
  cases insn with
  | CWI d => exact ⟨_, rfl⟩
  | CBI d => exact ⟨_, rfl⟩
  | C d s => exact ⟨c.1.IC, rfl⟩
  | CWR i => exact ⟨c.1.IC, rfl⟩
  | CB d s => exact ⟨c.1.IC, rfl⟩
  | CBR i => exact ⟨c.1.IC, rfl⟩

/-- The skip law holds in any case. -/
theorem view_after_eq {o b : Int} (insn : CompareInsn) (cond : Condition) (s : Cpu σ)
    (hs : Bounded o b s.reg) :
    view (after bd (insn.word cond.code) s) =
      ({ subFlags s.reg (insn.left s.reg) (insn.right (view s)) with
        IC := if cond.holds (insn.left s.reg) (insn.right (view s))
          then (skipped (insn.fetched (view s))).1.IC else (insn.fetched (view s)).1.IC }, s.mem) := by
  obtain ⟨ic, hic⟩ := exists_fetched insn (view s)
  rw [view_after bd hs, hic]
  by_cases h : cond.holds (insn.left s.reg) (insn.right (view s))
  · rw [if_pos h, if_pos h]
    rfl
  · rw [if_neg h, if_neg h]
    rfl

/-- Of the registers only the status word may change. -/
theorem compares_iff {o b : Int} (insn : CompareInsn) (cond : Condition) (s : Cpu σ)
    (hs : Bounded o b s.reg) :
    insn.Compares cond (view s) (view (after bd (insn.word cond.code) s)) ↔
      (subFlags s.reg (insn.left s.reg) (insn.right (view s))).STR = s.reg.STR := by
  have hview := view_after_eq bd insn cond s hs
  constructor
  · intro h
    have hSTR := congrArg CPURegister.STR h.registers
    rw [hview] at hSTR
    exact hSTR
  · intro h
    rw [hview]
    refine ⟨rfl, ?_, rfl⟩
    exact congrArg (fun x => ({ s.reg with STR := x, IC := _ } : CPURegister)) h

/-- Compare-and-skip: from every state whose registers are in their widths, a comparison
skips by the order of its operands and changes nothing but `IC`, if and only if E and V
already are the flags of the difference. -/
theorem compare_and_skip {o b : Int} (insn : CompareInsn) (cond : Condition) (s : Cpu σ)
    (hs : Bounded o b s.reg) :
    insn.Compares cond (view s) (view (after bd (insn.word cond.code) s)) ↔
      insn.FlagsAgree (view s) := by
  rw [compares_iff bd insn cond s hs]
  exact subFlags_self hs.STR (within_left hs insn) (within_right hs insn)

/-- `C R0, R1, Z` on equal words, with E and V clear. -/
theorem compare_and_skip_equal :
    (CompareInsn.C 0 1).Compares .Z (view (sample 1 1))
        (view (after .default ((CompareInsn.C 0 1).word Condition.Z.code) (sample 1 1))) ↔
      (CompareInsn.C 0 1).FlagsAgree (view (sample 1 1)) :=
  compare_and_skip .default (.C 0 1) .Z (sample 1 1)
    (sample_bounded ⟨by decide, by decide⟩ ⟨by decide, by decide⟩)

/-- The comparison of 0 with 1 sets E, which was clear. -/
theorem compare_sets_E :
    ¬ (CompareInsn.C 0 1).Compares .Z (view (sample 0 1))
      (view (after .default ((CompareInsn.C 0 1).word Condition.Z.code) (sample 0 1))) := by
  intro h
  have hSTR := congrArg CPURegister.STR h.registers
  revert hSTR
  decide

end Main

end Mn1613
end RetroCpu
