import RetroCpu.EmuTs.Mn1613Nesting
import RetroCpu.Mn1613.Arithmetic
import RetroCpu.Mn1613.StepEquiv

/-!
# Multi-precision integers by AD and SD

Integers of `2 * n` words are added or subtracted in double words, from the least
significant one upwards: the first without carry, the others with the carry that E has kept
since the one before.  `LongCore` is what this needs of a core; both cores are one.
-/

namespace RetroCpu
namespace Mn1613

open Js Prog Carry
open EmuTs.Mn1613

/-- Addition or subtraction of double words. -/
inductive LongOp
  | add
  | sub
deriving DecidableEq, Repr

/-- AD or SD. -/
def LongOp.insn : LongOp → Fin 2 → Fin 4 → IntegerInsn
  | .add => .AD
  | .sub => .SD

/-- 1 for an addition, -1 for a subtraction. -/
def LongOp.factor : LongOp → Int
  | .add => 1
  | .sub => -1

theorem LongOp.factor_cases (op : LongOp) : op.factor = 1 ∨ op.factor = -1 := by
  cases op with
  | add => exact .inl rfl
  | sub => exact .inr rfl

/-- A core that executes AD and SD one column of a chain at a time. -/
structure LongCore (S : Type) where
  view : S → View
  step : S → S
  /-- The next step executes this word, and accepts no interrupt before. -/
  executes : S → Int → Prop
  column : ∀ (op : LongOp) (c : Fin 2) (i : Fin 4) (k : Fin 16) (s : S),
    executes s ((op.insn c i).word k) →
    Column (2 ^ 32) (op.factor * (view s).1.carryIn c)
      (doubleRegister (view s).1 + op.factor * codeLong (view s) ((view s).1.R i.succ))
      (doubleRegister (view (step s)).1) (op.factor * carryBit (view (step s)).1)

section Column

variable {σ : Type} (bd : Board σ)

/-- AD and SD compute a column. -/
theorem long_column (op : LongOp) (c : Fin 2) (i : Fin 4) (k : Fin 16) (s : Cpu σ)
    (hs : ∀ j, Within 0xffff (s.reg.R j)) :
    Column (2 ^ 32) (op.factor * s.reg.carryIn c)
      (doubleRegister s.reg + op.factor * codeLong (view s) (s.reg.R i.succ))
      (doubleRegister (after bd ((op.insn c i).word k) s).reg)
      (op.factor * carryBit (after bd ((op.insn c i).word k) s).reg) := by
  have he := carryIn_cases s.reg c
  obtain ⟨hd0, hd1⟩ := within_double hs
  obtain ⟨hm0, hm1⟩ := within_codeLong (view s) (s.reg.R i.succ)
  cases op with
  | add =>
      have hword : after bd ((LongOp.add.insn c i).word k) s = _ :=
        congrArg (fun m => (m.run s).2) (execute_09 bd (by omega) (by omega))
      have hl := leaves_AD bd s k c i
      rw [← hword] at hl
      obtain ⟨hdouble, hE, -⟩ := double_outcome (by rw [ushr_zero_emod]; omega)
        (by rw [ushr_zero_emod]; omega) hl
      rw [hdouble, carryBit, hE, ushr_zero_emod]
      refine ⟨?_, ?_, ?_⟩
      · omega
      · omega
      · simp only [LongOp.factor, decide_eq_true_eq]
        split_ifs <;> omega
  | sub =>
      have hword : after bd ((LongOp.sub.insn c i).word k) s = _ :=
        congrArg (fun m => (m.run s).2) (execute_08 bd (by omega) (by omega))
      have hl := leaves_SD bd s k c i
      rw [← hword] at hl
      obtain ⟨hdouble, hE, -⟩ := double_outcome (by split_ifs <;> omega)
        (by split_ifs <;> omega) hl
      rw [hdouble, carryBit, hE]
      refine ⟨?_, ?_, ?_⟩
      · split_ifs <;> omega
      · split_ifs <;> omega
      · simp only [LongOp.factor, decide_eq_true_eq]
        split_ifs <;> omega

/-- A step that accepts no interrupt computes a column. -/
theorem step_column (op : LongOp) (c : Fin 2) (i : Fin 4) (k : Fin 16) (s : Cpu σ)
    (hs : ∀ j, Within 0xffff (s.reg.R j)) (hirq : irqLevel s = none)
    (hword : (fetchInstruction bd s).1 = (op.insn c i).word k) :
    Column (2 ^ 32) (op.factor * s.reg.carryIn c)
      (doubleRegister s.reg + op.factor * codeLong (view s) (s.reg.R i.succ))
      (doubleRegister (stepOne bd s).reg) (op.factor * carryBit (stepOne bd s).reg) := by
  have hview := view_fetchInstruction bd s
  have hreg : (fetchInstruction bd s).2.reg = { s.reg with IC := land (s.reg.IC + 1) 0xffff } :=
    congrArg Prod.fst hview
  have hcolumn := long_column bd op c i k (fetchInstruction bd s).2 (by rw [hreg]; exact hs)
  rw [stepOne_advance bd hirq, advance, hword]
  rw [hview, hreg] at hcolumn
  exact hcolumn

/-- The TypeScript core, with its registers in their widths. -/
def tsCore : LongCore { s : Cpu σ // Bounded 0xffff 0xffff s.reg } where
  view s := view s.1
  step s := ⟨stepOne bd s.1, (stepOne_ok (W := Scope.plain bd fun _ => False) bd
    (fun _ h => h) ⟨s.2, trivial⟩).1⟩
  executes s w := irqLevel s.1 = none ∧ (fetchInstruction bd s.1).1 = w
  column op c i k s h := step_column bd op c i k s.1 s.2.R h.1 h.2

end Column

section Rust

open Simulation

variable {σ : Type} (io : EmuRs.Mn1613.Io σ)

/-- No double-word instruction is a floating-point one. -/
theorem long_not_float (op : LongOp) (c : Fin 2) (i : Fin 4) (k : Fin 16) :
    ¬ isFloat (BitVec.ofInt 16 ((op.insn c i).word k)) := by
  have hadd : ∀ (c : Fin 2) (i : Fin 4) (k : Fin 16),
      ¬ isFloat (BitVec.ofInt 16 ((IntegerInsn.AD c i).word k)) := by decide
  have hsub : ∀ (c : Fin 2) (i : Fin 4) (k : Fin 16),
      ¬ isFloat (BitVec.ofInt 16 ((IntegerInsn.SD c i).word k)) := by decide
  cases op with
  | add => exact hadd c i k
  | sub => exact hsub c i k

/-- The instruction words that the two cores fetch in the same state. -/
theorem fetchInstruction_eq (d : Device σ) {s : Cpu σ} {t : EmuRs.Mn1613.Core σ} (hR : Rel s t)
    (hirq : irqLevel s = none) : (fetchInstruction d.board s).1 = num (nextWord t) := by
  have hpre : Sim' num (do EmuTs.Mn1613.checkIRQ d.board; EmuTs.Mn1613.fetch d.board)
      (do EmuRs.Mn1613.checkIrq; EmuRs.Mn1613.fetch : EmuRs.Mn1613.M σ (BitVec 16)) :=
    Sim.bind (checkIRQ_sim d) fun _ => fetch_sim d
  have hword := (hpre s t hR).1
  rw [run_bind, checkIRQ_none d.board hirq] at hword
  exact hword

/-- The Rust core. -/
def rsCore : LongCore (EmuRs.Mn1613.Core σ) where
  view := viewRs
  step := EmuRs.Mn1613.step io
  executes t w := EmuRs.Mn1613.irqLevel t = none ∧ num (nextWord t) = w
  column op c i k t h := by
    obtain ⟨hirq, hword⟩ := h
    have hR := rel_fromRs t
    have hirq' : irqLevel (fromRs t) = none := (irqLevel_eq hR).trans hirq
    have hfloat : ¬ isFloat (nextWord t) := by
      rw [← ofInt_num (nextWord t), hword]
      exact long_not_float op c i k
    have hstep := executeOne_rel (Device.ofIo io) hR hfloat
    rw [Device.io_ofIo] at hstep
    have hcolumn := step_column (Device.ofIo io).board op c i k (fromRs t)
      (fun j => within_num _) hirq' ((fetchInstruction_eq _ hR hirq').trans hword)
    rw [stepOne, hstep.reg] at hcolumn
    exact hcolumn

end Rust

section Integers

variable (c : View) (la : Int)

/-- The big-endian integer in `m` words of the code segment from `la` on. -/
def integerAt : Nat → Int
  | 0 => 0
  | m + 1 => integerAt m * 65536 + codeValue c (land (la + m) 0xffff)

/-- The double words of an integer of `2 * n` words, the least significant one first. -/
def chunks : Nat → List Int
  | 0 => []
  | n + 1 => codeLong c (land (la + ((2 * n : Nat) : Int)) 0xffff) :: chunks n

theorem chunks_length (n : Nat) : (chunks c la n).length = n := by
  induction n with
  | zero => rfl
  | succ n ih => rw [chunks, List.length_cons, ih]

/-- An integer is the value of its double words. -/
theorem value_chunks (n : Nat) : value (2 ^ 32) (chunks c la n) = integerAt c la (2 * n) := by
  induction n with
  | zero => rfl
  | succ n ih =>
      have hnext : land (land (la + ((2 * n : Nat) : Int)) 0xffff + 1) 0xffff =
          land (la + ((2 * n + 1 : Nat) : Int)) 0xffff := by
        simp only [land_ffff]
        omega
      rw [chunks, value_cons, ih, codeLong, hnext, Nat.mul_succ, integerAt, integerAt]
      ring

end Integers

section Runs

variable {S : Type} (M : LongCore S) (op : LongOp)

/-- A step that leaves E as it was. -/
def LongCore.KeepsE (s t : S) : Prop := t = M.step s ∧ (M.view t).1.E = (M.view s).1.E

/-- A step that executes AD or SD on the double words `p` and leaves `d` in `R0`, `R1`. -/
def LongCore.Computes (c : Fin 2) (t u : S) (p : Int × Int) (d : Int) : Prop :=
  ∃ i k, M.executes t ((op.insn c i).word k) ∧ doubleRegister (M.view t).1 = p.1 ∧
    codeLong (M.view t) ((M.view t).1.R i.succ) = p.2 ∧ u = M.step t ∧
    d = doubleRegister (M.view u).1

/-- A run over the double words `ps` of two integers: after any number of steps the first
pair without carry, and then the others with carry, between which E is kept. -/
inductive LongCore.Run (s : S) : List (Int × Int) → List Int → S → Prop
  | mk {u v : S} {p : Int × Int} {d : Int} {ps : List (Int × Int)} {ds : List Int} (m : Nat)
      (head : M.Computes op 1 (M.step^[m] s) u p d)
      (tail : Chain M.KeepsE (M.Computes op 0) u ps ds v) : LongCore.Run s (p :: ps) (d :: ds) v

/-- The carry of a chain: a borrow counts negative. -/
def LongCore.carry (s : S) : Int := op.factor * carryBit (M.view s).1

variable {M op}

theorem LongCore.Computes.column {c : Fin 2} {t u : S} {p : Int × Int} {d : Int}
    (h : M.Computes op c t u p d) :
    Column (2 ^ 32) (op.factor * (M.view t).1.carryIn c) (p.1 + op.factor * p.2) d
      (M.carry op u) := by
  obtain ⟨i, k, hexec, hleft, hright, hu, hd⟩ := h
  have hcolumn := M.column op c i k t hexec
  rw [hleft, hright, ← hu, ← hd] at hcolumn
  exact hcolumn

/-- A run over double words is a chain of columns. -/
theorem LongCore.Run.columns {s v : S} {ps : List (Int × Int)} {ds : List Int}
    (h : M.Run op s ps ds v) :
    Columns (2 ^ 32) 0 (ps.map fun p => p.1 + op.factor * p.2) ds (M.carry op v) := by
  obtain ⟨m, head, tail⟩ := h
  have hfirst := head.column
  have hnone := carryIn_one (M.view (M.step^[m] s)).1
  have hkeep : ∀ s t, M.KeepsE s t → M.carry op t = M.carry op s := by
    rintro s t ⟨-, hE⟩
    rw [LongCore.carry, LongCore.carry, carryBit, carryBit, hE]
  have hrest : Columns (2 ^ 32) _ (_ : List Int) (_ : List Int) (M.carry op v) :=
    tail.columns hkeep fun t u p d hstep => by
      have hcolumn : Column _ _ _ (id d) _ := hstep.column
      have hcarry := carryIn_zero (M.view t).1
      rw [show (((0 : Fin 2) : Nat) : Int) = 0 from rfl, hcarry] at hcolumn
      exact hcolumn
  rw [show (((1 : Fin 2) : Nat) : Int) = 1 from rfl, hnone, mul_zero] at hfirst
  rw [List.map_id] at hrest
  exact .cons hfirst hrest

/-- The pairs of double words of two integers in memory. -/
def operandPairs (c : View) (la lb : Int) (n : Nat) : List (Int × Int) :=
  (chunks c la n).zip (chunks c lb n)

/-- The double words `ds` are the sum or difference of the integers of `2 * n` words at `la`
and `lb`, modulo their width, and `E` is its carry or borrow. -/
structure LongResult (op : LongOp) (c : View) (la lb : Int) (n : Nat) (ds : List Int)
    (E : Bool) : Prop where
  digits : value (2 ^ 32) ds =
    (integerAt c la (2 * n) + op.factor * integerAt c lb (2 * n)) % 2 ^ (32 * n)
  carry : E = true ↔ integerAt c la (2 * n) + op.factor * integerAt c lb (2 * n) < 0 ∨
    2 ^ (32 * n) ≤ integerAt c la (2 * n) + op.factor * integerAt c lb (2 * n)

theorem LongCore.Run.result {s v : S} {la lb : Int} {n : Nat} {ds : List Int}
    (h : M.Run op s (operandPairs (M.view s) la lb n) ds v) :
    LongResult op (M.view s) la lb n ds (M.view v).1.E := by
  have hcolumns := h.columns
  have hlength : (chunks (M.view s) la n).length = (chunks (M.view s) lb n).length := by
    rw [chunks_length, chunks_length]
  have hn : ((operandPairs (M.view s) la lb n).map fun p => p.1 + op.factor * p.2).length = n := by
    rw [List.length_map, operandPairs, List.length_zip, chunks_length, chunks_length, min_self]
  have hvalue := hcolumns.value_eq (by decide)
  have hcarry := hcolumns.carry_eq (by decide)
  rw [hn, operandPairs, value_columns _ _ hlength, value_chunks, value_chunks, add_zero,
    ← pow_mul] at hvalue hcarry
  have hpos := Nat.two_pow_pos (32 * n)
  exact ⟨hvalue, carry_iff op.factor_cases (by exact_mod_cast hpos) hcarry⟩

end Runs

/-- A Rust core in a memory of `AD DR0, (R1), C` that has the same words in `R0` and `R1`. -/
def longSampleRs : EmuRs.Mn1613.Core Unit :=
  let s : Cpu Unit := Cpu.initial (fun _ => 0x4f0c#16) ()
  let R := Function.update (Function.update s.reg.R 0 0x4f0c) 1 0x4f0c
  toRs { s with reg := { s.reg with R := R } }

/-- The same state of the TypeScript core. -/
def longSample : { s : Cpu Unit // Bounded 0xffff 0xffff s.reg } :=
  ⟨{ Cpu.initial (fun _ => 0x4f0c#16) () with reg := (sample 0x4f0c 0x4f0c).reg },
    { bounded_initial (by decide) (by decide) with
      R := within_update (within_update (fun _ => within_zero (by decide)) 0
        ⟨by decide, by decide⟩) 1 ⟨by decide, by decide⟩ }⟩

end Mn1613
end RetroCpu
