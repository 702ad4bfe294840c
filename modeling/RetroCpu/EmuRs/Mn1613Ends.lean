import RetroCpu.EmuRs.Mn1613Checked
import Mathlib.Tactic.NormNum

/-!
# The Rust MN1613 core returns

Each function of the checked core computes what the same function of `Mn1613Exec` does:
every checked operator is in range, and the loop of BLK ends.
-/

namespace RetroCpu
namespace EmuRs
namespace Mn1613Checked

open CheckedBuild Prog RetroCpu.Mn1613
open Mn1613 (U8 U16 U32 Core CpuRegister Io reg)

variable {σ : Type}

theorem and_toNat_le (v m : U16) : (v &&& m).toNat ≤ m.toNat := by
  rw [BitVec.toNat_and]
  exact Nat.and_le_right

section Ranges

variable {w : Nat} {a b : BitVec w}

theorem addS_in_range (hlo : -2 ^ (w - 1) ≤ a.toInt + b.toInt) (hhi : a.toInt + b.toInt < 2 ^ (w - 1)) :
    BitVec.saddOverflow a b = false := by
  simp only [BitVec.saddOverflow, Bool.or_eq_false_iff, decide_eq_false_iff_not]
  omega

theorem subS_in_range (hlo : -2 ^ (w - 1) ≤ a.toInt - b.toInt) (hhi : a.toInt - b.toInt < 2 ^ (w - 1)) :
    BitVec.ssubOverflow a b = false := by
  simp only [BitVec.ssubOverflow, Bool.or_eq_false_iff, decide_eq_false_iff_not]
  omega

theorem toInt_addS (h : BitVec.saddOverflow a b = false) : (a + b).toInt = a.toInt + b.toInt :=
  BitVec.toInt_add_of_not_saddOverflow (ne_true_of_eq_false h)

theorem toInt_subS (h : BitVec.ssubOverflow a b = false) : (a - b).toInt = a.toInt - b.toInt :=
  BitVec.toInt_sub_of_not_ssubOverflow (ne_true_of_eq_false h)

end Ranges

section Registers

theorem computes_riIndex (ii : U16) :
    Computes (riIndex ii : M σ (Fin 5)) (pure (Mn1613.riIndex ii)) := by
  have hle : (ii &&& 3).toNat ≤ 3 := and_toNat_le ii 3
  have hone : (1 : U16).toNat = 1 := by decide
  have hadd : BitVec.uaddOverflow (ii &&& 3) 1 = false := by
    simp only [BitVec.uaddOverflow, decide_eq_false_iff_not, hone]
    omega
  have hval : ((ii &&& 3) + 1).toNat = (ii &&& 3).toNat + 1 := by
    rw [BitVec.toNat_add, hone]
    omega
  have hlt : ((ii &&& 3) + 1).toNat < 5 := by omega
  have hindex : (⟨((ii &&& 3) + 1).toNat, hlt⟩ : Fin 5) = Mn1613.riIndex ii := by
    apply Fin.ext
    rw [Mn1613.riIndex, Fin.ofNat, ← hval]
    exact (Nat.mod_eq_of_lt hlt).symm
  rw [← hindex]
  exact (Computes.ensure hadd).value_bind (Computes.index hlt)

theorem computes_ri (ii : U16) : Computes (ri ii : M σ U16) (Mn1613.ri ii) :=
  (computes_riIndex ii).value_bind (Computes.ofState _)

theorem computes_riSet (ii v : U16) : Computes (riSet ii v : M σ Unit) (Mn1613.riSet ii v) :=
  (computes_riIndex ii).value_bind (Computes.ofState _)

theorem computes_add16 (a b : U16) : Computes (add16 a b : M σ U16) (Mn1613.add16 a b) := by
  have ha := a.isLt
  have hb := b.isLt
  have hsum : BitVec.uaddOverflow (a.setWidth 32) (b.setWidth 32) = false := by
    simp [BitVec.uaddOverflow]
    omega
  exact (Computes.ensure hsum).value_bind (Computes.ofState _)

/-- A word as an `i32`. -/
theorem toInt_word {w : Nat} (hw : 17 ≤ w) (a : U16) : (a.setWidth w).toInt = a.toNat := by
  have hnat : (a.setWidth w).toNat = a.toNat := BitVec.toNat_setWidth_of_le (by omega)
  have hpow : 2 ^ 17 ≤ 2 ^ w := Nat.pow_le_pow_right (by omega) hw
  have := a.isLt
  rw [BitVec.toInt_eq_toNat_of_lt (by omega), hnat]

theorem subS_words (a b : U16) :
    BitVec.ssubOverflow (a.setWidth 32) (b.setWidth 32) = false := by
  have ha := a.isLt
  have hb := b.isLt
  apply subS_in_range <;> rw [toInt_word (by omega), toInt_word (by omega)] <;> norm_num <;> omega

theorem computes_sub16 (a b : U16) : Computes (sub16 a b : M σ U16) (Mn1613.sub16 a b) :=
  (Computes.ensure (subS_words a b)).value_bind (Computes.ofState _)

theorem computes_displacement {d : U16} (hd : d.toNat < 256) :
    Computes (displacement d : M σ U16) (pure (if d < 0x80 then d else d - 0x100)) := by
  by_cases hlt : d < 0x80
  · simp only [displacement, if_pos hlt]
    exact Computes.pure d
  · simp only [displacement, if_neg hlt]
    apply Computes.ensure
    have hint : d.toInt = d.toNat := BitVec.toInt_eq_toNat_of_lt (by omega)
    have hconst : (0x100 : U16).toInt = 256 := by decide
    apply subS_in_range <;> rw [hint, hconst] <;> norm_num <;> omega

theorem computes_ea (mmm : U16) {d : U16} (hd : d.toNat < 256) :
    Computes (ea mmm d : M σ U16) (Mn1613.ea mmm d) :=
  (computes_displacement hd).value_bind (Computes.ofState _)

end Registers

section Interrupt

theorem computes_acceptIrq (lv : Mn1613.Level) :
    Computes (acceptIrq lv.val : M σ Unit) (Mn1613.acceptIrq lv) := by
  have hlt := lv.isLt
  apply (Computes.ensure (by omega)).value_bind
  apply (Computes.index (by omega)).value_bind
  apply (Computes.ensure (by omega)).value_bind
  apply (Computes.ensure (by omega)).value_bind
  exact Computes.ofState _

/-- The loop of `handle_irq` accepts the first acceptable level. -/
theorem handleIrqFrom_run (levels : List Mn1613.Level) (s : Core σ) :
    (handleIrqFrom (levels.map fun lv => lv.val)).run s =
      .ok ((match levels.find? (Mn1613.acceptable s) with
        | some lv => Mn1613.acceptIrq lv
        | none => pure () : Mn1613.M σ Unit).run s) := by
  induction levels with
  | nil => rfl
  | cons lv levels ih =>
      have hlt := lv.isLt
      have hshl : (shl (1 : U8) lv.val : M σ U8).run s = .ok ((1 : U8) <<< lv.val, s) :=
        Computes.ensure (by omega) s
      have hget : (get : M σ (Core σ)).run s = .ok (s, s) := rfl
      have hindex : (index 3 lv.val : M σ (Fin 3)).run s = .ok (lv, s) := Computes.index hlt s
      have hacc : Mn1613.acceptable s lv = true ↔ s.pendingIrq &&& ((1 : U8) <<< lv.val) ≠ 0 ∧
          s.regs.str &&& Mn1613.levelMask lv ≠ 0 := by
        rw [Mn1613.acceptable, Bool.and_eq_true, decide_eq_true_eq, decide_eq_true_eq]
      simp only [List.map_cons, handleIrqFrom]
      rw [run_bind_ok hshl, run_bind_ok hget]
      by_cases hpending : s.pendingIrq &&& ((1 : U8) <<< lv.val) ≠ 0
      · rw [if_pos hpending, run_bind_ok hindex]
        by_cases hmask : s.regs.str &&& Mn1613.levelMask lv ≠ 0
        · rw [if_pos hmask, List.find?_cons_of_pos (hacc.mpr ⟨hpending, hmask⟩)]
          exact computes_acceptIrq lv s
        · rw [if_neg hmask, List.find?_cons_of_neg fun h => hmask (hacc.mp h).2]
          exact ih
      · rw [if_neg hpending, List.find?_cons_of_neg fun h => hpending (hacc.mp h).1]
        exact ih

theorem computes_handleIrq : Computes (handleIrq : M σ Unit) Mn1613.handleIrq :=
  fun s => handleIrqFrom_run [0, 1, 2] s

theorem computes_trapUndefined : Computes (trapUndefined : M σ Unit) Mn1613.trapUndefined :=
  (Computes.ofState _).bind fun _ => computes_acceptIrq 0

theorem computes_checkIrq : Computes (checkIrq : M σ Unit) Mn1613.checkIrq := by
  intro s
  have hget : (get : M σ (Core σ)).run s = .ok (s, s) := rfl
  rw [checkIrq, run_bind_ok hget]
  by_cases hpending : s.pendingIrq ≠ 0
  · rw [if_pos hpending, Mn1613.checkIrq_pending hpending]
    exact computes_handleIrq s
  · rw [if_neg hpending, Mn1613.checkIrq_idle (not_not.mp hpending)]
    rfl

end Interrupt

section Helpers

theorem computes_ladNibble (a b res : U16) {shift : Nat} (h : shift < 16) :
    Computes (ladNibble a b res shift : M σ U16) (pure (Mn1613.ladNibble a b res shift)) := by
  have ha : ((a >>> shift) &&& 0xf).toNat ≤ 15 := and_toNat_le _ 0xf
  have hb : ((b >>> shift) &&& 0xf).toNat ≤ 15 := and_toNat_le _ 0xf
  have hsum : BitVec.uaddOverflow ((a >>> shift) &&& 0xf) ((b >>> shift) &&& 0xf) = false := by
    simp only [BitVec.uaddOverflow, decide_eq_false_iff_not]
    omega
  apply (Computes.ensure h).value_bind
  apply (Computes.ensure h).value_bind
  apply (Computes.ensure hsum).value_bind
  apply (Computes.ensure h).value_bind
  exact Computes.pure _

theorem computes_ladResult (a b : U16) :
    Computes (ladResult a b : M σ U16) (pure (Mn1613.ladResult a b)) := by
  refine Computes.foldlM (fun shift hshift res => ?_) 0
  apply computes_ladNibble
  simp only [List.mem_cons, List.not_mem_nil, or_false] at hshift
  omega

theorem computes_bitMask (n : U16) :
    Computes (bitMask (n &&& 0xf) : M σ U16) (pure (Mn1613.bitMask (n &&& 0xf))) := by
  have hle : (n &&& 0xf).toNat ≤ 15 := and_toNat_le n 0xf
  have h15 : (15 : U16).toNat = 15 := by decide
  have hsub : BitVec.usubOverflow 15 (n &&& 0xf) = false := by
    simp only [BitVec.usubOverflow, decide_eq_false_iff_not, h15]
    omega
  have hcount : (15 - (n &&& 0xf)).toNat < 16 := by
    rw [BitVec.toNat_sub, h15]
    omega
  exact (Computes.ensure hsub).value_bind (Computes.ensure hcount)

theorem computes_srbtFrom (v : U16) {bits : List Nat} (h : ∀ b ∈ bits, b ≤ 15) :
    Computes (srbtFrom v bits : M σ (U16 × U16))
      (pure (match bits.find? (fun b => (v >>> b) &&& 1 ≠ 0) with
        | some b => (15 - BitVec.ofNat 16 b, v &&& ~~~((1 : U16) <<< b))
        | none => (0x10, v))) := by
  induction bits with
  | nil => exact Computes.pure _
  | cons b bits ih =>
      have hb : b ≤ 15 := h b (by simp)
      have h15 : (15 : U16).toNat = 15 := by decide
      have hsub : BitVec.usubOverflow 15 (BitVec.ofNat 16 b) = false := by
        simp only [BitVec.usubOverflow, decide_eq_false_iff_not, h15, BitVec.toNat_ofNat]
        omega
      apply (Computes.ensure (by omega)).value_bind
      by_cases hset : (v >>> b) &&& 1 ≠ 0
      · rw [if_pos hset, List.find?_cons_of_pos (by simpa using hset)]
        apply (Computes.ensure hsub).value_bind
        apply (Computes.ensure (by omega)).value_bind
        exact Computes.pure _
      · rw [if_neg hset, List.find?_cons_of_neg (by simpa using hset)]
        exact ih fun b hb => h b (by simp [hb])

theorem computes_srbt (v : U16) :
    Computes (srbtFrom v Mn1613.srbtBits : M σ (U16 × U16)) (pure (Mn1613.srbt v)) :=
  computes_srbtFrom v (by decide)

theorem blkLoop_succ_run (n : Nat) (s : Core σ) :
    (Mn1613.blkLoop (n + 1)).run s =
      if s.regs.r 0 ≠ 0 then (Mn1613.blkLoop n).run (blkRound.run s).2 else ((), s) := by
  rw [Mn1613.blkLoop, run_bind]
  by_cases hzero : s.regs.r 0 ≠ 0
  · rw [if_pos hzero]
    exact congrFun (if_pos hzero) s
  · rw [if_neg hzero]
    exact congrFun (if_neg hzero) s

/-- BLK ends: its count is a word, and each round takes one off it. -/
theorem blkLoop_run (n : Nat) (s : Core σ) (h : (s.regs.r 0).toNat ≤ n) :
    (blkLoop (n + 1)).run s = .ok ((Mn1613.blkLoop n).run s) := by
  have hreg (s : Core σ) : (ofState (reg fun r => r.r 0) : M σ U16).run s = .ok (s.regs.r 0, s) := rfl
  induction n generalizing s with
  | zero =>
      have hzero : s.regs.r 0 = 0 := by
        apply BitVec.eq_of_toNat_eq
        simpa using h
      rw [blkLoop, run_bind_ok (hreg s), if_neg (not_not.mpr hzero)]
      rfl
  | succ n ih =>
      rw [blkLoop, run_bind_ok (hreg s), blkLoop_succ_run]
      by_cases hzero : s.regs.r 0 ≠ 0
      · have hdrop : ((blkRound.run s).2.regs.r 0).toNat ≤ n := by
          have hval : (blkRound.run s).2.regs.r 0 = s.regs.r 0 - 1 := rfl
          have hone : (1 : U16).toNat = 1 := by decide
          have hpos : (s.regs.r 0).toNat ≠ 0 := fun h0 => hzero (BitVec.eq_of_toNat_eq h0)
          have hlt := (s.regs.r 0).isLt
          rw [hval, BitVec.toNat_sub, hone]
          omega
        have hround : (ofState blkRound : M σ Unit).run s = .ok ((), (blkRound.run s).2) := rfl
        rw [if_pos hzero, if_pos hzero, run_bind_ok hround]
        exact ih _ hdrop
      · rw [if_neg hzero, if_neg hzero]
        rfl

theorem computes_blkLoop :
    Computes (blkLoop (Mn1613.BLK_ROUNDS + 1) : M σ Unit) (Mn1613.blkLoop Mn1613.BLK_ROUNDS) :=
  fun s => blkLoop_run Mn1613.BLK_ROUNDS s (Nat.le_of_lt (s.regs.r 0).isLt)

end Helpers

section Instructions

variable (io : Io σ)

theorem computes_execMemory (op rrr : U16) {lo : U16} (hlo : lo.toNat < 256) :
    Computes (execMemory op rrr lo : M σ Unit) (Mn1613.execMemory op rrr lo) :=
  (computes_ea _ hlo).bind fun _ => Computes.ofState _

theorem computes_forM {ι : Type} {f : ι → M σ Unit} {g : ι → Mn1613.M σ Unit} {l : List ι}
    (h : ∀ i ∈ l, Computes (f i) (g i)) : Computes (l.forM f) (l.forM g) := by
  induction l with
  | nil => exact Computes.pure ()
  | cons i l ih => exact (h i (by simp)).bind fun _ => ih fun i hi => h i (by simp [hi])

theorem computes_exec02 (rrr lo : U16) :
    Computes (exec02 io rrr lo : M σ Unit) (Mn1613.exec02 io rrr lo) := by
  unfold exec02
  by_cases hpush : rrr = 7 ∧ lo = 0x0f
  · obtain ⟨rfl, rfl⟩ := hpush
    rw [if_pos ⟨rfl, rfl⟩]
    refine computes_forM (l := [0, 1, 2, 3, 4])
      (g := fun i => do Mn1613.push (← reg fun r => r.r (Fin.ofNat 5 i))) fun i hi => ?_
    have hlt : i < 5 := by
      simp only [List.mem_cons, List.not_mem_nil, or_false] at hi
      omega
    have hindex : (⟨i, hlt⟩ : Fin 5) = Fin.ofNat 5 i := Fin.ext (Nat.mod_eq_of_lt hlt).symm
    rw [← hindex]
    exact (Computes.index hlt).value_bind (Computes.ofState _)
  rw [if_neg hpush]
  by_cases hpop : rrr = 7 ∧ lo = 0x07
  · obtain ⟨rfl, rfl⟩ := hpop
    rw [if_pos ⟨rfl, rfl⟩]
    refine computes_forM (l := [4, 3, 2, 1, 0])
      (g := fun i => do Mn1613.setR (Fin.ofNat 5 i) (← Mn1613.pop)) fun i hi => ?_
    have hlt : i < 5 := by
      simp only [List.mem_cons, List.not_mem_nil, or_false] at hi
      omega
    have hindex : (⟨i, hlt⟩ : Fin 5) = Fin.ofNat 5 i := Fin.ext (Nat.mod_eq_of_lt hlt).symm
    rw [← hindex]
    exact (Computes.index hlt).value_bind (Computes.ofState _)
  rw [if_neg hpop]
  exact Computes.ofState _

theorem computes_exec03 (rrr lo : U16) :
    Computes (exec03 io rrr lo : M σ Unit) (Mn1613.exec03 io rrr lo) := by
  unfold exec03
  by_cases hneg : rrr = 7 ∧ (lo >>> 2) &&& 1 ≠ 1
  · rw [if_pos hneg]
    obtain ⟨rfl, hbit⟩ := hneg
    simp only [Mn1613.exec03, ne_eq, not_true_eq_false, if_false, if_neg hbit]
    exact (Computes.ofState _).bind fun _ => (Computes.ofState _).bind fun _ =>
      (computes_sub16 _ _).bind fun _ => (computes_sub16 _ _).bind fun _ => Computes.ofState _
  · rw [if_neg hneg]
    exact Computes.ofState _

theorem computes_execSegBranch (ii : U16) (link : Bool) :
    Computes (execSegBranch ii link : M σ Unit) (Mn1613.execSegBranch ii link) :=
  (computes_ri ii).bind fun _ => Computes.ofState _

theorem computes_execLpsw (lo : U16) :
    Computes (execLpsw (lo &&& 3) : M σ Unit) (Mn1613.execLpsw (lo &&& 3)) := by
  have hle : (lo &&& 3).toNat ≤ 3 := and_toNat_le lo 3
  generalize lo &&& 3 = ll at hle
  have hll2 : BitVec.ofNat 16 (ll.toNat * 2) = ll * 2 := by
    apply BitVec.eq_of_toNat_eq
    rw [BitVec.toNat_ofNat, BitVec.toNat_mul]
    rfl
  have hll21 : BitVec.ofNat 16 (ll.toNat * 2 + 1) = ll * 2 + 1 := by
    rw [BitVec.ofNat_add, hll2]
    rfl
  have hindex : (⟨ll.toNat, by omega⟩ : Fin 4) = Fin.ofNat 4 ll.toNat :=
    Fin.ext (Nat.mod_eq_of_lt (by omega)).symm
  apply (Computes.ensure (by omega)).value_bind
  apply (Computes.ensure (by omega)).value_bind
  apply (Computes.index (by omega)).value_bind
  rw [hll2, hll21, hindex]
  exact Computes.ofState _

theorem computes_rindirect (b76 b10 : U16) :
    Computes (rindirect b76 b10 : M σ U16) (Mn1613.rindirect b76 b10) := by
  apply Computes.ite
  · exact fun _ => computes_ri b10
  intro _
  apply Computes.ite
  · exact fun _ => (computes_ri b10).bind fun _ => (computes_riSet b10 _).bind fun _ =>
      computes_ri b10
  · exact fun _ => (computes_ri b10).bind fun _ => (computes_ri b10).bind fun _ =>
      (computes_riSet b10 _).bind fun _ => Computes.pure _

theorem computes_exec04 (rrr lo : U16) :
    Computes (exec04 io rrr lo : M σ Unit) (Mn1613.exec04 io rrr lo) := by
  apply Computes.ite
  · exact fun _ => Computes.ofState _
  intro _
  apply Computes.ite
  · exact fun _ => Computes.ofState _
  intro _
  apply Computes.ite
  · exact fun _ => computes_execLpsw lo
  intro _
  apply Computes.ite
  · exact fun _ => Computes.ofState _
  intro _
  apply Computes.ite
  · exact fun _ => Computes.ofState _
  intro _
  apply Computes.ite
  · exact fun _ => computes_execSegBranch _ _
  intro _
  apply Computes.ite
  · exact fun _ => computes_execSegBranch _ _
  intro _
  apply Computes.ite
  · exact fun _ => Computes.ofState _
  intro _
  apply Computes.ite
  · exact fun _ => Computes.ofState _
  intro _
  apply Computes.ite
  · exact fun _ => Computes.ofState _
  intro _
  apply Computes.ite
  · exact fun _ => (Computes.ofState _).bind fun _ => (computes_rindirect _ _).bind fun _ =>
      Computes.ofState _
  intro _
  apply Computes.ite
  · exact fun _ => (Computes.ofState _).bind fun _ => (computes_rindirect _ _).bind fun _ =>
      Computes.ofState _
  intro _
  apply Computes.ite
  · exact fun _ => Computes.ofState _
  intro _
  apply Computes.ite
  · exact fun _ => Computes.ofState _
  intro _
  apply Computes.ite
  · exact fun _ => (computes_ri _).bind fun _ => Computes.ofState _
  intro _
  apply Computes.ite
  · exact fun _ => (computes_ri _).bind fun _ => Computes.ofState _
  · exact fun _ => computes_trapUndefined

theorem computes_exec05 (rrr lo : U16) :
    Computes (exec05 rrr lo : M σ Unit) (Mn1613.exec05 rrr lo) :=
  (computes_bitMask lo).value_bind (Computes.ofState _)

theorem computes_exec06 (rrr lo : U16) :
    Computes (exec06 rrr lo : M σ Unit) (Mn1613.exec06 rrr lo) :=
  (computes_bitMask lo).value_bind (Computes.ofState _)

theorem computes_exec07 (rrr lo : U16) :
    Computes (exec07 rrr lo : M σ Unit) (Mn1613.exec07 rrr lo) := by
  apply Computes.ite
  · exact fun _ => (computes_bitMask lo).value_bind (Computes.ofState _)
  intro _
  apply Computes.ite
  · exact fun _ => Computes.ofState _
  intro _
  apply Computes.ite
  · exact fun _ => computes_blkLoop
  intro _
  apply Computes.ite
  · exact fun _ => (Computes.ofState _).bind fun v => (computes_srbt v).value_bind
      (Computes.ofState _)
  intro _
  apply Computes.ite
  · exact fun _ => (Computes.ofState _).bind fun r0 => (computes_bitMask r0).value_bind
      (Computes.ofState _)
  · exact fun _ => Computes.ofState _

/-- Sums and products of words as an `i64` of at most 33 bits. -/
theorem toInt_word64 (a : U16) : (a.setWidth 64).toInt = a.toNat := toInt_word (by omega) a

theorem mulS_word64 (a : U16) : BitVec.smulOverflow (a.setWidth 64) 65536 = false := by
  have ha := a.isLt
  have hconst : (65536 : BitVec 64).toInt = 65536 := by decide
  simp only [BitVec.smulOverflow, toInt_word64, hconst]
  norm_num
  omega

theorem toInt_mul_word64 (a : U16) :
    (a.setWidth 64 * 65536 : BitVec 64).toInt = a.toNat * 65536 := by
  have hconst : (65536 : BitVec 64).toInt = 65536 := by decide
  rw [BitVec.toInt_mul_of_not_smulOverflow (ne_true_of_eq_false (mulS_word64 a)), toInt_word64, hconst]

theorem addS_words64 (a b : U16) :
    BitVec.saddOverflow (a.setWidth 64 * 65536) (b.setWidth 64) = false := by
  have ha := a.isLt
  have hb := b.isLt
  apply addS_in_range <;> rw [toInt_mul_word64, toInt_word64] <;> norm_num <;> omega

/-- A pair of words as an `i64`. -/
theorem toInt_words64 (a b : U16) :
    (a.setWidth 64 * 65536 + b.setWidth 64 : BitVec 64).toInt = a.toNat * 65536 + b.toNat := by
  rw [toInt_addS (addS_words64 a b), toInt_mul_word64, toInt_word64]

theorem computes_addModulus {d : BitVec 64} (hlo : -0x100000000 ≤ d.toInt) :
    Computes (addModulus d : M σ (BitVec 64)) (pure (if d.slt 0 then d + 0x100000000 else d)) := by
  by_cases hneg : d.slt 0 = true
  · rw [addModulus, if_pos hneg, if_pos hneg]
    have hlt : d.toInt < 0 := by
      rw [BitVec.slt_iff_toInt_lt] at hneg
      simpa using hneg
    have hconst : (0x100000000 : BitVec 64).toInt = 0x100000000 := by decide
    apply Computes.ensure
    apply addS_in_range <;> rw [hconst] <;> norm_num <;> omega
  · rw [addModulus, if_neg hneg, if_neg hneg]
    exact Computes.pure _

theorem computes_exec08 (rrr lo : U16) :
    Computes (exec08 rrr lo : M σ Unit) (Mn1613.exec08 rrr lo) := by
  unfold exec08
  by_cases hdouble : rrr = 7 ∧ lo &&& 4 ≠ 0
  · simp only [Mn1613.exec08, if_pos hdouble]
    apply (computes_ri _).bind
    intro ea
    apply (Computes.ofState _).bind
    intro mh
    apply (Computes.ofState _).bind
    intro ml
    apply (Computes.ofState _).bind
    intro carry
    apply (Computes.ofState _).bind
    intro r
    have hmh := mh.isLt
    have hml := ml.isLt
    have hr0 := (r 0).isLt
    have hr1 := (r 1).isLt
    generalize he0 : (if carry then 1 else 0 : BitVec 64) = e0
    have he0Int : e0.toInt = 0 ∨ e0.toInt = 1 := by
      subst he0
      cases carry <;> decide
    have hdiff : BitVec.ssubOverflow ((r 0).setWidth 64 * 65536 + (r 1).setWidth 64)
        (mh.setWidth 64 * 65536 + ml.setWidth 64) = false := by
      apply subS_in_range <;> rw [toInt_words64, toInt_words64] <;> norm_num <;> omega
    have hdiffInt := toInt_subS hdiff
    rw [toInt_words64, toInt_words64] at hdiffInt
    have hborrow : BitVec.ssubOverflow ((r 0).setWidth 64 * 65536 + (r 1).setWidth 64 -
        (mh.setWidth 64 * 65536 + ml.setWidth 64)) e0 = false := by
      apply subS_in_range <;> rw [hdiffInt] <;> norm_num <;> omega
    have hresult := toInt_subS hborrow
    rw [hdiffInt] at hresult
    apply (Computes.ensure (mulS_word64 _)).value_bind
    apply (Computes.ensure (addS_words64 _ _)).value_bind
    apply (Computes.ensure (mulS_word64 _)).value_bind
    apply (Computes.ensure (addS_words64 _ _)).value_bind
    apply (Computes.ensure hdiff).value_bind
    apply (Computes.ensure hborrow).value_bind
    apply (Computes.ofState _).bind
    intro _
    apply (Computes.ofState _).bind
    intro _
    apply (computes_addModulus (by omega)).value_bind
    exact Computes.ofState _
  · simp only [if_neg hdouble]
    exact Computes.ofState _

/-- A word as an unsigned integer of at least 16 bits. -/
theorem toNat_word {w : Nat} (hw : 16 ≤ w) (a : U16) : (a.setWidth w).toNat = a.toNat :=
  BitVec.toNat_setWidth_of_le hw

theorem addU_in_range {w : Nat} {a b : BitVec w} (h : a.toNat + b.toNat < 2 ^ w) :
    BitVec.uaddOverflow a b = false := by
  simp only [BitVec.uaddOverflow, decide_eq_false_iff_not]
  omega

theorem toNat_addU {w : Nat} {a b : BitVec w} (h : a.toNat + b.toNat < 2 ^ w) :
    (a + b).toNat = a.toNat + b.toNat := by
  rw [BitVec.toNat_add, Nat.mod_eq_of_lt h]

theorem mulU_word64 (a : U16) : BitVec.umulOverflow (a.setWidth 64) 65536 = false := by
  have ha := a.isLt
  have hconst : (65536 : BitVec 64).toNat = 65536 := by decide
  simp only [BitVec.umulOverflow, toNat_word (by omega : 16 ≤ 64), hconst, decide_eq_false_iff_not]
  omega

theorem toNat_mul_word64 (a : U16) :
    (a.setWidth 64 * 65536 : BitVec 64).toNat = a.toNat * 65536 := by
  have ha := a.isLt
  have hconst : (65536 : BitVec 64).toNat = 65536 := by decide
  rw [BitVec.toNat_mul, toNat_word (by omega), hconst]
  omega

theorem toNat_words64 (a b : U16) :
    (a.setWidth 64 * 65536 + b.setWidth 64 : BitVec 64).toNat = a.toNat * 65536 + b.toNat := by
  have ha := a.isLt
  have hb := b.isLt
  rw [toNat_addU, toNat_mul_word64, toNat_word (by omega)]
  rw [toNat_mul_word64, toNat_word (by omega)]
  omega

theorem addU_words64 (a b : U16) :
    BitVec.uaddOverflow (a.setWidth 64 * 65536) (b.setWidth 64) = false := by
  have ha := a.isLt
  have hb := b.isLt
  apply addU_in_range
  rw [toNat_mul_word64, toNat_word (by omega)]
  omega

theorem computes_exec09 (rrr lo : U16) :
    Computes (exec09 rrr lo : M σ Unit) (Mn1613.exec09 rrr lo) := by
  unfold exec09
  by_cases hdouble : rrr = 7 ∧ lo &&& 4 ≠ 0
  · simp only [Mn1613.exec09, if_pos hdouble]
    apply (computes_ri _).bind
    intro ea
    apply (Computes.ofState _).bind
    intro mh
    apply (Computes.ofState _).bind
    intro ml
    apply (Computes.ofState _).bind
    intro carry
    apply (Computes.ofState _).bind
    intro r
    have hmh := mh.isLt
    have hml := ml.isLt
    have hr0 := (r 0).isLt
    have hr1 := (r 1).isLt
    generalize he0 : (if carry then 1 else 0 : BitVec 64) = e0
    have he0Nat : e0.toNat ≤ 1 := by
      subst he0
      cases carry <;> decide
    have hsum : ((r 0).setWidth 64 * 65536 + (r 1).setWidth 64 : BitVec 64).toNat +
        (mh.setWidth 64 * 65536 + ml.setWidth 64 : BitVec 64).toNat < 2 ^ 64 := by
      rw [toNat_words64, toNat_words64]
      omega
    have hcarry : ((r 0).setWidth 64 * 65536 + (r 1).setWidth 64 +
        (mh.setWidth 64 * 65536 + ml.setWidth 64) : BitVec 64).toNat + e0.toNat < 2 ^ 64 := by
      rw [toNat_addU hsum, toNat_words64, toNat_words64]
      omega
    apply (Computes.ensure (mulU_word64 _)).value_bind
    apply (Computes.ensure (addU_words64 _ _)).value_bind
    apply (Computes.ensure (mulU_word64 _)).value_bind
    apply (Computes.ensure (addU_words64 _ _)).value_bind
    apply (Computes.ensure (addU_in_range hsum)).value_bind
    apply (Computes.ensure (addU_in_range hcarry)).value_bind
    exact Computes.ofState _
  · simp only [if_neg hdouble]
    exact Computes.ofState _

theorem computes_bcdCorrection (negative : Bool) {step res : U32}
    (hlo : -2 ^ 31 ≤ res.toInt - step.toInt) (hhi : res.toInt - step.toInt < 2 ^ 31) :
    Computes (bcdCorrection negative step res : M σ U32)
      (pure (if negative then res - step else res)) := by
  cases negative with
  | true => exact Computes.ensure (subS_in_range hlo hhi)
  | false => exact Computes.pure _

/-- A correction subtracts at most its step. -/
theorem toInt_correction (negative : Prop) [Decidable negative] (step res : U32)
    (hstep : 0 ≤ step.toInt) (hlo : -2 ^ 31 ≤ res.toInt - step.toInt)
    (hhi : res.toInt - step.toInt < 2 ^ 31) :
    res.toInt - step.toInt ≤ (if negative then res - step else res).toInt ∧
      (if negative then res - step else res).toInt ≤ res.toInt := by
  by_cases h : negative
  · rw [if_pos h, toInt_subS (subS_in_range hlo hhi)]
    omega
  · rw [if_neg h]
    omega

theorem computes_exec0a (rrr lo : U16) :
    Computes (exec0a rrr lo : M σ Unit) (Mn1613.exec0a rrr lo) := by
  apply Computes.ite
  · intro _
    apply Computes.ite
    · intro _
      apply (computes_ri _).bind
      intro ea
      apply (Computes.ofState _).bind
      intro m
      apply (Computes.ofState _).bind
      intro carry
      apply (Computes.ofState _).bind
      intro r0
      have hr0 := r0.isLt
      have hm := m.isLt
      generalize he0 : (if carry then 1 else 0 : U32) = e0
      have he0Int : e0.toInt = 0 ∨ e0.toInt = 1 := by
        subst he0
        cases carry <;> decide
      have borrow_in_range (x y : U16) :
          BitVec.ssubOverflow (x.setWidth 32 - y.setWidth 32) e0 = false ∧
            (x.setWidth 32 - y.setWidth 32 - e0).toInt = x.toNat - y.toNat - e0.toInt := by
        have hx := x.isLt
        have hy := y.isLt
        have hdiff := toInt_subS (subS_words x y)
        rw [toInt_word (by omega), toInt_word (by omega)] at hdiff
        have hborrow : BitVec.ssubOverflow (x.setWidth 32 - y.setWidth 32) e0 = false := by
          apply subS_in_range <;> rw [hdiff] <;> norm_num <;> omega
        refine ⟨hborrow, ?_⟩
        rw [toInt_subS hborrow, hdiff]
      obtain ⟨hborrow, hres⟩ := borrow_in_range r0 m
      apply (Computes.ensure (subS_words _ _)).value_bind
      apply (Computes.ensure hborrow).value_bind
      apply (Computes.ofState _).bind
      intro _
      apply (Computes.ensure (subS_words _ _)).value_bind
      apply (Computes.ensure (borrow_in_range _ _).1).value_bind
      have h06 : (0x06 : U32).toInt = 6 := by decide
      have h60 : (0x60 : U32).toInt = 96 := by decide
      have hres1 := toInt_correction
        (((r0 &&& 0xf).setWidth 32 - (m &&& 0xf).setWidth 32 - e0).slt 0 = true)
        0x06 (r0.setWidth 32 - m.setWidth 32 - e0) (by omega) (by omega) (by omega)
      apply (computes_bcdCorrection _ (by omega) (by omega)).value_bind
      apply (Computes.ensure (subS_words _ _)).value_bind
      apply (computes_bcdCorrection _ (by omega) (by omega)).value_bind
      exact Computes.ofState _
    intro _
    apply Computes.ite
    · exact fun _ => (computes_ri _).bind fun _ => (Computes.ofState _).bind fun _ =>
        (Computes.ofState _).bind fun _ => (computes_sub16 _ _).bind fun _ => Computes.ofState _
    · exact fun _ => (computes_ri _).bind fun _ => (Computes.ofState _).bind fun _ =>
        (Computes.ofState _).bind fun _ => (computes_sub16 _ _).bind fun _ => Computes.ofState _
  intro _
  apply Computes.ite
  · exact fun _ => (Computes.ofState _).bind fun _ => (Computes.ofState _).bind fun _ =>
      (computes_sub16 _ _).bind fun _ => Computes.ofState _
  intro _
  apply Computes.ite
  · exact fun _ => (Computes.ofState _).bind fun _ => (Computes.ofState _).bind fun _ =>
      (computes_sub16 _ _).bind fun _ => Computes.ofState _
  intro _
  apply Computes.ite
  · exact fun _ => (Computes.ofState _).bind fun _ => (Computes.ofState _).bind fun _ =>
      (computes_sub16 _ _).bind fun _ => Computes.ofState _
  · exact fun _ => (Computes.ofState _).bind fun _ => (Computes.ofState _).bind fun _ =>
      (computes_sub16 _ _).bind fun _ => Computes.ofState _

theorem computes_bcdCarry (exceeds : Bool) {step res : U32} (h : res.toNat + step.toNat < 2 ^ 32) :
    Computes (bcdCarry exceeds step res : M σ U32) (pure (if exceeds then res + step else res)) := by
  cases exceeds with
  | true => exact Computes.ensure (addU_in_range h)
  | false => exact Computes.pure _

/-- A carry adds at most its step. -/
theorem toNat_carry_le (exceeds : Prop) [Decidable exceeds] (step res : U32) :
    (if exceeds then res + step else res).toNat ≤ res.toNat + step.toNat := by
  by_cases h : exceeds
  · rw [if_pos h, BitVec.toNat_add]
    exact Nat.mod_le _ _
  · rw [if_neg h]
    omega

theorem computes_exec0b (rrr lo : U16) :
    Computes (exec0b rrr lo : M σ Unit) (Mn1613.exec0b rrr lo) := by
  apply Computes.ite
  · intro _
    apply Computes.ite
    · intro _
      apply (computes_ri _).bind
      intro ea
      apply (Computes.ofState _).bind
      intro m
      apply (Computes.ofState _).bind
      intro carry
      apply (Computes.ofState _).bind
      intro r0
      generalize he0 : (if carry then 1 else 0 : U32) = e0
      have he0Nat : e0.toNat ≤ 1 := by
        subst he0
        cases carry <;> decide
      have sum_lt (x y : U16) : (x.setWidth 32 : U32).toNat + (y.setWidth 32 : U32).toNat < 2 ^ 32 := by
        have hx := x.isLt
        have hy := y.isLt
        rw [toNat_word (by omega), toNat_word (by omega)]
        omega
      have toNat_sum (x y : U16) : (x.setWidth 32 + y.setWidth 32 : U32).toNat ≤ 0x1fffe := by
        have hx := x.isLt
        have hy := y.isLt
        rw [toNat_addU (sum_lt x y), toNat_word (by omega), toNat_word (by omega)]
        omega
      have hsum := toNat_sum r0 m
      have hnibbles := toNat_sum (r0 &&& 0xf) (m &&& 0xf)
      have h06 : (0x06 : U32).toNat = 6 := by decide
      have h600 : (0x0600 : U32).toNat = 0x600 := by decide
      have hres : (r0.setWidth 32 + m.setWidth 32 + e0 : U32).toNat ≤ 0x1ffff := by
        rw [toNat_addU (by omega)]
        omega
      have hres1 := toNat_carry_le ((r0 &&& 0xf).setWidth 32 + (m &&& 0xf).setWidth 32 + e0 > 9)
        0x06 (r0.setWidth 32 + m.setWidth 32 + e0)
      apply (Computes.ensure (addU_in_range (sum_lt _ _))).value_bind
      apply (Computes.ensure (addU_in_range (by omega))).value_bind
      apply (Computes.ofState _).bind
      intro _
      apply (Computes.ensure (addU_in_range (sum_lt _ _))).value_bind
      apply (Computes.ensure (addU_in_range (by omega))).value_bind
      apply (computes_bcdCarry _ (by omega)).value_bind
      simp only [decide_eq_true_eq]
      apply (computes_bcdCarry _ (by omega)).value_bind
      simp only [decide_eq_true_eq]
      exact Computes.ofState _
    intro _
    apply Computes.ite
    · exact fun _ => (computes_ri _).bind fun _ => (Computes.ofState _).bind fun _ =>
        (Computes.ofState _).bind fun _ => (computes_add16 _ _).bind fun _ => Computes.ofState _
    intro _
    apply Computes.ite
    · exact fun _ => (computes_ri _).bind fun _ => (Computes.ofState _).bind fun _ =>
        (Computes.ofState _).bind fun _ => (computes_sub16 _ _).bind fun _ => Computes.ofState _
    intro _
    apply Computes.ite
    · exact fun _ => (Computes.ofState _).bind fun _ => (Computes.ofState _).bind fun _ =>
        (computes_add16 _ _).bind fun _ => Computes.ofState _
    · exact fun _ => (Computes.ofState _).bind fun _ => (Computes.ofState _).bind fun _ =>
        (computes_sub16 _ _).bind fun _ => Computes.ofState _
  intro _
  apply Computes.ite
  · exact fun _ => (Computes.ofState _).bind fun _ => (Computes.ofState _).bind fun _ =>
      (computes_add16 _ _).bind fun _ => Computes.ofState _
  intro _
  apply Computes.ite
  · exact fun _ => (Computes.ofState _).bind fun _ => (Computes.ofState _).bind fun _ =>
      (computes_sub16 _ _).bind fun _ => Computes.ofState _
  intro _
  apply Computes.ite
  · exact fun _ => (Computes.ofState _).bind fun _ => (Computes.ofState _).bind fun _ =>
      (computes_add16 _ _).bind fun _ => Computes.ofState _
  · exact fun _ => (Computes.ofState _).bind fun _ => (Computes.ofState _).bind fun _ =>
      (computes_sub16 _ _).bind fun _ => Computes.ofState _

theorem computes_exec0c (rrr lo : U16) :
    Computes (exec0c rrr lo : M σ Unit) (Mn1613.exec0c rrr lo) := by
  unfold exec0c
  by_cases hor : rrr = 7 ∧ (lo >>> 2) &&& 3 = 2
  · rw [if_pos hor]
    obtain ⟨rfl, hb32⟩ := hor
    simp only [Mn1613.exec0c, hb32, if_true]
    exact (Computes.ofState _).bind fun _ => (computes_ri _).bind fun _ => Computes.ofState _
  rw [if_neg hor]
  by_cases hxor : rrr = 7 ∧ (lo >>> 2) &&& 3 = 0
  · rw [if_pos hxor]
    obtain ⟨rfl, hb32⟩ := hxor
    simp only [Mn1613.exec0c, hb32, if_true]
    exact (Computes.ofState _).bind fun _ => (computes_ri _).bind fun _ => Computes.ofState _
  rw [if_neg hxor]
  exact Computes.ofState _

theorem computes_exec0d (rrr lo : U16) :
    Computes (exec0d rrr lo : M σ Unit) (Mn1613.exec0d rrr lo) := by
  unfold exec0d
  by_cases h7 : rrr = 7
  · obtain rfl := h7
    rw [if_pos rfl]
    by_cases hand : (lo >>> 2) &&& 3 = 2
    · rw [if_pos hand]
      simp only [Mn1613.exec0d, hand, if_true]
      exact (Computes.ofState _).bind fun _ => (computes_ri _).bind fun _ => Computes.ofState _
    rw [if_neg hand]
    by_cases hlad : (lo >>> 2) &&& 3 = 0
    · rw [if_pos hlad]
      simp only [Mn1613.exec0d, hlad, if_true]
      exact (computes_ri _).bind fun _ => (Computes.ofState _).bind fun _ =>
        (Computes.ofState _).bind fun _ => (computes_ladResult _ _).value_bind (Computes.ofState _)
    rw [if_neg hlad]
    exact Computes.ofState _
  rw [if_neg h7]
  by_cases himm : (lo >>> 3) &&& 1 = 0 ∧ lo &&& 7 = 7
  · rw [if_pos himm]
    have hne : ¬ ((lo >>> 3) &&& 1 = 1 ∧ lo &&& 7 = 7) := by
      rw [himm.1]
      exact fun h => absurd h.1 (by decide)
    simp only [Mn1613.exec0d, if_neg h7, if_neg hne, if_pos himm]
    exact (Computes.ofState _).bind fun _ => (Computes.ofState _).bind fun _ =>
      (computes_ladResult _ _).value_bind (Computes.ofState _)
  rw [if_neg himm]
  by_cases hb3 : (lo >>> 3) &&& 1 = 1
  · rw [if_pos hb3]
    exact Computes.ofState _
  · rw [if_neg hb3]
    have hne : ¬ ((lo >>> 3) &&& 1 = 1 ∧ lo &&& 7 = 7) := fun h => hb3 h.1
    simp only [Mn1613.exec0d, if_neg h7, if_neg hne, if_neg himm, if_neg hb3]
    exact (Computes.ofState _).bind fun _ => (Computes.ofState _).bind fun _ =>
      (computes_ladResult _ _).value_bind (Computes.ofState _)

/-- The product of two words fits an `u32`. -/
theorem mulU_words (a b : U16) :
    BitVec.umulOverflow (a.setWidth 32) (b.setWidth 32) = false := by
  have hab : a.toNat * b.toNat ≤ 65535 * 65535 :=
    Nat.mul_le_mul (by have := a.isLt; omega) (by have := b.isLt; omega)
  simp only [BitVec.umulOverflow, toNat_word (by omega : 16 ≤ 32), decide_eq_false_iff_not]
  omega

theorem computes_exec0e (rrr lo : U16) :
    Computes (exec0e rrr lo : M σ Unit) (Mn1613.exec0e rrr lo) := by
  unfold exec0e
  by_cases h7 : rrr = 7
  · simp only [Mn1613.exec0e, if_pos h7]
    apply Computes.ite
    · intro _
      apply (computes_ri _).bind
      intro ea
      apply (Computes.ofState _).bind
      intro div
      apply (Computes.ofState _).bind
      intro _
      apply Computes.ite
      · exact fun _ => Computes.ofState _
      · intro hdiv
        have hne : div.setWidth 32 ≠ (0 : U32) := by
          intro hz
          apply hdiv
          apply BitVec.eq_of_toNat_eq
          have := congrArg BitVec.toNat hz
          rwa [toNat_word (by omega)] at this
        apply (Computes.ofState _).bind
        intro r
        apply (Computes.ensure hne).value_bind
        apply (Computes.ensure hne).value_bind
        exact Computes.ofState _
    intro _
    apply Computes.ite
    · exact fun _ => (computes_ri _).bind fun _ => (Computes.ofState _).bind fun _ =>
        Computes.ofState _
    · exact fun _ => (computes_ri _).bind fun _ => (Computes.ofState _).bind fun _ =>
        Computes.ofState _
  · simp only [if_neg h7]
    exact Computes.ofState _

theorem computes_exec0f (rrr lo : U16) :
    Computes (exec0f rrr lo : M σ Unit) (Mn1613.exec0f rrr lo) := by
  unfold exec0f
  by_cases h7 : rrr = 7
  · simp only [Mn1613.exec0f, if_pos h7]
    apply Computes.ite
    · exact fun _ => (Computes.ofState _).bind fun _ => (computes_ri _).bind fun _ =>
        (Computes.ofState _).bind fun _ => (Computes.ensure (mulU_words _ _)).value_bind
          (Computes.ofState _)
    intro _
    apply Computes.ite
    · exact fun _ => (computes_ri _).bind fun _ => (Computes.ofState _).bind fun _ =>
        Computes.ofState _
    intro _
    apply Computes.ite
    · exact fun _ => Computes.ofState _
    · exact fun _ => (Computes.ofState _).bind fun _ => (computes_ri _).bind fun _ =>
        Computes.ofState _
  · simp only [if_neg h7]
    exact Computes.ofState _

theorem computes_execute (ir : U16) : Computes (execute io ir : M σ Unit) (Mn1613.execute io ir) := by
  apply Computes.ite
  · exact fun _ => computes_execMemory _ _ (Nat.lt_succ_of_le (and_toNat_le ir 0xff))
  intro _
  generalize ((ir >>> 11) &&& 0x1f).toNat = op
  match op with
  | 0x00 => exact computes_trapUndefined
  | 0x01 => exact Computes.ofState _
  | 0x02 => exact computes_exec02 io _ _
  | 0x03 => exact computes_exec03 io _ _
  | 0x04 => exact computes_exec04 io _ _
  | 0x05 => exact computes_exec05 _ _
  | 0x06 => exact computes_exec06 _ _
  | 0x07 => exact computes_exec07 _ _
  | 0x08 => exact computes_exec08 _ _
  | 0x09 => exact computes_exec09 _ _
  | 0x0a => exact computes_exec0a _ _
  | 0x0b => exact computes_exec0b _ _
  | 0x0c => exact computes_exec0c _ _
  | 0x0d => exact computes_exec0d _ _
  | 0x0e => exact computes_exec0e _ _
  | 0x0f => exact computes_exec0f _ _
  | _ + 0x10 => exact computes_trapUndefined

/-- A checked build computes what the core computes: it does not stop. -/
theorem computes_executeOne : Computes (executeOne io : M σ Unit) (Mn1613.executeOne io) :=
  computes_checkIrq.bind fun _ => (Computes.ofState _).bind fun _ => computes_execute io _

end Instructions

end Mn1613Checked
end EmuRs
end RetroCpu
