import RetroCpu.Mn1613.WordOps
import RetroCpu.Mn1613.Simulation

/-!
# The two MN1613 cores execute the same instructions

One simulation lemma for each arm of the decoder, then for the decoder, for one
step, and for any number of steps.  The floating-point group is left out: there
the two cores differ.
-/

namespace RetroCpu
namespace Mn1613

/-- The instructions FIX, FLT, FA, FS, FM and FD, as the decoders tell them. -/
def isFloat (ir : BitVec 16) : Prop :=
  ((ir >>> 11) &&& 0x1f = 0x03 ∧ (ir >>> 8) &&& 0x7 = 7 ∧ (ir &&& 0xff) >>> 2 &&& 1 = 1) ∨
    (((ir >>> 11) &&& 0x1f = 0x0c ∨ (ir >>> 11) &&& 0x1f = 0x0d) ∧ (ir >>> 8) &&& 0x7 = 7 ∧
      ((ir &&& 0xff) >>> 2 &&& 3 = 3 ∨ (ir &&& 0xff) >>> 2 &&& 3 = 1))

instance (ir : BitVec 16) : Decidable (isFloat ir) := by
  unfold isFloat
  infer_instance

/-- The instruction word that the next step of the Rust core fetches. -/
def nextWord {σ : Type} (t : EmuRs.Mn1613.Core σ) : BitVec 16 :=
  ((do EmuRs.Mn1613.checkIrq; EmuRs.Mn1613.fetch : EmuRs.Mn1613.M σ (BitVec 16)).run t).1

namespace Simulation

open Js Prog WordOps BitField
open EmuTs.Mn1613 (CPURegister Board)
open EmuRs.Mn1613 (CpuRegister Io U8 U16 U32)

variable {σ : Type} (d : Device σ)

section Helpers

theorem R_sim (i : Fin 5) : Sim' (σ := σ) num (EmuTs.Mn1613.reg fun r => r.R i)
    (EmuRs.Mn1613.reg fun r => r.r i) := reg_sim fun _ => rfl

theorem regs_sim : Sim' (σ := σ) (fun g i => num (g i)) (EmuTs.Mn1613.reg fun r => r.R)
    (EmuRs.Mn1613.reg fun r => r.r) := reg_sim fun _ => rfl

/-- The operand of a memory-to-`R0` instruction. -/
theorem operand_sim {α β : Type} {f : β → α} {ii : Int} {ii' : U16} (hii : ii = num ii')
    {k : Int → EmuTs.Mn1613.M σ α} {k' : U16 → EmuRs.Mn1613.M σ β}
    (hk : ∀ v, Sim' f (k (num v)) (k' v)) :
    Sim' f (do k (← EmuTs.Mn1613.rdC d.board (← EmuTs.Mn1613.ri ii)))
      (do k' (← EmuRs.Mn1613.rdC (← EmuRs.Mn1613.ri ii'))) :=
  Sim.bind (ri_sim hii) fun _ => Sim.bind (rdC_sim d rfl) hk

/-- Reading a register before or after a memory word makes no difference. -/
theorem reg_rdC_comm {α β : Type} (f : CPURegister → β) (la : Int)
    (k : β → Int → EmuTs.Mn1613.M σ α) :
    (do
      let x ← EmuTs.Mn1613.reg f
      let v ← EmuTs.Mn1613.rdC d.board la
      k x v) =
    (do
      let v ← EmuTs.Mn1613.rdC d.board la
      let x ← EmuTs.Mn1613.reg f
      k x v) := rfl

theorem reg_operand_comm {α β : Type} (f : CPURegister → β) (ii : Int)
    (k : β → Int → EmuTs.Mn1613.M σ α) :
    (do
      let x ← EmuTs.Mn1613.reg f
      let v ← EmuTs.Mn1613.rdC d.board (← EmuTs.Mn1613.ri ii)
      k x v) =
    (do
      let v ← EmuTs.Mn1613.rdC d.board (← EmuTs.Mn1613.ri ii)
      let x ← EmuTs.Mn1613.reg f
      k x v) := rfl

/-- The low 16 bits of an I/O response. -/
theorem ioRead_sim {α β : Type} {f : β → α} {port : Int} {port' : U16} (hp : port = num port')
    {k : Int → EmuTs.Mn1613.M σ α} {k' : U16 → EmuRs.Mn1613.M σ β}
    (hk : ∀ v, Sim' f (k (num v)) (k' v)) :
    Sim' f (do k (land (← EmuTs.Mn1613.doIoRead d.board port) 0xffff))
      (do k' (← EmuRs.Mn1613.doIoRead d.io port')) := by
  have h := Sim.bind (doIoRead_sim d hp) hk
  simpa only [bind_assoc, pure_bind] using h

theorem swSkip_sim {k kk v : Int} {k' kk' v' : U16} (hk : k = num k') (hkk : kk = num kk')
    (hv : v = num v') :
    Sim' id (EmuTs.Mn1613.swSkip d.board k kk v) (EmuRs.Mn1613.swSkip (σ := σ) k' kk' v') :=
  Sim.bind (sw_sim hk hv) fun _ => skipIf_sim d hkk hv

theorem setR0Skip_sim {kk v : Int} {kk' v' : U16} (hkk : kk = num kk') (hv : v = num v') :
    Sim' id (EmuTs.Mn1613.setR0Skip d.board kk v) (EmuRs.Mn1613.setR0Skip (σ := σ) kk' v') :=
  Sim.bind (setR_sim hv) fun _ => skipIf_sim d hkk hv

theorem setDR0_sim {w : Nat} (hw : 32 ≤ w) {x : Int} {x' : BitVec w} (hx : x = num x')
    (hlt : x'.toNat < 2 ^ 32) :
    Sim' (σ := σ) id (EmuTs.Mn1613.setDR0 x) (EmuRs.Mn1613.setDr0 x') := by
  subst hx
  obtain ⟨hhi, hlo⟩ := halves_num hw x' hlt
  exact Sim.bind (setR_sim hhi) fun _ => setR_sim hlo

theorem dr0_sim : Sim' (σ := σ) num EmuTs.Mn1613.dr0 EmuRs.Mn1613.dr0 :=
  reg_sim fun r => by simp [embedReg]

end Helpers

section Memory

theorem ea_sim {mmm dd : Int} {mmm' dd' : U16} (hm : mmm = num mmm') (hd : dd = num dd') :
    Sim' num (EmuTs.Mn1613.ea d.board mmm dd) (EmuRs.Mn1613.ea (σ := σ) mmm' dd') := by
  subst hm hd
  have hlow : land (num dd') 0xff = num (dd' &&& 0xff) := by simp
  have hrel (ic : U16) :
      land (land (num ic - 1) 0xffff + (if num dd' < 0x80 then num dd' else num dd' - 0x100))
        0xffff = num (ic - 1 + (if dd' < 0x80 then dd' else dd' - 0x100)) := by
    have hcond : num dd' < 0x80 ↔ dd' < 0x80 := num_lt_ofNat dd' 128 (by decide)
    rw [land_sub_ofNat ic 1 (by decide)]
    by_cases h : dd' < 0x80
    · rw [if_pos (hcond.mpr h), if_pos h, land_add_num]
      rfl
    · rw [if_neg (mt hcond.mp h), if_neg h, land_word, BitVec.ofInt_add, ofInt_sub', ofInt_num,
        ofInt_num]
      rfl
  refine Sim.bind IC_sim fun ic => ?_
  simp only [land_seven, hlow]
  generalize (mmm' &&& 7).toNat = n
  rcases n with _ | _ | _ | _ | _ | _ | _ | n
  · exact Sim.pure rfl
  · exact Sim.pure (hrel ic)
  · exact rdC_sim d rfl
  · exact rdC_sim d (hrel ic)
  · exact Sim.bind (R_sim 3) fun x => Sim.pure (by simp)
  · exact Sim.bind (R_sim 4) fun x => Sim.pure (by simp)
  · show Sim Rel num (do
      let x ← EmuTs.Mn1613.reg fun r => r.R 3
      let v ← EmuTs.Mn1613.rdC d.board (num (dd' &&& 0xff))
      return land (x + v) 0xffff) _
    rw [reg_rdC_comm]
    refine Sim.bind (rdC_sim d rfl) fun v => ?_
    exact Sim.bind (R_sim 3) fun x => Sim.pure (by simp)
  · show Sim Rel num (do
      let x ← EmuTs.Mn1613.reg fun r => r.R 4
      let v ← EmuTs.Mn1613.rdC d.board (num (dd' &&& 0xff))
      return land (x + v) 0xffff) _
    rw [reg_rdC_comm]
    refine Sim.bind (rdC_sim d rfl) fun v => ?_
    exact Sim.bind (R_sim 4) fun x => Sim.pure (by simp)

theorem execMemory_sim {op rrr lo : Int} {op' rrr' lo' : U16} (hop : op = num op')
    (hrrr : rrr = num rrr') (hlo : lo = num lo') :
    Sim' id (EmuTs.Mn1613.execMemory d.board op rrr lo)
      (EmuRs.Mn1613.execMemory (σ := σ) op' rrr' lo') := by
  subst hop hrrr hlo
  have hhi : decide (land (num op') 8 ≠ 0) = decide (op' &&& 8 ≠ 0) :=
    decide_eq_decide.mpr (by simp)
  have hmmm : land (num op') 7 = num (op' &&& 7) := by simp
  refine Sim.bind (ea_sim d hmmm rfl) fun ea => ?_
  simp only [hhi, hmmm]
  refine ite_sim (by simp) ?_ ?_
  · refine ite_sim Iff.rfl (setIC_sim rfl) ?_
    refine Sim.bind IC_sim fun ic => ?_
    exact Sim.bind (push_sim d rfl) fun _ => setIC_sim rfl
  refine ite_sim (by simp) ?_ ?_
  · refine Sim.bind (rdC_sim d rfl) fun cur => ?_
    have hres : (if decide (op' &&& 8 ≠ 0) = true then land (num cur + 1) 0xffff
        else land (num cur - 1) 0xffff) =
        num (if decide (op' &&& 8 ≠ 0) = true then cur + 1 else cur - 1) := by
      split_ifs <;> simp
    refine Sim.bind (wrC_sim d rfl hres) fun _ => ?_
    exact ite_sim (by rw [hres]; simp) (skipNext_sim d) skip_sim
  refine ite_sim Iff.rfl ?_ ?_
  · exact Sim.bind (rdC_sim d rfl) fun v => sw_sim rfl rfl
  · exact Sim.bind (gr_sim rfl) fun v => wrC_sim d rfl rfl

end Memory

section Groups

variable {rrr lo : Int} {rrr' lo' : U16} (hrrr : rrr = num rrr') (hlo : lo = num lo')

include hrrr hlo

theorem exec01_sim :
    Sim' id (EmuTs.Mn1613.exec01 d.board rrr lo) (EmuRs.Mn1613.exec01 (σ := σ) rrr' lo') := by
  subst hrrr hlo
  refine ite_sim (by simp) ?_ ?_
  · exact Sim.bind (gr_sim rfl) fun v => sw_sim rfl (by simp)
  refine ite_sim (by simp) ?_ ?_
  · refine Sim.bind (fetch_sim d) fun ad16 => ?_
    refine ite_sim (by simp) ?_ ?_
    · refine ite_sim (by simp) ?_ skip_sim
      exact Sim.bind (rdC_sim d rfl) fun v => setSegReg_sim (by simp) (by simp)
    refine ite_sim (by simp) ?_ ?_
    · exact Sim.bind (rdC_sim d rfl) fun v => setSpecReg_sim (by simp) rfl
    refine ite_sim (by simp) ?_ ?_
    · exact Sim.bind (getSegReg_sim (by simp)) fun v => wrC_sim d rfl rfl
    · exact Sim.bind (getSpecReg_sim (by simp)) fun v => wrC_sim d rfl rfl
  refine ite_sim (by simp) ?_ ?_
  · exact Sim.bind (getSegReg_sim (by simp)) fun v => sw_sim (by simp) rfl
  refine ite_sim (by simp) ?_ ?_
  · exact Sim.bind (getSpecReg_sim (by simp)) fun v => sw_sim (by simp) rfl
  refine ite_sim (by simp) ?_ ?_
  · refine ite_sim (by simp) ?_ skip_sim
    exact Sim.bind (gr_sim (by simp)) fun v => setSegReg_sim (by simp) (by simp)
  · exact Sim.bind (gr_sim (by simp)) fun v => setSpecReg_sim (by simp) rfl

theorem exec02_sim :
    Sim' id (EmuTs.Mn1613.exec02 d.board rrr lo) (EmuRs.Mn1613.exec02 d.io rrr' lo') := by
  subst hrrr hlo
  refine ite_sim (by simp) ?_ ?_
  · exact Sim.bind (gr_sim rfl) fun v => doIoWrite_sim d rfl rfl
  refine ite_sim (by simp) ?_ ?_
  · refine Sim.bind (R_sim 0) fun v => Sim.bind (push_sim d rfl) fun _ => ?_
    refine Sim.bind (R_sim 1) fun v => Sim.bind (push_sim d rfl) fun _ => ?_
    refine Sim.bind (R_sim 2) fun v => Sim.bind (push_sim d rfl) fun _ => ?_
    refine Sim.bind (R_sim 3) fun v => Sim.bind (push_sim d rfl) fun _ => ?_
    exact Sim.bind (R_sim 4) fun v => push_sim d rfl
  refine ite_sim (by simp) ?_ ?_
  · refine Sim.bind (pop_sim d) fun v => Sim.bind (setR_sim rfl) fun _ => ?_
    refine Sim.bind (pop_sim d) fun v => Sim.bind (setR_sim rfl) fun _ => ?_
    refine Sim.bind (pop_sim d) fun v => Sim.bind (setR_sim rfl) fun _ => ?_
    refine Sim.bind (pop_sim d) fun v => Sim.bind (setR_sim rfl) fun _ => ?_
    exact Sim.bind (pop_sim d) fun v => setR_sim rfl
  refine Sim.bind (fetch_sim d) fun ad16 => ?_
  refine Sim.bind (rdC_sim d rfl) fun mem => ?_
  refine Sim.bind (gr_sim (by simp)) fun rs => ?_
  have hres : land (if land (num lo') 8 ≠ 0 then lor (num mem) (num rs)
      else land (num mem) (lnot (num rs))) 0xffff =
      num (if lo' &&& 8 ≠ 0 then mem ||| rs else mem &&& ~~~rs) := by
    have hcond : land (num lo') 8 ≠ 0 ↔ lo' &&& 8 ≠ 0 := by simp
    by_cases h : lo' &&& 8 ≠ 0
    · rw [if_pos h, if_pos (hcond.mpr h), lor_num _ _ (by decide), land_word, ofInt_num]
    · rw [if_neg h, if_neg (mt hcond.mp h), land_lnot_num _ _ (by decide), land_word, ofInt_num]
  refine Sim.bind (wrC_sim d rfl hres) fun _ => ?_
  exact skipIf_sim d (by simp) (by simp)

theorem exec03_sim (hfix : ¬ (rrr' = 7 ∧ (lo' >>> 2) &&& 1 = 1)) :
    Sim' id (EmuTs.Mn1613.exec03 d.board rrr lo) (EmuRs.Mn1613.exec03 d.io rrr' lo') := by
  subst hrrr hlo
  refine Sim.ite (by simp) (fun _ => ?_) (fun h7 => ?_)
  · exact ioRead_sim d rfl fun v => sw_sim rfl rfl
  refine Sim.ite (by simp) (fun h1 => absurd ⟨not_not.mp h7, h1⟩ hfix) (fun _ => ?_)
  refine Sim.bind (carryIn_sim (by simp)) fun carry => ?_
  refine Sim.bind (gr_sim (by simp)) fun v => ?_
  refine Sim.bind (sub_sim (rfl : (0 : Int) = num (0 : U16)) rfl) fun r1 => ?_
  refine Sim.bind (sub_sim rfl (ite_num carry 1 0 rfl rfl)) fun r2 => ?_
  exact Sim.bind (sw_sim (by simp) rfl) fun _ => skipIf_sim d (by simp) rfl

theorem exec05_sim :
    Sim' id (EmuTs.Mn1613.exec05 d.board rrr lo) (EmuRs.Mn1613.exec05 (σ := σ) rrr' lo') := by
  subst hrrr hlo
  have hmask := bitMask_num lo'
  have hf : land (num lo') 0xf = num (lo' &&& 0xf) := by simp
  refine Sim.bind (gr_sim rfl) fun v => skipIf_sim d (by simp) ?_
  rw [hf, hmask, land_num _ _ (by decide)]

theorem exec06_sim :
    Sim' id (EmuTs.Mn1613.exec06 d.board rrr lo) (EmuRs.Mn1613.exec06 (σ := σ) rrr' lo') := by
  subst hrrr hlo
  have hmask := bitMask_num lo'
  have hf : land (num lo') 0xf = num (lo' &&& 0xf) := by simp
  refine Sim.bind (gr_sim rfl) fun v => ?_
  have hres : land (land (num v) (lnot (EmuTs.Mn1613.bitMask (land (num lo') 0xf)))) 0xffff =
      num (v &&& ~~~EmuRs.Mn1613.bitMask (lo' &&& 0xf)) := by
    rw [hf, hmask, land_lnot_num _ _ (by decide), land_word, ofInt_num]
  exact Sim.bind (sw_sim rfl hres) fun _ => skipIf_sim d (by simp) hres

omit hrrr hlo in
theorem blkLoop_sim (n : Nat) :
    Sim' id (EmuTs.Mn1613.blkLoop d.board n) (EmuRs.Mn1613.blkLoop (σ := σ) n) := by
  induction n with
  | zero => exact skip_sim
  | succ n ih =>
      have hstep {i : Fin 5} {g : Int → Int} {h : U16 → U16} (hgh : ∀ v, g (num v) = num (h v)) :
          Sim' (σ := σ) id
            (EmuTs.Mn1613.setReg fun r => { r with R := Function.update r.R i (g (r.R i)) })
            (EmuRs.Mn1613.setReg fun r => { r with r := Function.update r.r i (h (r.r i)) }) := by
        refine setReg_sim fun r => ?_
        simp only [embedReg, hgh, update_num]
      refine Sim.bind (R_sim 0) fun r0 => ite_sim (by simp) ?_ skip_sim
      refine Sim.bind (R_sim 1) fun r1 => ?_
      refine Sim.bind (f := num) (reg_sim fun _ => rfl) fun tsr0 => ?_
      refine Sim.bind (rdB_sim d rfl rfl) fun v => ?_
      refine Sim.bind (R_sim 2) fun r2 => ?_
      refine Sim.bind (f := num) (reg_sim fun _ => rfl) fun tsr1 => ?_
      refine Sim.bind (wrB_sim d rfl rfl rfl) fun _ => ?_
      refine Sim.bind (hstep (g := fun x => land (x + 1) 0xffff) (h := fun x => x + 1)
        fun v => by simp) fun _ => ?_
      refine Sim.bind (hstep (g := fun x => land (x + 1) 0xffff) (h := fun x => x + 1)
        fun v => by simp) fun _ => ?_
      exact Sim.bind (hstep (g := fun x => land (x - 1) 0xffff) (h := fun x => x - 1)
        fun v => by simp) fun _ => ih

theorem exec07_sim :
    Sim' id (EmuTs.Mn1613.exec07 d.board rrr lo) (EmuRs.Mn1613.exec07 (σ := σ) rrr' lo') := by
  subst hrrr hlo
  have hf : land (num lo') 0xf = num (lo' &&& 0xf) := by simp
  refine ite_sim (by simp) ?_ ?_
  · refine Sim.bind (gr_sim rfl) fun v => ?_
    have hres : land (lor (num v) (EmuTs.Mn1613.bitMask (land (num lo') 0xf))) 0xffff =
        num (v ||| EmuRs.Mn1613.bitMask (lo' &&& 0xf)) := by
      rw [hf, bitMask_num, lor_num _ _ (by decide), land_word, ofInt_num]
    exact Sim.bind (sw_sim rfl hres) fun _ => skipIf_sim d (by simp) hres
  refine ite_sim (by simp) ?_ ?_
  · refine Sim.bind (pop_sim d) fun cs => ?_
    refine Sim.bind (setCSBR_sim (land_narrow cs 15 (by decide))) fun _ => ?_
    exact Sim.bind (pop_sim d) fun ic => setIC_sim rfl
  refine ite_sim (by simp) (blkLoop_sim d _) ?_
  refine ite_sim (by simp) ?_ ?_
  · refine Sim.bind (gr_sim (by simp)) fun v => ?_
    obtain ⟨hpos, hval⟩ := srbt_num v
    refine Sim.bind (setR_sim hpos) fun _ => sw_sim (by simp) ?_
    rw [hval, land_word, ofInt_num]
  refine ite_sim (by simp) ?_ ?_
  · refine Sim.bind (R_sim 0) fun r0 => ?_
    refine Sim.bind (gr_sim (by simp)) fun v => sw_sim (by simp) ?_
    have hr0 : land (num r0) 0xf = num (r0 &&& 0xf) := by simp
    rw [hr0, bitMask_num, lor_num _ _ (by decide), land_word, ofInt_num]
  refine ite_sim (by simp) ?_ ?_
  · exact Sim.bind (getHWReg_sim (by simp)) fun v => sw_sim (by simp) rfl
  · exact Sim.bind (gr_sim (by simp)) fun v => setHWReg_sim (by simp) rfl

omit hrrr hlo in
theorem pushLink_sim {l l' : Bool} (hl : l = l') :
    Sim' id (EmuTs.Mn1613.pushLink d.board l) (EmuRs.Mn1613.pushLink (σ := σ) l') := by
  subst hl
  refine ite_sim Iff.rfl ?_ skip_sim
  refine Sim.bind IC_sim fun ic => Sim.bind (push_sim d rfl) fun _ => ?_
  exact Sim.bind CSBR_sim fun cs => push_sim d (num_setWidth cs (by decide)).symm

omit hrrr hlo in
theorem loadCsIc_sim {base : Int} {base' : U16} (hb : base = num base') :
    Sim' id (EmuTs.Mn1613.loadCsIc d.board base) (EmuRs.Mn1613.loadCsIc (σ := σ) base') := by
  subst hb
  refine Sim.bind CSBR_sim fun cs => Sim.bind (rdB_sim d rfl rfl) fun nc => ?_
  refine Sim.bind CSBR_sim fun cs => Sim.bind (rdB_sim d (by simp) rfl) fun ni => ?_
  exact Sim.bind (setCSBR_sim (land_narrow nc 15 (by decide))) fun _ => setIC_sim rfl

omit hrrr hlo in
theorem execSegBranch_sim {ii : Int} {ii' : U16} (hii : ii = num ii') (l : Bool) :
    Sim' id (EmuTs.Mn1613.execSegBranch d.board ii l)
      (EmuRs.Mn1613.execSegBranch (σ := σ) ii' l) :=
  Sim.bind (ri_sim hii) fun _ => Sim.bind (pushLink_sim d rfl) fun _ => loadCsIc_sim d rfl

omit hrrr hlo in
theorem execLpsw_sim {ll : Int} {ll' : U16} (hll : ll = num ll') :
    Sim' id (EmuTs.Mn1613.execLpsw d.board ll) (EmuRs.Mn1613.execLpsw (σ := σ) ll') := by
  subst hll
  have hzero : (0 : Int) = num (0 : U8) := rfl
  have hstr : EmuTs.Mn1613.phys (num ll' * 2) 0 = num (EmuRs.Mn1613.phys (ll' * 2) 0) := by
    rw [hzero, ← phys_num, phys_eq, phys_eq]
    simp [num, BitVec.toNat_mul]
  have hic : EmuTs.Mn1613.phys (num ll' * 2 + 1) 0 =
      num (EmuRs.Mn1613.phys (ll' * 2 + 1) 0) := by
    rw [hzero, ← phys_num, phys_eq, phys_eq]
    simp [num, BitVec.toNat_mul]
  refine Sim.bind (rdPhys_sim d hstr) fun str => Sim.bind (setSTR_sim rfl) fun _ => ?_
  refine Sim.bind (rdPhys_sim d hic) fun ic => Sim.bind (setIC_sim rfl) fun _ => ?_
  refine setReg_sim fun r => ?_
  simp [embedReg]

omit hrrr in
theorem execLong_sim :
    Sim' id (EmuTs.Mn1613.execLong d.board lo) (EmuRs.Mn1613.execLong (σ := σ) lo') := by
  subst hlo
  refine Sim.bind (fetch_sim d) fun ad16 => ?_
  refine ite_sim (by simp) ?_ ?_
  · refine ite_sim (by simp) ?_ ?_
    · refine Sim.bind (pushLink_sim d ?_) fun _ => loadCsIc_sim d rfl
      exact decide_eq_decide.mpr (by simp)
    · refine Sim.bind (seg_sim (by simp)) fun seg => ?_
      exact Sim.bind (rdB_sim d rfl rfl) fun v => sw_sim (by simp) rfl
  · refine Sim.bind (gr_sim (by simp)) fun v => ?_
    exact Sim.bind (seg_sim (by simp)) fun seg => wrB_sim d rfl rfl rfl

omit hrrr hlo in
theorem rindirect_sim {m ii : Int} {m' ii' : U16} (hm : m = num m') (hii : ii = num ii') :
    Sim' (σ := σ) num (EmuTs.Mn1613.rindirect m ii) (EmuRs.Mn1613.rindirect m' ii') := by
  subst hm hii
  refine ite_sim (by simp) (ri_sim rfl) ?_
  refine ite_sim (by simp) ?_ ?_
  · refine Sim.bind (ri_sim rfl) fun v => ?_
    exact Sim.bind (riSet_sim rfl (by simp)) fun _ => ri_sim rfl
  · refine Sim.bind (ri_sim rfl) fun ea => Sim.bind (ri_sim rfl) fun v => ?_
    exact Sim.bind (riSet_sim rfl (by simp)) fun _ => Sim.pure rfl

omit hlo in
theorem execSr_sim {kk ee : Int} {kk' ee' : U16} (hkk : kk = num kk') (hee : ee = num ee') :
    Sim' id (EmuTs.Mn1613.execSr d.board rrr kk ee)
      (EmuRs.Mn1613.execSr (σ := σ) rrr' kk' ee') := by
  refine Sim.bind (applyEE_sim hee) fun _ => Sim.bind (gr_sim hrrr) fun a => ?_
  refine Sim.bind flagE_sim fun e => ?_
  refine Sim.bind (setE_sim (decide_eq_decide.mpr (by simp))) fun _ => ?_
  have hres : land (lor (ushr (num a) 1) (if e = true then 0x8000 else 0)) 0xffff =
      num (a >>> 1 ||| if e = true then 0x8000 else 0) := by
    rw [ite_num e (a := 0x8000) (b := 0) (0x8000 : U16) 0 rfl rfl, sr_num]
  exact Sim.bind (sw_sim hrrr hres) fun _ => skipIf_sim d hkk hres

omit hlo in
theorem execSl_sim {kk ee : Int} {kk' ee' : U16} (hkk : kk = num kk') (hee : ee = num ee') :
    Sim' id (EmuTs.Mn1613.execSl d.board rrr kk ee)
      (EmuRs.Mn1613.execSl (σ := σ) rrr' kk' ee') := by
  refine Sim.bind (applyEE_sim hee) fun _ => Sim.bind (gr_sim hrrr) fun a => ?_
  refine Sim.bind flagE_sim fun e => ?_
  refine Sim.bind (setE_sim (decide_eq_decide.mpr (by simp))) fun _ => ?_
  have hres : land (lor (shl (num a) 1) (if e = true then 1 else 0)) 0xffff =
      num ((a <<< 1 ||| if e = true then 1 else 0) &&& 0xffff) := by
    rw [ite_num e (a := 1) (b := 0) (1 : U16) 0 rfl rfl, sl_num]
  exact Sim.bind (sw_sim hrrr hres) fun _ => skipIf_sim d hkk hres

theorem exec04_sim :
    Sim' id (EmuTs.Mn1613.exec04 d.board rrr lo) (EmuRs.Mn1613.exec04 d.io rrr' lo') := by
  subst hrrr hlo
  refine ite_sim (by simp) ?_ ?_
  · intro s t hR
    exact ⟨rfl, hR.reg, hR.mem, rfl, hR.stepMode, hR.pendingIRQ, hR.board, hR.fetches⟩
  refine ite_sim (by simp) ?_ ?_
  · exact Sim.bind (pop_sim d) fun ic => setIC_sim rfl
  refine ite_sim (by simp) ?_ ?_
  · exact execLpsw_sim d (by simp)
  refine ite_sim (by simp) ?_ ?_
  · exact Sim.bind (fetch_sim d) fun dest => setIC_sim rfl
  refine ite_sim (by simp) ?_ ?_
  · refine Sim.bind (fetch_sim d) fun dest => Sim.bind IC_sim fun ic => ?_
    exact Sim.bind (push_sim d rfl) fun _ => setIC_sim rfl
  refine ite_sim (by simp) (execSegBranch_sim d (by simp) false) ?_
  refine ite_sim (by simp) (execSegBranch_sim d (by simp) true) ?_
  refine ite_sim (by simp) (execLong_sim d rfl) ?_
  refine ite_sim (by simp) ?_ ?_
  · exact Sim.bind (gr_sim rfl) fun v => push_sim d rfl
  refine ite_sim (by simp) ?_ ?_
  · exact Sim.bind (pop_sim d) fun v => sw_sim rfl rfl
  refine ite_sim (by simp) ?_ ?_
  · refine Sim.bind (seg_sim (by simp)) fun seg => ?_
    refine Sim.bind (rindirect_sim (by simp) (by simp)) fun ea => ?_
    exact Sim.bind (rdB_sim d rfl rfl) fun v => sw_sim rfl rfl
  refine ite_sim (by simp) ?_ ?_
  · refine Sim.bind (seg_sim (by simp)) fun seg => ?_
    refine Sim.bind (rindirect_sim (by simp) (by simp)) fun ea => ?_
    exact Sim.bind (gr_sim rfl) fun v => wrB_sim d rfl rfl rfl
  refine ite_sim (by simp) (execSr_sim d rfl (by simp) (by simp)) ?_
  refine ite_sim (by simp) (execSl_sim d rfl (by simp) (by simp)) ?_
  refine ite_sim (by simp) ?_ ?_
  · exact Sim.bind (ri_sim (by simp)) fun port => ioRead_sim d rfl fun v => sw_sim rfl rfl
  refine ite_sim (by simp) ?_ (trapUndefinedInsn_sim d)
  refine Sim.bind (ri_sim (by simp)) fun port => ?_
  exact Sim.bind (gr_sim rfl) fun v => doIoWrite_sim d rfl rfl

theorem exec08_sim :
    Sim' id (EmuTs.Mn1613.exec08 d.board rrr lo) (EmuRs.Mn1613.exec08 (σ := σ) rrr' lo') := by
  subst hrrr hlo
  refine ite_sim (by simp) ?_ ?_
  · refine Sim.bind (ri_sim (by simp)) fun ea => ?_
    refine Sim.bind (rdC_sim d rfl) fun mh => Sim.bind (rdC_sim d (by simp)) fun ml => ?_
    refine Sim.bind (carryIn_sim (by simp)) fun e => Sim.bind regs_sim fun r => ?_
    obtain ⟨x, hx, hx', h0, h1⟩ := sd_num e (r 0) (r 1) mh ml
    obtain ⟨hslt, hval, hlt⟩ := sd_stored h0 h1
    simp only [id, hx, hx']
    refine Sim.bind (setE_sim (by simp only [← hslt]; simp)) fun _ => ?_
    refine Sim.bind (setOVF_sim rfl) fun _ => ?_
    refine Sim.bind (setDR0_sim (by decide) hval hlt) fun _ => ?_
    exact Sim.bind dr0_sim fun v => skipIf_sim d (by simp) rfl
  · refine Sim.bind (gr_sim rfl) fun v => ?_
    exact Sim.bind (sw_sim rfl (by simp)) fun _ => skipIf_sim d (by simp) (by simp)

theorem exec09_sim :
    Sim' id (EmuTs.Mn1613.exec09 d.board rrr lo) (EmuRs.Mn1613.exec09 (σ := σ) rrr' lo') := by
  subst hrrr hlo
  refine ite_sim (by simp) ?_ ?_
  · refine Sim.bind (ri_sim (by simp)) fun ea => ?_
    refine Sim.bind (rdC_sim d rfl) fun mh => Sim.bind (rdC_sim d (by simp)) fun ml => ?_
    refine Sim.bind (carryIn_sim (by simp)) fun e => Sim.bind regs_sim fun r => ?_
    obtain ⟨x, hx, hx', h0, h1⟩ := ad_num e (r 0) (r 1) mh ml
    obtain ⟨hgt, hval⟩ := ad_stored h0 h1
    simp only [id, hx, hx']
    refine Sim.bind (setE_sim (decide_eq_decide.mpr hgt)) fun _ => ?_
    refine Sim.bind (setOVF_sim rfl) fun _ => ?_
    refine Sim.bind (setDR0_sim (by decide) hval (BitVec.isLt _)) fun _ => ?_
    exact Sim.bind dr0_sim fun v => skipIf_sim d (by simp) rfl
  · refine Sim.bind (gr_sim rfl) fun v => ?_
    exact Sim.bind (sw_sim rfl (by simp)) fun _ => skipIf_sim d (by simp) (by simp)

theorem exec0a_sim :
    Sim' id (EmuTs.Mn1613.exec0a d.board rrr lo) (EmuRs.Mn1613.exec0a (σ := σ) rrr' lo') := by
  subst hrrr hlo
  refine ite_sim (by simp) ?_ ?_
  · refine ite_sim (by simp) ?_ ?_
    · refine operand_sim d (by simp) fun m => ?_
      refine Sim.bind (carryIn_sim (by simp)) fun e => Sim.bind (R_sim 0) fun r0 => ?_
      obtain ⟨hE, hres⟩ := das_num e r0 m
      refine Sim.bind (setE_sim (by simp only [id, hE]; simp)) fun _ => ?_
      refine Sim.bind (setR_sim hres) fun _ => ?_
      exact Sim.bind (R_sim 0) fun v => skipIf_sim d (by simp) rfl
    refine ite_sim (by simp) ?_ ?_
    · rw [reg_operand_comm]
      refine operand_sim d (by simp) fun m => Sim.bind (R_sim 0) fun r0 => ?_
      exact Sim.bind (sub_sim rfl rfl) fun res => skipIf_sim d (by simp) rfl
    · rw [reg_operand_comm]
      refine operand_sim d (by simp) fun m => Sim.bind (R_sim 0) fun r0 => ?_
      exact Sim.bind (sub_sim (by simp) (by simp)) fun res => skipIf_sim d (by simp) rfl
  refine ite_sim (by simp) ?_ ?_
  · refine Sim.bind (fetch_sim d) fun imm => Sim.bind (gr_sim rfl) fun v => ?_
    exact Sim.bind (sub_sim rfl rfl) fun res => skipIf_sim d (by simp) rfl
  refine ite_sim (by simp) ?_ ?_
  · refine Sim.bind (fetch_sim d) fun imm => Sim.bind (gr_sim rfl) fun v => ?_
    exact Sim.bind (sub_sim (by simp) (by simp)) fun res => skipIf_sim d (by simp) rfl
  refine ite_sim (by simp) ?_ ?_
  · refine Sim.bind (gr_sim rfl) fun x => Sim.bind (gr_sim (by simp)) fun y => ?_
    exact Sim.bind (sub_sim rfl rfl) fun res => skipIf_sim d (by simp) rfl
  · refine Sim.bind (gr_sim rfl) fun x => Sim.bind (gr_sim (by simp)) fun y => ?_
    exact Sim.bind (sub_sim (by simp) (by simp)) fun res => skipIf_sim d (by simp) rfl

omit hrrr hlo in
/-- With bit 2 clear, the field of bits 3 and 2 is 0 or 2. -/
theorem field_of_bit2_clear {x : U16} (h : x &&& 4 = 0) (h2 : (x >>> 2) &&& 3 ≠ 2) :
    (x >>> 2) &&& 3 = 0 := by
  have hbit : x.toNat / 4 % 2 = 0 := (and_bit_eq_zero x 2 (by decide)).mp h
  have hfield : ((x >>> 2) &&& 3).toNat = x.toNat / 4 % 4 := toNat_field x 2 2 (by decide)
  have hne : ((x >>> 2) &&& 3).toNat ≠ 2 := fun h => h2 (BitVec.eq_of_toNat_eq h)
  apply BitVec.eq_of_toNat_eq
  show ((x >>> 2) &&& 3).toNat = 0
  omega

theorem exec0b_sim :
    Sim' id (EmuTs.Mn1613.exec0b d.board rrr lo) (EmuRs.Mn1613.exec0b (σ := σ) rrr' lo') := by
  subst hrrr hlo
  refine ite_sim (by simp) ?_ ?_
  · refine Sim.ite (by simp) (fun _ => ?_) (fun h4 => ?_)
    · refine operand_sim d (by simp) fun m => ?_
      refine Sim.bind (carryIn_sim (by simp)) fun e => Sim.bind (R_sim 0) fun r0 => ?_
      obtain ⟨hE, hres⟩ := daa_num e r0 m
      refine Sim.bind (setE_sim (decide_eq_decide.mpr hE)) fun _ => ?_
      refine Sim.bind (setR_sim hres) fun _ => ?_
      exact Sim.bind (R_sim 0) fun v => skipIf_sim d (by simp) rfl
    refine Sim.ite (by simp) (fun _ => ?_) (fun h2 => ?_)
    · rw [reg_operand_comm]
      refine operand_sim d (by simp) fun m => Sim.bind (R_sim 0) fun r0 => ?_
      exact Sim.bind (add_sim rfl rfl) fun res => setR0Skip_sim d (by simp) rfl
    -- AWI IC and SWI IC are shadowed by DAA, the only arm left is SWR.
    refine Sim.ite (by simp) (fun _ => ?_)
      (fun h0 => absurd (field_of_bit2_clear (not_not.mp h4) h2) h0)
    rw [reg_operand_comm]
    refine operand_sim d (by simp) fun m => Sim.bind (R_sim 0) fun r0 => ?_
    exact Sim.bind (sub_sim rfl rfl) fun res => setR0Skip_sim d (by simp) rfl
  refine ite_sim (by simp) ?_ ?_
  · refine Sim.bind (fetch_sim d) fun imm => Sim.bind (gr_sim rfl) fun v => ?_
    exact Sim.bind (add_sim rfl rfl) fun res => swSkip_sim d rfl (by simp) rfl
  refine ite_sim (by simp) ?_ ?_
  · refine Sim.bind (fetch_sim d) fun imm => Sim.bind (gr_sim rfl) fun v => ?_
    exact Sim.bind (sub_sim rfl rfl) fun res => swSkip_sim d rfl (by simp) rfl
  refine ite_sim (by simp) ?_ ?_
  · refine Sim.bind (gr_sim rfl) fun x => Sim.bind (gr_sim (by simp)) fun y => ?_
    exact Sim.bind (add_sim rfl rfl) fun res => swSkip_sim d rfl (by simp) rfl
  · refine Sim.bind (gr_sim rfl) fun x => Sim.bind (gr_sim (by simp)) fun y => ?_
    exact Sim.bind (sub_sim rfl rfl) fun res => swSkip_sim d rfl (by simp) rfl

theorem exec0c_sim (hfp : ¬ (rrr' = 7 ∧ ((lo' >>> 2) &&& 3 = 3 ∨ (lo' >>> 2) &&& 3 = 1))) :
    Sim' id (EmuTs.Mn1613.exec0c d.board rrr lo) (EmuRs.Mn1613.exec0c (σ := σ) rrr' lo') := by
  subst hrrr hlo
  refine Sim.ite (by simp) (fun h7 => ?_) (fun _ => ?_)
  · refine Sim.ite (by simp) (fun h => absurd ⟨h7, .inl h⟩ hfp) (fun _ => ?_)
    refine Sim.ite (by simp) (fun h => absurd ⟨h7, .inr h⟩ hfp) (fun _ => ?_)
    refine ite_sim (by simp) ?_ ?_
    · refine Sim.bind (R_sim 0) fun r0 => operand_sim d (by simp) fun m => ?_
      exact setR0Skip_sim d (by simp) (by simp)
    · refine Sim.bind (R_sim 0) fun r0 => operand_sim d (by simp) fun m => ?_
      exact setR0Skip_sim d (by simp) (by simp)
  refine ite_sim (by simp) ?_ ?_
  · refine Sim.bind (fetch_sim d) fun imm => Sim.bind (gr_sim rfl) fun v => ?_
    exact swSkip_sim d rfl (by simp) (by simp)
  refine ite_sim (by simp) ?_ ?_
  · refine Sim.bind (fetch_sim d) fun imm => Sim.bind (gr_sim rfl) fun v => ?_
    exact swSkip_sim d rfl (by simp) (by simp)
  refine ite_sim (by simp) ?_ ?_
  · refine Sim.bind (gr_sim rfl) fun x => Sim.bind (gr_sim (by simp)) fun y => ?_
    exact swSkip_sim d rfl (by simp) (by simp)
  · refine Sim.bind (gr_sim rfl) fun x => Sim.bind (gr_sim (by simp)) fun y => ?_
    exact swSkip_sim d rfl (by simp) (by simp)

theorem exec0d_sim (hfp : ¬ (rrr' = 7 ∧ ((lo' >>> 2) &&& 3 = 3 ∨ (lo' >>> 2) &&& 3 = 1))) :
    Sim' id (EmuTs.Mn1613.exec0d d.board rrr lo) (EmuRs.Mn1613.exec0d (σ := σ) rrr' lo') := by
  subst hrrr hlo
  refine Sim.ite (by simp) (fun h7 => ?_) (fun _ => ?_)
  · refine Sim.ite (by simp) (fun h => absurd ⟨h7, .inl h⟩ hfp) (fun _ => ?_)
    refine Sim.ite (by simp) (fun h => absurd ⟨h7, .inr h⟩ hfp) (fun _ => ?_)
    refine ite_sim (by simp) ?_ ?_
    · refine Sim.bind (R_sim 0) fun r0 => operand_sim d (by simp) fun m => ?_
      exact setR0Skip_sim d (by simp) (by simp)
    · rw [reg_operand_comm]
      refine operand_sim d (by simp) fun m => Sim.bind (R_sim 0) fun r0 => ?_
      exact setR0Skip_sim d (by simp) (ladResult_num r0 m)
  refine ite_sim (by simp) ?_ ?_
  · refine Sim.bind (fetch_sim d) fun imm => Sim.bind (gr_sim rfl) fun v => ?_
    exact swSkip_sim d rfl (by simp) (by simp)
  refine ite_sim (by simp) ?_ ?_
  · refine Sim.bind (fetch_sim d) fun imm => Sim.bind (gr_sim rfl) fun v => ?_
    exact swSkip_sim d rfl (by simp) (ladResult_num v imm)
  refine ite_sim (by simp) ?_ ?_
  · refine Sim.bind (gr_sim rfl) fun x => Sim.bind (gr_sim (by simp)) fun y => ?_
    exact swSkip_sim d rfl (by simp) (by simp)
  · refine Sim.bind (gr_sim rfl) fun x => Sim.bind (gr_sim (by simp)) fun y => ?_
    exact swSkip_sim d rfl (by simp) (ladResult_num x y)

theorem exec0e_sim :
    Sim' id (EmuTs.Mn1613.exec0e d.board rrr lo) (EmuRs.Mn1613.exec0e (σ := σ) rrr' lo') := by
  subst hrrr hlo
  have hword (x : U16) : land (num x) 0xffff = num x := by rw [land_word, ofInt_num]
  refine ite_sim (by simp) ?_ ?_
  · refine ite_sim (by simp) ?_ ?_
    · refine operand_sim d (by simp) fun div => ?_
      refine Sim.bind (setE_sim rfl) fun _ => ite_sim (by simp) (setOVF_sim rfl) ?_
      refine Sim.bind regs_sim fun r => ?_
      obtain ⟨hq, hr⟩ := quotient_num (((r 0).setWidth 32 <<< 16) ||| (r 1).setWidth 32) div
      have hlow (x : U32) : land (num x) 0xffff = num ((x &&& 0xffff).setWidth 16) :=
        (halves_num (by decide) x x.isLt).2
      simp only [dividend_num, hq, hr]
      refine ite_sim (by simp) (setOVF_sim rfl) ?_
      refine Sim.bind (setOVF_sim rfl) fun _ => Sim.bind (setR_sim (hlow _)) fun _ => ?_
      refine Sim.bind (setR_sim (hlow _)) fun _ => ?_
      exact Sim.bind (R_sim 0) fun v => skipIf_sim d (by simp) rfl
    refine ite_sim (by simp) ?_ ?_
    · refine operand_sim d (by simp) fun v => ?_
      refine Sim.bind (setR_sim ?_) fun _ => skipIf_sim d (by simp) (bswp_num v)
      rw [bswp_num, hword]
    · refine operand_sim d (by simp) fun v => ?_
      exact Sim.bind (setR_sim (dswp_num v)) fun _ => skipIf_sim d (by simp) (dswp_num v)
  refine ite_sim (by simp) ?_ ?_
  · refine Sim.bind (gr_sim (by simp)) fun v => swSkip_sim d rfl (by simp) ?_
    rw [bswp_num, hword]
  · exact Sim.bind (gr_sim (by simp)) fun v => swSkip_sim d rfl (by simp) (dswp_num v)

theorem exec0f_sim :
    Sim' id (EmuTs.Mn1613.exec0f d.board rrr lo) (EmuRs.Mn1613.exec0f (σ := σ) rrr' lo') := by
  subst hrrr hlo
  refine ite_sim (by simp) ?_ ?_
  · refine ite_sim (by simp) ?_ ?_
    · refine Sim.bind (R_sim 0) fun r0 => operand_sim d (by simp) fun m => ?_
      refine Sim.bind (setOVF_sim rfl) fun _ => Sim.bind (setE_sim rfl) fun _ => ?_
      refine Sim.bind (setDR0_sim (by decide) (product_num r0 m) (BitVec.isLt _)) fun _ => ?_
      exact Sim.bind dr0_sim fun v => skipIf_sim d (by simp) rfl
    refine ite_sim (by simp) ?_ ?_
    · exact operand_sim d (by simp) fun m => setR0Skip_sim d (by simp) rfl
    refine ite_sim (by simp) ?_ ?_
    · exact Sim.bind (fetch_sim d) fun ic => setIC_sim rfl
    · refine Sim.bind (R_sim 0) fun r0 => operand_sim d (by simp) fun m => ?_
      exact setR0Skip_sim d (by simp) (by simp)
  refine ite_sim (by simp) ?_ ?_
  · exact Sim.bind (fetch_sim d) fun imm => swSkip_sim d rfl (by simp) rfl
  refine ite_sim (by simp) ?_ ?_
  · exact Sim.bind (gr_sim (by simp)) fun v => swSkip_sim d rfl (by simp) rfl
  · refine Sim.bind (gr_sim rfl) fun x => Sim.bind (gr_sim (by simp)) fun y => ?_
    exact swSkip_sim d rfl (by simp) (by simp)

end Groups

section Step

theorem execute_sim (ir : U16) (hfp : ¬ isFloat ir) :
    Sim' id (EmuTs.Mn1613.execute d.board (num ir)) (EmuRs.Mn1613.execute d.io ir) := by
  have hop : land (ushr (num ir) 11) 0x1f = num ((ir >>> 11) &&& 0x1f) := by simp
  have hrrr : land (ushr (num ir) 8) 0x7 = num ((ir >>> 8) &&& 0x7) := by simp
  have hlo : land (num ir) 0xff = num (ir &&& 0xff) := by simp
  have hnum (n : Nat) (hn : ((ir >>> 11) &&& 0x1f).toNat = n) (hlt : n < 32) :
      (ir >>> 11) &&& 0x1f = BitVec.ofNat 16 n := by
    apply BitVec.eq_of_toNat_eq
    rw [hn, BitVec.toNat_ofNat, Nat.mod_eq_of_lt (by omega)]
  have h3 (hn : ((ir >>> 11) &&& 0x1f).toNat = 3) :
      ¬ ((ir >>> 8) &&& 0x7 = 7 ∧ (ir &&& 0xff) >>> 2 &&& 1 = 1) :=
    fun h => hfp (.inl ⟨hnum 3 hn (by decide), h.1, h.2⟩)
  have hc (n : Nat) (hn : ((ir >>> 11) &&& 0x1f).toNat = n) (hcd : n = 12 ∨ n = 13) :
      ¬ ((ir >>> 8) &&& 0x7 = 7 ∧
        ((ir &&& 0xff) >>> 2 &&& 3 = 3 ∨ (ir &&& 0xff) >>> 2 &&& 3 = 1)) := by
    intro h
    refine hfp (.inr ⟨?_, h.1, h.2⟩)
    rcases hcd with rfl | rfl
    · exact .inl (hnum 12 hn (by decide))
    · exact .inr (hnum 13 hn (by decide))
  unfold EmuTs.Mn1613.execute EmuRs.Mn1613.execute
  refine Sim.ite (by simp) (fun _ => execMemory_sim d hop hrrr hlo) (fun _ => ?_)
  simp only [hop, toNat_num]
  generalize ((ir >>> 11) &&& 0x1f).toNat = n at h3 hc
  rcases n with _ | _ | _ | _ | _ | _ | _ | _ | _ | _ | _ | _ | _ | _ | _ | _ | n
  · exact trapUndefinedInsn_sim d
  · exact exec01_sim d hrrr hlo
  · exact exec02_sim d hrrr hlo
  · exact exec03_sim d hrrr hlo (h3 rfl)
  · exact exec04_sim d hrrr hlo
  · exact exec05_sim d hrrr hlo
  · exact exec06_sim d hrrr hlo
  · exact exec07_sim d hrrr hlo
  · exact exec08_sim d hrrr hlo
  · exact exec09_sim d hrrr hlo
  · exact exec0a_sim d hrrr hlo
  · exact exec0b_sim d hrrr hlo
  · exact exec0c_sim d hrrr hlo (hc 12 rfl (.inl rfl))
  · exact exec0d_sim d hrrr hlo (hc 13 rfl (.inr rfl))
  · exact exec0e_sim d hrrr hlo
  · exact exec0f_sim d hrrr hlo
  · exact trapUndefinedInsn_sim d

theorem checkIRQ_sim :
    Sim' id (EmuTs.Mn1613.checkIRQ d.board) (EmuRs.Mn1613.checkIrq (σ := σ)) := by
  intro s t hR
  have hcond : s.pendingIRQ = 0 ↔ t.pendingIrq = 0 := by
    rw [hR.pendingIRQ]
    simp
  by_cases h : t.pendingIrq = 0
  · rw [EmuTs.Mn1613.checkIRQ_idle d.board (hcond.mpr h), EmuRs.Mn1613.checkIrq_idle h]
    exact ⟨rfl, hR⟩
  · rw [EmuTs.Mn1613.checkIRQ_pending d.board (mt hcond.mp h),
      EmuRs.Mn1613.checkIrq_pending h]
    exact handleIRQ_sim d s t hR

/-- The step unit of a quiet board changes nothing. -/
theorem onInstructionFetch_run (ir : Int) (s : EmuTs.Mn1613.Cpu σ) :
    (EmuTs.Mn1613.onInstructionFetch d.board ir).run s = ((), s) := rfl

theorem executeOne_rel {s : EmuTs.Mn1613.Cpu σ} {t : EmuRs.Mn1613.Core σ} (hR : Rel s t)
    (hfp : ¬ isFloat (nextWord t)) :
    Rel ((EmuTs.Mn1613.executeOne d.board).run s).2 ((EmuRs.Mn1613.executeOne d.io).run t).2 := by
  have hpre : Sim' num (do EmuTs.Mn1613.checkIRQ d.board; EmuTs.Mn1613.fetch d.board)
      (do EmuRs.Mn1613.checkIrq; EmuRs.Mn1613.fetch : EmuRs.Mn1613.M σ U16) :=
    Sim.bind (checkIRQ_sim d) fun _ => fetch_sim d
  obtain ⟨hir, hR'⟩ := hpre s t hR
  have hs : (EmuTs.Mn1613.executeOne d.board).run s =
      (EmuTs.Mn1613.execute d.board (num (nextWord t))).run
        ((do EmuTs.Mn1613.checkIRQ d.board; EmuTs.Mn1613.fetch d.board).run s).2 := by
    rw [nextWord, ← hir]
    simp only [EmuTs.Mn1613.executeOne, run_bind, onInstructionFetch_run]
  have ht : (EmuRs.Mn1613.executeOne d.io).run t =
      (EmuRs.Mn1613.execute d.io (nextWord t)).run
        ((do EmuRs.Mn1613.checkIrq; EmuRs.Mn1613.fetch : EmuRs.Mn1613.M σ U16).run t).2 := by
    simp only [EmuRs.Mn1613.executeOne, nextWord, run_bind]
  rw [hs, ht]
  exact (execute_sim d _ hfp _ _ hR').2

/-- The two cores stay in the same state along any run that executes no
floating-point instruction. -/
theorem run_rel (n : Nat) {s : EmuTs.Mn1613.Cpu σ} {t : EmuRs.Mn1613.Core σ} (hR : Rel s t)
    (hfp : ∀ k < n, ¬ isFloat (nextWord ((EmuRs.Mn1613.step d.io)^[k] t))) :
    Rel ((EmuTs.Mn1613.stepOne d.board)^[n] s) ((EmuRs.Mn1613.step d.io)^[n] t) := by
  induction n generalizing s t with
  | zero => exact hR
  | succ n ih =>
      have hstep : Rel (EmuTs.Mn1613.stepOne d.board s) (EmuRs.Mn1613.step d.io t) :=
        executeOne_rel d hR (hfp 0 (Nat.succ_pos n))
      refine ih hstep fun k hk => ?_
      have h := hfp (k + 1) (Nat.succ_lt_succ hk)
      rwa [Function.iterate_succ_apply] at h

end Step

end Simulation

open Simulation

/-- Step equivalence of the two cores: from every register file in its declared
widths, any memory and any pending mask, with any device on the I/O bus, the two
cores hold the same registers, memory, pending mask and status after any number of
steps, and their device has received the same writes in the same order. -/
theorem cores_step_equiv {σ : Type} (d : Device σ) (n : Nat)
    (s : EmuTs.Mn1613.Cpu (σ × List (Int × Int))) (hw : InWidth s.reg)
    (hp : 0 ≤ s.pendingIRQ ∧ s.pendingIRQ < 8)
    (hfp : ∀ k < n, ¬ isFloat (nextWord ((EmuRs.Mn1613.step d.logged.io)^[k] (toRs s)))) :
    Rel ((EmuTs.Mn1613.stepOne d.logged.board)^[n] s)
      ((EmuRs.Mn1613.step d.logged.io)^[n] (toRs s)) :=
  run_rel d.logged n (rel_toRs hw hp) hfp

/-- Two instructions from a memory filled with `AI R0, 1`. -/
theorem cores_step_equiv_ai :
    Rel ((EmuTs.Mn1613.stepOne Device.silent.logged.board)^[2]
        (EmuTs.Mn1613.Cpu.initial (fun _ => 0x4801#16) ((), [])))
      ((EmuRs.Mn1613.step Device.silent.logged.io)^[2]
        (toRs (EmuTs.Mn1613.Cpu.initial (fun _ => 0x4801#16) ((), [])))) := by
  have hfp : ∀ k < 2, ¬ isFloat (nextWord ((EmuRs.Mn1613.step Device.silent.logged.io)^[k]
      (toRs (EmuTs.Mn1613.Cpu.initial (fun _ => 0x4801#16) ((), []))))) := by decide
  exact cores_step_equiv Device.silent 2 _ inWidth_initial ⟨le_refl _, by decide⟩ hfp

end Mn1613
end RetroCpu
