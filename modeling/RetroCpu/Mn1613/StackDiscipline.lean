import RetroCpu.Lib.JsString
import RetroCpu.Mn1613.MemoryGroup
import RetroCpu.Mn1613.Operands

/-!
# The stack of the MN1613

PUSH, PSHM and the calls store words downwards from `SP` in the segment of `SSBR`; POP, POPM
and the returns take them back.  A balanced run consists of such pairs, nested and in
sequence, and of anything else that leaves the slots in use alone.  It ends with the `SP` it
started with, and every pair in it restores what it has saved.
-/

namespace RetroCpu
namespace Mn1613

open Js Prog
open EmuTs.Mn1613

section Slots

/-- The cell of the `i`-th word that is pushed. -/
def slot (r : CPURegister) (i : Int) : BitVec 18 := BitVec.ofInt 18 (phys (r.SP - i) r.SSBR)

theorem slot_congr {r r' : CPURegister} {i j : Int} (hssbr : r.SSBR = r'.SSBR)
    (hsp : (r.SP - i) % 65536 = (r'.SP - j) % 65536) : slot r i = slot r' j := by
  rw [slot, slot, Simulation.phys_eq, Simulation.phys_eq, hssbr, hsp]

/-- The slots of fewer than `2 ^ 16` words are different. -/
theorem slot_ne {r : CPURegister} {i j : Int} (h : (i - j) % 65536 ≠ 0) : slot r i ≠ slot r j := by
  intro heq
  rw [slot, slot, Simulation.phys_eq, Simulation.phys_eq] at heq
  have hnat := congrArg BitVec.toNat heq
  rw [BitVec.toNat_ofInt, BitVec.toNat_ofInt] at hnat
  push_cast at hnat
  omega

/-- The words `vs` have been pushed in this order. -/
structure Pushed (vs : List Int) (c c' : View) : Prop where
  SP : c'.1.SP = (c.1.SP - vs.length) % 65536
  SSBR : c'.1.SSBR = c.1.SSBR
  stored : ∀ (i : Nat) (v : Int), vs[i]? = some v → c'.2 (slot c.1 i) = BitVec.ofInt 16 v
  other : ∀ cell, (∀ i < vs.length, cell ≠ slot c.1 i) → c'.2 cell = c.2 cell

end Slots

section Primitives

variable {σ : Type} (bd : Board σ) (s : Cpu σ)

/-- The view after one word has been pushed -/
def pushOne (v : Int) (c : View) : View :=
  ({ c.1 with SP := (c.1.SP - 1) % 65536 }, Function.update c.2 (slot c.1 0) (BitVec.ofInt 16 v))

theorem view_pushOne (v : Int) : view ((push bd v).run s).2 = pushOne v (view s) := by
  rw [view_push, pushOne, land_ffff, slot, Int.sub_zero]

theorem push_run (v : Int) : ∃ s', (push bd v).run s = ((), s') ∧ view s' = pushOne v (view s) :=
  ⟨_, rfl, view_pushOne bd s v⟩

/-- The view after one word has been taken from the stack -/
def popOne (c : View) : View := ({ c.1 with SP := (c.1.SP + 1) % 65536 }, c.2)

theorem pop_run : ∃ s', (pop bd).run s = (num (s.mem (slot s.reg (-1))), s') ∧
    view s' = popOne (view s) := by
  refine ⟨_, Prod.ext ?_ rfl, ?_⟩
  · have hvalue : ((pop bd).run s).1 =
        getUint16 s.mem (land (phys (land (s.reg.SP + 1) 0xffff) s.reg.SSBR) 0x3ffff) := rfl
    rw [hvalue, getUint16_phys, slot, Simulation.phys_eq, Simulation.phys_eq, land_ffff]
    congr 3
    omega
  · rw [popOne, ← land_ffff]
    rfl

end Primitives

section PushAll

/-- The words `vs` pushed one after the other -/
def pushAll (vs : List Int) (c : View) : View := vs.foldl (fun c v => pushOne v c) c

theorem pushAll_reg (vs : List Int) (c : View) :
    ∃ sp, (pushAll vs c).1 = { c.1 with SP := sp } := by
  induction vs generalizing c with
  | nil => exact ⟨c.1.SP, rfl⟩
  | cons v vs ih =>
      obtain ⟨sp, hsp⟩ := ih (pushOne v c)
      exact ⟨sp, hsp⟩

theorem slot_pushOne (v : Int) (c : View) (i : Int) :
    slot (pushOne v c).1 i = slot c.1 (i + 1) := by
  refine slot_congr rfl ?_
  simp only [pushOne]
  omega

theorem pushed_pushAll (vs : List Int) (c : View) (hlen : vs.length < 65536)
    (hsp : Within 0xffff c.1.SP) : Pushed vs c (pushAll vs c) := by
  induction vs generalizing c with
  | nil =>
      obtain ⟨h0, h1⟩ := hsp
      refine ⟨?_, rfl, ?_, fun _ _ => rfl⟩
      · simp only [pushAll, List.foldl_nil, List.length_nil]
        omega
      · rintro i v ⟨⟩
  | cons v vs ih =>
      rw [List.length_cons] at hlen
      have hsp' : Within 0xffff (pushOne v c).1.SP := by
        simp only [pushOne]
        constructor <;> omega
      obtain ⟨hSP, hSSBR, hstored, hother⟩ := ih (pushOne v c) (by omega) hsp'
      have hslot := slot_pushOne v c
      refine ⟨?_, hSSBR, ?_, ?_⟩
      · refine hSP.trans ?_
        simp only [pushOne, List.length_cons]
        omega
      · intro i w hw
        cases i with
        | zero =>
            obtain rfl : v = w := Option.some.inj hw
            have hkeep := hother (slot c.1 0) fun i hi => by
              rw [hslot]
              exact slot_ne (by omega)
            refine hkeep.trans ?_
            exact Function.update_self _ _ _
        | succ i =>
            have h := hstored i w hw
            rw [hslot] at h
            exact_mod_cast h
      · intro cell hcell
        have hkeep := hother cell fun i hi => by
          rw [hslot]
          exact_mod_cast hcell (i + 1) (Nat.succ_lt_succ hi)
        exact hkeep.trans (Function.update_of_ne (hcell 0 (Nat.succ_pos _)) _ _)

/-- What has been pushed does not depend on the registers other than `SP` and `SSBR`. -/
theorem Pushed.congr {vs : List Int} {c c' d d' : View} (h : Pushed vs c c')
    (hSP : d.1.SP = c.1.SP) (hSSBR : d.1.SSBR = c.1.SSBR) (hmem : d.2 = c.2)
    (hSP' : d'.1.SP = c'.1.SP) (hSSBR' : d'.1.SSBR = c'.1.SSBR) (hmem' : d'.2 = c'.2) :
    Pushed vs d d' := by
  have hslot : ∀ i, slot d.1 i = slot c.1 i := fun i => slot_congr hSSBR (by rw [hSP])
  refine ⟨?_, ?_, ?_, ?_⟩
  · rw [hSP', h.SP, hSP]
  · rw [hSSBR', h.SSBR, hSSBR]
  · intro i v hv
    rw [hmem', hslot, h.stored i v hv]
  · intro cell hcell
    rw [hmem', hmem, h.other cell fun i hi => hslot i ▸ hcell i hi]

end PushAll

section Pairs

/-- The pairs of instructions that save and restore -/
inductive Pair
  | push (d : Fin 7)
  | pshm
  | bal (mmm : Fin 8) (d8 : Fin 256)
  | bald
  | ball
  | balr (ii : Fin 4)
deriving DecidableEq

namespace Pair

/-- The word that opens the pair: PUSH, PSHM, BAL, BALD, BALL or BALR -/
def opening : Pair → Int
  | push d => fieldWord 0x04 d 0x01
  | pshm => fieldWord 0x02 7 0x0f
  | bal mmm d8 => MemoryOp.BAL.word 0 ⟨mmm, d8⟩
  | bald => fieldWord 0x04 6 0x17
  | ball => fieldWord 0x04 7 0x1f
  | balr ii => fieldWord 0x04 7 (0x14 + ii)

/-- The word that closes the pair: POP, POPM, RET or RETL -/
def closing : Pair → Int
  | push d => fieldWord 0x04 d 0x02
  | pshm => fieldWord 0x02 7 0x07
  | bal _ _ | bald => fieldWord 0x04 0 0x03
  | ball | balr _ => fieldWord 0x07 7 0x07

/-- The length of the opening instruction in words -/
def length : Pair → Int
  | bald | ball => 2
  | _ => 1

/-- The words that the opening instruction pushes, in this order -/
def saved (p : Pair) (r : CPURegister) : List Int :=
  match p with
  | push d => [general r d]
  | pshm => [r.R 0, r.R 1, r.R 2, r.R 3, r.R 4]
  | bal _ _ | bald => [(r.IC + p.length) % 65536]
  | ball | balr _ => [(r.IC + p.length) % 65536, r.CSBR]

/-- The registers `r'` behind the pair have what it has saved of the registers `r`. -/
def Restores (p : Pair) (r r' : CPURegister) : Prop :=
  match p with
  | push d => general r' d = general r d
  | pshm => r'.R = r.R
  | bal _ _ | bald => r'.IC = (r.IC + p.length) % 65536
  | ball | balr _ => r'.IC = (r.IC + p.length) % 65536 ∧ r'.CSBR = r.CSBR

end Pair

end Pairs

section Execution

variable {σ : Type} (bd : Board σ)

theorem execute_02 {rrr lo : Int} (hrrr : 0 ≤ rrr ∧ rrr < 8) (hlo : 0 ≤ lo ∧ lo < 256) :
    execute bd (fieldWord 0x02 rrr lo) = exec02 bd rrr lo := by
  obtain ⟨h11, h8, h0⟩ := fieldWord_fields (show 0 ≤ (0x02 : Int) ∧ (0x02 : Int) < 32 by decide)
    hrrr hlo
  rw [execute, h11, h8, h0]
  rfl

theorem execute_04 {rrr lo : Int} (hrrr : 0 ≤ rrr ∧ rrr < 8) (hlo : 0 ≤ lo ∧ lo < 256) :
    execute bd (fieldWord 0x04 rrr lo) = exec04 bd rrr lo := by
  obtain ⟨h11, h8, h0⟩ := fieldWord_fields (show 0 ≤ (0x04 : Int) ∧ (0x04 : Int) < 32 by decide)
    hrrr hlo
  rw [execute, h11, h8, h0]
  rfl

theorem execute_push (d : Fin 7) :
    execute bd (Pair.push d).opening = (do push bd (← gr (d.val : Int)) : M σ Unit) := by
  rw [Pair.opening, execute_04 bd (by omega) (by decide)]
  obtain ⟨d, hd⟩ := d
  interval_cases d <;> rfl

theorem execute_pop (d : Fin 7) :
    execute bd (Pair.push d).closing = (do sw (d.val : Int) (← pop bd) : M σ Unit) := by
  rw [Pair.closing, execute_04 bd (by omega) (by decide)]
  obtain ⟨d, hd⟩ := d
  interval_cases d <;> rfl

theorem execute_pshm : execute bd Pair.pshm.opening = (do
    push bd (← reg fun r => r.R 0)
    push bd (← reg fun r => r.R 1)
    push bd (← reg fun r => r.R 2)
    push bd (← reg fun r => r.R 3)
    push bd (← reg fun r => r.R 4) : M σ Unit) := by
  rw [Pair.opening, execute_02 bd (by decide) (by decide)]
  rfl

theorem execute_popm : execute bd Pair.pshm.closing = (do
    setR 4 (← pop bd)
    setR 3 (← pop bd)
    setR 2 (← pop bd)
    setR 1 (← pop bd)
    setR 0 (← pop bd) : M σ Unit) := by
  rw [Pair.closing, execute_02 bd (by decide) (by decide)]
  rfl

theorem execute_ret : execute bd (fieldWord 0x04 0 0x03) = (do
    let ic ← pop bd
    setReg fun r => { r with IC := ic } : M σ Unit) := by
  rw [execute_04 bd (by decide) (by decide)]
  rfl

theorem execute_retl : execute bd (fieldWord 0x07 7 0x07) = (do
    let cs ← pop bd
    setReg fun r => { r with CSBR := land cs 0xf }
    let ic ← pop bd
    setReg fun r => { r with IC := ic } : M σ Unit) := by
  rw [execute_07 bd (by decide) (by decide)]
  rfl

theorem execute_bald : execute bd Pair.bald.opening = (do
    let dest ← fetch bd
    push bd (← reg CPURegister.IC)
    setReg fun r => { r with IC := dest } : M σ Unit) := by
  rw [Pair.opening, execute_04 bd (by decide) (by decide)]
  rfl

theorem execute_ball : execute bd Pair.ball.opening = (do
    let ad16 ← fetch bd
    pushLink bd true
    loadCsIc bd ad16 : M σ Unit) := by
  rw [Pair.opening, execute_04 bd (by decide) (by decide)]
  rfl

theorem execute_balr (ii : Fin 4) : execute bd (Pair.balr ii).opening = (do
    let base ← ri (ii.val : Int)
    pushLink bd true
    loadCsIc bd base : M σ Unit) := by
  have hii : ∀ ii : Fin 4, land (0x14 + (ii.val : Int)) 3 = ii := by decide
  have hmode : ∀ ii : Fin 4, land (0x14 + (ii.val : Int)) 0xfc = 0x14 := by decide
  have harm : exec04 bd 7 (0x14 + (ii.val : Int)) =
      execSegBranch bd (land (0x14 + (ii.val : Int)) 3) true := by
    rw [exec04, if_neg (by omega), if_neg (by omega), if_neg (by omega), if_neg (by omega),
      if_neg (by omega), if_neg (by rw [hmode]; decide), if_pos ⟨rfl, hmode ii⟩]
  rw [Pair.opening, execute_04 bd (by decide) (by omega), harm, hii]
  rfl

/-- A far call reads its new `CSBR` and `IC` after the link has been pushed. -/
theorem view_loadCsIc (s : Cpu σ) (base : Int) : ∃ cs ic,
    view ((loadCsIc bd base).run s).2 = ({ (view s).1 with CSBR := cs, IC := ic }, (view s).2) :=
  ⟨_, _, rfl⟩

theorem view_pushLink (s : Cpu σ) : view ((pushLink bd true).run s).2 =
    pushAll [(view s).1.IC, (view s).1.CSBR] (view s) := by
  simp only [pushLink, if_true, run_bind, reg_run, view_pushOne]
  rfl

variable {s : Cpu σ}

theorem general_IC (r : CPURegister) (ic : Int) (d : Fin 7) :
    general { r with IC := ic } d = general r d := by
  obtain ⟨d, hd⟩ := d
  interval_cases d <;> rfl

/-- What the opening instruction of a pair does: it pushes what the pair saves and goes on
anywhere. -/
theorem view_opening (p : Pair) (hword : (fetchInstruction bd s).1 = p.opening) :
    ∃ ic ic' cs', view (advance bd s) =
      ({ (pushAll (p.saved s.reg) ({ s.reg with IC := ic }, s.mem)).1 with
          IC := ic', CSBR := cs' },
        (pushAll (p.saved s.reg) ({ s.reg with IC := ic }, s.mem)).2) := by
  have hview : view (fetchInstruction bd s).2 =
      ({ s.reg with IC := (s.reg.IC + 1) % 65536 }, s.mem) := by
    rw [view_fetchInstruction, land_ffff]
    rfl
  have hreg : (fetchInstruction bd s).2.reg = { s.reg with IC := (s.reg.IC + 1) % 65536 } :=
    congrArg Prod.fst hview
  have hsecond : view ((fetch bd).run (fetchInstruction bd s).2).2 =
      ({ s.reg with IC := (s.reg.IC + 2) % 65536 }, s.mem) := by
    have hic : ((s.reg.IC + 1) % 65536 + 1) % 65536 = (s.reg.IC + 2) % 65536 := by omega
    rw [view_fetch, hview, land_ffff, ← hic]
  rw [advance, hword]
  cases p with
  | push d =>
      refine ⟨(s.reg.IC + 1) % 65536, (s.reg.IC + 1) % 65536, s.reg.CSBR, ?_⟩
      rw [execute_push, run_bind, gr_run, view_pushOne, hview, hreg, general_IC]
      rfl
  | pshm =>
      refine ⟨(s.reg.IC + 1) % 65536, (s.reg.IC + 1) % 65536, s.reg.CSBR, ?_⟩
      generalize (fetchInstruction bd s).2 = t at hview hreg ⊢
      obtain ⟨s₁, h₁, hv₁⟩ := push_run bd t (t.reg.R 0)
      obtain ⟨s₂, h₂, hv₂⟩ := push_run bd s₁ (s₁.reg.R 1)
      obtain ⟨s₃, h₃, hv₃⟩ := push_run bd s₂ (s₂.reg.R 2)
      obtain ⟨s₄, h₄, hv₄⟩ := push_run bd s₃ (s₃.reg.R 3)
      obtain ⟨s₅, h₅, hv₅⟩ := push_run bd s₄ (s₄.reg.R 4)
      have hR : ∀ {u u' : Cpu σ} {v : Int}, view u' = pushOne v (view u) → u'.reg.R = u.reg.R :=
        fun h => congrArg (fun c : View => c.1.R) h
      have hrun : ((execute bd Pair.pshm.opening).run t).2 = s₅ := by
        rw [execute_pshm]
        simp only [run_bind, reg_run, h₁, h₂, h₃, h₄, h₅]
      rw [hrun, hv₅, hv₄, hv₃, hv₂, hv₁, hR hv₄, hR hv₃, hR hv₂, hR hv₁, hreg, hview]
      rfl
  | bal mmm d8 =>
      have hmode : 0 ≤ (mmm.val : Int) ∧ (mmm.val : Int) ≤ 7 := by omega
      have hlow : 0 ≤ (d8.val : Int) ∧ (d8.val : Int) ≤ 0xff := by omega
      have hfit : EAFits ⟨mmm, d8⟩ := ⟨hmode, hlow⟩
      have hzero : 0 ≤ (0 : Int) ∧ (0 : Int) ≤ 5 := by decide
      refine ⟨(s.reg.IC + 1) % 65536, ((ea bd mmm d8).run (fetchInstruction bd s).2).1,
        s.reg.CSBR, ?_⟩
      rw [Pair.opening, execute_word bd hfit hzero,
        view_execMemory bd _ .BAL hmode hzero trivial, hview, perform]
      have hslot : slot { s.reg with IC := (s.reg.IC + 1) % 65536 } 0 =
          BitVec.ofInt 18 (phys s.reg.SP s.reg.SSBR) := by
        rw [slot, Int.sub_zero]
      dsimp only
      rw [land_ffff, ← hslot]
      rfl
  | bald =>
      generalize (fetchInstruction bd s).2 = t at hsecond ⊢
      generalize hu : (fetch bd).run t = u at hsecond
      have hIC : u.2.reg.IC = (s.reg.IC + 2) % 65536 := congrArg (fun c : View => c.1.IC) hsecond
      have hrun : view ((execute bd Pair.bald.opening).run t).2 =
          ({ (pushOne u.2.reg.IC (view u.2)).1 with IC := u.1 },
            (pushOne u.2.reg.IC (view u.2)).2) := by
        rw [execute_bald, run_bind, hu, run_bind, reg_run, run_bind, ← view_pushOne bd]
        rfl
      exact ⟨(s.reg.IC + 2) % 65536, u.1, s.reg.CSBR, by rw [hrun, hIC, hsecond]; rfl⟩
  | ball =>
      generalize (fetchInstruction bd s).2 = t at hsecond ⊢
      generalize hu : (fetch bd).run t = u at hsecond
      obtain ⟨cs, ic, hload⟩ := view_loadCsIc bd ((pushLink bd true).run u.2).2 u.1
      refine ⟨(s.reg.IC + 2) % 65536, ic, cs, ?_⟩
      rw [execute_ball, run_bind, hu, run_bind, hload, view_pushLink, hsecond]
      rfl
  | balr ii =>
      generalize (fetchInstruction bd s).2 = t at hview ⊢
      obtain ⟨cs, ic, hload⟩ := view_loadCsIc bd ((pushLink bd true).run t).2 (t.reg.R ii.succ)
      refine ⟨(s.reg.IC + 1) % 65536, ic, cs, ?_⟩
      rw [execute_balr, run_bind, ri_run, run_bind, hload, view_pushLink, hview]
      rfl

/-- The opening instruction of a pair pushes what the pair saves. -/
theorem pushed_opening (p : Pair) (hword : (fetchInstruction bd s).1 = p.opening)
    (hsp : Within 0xffff s.reg.SP) : Pushed (p.saved s.reg) (view s) (view (advance bd s)) := by
  obtain ⟨ic, ic', cs', hview⟩ := view_opening bd p hword
  have hlen : (p.saved s.reg).length < 65536 := by
    cases p <;> simp [Pair.saved]
  have hpushed := pushed_pushAll (p.saved s.reg) ({ s.reg with IC := ic }, s.mem) hlen hsp
  rw [hview]
  exact hpushed.congr rfl rfl rfl rfl rfl rfl

end Execution

section Closing

variable {σ : Type} (bd : Board σ) {r : CPURegister} {s u : Cpu σ}

/-- Taking back the word `k` of what has been pushed from `r` on -/
theorem pop_saved {k : Nat} {v : Int} (hSP : u.reg.SP = (r.SP - (k + 1 : Nat)) % 65536)
    (hSSBR : u.reg.SSBR = r.SSBR) (hstored : u.mem (slot r k) = BitVec.ofInt 16 v)
    (hv : Within 0xffff v) :
    ∃ u', (pop bd).run u = (v, u') ∧
      view u' = ({ u.reg with SP := (r.SP - k) % 65536 }, u.mem) := by
  obtain ⟨u', hrun, hview⟩ := pop_run bd u
  have hslot : slot u.reg (-1) = slot r k := by
    refine slot_congr hSSBR ?_
    rw [hSP]
    push_cast
    omega
  have hvalue : num (u.mem (slot u.reg (-1))) = v := by
    rw [hslot, hstored]
    exact num_ofInt hv.1 (Int.lt_of_le_of_lt hv.2 (by decide))
  have hnext : (u.reg.SP + 1) % 65536 = (r.SP - k) % 65536 := by
    rw [hSP]
    push_cast
    omega
  rw [hvalue] at hrun
  refine ⟨u', hrun, hview.trans ?_⟩
  rw [popOne, ← hnext]
  rfl

/-- What the closing instruction finds: the words of the pair on top of the stack -/
structure OnTop (vs : List Int) (r : CPURegister) (c : View) : Prop where
  SP : c.1.SP = (r.SP - vs.length) % 65536
  SSBR : c.1.SSBR = r.SSBR
  stored : ∀ (i : Nat) (v : Int), vs[i]? = some v → c.2 (slot r i) = BitVec.ofInt 16 v
  within : ∀ v ∈ vs, Within 0xffff v

/-- One word is taken from the top. -/
theorem OnTop.takeLast {vs : List Int} {v : Int} (h : OnTop (vs ++ [v]) r (view u)) :
    ∃ u', (pop bd).run u = (v, u') ∧
      view u' = ({ u.reg with SP := (r.SP - vs.length) % 65536 }, u.mem) ∧
      OnTop vs r (view u') := by
  have hlast : (vs ++ [v])[vs.length]? = some v := List.getElem?_concat_length
  have hSP : u.reg.SP = (r.SP - (vs.length + 1 : Nat)) % 65536 := by
    have hlen := h.SP
    rw [List.length_append, List.length_singleton] at hlen
    exact hlen
  obtain ⟨u', hrun, hview⟩ := pop_saved bd hSP h.SSBR (h.stored _ _ hlast) (h.within v (by simp))
  refine ⟨u', hrun, hview, ?_, ?_, ?_, fun w hw => h.within w (by simp [hw])⟩
  · rw [hview]
  · rw [hview]
    exact h.SSBR
  · intro i w hw
    have hi : i < vs.length := (List.getElem?_eq_some_iff.mp hw).1
    rw [hview]
    exact h.stored i w ((List.getElem?_append_left hi).trans hw)

theorem OnTop.congr {vs : List Int} {c d : View} (h : OnTop vs r c) (hSP : d.1.SP = c.1.SP)
    (hSSBR : d.1.SSBR = c.1.SSBR) (hmem : d.2 = c.2) : OnTop vs r d where
  SP := hSP.trans h.SP
  SSBR := hSSBR.trans h.SSBR
  stored i v hv := by rw [hmem, h.stored i v hv]
  within := h.within

/-- A word of POPM -/
theorem OnTop.takeR {vs : List Int} {v : Int} (h : OnTop (vs ++ [v]) r (view u)) (i : Fin 5) :
    ∃ u', (pop bd).run u = (v, u') ∧
      view ((setR i v).run u').2 = ({ u.reg with
        SP := (r.SP - vs.length) % 65536, R := Function.update u.reg.R i v }, u.mem) ∧
      OnTop vs r (view ((setR i v).run u').2) := by
  obtain ⟨u', hrun, hview, htop⟩ := h.takeLast bd
  have hreg : u'.reg = { u.reg with SP := (r.SP - vs.length) % 65536 } := congrArg Prod.fst hview
  have hmem : u'.mem = u.mem := congrArg Prod.snd hview
  refine ⟨u', hrun, ?_, htop.congr rfl rfl rfl⟩
  rw [setR_run, view]
  dsimp only
  rw [hreg, hmem]

theorem within_saved (p : Pair) (hr : Bounded 0xffff 0xffff r) :
    ∀ v ∈ p.saved r, Within 0xffff v := by
  have hret : ∀ n : Int, Within 0xffff ((r.IC + n) % 65536) := fun n => by constructor <;> omega
  have hcsbr : Within 0xffff r.CSBR := hr.CSBR.mono (by decide)
  cases p with
  | push d => simpa [Pair.saved] using within_general hr d
  | pshm => simpa [Pair.saved] using ⟨hr.R 0, hr.R 1, hr.R 2, hr.R 3, hr.R 4⟩
  | bal mmm d8 => simpa [Pair.saved] using hret _
  | bald => simpa [Pair.saved] using hret _
  | ball => simpa [Pair.saved] using ⟨hret _, hcsbr⟩
  | balr ii => simpa [Pair.saved] using ⟨hret _, hcsbr⟩

/-- The registers from which a pair is closed -/
structure Closed (p : Pair) (r : CPURegister) (mem : Mem) (t : Cpu σ) : Prop where
  SP : t.reg.SP = r.SP
  SSBR : t.reg.SSBR = r.SSBR
  mem : t.mem = mem
  restores : p.Restores r t.reg

theorem closed_push (d : Fin 7) (hr : Bounded 0xffff 0xffff r)
    (htop : OnTop ((Pair.push d).saved r) r (view u)) :
    Closed (.push d) r u.mem ((execute bd (Pair.push d).closing).run u).2 := by
  have hsaved : (Pair.push d).saved r = [] ++ [general r d] := rfl
  rw [hsaved] at htop
  obtain ⟨u', hrun, hview, _⟩ := htop.takeLast bd
  have hreg : u'.reg = { u.reg with SP := (r.SP - (0 : Nat)) % 65536 } := congrArg Prod.fst hview
  have hland : land (general r d) 0xffff = general r d := land_word_of_within (within_general hr d)
  have hSP : (r.SP - (0 : Nat)) % 65536 = r.SP := by
    obtain ⟨h0, h1⟩ := hr.SP
    omega
  rw [execute_pop, run_bind, hrun, sw_run, hland, hreg, hSP]
  have hSSBR := htop.SSBR
  refine ⟨?_, ?_, congrArg Prod.snd hview, general_put⟩
  · obtain ⟨d, hd⟩ := d
    interval_cases d <;> rfl
  · obtain ⟨d, hd⟩ := d
    interval_cases d
    all_goals exact hSSBR

theorem closed_pshm (hr : Bounded 0xffff 0xffff r) (htop : OnTop (Pair.pshm.saved r) r (view u)) :
    Closed .pshm r u.mem ((execute bd Pair.pshm.closing).run u).2 := by
  have h₄ : OnTop ([r.R 0, r.R 1, r.R 2, r.R 3] ++ [r.R 4]) r (view u) := htop
  obtain ⟨u₄, hrun₄, hview₄, htop₄⟩ := h₄.takeR bd 4
  have h₃ : OnTop ([r.R 0, r.R 1, r.R 2] ++ [r.R 3]) r _ := htop₄
  obtain ⟨u₃, hrun₃, hview₃, htop₃⟩ := h₃.takeR bd 3
  have h₂ : OnTop ([r.R 0, r.R 1] ++ [r.R 2]) r _ := htop₃
  obtain ⟨u₂, hrun₂, hview₂, htop₂⟩ := h₂.takeR bd 2
  have h₁ : OnTop ([r.R 0] ++ [r.R 1]) r _ := htop₂
  obtain ⟨u₁, hrun₁, hview₁, htop₁⟩ := h₁.takeR bd 1
  have h₀ : OnTop ([] ++ [r.R 0]) r _ := htop₁
  obtain ⟨u₀, hrun₀, hview₀, htop₀⟩ := h₀.takeR bd 0
  have hrun : (execute bd Pair.pshm.closing).run u = (setR 0 (r.R 0)).run u₀ := by
    rw [execute_popm]
    simp only [run_bind, hrun₄, hrun₃, hrun₂, hrun₁, hrun₀]
  rw [hrun]
  generalize ((setR 4 (r.R 4)).run u₄).2 = x₄ at *
  generalize ((setR 3 (r.R 3)).run u₃).2 = x₃ at *
  generalize ((setR 2 (r.R 2)).run u₂).2 = x₂ at *
  generalize ((setR 1 (r.R 1)).run u₁).2 = x₁ at *
  generalize ((setR 0 (r.R 0)).run u₀).2 = x₀ at *
  have hR : ∀ {x : Cpu σ} {reg : CPURegister} {mem : Mem}, view x = (reg, mem) → x.reg.R = reg.R :=
    fun h => congrArg (fun c : View => c.1.R) h
  have hmem : ∀ {x y : Cpu σ} {reg : CPURegister}, view x = (reg, y.mem) → x.mem = y.mem :=
    fun h => congrArg Prod.snd h
  refine ⟨?_, htop₀.SSBR, ?_, ?_⟩
  · obtain ⟨h0, h1⟩ := hr.SP
    refine htop₀.SP.trans ?_
    rw [List.length_nil]
    omega
  · rw [hmem hview₀, hmem hview₁, hmem hview₂, hmem hview₃, hmem hview₄]
  · change x₀.reg.R = r.R
    rw [hR hview₀, hR hview₁, hR hview₂, hR hview₃, hR hview₄]
    funext ⟨i, hi⟩
    interval_cases i <;> rfl

/-- RET takes the word that the call has pushed. -/
theorem closed_ret {p : Pair} (hclosing : p.closing = fieldWord 0x04 0 0x03)
    (hsaved : p.saved r = [(r.IC + p.length) % 65536])
    (hrestores : ∀ r' : CPURegister, r'.IC = (r.IC + p.length) % 65536 → p.Restores r r')
    (hr : Bounded 0xffff 0xffff r) (htop : OnTop (p.saved r) r (view u)) :
    Closed p r u.mem ((execute bd p.closing).run u).2 := by
  have h : OnTop ([] ++ [(r.IC + p.length) % 65536]) r (view u) := by
    rw [hsaved] at htop
    exact htop
  obtain ⟨u', hrun, hview, htop'⟩ := h.takeLast bd
  have hmem : u'.mem = u.mem := congrArg Prod.snd hview
  have hSP : u'.reg.SP = r.SP := by
    obtain ⟨h0, h1⟩ := hr.SP
    refine htop'.SP.trans ?_
    rw [List.length_nil]
    omega
  rw [hclosing, execute_ret, run_bind, hrun]
  exact ⟨hSP, htop'.SSBR, hmem, hrestores _ rfl⟩

/-- RETL takes `CSBR` first and then the return address. -/
theorem closed_retl {p : Pair} (hclosing : p.closing = fieldWord 0x07 7 0x07)
    (hsaved : p.saved r = [(r.IC + p.length) % 65536, r.CSBR])
    (hrestores : ∀ r' : CPURegister, r'.IC = (r.IC + p.length) % 65536 → r'.CSBR = r.CSBR →
      p.Restores r r')
    (hr : Bounded 0xffff 0xffff r) (htop : OnTop (p.saved r) r (view u)) :
    Closed p r u.mem ((execute bd p.closing).run u).2 := by
  have h : OnTop ([(r.IC + p.length) % 65536] ++ [r.CSBR]) r (view u) := by
    rw [hsaved] at htop
    exact htop
  obtain ⟨u₁, hrun₁, hview₁, htop₁⟩ := h.takeLast bd
  have hcs : land r.CSBR 0xf = r.CSBR := land_nibble_of_within hr.CSBR
  have hset : view ((setReg fun q => { q with CSBR := land r.CSBR 0xf } : M σ Unit).run u₁).2 =
      ({ u₁.reg with CSBR := r.CSBR }, u₁.mem) := by
    rw [hcs]
    rfl
  generalize hv : ((setReg fun q => { q with CSBR := land r.CSBR 0xf } : M σ Unit).run u₁).2 = v
    at hset
  have h₁ : OnTop ([] ++ [(r.IC + p.length) % 65536]) r (view v) := by
    rw [hset]
    exact htop₁.congr rfl rfl rfl
  obtain ⟨u₂, hrun₂, hview₂, htop₂⟩ := h₁.takeLast bd
  have hmem : u₂.mem = u.mem := by
    have h₂ : u₂.mem = v.mem := congrArg Prod.snd hview₂
    have h₃ : v.mem = u₁.mem := congrArg Prod.snd hset
    rw [h₂, h₃]
    exact congrArg Prod.snd hview₁
  have hCSBR : u₂.reg.CSBR = r.CSBR := by
    have h₂ : u₂.reg.CSBR = v.reg.CSBR := congrArg (fun c : View => c.1.CSBR) hview₂
    rw [h₂]
    exact congrArg (fun c : View => c.1.CSBR) hset
  have hSP : u₂.reg.SP = r.SP := by
    obtain ⟨h0, h1⟩ := hr.SP
    refine htop₂.SP.trans ?_
    rw [List.length_nil]
    omega
  rw [hclosing, execute_retl, run_bind, hrun₁, run_bind, hv, run_bind, hrun₂]
  exact ⟨hSP, htop₂.SSBR, hmem, hrestores _ rfl hCSBR⟩

/-- The closing instruction of a pair restores what the pair has saved. -/
theorem closed_closing (p : Pair) (hr : Bounded 0xffff 0xffff r)
    (hword : (fetchInstruction bd u).1 = p.closing)
    (hSP : u.reg.SP = (r.SP - (p.saved r).length) % 65536)
    (hSSBR : u.reg.SSBR = r.SSBR)
    (hstored : ∀ (i : Nat) (v : Int), (p.saved r)[i]? = some v →
      u.mem (slot r i) = BitVec.ofInt 16 v) :
    Closed p r u.mem (advance bd u) := by
  have hview := view_fetchInstruction bd u
  have hmem : (fetchInstruction bd u).2.mem = u.mem := congrArg Prod.snd hview
  have htop : OnTop (p.saved r) r (view (fetchInstruction bd u).2) := by
    rw [hview]
    exact ⟨hSP, hSSBR, hstored, within_saved p hr⟩
  rw [advance, hword, ← hmem]
  cases p with
  | push d => exact closed_push bd d hr htop
  | pshm => exact closed_pshm bd hr htop
  | bal mmm d8 => exact closed_ret bd rfl rfl (fun _ h => h) hr htop
  | bald => exact closed_ret bd rfl rfl (fun _ h => h) hr htop
  | ball => exact closed_retl bd rfl rfl (fun _ h h' => ⟨h, h'⟩) hr htop
  | balr ii => exact closed_retl bd rfl rfl (fun _ h h' => ⟨h, h'⟩) hr htop

end Closing

section Runs

/-- The slots that a pair uses -/
def Pair.slots (p : Pair) (r : CPURegister) : List (BitVec 18) :=
  (List.range (p.saved r).length).map fun i => slot r (i : Nat)

theorem Pair.mem_slots {p : Pair} {r : CPURegister} {c : BitVec 18} :
    c ∈ p.slots r ↔ ∃ i < (p.saved r).length, slot r (i : Nat) = c := by
  simp [Pair.slots]

variable {σ : Type} (bd : Board σ)

/-- A step that leaves `SSBR` and the slots in use alone -/
structure Spares (used : List (BitVec 18)) (s s' : Cpu σ) : Prop where
  SSBR : s'.reg.SSBR = s.reg.SSBR
  slots : ∀ c ∈ used, s'.mem c = s.mem c
  bounded : Bounded 0xffff 0xffff s'.reg

/-- `Balanced bd P used s t log`: from `s` to `t` pairs are executed, nested and in sequence,
and in between other steps that spare the slots in use and satisfy `P`: instructions, the
handling of interrupts, accesses of devices.  `log` lists the pairs with the states before
the opening and behind the closing instruction. -/
inductive Balanced (P : Cpu σ → Cpu σ → Prop) :
    List (BitVec 18) → Cpu σ → Cpu σ → List (Pair × Cpu σ × Cpu σ) → Prop
  | done {used : List (BitVec 18)} {s : Cpu σ} : Balanced P used s s []
  | other {used : List (BitVec 18)} {s s' t : Cpu σ} {log : List (Pair × Cpu σ × Cpu σ)} :
      Spares used s s' →
      P s s' →
      Balanced P used s' t log →
      Balanced P used s t log
  /-- The slots of the pair are not in use yet, and they are in use up to its closing. -/
  | pair {used : List (BitVec 18)} {s s' t : Cpu σ} {log log' : List (Pair × Cpu σ × Cpu σ)}
      (p : Pair) :
      (fetchInstruction bd s).1 = p.opening →
      (∀ c ∈ p.slots s.reg, c ∉ used) →
      Balanced P (p.slots s.reg ++ used) (advance bd s) s' log →
      (fetchInstruction bd s').1 = p.closing →
      Balanced P used (advance bd s') t log' →
      Balanced P used s t ((p, s, advance bd s') :: log ++ log')

/-- Behind a pair `SP` is what it was before, and what the pair has saved is restored. -/
def Restored (entry : Pair × Cpu σ × Cpu σ) : Prop :=
  entry.2.2.reg.SP = entry.2.1.reg.SP ∧ entry.1.Restores entry.2.1.reg entry.2.2.reg

/-- What a balanced run keeps -/
structure Kept (used : List (BitVec 18)) (s t : Cpu σ) : Prop extends Spares used s t where
  SP : t.reg.SP = s.reg.SP

/-- A pair is closed on what it has pushed, if the run in between keeps it. -/
theorem closed_pair {used : List (BitVec 18)} {s s' : Cpu σ} (p : Pair)
    (hs : Bounded 0xffff 0xffff s.reg) (hopen : (fetchInstruction bd s).1 = p.opening)
    (hkept : Kept (p.slots s.reg ++ used) (advance bd s) s')
    (hclose : (fetchInstruction bd s').1 = p.closing) :
    Closed p s.reg s'.mem (advance bd s') := by
  have hpushed := pushed_opening bd p hopen hs.SP
  refine closed_closing bd p hs hclose ?_ ?_ ?_
  · exact hkept.SP.trans hpushed.SP
  · exact hkept.SSBR.trans hpushed.SSBR
  · intro i v hv
    have hi : i < (p.saved s.reg).length := (List.getElem?_eq_some_iff.mp hv).1
    have hslot : slot s.reg i ∈ p.slots s.reg ++ used :=
      List.mem_append_left _ (Pair.mem_slots.mpr ⟨i, hi, rfl⟩)
    exact (hkept.slots _ hslot).trans (hpushed.stored i v hv)

/-- The opening instruction spares the slots that are in use already. -/
theorem opening_spares {used : List (BitVec 18)} {s : Cpu σ} (p : Pair)
    (hs : Bounded 0xffff 0xffff s.reg) (hopen : (fetchInstruction bd s).1 = p.opening)
    (hfree : ∀ c ∈ p.slots s.reg, c ∉ used) : Spares used s (advance bd s) := by
  have hpushed := pushed_opening bd p hopen hs.SP
  refine ⟨hpushed.SSBR, ?_, advance_bounded bd hs⟩
  intro c hc
  refine hpushed.other c fun i hi heq => ?_
  exact hfree c (Pair.mem_slots.mpr ⟨i, hi, heq.symm⟩) hc

theorem Kept.trans {used : List (BitVec 18)} {s s' t : Cpu σ} (h : Kept used s s')
    (h' : Kept used s' t) : Kept used s t where
  SSBR := h'.SSBR.trans h.SSBR
  slots := fun c hc => (h'.slots c hc).trans (h.slots c hc)
  bounded := h'.bounded
  SP := h'.SP.trans h.SP

variable {bd}

/-- A balanced run keeps `SP`, `SSBR` and the slots in use, and its pairs restore what they
have saved. -/
theorem Balanced.kept {P : Cpu σ → Cpu σ → Prop} (hP : ∀ s s', P s s' → s'.reg.SP = s.reg.SP)
    {used : List (BitVec 18)} {s t : Cpu σ} {log : List (Pair × Cpu σ × Cpu σ)}
    (hrun : Balanced bd P used s t log) (hs : Bounded 0xffff 0xffff s.reg) :
    Kept used s t ∧ ∀ entry ∈ log, Restored entry := by
  induction hrun with
  | done => exact ⟨⟨⟨rfl, fun _ _ => rfl, hs⟩, rfl⟩, by simp⟩
  | other hspares hstep hrest ih =>
      obtain ⟨hkept, hlog⟩ := ih hspares.bounded
      exact ⟨Kept.trans ⟨hspares, hP _ _ hstep⟩ hkept, hlog⟩
  | @pair used s s' t log log' p hopen hfree hinner hclose hrest ih ih' =>
      have hspares := opening_spares bd p hs hopen hfree
      obtain ⟨hkept, hlog⟩ := ih hspares.bounded
      have hclosed := closed_pair bd p hs hopen hkept hclose
      have hpair : Kept used s (advance bd s') := by
        refine ⟨⟨hclosed.SSBR, ?_, advance_bounded bd hkept.bounded⟩, hclosed.SP⟩
        intro c hc
        rw [hclosed.mem, hkept.slots c (List.mem_append_right _ hc), hspares.slots c hc]
      obtain ⟨hkept', hlog'⟩ := ih' hpair.bounded
      refine ⟨hpair.trans hkept', ?_⟩
      intro entry hentry
      rcases List.mem_append.mp hentry with hin | hin
      · rcases List.mem_cons.mp hin with rfl | hin
        · exact ⟨hclosed.SP, hclosed.restores⟩
        · exact hlog entry hin
      · exact hlog' entry hin

end Runs

section Results

variable {σ : Type} (bd : Board σ)

/-- The stack and call discipline: a balanced run whose other steps do not assign `SP` ends
with its `SP`, and every pair in it restores what it has saved, the returns `IC` and, in the
long forms, `CSBR`. -/
theorem stack_discipline {used : List (BitVec 18)} {s t : Cpu σ}
    {log : List (Pair × Cpu σ × Cpu σ)} (hs : Bounded 0xffff 0xffff s.reg)
    (hrun : Balanced bd (fun s s' => s'.reg.SP = s.reg.SP) used s t log) :
    t.reg.SP = s.reg.SP ∧ ∀ entry ∈ log, Restored entry := by
  obtain ⟨hkept, hlog⟩ := hrun.kept (fun _ _ h => h) hs
  exact ⟨hkept.SP, hlog⟩

/-- PUSH R1 and POP R1 around a call, on a stack that wraps around -/
def nestedStart : Cpu Unit :=
  let mem : Mem := fun a =>
    if a = 0x10 then 0x2101 else if a = 0x11 then 0x2617 else if a = 0x12 then 0x20
    else if a = 0x13 then 0x2102 else if a = 0x20 then 0x2003 else 0
  { Cpu.initial mem () with
    reg := { CPURegister.initial with IC := 0x10, SSBR := 1 } }

theorem stack_discipline_nested :
    ∃ (t : Cpu Unit) (log : List (Pair × Cpu Unit × Cpu Unit)), log.length = 2 ∧
      t.reg.SP = nestedStart.reg.SP ∧ ∀ entry ∈ log, Restored entry := by
  have hbounded : Bounded 0xffff 0xffff nestedStart.reg :=
    { (bounded_initial (by decide) (by decide) : Bounded 0xffff 0xffff .initial) with
      IC := ⟨by decide, by decide⟩
      SSBR := ⟨by decide, by decide⟩ }
  have inner : Balanced .default (fun s s' => s'.reg.SP = s.reg.SP)
      ((Pair.push 1).slots nestedStart.reg ++ []) (advance .default nestedStart) _ _ :=
    .pair .bald (by decide) (forall_mem_of_all (by decide)) .done
      (by decide) .done
  have run : Balanced .default (fun s s' => s'.reg.SP = s.reg.SP) [] nestedStart _ _ :=
    .pair (.push 1) (by decide) (forall_mem_of_all (by decide)) inner
      (by decide) .done
  exact ⟨_, _, rfl, stack_discipline .default hbounded run⟩

/-- A core in front of `AI SP, #1` -/
def movedStack : Cpu Unit := Cpu.initial (fun _ => 0x4d01) ()

/-- Other instructions may assign `SP`. -/
theorem other_step_moves_SP :
    ¬ ∀ (used : List (BitVec 18)) (s t : Cpu Unit) (log : List (Pair × Cpu Unit × Cpu Unit)),
        Bounded 0xffff 0xffff s.reg → Balanced .default (fun _ _ => True) used s t log →
        t.reg.SP = s.reg.SP ∧ ∀ entry ∈ log, Restored entry := by
  intro h
  have hbounded : Bounded 0xffff 0xffff movedStack.reg := bounded_initial (by decide) (by decide)
  have hspares : Spares [] movedStack (advance .default movedStack) :=
    ⟨by decide, by simp, advance_bounded .default hbounded⟩
  have hrun : Balanced .default (fun _ _ => True) [] movedStack (advance .default movedStack) [] :=
    .other hspares trivial .done
  exact absurd (h [] _ _ [] hbounded hrun).1 (by decide)

end Results

end Mn1613
end RetroCpu
