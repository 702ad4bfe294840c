import Mathlib.Tactic.NormNum.Prime
import RetroCpu.BootMonitor.Mn1613Guest
import RetroCpu.Lib.XorLinear

/-!
# The random numbers of the MN1613 monitor (`mn1613/bios/bios_common.asm`)

`g_get_rnd_` as the words that the assembler makes of it, executed by the Rust core.  The routine
is a step of a Galois register on the word `GL_RND_SEED`, and calls one after the other go through
all words other than 0.
-/

namespace RetroCpu
namespace BootMonitor
namespace Mn1613Random

open EmuRs.Mn1613 RetroCpu.Mn1613 Prog XorLinear Mn1613Guest

section Code

def GL_RND_TAP : U16 := 0xb400

/-- `g_get_rnd_`, with the place of `GL_RND_SEED` in the zero page. -/
def g_get_rnd_ (seed : U8) : List U16 :=
  [0xc000 ||| seed.setWidth 16, 0x7858, 0x0801, 0x2009, 0x2e40, 0x6007, GL_RND_TAP,
    0x8000 ||| seed.setWidth 16, 0x2003]

/-- The lines of `g_get_rnd_`. -/
def g_get_rnd_lines : List AsmTs.ParsedLine :=
  [⟨50, "", none, some "L", ["R0", "*GL_RND_SEED"]⟩,
    ⟨51, "", none, some "MV", ["R0", "R0", "NZ"]⟩,
    ⟨52, "", none, some "MVI", ["R0", "#1"]⟩,
    ⟨53, "", none, some "SR", ["R0", "RE"]⟩,
    ⟨54, "", none, some "TBIT", ["STR", "#0", "Z"]⟩,
    ⟨55, "", none, some "EORI", ["R0", "#GL_RND_TAP"]⟩,
    ⟨56, "", none, some "ST", ["R0", "*GL_RND_SEED"]⟩,
    ⟨57, "", none, some "RET", []⟩]

/-- What the assembler makes of the lines, with `GL_RND_SEED` at `0010`. -/
example : (g_get_rnd_lines.mapM fun line => AsmTs.Mn1613.encodeInstruction line 0x1000
    ((Js.JsMap.empty.set "GL_RND_SEED" (.int 0x10)).set "GL_RND_TAP" (.int 0xb400)) false).map
      List.flatten = .ok ((g_get_rnd_ 0x10).map fun w => (w.toNat : Int)) := by decide +kernel

end Code

section Machine

variable {σ : Type}

theorem rdC_run (la : U16) (s : Core σ) :
    (rdC la).run s = (s.ram (place s.regs.csbr la), s) := rfl

/-- The words of a piece of code in the memory. -/
def CodeAt (ram : Mem) (segment : U8) : U16 → List U16 → Prop
  | _, [] => True
  | la, w :: ws => ram (place segment la) = w ∧ CodeAt ram segment (la + 1) ws

/-- A place that is none of a piece of code. -/
def Clear (p : BitVec 18) (segment : U8) : U16 → List U16 → Prop
  | _, [] => True
  | la, _ :: ws => place segment la ≠ p ∧ Clear p segment (la + 1) ws

theorem CodeAt.update {ram : Mem} {segment : U8} {p : BitVec 18} {la : U16} {ws : List U16}
    (hcode : CodeAt ram segment la ws) (hclear : Clear p segment la ws) (v : U16) :
    CodeAt (Function.update ram p v) segment la ws := by
  induction ws generalizing la with
  | nil => trivial
  | cons w ws ih =>
      exact ⟨(Function.update_of_ne hclear.1 _ _).trans hcode.1, ih hcode.2 hclear.2⟩

variable (io : Io σ)

/-- The core behind the fetch of a word. -/
def fetched (s : Core σ) : Core σ :=
  { s with regs := { s.regs with ic := s.regs.ic + 1 }, fetches := s.fetches + 1 }

/-- A step without an interrupt executes the word at `IC`. -/
theorem step_of_word {s : Core σ} {w : U16} (hirq : irqLevel s = none)
    (hw : s.ram (place s.regs.csbr s.regs.ic) = w) :
    step io s = ((execute io w).run (fetched s)).2 := by
  have hcheck : checkIrq.run s = ((), s) := by
    by_cases hpending : s.pendingIrq = 0
    · exact checkIrq_idle hpending
    · rw [checkIrq_pending hpending, handleIrq_none hirq]
  subst hw
  rw [step, executeOne, run_bind, hcheck]
  rfl

/-- The core of a routine that has only changed `IC`, `R0` and `STR` so far. -/
def moved (s : Core σ) (ic r0 str : U16) (k : Nat) : Core σ :=
  { s with
    regs := { s.regs with ic := ic, str := str, r := Function.update s.regs.r 0 r0 }
    fetches := s.fetches + k }

/-- The core with another word in the zero page. -/
def stored (s : Core σ) (seed : U8) (v : U16) : Core σ :=
  { s with ram := Function.update s.ram (place s.regs.csbr (seed.setWidth 16)) v }

theorem stored_ram (s : Core σ) (seed : U8) (v : U16) : (stored s seed v).ram =
    Function.update s.ram (place s.regs.csbr (seed.setWidth 16)) v := rfl

theorem moved_r (s : Core σ) (ic r0 str : U16) (k : Nat) :
    (moved s ic r0 str k).regs.r = Function.update s.regs.r 0 r0 := rfl

end Machine

section Flags

/-- The other bits of `STR` stay. -/
theorem withE_other (e : Bool) (str : U16) {m : U16} (hm : ~~~STR_E &&& m = m)
    (hm' : STR_E &&& m = 0) : withE e str &&& m = str &&& m := by
  cases e with
  | false =>
      show (str &&& ~~~STR_E) &&& m = str &&& m
      rw [BitVec.and_assoc, hm]
  | true =>
      show (str ||| STR_E) &&& m = str &&& m
      rw [BitVec.and_or_distrib_right, hm']
      exact BitVec.or_zero

theorem low_bit (x : U16) : decide (x &&& 1 ≠ 0) = x.getLsbD 0 := by
  have h : x &&& 1 = (BitVec.ofBool (x.getLsbD 0)).setWidth 16 :=
    BitVec.and_one_eq_setWidth_ofBool_getLsbD
  rw [h]
  cases x.getLsbD 0 with
  | false => rfl
  | true => rfl

end Flags

section Rules

variable {σ : Type} (io : Io σ) {s : Core σ} {ic r0 str : U16} {k : Nat}

theorem fetched_moved : fetched (moved s ic r0 str k) = moved s (ic + 1) r0 str (k + 1) := rfl

theorem gr_moved : (gr 0).run (moved s ic r0 str k) = (r0, moved s ic r0 str k) := by
  show (Function.update s.regs.r 0 r0 0, moved s ic r0 str k) = _
  rw [Function.update_self]

theorem sw_moved (v : U16) :
    (sw 0 v).run (moved s ic r0 str k) = ((), moved s ic v str k) := by
  have hword : v &&& 0xffff = v := BitVec.and_allOnes
  have hidem : Function.update (Function.update s.regs.r 0 r0) 0 (v &&& 0xffff) =
      Function.update s.regs.r 0 v := by rw [Function.update_idem, hword]
  exact congrArg (fun r => ((), { s with
    regs := { s.regs with ic := ic, str := str, r := r }, fetches := s.fetches + k })) hidem

theorem setE_moved (e : Bool) :
    (setE e).run (moved s ic r0 str k) = ((), moved s ic r0 (withE e str) k) := rfl

theorem skipNext_moved {w : U16} (hw : s.ram (place s.regs.csbr ic) = w) :
    skipNext.run (moved s ic r0 str k) =
      ((), moved s (if is2word w then ic + 1 + 1 else ic + 1) r0 str k) := by
  subst hw
  rw [skipNext, run_bind, show (reg CpuRegister.ic).run (moved s ic r0 str k) = (ic, _) from rfl,
    run_bind, rdC_run, run_bind]
  show (ite (is2word (s.ram (place s.regs.csbr ic)) = true) _ _ : M σ Unit).run _ = _
  cases is2word (s.ram (place s.regs.csbr ic)) with
  | false => rfl
  | true => rfl

/-- An instruction that skips the word behind it under a condition. -/
theorem skipIf_moved {w kkkk result : U16} {c : Bool} (hw : s.ram (place s.regs.csbr ic) = w)
    (hc : ((skipCond kkkk result).run (moved s ic r0 str k)).1 = c) :
    (skipIf kkkk result).run (moved s ic r0 str k) =
      ((), moved s (if c then if is2word w then ic + 1 + 1 else ic + 1 else ic) r0 str k) := by
  rw [skipIf, run_bind, show (skipCond kkkk result).run (moved s ic r0 str k) = (c, _) from
    Prod.ext hc rfl]
  cases c with
  | false => rfl
  | true => exact skipNext_moved hw

/-- A place in the zero page. -/
theorem ea_moved (seed : U8) :
    (ea 0 (seed.setWidth 16)).run (moved s ic r0 str k) =
      (seed.setWidth 16, moved s ic r0 str k) := by
  have hlow : ∀ seed : U8, (seed.setWidth 16 : U16) &&& 0xff = seed.setWidth 16 := by
    decide +kernel
  exact congrArg (Prod.mk · (moved s ic r0 str k)) (hlow seed)

theorem step_l (seed : U8) (hirq : irqLevel (moved s ic r0 str k) = none)
    (hw : s.ram (place s.regs.csbr ic) = 0xc000 ||| seed.setWidth 16) :
    step io (moved s ic r0 str k) =
      moved s (ic + 1) (s.ram (place s.regs.csbr (seed.setWidth 16))) str (k + 1) := by
  have hdecode : ∀ seed : U8, ((0xc000 ||| seed.setWidth 16 : U16) >>> 11) &&& 0x1f = 0x18 ∧
      ((0xc000 ||| seed.setWidth 16 : U16) >>> 8) &&& 0x7 = 0 ∧
      (0xc000 ||| seed.setWidth 16 : U16) &&& 0xff = seed.setWidth 16 := by decide +kernel
  obtain ⟨hop, hrrr, hlo⟩ := hdecode seed
  have hexec : execute io (0xc000 ||| seed.setWidth 16) = execMemory (σ := σ) 0x18 0 (seed.setWidth 16) := by
    unfold execute
    simp only [hop, hrrr, hlo]
    rfl
  have hload : execMemory (σ := σ) 0x18 0 (seed.setWidth 16) =
      ea 0 (seed.setWidth 16) >>= fun ea => rdC ea >>= sw 0 := rfl
  rw [step_of_word io hirq hw, hexec, hload, fetched_moved, run_bind, ea_moved, run_bind, rdC_run,
    sw_moved]
  rfl

theorem step_mv (hirq : irqLevel (moved s ic r0 str k) = none)
    (hw : s.ram (place s.regs.csbr ic) = 0x7858)
    (hnext : s.ram (place s.regs.csbr (ic + 1)) = 0x0801) :
    step io (moved s ic r0 str k) =
      moved s (if r0 = 0 then ic + 1 else ic + 1 + 1) r0 str (k + 1) := by
  have hexec : execute io 0x7858 = (gr 0 >>= fun v => sw 0 v >>= fun _ => skipIf (σ := σ) 5 v) := rfl
  have hcond : ((skipCond 5 r0).run (moved s (ic + 1) r0 str (k + 1))).1 = decide (r0 ≠ 0) := by
    show (!decide (r0 &&& 0xffff = 0)) = _
    rw [show r0 &&& 0xffff = r0 from BitVec.and_allOnes]
    exact (decide_not).symm
  rw [step_of_word io hirq hw, hexec, fetched_moved, run_bind, gr_moved, run_bind, sw_moved,
    skipIf_moved hnext hcond]
  by_cases hzero : r0 = 0
  · rw [if_pos hzero, hzero]
    rfl
  · rw [if_neg hzero, decide_eq_true hzero]
    rfl

theorem step_mvi (hirq : irqLevel (moved s ic r0 str k) = none)
    (hw : s.ram (place s.regs.csbr ic) = 0x0801) :
    step io (moved s ic r0 str k) = moved s (ic + 1) ((r0 &&& 0xff00) ||| 1) str (k + 1) := by
  have hexec : execute io 0x0801 = (gr 0 >>= fun v => sw (σ := σ) 0 ((v &&& 0xff00) ||| 1)) := rfl
  rw [step_of_word io hirq hw, hexec, fetched_moved, run_bind, gr_moved, sw_moved]

theorem step_sr (hirq : irqLevel (moved s ic r0 str k) = none)
    (hw : s.ram (place s.regs.csbr ic) = 0x2009) :
    step io (moved s ic r0 str k) =
      moved s (ic + 1) (r0 >>> 1) (withE (r0.getLsbD 0) (withE false str)) (k + 1) := by
  have hexec : execute io 0x2009 = (setE false >>= fun _ => gr 0 >>= fun a => flagE >>= fun e =>
      setE (decide (a &&& 1 ≠ 0)) >>= fun _ => sw 0 ((a >>> 1) ||| if e then 0x8000 else 0) >>=
        fun _ => skipIf (σ := σ) 0 ((a >>> 1) ||| if e then 0x8000 else 0)) := rfl
  have hflag (ic : U16) : flagE.run (moved s ic r0 (withE false str) (k + 1)) =
      (false, moved s ic r0 (withE false str) (k + 1)) := by
    show (decide (withE false str &&& STR_E ≠ 0), _) = _
    rw [withE_and]
  have hor : r0 >>> 1 ||| (0 : U16) = r0 >>> 1 := BitVec.or_zero
  rw [step_of_word io hirq hw, hexec, fetched_moved, run_bind, setE_moved, run_bind, gr_moved,
    run_bind, hflag, run_bind, setE_moved, run_bind, if_neg Bool.false_ne_true]
  dsimp only
  rw [hor, sw_moved, low_bit]
  rfl

theorem step_tbit (hirq : irqLevel (moved s ic r0 str k) = none)
    (hw : s.ram (place s.regs.csbr ic) = 0x2e40)
    (hnext : s.ram (place s.regs.csbr (ic + 1)) = 0x6007) :
    step io (moved s ic r0 str k) =
      moved s (if str &&& STR_E = 0 then ic + 1 + 1 + 1 else ic + 1) r0 str (k + 1) := by
  have hexec : execute io 0x2e40 = (gr 6 >>= fun v => skipIf (σ := σ) 4 (v &&& 0x8000)) := rfl
  have hgr : (gr 6).run (moved s (ic + 1) r0 str (k + 1)) =
    (str, moved s (ic + 1) r0 str (k + 1)) := rfl
  have hcond : ((skipCond 4 (str &&& 0x8000)).run (moved s (ic + 1) r0 str (k + 1))).1 =
      decide (str &&& STR_E = 0) := by
    show decide (str &&& 0x8000 &&& 0xffff = 0) = _
    rw [show str &&& 0x8000 &&& 0xffff = str &&& 0x8000 from BitVec.and_allOnes]
    rfl
  rw [step_of_word io hirq hw, hexec, fetched_moved, run_bind, hgr, skipIf_moved hnext hcond]
  by_cases hzero : str &&& STR_E = 0
  · rw [if_pos hzero, decide_eq_true hzero]
    rfl
  · rw [if_neg hzero, decide_eq_false hzero]
    rfl

theorem step_eori (hirq : irqLevel (moved s ic r0 str k) = none)
    (hw : s.ram (place s.regs.csbr ic) = 0x6007) {w : U16}
    (hnext : s.ram (place s.regs.csbr (ic + 1 + 1)) = w) :
    step io (moved s ic r0 str k) =
      moved s (ic + 1 + 1) (r0 ^^^ s.ram (place s.regs.csbr (ic + 1))) str (k + 2) := by
  have hexec : execute io 0x6007 = (fetch >>= fun imm => gr 0 >>= fun v =>
    sw 0 (v ^^^ imm) >>= fun _ => skipIf (σ := σ) 0 (v ^^^ imm)) := rfl
  have hfetch : fetch.run (moved s (ic + 1) r0 str (k + 1)) =
    (s.ram (place s.regs.csbr (ic + 1)), moved s (ic + 1 + 1) r0 str (k + 2)) := rfl
  rw [step_of_word io hirq hw, hexec, fetched_moved, run_bind, hfetch, run_bind, gr_moved,
    run_bind, sw_moved, skipIf_moved hnext (c := false) rfl]
  rfl

theorem step_st (seed : U8) (hirq : irqLevel (moved s ic r0 str k) = none)
    (hw : s.ram (place s.regs.csbr ic) = 0x8000 ||| seed.setWidth 16) :
    step io (moved s ic r0 str k) =
      moved (stored s seed r0) (ic + 1) r0 str (k + 1) := by
  have hdecode : ∀ seed : U8, ((0x8000 ||| seed.setWidth 16 : U16) >>> 11) &&& 0x1f = 0x10 ∧
      ((0x8000 ||| seed.setWidth 16 : U16) >>> 8) &&& 0x7 = 0 ∧
      (0x8000 ||| seed.setWidth 16 : U16) &&& 0xff = seed.setWidth 16 := by decide +kernel
  obtain ⟨hop, hrrr, hlo⟩ := hdecode seed
  have hexec : execute io (0x8000 ||| seed.setWidth 16) =
      execMemory (σ := σ) 0x10 0 (seed.setWidth 16) := by
    unfold execute
    simp only [hop, hrrr, hlo]
    rfl
  have hstore : execMemory (σ := σ) 0x10 0 (seed.setWidth 16) =
      ea 0 (seed.setWidth 16) >>= fun ea => gr 0 >>= wrC ea := rfl
  rw [step_of_word io hirq hw, hexec, hstore, fetched_moved, run_bind, ea_moved, run_bind, gr_moved]
  rfl

theorem step_ret (hirq : irqLevel (moved s ic r0 str k) = none)
    (hw : s.ram (place s.regs.csbr ic) = 0x2003) :
    step io (moved s ic r0 str k) =
      moved { s with regs := { s.regs with sp := s.regs.sp + 1 } }
        (s.ram (place s.regs.ssbr (s.regs.sp + 1))) r0 str (k + 1) := by
  rw [step_of_word io hirq hw]
  rfl

end Rules

section Routine

variable {σ : Type} (io : Io σ) (seed : U8)

/-- `GL_RND_SEED` -/
def GL_RND_SEED (s : Core σ) : U16 := s.ram (place s.regs.csbr (seed.setWidth 16))

/-- A call of the routine: the core stands at its first word, no interrupt is taken, and the word
`GL_RND_SEED` is neither a word of the code nor the return address. -/
structure Call (s : Core σ) : Prop where
  quiet : irqLevel s = none
  code : CodeAt s.ram s.regs.csbr s.regs.ic (g_get_rnd_ seed)
  clear : Clear (place s.regs.csbr (seed.setWidth 16)) s.regs.csbr s.regs.ic (g_get_rnd_ seed)
  stack : place s.regs.ssbr (s.regs.sp + 1) ≠ place s.regs.csbr (seed.setWidth 16)

/-- The seed that a call starts from: 0 stands for 1. -/
def started (x : U16) : U16 := if x = 0 then 1 else x

/-- The instructions of a call. -/
def callSteps (x : U16) : Nat :=
  2 + ((if (started x).getLsbD 0 then 3 else 2) + if x = 0 then 3 else 2)

/-- The core at the return from a call. -/
def returned (s : Core σ) : Core σ := (step io)^[callSteps (GL_RND_SEED seed s)] s

/-- What a call leaves behind. -/
structure Answer (s t : Core σ) : Prop where
  r0 : t.regs.r 0 = galois GL_RND_TAP (started (GL_RND_SEED seed s))
  others : ∀ i, i ≠ 0 → t.regs.r i = s.regs.r i
  back : t.regs.ic = s.ram (place s.regs.ssbr (s.regs.sp + 1))
  sp : t.regs.sp = s.regs.sp + 1
  ram : t.ram = Function.update s.ram (place s.regs.csbr (seed.setWidth 16)) (t.regs.r 0)
  segments : t.regs.csbr = s.regs.csbr ∧ t.regs.ssbr = s.regs.ssbr
  code : CodeAt t.ram t.regs.csbr s.regs.ic (g_get_rnd_ seed)
  str : t.regs.str &&& ~~~STR_E = s.regs.str &&& ~~~STR_E
  pending : t.pendingIrq = s.pendingIrq
  io : t.io = s.io

/-- The register goes through all words but 0. -/
theorem register_fullCycle : FullCycle (galois GL_RND_TAP) := by
  have hprimes : ∀ p, p.Prime → p ∣ 2 ^ 16 - 1 → p = 3 ∨ p = 5 ∨ p = 17 ∨ p = 257 := by
    intro p hp hdvd
    have hfactors : p ∣ 3 * 5 * 17 * 257 := hdvd
    rwa [hp.dvd_mul, hp.dvd_mul, hp.dvd_mul, Nat.prime_dvd_prime_iff_eq hp (by norm_num),
      Nat.prime_dvd_prime_iff_eq hp (by norm_num), Nat.prime_dvd_prime_iff_eq hp (by norm_num),
      Nat.prime_dvd_prime_iff_eq hp (by norm_num), or_assoc, or_assoc] at hfactors
  refine fullCycle (isLinear_galois _) (by decide) (List.replicate 16 true) rfl
    (by decide +kernel) fun p hp hdvd => ?_
  rcases hprimes p hp hdvd with rfl | rfl | rfl | rfl
  · exact ⟨(List.replicate 8 [false, true]).flatten, rfl, by decide +kernel⟩
  · exact ⟨(List.replicate 4 [false, false, true, true]).flatten, rfl, by decide +kernel⟩
  · exact ⟨(List.replicate 2 (List.replicate 4 false ++ List.replicate 4 true)).flatten, rfl,
      by decide +kernel⟩
  · exact ⟨List.replicate 8 true, rfl, by decide +kernel⟩

variable {seed} {s : Core σ}

theorem moved_self (s : Core σ) : moved s s.regs.ic (s.regs.r 0) s.regs.str 0 = s := by
  have h : Function.update s.regs.r 0 (s.regs.r 0) = s.regs.r := Function.update_eq_self _ _
  rw [moved, h]
  rfl

/-- E is no mask of an interrupt level. -/
theorem quiet_moved (hirq : irqLevel s = none) (str : U16)
    (hstr : ∀ m, ~~~STR_E &&& m = m → STR_E &&& m = 0 → str &&& m = s.regs.str &&& m)
    (ic r0 : U16) (k : Nat) : irqLevel (moved s ic r0 str k) = none := by
  have hacc : acceptable (moved s ic r0 str k) = acceptable s := by
    funext lv
    have hmask : str &&& levelMask lv = s.regs.str &&& levelMask lv := by
      match lv with
      | 0 | 1 | 2 => exact hstr _ (by decide) (by decide)
    show (_ && decide (str &&& levelMask lv ≠ 0)) = _
    rw [hmask]
    rfl
  rw [irqLevel, hacc]
  exact hirq

/-- Up to the shift. -/
theorem load_run (h : Call seed s) : ∃ k,
    (step io)^[if GL_RND_SEED seed s = 0 then 3 else 2] s =
      moved s (s.regs.ic + 1 + 1 + 1) (started (GL_RND_SEED seed s)) s.regs.str k := by
  obtain ⟨hl, hmv, hmvi, -⟩ := h.code
  have hquiet := quiet_moved h.quiet s.regs.str fun _ _ _ => rfl
  have hstart : step io s = moved s (s.regs.ic + 1) (GL_RND_SEED seed s) s.regs.str 1 := by
    have hstep := step_l io (k := 0) seed (hquiet s.regs.ic (s.regs.r 0) 0) hl
    rwa [moved_self] at hstep
  have htest := step_mv io (hquiet (s.regs.ic + 1) (GL_RND_SEED seed s) 1) hmv hmvi
  by_cases hzero : GL_RND_SEED seed s = 0
  · rw [if_pos hzero] at htest
    refine ⟨3, ?_⟩
    rw [if_pos hzero, started, if_pos hzero]
    show step io (step io (step io s)) = _
    rw [hstart, htest, step_mvi io (hquiet _ _ _) hmvi, hzero]
    rfl
  · rw [if_neg hzero] at htest
    refine ⟨2, ?_⟩
    rw [if_neg hzero, started, if_neg hzero]
    show step io (step io s) = _
    rw [hstart, htest]

/-- The step of the register. -/
theorem shift_run (h : Call seed s) (x : U16) (k : Nat) : ∃ str k',
    (∀ m, ~~~STR_E &&& m = m → STR_E &&& m = 0 → str &&& m = s.regs.str &&& m) ∧
    (step io)^[if x.getLsbD 0 then 3 else 2] (moved s (s.regs.ic + 1 + 1 + 1) x s.regs.str k) =
      moved s (s.regs.ic + 1 + 1 + 1 + 1 + 1 + 1 + 1) (galois GL_RND_TAP x) str k' := by
  obtain ⟨-, -, -, hsr, htbit, heori, htap, hst, -⟩ := h.code
  have hstr : ∀ m, ~~~STR_E &&& m = m → STR_E &&& m = 0 →
      withE (x.getLsbD 0) (withE false s.regs.str) &&& m = s.regs.str &&& m := by
    intro m hm hm'
    rw [withE_other _ _ hm hm', withE_other _ _ hm hm']
  have hshift := step_sr io
    (quiet_moved h.quiet s.regs.str (fun _ _ _ => rfl) _ x k) hsr
  have hquiet := quiet_moved h.quiet _ hstr
  have hbit := withE_and (x.getLsbD 0) (withE false s.regs.str)
  have htest := step_tbit io (hquiet _ (x >>> 1) (k + 1)) htbit heori
  cases hx : x.getLsbD 0 with
  | false =>
      rw [hx] at hbit htest hshift hstr
      rw [if_pos (not_not.mp (of_decide_eq_false hbit))] at htest
      refine ⟨_, k + 2, hstr, ?_⟩
      rw [if_neg Bool.false_ne_true]
      show step io (step io _) = _
      rw [hshift, htest, galois, hx, if_neg Bool.false_ne_true]
  | true =>
      rw [hx] at hbit htest hshift hstr hquiet
      rw [if_neg (of_decide_eq_true hbit)] at htest
      refine ⟨_, k + 4, hstr, ?_⟩
      rw [if_pos rfl]
      show step io (step io (step io _)) = _
      rw [hshift, htest, step_eori io (hquiet _ _ _) heori hst, htap, galois, hx, if_pos rfl]

theorem irqLevel_stored (s : Core σ) (seed : U8) (v : U16) :
    irqLevel (stored s seed v) = irqLevel s := rfl

theorem Call.code_stored (h : Call seed s) (v : U16) : CodeAt (stored s seed v).ram
    (stored s seed v).regs.csbr s.regs.ic (g_get_rnd_ seed) :=
  h.code.update h.clear v

/-- The core behind RET is an answer. -/
theorem Call.answer_moved (h : Call seed s) {x str : U16} {k : Nat}
    (hx : x = galois GL_RND_TAP (started (GL_RND_SEED seed s)))
    (hstr : str &&& ~~~STR_E = s.regs.str &&& ~~~STR_E) :
    Answer seed s (moved
      { stored s seed x with regs := { s.regs with sp := s.regs.sp + 1 } }
      ((stored s seed x).ram (place s.regs.ssbr (s.regs.sp + 1))) x str k) := by
  have hback : (stored s seed x).ram (place s.regs.ssbr (s.regs.sp + 1)) =
      s.ram (place s.regs.ssbr (s.regs.sp + 1)) := by
    rw [stored_ram, Function.update_of_ne h.stack]
  rw [hback]
  constructor
  case r0 => rw [moved_r, Function.update_self, hx]
  case others =>
    intro i hi
    rw [moved_r, Function.update_of_ne hi]
  case back => rfl
  case sp => rfl
  case ram =>
    rw [moved_r, Function.update_self]
    exact stored_ram s seed x
  case segments => exact ⟨rfl, rfl⟩
  case code => exact h.code_stored x
  case str => exact hstr
  case pending => rfl
  case io => rfl

theorem Call.answer (h : Call seed s) : Answer seed s (returned io seed s) := by
  obtain ⟨k, hload⟩ := load_run io h
  obtain ⟨str, k', hstr, hshift⟩ := shift_run io h (started (GL_RND_SEED seed s)) k
  generalize hx : galois GL_RND_TAP (started (GL_RND_SEED seed s)) = x at hshift
  obtain ⟨-, -, -, -, -, -, -, hst, -⟩ := h.code
  obtain ⟨-, -, -, -, -, -, -, -, hret, -⟩ := h.code_stored x
  have hstore := step_st io seed (quiet_moved h.quiet _ hstr _ x k') hst
  have hback := step_ret io (quiet_moved (s := stored s seed x)
    ((irqLevel_stored _ _ _).trans h.quiet) _ hstr _ x (k' + 1)) hret
  have htwo (t : Core σ) : (step io)^[2] t = step io (step io t) := rfl
  rw [returned, callSteps, Function.iterate_add_apply, Function.iterate_add_apply, hload, hshift,
    htwo, hstore, hback]
  exact h.answer_moved hx.symm (hstr _ (by decide) (by decide))

theorem Answer.seed_eq {t : Core σ} (h : Answer seed s t) : GL_RND_SEED seed t = t.regs.r 0 := by
  rw [GL_RND_SEED, h.ram, h.segments.1, Function.update_self]

theorem Answer.quiet {t : Core σ} (h : Answer seed s t) (hirq : irqLevel s = none) :
    irqLevel t = none := by
  have hacc : acceptable t = acceptable s := by
    funext lv
    have hmask : t.regs.str &&& levelMask lv = s.regs.str &&& levelMask lv := by
      have hother : ~~~STR_E &&& levelMask lv = levelMask lv := by
        match lv with
        | 0 | 1 | 2 => decide
      rw [← hother, ← BitVec.and_assoc, ← BitVec.and_assoc, h.str]
    rw [acceptable, acceptable, hmask, h.pending]
  rw [irqLevel, hacc]
  exact hirq

/-- The core at the same call again, with the memory and the registers of another. -/
def again (s t : Core σ) : Core σ :=
  { t with regs := { t.regs with ic := s.regs.ic, sp := s.regs.sp } }

/-- A call leaves everything in place for the next one. -/
theorem Call.again (h : Call seed s) : Call seed (again s (returned io seed s)) := by
  have hanswer := h.answer io
  refine ⟨hanswer.quiet h.quiet, hanswer.code, ?_, ?_⟩
  · show Clear (place (returned io seed s).regs.csbr _) (returned io seed s).regs.csbr _ _
    rw [hanswer.segments.1]
    exact h.clear
  · show place (returned io seed s).regs.ssbr _ ≠ place (returned io seed s).regs.csbr _
    rw [hanswer.segments.1, hanswer.segments.2]
    exact h.stack

theorem started_ne_zero (x : U16) : started x ≠ 0 := by
  rw [started]
  split
  · decide
  · assumption

end Routine

section Calls

variable {σ : Type}

/-- Calls one after the other: each finds `GL_RND_SEED` as the one before has left it.  What else
happens between them does not matter. -/
structure Calls (io : Io σ) (seed : U8) (entry : Nat → Core σ) : Prop where
  call : ∀ i, Call seed (entry i)
  kept : ∀ i, GL_RND_SEED seed (entry (i + 1)) = GL_RND_SEED seed (returned io seed (entry i))

variable {io : Io σ} {seed : U8} {entry : Nat → Core σ}

/-- The number that the `i`-th call answers. -/
def number (io : Io σ) (seed : U8) (entry : Nat → Core σ) (i : Nat) : U16 :=
  (returned io seed (entry i)).regs.r 0

theorem number_eq (h : Calls io seed entry) (i : Nat) : number io seed entry i =
    (galois GL_RND_TAP)^[i + 1] (started (GL_RND_SEED seed (entry 0))) := by
  induction i with
  | zero => exact ((h.call 0).answer io).r0
  | succ i ih =>
      have hseed : GL_RND_SEED seed (entry (i + 1)) = number io seed entry i :=
        (h.kept i).trans ((h.call i).answer io).seed_eq
      have hne : number io seed entry i ≠ 0 := by
        rw [ih]
        exact register_fullCycle.iterate_ne_zero (started_ne_zero _) _
      rw [number, ((h.call (i + 1)).answer io).r0, hseed, started, if_neg hne, ih]
      exact (Function.iterate_succ_apply' _ _ _).symm

/-- A core at the entry of the routine at `1000`, with the seed at `0010` and the stack at `3000`. -/
def sampleCall : Core Unit where
  regs := { CpuRegister.default with ic := 0x1000, sp := 0x3000 }
  ram p := if p < 0x1000 then 0 else (g_get_rnd_ 0x10).getD (p.toNat - 0x1000) 0x0500
  execStatus := .running
  stepMode := false
  pendingIrq := 0
  io := ()
  fetches := 0

/-- Ports without devices. -/
def sampleIo : Io Unit := ⟨fun s _ => (0, s), fun s _ _ => s⟩

def sampleCalls : Nat → Core Unit
  | 0 => sampleCall
  | i + 1 => again (sampleCalls i) (returned sampleIo 0x10 (sampleCalls i))

theorem sampleCall_call : Call 0x10 sampleCall where
  quiet := by decide
  code := by
    simp only [g_get_rnd_, CodeAt]
    decide +kernel
  clear := by
    simp only [g_get_rnd_, Clear]
    decide +kernel
  stack := by decide +kernel

theorem sampleCalls_call (i : Nat) : Call 0x10 (sampleCalls i) := by
  induction i with
  | zero => exact sampleCall_call
  | succ i ih => exact ih.again sampleIo

end Calls

end Mn1613Random
end BootMonitor
end RetroCpu
