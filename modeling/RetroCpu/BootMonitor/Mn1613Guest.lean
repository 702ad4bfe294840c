import Mathlib.Data.Fintype.Basic
import Mathlib.Tactic.FinCases
import RetroCpu.AsmTs.Mn1613Encoder
import RetroCpu.EmuRs.Mn1613Exec

/-!
# Routines of the MN1613 monitor on the Rust core

A routine is executed instruction by instruction.  `Frame` is what the routines work on, and
`core` puts it into a core whose other parts stay as they are.  `Does` says what a piece of an
instruction does, `Leads` what instructions one after the other do; there is one rule for each
kind of instruction that the routines use.
-/

namespace RetroCpu
namespace BootMonitor
namespace Mn1613Guest

open EmuRs.Mn1613 RetroCpu.Mn1613 Prog

section Frames

/-- The registers and the memory that a routine works on, `STR` apart. -/
structure Frame where
  r0 : U16
  r1 : U16
  r2 : U16
  r3 : U16
  r4 : U16
  sp : U16
  tsr0 : U8
  tsr1 : U8
  ram : Mem

/-- A register of an instruction, `STR` and `IC` apart. -/
inductive Reg
  | R0 | R1 | R2 | R3 | R4 | SP

/-- The field of an instruction. -/
def Reg.rrr : Reg → U16
  | .R0 => 0
  | .R1 => 1
  | .R2 => 2
  | .R3 => 3
  | .R4 => 4
  | .SP => 5

namespace Frame

def get (f : Frame) : Reg → U16
  | .R0 => f.r0
  | .R1 => f.r1
  | .R2 => f.r2
  | .R3 => f.r3
  | .R4 => f.r4
  | .SP => f.sp

def set (f : Frame) (i : Reg) (v : U16) : Frame :=
  match i with
  | .R0 => { f with r0 := v }
  | .R1 => { f with r1 := v }
  | .R2 => { f with r2 := v }
  | .R3 => { f with r3 := v }
  | .R4 => { f with r4 := v }
  | .SP => { f with sp := v }

/-- The array `r` -/
def regs (f : Frame) : Fin 5 → U16
  | 0 => f.r0
  | 1 => f.r1
  | 2 => f.r2
  | 3 => f.r3
  | 4 => f.r4

/-- An element of the array `r` -/
def setReg (f : Frame) (i : Fin 5) (v : U16) : Frame :=
  match i with
  | 0 => f.set .R0 v
  | 1 => f.set .R1 v
  | 2 => f.set .R2 v
  | 3 => f.set .R3 v
  | 4 => f.set .R4 v

theorem regs_setReg (f : Frame) (i : Fin 5) (v : U16) :
    (f.setReg i v).regs = Function.update f.regs i v := by
  funext j
  fin_cases i <;> fin_cases j <;> rfl

end Frame

variable {σ : Type}

/-- The core with the parts of a frame, at an address and after some fetches. -/
def core (s : Core σ) (ic str : U16) (k : Nat) (f : Frame) : Core σ :=
  { s with
    regs := { s.regs with
      r := f.regs, sp := f.sp, str := str, ic := ic, tsr0 := f.tsr0, tsr1 := f.tsr1 }
    ram := f.ram
    fetches := k }

/-- The frame of a core. -/
def frameOf (s : Core σ) : Frame :=
  ⟨s.regs.r 0, s.regs.r 1, s.regs.r 2, s.regs.r 3, s.regs.r 4, s.regs.sp, s.regs.tsr0, s.regs.tsr1,
    s.ram⟩

theorem regs_frameOf (s : Core σ) : (frameOf s).regs = s.regs.r := by
  funext i
  match i with
  | 0 | 1 | 2 | 3 | 4 => rfl

theorem core_frameOf (s : Core σ) :
    core s s.regs.ic s.regs.str s.fetches (frameOf s) = s := by
  rw [core, regs_frameOf]
  rfl

/-- The place of a logical address in the memory. -/
def place (segment : U8) (la : U16) : BitVec 18 :=
  ((phys la segment &&& PHYS_MASK) &&& PHYS_MASK).setWidth 18

theorem place_toNat (segment : U8) (la : U16) :
    (place segment la).toNat = (segment.toNat % 16 * 16384 + la.toNat) % 262144 := by
  have hmask : PHYS_MASK.toNat = 2 ^ 18 - 1 := rfl
  have hseg : (segment.setWidth 32 &&& 0xf : U32).toNat = segment.toNat % 16 := by
    have h15 : (0xf : U32).toNat = 2 ^ 4 - 1 := rfl
    rw [BitVec.toNat_and, h15, Nat.and_two_pow_sub_one_eq_mod, BitVec.toNat_setWidth]
    omega
  rw [place, phys, BitVec.toNat_setWidth, BitVec.toNat_and, BitVec.toNat_and, BitVec.toNat_and,
    hmask, Nat.and_two_pow_sub_one_eq_mod, Nat.and_two_pow_sub_one_eq_mod,
    Nat.and_two_pow_sub_one_eq_mod, BitVec.toNat_add, BitVec.toNat_shiftLeft, hseg,
    BitVec.toNat_setWidth, Nat.shiftLeft_eq]
  omega

theorem place_inj {segment : U8} {la la' : U16} :
    place segment la = place segment la' ↔ la = la' := by
  refine ⟨fun h => ?_, congrArg _⟩
  have hnat := congrArg BitVec.toNat h
  rw [place_toNat, place_toNat] at hnat
  apply BitVec.eq_of_toNat_eq
  omega

/-- A word of the stack: the one that is popped next, and those below it. -/
def stackWord (s : Core σ) (sp : U16) (i : Nat) : BitVec 18 :=
  place s.regs.ssbr (sp + 1 - BitVec.ofNat 16 i)

theorem stackWord_ne {s : Core σ} {i j : Nat} (sp : U16) (hi : i < 65536) (hj : j < 65536)
    (hij : i ≠ j) : stackWord s sp i ≠ stackWord s sp j := by
  intro heq
  have hsp := place_inj.mp heq
  bv_omega

theorem place_zero (s : Core σ) (sp : U16) : place s.regs.ssbr (sp + 1) = stackWord s sp 0 :=
  congrArg (place s.regs.ssbr) (BitVec.sub_zero _).symm

theorem place_self (s : Core σ) (sp : U16) : place s.regs.ssbr sp = stackWord s sp 1 :=
  congrArg (place s.regs.ssbr) (BitVec.add_sub_cancel sp 1).symm

theorem stackWord_pred (s : Core σ) (sp : U16) (i : Nat) :
    stackWord s (sp - 1) i = stackWord s sp (i + 1) := by
  have hsp : sp - 1 + 1 - BitVec.ofNat 16 i = sp + 1 - BitVec.ofNat 16 (i + 1) := by
    rw [BitVec.ofNat_add]
    bv_omega
  exact congrArg (place s.regs.ssbr) hsp

end Frames

section Code

/-- A piece of code. -/
structure Code where
  entry : U16
  words : List U16

/-- The address of a word. -/
def Code.addr (c : Code) (n : Nat) : U16 := c.entry + BitVec.ofNat 16 n

theorem Code.addr_succ (c : Code) (n : Nat) : c.addr n + 1 = c.addr (n + 1) := by
  rw [addr, addr, BitVec.ofNat_add, ← BitVec.add_assoc]
  rfl

variable {σ : Type} {s : Core σ} {c : Code} {ram : Mem} {str str' : U16}

/-- The words that the assembler makes of instructions one after the other -/
def assembled (symbols : AsmTs.SymbolTable) (entry : Int) (lines : List (String × List String)) :
    Except String (List Int) :=
  lines.foldlM (fun words line => do
    let word ← AsmTs.Mn1613.encodeInstruction ⟨0, "", none, some line.1, line.2⟩
      (entry + words.length) symbols false
    return words ++ word) []

/-- A place that holds no word of the code. -/
def Apart (s : Core σ) (c : Code) (p : BitVec 18) : Prop :=
  ∀ n < c.words.length, place s.regs.csbr (c.addr n) ≠ p

/-- The code is in the memory, and no interrupt is taken. -/
structure Ready (s : Core σ) (c : Code) (ram : Mem) : Prop where
  loaded : ∀ n w, c.words[n]? = some w → ram (place s.regs.csbr (c.addr n)) = w
  quiet : irqLevel s = none

theorem Ready.write (h : Ready s c ram) {p : BitVec 18} (hp : Apart s c p) (v : U16) :
    Ready s c (Function.update ram p v) := by
  refine ⟨fun n w hw => ?_, h.quiet⟩
  have hn : n < c.words.length := (List.getElem?_eq_some_iff.mp hw).1
  rw [Function.update_of_ne (hp n hn)]
  exact h.loaded n w hw

/-- The masks of the interrupts are as before; the other bits of `STR` are flags. -/
def KeepsMasks (str str' : U16) : Prop := ∀ lv, str' &&& levelMask lv = str &&& levelMask lv

theorem KeepsMasks.refl : KeepsMasks str str := fun _ => rfl

theorem KeepsMasks.trans {str'' : U16} (h : KeepsMasks str str') (h' : KeepsMasks str' str'') :
    KeepsMasks str str'' := fun lv => (h' lv).trans (h lv)

theorem Ready.irqLevel (h : Ready s c ram) (hstr : KeepsMasks s.regs.str str) (ic : U16) (k : Nat)
    (f : Frame) : irqLevel (core s ic str k f) = none := by
  have hsame : acceptable (core s ic str k f) = acceptable s := by
    funext lv
    rw [acceptable, acceptable, ← hstr lv]
    rfl
  rw [EmuRs.Mn1613.irqLevel, hsame]
  exact h.quiet

/-- `STR` with a new E. -/
def withE (e : Bool) (str : U16) : U16 := if e then str ||| STR_E else str &&& ~~~STR_E

/-- `STR` with a new V. -/
def withOvf (v : Bool) (str : U16) : U16 := if v then str ||| STR_OVF else str &&& ~~~STR_OVF

theorem keepsMasks_flag (b : Bool) (str m : U16) (hm : ∀ lv, m &&& levelMask lv = 0) :
    KeepsMasks str (if b then str ||| m else str &&& ~~~m) := by
  intro lv
  cases b with
  | false =>
      have hnot : ~~~m &&& levelMask lv = levelMask lv := by
        apply BitVec.eq_of_getLsbD_eq
        intro i hi
        have hbit : (m &&& levelMask lv).getLsbD i = (0 : U16).getLsbD i := by rw [hm]
        rw [BitVec.getLsbD_and] at hbit
        rw [BitVec.getLsbD_and, BitVec.getLsbD_not, decide_eq_true hi, Bool.true_and]
        cases hmask : (levelMask lv).getLsbD i with
        | false => exact Bool.and_false _
        | true =>
            rw [hmask, Bool.and_true] at hbit
            rw [hbit]
            simp
      show (str &&& ~~~m) &&& levelMask lv = _
      rw [BitVec.and_assoc, hnot]
  | true =>
      show (str ||| m) &&& levelMask lv = _
      rw [BitVec.and_or_distrib_right, hm]
      exact BitVec.or_zero

theorem keepsMasks_withE (e : Bool) (str : U16) : KeepsMasks str (withE e str) :=
  keepsMasks_flag e str STR_E (by decide)

theorem keepsMasks_withOvf (v : Bool) (str : U16) : KeepsMasks str (withOvf v str) :=
  keepsMasks_flag v str STR_OVF (by decide)

end Code

section Does

variable {σ α β : Type} {s : Core σ} {c : Code} {ic ic' ic'' str str' str'' : U16}
  {f f' f'' : Frame}

/-- What a piece of an instruction does, however many words have been fetched. -/
def Does (s : Core σ) (m : M σ α) (ic str : U16) (f : Frame) (v : α) (ic' str' : U16)
    (f' : Frame) : Prop :=
  ∀ k, ∃ k', m.run (core s ic str k f) = (v, core s ic' str' k' f')

theorem Does.bind {m : M σ α} {g : α → M σ β} {v : α} {w : β} (h : Does s m ic str f v ic' str' f')
    (h' : Does s (g v) ic' str' f' w ic'' str'' f'') : Does s (m >>= g) ic str f w ic'' str'' f'' := by
  intro k
  obtain ⟨k', hk⟩ := h k
  obtain ⟨k'', hk'⟩ := h' k'
  exact ⟨k'', by rw [run_bind, hk, hk']⟩

theorem does_pure (v : α) : Does s (pure v) ic str f v ic str f := fun k => ⟨k, rfl⟩

theorem does_gr (i : Reg) : Does s (gr i.rrr) ic str f (f.get i) ic str f := by
  intro k
  cases i <;> exact ⟨k, rfl⟩

theorem does_setR (i : Fin 5) (v : U16) : Does s (setR i v) ic str f () ic str (f.setReg i v) := by
  intro k
  have hstate : core s ic str k (f.setReg i v) = { core s ic str k f with
      regs := { (core s ic str k f).regs with r := (f.setReg i v).regs } } := by
    fin_cases i <;> rfl
  refine ⟨k, ?_⟩
  rw [hstate, Frame.regs_setReg]
  rfl

theorem does_sw (i : Reg) (v : U16) : Does s (sw i.rrr v) ic str f () ic str (f.set i v) := by
  have hword : v &&& 0xffff = v := BitVec.and_allOnes
  have hset (m : U16 → M σ Unit) (h : Does s (m v) ic str f () ic str (f.set i v)) :
      Does s (m (v &&& 0xffff)) ic str f () ic str (f.set i v) := by rwa [hword]
  cases i with
  | R0 => exact hset _ (does_setR 0 v)
  | R1 => exact hset _ (does_setR 1 v)
  | R2 => exact hset _ (does_setR 2 v)
  | R3 => exact hset _ (does_setR 3 v)
  | R4 => exact hset _ (does_setR 4 v)
  | SP => exact hset (fun v => setReg fun r => { r with sp := v }) fun k => ⟨k, rfl⟩

theorem does_reg {γ : Type} {g : CpuRegister → γ} {v : γ}
    (hv : ∀ k, g (core s ic str k f).regs = v) : Does s (reg g) ic str f v ic str f :=
  fun k => ⟨k, by rw [← hv k]; rfl⟩

/-- A word at an address of the code segment. -/
theorem does_rdC (la : U16) : Does s (rdC la) ic str f (f.ram (place s.regs.csbr la)) ic str f :=
  fun k => ⟨k, rfl⟩

theorem does_wrC (la v : U16) : Does s (wrC la v) ic str f () ic str
    { f with ram := Function.update f.ram (place s.regs.csbr la) v } :=
  fun k => ⟨k, rfl⟩

theorem does_rdB (la : U16) (segment : U8) :
    Does s (rdB la segment) ic str f (f.ram (place segment la)) ic str f :=
  fun k => ⟨k, rfl⟩

theorem does_wrB (la v : U16) (segment : U8) : Does s (wrB la v segment) ic str f () ic str
    { f with ram := Function.update f.ram (place segment la) v } :=
  fun k => ⟨k, rfl⟩

theorem does_push (v : U16) : Does s (push v) ic str f () ic str
    { f with sp := f.sp - 1, ram := Function.update f.ram (place s.regs.ssbr f.sp) v } :=
  fun k => ⟨k, rfl⟩

theorem does_pop : Does s pop ic str f (f.ram (place s.regs.ssbr (f.sp + 1))) ic str
    { f with sp := f.sp + 1 } :=
  fun k => ⟨k, rfl⟩

theorem does_setE (e : Bool) : Does s (setE e) ic str f () ic (withE e str) f := fun k => ⟨k, rfl⟩

theorem does_flagE {e : Bool} (he : decide (str &&& STR_E ≠ 0) = e) :
    Does s flagE ic str f e ic str f := he ▸ fun k => ⟨k, rfl⟩

/-- A new address -/
theorem does_jump (la : U16) : Does s (setReg fun r => { r with ic := la }) ic str f () la str f :=
  fun k => ⟨k, rfl⟩

/-- A place in the zero page -/
theorem does_ea_zero {d : U16} (hd : d &&& 0xff = d) : Does s (ea 0 d) ic str f d ic str f := by
  intro k
  refine ⟨k, ?_⟩
  show (d &&& 0xff, core s ic str k f) = _
  rw [hd]

/-- A place behind `X0`, which is `R3` -/
theorem does_ea_x0 {d : U16} (hd : d &&& 0xff = d) :
    Does s (ea 4 d) ic str f (f.r3 + d) ic str f := by
  intro k
  refine ⟨k, ?_⟩
  show (f.r3 + (d &&& 0xff), core s ic str k f) = _
  rw [hd]

/-- A skip under no condition -/
theorem does_noSkip (v : U16) : Does s (skipIf 0 v) ic str f () ic str f := fun k => ⟨k, rfl⟩

variable {n : Nat} {w : U16}

theorem does_fetch (h : Ready s c f.ram) (hw : c.words[n]? = some w) :
    Does s fetch (c.addr n) str f w (c.addr (n + 1)) str f := by
  intro k
  refine ⟨k + 1, ?_⟩
  rw [← c.addr_succ, ← h.loaded n w hw]
  rfl

/-- `skip_cond` -/
def holds (kkkk result str : U16) : Bool :=
  let n : Bool := result &&& 0x8000 ≠ 0
  let z : Bool := result &&& 0xffff = 0
  let e : Bool := str &&& STR_E ≠ 0
  let v : Bool := str &&& STR_OVF ≠ 0
  match (kkkk &&& 0xf).toNat with
  | 0x0 => false
  | 0x1 => true
  | 0x2 => n
  | 0x3 => !n
  | 0x4 => z
  | 0x5 => !z
  | 0x6 => n || z
  | 0x7 => !n && !z
  | 0x8 => !e
  | 0x9 => e
  | 0xa => !v
  | 0xb => v
  | 0xc => e || z
  | 0xd => !e && !z
  | 0xe => !e
  | _ => e && !z

/-- The word behind a skip. -/
def behind (n : Nat) (skipped : Bool) (w : U16) : Nat :=
  if skipped then if is2word w then n + 1 + 1 else n + 1 else n

theorem does_skipNext (h : Ready s c f.ram) (hw : c.words[n]? = some w) :
    Does s skipNext (c.addr n) str f () (c.addr (behind n true w)) str f := by
  have hread : Does s (rdC (c.addr n)) (c.addr n) str f w (c.addr n) str f :=
    h.loaded n w hw ▸ does_rdC (c.addr n)
  have hmove (n : Nat) : Does s (setReg fun r => { r with ic := r.ic + 1 }) (c.addr n) str f ()
      (c.addr (n + 1)) str f := by
    intro k
    refine ⟨k, ?_⟩
    rw [← c.addr_succ]
    rfl
  refine (does_reg fun _ => rfl).bind (hread.bind ((hmove n).bind ?_))
  rw [behind, if_pos rfl]
  split
  · exact hmove (n + 1)
  · exact does_pure ()

theorem does_skipIf {kkkk v : U16} {b : Bool} (h : Ready s c f.ram) (hw : c.words[n]? = some w)
    (hb : holds kkkk v str = b) :
    Does s (skipIf kkkk v) (c.addr n) str f () (c.addr (behind n b w)) str f := by
  have hcond : Does s (skipCond kkkk v) (c.addr n) str f b (c.addr n) str f :=
    hb ▸ fun k => ⟨k, rfl⟩
  refine hcond.bind ?_
  cases b with
  | false => exact does_pure ()
  | true => exact does_skipNext h hw

end Does

section Flags

/-- `STR` behind an addition -/
def addStr (a b str : U16) : U16 :=
  withOvf (decide ((~~~(a ^^^ b) &&& (a ^^^ (a + b)) &&& 0x8000) ≠ 0))
    (withE (BitVec.uaddOverflow a b) str)

/-- `STR` behind a subtraction -/
def subStr (a b str : U16) : U16 :=
  withOvf (decide (((a ^^^ b) &&& (a ^^^ (a - b)) &&& 0x8000) ≠ 0)) (withE (decide (a < b)) str)

theorem keepsMasks_addStr (a b str : U16) : KeepsMasks str (addStr a b str) :=
  (keepsMasks_withE _ _).trans (keepsMasks_withOvf _ _)

theorem keepsMasks_subStr (a b str : U16) : KeepsMasks str (subStr a b str) :=
  (keepsMasks_withE _ _).trans (keepsMasks_withOvf _ _)

variable {σ : Type} {s : Core σ} {ic str : U16} {f : Frame}

theorem does_add16 (a b : U16) :
    Does s (add16 a b) ic str f (a + b) ic (addStr a b str) f := by
  have hlow : (a.setWidth 32 + b.setWidth 32 : U32).setWidth 16 = a + b := by
    apply BitVec.eq_of_toNat_eq
    simp only [BitVec.toNat_setWidth, BitVec.toNat_add]
    omega
  have hsum : ((a.setWidth 32 + b.setWidth 32 : U32) &&& 0xffff).setWidth 16 = a + b := by
    rw [BitVec.setWidth_and, hlow]
    exact BitVec.and_allOnes
  have hlimit : (0xffff : U32).toNat = 65535 := rfl
  have hcarry : decide ((a.setWidth 32 + b.setWidth 32 : U32) > 0xffff) =
      BitVec.uaddOverflow a b := by
    rw [BitVec.uaddOverflow, decide_eq_decide, gt_iff_lt, BitVec.lt_def, hlimit]
    simp only [BitVec.toNat_setWidth, BitVec.toNat_add]
    omega
  have hrun (k : Nat) : (add16 a b).run (core s ic str k f) =
      (((a.setWidth 32 + b.setWidth 32 : U32) &&& 0xffff).setWidth 16,
        core s ic (withOvf
          (decide ((~~~(a ^^^ b) &&& (a ^^^ (a.setWidth 32 + b.setWidth 32 : U32).setWidth 16) &&&
            0x8000) ≠ 0))
          (withE (decide ((a.setWidth 32 + b.setWidth 32 : U32) > 0xffff)) str)) k f) := rfl
  refine fun k => ⟨k, ?_⟩
  rw [hrun, hsum, hlow, hcarry]
  rfl

theorem does_sub16 (a b : U16) :
    Does s (sub16 a b) ic str f (a - b) ic (subStr a b str) f := by
  have hlow : (a.setWidth 32 - b.setWidth 32 : U32).setWidth 16 = a - b := by
    apply BitVec.eq_of_toNat_eq
    simp only [BitVec.toNat_setWidth, BitVec.toNat_sub]
    omega
  have hborrow : (a.setWidth 32 - b.setWidth 32 : U32).slt 0 = decide (a < b) := by
    rw [show (0 : U32) = 0#32 from rfl, BitVec.slt_zero_eq_msb, BitVec.msb_eq_decide,
      decide_eq_decide, BitVec.lt_def]
    simp only [BitVec.toNat_setWidth, BitVec.toNat_sub]
    omega
  have hword : (a - b) &&& 0xffff = a - b := BitVec.and_allOnes
  have hrun (k : Nat) : (sub16 a b).run (core s ic str k f) =
      ((a.setWidth 32 - b.setWidth 32 : U32).setWidth 16 &&& 0xffff,
        core s ic (withOvf
          (decide (((a ^^^ b) &&& (a ^^^ (a.setWidth 32 - b.setWidth 32 : U32).setWidth 16) &&&
            0x8000) ≠ 0))
          (withE ((a.setWidth 32 - b.setWidth 32 : U32).slt 0) str)) k f) := rfl
  refine fun k => ⟨k, ?_⟩
  rw [hrun, hlow, hborrow, hword]
  rfl

theorem withE_and (e : Bool) (str : U16) : decide (withE e str &&& STR_E ≠ 0) = e := by
  cases e with
  | false =>
      have hzero : (str &&& ~~~STR_E) &&& STR_E = 0 := by
        rw [BitVec.and_assoc, show ~~~STR_E &&& STR_E = 0 from by decide]
        exact BitVec.and_zero
      exact decide_eq_false (not_not_intro hzero)
  | true =>
      refine decide_eq_true fun hzero => ?_
      have hor : (str ||| STR_E) &&& STR_E = 0 := hzero
      rw [BitVec.and_or_distrib_right] at hor
      exact absurd (BitVec.or_eq_zero_iff.mp hor).2 (by decide)

theorem withOvf_and (v : Bool) (str : U16) : withOvf v str &&& STR_E = str &&& STR_E := by
  cases v with
  | false =>
      show (str &&& ~~~STR_OVF) &&& STR_E = str &&& STR_E
      rw [BitVec.and_assoc, show ~~~STR_OVF &&& STR_E = STR_E from by decide]
  | true =>
      show (str ||| STR_OVF) &&& STR_E = str &&& STR_E
      rw [BitVec.and_or_distrib_right, show STR_OVF &&& STR_E = 0 from by decide]
      exact BitVec.or_zero

theorem addStr_and (a b str : U16) :
    decide (addStr a b str &&& STR_E ≠ 0) = BitVec.uaddOverflow a b := by
  rw [addStr, withOvf_and, withE_and]

theorem subStr_and (a b str : U16) : decide (subStr a b str &&& STR_E ≠ 0) = decide (a < b) := by
  rw [subStr, withOvf_and, withE_and]

theorem holds_Z (v str : U16) : holds 4 v str = decide (v = 0) := by
  show decide (v &&& 0xffff = 0) = _
  rw [show v &&& 0xffff = v from BitVec.and_allOnes]

theorem holds_NZ (v str : U16) : holds 5 v str = decide (v ≠ 0) := by
  show (!decide (v &&& 0xffff = 0)) = _
  rw [show v &&& 0xffff = v from BitVec.and_allOnes]
  exact decide_not.symm

theorem holds_EZ_add (a b v str : U16) :
    holds 8 v (addStr a b str) = !BitVec.uaddOverflow a b := by
  rw [← addStr_and a b str]
  rfl

theorem holds_ENZ_add (a b v str : U16) :
    holds 9 v (addStr a b str) = BitVec.uaddOverflow a b := addStr_and a b str

theorem holds_LPZ_sub (a b v str : U16) : holds 0xe v (subStr a b str) = decide (b ≤ a) := by
  show (!decide (subStr a b str &&& STR_E ≠ 0)) = _
  rw [subStr_and, ← decide_not, decide_eq_decide]
  exact BitVec.not_lt

theorem holds_LP_sub (a b str : U16) :
    holds 0xd (a - b) (subStr a b str) = decide (b < a) := by
  have hzero : (a - b &&& 0xffff = 0) ↔ a = b := by
    rw [show a - b &&& 0xffff = a - b from BitVec.and_allOnes]
    bv_omega
  show (!decide (subStr a b str &&& STR_E ≠ 0) && !decide (a - b &&& 0xffff = 0)) = _
  rw [subStr_and, decide_eq_decide.mpr hzero, ← decide_not, ← decide_not, ← Bool.decide_and,
    decide_eq_decide]
  bv_omega

end Flags

section Leads

variable {σ : Type} (io : Io σ) {s : Core σ} {c : Code} {ic ic' ic'' : U16} {f f' f'' : Frame}
  {n : Nat} {w : U16}

/-- From one address and frame to another in some number of steps.  What the flags of `STR` are
does not matter, and the masks of the interrupts stay those of `s`. -/
def Leads (s : Core σ) (ic : U16) (f : Frame) (ic' : U16) (f' : Frame) : Prop :=
  ∀ k str, KeepsMasks s.regs.str str → ∃ steps k' str', KeepsMasks s.regs.str str' ∧
    (step io)^[steps] (core s ic str k f) = core s ic' str' k' f'

variable {io}

theorem Leads.refl : Leads io s ic f ic f := fun k str hstr => ⟨0, k, str, hstr, rfl⟩

theorem Leads.trans (h : Leads io s ic f ic' f') (h' : Leads io s ic' f' ic'' f'') :
    Leads io s ic f ic'' f'' := by
  intro k str hstr
  obtain ⟨m, k', str', hstr', hk⟩ := h k str hstr
  obtain ⟨m', k'', str'', hstr'', hk'⟩ := h' k' str' hstr'
  exact ⟨m' + m, k'', str'', hstr'', by rw [Function.iterate_add_apply, hk, hk']⟩

/-- A run of the frame is a run of the core. -/
theorem leads_core (h : Leads io s ic (frameOf s) ic' f') (hic : s.regs.ic = ic) : ∃ n k str,
    KeepsMasks s.regs.str str ∧ (step io)^[n] s = core s ic' str k f' := by
  obtain ⟨n, k, str, hmasks, hrun⟩ := h s.fetches s.regs.str .refl
  rw [← hic, core_frameOf] at hrun
  exact ⟨n, k, str, hmasks, hrun⟩

/-- An instruction that finds its word and no interrupt. -/
theorem leads_of_does (h : Ready s c f.ram) (hw : c.words[n]? = some w)
    (hd : ∀ str, ∃ str', KeepsMasks str str' ∧
      Does s (execute io w) (c.addr (n + 1)) str f () ic' str' f') :
    Leads io s (c.addr n) f ic' f' := by
  intro k str hstr
  obtain ⟨str', hstr', hdoes⟩ := hd str
  obtain ⟨k', hk⟩ := hdoes (k + 1)
  have hcheck : checkIrq.run (core s (c.addr n) str k f) = ((), core s (c.addr n) str k f) := by
    by_cases hpending : (core s (c.addr n) str k f).pendingIrq = 0
    · exact checkIrq_idle hpending
    · rw [checkIrq_pending hpending, handleIrq_none (h.irqLevel hstr _ _ _)]
  have hfetch : fetch.run (core s (c.addr n) str k f) =
      (w, core s (c.addr (n + 1)) str (k + 1) f) := by
    rw [← c.addr_succ, ← h.loaded n w hw]
    rfl
  refine ⟨1, k', str', hstr.trans hstr', ?_⟩
  show step io (core s (c.addr n) str k f) = _
  rw [step, executeOne, run_bind, hcheck, run_bind, hfetch, hk]

/-- An instruction that leaves `STR` alone. -/
theorem leads_of_plain (h : Ready s c f.ram) (hw : c.words[n]? = some w)
    (hd : ∀ str, Does s (execute io w) (c.addr (n + 1)) str f () ic' str f') :
    Leads io s (c.addr n) f ic' f' :=
  leads_of_does h hw fun str => ⟨str, .refl, hd str⟩

theorem set_ram (f : Frame) (i : Reg) (v : U16) : (f.set i v).ram = f.ram := by
  cases i <;> rfl

end Leads

section Instructions

variable {σ : Type} {io : Io σ} {s : Core σ} {c : Code} {ic' : U16} {f : Frame} {n n' : Nat}
  {w w' imm : U16} {b : Bool} (i j : Reg) (kkkk : U16)

/-- A value is put into a register and tested for the skip. -/
theorem does_swSkip {str v : U16} (h : Ready s c f.ram) (hw' : c.words[n]? = some w')
    (hb : holds kkkk v str = b) : Does s (swSkip i.rrr kkkk v) (c.addr n) str f ()
      (c.addr (behind n b w')) str (f.set i v) := by
  rw [← set_ram f i v] at h
  exact (does_sw i v).bind (does_skipIf h hw' hb)

/-- MV, BSWP, AI and SI -/
theorem leads_unary (op : U16 → U16) (h : Ready s c f.ram) (hw : c.words[n]? = some w)
    (hw' : c.words[n + 1]? = some w')
    (hx : execute io w = (gr j.rrr >>= fun v => swSkip i.rrr kkkk (op v)))
    (hb : ∀ str, holds kkkk (op (f.get j)) str = b) :
    Leads io s (c.addr n) f (c.addr (behind (n + 1) b w')) (f.set i (op (f.get j))) :=
  leads_of_plain h hw fun str => hx ▸ (does_gr j).bind (does_swSkip i kkkk h hw' (hb str))

/-- AND, OR and EOR -/
theorem leads_logic (op : U16 → U16 → U16) (h : Ready s c f.ram) (hw : c.words[n]? = some w)
    (hw' : c.words[n + 1]? = some w')
    (hx : execute io w = (gr i.rrr >>= fun x => gr j.rrr >>= fun y => swSkip i.rrr kkkk (op x y)))
    (hb : ∀ str, holds kkkk (op (f.get i) (f.get j)) str = b) :
    Leads io s (c.addr n) f (c.addr (behind (n + 1) b w')) (f.set i (op (f.get i) (f.get j))) :=
  leads_of_plain h hw fun str => hx ▸ (does_gr i).bind ((does_gr j).bind
    (does_swSkip i kkkk h hw' (hb str)))

/-- ANDI, ORI and EORI -/
theorem leads_logicImm (op : U16 → U16 → U16) (h : Ready s c f.ram) (hw : c.words[n]? = some w)
    (himm : c.words[n + 1]? = some imm) (hw' : c.words[n + 1 + 1]? = some w')
    (hx : execute io w =
      (fetch >>= fun imm => gr i.rrr >>= fun x => swSkip i.rrr kkkk (op x imm)))
    (hb : ∀ str, holds kkkk (op (f.get i) imm) str = b) :
    Leads io s (c.addr n) f (c.addr (behind (n + 1 + 1) b w')) (f.set i (op (f.get i) imm)) :=
  leads_of_plain h hw fun str => hx ▸ (does_fetch h himm).bind ((does_gr i).bind
    (does_swSkip i kkkk h hw' (hb str)))

/-- MVWI -/
theorem leads_mvwi (h : Ready s c f.ram) (hw : c.words[n]? = some w)
    (himm : c.words[n + 1]? = some imm)
    (hx : execute io w = (fetch >>= fun imm => swSkip i.rrr 0 imm)) :
    Leads io s (c.addr n) f (c.addr (n + 1 + 1)) (f.set i imm) :=
  leads_of_plain h hw fun _ => hx ▸ (does_fetch h himm).bind ((does_sw i imm).bind (does_noSkip _))

/-- TBIT -/
theorem leads_tbit (mask : U16) (h : Ready s c f.ram) (hw : c.words[n]? = some w)
    (hw' : c.words[n + 1]? = some w')
    (hx : execute io w = (gr i.rrr >>= fun v => skipIf kkkk (v &&& mask)))
    (hb : ∀ str, holds kkkk (f.get i &&& mask) str = b) :
    Leads io s (c.addr n) f (c.addr (behind (n + 1) b w')) f :=
  leads_of_plain h hw fun str => hx ▸ (does_gr i).bind (does_skipIf h hw' (hb str))

/-- A -/
theorem leads_add (h : Ready s c f.ram) (hw : c.words[n]? = some w) (hw' : c.words[n + 1]? = some w')
    (hx : execute io w =
      (gr i.rrr >>= fun x => gr j.rrr >>= fun y => add16 x y >>= fun v => swSkip i.rrr kkkk v))
    (hb : ∀ str, holds kkkk (f.get i + f.get j) (addStr (f.get i) (f.get j) str) = b) :
    Leads io s (c.addr n) f (c.addr (behind (n + 1) b w')) (f.set i (f.get i + f.get j)) :=
  leads_of_does h hw fun str => ⟨_, keepsMasks_addStr _ _ str, hx ▸ (does_gr i).bind
    ((does_gr j).bind ((does_add16 _ _).bind (does_swSkip i kkkk h hw' (hb str))))⟩

/-- S -/
theorem leads_sub (h : Ready s c f.ram) (hw : c.words[n]? = some w) (hw' : c.words[n + 1]? = some w')
    (hx : execute io w =
      (gr i.rrr >>= fun x => gr j.rrr >>= fun y => sub16 x y >>= fun v => swSkip i.rrr kkkk v))
    (hb : ∀ str, holds kkkk (f.get i - f.get j) (subStr (f.get i) (f.get j) str) = b) :
    Leads io s (c.addr n) f (c.addr (behind (n + 1) b w')) (f.set i (f.get i - f.get j)) :=
  leads_of_does h hw fun str => ⟨_, keepsMasks_subStr _ _ str, hx ▸ (does_gr i).bind
    ((does_gr j).bind ((does_sub16 _ _).bind (does_swSkip i kkkk h hw' (hb str))))⟩

/-- AWI -/
theorem leads_addImm (h : Ready s c f.ram) (hw : c.words[n]? = some w)
    (himm : c.words[n + 1]? = some imm) (hw' : c.words[n + 1 + 1]? = some w')
    (hx : execute io w =
      (fetch >>= fun imm => gr i.rrr >>= fun x => add16 x imm >>= fun v => swSkip i.rrr kkkk v))
    (hb : ∀ str, holds kkkk (f.get i + imm) (addStr (f.get i) imm str) = b) :
    Leads io s (c.addr n) f (c.addr (behind (n + 1 + 1) b w')) (f.set i (f.get i + imm)) :=
  leads_of_does h hw fun str => ⟨_, keepsMasks_addStr _ _ str, hx ▸ (does_fetch h himm).bind
    ((does_gr i).bind ((does_add16 _ _).bind (does_swSkip i kkkk h hw' (hb str))))⟩

/-- C -/
theorem leads_cmp (h : Ready s c f.ram) (hw : c.words[n]? = some w) (hw' : c.words[n + 1]? = some w')
    (hx : execute io w =
      (gr i.rrr >>= fun x => gr j.rrr >>= fun y => sub16 x y >>= fun v => skipIf kkkk v))
    (hb : ∀ str, holds kkkk (f.get i - f.get j) (subStr (f.get i) (f.get j) str) = b) :
    Leads io s (c.addr n) f (c.addr (behind (n + 1) b w')) f :=
  leads_of_does h hw fun str => ⟨_, keepsMasks_subStr _ _ str, hx ▸ (does_gr i).bind
    ((does_gr j).bind ((does_sub16 _ _).bind (does_skipIf h hw' (hb str))))⟩

/-- CWI -/
theorem leads_cmpImm (h : Ready s c f.ram) (hw : c.words[n]? = some w)
    (himm : c.words[n + 1]? = some imm) (hw' : c.words[n + 1 + 1]? = some w')
    (hx : execute io w =
      (fetch >>= fun imm => gr i.rrr >>= fun x => sub16 x imm >>= fun v => skipIf kkkk v))
    (hb : ∀ str, holds kkkk (f.get i - imm) (subStr (f.get i) imm str) = b) :
    Leads io s (c.addr n) f (c.addr (behind (n + 1 + 1) b w')) f :=
  leads_of_does h hw fun str => ⟨_, keepsMasks_subStr _ _ str, hx ▸ (does_fetch h himm).bind
    ((does_gr i).bind ((does_sub16 _ _).bind (does_skipIf h hw' (hb str))))⟩

/-- SR and SL without a carry; `mask` is the bit that leaves the register. -/
theorem leads_shift (mask : U16) (op : U16 → Bool → U16) {v : U16} (hv : op (f.get i) false = v)
    (h : Ready s c f.ram) (hw : c.words[n]? = some w)
    (hx : execute io w = (setE false >>= fun _ => gr i.rrr >>= fun a => flagE >>= fun e =>
      setE (decide (a &&& mask ≠ 0)) >>= fun _ => swSkip i.rrr 0 (op a e))) :
    Leads io s (c.addr n) f (c.addr (n + 1)) (f.set i v) := by
  subst hv
  refine leads_of_does h hw fun str => ⟨_, (keepsMasks_withE false str).trans
    (keepsMasks_withE (decide (f.get i &&& mask ≠ 0)) _), ?_⟩
  exact hx ▸ (does_setE false).bind ((does_gr i).bind ((does_flagE (withE_and false str)).bind
    ((does_setE _).bind ((does_sw i _).bind (does_noSkip _)))))

theorem leads_sr (h : Ready s c f.ram) (hw : c.words[n]? = some w)
    (hx : execute io w = (setE false >>= fun _ => gr i.rrr >>= fun a => flagE >>= fun e =>
      setE (decide (a &&& 1 ≠ 0)) >>= fun _ =>
        swSkip i.rrr 0 ((a >>> 1) ||| if e then 0x8000 else 0))) :
    Leads io s (c.addr n) f (c.addr (n + 1)) (f.set i (f.get i >>> 1)) :=
  leads_shift i 1 (fun a e => (a >>> 1) ||| if e then 0x8000 else 0) BitVec.or_zero h hw hx

theorem leads_sl (h : Ready s c f.ram) (hw : c.words[n]? = some w)
    (hx : execute io w = (setE false >>= fun _ => gr i.rrr >>= fun a => flagE >>= fun e =>
      setE (decide (a &&& 0x8000 ≠ 0)) >>= fun _ =>
        swSkip i.rrr 0 (((a <<< 1) ||| if e then 1 else 0) &&& 0xffff))) :
    Leads io s (c.addr n) f (c.addr (n + 1)) (f.set i (f.get i <<< 1)) :=
  leads_shift i 0x8000 (fun a e => ((a <<< 1) ||| if e then 1 else 0) &&& 0xffff)
    (BitVec.and_allOnes.trans BitVec.or_zero) h hw hx

theorem leads_push (h : Ready s c f.ram) (hw : c.words[n]? = some w)
    (hx : execute io w = (gr i.rrr >>= push)) :
    Leads io s (c.addr n) f (c.addr (n + 1)) { f with
      sp := f.sp - 1, ram := Function.update f.ram (stackWord s f.sp 1) (f.get i) } := by
  rw [← place_self s f.sp]
  exact leads_of_plain h hw fun _ => hx ▸ (does_gr i).bind (does_push _)

theorem leads_pop (h : Ready s c f.ram) (hw : c.words[n]? = some w)
    (hx : execute io w = (pop >>= sw i.rrr)) :
    Leads io s (c.addr n) f (c.addr (n + 1))
      (Frame.set { f with sp := f.sp + 1 } i (f.ram (stackWord s f.sp 0))) := by
  rw [← place_zero s f.sp]
  exact leads_of_plain h hw fun _ => hx ▸ does_pop.bind (does_sw i _)

theorem leads_ret (h : Ready s c f.ram) (hw : c.words[n]? = some w)
    (hx : execute io w = (pop >>= fun ic => setReg fun r => { r with ic := ic })) :
    Leads io s (c.addr n) f (f.ram (stackWord s f.sp 0)) { f with sp := f.sp + 1 } := by
  rw [← place_zero s f.sp]
  exact leads_of_plain h hw fun _ => hx ▸ does_pop.bind (does_jump _)

theorem leads_bald (h : Ready s c f.ram) (hw : c.words[n]? = some w)
    (himm : c.words[n + 1]? = some imm)
    (hx : execute io w = (fetch >>= fun dest => reg CpuRegister.ic >>= fun ic => push ic >>=
      fun _ => setReg fun r => { r with ic := dest })) :
    Leads io s (c.addr n) f imm { f with
      sp := f.sp - 1
      ram := Function.update f.ram (stackWord s f.sp 1) (c.addr (n + 1 + 1)) } := by
  rw [← place_self s f.sp]
  exact leads_of_plain h hw fun _ => hx ▸ (does_fetch h himm).bind
    ((does_reg fun _ => rfl).bind ((does_push _).bind (does_jump imm)))

/-- The signed distance of an instruction -/
def distance (d : U16) : U16 := if d < 0x80 then d else d - 0x100

/-- B with a distance -/
theorem leads_b (d : U16) (h : Ready s c f.ram) (hw : c.words[n]? = some w)
    (hx : execute io w = (ea 1 d >>= fun ea => setReg fun r => { r with ic := ea }))
    (hd : BitVec.ofNat 16 n + distance d = BitVec.ofNat 16 n') :
    Leads io s (c.addr n) f (c.addr n') f := by
  have hback : c.addr (n + 1) - 1 = c.addr n := by
    rw [← c.addr_succ]
    bv_omega
  have htarget : c.addr n' = c.addr (n + 1) - 1 + distance d := by
    rw [hback, Code.addr, Code.addr, BitVec.add_assoc, hd]
  have hea (str : U16) : Does s (ea 1 d) (c.addr (n + 1)) str f (c.addr n') (c.addr (n + 1)) str f :=
    htarget ▸ fun k => ⟨k, rfl⟩
  exact leads_of_plain h hw fun str => hx ▸ (hea str).bind (does_jump _)

/-- L -/
theorem leads_l {mmm d la : U16} (h : Ready s c f.ram) (hw : c.words[n]? = some w)
    (hx : execute io w = (ea mmm d >>= fun ea => rdC ea >>= sw i.rrr))
    (hea : ∀ str, Does s (ea mmm d) (c.addr (n + 1)) str f la (c.addr (n + 1)) str f) :
    Leads io s (c.addr n) f (c.addr (n + 1)) (f.set i (f.ram (place s.regs.csbr la))) :=
  leads_of_plain h hw fun str => hx ▸ (hea str).bind ((does_rdC la).bind (does_sw i _))

/-- ST -/
theorem leads_st {mmm d la : U16} (h : Ready s c f.ram) (hw : c.words[n]? = some w)
    (hx : execute io w = (ea mmm d >>= fun ea => gr i.rrr >>= wrC ea))
    (hea : ∀ str, Does s (ea mmm d) (c.addr (n + 1)) str f la (c.addr (n + 1)) str f) :
    Leads io s (c.addr n) f (c.addr (n + 1))
      { f with ram := Function.update f.ram (place s.regs.csbr la) (f.get i) } :=
  leads_of_plain h hw fun str => hx ▸ (hea str).bind ((does_gr i).bind (does_wrC la _))

/-- SETB to `TSR0` -/
theorem leads_setb (h : Ready s c f.ram) (hw : c.words[n]? = some w)
    (hx : execute io w = (gr i.rrr >>= fun v => setSegReg 2 (v &&& 0xf))) :
    Leads io s (c.addr n) f (c.addr (n + 1))
      { f with tsr0 := ((f.get i &&& 0xf) &&& 0xf).setWidth 8 } :=
  leads_of_plain h hw fun _ => hx ▸ (does_gr i).bind fun k => ⟨k, rfl⟩

/-- LR through `TSR0` and `R1` -/
theorem leads_lr (h : Ready s c f.ram) (hw : c.words[n]? = some w)
    (hx : execute io w = (seg 2 >>= fun sg => ri 0 >>= fun ea => rdB ea sg >>= sw i.rrr)) :
    Leads io s (c.addr n) f (c.addr (n + 1)) (f.set i (f.ram (place f.tsr0 f.r1))) :=
  leads_of_plain h hw fun _ => hx ▸ (does_reg fun _ => rfl).bind ((does_reg fun _ => rfl).bind
    ((does_rdB f.r1 f.tsr0).bind (does_sw i _)))

/-- STR through `TSR0` and `R1` -/
theorem leads_str (h : Ready s c f.ram) (hw : c.words[n]? = some w)
    (hx : execute io w =
      (seg 2 >>= fun sg => ri 0 >>= fun ea => gr i.rrr >>= fun v => wrB ea v sg)) :
    Leads io s (c.addr n) f (c.addr (n + 1))
      { f with ram := Function.update f.ram (place f.tsr0 f.r1) (f.get i) } :=
  leads_of_plain h hw fun _ => hx ▸ (does_reg fun _ => rfl).bind ((does_reg fun _ => rfl).bind
    ((does_gr i).bind (does_wrB f.r1 (f.get i) f.tsr0)))

end Instructions

end Mn1613Guest
end BootMonitor
end RetroCpu
