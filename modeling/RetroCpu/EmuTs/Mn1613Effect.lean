import RetroCpu.EmuTs.Mn1613Width

/-!
# What an instruction can do

One traversal of the decoder establishes, for an instruction word, everything that
later modules need to know about its execution:

* the exact number of operand words it fetches (`operandWords`);
* that no pending request is dropped, unless the instruction is undefined and enters
  level 0 (`isUndefined`);
* that the registers stay inside their widths;
* that the board sees memory accesses below `2 ^ 18` only.
-/

namespace RetroCpu
namespace EmuTs
namespace Mn1613

open Js Prog RetroCpu.Mn1613

variable {σ : Type}

/-- Bit `lv` of the pending mask. -/
def requested (pending : Int) (lv : Level) : Prop := land pending (shl 1 (lv.val : Int)) ≠ 0

instance (pending : Int) (lv : Level) : Decidable (requested pending lv) := by
  unfold requested
  infer_instance

section Pending

theorem requested_iff (pending : Int) (lv : Level) :
    requested pending lv ↔ (toBits pending).getLsbD lv.val = true := by
  have hbit : ∀ lv : Level, toBits (shl 1 (lv.val : Int)) = BitVec.twoPow 32 lv.val := by decide
  have hne : ∀ lv : Level, (BitVec.twoPow 32 lv.val).toInt ≠ 0 := by decide
  rw [requested, land, hbit, BitVec.and_twoPow]
  cases h : (toBits pending).getLsbD lv.val with
  | false => simp
  | true => simpa using hne lv

theorem requested_raise (pending : Int) (lv lv' : Level) :
    requested (raise pending lv') lv ↔ lv = lv' ∨ requested pending lv := by
  have hbit : (toBits (shl 1 (lv'.val : Int))).getLsbD lv.val = decide (lv = lv') := by
    revert lv lv'
    decide
  rw [requested_iff, requested_iff, raise, toBits_lor, BitVec.getLsbD_or, hbit]
  by_cases h : lv = lv' <;> simp [h]

theorem requested_clear (pending : Int) (lv lv' : Level) :
    requested (land pending (lnot (shl 1 (lv'.val : Int)))) lv ↔
      lv ≠ lv' ∧ requested pending lv := by
  have hbit : (toBits (shl 1 (lv'.val : Int))).getLsbD lv.val = decide (lv = lv') := by
    revert lv lv'
    decide
  have hlv : lv.val < 32 := by omega
  rw [requested_iff, requested_iff, toBits_land, toBits_lnot, BitVec.getLsbD_and,
    BitVec.getLsbD_not, hbit]
  by_cases h : lv = lv' <;> simp [h, hlv]

theorem requested_zero (lv : Level) : ¬ requested 0 lv := by
  revert lv
  decide

/-- Requests made by the board are added to the pending ones. -/
theorem requested_foldl_raise (irq : List Level) (pending : Int) (lv : Level)
    (h : requested pending lv) : requested (irq.foldl raise pending) lv := by
  induction irq generalizing pending with
  | nil => exact h
  | cons a irq ih => exact ih (raise pending a) ((requested_raise pending lv a).mpr (.inr h))

end Pending

/-- What a traversal of the decoder keeps track of: the levels whose requests must
survive, the bounds of `OSR` and `SBRB`, and a property of the board that holds as long
as the memory accesses are in range. -/
structure Scope (bd : Board σ) where
  L : Level → Prop
  osrMax : Int
  sbrbMax : Int
  B : σ → Prop
  osrMax_ge : 0xf ≤ osrMax
  sbrbMax_ge : 0xff ≤ sbrbMax
  ioRead : ∀ b port, B b → B (bd.ioRead b port).2.state
  ioWrite : ∀ b port v, B b → B (bd.ioWrite b port v).state
  probe : ∀ b a, (a.io = false → Within 0x3ffff a.addr) → B b → B (bd.probe b a).state
  onInstructionFetch : ∀ b ir, B b → B (bd.onInstructionFetch b ir).state

/-- The scope without bounds, where the requests of the levels in `L` must survive. -/
def Scope.plain (bd : Board σ) (L : Level → Prop) : Scope bd where
  L := L
  osrMax := 0xffff
  sbrbMax := 0xffff
  B := fun _ => True
  osrMax_ge := by decide
  sbrbMax_ge := by decide
  ioRead := fun _ _ _ => trivial
  ioWrite := fun _ _ _ _ => trivial
  probe := fun _ _ _ _ => trivial
  onInstructionFetch := fun _ _ _ => trivial

/-- The part of the state that stays inside the scope. -/
def Scope.Ok {bd : Board σ} (W : Scope bd) (s : Cpu σ) : Prop :=
  Bounded W.osrMax W.sbrbMax s.reg ∧ W.B s.board

/-- The effect of a program that fetches `n` words. -/
def effect {bd : Board σ} (W : Scope bd) : GradedRel (Cpu σ) where
  rel n s s' := (∀ lv, W.L lv → requested s.pendingIRQ lv → requested s'.pendingIRQ lv) ∧
    s'.fetches = s.fetches + n ∧ (W.Ok s → W.Ok s')
  refl s := ⟨fun _ _ h => h, rfl, fun h => h⟩
  comp := by
    rintro m n s s' s'' ⟨hirq, hfetch, hok⟩ ⟨hirq', hfetch', hok'⟩
    refine ⟨fun lv hL hr => hirq' lv hL (hirq lv hL hr), ?_, fun h => hok' (hok h)⟩
    rw [hfetch', hfetch, Nat.add_assoc]

variable {bd : Board σ} {W : Scope bd}

section Primitives

theorem reg_moves {α : Type} (f : CPURegister → α) : Moves (effect W) 0 (reg f : M σ α) :=
  fun s => (effect W).refl s

theorem setReg_moves {f : CPURegister → CPURegister}
    (hf : ∀ r, Bounded W.osrMax W.sbrbMax r → Bounded W.osrMax W.sbrbMax (f r)) :
    Moves (effect W) 0 (setReg f : M σ Unit) :=
  fun _ => ⟨fun _ _ h => h, rfl, fun h => ⟨hf _ h.1, h.2⟩⟩

theorem setSP_moves {f : CPURegister → Int} (hf : ∀ r, Within 0xffff (f r)) :
    Moves (effect W) 0 (setReg fun r => { r with SP := f r } : M σ Unit) :=
  setReg_moves fun r h => { h with SP := hf r }

theorem setIC_moves {f : CPURegister → Int} (hf : ∀ r, Within 0xffff (f r)) :
    Moves (effect W) 0 (setReg fun r => { r with IC := f r } : M σ Unit) :=
  setReg_moves fun r h => { h with IC := hf r }

theorem setSTR_moves {f : CPURegister → Int}
    (hf : ∀ r, Within 0xffff r.STR → Within 0xffff (f r)) :
    Moves (effect W) 0 (setReg fun r => { r with STR := f r } : M σ Unit) :=
  setReg_moves fun r h => { h with STR := hf r h.STR }

theorem setCSBR_moves {f : CPURegister → Int} (hf : ∀ r, Within 0xf (f r)) :
    Moves (effect W) 0 (setReg fun r => { r with CSBR := f r } : M σ Unit) :=
  setReg_moves fun r h => { h with CSBR := hf r }

theorem setIISR_moves {f : CPURegister → Int}
    (hf : ∀ r, Within 0xffff r.IISR → Within 0xffff (f r)) :
    Moves (effect W) 0 (setReg fun r => { r with IISR := f r } : M σ Unit) :=
  setReg_moves fun r h => { h with IISR := hf r h.IISR }

theorem updateR_moves {i : Fin 5} {f : CPURegister → Int} (hf : ∀ r, Within 0xffff (f r)) :
    Moves (effect W) 0
      (setReg fun r => { r with R := Function.update r.R i (f r) } : M σ Unit) :=
  setReg_moves fun r h => { h with R := within_update h.R i (hf r) }

theorem setR_moves {i : Fin 5} {v : Int} (hv : Within 0xffff v) :
    Moves (effect W) 0 (setR i v : M σ Unit) :=
  updateR_moves fun _ => hv

theorem setOSR_moves {i : Fin 4} {v : Int} (hv : Within 0xf v) :
    Moves (effect W) 0 (setOSR i v : M σ Unit) :=
  setReg_moves fun _ h => { h with OSR := within_update h.OSR i (hv.mono W.osrMax_ge) }

theorem answer_moves {r : Reply σ} {s : Cpu σ} (hr : W.B s.board → W.B r.state) :
    (effect W).rel 0 s ((answer r : M σ Unit).run s).2 :=
  ⟨fun lv _ h => requested_foldl_raise r.irq _ lv h, rfl, fun h => ⟨h.1, hr h.2⟩⟩

variable (bd)

theorem within_masked (p : Int) : Within 0x3ffff (land p 0x3ffff) := by
  rw [land_3ffff]
  constructor <;> omega

theorem rdPhys_yields (p : Int) : Yields (effect W) 0 (rdPhys bd p) (Within 0xffff) := by
  refine fun s => ⟨answer_moves fun hB => W.probe _ _ (fun _ => within_masked p) hB, ?_⟩
  exact within_getUint16 _ _

theorem wrPhys_moves (p v : Int) : Moves (effect W) 0 (wrPhys bd p v) :=
  fun s => answer_moves (s := { s with mem := setUint16 s.mem (land p 0x3ffff) (land v 0xffff) })
    fun hB => W.probe _ _ (fun _ => within_masked p) hB

theorem doIoRead_moves (port : Int) : Moves (effect W) 0 (doIoRead bd port) := by
  intro s
  have hread : (effect W).rel 0 s ((answer (bd.ioRead s.board port).2 : M σ Unit).run s).2 :=
    answer_moves fun hB => W.ioRead _ _ hB
  have hprobe (s : Cpu σ) : (effect W).rel 0 s ((answer (bd.probe s.board
      { addr := land port 0xffff, io := true, write := false }) : M σ Unit).run s).2 :=
    answer_moves fun hB => W.probe _ _ (fun h => by cases h) hB
  exact (effect W).comp (m := 0) (n := 0) hread (hprobe _)

theorem doIoWrite_moves (port v : Int) : Moves (effect W) 0 (doIoWrite bd port v) := by
  intro s
  have hwrite : (effect W).rel 0 s
      ((answer (bd.ioWrite s.board (land port 0xffff) (land v 0xffff)) : M σ Unit).run s).2 :=
    answer_moves fun hB => W.ioWrite _ _ _ hB
  have hprobe (a : AddrBusAccess) (ha : a.io = true) (s : Cpu σ) (f : Int → Option Int) :
      (effect W).rel 0 s
        ((answer (bd.probe s.board a) : M σ Unit).run { s with ioLastWrite := f }).2 := by
    refine answer_moves (s := { s with ioLastWrite := f }) fun hB => W.probe _ _ (fun h => ?_) hB
    rw [ha] at h
    cases h
  exact (effect W).comp (m := 0) (n := 0) hwrite (hprobe _ rfl _ _)

theorem rdC_yields (la : Int) : Yields (effect W) 0 (rdC bd la) (Within 0xffff) :=
  (reg_moves _).bind_zero_yields fun _ => rdPhys_yields bd _

theorem rdC_moves (la : Int) : Moves (effect W) 0 (rdC bd la) := (rdC_yields bd la).moves

theorem wrC_moves (la v : Int) : Moves (effect W) 0 (wrC bd la v) :=
  (reg_moves _).bind_zero fun _ => wrPhys_moves bd _ _

theorem rdS_yields (la : Int) : Yields (effect W) 0 (rdS bd la) (Within 0xffff) :=
  (reg_moves _).bind_zero_yields fun _ => rdPhys_yields bd _

theorem wrS_moves (la v : Int) : Moves (effect W) 0 (wrS bd la v) :=
  (reg_moves _).bind_zero fun _ => wrPhys_moves bd _ _

theorem rdB_yields (la seg : Int) : Yields (effect W) 0 (rdB bd la seg) (Within 0xffff) :=
  rdPhys_yields bd _

theorem rdB_moves (la seg : Int) : Moves (effect W) 0 (rdB bd la seg) :=
  (rdB_yields bd la seg).moves

theorem wrB_moves (la v seg : Int) : Moves (effect W) 0 (wrB bd la v seg) := wrPhys_moves bd _ _

/-- The only primitive that reads the instruction stream. -/
theorem fetch_yields : Yields (effect W) 1 (fetch bd) (Within 0xffff) := by
  have hinc : Moves (effect W) 1 (modify fun s : Cpu σ => { s with
      reg := { s.reg with IC := land (s.reg.IC + 1) 0xffff }, fetches := s.fetches + 1 }) :=
    fun s => ⟨fun _ _ h => h, rfl, fun h => ⟨{ h.1 with IC := within_land_word _ }, h.2⟩⟩
  refine (reg_moves _).bind_zero_yields fun _ => (rdC_yields bd _).bind_zero_yields ?_
  exact fun w hw => hinc.yields.bind_yields fun _ _ => Yields.pure hw

/-- A program that starts with a fetch and fetches no more. -/
theorem fetch_bind {α : Type} {k : Int → M σ α}
    (hk : ∀ w, Within 0xffff w → Moves (effect W) 0 (k w)) :
    Moves (effect W) 1 (fetch bd >>= k) :=
  (fetch_yields bd).bind hk

variable {bd}

theorem gr_moves (k : Int) : Moves (effect W) 0 (gr k : M σ Int) := reg_moves _

theorem sw_moves (k v : Int) : Moves (effect W) 0 (sw k v : M σ Unit) := by
  unfold sw
  split
  case h_6 => exact setSP_moves fun _ => within_land_word v
  case h_7 => exact setSTR_moves fun _ _ => within_land_word v
  case h_8 => exact setIC_moves fun _ => within_land_word v
  all_goals exact setR_moves (within_land_word v)

theorem riSet_moves (ii v : Int) : Moves (effect W) 0 (riSet ii v : M σ Unit) :=
  setR_moves (within_land_word v)

theorem setSegReg_moves (k v : Int) : Moves (effect W) 0 (setSegReg k v : M σ Unit) := by
  have hv := within_land_nibble v
  unfold setSegReg
  split
  case h_1 => exact setReg_moves fun r h => { h with SSBR := hv }
  case h_2 => exact setReg_moves fun r h => { h with TSR0 := hv }
  case h_3 => exact setReg_moves fun r h => { h with TSR1 := hv }
  case h_8 => exact Moves.pure _
  all_goals exact setOSR_moves hv

theorem setSpecReg_moves (k v : Int) : Moves (effect W) 0 (setSpecReg k v : M σ Unit) := by
  unfold setSpecReg
  split
  · exact setReg_moves fun r h => { h with SBRB := (within_land_byte v).mono W.sbrbMax_ge }
  · exact setReg_moves fun r h => { h with ICB := within_land_word v }
  · exact setReg_moves fun r h => { h with NPP := within_land_byte v }
  · exact Moves.pure _

theorem setHWReg_moves (k v : Int) : Moves (effect W) 0 (setHWReg k v : M σ Unit) :=
  Moves.ite_same (setIISR_moves fun _ _ => within_land_word v) (Moves.pure _)

theorem within_lnot (c : Int) : Within 0xffff (land (lnot c) 0xffff) := within_land_word _

theorem setE_moves (v : Bool) : Moves (effect W) 0 (setE v : M σ Unit) := by
  refine setSTR_moves fun r h => ?_
  cases v with
  | true => exact within_lor h ⟨by decide, by decide⟩
  | false => exact within_land h (within_lnot _)

theorem setOVF_moves (v : Bool) : Moves (effect W) 0 (setOVF v : M σ Unit) := by
  refine setSTR_moves fun r h => ?_
  cases v with
  | true => exact within_lor h ⟨by decide, by decide⟩
  | false => exact within_land h (within_lnot _)

theorem add_yields (a b : Int) : Yields (effect W) 0 (add a b : M σ Int) (Within 0xffff) :=
  (setE_moves _).bind_zero_yields fun _ => (setOVF_moves _).bind_zero_yields fun _ =>
    Yields.pure (within_land_word _)

theorem sub_yields (a b : Int) : Yields (effect W) 0 (sub a b : M σ Int) (Within 0xffff) :=
  (setE_moves _).bind_zero_yields fun _ => (setOVF_moves _).bind_zero_yields fun _ =>
    Yields.pure (within_land_word _)

theorem carryIn_moves (c : Int) : Moves (effect W) 0 (carryIn c : M σ Bool) :=
  Moves.ite_same (reg_moves _) (Moves.pure _)

theorem applyEE_moves (ee : Int) : Moves (effect W) 0 (applyEE ee : M σ Unit) := by
  unfold applyEE
  split
  · exact setE_moves _
  · exact setE_moves _
  · exact (reg_moves _).bind_zero fun _ => setE_moves _
  · exact Moves.pure _

variable (bd)

theorem skipNext_moves : Moves (effect W) 0 (skipNext bd) := by
  have hinc : Moves (effect W) 0
      (setReg fun r => { r with IC := land (r.IC + 1) 0xffff } : M σ Unit) :=
    setIC_moves fun _ => within_land_word _
  exact (reg_moves _).bind_zero fun _ => (rdC_moves bd _).bind_zero fun _ =>
    hinc.bind_zero fun _ => Moves.ite_same hinc (Moves.pure _)

theorem skipIf_moves (k v : Int) : Moves (effect W) 0 (skipIf bd k v) :=
  (reg_moves _).bind_zero fun _ => Moves.ite_same (skipNext_moves bd) (Moves.pure _)

theorem push_moves (v : Int) : Moves (effect W) 0 (push bd v) :=
  (reg_moves _).bind_zero fun _ => (wrS_moves bd _ _).bind_zero fun _ =>
    setSP_moves fun _ => within_land_word _

theorem pop_yields : Yields (effect W) 0 (pop bd) (Within 0xffff) := by
  have hinc : Moves (effect W) 0
      (setReg fun r => { r with SP := land (r.SP + 1) 0xffff } : M σ Unit) :=
    setSP_moves fun _ => within_land_word _
  exact hinc.bind_zero_yields fun _ => (reg_moves _).bind_zero_yields fun _ => rdS_yields bd _

/-- Accepting level `lv` keeps the requests of the other levels. -/
theorem acceptIrq_moves {lv : Level} (hL : ¬ W.L lv) : Moves (effect W) 0 (acceptIrq bd lv) := by
  have hclear : Moves (effect W) 0 (modify fun s : Cpu σ =>
      { s with pendingIRQ := land s.pendingIRQ (lnot (shl 1 (lv.val : Int))) }) := by
    refine fun s => ⟨fun lv' hL' h => ?_, rfl, fun h => h⟩
    have hne : lv' ≠ lv := by
      rintro rfl
      exact hL hL'
    exact (requested_clear _ lv' lv).mpr ⟨hne, h⟩
  refine hclear.bind_zero fun _ => (reg_moves _).bind_zero fun _ => ?_
  refine (setOSR_moves (within_land_nibble _)).bind_zero fun _ => ?_
  refine (setCSBR_moves fun _ => within_zero (by decide)).bind_zero fun _ => ?_
  refine (reg_moves _).bind_zero fun _ => (wrPhys_moves bd _ _).bind_zero fun _ => ?_
  refine (reg_moves _).bind_zero fun _ => (wrPhys_moves bd _ _).bind_zero fun _ => ?_
  refine (reg_moves _).bind_zero fun _ => (rdPhys_yields bd _).bind_zero fun _ hstr => ?_
  refine (setSTR_moves fun _ _ => hstr).bind_zero fun _ => ?_
  exact (rdPhys_yields bd _).bind_zero fun _ hic => setIC_moves fun _ => hic

theorem trapUndefinedInsn_moves (hL : ¬ W.L 0) :
    Moves (effect W) 0 (trapUndefinedInsn bd) := by
  have hbit : Within 0xffff (1 : Int) := ⟨by decide, by decide⟩
  exact (setIISR_moves fun _ h => within_lor h hbit).bind_zero fun _ =>
    (setIISR_moves fun _ h => within_lor h hbit).bind_zero fun _ => acceptIrq_moves bd hL

end Primitives

section Decoder

/-- Operand words of the register-to-register groups `0x0a`..`0x0d`. -/
def immediateWords (lo : Int) : Nat :=
  if land (ushr lo 3) 1 = 1 ∧ land lo 7 = 7 then 1
  else if land (ushr lo 3) 1 = 0 ∧ land lo 7 = 7 then 1
  else 0

/-- Operand words of group `0x04`. -/
def operandWords04 (rrr lo : Int) : Nat :=
  if rrr = 0 ∧ lo = 0x00 then 0
  else if rrr = 0 ∧ lo = 0x03 then 0
  else if rrr = 0 ∧ lo ≥ 0x04 ∧ lo ≤ 0x07 then 0
  else if rrr = 6 ∧ lo = 0x07 then 1
  else if rrr = 6 ∧ lo = 0x17 then 1
  else if rrr = 7 ∧ land lo 0xfc = 0x04 then 0
  else if rrr = 7 ∧ land lo 0xfc = 0x14 then 0
  else if rrr = 7 ∧ land lo 0x08 ≠ 0 then 1
  else 0

/-- Operand words of group `0x0f`. -/
def operandWords0f (rrr lo : Int) : Nat :=
  if rrr = 7 then
    if land (ushr lo 2) 3 = 3 then 0
    else if land (ushr lo 2) 3 = 2 then 0
    else if land (ushr lo 3) 1 = 0 ∧ land lo 7 = 7 then 1
    else 0
  else if land lo 7 = 7 ∧ land (ushr lo 3) 1 = 0 then 1
  else 0

/-- Operand words of group `0x0b`, where the two `IC` forms stand behind DAA. -/
def operandWords0b (rrr lo : Int) : Nat :=
  if rrr = 7 then
    if land lo 4 ≠ 0 then 0
    else if land (ushr lo 2) 3 = 2 then 0
    else if land (ushr lo 2) 3 = 0 then 0
    else 1
  else immediateWords lo

/-- Number of words after the instruction word that its execution fetches. -/
def operandWords (ir : Int) : Nat :=
  let op := land (ushr ir 11) 0x1f
  let rrr := land (ushr ir 8) 0x7
  let lo := land ir 0xff
  if op ≥ 0x10 then 0
  else
    match op.toNat with
    | 0x01 => if rrr ≠ 7 then 0 else if land lo 7 = 7 then 1 else 0
    | 0x02 => if rrr ≠ 7 then 0 else if lo = 0x0f then 0 else if lo = 0x07 then 0 else 1
    | 0x04 => operandWords04 rrr lo
    | 0x0a | 0x0c | 0x0d => if rrr = 7 then 0 else immediateWords lo
    | 0x0b => operandWords0b rrr lo
    | 0x0f => operandWords0f rrr lo
    | _ => 0

/-- The words of group `0x04` that no arm of `_exec04` takes. -/
def isUndefined04 (rrr lo : Int) : Prop :=
  ¬ (rrr = 0 ∧ lo = 0x00) ∧ ¬ (rrr = 0 ∧ lo = 0x03) ∧ ¬ (rrr = 0 ∧ lo ≥ 0x04 ∧ lo ≤ 0x07) ∧
    ¬ (rrr = 6 ∧ lo = 0x07) ∧ ¬ (rrr = 6 ∧ lo = 0x17) ∧
    ¬ (rrr = 7 ∧ land lo 0xfc = 0x04) ∧ ¬ (rrr = 7 ∧ land lo 0xfc = 0x14) ∧
    ¬ (rrr = 7 ∧ land lo 0x08 ≠ 0) ∧ ¬ lo = 0x01 ∧ ¬ lo = 0x02 ∧
    ¬ (land (ushr lo 2) 3 = 0 ∧ land (ushr lo 6) 3 ≠ 0) ∧
    ¬ (land (ushr lo 2) 3 = 1 ∧ land (ushr lo 6) 3 ≠ 0) ∧
    ¬ land (ushr lo 2) 3 = 2 ∧ ¬ land (ushr lo 2) 3 = 3 ∧
    ¬ (ushr lo 4 = 1 ∧ land (ushr lo 2) 3 = 1 ∧ rrr ≠ 7) ∧
    ¬ (ushr lo 4 = 1 ∧ land (ushr lo 2) 3 = 0)

instance (rrr lo : Int) : Decidable (isUndefined04 rrr lo) := by
  unfold isUndefined04
  infer_instance

/-- The instruction words that trap. -/
def isUndefined (ir : Int) : Prop :=
  land (ushr ir 11) 0x1f = 0 ∨
    (land (ushr ir 11) 0x1f = 4 ∧ isUndefined04 (land (ushr ir 8) 0x7) (land ir 0xff))

instance (ir : Int) : Decidable (isUndefined ir) := by
  unfold isUndefined
  infer_instance

variable (bd) (rrr lo : Int)

theorem ea_yields (mmm : Int) : Yields (effect W) 0 (ea bd mmm lo) (Within 0xffff) := by
  refine (reg_moves _).bind_zero_yields fun _ => ?_
  dsimp only
  split
  · exact Yields.pure ((within_land_byte _).mono (by decide))
  · exact Yields.pure (within_land_word _)
  · exact rdC_yields bd _
  · exact rdC_yields bd _
  · exact (reg_moves _).bind_zero_yields fun _ => Yields.pure (within_land_word _)
  · exact (reg_moves _).bind_zero_yields fun _ => Yields.pure (within_land_word _)
  · exact (reg_moves _).bind_zero_yields fun _ => (rdC_moves bd _).bind_zero_yields fun _ =>
      Yields.pure (within_land_word _)
  · exact (reg_moves _).bind_zero_yields fun _ => (rdC_moves bd _).bind_zero_yields fun _ =>
      Yields.pure (within_land_word _)

theorem execMemory_moves (op : Int) : Moves (effect W) 0 (execMemory bd op rrr lo) := by
  refine (ea_yields bd lo _).bind_zero fun ea hea => ?_
  have hjump : Moves (effect W) 0 (setReg fun r => { r with IC := ea } : M σ Unit) :=
    setIC_moves fun _ => hea
  refine Moves.ite_same (Moves.ite_same hjump ?_) (Moves.ite_same ?_ (Moves.ite_same ?_ ?_))
  · exact (reg_moves _).bind_zero fun _ => (push_moves bd _).bind_zero fun _ => hjump
  · exact (rdC_moves bd _).bind_zero fun _ => (wrC_moves bd _ _).bind_zero fun _ =>
      Moves.ite_same (skipNext_moves bd) (Moves.pure _)
  · exact (rdC_moves bd _).bind_zero fun _ => sw_moves _ _
  · exact (gr_moves _).bind_zero fun _ => wrC_moves bd _ _

theorem exec01_moves :
    Moves (effect W) (if rrr ≠ 7 then 0 else if land lo 7 = 7 then 1 else 0)
      (exec01 bd rrr lo) := by
  refine Moves.ite (fun _ => ?_) fun _ => Moves.ite (fun _ => ?_) fun _ => ?_
  · exact (gr_moves _).bind_zero fun _ => sw_moves _ _
  · refine fetch_bind bd fun _ _ => ?_
    refine Moves.ite_same (Moves.ite_same ?_ (Moves.pure _)) (Moves.ite_same ?_
      (Moves.ite_same ?_ ?_))
    · exact (rdC_moves bd _).bind_zero fun _ => setSegReg_moves _ _
    · exact (rdC_moves bd _).bind_zero fun _ => setSpecReg_moves _ _
    · exact (reg_moves _).bind_zero fun _ => wrC_moves bd _ _
    · exact (reg_moves _).bind_zero fun _ => wrC_moves bd _ _
  · refine Moves.ite_same ?_ (Moves.ite_same ?_ (Moves.ite_same (Moves.ite_same ?_
      (Moves.pure _)) ?_))
    · exact (reg_moves _).bind_zero fun _ => sw_moves _ _
    · exact (reg_moves _).bind_zero fun _ => sw_moves _ _
    · exact (reg_moves _).bind_zero fun _ => setSegReg_moves _ _
    · exact (reg_moves _).bind_zero fun _ => setSpecReg_moves _ _

theorem exec02_moves :
    Moves (effect W)
      (if rrr ≠ 7 then 0 else if lo = 0x0f then 0 else if lo = 0x07 then 0 else 1)
      (exec02 bd rrr lo) := by
  have hpush (i : Fin 5) {n : Nat} {m : M σ Unit} (hm : Moves (effect W) n m) :
      Moves (effect W) n (do push bd (← reg fun r => r.R i); m) :=
    (reg_moves _).bind_zero fun _ => (push_moves bd _).bind_zero fun _ => hm
  have hpop (i : Fin 5) {n : Nat} {m : M σ Unit} (hm : Moves (effect W) n m) :
      Moves (effect W) n (do setR i (← pop bd); m) :=
    (pop_yields bd).bind_zero fun _ hv => (setR_moves hv).bind_zero fun _ => hm
  refine Moves.ite (fun _ => ?_) fun _ => Moves.ite (fun _ => ?_) fun _ =>
    Moves.ite (fun _ => ?_) fun _ => ?_
  · exact (gr_moves _).bind_zero fun _ => doIoWrite_moves bd _ _
  · exact hpush 0 (hpush 1 (hpush 2 (hpush 3 ((reg_moves _).bind_zero fun _ => push_moves bd _))))
  · exact hpop 4 (hpop 3 (hpop 2 (hpop 1 ((pop_yields bd).bind_zero fun _ hv =>
      setR_moves hv))))
  · refine fetch_bind bd fun _ _ => (rdC_moves bd _).bind_zero fun _ => ?_
    exact (gr_moves _).bind_zero fun _ => (wrC_moves bd _ _).bind_zero fun _ =>
      skipIf_moves bd _ _

theorem dr0_skip_moves (kkkk : Int) :
    Moves (effect W) 0 (do skipIf bd kkkk (← dr0)) :=
  (reg_moves _).bind_zero fun _ => skipIf_moves bd _ _

theorem fpEncode_moves (x : Float) : Moves (effect W) 0 (fpEncode x : M σ Unit) :=
  (setR_moves (within_fpToWords x).1).bind_zero fun _ =>
    (setR_moves (within_fpToWords x).2).bind_zero fun _ => setOVF_moves _

theorem fpDecodeAt_moves (ea : Int) : Moves (effect W) 0 (fpDecodeAt bd ea) :=
  (rdC_moves bd _).bind_zero fun _ => (rdC_moves bd _).bind_zero fun _ => Moves.pure _

theorem exec03_moves : Moves (effect W) 0 (exec03 bd rrr lo) := by
  refine Moves.ite_same ?_ (Moves.ite_same (Moves.ite_same ?_ ?_) ?_)
  · exact (doIoRead_moves bd _).bind_zero fun _ => sw_moves _ _
  · refine (reg_moves _).bind_zero fun _ => (setE_moves _).bind_zero fun _ => ?_
    refine (setOVF_moves _).bind_zero fun _ => (setR_moves ?_).bind_zero fun _ => ?_
    · exact within_ite (within_zero (by decide)) (within_land_word _)
    exact (reg_moves _).bind_zero fun _ => skipIf_moves bd _ _
  · refine (reg_moves _).bind_zero fun _ => (fpEncode_moves bd _).bind_zero fun _ => ?_
    exact (setE_moves _).bind_zero fun _ => dr0_skip_moves bd _
  · refine (carryIn_moves _).bind_zero fun _ => (gr_moves _).bind_zero fun _ => ?_
    refine (sub_yields _ _).bind_zero fun _ _ => (sub_yields _ _).bind_zero fun _ _ => ?_
    exact (sw_moves _ _).bind_zero fun _ => skipIf_moves bd _ _

theorem pushLink_moves (l : Bool) : Moves (effect W) 0 (pushLink bd l) :=
  Moves.ite_same ((reg_moves _).bind_zero fun _ => (push_moves bd _).bind_zero fun _ =>
    (reg_moves _).bind_zero fun _ => push_moves bd _) (Moves.pure _)

theorem loadCsIc_moves (base : Int) : Moves (effect W) 0 (loadCsIc bd base) := by
  refine (reg_moves _).bind_zero fun _ => (rdB_moves bd _ _).bind_zero fun _ => ?_
  refine (reg_moves _).bind_zero fun _ => (rdB_yields bd _ _).bind_zero fun _ hic => ?_
  exact (setCSBR_moves fun _ => within_land_nibble _).bind_zero fun _ => setIC_moves fun _ => hic

theorem execSegBranch_moves (ii : Int) (l : Bool) :
    Moves (effect W) 0 (execSegBranch bd ii l) :=
  (reg_moves _).bind_zero fun _ => (pushLink_moves bd _).bind_zero fun _ => loadCsIc_moves bd _

theorem execLpsw_moves (ll : Int) : Moves (effect W) 0 (execLpsw bd ll) := by
  refine (rdPhys_yields bd _).bind_zero fun _ hstr => ?_
  refine (setSTR_moves fun _ _ => hstr).bind_zero fun _ => ?_
  refine (rdPhys_yields bd _).bind_zero fun _ hic => ?_
  exact (setIC_moves fun _ => hic).bind_zero fun _ => setCSBR_moves fun _ => within_land_nibble _

theorem execLong_moves : Moves (effect W) 1 (execLong bd lo) := by
  refine fetch_bind bd fun _ _ => ?_
  refine Moves.ite_same ?_ ?_
  · refine Moves.ite_same ?_ ?_
    · exact (pushLink_moves bd _).bind_zero fun _ => loadCsIc_moves bd _
    · exact (reg_moves _).bind_zero fun _ => (rdB_moves bd _ _).bind_zero fun _ => sw_moves _ _
  · exact (gr_moves _).bind_zero fun _ => (reg_moves _).bind_zero fun _ => wrB_moves bd _ _ _

theorem rindirect_moves (m ii : Int) : Moves (effect W) 0 (rindirect m ii : M σ Int) := by
  refine Moves.ite_same (reg_moves _) (Moves.ite_same ?_ ?_)
  · exact (reg_moves _).bind_zero fun _ => (riSet_moves _ _).bind_zero fun _ => reg_moves _
  · exact (reg_moves _).bind_zero fun _ => (reg_moves _).bind_zero fun _ =>
      (riSet_moves _ _).bind_zero fun _ => Moves.pure _

theorem execSr_moves (kkkk ee : Int) : Moves (effect W) 0 (execSr bd rrr kkkk ee) := by
  refine (applyEE_moves _).bind_zero fun _ => (gr_moves _).bind_zero fun _ => ?_
  refine (reg_moves _).bind_zero fun _ => (setE_moves _).bind_zero fun _ => ?_
  exact (sw_moves _ _).bind_zero fun _ => skipIf_moves bd _ _

theorem execSl_moves (kkkk ee : Int) : Moves (effect W) 0 (execSl bd rrr kkkk ee) := by
  refine (applyEE_moves _).bind_zero fun _ => (gr_moves _).bind_zero fun _ => ?_
  refine (reg_moves _).bind_zero fun _ => (setE_moves _).bind_zero fun _ => ?_
  exact (sw_moves _ _).bind_zero fun _ => skipIf_moves bd _ _

theorem exec04_moves (hL : W.L 0 → ¬ isUndefined04 rrr lo) :
    Moves (effect W) (operandWords04 rrr lo) (exec04 bd rrr lo) := by
  refine Moves.ite (fun _ => ?_) fun h1 => Moves.ite (fun _ => ?_) fun h2 =>
    Moves.ite (fun _ => execLpsw_moves bd _) fun h3 => Moves.ite (fun _ => ?_) fun h4 =>
    Moves.ite (fun _ => ?_) fun h5 => Moves.ite (fun _ => execSegBranch_moves bd _ _) fun h6 =>
    Moves.ite (fun _ => execSegBranch_moves bd _ _) fun h7 =>
    Moves.ite (fun _ => execLong_moves bd _) fun h8 => ?_
  · exact fun _ => ⟨fun _ _ h => h, rfl, fun h => h⟩
  · exact (pop_yields bd).bind_zero fun _ hv => setIC_moves fun _ => hv
  · exact fetch_bind bd fun _ hw => setIC_moves fun _ => hw
  · refine fetch_bind bd fun _ hw => (reg_moves _).bind_zero fun _ => ?_
    exact (push_moves bd _).bind_zero fun _ => setIC_moves fun _ => hw
  -- Every remaining arm fetches nothing, the last one traps.
  by_cases h9 : lo = 0x01
  · rw [if_pos h9]
    exact (gr_moves _).bind_zero fun _ => push_moves bd _
  rw [if_neg h9]
  by_cases h10 : lo = 0x02
  · rw [if_pos h10]
    exact (pop_yields bd).bind_zero fun _ _ => sw_moves _ _
  rw [if_neg h10]
  by_cases h11 : land (ushr lo 2) 3 = 0 ∧ land (ushr lo 6) 3 ≠ 0
  · rw [if_pos h11]
    exact (reg_moves _).bind_zero fun _ => (rindirect_moves bd _ _).bind_zero fun _ =>
      (rdB_moves bd _ _).bind_zero fun _ => sw_moves _ _
  rw [if_neg h11]
  by_cases h12 : land (ushr lo 2) 3 = 1 ∧ land (ushr lo 6) 3 ≠ 0
  · rw [if_pos h12]
    exact (reg_moves _).bind_zero fun _ => (rindirect_moves bd _ _).bind_zero fun _ =>
      (gr_moves _).bind_zero fun _ => wrB_moves bd _ _ _
  rw [if_neg h12]
  by_cases h13 : land (ushr lo 2) 3 = 2
  · rw [if_pos h13]
    exact execSr_moves bd _ _ _
  rw [if_neg h13]
  by_cases h14 : land (ushr lo 2) 3 = 3
  · rw [if_pos h14]
    exact execSl_moves bd _ _ _
  rw [if_neg h14]
  by_cases h15 : ushr lo 4 = 1 ∧ land (ushr lo 2) 3 = 1 ∧ rrr ≠ 7
  · rw [if_pos h15]
    exact (reg_moves _).bind_zero fun _ => (doIoRead_moves bd _).bind_zero fun _ => sw_moves _ _
  rw [if_neg h15]
  by_cases h16 : ushr lo 4 = 1 ∧ land (ushr lo 2) 3 = 0
  · rw [if_pos h16]
    exact (reg_moves _).bind_zero fun _ => (gr_moves _).bind_zero fun _ => doIoWrite_moves bd _ _
  rw [if_neg h16]
  exact trapUndefinedInsn_moves bd fun h0 =>
    hL h0 ⟨h1, h2, h3, h4, h5, h6, h7, h8, h9, h10, h11, h12, h13, h14, h15, h16⟩

theorem exec05_moves : Moves (effect W) 0 (exec05 bd rrr lo) :=
  (gr_moves _).bind_zero fun _ => skipIf_moves bd _ _

theorem exec06_moves : Moves (effect W) 0 (exec06 bd rrr lo) :=
  (gr_moves _).bind_zero fun _ => (sw_moves _ _).bind_zero fun _ => skipIf_moves bd _ _

theorem blkLoop_moves (n : Nat) : Moves (effect W) 0 (blkLoop bd n) := by
  induction n with
  | zero => exact Moves.pure _
  | succ n ih =>
      refine (reg_moves _).bind_zero fun _ => Moves.ite_same ?_ (Moves.pure _)
      refine (reg_moves _).bind_zero fun _ => (reg_moves _).bind_zero fun _ => ?_
      refine (rdB_moves bd _ _).bind_zero fun _ => (reg_moves _).bind_zero fun _ => ?_
      refine (reg_moves _).bind_zero fun _ => (wrB_moves bd _ _ _).bind_zero fun _ => ?_
      have hcount {i : Fin 5} {f : CPURegister → Int} :
          Moves (effect W) 0 (setReg fun r =>
            { r with R := Function.update r.R i (land (f r) 0xffff) } : M σ Unit) :=
        updateR_moves fun _ => within_land_word _
      exact hcount.bind_zero fun _ => hcount.bind_zero fun _ => hcount.bind_zero fun _ => ih

theorem exec07_moves : Moves (effect W) 0 (exec07 bd rrr lo) := by
  refine Moves.ite_same ?_ (Moves.ite_same ?_ (Moves.ite_same (blkLoop_moves bd _)
    (Moves.ite_same ?_ (Moves.ite_same ?_ (Moves.ite_same ?_ ?_)))))
  · exact (gr_moves _).bind_zero fun _ => (sw_moves _ _).bind_zero fun _ => skipIf_moves bd _ _
  · refine (pop_yields bd).bind_zero fun _ _ => ?_
    refine (setCSBR_moves fun _ => within_land_nibble _).bind_zero fun _ => ?_
    exact (pop_yields bd).bind_zero fun _ hv => setIC_moves fun _ => hv
  · exact (gr_moves _).bind_zero fun v => (setR_moves (within_srbt v)).bind_zero fun _ =>
      sw_moves _ _
  · exact (reg_moves _).bind_zero fun _ => (gr_moves _).bind_zero fun _ => sw_moves _ _
  · exact (reg_moves _).bind_zero fun _ => sw_moves _ _
  · exact (gr_moves _).bind_zero fun _ => setHWReg_moves _ _

theorem setDR0_moves (x : Int) : Moves (effect W) 0 (setDR0 x : M σ Unit) :=
  (setR_moves (within_land_word _)).bind_zero fun _ => setR_moves (within_land_word _)

theorem doubleWord_moves {m : Int → Int → Bool → (Fin 5 → Int) → M σ Unit} (ii c : Int)
    (hm : ∀ mh ml e r, Moves (effect W) 0 (m mh ml e r)) :
    Moves (effect W) 0 (do
      let ea ← ri ii
      let mh ← rdC bd ea
      let ml ← rdC bd (land (ea + 1) 0xffff)
      let e ← carryIn c
      let r ← reg fun r => r.R
      m mh ml e r) := by
  refine (reg_moves _).bind_zero fun _ => (rdC_moves bd _).bind_zero fun _ => ?_
  refine (rdC_moves bd _).bind_zero fun _ => (carryIn_moves _).bind_zero fun _ => ?_
  exact (reg_moves _).bind_zero fun _ => hm _ _ _ _

theorem exec08_moves : Moves (effect W) 0 (exec08 bd rrr lo) := by
  refine Moves.ite_same (doubleWord_moves bd _ _ fun _ _ _ _ => ?_) ?_
  · exact (setE_moves _).bind_zero fun _ => (setOVF_moves _).bind_zero fun _ =>
      (setDR0_moves bd _).bind_zero fun _ => dr0_skip_moves bd _
  · exact (gr_moves _).bind_zero fun _ => (sw_moves _ _).bind_zero fun _ => skipIf_moves bd _ _

theorem exec09_moves : Moves (effect W) 0 (exec09 bd rrr lo) := by
  refine Moves.ite_same (doubleWord_moves bd _ _ fun _ _ _ _ => ?_) ?_
  · exact (setE_moves _).bind_zero fun _ => (setOVF_moves _).bind_zero fun _ =>
      (setDR0_moves bd _).bind_zero fun _ => dr0_skip_moves bd _
  · exact (gr_moves _).bind_zero fun _ => (sw_moves _ _).bind_zero fun _ => skipIf_moves bd _ _

theorem operand_moves {n : Nat} (ii : Int) {k : Int → M σ Unit}
    (hk : ∀ v, Within 0xffff v → Moves (effect W) n (k v)) :
    Moves (effect W) n (do k (← rdC bd (← ri ii))) :=
  (reg_moves _).bind_zero fun _ => (rdC_yields bd _).bind_zero hk

theorem sub_skip_moves (a b kkkk : Int) :
    Moves (effect W) 0 (do skipIf bd kkkk (← sub a b)) :=
  (sub_yields _ _).bind_zero fun _ _ => skipIf_moves bd _ _

theorem exec0a_moves :
    Moves (effect W) (if rrr = 7 then 0 else immediateWords lo) (exec0a bd rrr lo) := by
  refine Moves.ite (fun _ => Moves.ite_same ?_ (Moves.ite_same ?_ ?_)) fun _ =>
    Moves.ite (fun _ => ?_) fun _ => Moves.ite (fun _ => ?_) fun _ => Moves.ite_same ?_ ?_
  · refine operand_moves bd _ fun _ _ => (carryIn_moves _).bind_zero fun _ => ?_
    refine (reg_moves _).bind_zero fun _ => (setE_moves _).bind_zero fun _ => ?_
    exact (setR_moves (within_land_word _)).bind_zero fun _ => (reg_moves _).bind_zero fun _ => skipIf_moves bd _ _
  · exact (reg_moves _).bind_zero fun _ => operand_moves bd _ fun _ _ => sub_skip_moves bd _ _ _
  · exact (reg_moves _).bind_zero fun _ => operand_moves bd _ fun _ _ => sub_skip_moves bd _ _ _
  · exact fetch_bind bd fun _ _ => (gr_moves _).bind_zero fun _ => sub_skip_moves bd _ _ _
  · exact fetch_bind bd fun _ _ => (gr_moves _).bind_zero fun _ => sub_skip_moves bd _ _ _
  · exact (gr_moves _).bind_zero fun _ => (gr_moves _).bind_zero fun _ => sub_skip_moves bd _ _ _
  · exact (gr_moves _).bind_zero fun _ => (gr_moves _).bind_zero fun _ => sub_skip_moves bd _ _ _

theorem swSkip_moves (kkkk v : Int) : Moves (effect W) 0 (swSkip bd rrr kkkk v) :=
  (sw_moves _ _).bind_zero fun _ => skipIf_moves bd _ _

theorem setR0Skip_moves (kkkk : Int) {v : Int} (hv : Within 0xffff v) :
    Moves (effect W) 0 (setR0Skip bd kkkk v) :=
  (setR_moves hv).bind_zero fun _ => skipIf_moves bd _ _

theorem exec0b_moves : Moves (effect W) (operandWords0b rrr lo) (exec0b bd rrr lo) := by
  refine Moves.ite (fun _ => Moves.ite (fun _ => ?_) fun _ => Moves.ite (fun _ => ?_) fun _ =>
    Moves.ite (fun _ => ?_) fun _ => Moves.ite_same ?_ ?_) fun _ =>
    Moves.ite (fun _ => ?_) fun _ => Moves.ite (fun _ => ?_) fun _ => Moves.ite_same ?_ ?_
  · refine operand_moves bd _ fun _ _ => (carryIn_moves _).bind_zero fun _ => ?_
    refine (reg_moves _).bind_zero fun _ => (setE_moves _).bind_zero fun _ => ?_
    exact (setR_moves (within_land_word _)).bind_zero fun _ => (reg_moves _).bind_zero fun _ => skipIf_moves bd _ _
  · exact (reg_moves _).bind_zero fun _ => operand_moves bd _ fun _ _ =>
      (add_yields _ _).bind_zero fun _ hres => setR0Skip_moves bd _ hres
  · exact (reg_moves _).bind_zero fun _ => operand_moves bd _ fun _ _ =>
      (sub_yields _ _).bind_zero fun _ hres => setR0Skip_moves bd _ hres
  · exact (reg_moves _).bind_zero fun _ => fetch_bind bd fun _ _ =>
      (add_yields _ _).bind_zero fun _ hres => (setIC_moves fun _ => hres).bind_zero fun _ => skipIf_moves bd _ _
  · exact (reg_moves _).bind_zero fun _ => fetch_bind bd fun _ _ =>
      (sub_yields _ _).bind_zero fun _ hres => (setIC_moves fun _ => hres).bind_zero fun _ => skipIf_moves bd _ _
  · exact fetch_bind bd fun _ _ => (gr_moves _).bind_zero fun _ =>
      (add_yields _ _).bind_zero fun _ _ => swSkip_moves bd _ _ _
  · exact fetch_bind bd fun _ _ => (gr_moves _).bind_zero fun _ =>
      (sub_yields _ _).bind_zero fun _ _ => swSkip_moves bd _ _ _
  · exact (gr_moves _).bind_zero fun _ => (gr_moves _).bind_zero fun _ =>
      (add_yields _ _).bind_zero fun _ _ => swSkip_moves bd _ _ _
  · exact (gr_moves _).bind_zero fun _ => (gr_moves _).bind_zero fun _ =>
      (sub_yields _ _).bind_zero fun _ _ => swSkip_moves bd _ _ _

theorem fpFinish_moves (kkkk : Int) : Moves (effect W) 0 (fpFinish bd kkkk) :=
  (setE_moves _).bind_zero fun _ => dr0_skip_moves bd _

theorem execFloat_moves (f : Float → Float → Float) (kkkk b10 : Int) :
    Moves (effect W) 0 (execFloat bd f kkkk b10) :=
  (reg_moves _).bind_zero fun _ => (reg_moves _).bind_zero fun _ =>
    (fpDecodeAt_moves bd _).bind_zero fun _ => (fpEncode_moves bd _).bind_zero fun _ =>
      fpFinish_moves bd _

theorem execFd_moves (kkkk b10 : Int) : Moves (effect W) 0 (execFd bd kkkk b10) := by
  refine (reg_moves _).bind_zero fun _ => (fpDecodeAt_moves bd _).bind_zero fun _ => ?_
  refine Moves.ite_same ?_ ?_
  · exact (setOVF_moves _).bind_zero fun _ => (setE_moves _).bind_zero fun _ =>
      dr0_skip_moves bd _
  · exact (reg_moves _).bind_zero fun _ => (fpEncode_moves bd _).bind_zero fun _ =>
      fpFinish_moves bd _

theorem exec0c_moves :
    Moves (effect W) (if rrr = 7 then 0 else immediateWords lo) (exec0c bd rrr lo) := by
  refine Moves.ite (fun _ => Moves.ite_same (execFloat_moves bd _ _ _) (Moves.ite_same
    (execFd_moves bd _ _) (Moves.ite_same ?_ ?_))) fun _ =>
    Moves.ite (fun _ => ?_) fun _ => Moves.ite (fun _ => ?_) fun _ => Moves.ite_same ?_ ?_
  · exact (reg_moves _).bind_zero fun _ => operand_moves bd _ fun _ _ => setR0Skip_moves bd _ (within_land_word _)
  · exact (reg_moves _).bind_zero fun _ => operand_moves bd _ fun _ _ => setR0Skip_moves bd _ (within_land_word _)
  · exact fetch_bind bd fun _ _ => (gr_moves _).bind_zero fun _ => swSkip_moves bd _ _ _
  · exact fetch_bind bd fun _ _ => (gr_moves _).bind_zero fun _ => swSkip_moves bd _ _ _
  · exact (gr_moves _).bind_zero fun _ => (gr_moves _).bind_zero fun _ => swSkip_moves bd _ _ _
  · exact (gr_moves _).bind_zero fun _ => (gr_moves _).bind_zero fun _ => swSkip_moves bd _ _ _

theorem exec0d_moves :
    Moves (effect W) (if rrr = 7 then 0 else immediateWords lo) (exec0d bd rrr lo) := by
  refine Moves.ite (fun _ => Moves.ite_same (execFloat_moves bd _ _ _) (Moves.ite_same
    (execFloat_moves bd _ _ _) (Moves.ite_same ?_ ?_))) fun _ =>
    Moves.ite (fun _ => ?_) fun _ => Moves.ite (fun _ => ?_) fun _ => Moves.ite_same ?_ ?_
  · exact (reg_moves _).bind_zero fun _ => operand_moves bd _ fun _ _ => setR0Skip_moves bd _ (within_land_word _)
  · exact (reg_moves _).bind_zero fun _ => operand_moves bd _ fun _ _ => setR0Skip_moves bd _ (within_land_word _)
  · exact fetch_bind bd fun _ _ => (gr_moves _).bind_zero fun _ => swSkip_moves bd _ _ _
  · exact fetch_bind bd fun _ _ => (gr_moves _).bind_zero fun _ => swSkip_moves bd _ _ _
  · exact (gr_moves _).bind_zero fun _ => (gr_moves _).bind_zero fun _ => swSkip_moves bd _ _ _
  · exact (gr_moves _).bind_zero fun _ => (gr_moves _).bind_zero fun _ => swSkip_moves bd _ _ _

theorem exec0e_moves : Moves (effect W) 0 (exec0e bd rrr lo) := by
  refine Moves.ite_same (Moves.ite_same ?_ (Moves.ite_same ?_ ?_)) (Moves.ite_same ?_ ?_)
  · refine operand_moves bd _ fun _ _ => (setE_moves _).bind_zero fun _ => ?_
    refine Moves.ite_same (setOVF_moves _) ((reg_moves _).bind_zero fun _ => ?_)
    refine Moves.ite_same (setOVF_moves _) ((setOVF_moves _).bind_zero fun _ => ?_)
    exact (setR_moves (within_land_word _)).bind_zero fun _ =>
      (setR_moves (within_land_word _)).bind_zero fun _ => (reg_moves _).bind_zero fun _ => skipIf_moves bd _ _
  · exact operand_moves bd _ fun _ _ => (setR_moves (within_land_word _)).bind_zero fun _ =>
      skipIf_moves bd _ _
  · exact operand_moves bd _ fun v _ => (setR_moves (within_dswp v)).bind_zero fun _ =>
      skipIf_moves bd _ _
  · exact (gr_moves _).bind_zero fun _ => swSkip_moves bd _ _ _
  · exact (gr_moves _).bind_zero fun _ => swSkip_moves bd _ _ _

theorem exec0f_moves : Moves (effect W) (operandWords0f rrr lo) (exec0f bd rrr lo) := by
  refine Moves.ite (fun _ => Moves.ite (fun _ => ?_) fun _ => Moves.ite (fun _ => ?_) fun _ =>
    Moves.ite (fun _ => ?_) fun _ => ?_) fun _ => Moves.ite (fun _ => ?_) fun _ =>
    Moves.ite_same ?_ ?_
  · refine (reg_moves _).bind_zero fun _ => operand_moves bd _ fun _ _ => ?_
    exact (setOVF_moves _).bind_zero fun _ => (setE_moves _).bind_zero fun _ =>
      (setDR0_moves bd _).bind_zero fun _ => dr0_skip_moves bd _
  · exact operand_moves bd _ fun _ hv => setR0Skip_moves bd _ hv
  · exact fetch_bind bd fun _ hw => setIC_moves fun _ => hw
  · exact (reg_moves _).bind_zero fun _ => operand_moves bd _ fun v _ =>
      setR0Skip_moves bd _ (within_lor (within_land_any _ ⟨by decide, by decide⟩)
        ((within_land_byte v).mono (by decide)))
  · exact fetch_bind bd fun _ _ => swSkip_moves bd _ _ _
  · exact (gr_moves _).bind_zero fun _ => swSkip_moves bd _ _ _
  · exact (gr_moves _).bind_zero fun _ => (gr_moves _).bind_zero fun _ => swSkip_moves bd _ _ _

/-- What the execution of an instruction word does to requests and fetch count. -/
theorem execute_moves (ir : Int) (hL : W.L 0 → ¬ isUndefined ir) :
    Moves (effect W) (operandWords ir) (execute bd ir) := by
  have hnum (n : Nat) (hn : (land (ushr ir 11) 0x1f).toNat = n) (hpos : 0 < n) :
      land (ushr ir 11) 0x1f = n := by omega
  refine Moves.ite (fun _ => execMemory_moves bd _ _ _) fun hlo => ?_
  have hop : (land (ushr ir 11) 0x1f).toNat < 16 := by omega
  have hnonneg : 0 ≤ land (ushr ir 11) 0x1f := by
    have h := land_mask (ushr ir 11) (k := 5) (by decide)
    have h' : land (ushr ir 11) 0x1f = ushr ir 11 % 32 := h
    rw [h']
    exact Int.emod_nonneg _ (by decide)
  have h0 (hn : (land (ushr ir 11) 0x1f).toNat = 0) : ¬ W.L 0 := by
    intro h
    exact hL h (.inl (by omega))
  have h4 (hn : (land (ushr ir 11) 0x1f).toNat = 4) (h : W.L 0) :
      ¬ isUndefined04 (land (ushr ir 8) 0x7) (land ir 0xff) := by
    intro hu
    exact hL h (.inr ⟨hnum 4 hn (by decide), hu⟩)
  generalize (land (ushr ir 11) 0x1f).toNat = n at hop h0 h4
  rcases n with _ | _ | _ | _ | _ | _ | _ | _ | _ | _ | _ | _ | _ | _ | _ | _ | n
  · exact trapUndefinedInsn_moves bd (h0 rfl)
  · exact exec01_moves bd _ _
  · exact exec02_moves bd _ _
  · exact exec03_moves bd _ _
  · exact exec04_moves bd _ _ (h4 rfl)
  · exact exec05_moves bd _ _
  · exact exec06_moves bd _ _
  · exact exec07_moves bd _ _
  · exact exec08_moves bd _ _
  · exact exec09_moves bd _ _
  · exact exec0a_moves bd _ _
  · exact exec0b_moves bd _ _
  · exact exec0c_moves bd _ _
  · exact exec0d_moves bd _ _
  · exact exec0e_moves bd _ _
  · exact exec0f_moves bd _ _
  · omega

end Decoder

end Mn1613
end EmuTs
end RetroCpu
