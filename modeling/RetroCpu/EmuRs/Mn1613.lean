import RetroCpu.Lib.StateProg
import RetroCpu.Mn1613.Memory

/-!
# The Rust MN1613 core: state, bus and register primitives

This module follows `retrocpu_emu_rs/src/cpuboard/mn1613/cpu_core/{bus,core}.rs`.
Registers have the machine types of the source (`u16`, `u8`), and arithmetic wraps
where the source says `wrapping_`.  The I/O callbacks are a parameter `Io σ`; the
memory hook, the trace callbacks and the clock count are not modelled.
-/

namespace RetroCpu
namespace EmuRs
namespace Mn1613

open Prog RetroCpu.Mn1613

abbrev U8 := BitVec 8
abbrev U16 := BitVec 16
abbrev U32 := BitVec 32

/-- `CpuRegister` -/
structure CpuRegister where
  r : Fin 5 → U16
  sp : U16
  str : U16
  ic : U16
  csbr : U8
  ssbr : U8
  tsr0 : U8
  tsr1 : U8
  osr : Fin 4 → U8
  npp : U8
  iisr : U16
  sbrb : U16
  icb : U16

/-- `CpuRegister::default` -/
def CpuRegister.default : CpuRegister where
  r := fun _ => 0
  sp := 0
  str := 0
  ic := 0
  csbr := 0
  ssbr := 0
  tsr0 := 0
  tsr1 := 0
  osr := fun _ => 0
  npp := 1
  iisr := 0
  sbrb := 0
  icb := 0

/-- `ExecStatus` -/
inductive ExecStatus where
  | idle
  | running
  | step
  | brk
  | halted
deriving DecidableEq, Repr

/-- `IoCallbacks` of a device with state `σ`. -/
structure Io (σ : Type) where
  ioRead : σ → U16 → U16 × σ
  ioWrite : σ → U16 → U16 → σ

/-- `Mn1613Core` with its memory.  `fetches` counts the calls of `fetch`; the code
does not read it. -/
structure Core (σ : Type) where
  regs : CpuRegister
  ram : Mem
  execStatus : ExecStatus
  stepMode : Bool
  pendingIrq : U8
  io : σ
  fetches : Nat

variable {σ : Type}

abbrev M (σ : Type) := StateM (Core σ)

def STR_E : U16 := 0x8000
def STR_OVF : U16 := 0x2000
def STR_M0 : U16 := 0x0400
def STR_M1 : U16 := 0x0200
def STR_M2 : U16 := 0x0100
def IISR_UNDEF : U16 := 0x0001

/-- Read a part of the register file. -/
def reg {α : Type} (f : CpuRegister → α) : M σ α := do
  return f (← get).regs

/-- Replace the register file. -/
def setReg (f : CpuRegister → CpuRegister) : M σ Unit :=
  modify fun s => { s with regs := f s.regs }

section Bus

def PHYS_MASK : U32 := 0x3ffff

/-- `bus::phys` -/
def phys (log : U16) (seg : U8) : U32 :=
  (((seg.setWidth 32 &&& 0xf) <<< 14) + log.setWidth 32) &&& PHYS_MASK

/-- `Mn1613Ram::read_phys` on the full memory. -/
def readPhys (ram : Mem) (physAddr : U32) : U16 :=
  let p := physAddr &&& PHYS_MASK
  ram (p.setWidth 18)

/-- `Mn1613Ram::write_phys` on the full memory. -/
def writePhys (ram : Mem) (physAddr : U32) (val : U16) : Mem :=
  let p := physAddr &&& PHYS_MASK
  Function.update ram (p.setWidth 18) val

/-- `rd_phys` -/
def rdPhys (physAddr : U32) : M σ U16 := do
  let p := physAddr &&& PHYS_MASK
  return readPhys (← get).ram p

/-- `wr_phys` -/
def wrPhys (physAddr : U32) (val : U16) : M σ Unit :=
  let p := physAddr &&& PHYS_MASK
  modify fun s => { s with ram := writePhys s.ram p val }

/-- `rd_c` -/
def rdC (la : U16) : M σ U16 := do
  rdPhys (phys la (← reg CpuRegister.csbr))

/-- `wr_c` -/
def wrC (la v : U16) : M σ Unit := do
  wrPhys (phys la (← reg CpuRegister.csbr)) v

/-- `rd_s` -/
def rdS (la : U16) : M σ U16 := do
  rdPhys (phys la (← reg CpuRegister.ssbr))

/-- `wr_s` -/
def wrS (la v : U16) : M σ Unit := do
  wrPhys (phys la (← reg CpuRegister.ssbr)) v

/-- `rd_b` -/
def rdB (la : U16) (seg : U8) : M σ U16 := rdPhys (phys la seg)

/-- `wr_b` -/
def wrB (la v : U16) (seg : U8) : M σ Unit := wrPhys (phys la seg) v

/-- `fetch` -/
def fetch : M σ U16 := do
  let w ← rdC (← reg CpuRegister.ic)
  modify fun s => { s with regs := { s.regs with ic := s.regs.ic + 1 }, fetches := s.fetches + 1 }
  return w

variable (io : Io σ)

/-- `do_io_read` -/
def doIoRead (port : U16) : M σ U16 := do
  let s ← get
  let r := io.ioRead s.io port
  modify fun s => { s with io := r.2 }
  return r.1

/-- `do_io_write` -/
def doIoWrite (port val : U16) : M σ Unit :=
  modify fun s => { s with io := io.ioWrite s.io (port &&& 0xffff) (val &&& 0xffff) }

end Bus

section Registers

/-- `gr` -/
def gr (rrr : U16) : M σ U16 :=
  reg fun r =>
    match (rrr &&& 7).toNat with
    | 0 => r.r 0
    | 1 => r.r 1
    | 2 => r.r 2
    | 3 => r.r 3
    | 4 => r.r 4
    | 5 => r.sp
    | 6 => r.str
    | _ => r.ic

/-- Assign an element of the array `r`. -/
def setR (i : Fin 5) (v : U16) : M σ Unit :=
  setReg fun r => { r with r := Function.update r.r i v }

/-- Assign an element of the array `osr`. -/
def setOsr (i : Fin 4) (v : U8) : M σ Unit :=
  setReg fun r => { r with osr := Function.update r.osr i v }

/-- `sw` -/
def sw (rrr v : U16) : M σ Unit :=
  let v := v &&& 0xffff
  match (rrr &&& 7).toNat with
  | 0 => setR 0 v
  | 1 => setR 1 v
  | 2 => setR 2 v
  | 3 => setR 3 v
  | 4 => setR 4 v
  | 5 => setReg fun r => { r with sp := v }
  | 6 => setReg fun r => { r with str := v }
  | _ => setReg fun r => { r with ic := v }

/-- Index of `R1`..`R4` from an ii field. -/
def riIndex (ii : U16) : Fin 5 := Fin.ofNat 5 ((ii &&& 3).toNat + 1)

/-- `ri` -/
def ri (ii : U16) : M σ U16 := reg fun r => r.r (riIndex ii)

/-- `ri_set` -/
def riSet (ii v : U16) : M σ Unit := setR (riIndex ii) (v &&& 0xffff)

/-- `seg` -/
def seg (bb : U16) : M σ U8 :=
  reg fun r =>
    match (bb &&& 3).toNat with
    | 0 => r.csbr
    | 1 => r.ssbr
    | 2 => r.tsr0
    | _ => r.tsr1

/-- `get_seg_reg` -/
def getSegReg (bbb : U16) : M σ U16 :=
  reg fun r =>
    match (bbb &&& 7).toNat with
    | 0 => r.csbr.setWidth 16
    | 1 => r.ssbr.setWidth 16
    | 2 => r.tsr0.setWidth 16
    | 3 => r.tsr1.setWidth 16
    | 4 => (r.osr 0).setWidth 16
    | 5 => (r.osr 1).setWidth 16
    | 6 => (r.osr 2).setWidth 16
    | _ => (r.osr 3).setWidth 16

/-- `set_seg_reg` -/
def setSegReg (bbb v : U16) : M σ Unit :=
  let v : U8 := (v &&& 0xf).setWidth 8
  match (bbb &&& 7).toNat with
  | 1 => setReg fun r => { r with ssbr := v }
  | 2 => setReg fun r => { r with tsr0 := v }
  | 3 => setReg fun r => { r with tsr1 := v }
  | 4 => setOsr 0 v
  | 5 => setOsr 1 v
  | 6 => setOsr 2 v
  | 7 => setOsr 3 v
  | _ => pure ()

/-- `get_spec_reg` -/
def getSpecReg (ppp : U16) : M σ U16 :=
  reg fun r =>
    match (ppp &&& 7).toNat with
    | 0 => r.sbrb
    | 1 => r.icb
    | 2 => r.npp.setWidth 16
    | _ => 0

/-- `set_spec_reg` -/
def setSpecReg (ppp v : U16) : M σ Unit :=
  match (ppp &&& 7).toNat with
  | 0 => setReg fun r => { r with sbrb := v &&& 0xff }
  | 1 => setReg fun r => { r with icb := v &&& 0xffff }
  | 2 => setReg fun r => { r with npp := (v &&& 0xff).setWidth 8 }
  | _ => pure ()

/-- `get_hw_reg` -/
def getHwReg (hhh : U16) : M σ U16 :=
  reg fun r => if hhh = 6 then r.iisr else 0

/-- `set_hw_reg` -/
def setHwReg (hhh v : U16) : M σ Unit :=
  if hhh = 6 then setReg fun r => { r with iisr := v &&& 0xffff } else pure ()

end Registers

section Flags

/-- `set_e` -/
def setE (v : Bool) : M σ Unit :=
  setReg fun r => { r with str := if v then r.str ||| STR_E else r.str &&& ~~~STR_E }

/-- `set_ovf` -/
def setOvf (v : Bool) : M σ Unit :=
  setReg fun r => { r with str := if v then r.str ||| STR_OVF else r.str &&& ~~~STR_OVF }

/-- `add16` -/
def add16 (a b : U16) : M σ U16 := do
  let res : U32 := a.setWidth 32 + b.setWidth 32
  setE (res > 0xffff)
  setOvf ((~~~(a ^^^ b) &&& (a ^^^ res.setWidth 16) &&& 0x8000) ≠ 0)
  return (res &&& 0xffff).setWidth 16

/-- `sub16` -/
def sub16 (a b : U16) : M σ U16 := do
  let res : U32 := a.setWidth 32 - b.setWidth 32
  setE (res.slt 0)
  setOvf (((a ^^^ b) &&& (a ^^^ res.setWidth 16) &&& 0x8000) ≠ 0)
  return res.setWidth 16 &&& 0xffff

/-- `(str & STR_E) != 0` -/
def flagE : M σ Bool := reg fun r => r.str &&& STR_E ≠ 0

/-- Is the carry added, as the C field of an instruction says? -/
def carryIn (c : U16) : M σ Bool := if c = 0 then flagE else pure false

/-- `apply_ee` -/
def applyEE (ee : U16) : M σ Unit :=
  match (ee &&& 3).toNat with
  | 1 => setE false
  | 2 => setE true
  | 3 => do setE (!(← flagE))
  | _ => pure ()

/-- `skip_cond` -/
def skipCond (kkkk result : U16) : M σ Bool :=
  reg fun r =>
    let n : Bool := result &&& 0x8000 ≠ 0
    let z : Bool := result &&& 0xffff = 0
    let e : Bool := r.str &&& STR_E ≠ 0
    let v : Bool := r.str &&& STR_OVF ≠ 0
    match (kkkk &&& 0xf).toNat with
    | 0x0 => false
    | 0x1 => true
    | 0x2 => n
    | 0x3 => !n
    | 0x4 => z
    | 0x5 => !z
    | 0x6 => n || z
    | 0x7 => !n && !z
    | 0x8 => !e
    | 0x9 => e
    | 0xa => !v
    | 0xb => v
    | 0xc => e || z
    | 0xd => !e && !z
    | 0xe => !e
    | _ => e && !z

/-- `is_2word` -/
def is2word (ir : U16) : Bool :=
  let op := (ir >>> 11) &&& 0x1f
  let rrr := (ir >>> 8) &&& 0x7
  let lo := ir &&& 0xff
  let b10 := lo &&& 0xf
  match op.toNat with
  | 0x01 => rrr = 7 && lo &&& 7 = 7
  | 0x02 => rrr = 7 && lo ≠ 0x0f && lo ≠ 0x07
  | 0x04 =>
      if rrr = 7 ∧ lo &&& 0x08 ≠ 0 then true
      else rrr = 6 && (lo = 0x07 || lo = 0x17)
  | 0x08 | 0x09 => rrr = 7 && lo &&& 0x04 ≠ 0
  | 0x0a | 0x0b | 0x0c | 0x0d => rrr ≠ 7 && (b10 = 0xf || b10 = 0x7)
  | 0x0f => b10 = 0x7
  | _ => false

/-- `skip_next` -/
def skipNext : M σ Unit := do
  let ir ← rdC (← reg CpuRegister.ic)
  setReg fun r => { r with ic := r.ic + 1 }
  if is2word ir then setReg fun r => { r with ic := r.ic + 1 } else pure ()

/-- `if self.skip_cond(kkkk, result) { self.skip_next(ram); }` -/
def skipIf (kkkk result : U16) : M σ Unit := do
  if ← skipCond kkkk result then skipNext else pure ()

end Flags

section StackAndInterrupt

/-- `push` -/
def push (v : U16) : M σ Unit := do
  wrS (← reg CpuRegister.sp) v
  setReg fun r => { r with sp := r.sp - 1 }

/-- `pop` -/
def pop : M σ U16 := do
  setReg fun r => { r with sp := r.sp + 1 }
  rdS (← reg CpuRegister.sp)

/-- An interrupt level `0..=2`. -/
abbrev Level := Fin 3

/-- The array `masks`. -/
def levelMask (lv : Level) : U16 :=
  match lv with
  | 0 => STR_M0
  | 1 => STR_M1
  | 2 => STR_M2

/-- `accept_irq` -/
def acceptIrq (lv : Level) : M σ Unit := do
  modify fun s => { s with pendingIrq := s.pendingIrq &&& ~~~((1 : U8) <<< lv.val) }
  setOsr lv.castSucc ((← reg CpuRegister.csbr) &&& 0xf)
  setReg fun r => { r with csbr := 0 }
  wrPhys (phys (BitVec.ofNat 16 (lv.val * 2)) 0) (← reg CpuRegister.str)
  wrPhys (phys (BitVec.ofNat 16 (lv.val * 2 + 1)) 0) (← reg CpuRegister.ic)
  let npsw : U16 := (← reg CpuRegister.npp).setWidth 16 <<< 8
  let str ← rdPhys (phys (npsw + BitVec.ofNat 16 (lv.val * 2)) 0)
  setReg fun r => { r with str := str }
  let ic ← rdPhys (phys (npsw + BitVec.ofNat 16 (lv.val * 2 + 1)) 0)
  setReg fun r => { r with ic := ic }

/-- The condition of `handle_irq` and `has_acceptable_irq` on level `lv`. -/
def acceptable (s : Core σ) (lv : Level) : Bool :=
  s.pendingIrq &&& ((1 : U8) <<< lv.val) ≠ 0 && s.regs.str &&& levelMask lv ≠ 0

/-- The level that `handle_irq` accepts. -/
def irqLevel (s : Core σ) : Option Level := [0, 1, 2].find? (acceptable s)

/-- `handle_irq` -/
def handleIrq : M σ Unit := do
  match irqLevel (← get) with
  | some lv => acceptIrq lv
  | none => pure ()

theorem handleIrq_some {s : Core σ} {lv : Level} (h : irqLevel s = some lv) :
    handleIrq.run s = (acceptIrq lv).run s := by
  simp only [handleIrq, run_bind, run_get, h]

theorem handleIrq_none {s : Core σ} (h : irqLevel s = none) : handleIrq.run s = ((), s) := by
  simp only [handleIrq, run_bind, run_get, h, run_pure]

/-- `trap_undefined` -/
def trapUndefined : M σ Unit := do
  setReg fun r => { r with iisr := r.iisr ||| IISR_UNDEF }
  acceptIrq 0

end StackAndInterrupt

end Mn1613
end EmuRs
end RetroCpu
