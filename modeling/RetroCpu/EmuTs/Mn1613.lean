import RetroCpu.Lib.JsNumber
import RetroCpu.Lib.StateProg
import RetroCpu.Mn1613.Memory

/-!
# The TypeScript MN1613 core: state, bus and register primitives

This module follows `retrocpu_emu_ts/src/cpuboard/mn1613/mn1613.ts` up to the
instruction decoder.  Registers are JavaScript numbers, hence unbounded `Int`s
here; nothing but the code itself keeps them inside their widths.

The parts of the board that the core only calls back (the I/O callbacks, the
address comparators and the step unit) are a parameter `Board σ`: a machine with
an arbitrary state `σ` that sees every access and may request interrupts while
it handles one.  A clock count and the level of the output pins are not
modelled: no instruction reads them.
-/

namespace RetroCpu
namespace EmuTs
namespace Mn1613

open Js Prog RetroCpu.Mn1613

/-- `CPURegister` -/
structure CPURegister where
  R : Fin 5 → Int
  SP : Int
  STR : Int
  IC : Int
  CSBR : Int
  SSBR : Int
  TSR0 : Int
  TSR1 : Int
  OSR : Fin 4 → Int
  NPP : Int
  IISR : Int
  SBRB : Int
  ICB : Int

/-- Register values after power-on and after a reset. -/
def CPURegister.initial : CPURegister where
  R := fun _ => 0
  SP := 0
  STR := 0
  IC := 0
  CSBR := 0
  SSBR := 0
  TSR0 := 0
  TSR1 := 0
  OSR := fun _ => 0
  NPP := 1
  IISR := 0
  SBRB := 0
  ICB := 0

/-- `ExecStatus` -/
inductive ExecStatus where
  | idle
  | running
  | step
  | brk
  | halted
deriving DecidableEq, Repr

/-- One access shown to the address comparators (`AddrBusAccess`). -/
structure AddrBusAccess where
  addr : Int
  io : Bool
  write : Bool
  data : Int := 0
  prev : Int := 0
deriving DecidableEq, Repr

/-- An interrupt level that `triggerInterrupt` accepts. -/
abbrev Level := Fin 3

/-- The answer of the board to an access: the interrupts it requests meanwhile,
and its next state. -/
structure Reply (σ : Type) where
  irq : List Level
  state : σ

/-- What the core calls back while it executes. -/
structure Board (σ : Type) where
  ioRead : σ → Int → Int × Reply σ
  ioWrite : σ → Int → Int → Reply σ
  probe : σ → AddrBusAccess → Reply σ
  onInstructionFetch : σ → Int → Reply σ

/-- State of the core together with its memory and board.  `fetches` counts the
calls of `fetch`; the code does not read it. -/
structure Cpu (σ : Type) where
  reg : CPURegister
  mem : Mem
  execStatus : ExecStatus
  stepMode : Bool
  pendingIRQ : Int
  ioLastWrite : Int → Option Int
  board : σ
  fetches : Nat

variable {σ : Type}

/-- State of the core when its module is loaded. -/
def Cpu.initial (mem : Mem) (board : σ) : Cpu σ where
  reg := .initial
  mem := mem
  execStatus := .idle
  stepMode := false
  pendingIRQ := 0
  ioLastWrite := fun _ => none
  board := board
  fetches := 0

abbrev M (σ : Type) := StateM (Cpu σ)

def STR_E : Int := 0x8000
def STR_OVF : Int := 0x2000
def STR_M0 : Int := 0x0400
def STR_M1 : Int := 0x0200
def STR_M2 : Int := 0x0100
def IISR_UNDEF : Int := 0x0001

/-- Read a part of the register file. -/
def reg {α : Type} (f : CPURegister → α) : M σ α := do
  return f (← get).reg

/-- Replace the register file. -/
def setReg (f : CPURegister → CPURegister) : M σ Unit :=
  modify fun s => { s with reg := f s.reg }

section Bus

/-- `_pendingIRQ |= 1 << level` -/
def raise (pending : Int) (level : Level) : Int :=
  lor pending (shl 1 (level.val : Int))

/-- Take over the answer of the board. -/
def answer (r : Reply σ) : M σ Unit :=
  modify fun s => { s with board := r.state, pendingIRQ := r.irq.foldl raise s.pendingIRQ }

/-- `DataView.getUint16` with the bound check of `_rdPhys`. -/
def getUint16 (mem : Mem) (p : Int) : Int :=
  if p * 2 + 1 ≥ MEM_WORDS * 2 then 0xffff else num (mem (BitVec.ofInt 18 p))

/-- `DataView.setUint16` with the bound check of `_wrPhys`. -/
def setUint16 (mem : Mem) (p v : Int) : Mem :=
  if p * 2 + 1 < MEM_WORDS * 2 then
    Function.update mem (BitVec.ofInt 18 p) (BitVec.ofInt 16 v)
  else mem

/-- `_phys`: `((seg & 0xF) << 14) + logical`, carry dropped. -/
def phys (logAddr seg : Int) : Int :=
  land (shl (land seg 0xf) 14 + land logAddr 0xffff) 0x3ffff

variable (bd : Board σ)

/-- `_rdPhys` -/
def rdPhys (ph : Int) : M σ Int := do
  let s ← get
  let p := land ph 0x3ffff
  let v := getUint16 s.mem p
  answer (bd.probe s.board { addr := p, io := false, write := false })
  return v

/-- `_wrPhys` -/
def wrPhys (ph val : Int) : M σ Unit := do
  let s ← get
  let p := land ph 0x3ffff
  let after := land val 0xffff
  let prev := getUint16 s.mem p
  modify fun s => { s with mem := setUint16 s.mem p after }
  answer (bd.probe s.board { addr := p, io := false, write := true, data := after, prev := prev })

/-- `_doIoRead` -/
def doIoRead (port : Int) : M σ Int := do
  let s ← get
  let r := bd.ioRead s.board port
  answer r.2
  let s ← get
  answer (bd.probe s.board { addr := land port 0xffff, io := true, write := false })
  return r.1

/-- `_doIoWrite` -/
def doIoWrite (port val : Int) : M σ Unit := do
  let s ← get
  let p := land port 0xffff
  let prev := (s.ioLastWrite p).getD 0
  let after := land val 0xffff
  answer (bd.ioWrite s.board p after)
  modify fun s => { s with ioLastWrite := Function.update s.ioLastWrite p (some after) }
  let s ← get
  answer (bd.probe s.board { addr := p, io := true, write := true, data := after, prev := prev })

/-- `_rdC`: read through the code segment. -/
def rdC (la : Int) : M σ Int := do
  rdPhys bd (phys la (← reg CPURegister.CSBR))

/-- `_wrC`: write through the code segment. -/
def wrC (la v : Int) : M σ Unit := do
  wrPhys bd (phys la (← reg CPURegister.CSBR)) v

/-- `_rdS`: read through the stack segment. -/
def rdS (la : Int) : M σ Int := do
  rdPhys bd (phys la (← reg CPURegister.SSBR))

/-- `_wrS`: write through the stack segment. -/
def wrS (la v : Int) : M σ Unit := do
  wrPhys bd (phys la (← reg CPURegister.SSBR)) v

/-- `_rdB` -/
def rdB (la seg : Int) : M σ Int := rdPhys bd (phys la seg)

/-- `_wrB` -/
def wrB (la v seg : Int) : M σ Unit := wrPhys bd (phys la seg) v

/-- `_fetch`: read the word at `IC` and step over it. -/
def fetch : M σ Int := do
  let w ← rdC bd (← reg CPURegister.IC)
  modify fun s => { s with
    reg := { s.reg with IC := land (s.reg.IC + 1) 0xffff }, fetches := s.fetches + 1 }
  return w

end Bus

section Registers

/-- `_gr`: the register an RRR field names. -/
def gr (rrr : Int) : M σ Int :=
  reg fun r =>
    match (land rrr 7).toNat with
    | 0 => r.R 0
    | 1 => r.R 1
    | 2 => r.R 2
    | 3 => r.R 3
    | 4 => r.R 4
    | 5 => r.SP
    | 6 => r.STR
    | _ => r.IC

/-- Assign an element of the array `R`. -/
def setR (i : Fin 5) (v : Int) : M σ Unit :=
  setReg fun r => { r with R := Function.update r.R i v }

/-- Assign an element of the array `OSR`. -/
def setOSR (i : Fin 4) (v : Int) : M σ Unit :=
  setReg fun r => { r with OSR := Function.update r.OSR i v }

/-- `_sw`: assign the register an RRR field names. -/
def sw (rrr v : Int) : M σ Unit :=
  let v := land v 0xffff
  match (land rrr 7).toNat with
  | 0 => setR 0 v
  | 1 => setR 1 v
  | 2 => setR 2 v
  | 3 => setR 3 v
  | 4 => setR 4 v
  | 5 => setReg fun r => { r with SP := v }
  | 6 => setReg fun r => { r with STR := v }
  | _ => setReg fun r => { r with IC := v }

/-- Index of `R1`..`R4` from an ii field. -/
def riIndex (ii : Int) : Fin 5 := Fin.ofNat 5 ((land ii 3).toNat + 1)

/-- `_ri` -/
def ri (ii : Int) : M σ Int := reg fun r => r.R (riIndex ii)

/-- `_riSet` -/
def riSet (ii v : Int) : M σ Unit := setR (riIndex ii) (land v 0xffff)

/-- `_seg`: the segment register a BB field names. -/
def seg (bb : Int) : M σ Int :=
  reg fun r =>
    match (land bb 3).toNat with
    | 0 => r.CSBR
    | 1 => r.SSBR
    | 2 => r.TSR0
    | _ => r.TSR1

/-- `_getSegReg` -/
def getSegReg (bbb : Int) : M σ Int :=
  reg fun r =>
    match (land bbb 7).toNat with
    | 0 => r.CSBR
    | 1 => r.SSBR
    | 2 => r.TSR0
    | 3 => r.TSR1
    | 4 => r.OSR 0
    | 5 => r.OSR 1
    | 6 => r.OSR 2
    | _ => r.OSR 3

/-- `_setSegReg`: a direct write of `CSBR` is ignored. -/
def setSegReg (bbb v : Int) : M σ Unit :=
  match (land bbb 7).toNat with
  | 1 => setReg fun r => { r with SSBR := land v 0xf }
  | 2 => setReg fun r => { r with TSR0 := land v 0xf }
  | 3 => setReg fun r => { r with TSR1 := land v 0xf }
  | 4 => setOSR 0 (land v 0xf)
  | 5 => setOSR 1 (land v 0xf)
  | 6 => setOSR 2 (land v 0xf)
  | 7 => setOSR 3 (land v 0xf)
  | _ => pure ()

/-- `_getSpecReg` -/
def getSpecReg (ppp : Int) : M σ Int :=
  reg fun r =>
    match (land ppp 7).toNat with
    | 0 => r.SBRB
    | 1 => r.ICB
    | 2 => r.NPP
    | _ => 0

/-- `_setSpecReg` -/
def setSpecReg (ppp v : Int) : M σ Unit :=
  match (land ppp 7).toNat with
  | 0 => setReg fun r => { r with SBRB := land v 0xff }
  | 1 => setReg fun r => { r with ICB := land v 0xffff }
  | 2 => setReg fun r => { r with NPP := land v 0xff }
  | _ => pure ()

/-- `_getHWReg`: only `IISR` is implemented. -/
def getHWReg (hhh : Int) : M σ Int :=
  reg fun r => if hhh = 6 then r.IISR else 0

/-- `_setHWReg` -/
def setHWReg (hhh v : Int) : M σ Unit :=
  if hhh = 6 then setReg fun r => { r with IISR := land v 0xffff } else pure ()

end Registers

section Flags

/-- `_setE` -/
def setE (v : Bool) : M σ Unit :=
  setReg fun r =>
    { r with STR := if v then lor r.STR STR_E else land r.STR (land (lnot STR_E) 0xffff) }

/-- `_setOVF` -/
def setOVF (v : Bool) : M σ Unit :=
  setReg fun r =>
    { r with STR := if v then lor r.STR STR_OVF else land r.STR (land (lnot STR_OVF) 0xffff) }

/-- `_add`: E is the carry, OVF the signed overflow. -/
def add (a b : Int) : M σ Int := do
  let res := a + b
  setE (res > 0xffff)
  setOVF (land (land (lnot (lxor a b)) (lxor a res)) 0x8000 ≠ 0)
  return land res 0xffff

/-- `_sub`: E is the borrow, OVF the signed overflow. -/
def sub (a b : Int) : M σ Int := do
  let res := a - b
  setE (res < 0)
  setOVF (land (land (lxor a b) (lxor a res)) 0x8000 ≠ 0)
  return land res 0xffff

/-- `cpuRegister.STR & STR_E`, as a condition. -/
def flagE : M σ Bool := reg fun r => land r.STR STR_E ≠ 0

/-- Is the carry added, as the C field of an instruction says? -/
def carryIn (c : Int) : M σ Bool := if c = 0 then flagE else pure false

/-- `_applyEE`: the operation on E before a shift. -/
def applyEE (ee : Int) : M σ Unit :=
  match (land ee 3).toNat with
  | 1 => setE false
  | 2 => setE true
  | 3 => do setE (!(← flagE))
  | _ => pure ()

/-- `_skip`: does the skip condition `kkkk` hold for `result`? -/
def skip (kkkk result : Int) : M σ Bool :=
  reg fun r =>
    let n : Bool := land result 0x8000 ≠ 0
    let z : Bool := land result 0xffff = 0
    let e : Bool := land r.STR STR_E ≠ 0
    let v : Bool := land r.STR STR_OVF ≠ 0
    match (land kkkk 0xf).toNat with
    | 0x0 => false
    | 0x1 => true
    | 0x2 => n
    | 0x3 => !n
    | 0x4 => z
    | 0x5 => !z
    | 0x6 => n || z
    | 0x7 => !n && !z
    | 0x8 => !e
    | 0x9 => e
    | 0xa => !v
    | 0xb => v
    | 0xc => e || z
    | 0xd => !e && !z
    | 0xe => !e
    | _ => e && !z

/-- `_is2Word` -/
def is2Word (ir : Int) : Bool :=
  let op := land (ushr ir 11) 0x1f
  let rrr := land (ushr ir 8) 0x7
  let lo := land ir 0xff
  let b10 := land lo 0xf
  match op.toNat with
  | 0x01 => rrr = 7 && land lo 7 = 7
  | 0x02 => rrr = 7 && lo ≠ 0x0f && lo ≠ 0x07
  | 0x04 =>
      if rrr = 7 ∧ land lo 0x08 ≠ 0 ∧ land lo 0x40 = 0 then true
      else if rrr = 7 ∧ land lo 0x08 ≠ 0 ∧ land lo 0x40 ≠ 0 then true
      else if rrr = 6 ∧ (lo = 0x07 ∨ lo = 0x17) then true
      else false
  | 0x08 | 0x09 => rrr = 7 && land lo 0x04 ≠ 0
  | 0x0a | 0x0b | 0x0c | 0x0d => rrr ≠ 7 && (b10 = 0xf || b10 = 0x7)
  | 0x0f => b10 = 0x7
  | _ => false

variable (bd : Board σ)

/-- `_skipNext`: step over the next instruction. -/
def skipNext : M σ Unit := do
  let ir ← rdC bd (← reg CPURegister.IC)
  setReg fun r => { r with IC := land (r.IC + 1) 0xffff }
  if is2Word ir then setReg fun r => { r with IC := land (r.IC + 1) 0xffff } else pure ()

/-- `if (_skip(kkkk, result)) _skipNext();` -/
def skipIf (kkkk result : Int) : M σ Unit := do
  if ← skip kkkk result then skipNext bd else pure ()

end Flags

section StackAndInterrupt

variable (bd : Board σ)

/-- `_push`: `SP` points at the free slot. -/
def push (v : Int) : M σ Unit := do
  wrS bd (← reg CPURegister.SP) v
  setReg fun r => { r with SP := land (r.SP - 1) 0xffff }

/-- `_pop` -/
def pop : M σ Int := do
  setReg fun r => { r with SP := land (r.SP + 1) 0xffff }
  rdS bd (← reg CPURegister.SP)

/-- The STR bit that enables level `lv`. -/
def levelMask (lv : Level) : Int :=
  match lv with
  | 0 => STR_M0
  | 1 => STR_M1
  | 2 => STR_M2

/-- `_acceptIrq`: save the old PSW of level `lv` and load the new one. -/
def acceptIrq (lv : Level) : M σ Unit := do
  let l : Int := (lv.val : Int)
  modify fun s => { s with pendingIRQ := land s.pendingIRQ (lnot (shl 1 l)) }
  setOSR lv.castSucc (land (← reg CPURegister.CSBR) 0xf)
  setReg fun r => { r with CSBR := 0 }
  wrPhys bd (phys (l * 2) 0) (← reg CPURegister.STR)
  wrPhys bd (phys (l * 2 + 1) 0) (← reg CPURegister.IC)
  let npsw := shl (land (← reg CPURegister.NPP) 0xff) 8
  let str ← rdPhys bd (phys (npsw + l * 2) 0)
  setReg fun r => { r with STR := str }
  let ic ← rdPhys bd (phys (npsw + l * 2 + 1) 0)
  setReg fun r => { r with IC := ic }

/-- Is level `lv` requested and enabled? -/
def acceptable (s : Cpu σ) (lv : Level) : Bool :=
  land s.pendingIRQ (shl 1 (lv.val : Int)) ≠ 0 && land s.reg.STR (levelMask lv) ≠ 0

/-- The level `_handleIRQ` accepts: the lowest acceptable one. -/
def irqLevel (s : Cpu σ) : Option Level := [0, 1, 2].find? (acceptable s)

/-- `_handleIRQ` -/
def handleIRQ : M σ Unit := do
  match irqLevel (← get) with
  | some lv => acceptIrq bd lv
  | none => pure ()

theorem handleIRQ_some {s : Cpu σ} {lv : Level} (h : irqLevel s = some lv) :
    (handleIRQ bd).run s = (acceptIrq bd lv).run s := by
  simp only [handleIRQ, run_bind, run_get, h]

theorem handleIRQ_none {s : Cpu σ} (h : irqLevel s = none) :
    (handleIRQ bd).run s = ((), s) := by
  simp only [handleIRQ, run_bind, run_get, h, run_pure]

/-- `_trapUndefinedInsn`: note the undefined instruction and enter level 0,
whatever its mask. -/
def trapUndefinedInsn : M σ Unit := do
  setReg fun r => { r with IISR := lor r.IISR 0x0001 }
  setReg fun r => { r with IISR := lor r.IISR IISR_UNDEF }
  acceptIrq bd 0

end StackAndInterrupt

end Mn1613
end EmuTs
end RetroCpu
