import RetroCpu.Lib.StateProg

/-!
# The TypeScript TMS9995 core: state, memory, operands and flags

This module follows `cpuboard/tms9995/{types,status,addressing}.ts` and the first half of
`tms9995.ts`.  The numbers of the core are masked to 8 or 16 bits wherever they are stored or
used as an address, so they are bit vectors.  The memory map of the I/O window, the address
comparators and the CRU are a parameter; every access to them may raise requests.
-/

namespace RetroCpu
namespace EmuTs
namespace Tms9995

open Prog

abbrev U8 := BitVec 8
abbrev U16 := BitVec 16

def ST_LGT : U16 := 0x8000
def ST_AGT : U16 := 0x4000
def ST_EQ : U16 := 0x2000
def ST_C : U16 := 0x1000
def ST_OV : U16 := 0x0800
def ST_OP : U16 := 0x0400
def ST_X : U16 := 0x0200
def ST_IMASK : U16 := 0x000f

/-- `AddrBusAccess` -/
structure AddrBusAccess where
  addr : U16
  io : Bool
  write : Bool
  data : Option U8 := none
  prev : Option U8 := none

/-- The calls of `triggerInterrupt` in an access to a device. -/
structure Requests where
  irq1 : Bool := false
  irq2 : Bool := false

/-- An access to the devices with state `σ`. -/
abbrev Access (σ α : Type) := σ → α × σ × Requests

/-- `tms9995IoMmap`, and the CRU of `io_ports.ts`. -/
structure Tms9995Io (σ : Type) where
  /-- `_cpuPortMode === CPU_PORT_MODE.TMS9995` -/
  attached : σ → Bool
  readByte : U16 → Access σ U8
  writeByte : U16 → U8 → Access σ Unit
  probe : AddrBusAccess → Access σ Unit
  onInstructionFetch : U16 → Access σ Unit
  cpuReadCruBit : U16 → Access σ Bool
  cpuWriteCruBit : U16 → Bool → Access σ Unit
  cpuReadCruDataByte : Access σ U8
  cpuWriteCruDataByte : U8 → Access σ Unit
  getDecrementerEnabled : σ → Bool
  resetCruTimerFlags : σ → σ

/-- `TmsExecStatus` -/
inductive TmsExecStatus where
  | idle
  | running
  | step
  | break
  | halted
deriving DecidableEq

/-- `InputPin` -/
@[ext] structure InputPin where
  current : Bool := false
  previous : Bool := false
  deferred : Bool := false
deriving DecidableEq

/-- The input pins of the core. -/
@[ext] structure Pins where
  RST : InputPin := {}
  HLT : InputPin := {}
  IRQ1 : InputPin := {}
  IRQ2 : InputPin := {}
  NMI : InputPin := {}
deriving DecidableEq

/-- The registers of `TmsExecuteCtx`.  `endless` says that the calls of `executeInstruction`
in one another have used up the stack. -/
structure TmsExecuteCtx where
  PC : U16 := 0
  WP : U16 := 0
  ST : U16 := 0
  idle : Bool := false
  endless : Bool := false

/-- The variables of `tms9995.ts`, and the context of the instruction in execution. -/
structure Core (σ : Type) where
  PC : U16
  WP : U16
  ST : U16
  idle : Bool
  execStatus : TmsExecStatus
  pendingIrq1 : Bool
  pendingIrq2 : Bool
  pendingIrq3 : Bool
  decClockAccum : Nat
  pins : Pins
  memory : U16 → U8
  io : σ
  ctx : TmsExecuteCtx

/-- `TmsEa` -/
inductive TmsEa where
  | reg (n : U16)
  | addr (a : U16)
deriving DecidableEq

variable {σ α : Type}

abbrev M (σ : Type) := StateM (Core σ)

/-- The core with further requests (`triggerInterrupt`). -/
def Core.raise (s : Core σ) (r : Requests) : Core σ :=
  { s with
    pendingIrq1 := s.pendingIrq1 || r.irq1
    pendingIrq2 := s.pendingIrq2 || r.irq2 }

/-- The result of an access to the devices. -/
def device (f : Access σ α) : M σ α := fun s =>
  let r := f s.io
  (r.1, { s with io := r.2.1 }.raise r.2.2)

section Memory

/-- `isIoAddr` -/
def isIoAddr (a : U16) : Bool := 0xfe80 ≤ a ∧ a ≤ 0xfeff

variable (io : Tms9995Io σ)

/-- An address behind which the devices stand. -/
def inWindow (s : Core σ) (a : U16) : Bool := io.attached s.io && isIoAddr a

/-- `readByte` -/
def readByte (a : U16) : M σ U8 := do
  if inWindow io (← get) a then device (io.readByte a)
  else do
    device (io.probe { addr := a, io := false, write := false })
    return (← get).memory a

/-- `writeByte` -/
def writeByte (a : U16) (value : U8) : M σ Unit := do
  let prev ← readByte io a
  if inWindow io (← get) a then do
    device (io.writeByte a value)
    device (io.probe { addr := a, io := true, write := true, data := value, prev := prev })
  else do
    device (io.probe { addr := a, io := false, write := true, data := value, prev := prev })
    modify fun s => { s with memory := Function.update s.memory a value }

/-- `readWord` -/
def readWord (addr : U16) : M σ U16 := do
  let a := addr &&& 0xfffe
  let hi ← readByte io a
  let lo ← readByte io (a + 1)
  return (hi.setWidth 16 <<< 8) ||| lo.setWidth 16

/-- `writeWord` -/
def writeWord (addr value : U16) : M σ Unit := do
  let a := addr &&& 0xfffe
  writeByte io a ((value >>> 8).setWidth 8)
  writeByte io (a + 1) ((value &&& 0x00ff).setWidth 8)

/-- `readReg` -/
def readReg (n : U16) : M σ U16 := do readWord io ((← get).WP + (n &&& 0x0f) * 2)

/-- `writeReg` -/
def writeReg (n value : U16) : M σ Unit := do writeWord io ((← get).WP + (n &&& 0x0f) * 2) value

/-- `fetchWord` -/
def fetchWord : M σ U16 := do
  let w ← readWord io (← get).PC
  device (io.onInstructionFetch w)
  device (io.probe { addr := (← get).PC, io := false, write := false })
  modify fun s => { s with PC := s.PC + 2 }
  return w

end Memory

section Operands

variable (io : Tms9995Io σ)

/-- `resolveEa` -/
def resolveEa (mode reg : U16) (isByte : Bool) : M σ TmsEa := do
  let m := mode &&& 3
  let r := reg &&& 0xf
  if m = 0 then return .reg r
  else if m = 1 then do
    let a ← readReg io r
    return .addr a
  else if m = 3 then do
    let a ← readReg io r
    writeReg io r (a + (if isByte then 1 else 2))
    return .addr a
  else do
    let imm ← fetchWord io
    if r = 0 then return .addr imm
    else do
      let base ← readReg io r
      return .addr (imm + base)

/-- `readWordEa` -/
def readWordEa : TmsEa → M σ U16
  | .reg n => readReg io n
  | .addr a => readWord io a

/-- `writeWordEa` -/
def writeWordEa : TmsEa → U16 → M σ Unit
  | .reg n, value => writeReg io n value
  | .addr a, value => writeWord io a value

/-- `readByteEa`; a register operand is its left byte. -/
def readByteEa : TmsEa → M σ U8
  | .reg n => do
      let w ← readReg io n
      return (w >>> 8).setWidth 8
  | .addr a => readByte io a

/-- `writeByteEa`; a register operand is its left byte. -/
def writeByteEa : TmsEa → U8 → M σ Unit
  | .reg n, value => do
      let w ← readReg io n
      writeReg io n ((value.setWidth 16 <<< 8) ||| (w &&& 0x00ff))
  | .addr a, value => writeByte io a value

end Operands

section Status

/-- `cond ? st | mask : st & ~mask` -/
def setFlag (st mask : U16) (cond : Bool) : U16 := if cond then st ||| mask else st &&& ~~~mask

/-- `setLaeWord` -/
def setLaeWord (st result : U16) : U16 :=
  let out := st &&& ~~~(ST_LGT ||| ST_AGT ||| ST_EQ)
  if result = 0 then out ||| ST_EQ
  else
    let out := out ||| ST_LGT
    if result &&& 0x8000 = 0 then out ||| ST_AGT else out

/-- `ones & 1` behind the loop that counts the bits of a byte. -/
def oddOnes (b : U8) : Bool :=
  (List.range 8).foldl (fun ones i => if b.getLsbD i then ones + 1 else ones) 0 % 2 = 1

/-- `setLaeByte` -/
def setLaeByte (st : U16) (b : U8) : U16 :=
  let out := st &&& ~~~(ST_LGT ||| ST_AGT ||| ST_EQ ||| ST_OP)
  let out :=
    if b = 0 then out ||| ST_EQ
    else
      let out := out ||| ST_LGT
      if b &&& 0x80 = 0 then out ||| ST_AGT else out
  if oddOnes b then out ||| ST_OP else out

/-- `setCompareWord` -/
def setCompareWord (st d s : U16) : U16 :=
  let out := st &&& ~~~(ST_LGT ||| ST_AGT ||| ST_EQ)
  let out := if d = s then out ||| ST_EQ else out
  let out := if d > s then out ||| ST_LGT else out
  if s.toInt < d.toInt then out ||| ST_AGT else out

/-- `setCompareByte` -/
def setCompareByte (st : U16) (d s : U8) : U16 :=
  let out := st &&& ~~~(ST_LGT ||| ST_AGT ||| ST_EQ ||| ST_OP)
  let out := if d = s then out ||| ST_EQ else out
  let out := if d > s then out ||| ST_LGT else out
  let out := if s.toInt < d.toInt then out ||| ST_AGT else out
  if oddOnes d then out ||| ST_OP else out

/-- `setAddFlags` -/
def setAddFlags (st a b result : U16) : U16 :=
  let out := setLaeWord st result
  let out := setFlag out ST_C (0xffff < a.toNat + b.toNat)
  let ov : Bool := (0 < a.toInt ∧ 0 < b.toInt ∧ result.toInt < 0) ∨
    (a.toInt < 0 ∧ b.toInt < 0 ∧ 0 ≤ result.toInt)
  setFlag out ST_OV ov

/-- `setSubFlags` -/
def setSubFlags (st a b result : U16) : U16 :=
  let out := setLaeWord st result
  let out := setFlag out ST_C (b ≤ a)
  let ov : Bool := (0 ≤ a.toInt ∧ b.toInt < 0 ∧ result.toInt < 0) ∨
    (a.toInt < 0 ∧ 0 ≤ b.toInt ∧ 0 ≤ result.toInt)
  setFlag out ST_OV ov

end Status

end Tms9995
end EmuTs
end RetroCpu
