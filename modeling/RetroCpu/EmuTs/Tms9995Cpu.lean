import RetroCpu.EmuTs.Tms9995Exec

/-!
# The TypeScript TMS9995 core: decoder, interrupts and ticks

The second half of `execute.ts` and of `tms9995.ts`.  X calls the decoder again: `decode` has
that call as a parameter, and `executeInstruction` grants it a number of rounds.  When they are
used up, the instruction does not return, and nothing behind it is executed.
-/

namespace RetroCpu
namespace EmuTs
namespace Tms9995

open Prog

variable {σ : Type} (io : Tms9995Io σ)

section Decoder

/-- The words `02xx`: LI / AI / ANDI / ORI / CI / STWP / STST / LWPI. -/
def format8 (ir : U16) : M σ Unit := do
  let r := ir &&& 0x0f
  let imm ← fetchWord io
  let op := ir &&& 0x00f0
  if op = 0x000 then do
    writeReg io r imm
    setST fun st => setLaeWord st imm
  else if op = 0x020 then do
    let old ← readReg io r
    let nv := old + imm
    writeReg io r nv
    setST fun st => setAddFlags st old imm nv
  else if op = 0x040 then do
    let old ← readReg io r
    writeReg io r (old &&& imm)
    let nv ← readReg io r
    setST fun st => setLaeWord st nv
  else if op = 0x060 then do
    let old ← readReg io r
    writeReg io r (old ||| imm)
    let nv ← readReg io r
    setST fun st => setLaeWord st nv
  else if op = 0x080 then do
    let old ← readReg io r
    setST fun st => setCompareWord st old imm
  else if op = 0x0a0 then do writeReg io r (← get).ctx.WP
  else if op = 0x0c0 then do writeReg io r (← get).ctx.ST
  else if op = 0x0e0 then setCtx fun c => { c with WP := imm &&& 0xfffe }
  else illegal

/-- RTWP -/
def execRtwp : M σ Unit := do
  let st ← readReg io 15
  setST fun _ => st
  let pc ← readReg io 14
  setPC (pc &&& 0xfffe)
  let wp ← readReg io 13
  setCtx fun c => { c with WP := wp &&& 0xfffe }

/-- LIMI -/
def execLimi : M σ Unit := do
  let imm ← fetchWord io
  setST fun st => (st &&& 0xfff0) ||| (imm &&& 0x000f)

/-- The jumps. -/
def execJump (ir : U16) : M σ Unit := do
  let c := (← get).ctx
  if testCondition (ir &&& 0x0f00) c.ST then
    setPC (c.PC + ((ir &&& 0xff).setWidth 8 : U8).signExtend 16 * 2)
  else pure ()

/-- Format 3 -/
def format3 (ir : U16) : M σ Unit := do
  let dstReg ← resolveEa io ((ir >>> 6) &&& 3) ((ir >>> 10) &&& 0x0f) false
  let src ← sourceEa io ir false
  let d ← readWordEa io dstReg
  let s ← readWordEa io src
  let op := (ir >>> 11) &&& 1
  if ir &&& 0x0c00 = 0x0800 then do
    let r := d ^^^ s
    writeWordEa io dstReg r
    setST fun st => setLaeWord st r
  else do
    let masked : Bool := if op = 0 then d &&& s = s else d ||| s = d
    setST fun st => setFlag st ST_EQ masked

/-- XOP -/
def execXop (ir : U16) : M σ Unit := do
  let src ← sourceEa io ir false
  let wp := (← get).ctx.WP
  let ea :=
    match src with
    | .reg n => wp + n * 2
    | .addr a => a
  let xop := (ir >>> 6) &&& 0x0f
  setST fun st => st ||| ST_X
  ctxDoBlwp io (0x0040 + xop * 4) (some ea)

/-- X, with the call of `executeInstruction` as a parameter. -/
def execX (call : U16 → M σ Unit) (ea : TmsEa) : M σ Unit := do
  let innerPc ← readWordEa io ea
  let saved := (← get).ctx.PC
  setPC (innerPc &&& 0xfffe)
  let inner ← fetchWord io
  call inner
  setPC saved

/-- The instructions that replace their operand by a function of it. -/
def execWord (f : U16 → U16) (ea : TmsEa) : M σ Unit := do
  let v ← readWordEa io ea
  writeWordEa io ea (f v)
  setST fun st => setLaeWord st (f v)

/-- ABS -/
def execAbs (ea : TmsEa) : M σ Unit := do
  let raw ← readWordEa io ea
  setST fun st => setLaeWord st raw
  setST fun st => setFlag st ST_OV (raw = 0x8000)
  setST fun st => st &&& ~~~ST_C
  let v := if raw &&& 0x8000 ≠ 0 then -raw else raw
  writeWordEa io ea v
  setST fun st => setLaeWord st v

/-- Format 6 -/
def format6 (call : U16 → M σ Unit) (ir : U16) : M σ Unit := do
  let ea ← sourceEa io ir false
  let op6 := ir &&& 0xffc0
  if op6 = 0x0400 then do
    let vec ← readWordEa io ea
    ctxDoBlwp io vec none
  else if op6 = 0x0440 then do
    let target ← readWordEa io ea
    setPC (target &&& 0xfffe)
  else if op6 = 0x0480 then execX io call ea
  else if op6 = 0x04c0 then do
    writeWordEa io ea 0
    setST fun st => setLaeWord st 0
  else if op6 = 0x0500 then execWord io (fun v => -v) ea
  else if op6 = 0x0540 then execWord io (fun v => ~~~v) ea
  else if op6 = 0x0580 then execWord io (fun v => v + 1) ea
  else if op6 = 0x05c0 then execWord io (fun v => v + 2) ea
  else if op6 = 0x0600 then execWord io (fun v => v - 1) ea
  else if op6 = 0x0640 then execWord io (fun v => v - 2) ea
  else if op6 = 0x0680 then do
    let target ← readWordEa io ea
    writeReg io 11 (← get).ctx.PC
    setPC (target &&& 0xfffe)
  else if op6 = 0x06c0 then execWord io (fun v => ((v &&& 0xff) <<< 8) ||| (v >>> 8)) ea
  else if op6 = 0x0700 then do
    writeWordEa io ea 0xffff
    setST fun st => setLaeWord st 0xffff
  else if op6 = 0x0740 then execAbs io ea
  else illegal

/-- The last part of `executeInstruction`, from Format 1 on. -/
def decodeHigh (call : U16 → M σ Unit) (ir : U16) : M σ Unit :=
  let hi := ir &&& 0xff00
  if hi = 0xa000 then format1 io ir false .A
  else if hi = 0xb000 then format1 io ir true .A
  else if hi = 0x6000 then format1 io ir false .S
  else if hi = 0x7000 then format1 io ir true .S
  else if hi = 0x8000 then format1 io ir false .C
  else if hi = 0x9000 then format1 io ir true .C
  else if hi = 0xc000 then format1 io ir false .MOV
  else if hi = 0xd000 then format1 io ir true .MOV
  else if hi = 0xe000 then format1 io ir false .SOC
  else if hi = 0xf000 then format1 io ir true .SOC
  else if hi = 0x4000 then format1 io ir false .SZC
  else if hi = 0x5000 then format1 io ir true .SZC
  else if hi = 0x0180 then execDivs io ir
  else if hi = 0x01c0 then execMpys io ir
  else if ir &&& 0xc000 = 0x0000 ∧ 0x0400 ≤ ir &&& 0xfc00 ∧ ir &&& 0xfc00 < 0x0800 then
    format6 io call ir
  else illegal

/-- `executeInstruction`, with its recursive call as a parameter. -/
def decode (call : U16 → M σ Unit) (ir : U16) : M σ Unit :=
  let hi := ir &&& 0xff00
  if hi = 0x0200 then format8 io ir
  else if hi = 0x0080 then do
    let st ← readReg io (ir &&& 0x0f)
    setST fun _ => st
  else if hi = 0x0090 then do
    let wp ← readReg io (ir &&& 0x0f)
    setCtx fun c => { c with WP := wp &&& 0xfffe }
  else if ir = 0x0300 then execLimi io
  else if ir = 0x0340 then setCtx fun c => { c with idle := true }
  else if ir = 0x0360 then setST fun st => st &&& 0xfff0
  else if ir = 0x0380 then execRtwp io
  else if ir &&& 0xf000 = 0x1000 then
    let sub := (ir >>> 8) &&& 0x0f
    if 0x0d ≤ sub ∧ sub ≤ 0x0f then execCruBit io sub ir else execJump ir
  else if ir &&& 0xf000 = 0x2000 then format3 io ir
  else if ir &&& 0xfc00 = 0x3000 ∨ ir &&& 0xfc00 = 0x3400 then
    cruTransfer io ir (ir &&& 0xfc00 = 0x3400)
  else if 0x0800 ≤ ir &&& 0xfc00 ∧ ir &&& 0xfc00 ≤ 0x0bff then
    shiftOp io ir (kinds ((ir >>> 10) &&& 3))
  else if ir &&& 0xfc00 = 0x3800 then execMpy io ir
  else if ir &&& 0xfc00 = 0x3c00 then execDiv io ir
  else if ir &&& 0xf800 = 0x2c00 then execXop io ir
  else decodeHigh io call ir

/-- `executeInstruction`, granted that many nested calls. -/
def executeInstruction : Nat → U16 → M σ Unit
  | 0, _ => setCtx fun c => { c with endless := true }
  | rounds + 1, ir => decode io (executeInstruction rounds) ir

end Decoder

section Interrupts

/-- `serviceInterrupt` -/
def serviceInterrupt (vector newMask : U16) : M σ Unit := do
  doBlwp io vector none
  modify fun s => { s with ST := (s.ST &&& 0xfff0) ||| (newMask &&& 0x000f) }

/-- `handlePendingInterrupts` -/
def handlePendingInterrupts : M σ Bool := do
  let s ← get
  let intmask := s.ST &&& 0x000f
  if s.pendingIrq1 ∧ 1 ≤ intmask then do
    modify fun s => { s with pendingIrq1 := false }
    serviceInterrupt io 0x0004 0
    return true
  else if s.pendingIrq2 ∧ 2 ≤ intmask then do
    modify fun s => { s with pendingIrq2 := false }
    serviceInterrupt io 0x0008 1
    return true
  else if s.pendingIrq3 ∧ 3 ≤ intmask then do
    modify fun s => { s with pendingIrq3 := false }
    serviceInterrupt io 0x000c 2
    return true
  else return false

def CYCLES_PER_INSTR : Nat := 12
def DEC_ADDR : U16 := 0xfffa
def DEC_TICKS_PER_STEP : Nat := 3000

/-- One round of the loop of `tickDecrementer`. -/
def stepDecrementer : M σ Unit := do
  modify fun s => { s with decClockAccum := s.decClockAccum - DEC_TICKS_PER_STEP }
  let v ← readWord io DEC_ADDR
  if v = 0 then do
    modify fun s => { s with pendingIrq3 := true }
    writeWord io DEC_ADDR 0xffff
  else writeWord io DEC_ADDR (v - 1)

/-- `tickDecrementer` -/
def tickDecrementer : M σ Unit := do
  if io.getDecrementerEnabled (← get).io then do
    modify fun s => { s with decClockAccum := s.decClockAccum + CYCLES_PER_INSTR }
    (List.range ((← get).decClockAccum / DEC_TICKS_PER_STEP)).forM fun _ => stepDecrementer io
  else pure ()

/-- `triggerInterrupt` -/
def triggerInterrupt (level : Nat) : M σ Unit :=
  modify fun s => s.raise { irq1 := level = 1, irq2 := level = 2 }

end Interrupts

section Pins

/-- `risingEdge` -/
def InputPin.risingEdge (p : InputPin) : Bool := p.current && !p.previous

/-- `commitSample` -/
def InputPin.commitSample (p : InputPin) : InputPin := { p with previous := p.current }

/-- `clearDeferred`, and the pin as it is now. -/
def InputPin.forget (p : InputPin) : InputPin := { p with previous := p.current, deferred := false }

/-- The pins with `f` of each. -/
def Pins.map (f : InputPin → InputPin) (p : Pins) : Pins :=
  ⟨f p.RST, f p.HLT, f p.IRQ1, f p.IRQ2, f p.NMI⟩

/-- The variables that `powerOnIdle` and `reset` clear. -/
def Core.cleared (s : Core σ) : Core σ :=
  { s with
    PC := 0, WP := 0, ST := 0, idle := false
    pendingIrq1 := false, pendingIrq2 := false, pendingIrq3 := false
    io := io.resetCruTimerFlags s.io
    decClockAccum := 0
    pins := s.pins.map InputPin.forget }

/-- `powerOnIdle` -/
def powerOnIdle : M σ Unit := modify fun s => { s.cleared io with execStatus := .idle }

/-- `reset` -/
def reset : M σ Unit := do
  modify fun s => s.cleared io
  let wp ← readWord io 0
  modify fun s => { s with WP := wp &&& 0xfffe }
  let pc ← readWord io 2
  modify fun s => { s with PC := pc &&& 0xfffe, execStatus := .running }

/-- The pins of `Pins` that `processInputPins` looks at one after the other. -/
inductive Pin where
  | RST
  | HLT
  | IRQ1
  | IRQ2
  | NMI
deriving DecidableEq

def Pins.get (p : Pins) : Pin → InputPin
  | .RST => p.RST
  | .HLT => p.HLT
  | .IRQ1 => p.IRQ1
  | .IRQ2 => p.IRQ2
  | .NMI => p.NMI

def Pins.set (p : Pins) (v : InputPin) : Pin → Pins
  | .RST => { p with RST := v }
  | .HLT => { p with HLT := v }
  | .IRQ1 => { p with IRQ1 := v }
  | .IRQ2 => { p with IRQ2 := v }
  | .NMI => { p with NMI := v }

/-- `condition(pin) || takeDeferred(pin)` -/
def takePin (condition : InputPin → Bool) (pin : Pin) : M σ Bool := do
  let p := (← get).pins.get pin
  if condition p then return true
  else do
    modify fun s => { s with pins := s.pins.set { p with deferred := false } pin }
    return p.deferred

/-- `requestHalt` -/
def requestHalt : M σ Unit :=
  modify fun s => if s.execStatus = .running then { s with execStatus := .halted } else s

/-- `processInputPins` -/
def processInputPins : M σ Unit := do
  if ← takePin InputPin.risingEdge .RST then reset io else pure ()
  if ← takePin InputPin.current .HLT then requestHalt else pure ()
  if ← takePin InputPin.risingEdge .IRQ1 then triggerInterrupt 1 else pure ()
  if ← takePin InputPin.risingEdge .IRQ2 then triggerInterrupt 2 else pure ()
  if ← takePin InputPin.risingEdge .NMI then serviceInterrupt io 0xfffc 0 else pure ()
  modify fun s => { s with pins := s.pins.map InputPin.commitSample }

/-- `setPins` -/
def setPins (level : Pin → Option Bool) : M σ Unit := do
  let put (p : InputPin) (pin : Pin) : InputPin := { p with current := (level pin).getD p.current }
  modify fun s => { s with
    pins := ⟨put s.pins.RST .RST, put s.pins.HLT .HLT, put s.pins.IRQ1 .IRQ1,
      put s.pins.IRQ2 .IRQ2, put s.pins.NMI .NMI⟩ }
  processInputPins io

/-- `startRun` -/
def startRun : M σ Unit :=
  modify fun s => if s.pins.HLT.current then s else { s with idle := false, execStatus := .running }

end Pins

section Ticks

/-- The assignments of `executeOne` behind `executeInstruction`. -/
def Core.retire (pcAfterOpcode : U16) (s : Core σ) : Core σ :=
  { s with
    PC := if s.ctx.PC ≠ pcAfterOpcode then s.ctx.PC else s.PC
    WP := s.ctx.WP
    ST := s.ctx.ST
    idle := s.ctx.idle }

/-- An instruction of `executeOne`, without the interrupt checks around it. -/
def instruction (rounds : Nat) : M σ Unit := do
  let ir ← fetchWord io
  let pcAfterOpcode := (← get).PC
  modify fun s => { s with ctx := { PC := pcAfterOpcode, WP := s.WP, ST := s.ST, idle := s.idle } }
  executeInstruction io rounds ir
  if (← get).ctx.endless then pure ()
  else do
    modify fun s => s.retire pcAfterOpcode
    tickDecrementer io

/-- `executeOne` -/
def executeOne (rounds : Nat) : M σ Unit := do
  if ← handlePendingInterrupts io then pure ()
  else if (← get).idle then do
    let _ ← handlePendingInterrupts io
  else do
    instruction io rounds
    let s ← get
    if s.ctx.endless then pure ()
    else if s.idle then modify fun s => { s with execStatus := .halted }
    else if s.execStatus = .break then pure ()
    else do
      let _ ← handlePendingInterrupts io

/-- The status test of `tickCpu`: whether the tick goes on. -/
def resume : M σ Bool := do
  let s ← get
  if s.execStatus = .halted then
    if s.idle then do
      modify fun s => { s with execStatus := .running }
      return true
    else do
      let accepted ← handlePendingInterrupts io
      if accepted then modify fun s => { s with execStatus := .running } else pure ()
      return accepted
  else if s.execStatus = .break ∨ s.execStatus = .step then do
    let accepted ← handlePendingInterrupts io
    if accepted then modify fun s => { s with execStatus := .running } else pure ()
    return accepted
  else return true

/-- `tickCpu` -/
def tickCpu (rounds : Nat) : M σ Unit := do
  processInputPins io
  let s ← get
  if s.pins.HLT.current ∨ s.execStatus = .idle then pure ()
  else do
    if ← resume io then executeOne io rounds else pure ()

end Ticks

end Tms9995
end EmuTs
end RetroCpu
