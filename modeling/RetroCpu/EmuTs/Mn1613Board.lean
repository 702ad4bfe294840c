import Mathlib.Data.Finset.Erase
import Mathlib.Data.Finset.Insert
import RetroCpu.EmuTs.Mn1613Exec

/-!
# The TypeScript MN1613 core: pins, execution control and events

The exported functions of `mn1613.ts` around `_executeOne`, with the input pins of
`pin_signal.ts`.  An `Event` is one call from outside, or a change that the rest of
the board makes to the memory and to itself between two instructions.
-/

namespace RetroCpu
namespace EmuTs
namespace Mn1613

open Js Prog RetroCpu.Mn1613

/-- `InputPin`: the level now, the level at the last sample, and a deferred assertion. -/
structure InputPin where
  now : Bool := false
  prev : Bool := false
  deferred : Bool := false
deriving DecidableEq, Repr

namespace InputPin

/-- `risingEdge` -/
def risingEdge (p : InputPin) : Bool := p.now && !p.prev

/-- `commitSample` -/
def commitSample (p : InputPin) : InputPin := { p with prev := p.now }

/-- `clearDeferred` -/
def clearDeferred (p : InputPin) : InputPin := { p with deferred := false }

/-- `condition || takeDeferred(pin)`: the deferred assertion is taken only when the
condition fails. -/
def orTakeDeferred (condition : Bool) (p : InputPin) : Bool × InputPin :=
  if condition then (true, p) else (p.deferred, p.clearDeferred)

end InputPin

/-- The input pins of the CPU. -/
inductive Pin where
  | RST
  | HLT
  | IRQ (lv : Level)
  | BSAV
  | STRT
deriving DecidableEq

/-- The core with its pins and the breakpoints. -/
structure Machine (σ : Type) where
  cpu : Cpu σ
  pin : Pin → InputPin
  breakpoints : Finset Int

variable {σ : Type}

/-- State of the module when it is loaded. -/
def Machine.initial (mem : Mem) (board : σ) : Machine σ where
  cpu := .initial mem board
  pin := fun _ => {}
  breakpoints := ∅

/-- The default callbacks, with comparators and step unit off. -/
def Board.default : Board Unit where
  ioRead _ _ := (0xffff, ⟨[], ()⟩)
  ioWrite _ _ _ := ⟨[], ()⟩
  probe _ _ := ⟨[], ()⟩
  onInstructionFetch _ _ := ⟨[], ()⟩

/-- Argument of `setState`: an absent field is kept. -/
structure PartialState where
  R : Fin 5 → Option Int := fun _ => none
  OSR : Fin 4 → Option Int := fun _ => none
  SP : Option Int := none
  STR : Option Int := none
  IC : Option Int := none
  CSBR : Option Int := none
  SSBR : Option Int := none
  TSR0 : Option Int := none
  TSR1 : Option Int := none
  NPP : Option Int := none
  IISR : Option Int := none
  SBRB : Option Int := none
  ICB : Option Int := none

/-- `if (v !== undefined) field = v & mask;` -/
def assign (v : Option Int) (mask field : Int) : Int :=
  match v with
  | some v => land v mask
  | none => field

/-- `setState` -/
def CPURegister.setState (r : CPURegister) (p : PartialState) : CPURegister where
  R := fun i => assign (p.R i) 0xffff (r.R i)
  OSR := fun i => assign (p.OSR i) 0xffff (r.OSR i)
  SP := assign p.SP 0xffff r.SP
  STR := assign p.STR 0xffff r.STR
  IC := assign p.IC 0xffff r.IC
  CSBR := assign p.CSBR 0xf r.CSBR
  SSBR := assign p.SSBR 0xf r.SSBR
  TSR0 := assign p.TSR0 0xf r.TSR0
  TSR1 := assign p.TSR1 0xf r.TSR1
  NPP := assign p.NPP 0xff r.NPP
  IISR := assign p.IISR 0xffff r.IISR
  SBRB := assign p.SBRB 0xffff r.SBRB
  ICB := assign p.ICB 0xffff r.ICB

/-- `_peekWord` -/
def peekWord (mem : Mem) (logAddr : Int) : Int := getUint16 mem (phys (land logAddr 0xffff) 0)

variable (bd : Board σ)

/-- `reset`, except for the pins. -/
def resetCore : M σ Unit := do
  setReg fun _ => .initial
  modify fun s => { s with stepMode := false, pendingIRQ := 0, ioLastWrite := fun _ => none }
  let s ← get
  let r := bd.ioRead s.board 0
  answer r.2
  let vec := land r.1 0xffff
  setReg fun r => { r with STR := peekWord s.mem (vec + 2) }
  setReg fun r => { r with IC := peekWord s.mem (vec + 3) }
  modify fun s => { s with execStatus := .running }

/-- `hasAcceptableIrq` -/
def hasAcceptableIrq (s : Cpu σ) : Bool := [0, 1, 2].any (acceptable s)

namespace Machine

/-- Run a program of the core. -/
def exec (m : M σ Unit) (b : Machine σ) : Machine σ := { b with cpu := (m.run b.cpu).2 }

/-- Assign the execution status. -/
def setStatus (status : ExecStatus) (b : Machine σ) : Machine σ :=
  { b with cpu := { b.cpu with execStatus := status } }

/-- Drop deferred assertions and take the present levels as sampled. -/
def syncPins (b : Machine σ) : Machine σ :=
  { b with pin := fun p => (b.pin p).clearDeferred.commitSample }

/-- `powerOnIdle` -/
def powerOnIdle (b : Machine σ) : Machine σ :=
  syncPins { b with cpu :=
    { b.cpu with reg := .initial, execStatus := .idle, stepMode := false, pendingIRQ := 0,
                 ioLastWrite := fun _ => none } }

/-- `reset` -/
def reset (b : Machine σ) : Machine σ := b.syncPins.exec (resetCore bd)

/-- `condition || takeDeferred(pin)` on a pin of the machine. -/
def takePin (condition : InputPin → Bool) (p : Pin) (b : Machine σ) : Bool × Machine σ :=
  let r := InputPin.orTakeDeferred (condition (b.pin p)) (b.pin p)
  (r.1, { b with pin := Function.update b.pin p r.2 })

/-- The RST part of `processInputPins`. -/
def sampleRst (b : Machine σ) : Machine σ :=
  let r := b.takePin InputPin.risingEdge .RST
  if r.1 then r.2.reset bd else r.2

/-- The HLT part of `processInputPins`. -/
def sampleHlt (b : Machine σ) : Machine σ :=
  let r := b.takePin InputPin.now .HLT
  if r.1 ∧ r.2.cpu.execStatus = .running then r.2.setStatus .halted else r.2

/-- `_pendingIRQ |= 1 << lv` -/
def triggerInterrupt (lv : Level) (b : Machine σ) : Machine σ :=
  { b with cpu := { b.cpu with pendingIRQ := raise b.cpu.pendingIRQ lv } }

/-- One round of the IRQ loop of `processInputPins`. -/
def sampleIrq (b : Machine σ) (lv : Level) : Machine σ :=
  let r := b.takePin InputPin.risingEdge (.IRQ lv)
  if r.1 then r.2.triggerInterrupt lv else r.2

/-- `processInputPins` -/
def processInputPins (b : Machine σ) : Machine σ :=
  let b := [0, 1, 2].foldl sampleIrq (b.sampleRst bd).sampleHlt
  { b with pin := fun p => (b.pin p).commitSample }

/-- `setPins`: set the given levels, then sample. -/
def setPins (levels : Pin → Option Bool) (b : Machine σ) : Machine σ :=
  processInputPins bd { b with pin := fun p => { b.pin p with now := (levels p).getD (b.pin p).now } }

/-- The part of `tickCpu` after the pins are sampled that decides whether an
instruction is executed. -/
def tickReady (b : Machine σ) : Option (Machine σ) :=
  if (b.pin .HLT).now ∨ b.cpu.execStatus = .idle then none
  else if b.cpu.execStatus = .halted then
    if hasAcceptableIrq b.cpu then some (b.setStatus .running) else none
  else if b.cpu.execStatus = .brk ∨ b.cpu.execStatus = .step then none
  else some b

/-- `tickCpu` after the pins are sampled. -/
def tickSampled (b : Machine σ) : Machine σ :=
  match b.tickReady with
  | none => b
  | some b => if b.cpu.reg.IC ∈ b.breakpoints then b.setStatus .brk else b.exec (executeOne bd)

/-- `tickCpu` -/
def tickCpu (b : Machine σ) : Machine σ := (b.processInputPins bd).tickSampled bd

/-- `startRun` -/
def startRun (b : Machine σ) : Machine σ :=
  if (b.pin .HLT).now then b
  else { b with cpu := { b.cpu with stepMode := false, execStatus := .running } }

/-- `requestHalt` -/
def requestHalt (b : Machine σ) : Machine σ :=
  if b.cpu.execStatus = .running then b.setStatus .halted else b

/-- `setState` -/
def setState (p : PartialState) (b : Machine σ) : Machine σ :=
  { b with cpu := { b.cpu with reg := b.cpu.reg.setState p } }

/-- `setStepMode` -/
def setStepMode (enable : Bool) (b : Machine σ) : Machine σ :=
  let b := { b with cpu := { b.cpu with stepMode := enable } }
  if enable ∧ b.cpu.execStatus = .running then b.setStatus .step else b

/-- Does `step` execute an instruction? -/
def stepReady (b : Machine σ) : Bool :=
  !(b.pin .HLT).now && (b.cpu.execStatus ≠ .halted || hasAcceptableIrq b.cpu)

/-- `step` -/
def step (b : Machine σ) : Machine σ :=
  if b.stepReady then
    let b' := exec (executeOne bd)
      { b with cpu := { b.cpu with stepMode := false, execStatus := .running } }
    if b'.cpu.execStatus = .halted then b' else b'.setStatus .step
  else b

/-- `run`, up to its first `setTimeout`. -/
def run (startAddr : Int) (b : Machine σ) : Machine σ :=
  { b with cpu := { b.cpu with
      reg := { b.cpu.reg with IC := land startAddr 0xffff }
      execStatus := .running
      stepMode := false } }

/-- The status with which an iteration of the loop of `run` stops before its
instruction. -/
def runStop (b : Machine σ) : Option ExecStatus :=
  if (b.pin .HLT).now then some .halted
  else if b.cpu.reg.IC ∈ b.breakpoints then some .brk
  else if b.cpu.stepMode then some .step
  else none

/-- One iteration of the loop of `run`, with `cycles` instructions executed before. -/
def runTick (maxCycles cycles : Nat) (b : Machine σ) : Machine σ :=
  match b.runStop with
  | some status => b.setStatus status
  | none =>
      let b := b.exec (executeOne bd)
      if b.cpu.execStatus = .halted then b
      else if maxCycles > 0 ∧ cycles + 1 ≥ maxCycles then b.setStatus .brk
      else b

end Machine

/-- What can happen to the machine from outside. -/
inductive Event (σ : Type) where
  | powerOnIdle
  | reset
  | setPins (levels : Pin → Option Bool)
  | processInputPins
  | tickCpu
  | startRun
  | requestHalt
  | halt
  | setState (p : PartialState)
  | setStepMode (enable : Bool)
  | triggerInterrupt (lv : Level)
  | step
  | run (startAddr : Int)
  | runTick (maxCycles cycles : Nat)
  | addBreakpoint (addr : Int)
  | removeBreakpoint (addr : Int)
  | clearBreakpoints
  /-- Memory is written and devices move on while the core is between instructions. -/
  | external (mem : Mem) (change : σ → σ)

/-- The machine after an event. -/
def Machine.handle (b : Machine σ) : Event σ → Machine σ
  | .powerOnIdle => b.powerOnIdle
  | .reset => b.reset bd
  | .setPins levels => b.setPins bd levels
  | .processInputPins => b.processInputPins bd
  | .tickCpu => b.tickCpu bd
  | .startRun => b.startRun
  | .requestHalt => b.requestHalt
  | .halt => b.setStatus .halted
  | .setState p => b.setState p
  | .setStepMode enable => b.setStepMode enable
  | .triggerInterrupt lv => b.triggerInterrupt lv
  | .step => b.step bd
  | .run startAddr => b.run startAddr
  | .runTick maxCycles cycles => b.runTick bd maxCycles cycles
  | .addBreakpoint addr => { b with breakpoints := insert (land addr 0xffff) b.breakpoints }
  | .removeBreakpoint addr => { b with breakpoints := b.breakpoints.erase (land addr 0xffff) }
  | .clearBreakpoints => { b with breakpoints := ∅ }
  | .external mem change =>
      { b with cpu := { b.cpu with mem := mem, board := change b.cpu.board } }

/-- The machine after a sequence of events. -/
def Machine.handleAll (b : Machine σ) (es : List (Event σ)) : Machine σ :=
  es.foldl (Machine.handle bd) b

end Mn1613
end EmuTs
end RetroCpu
