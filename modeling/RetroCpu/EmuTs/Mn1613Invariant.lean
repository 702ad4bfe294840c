import RetroCpu.EmuTs.Mn1613Run

/-!
# The width invariant of the TypeScript MN1613 core

In every run after a reset the registers stay inside their widths and every memory
access goes to one of the `2 ^ 18` physical words, provided that no `setState` assigns
a value to `OSR` or `SBRB` that is wider than the register: `setState` masks these to
16 bits, while the instructions mask to 4 and 8.
-/

namespace RetroCpu
namespace EmuTs
namespace Mn1613

open Js Prog RetroCpu.Mn1613

variable {σ : Type}

/-- The values of `OSR` and `SBRB` that a `setState` leaves behind respect the bounds. -/
def PartialState.Fits (osrMax sbrbMax : Int) (p : PartialState) : Prop :=
  (∀ i v, p.OSR i = some v → land v 0xffff ≤ osrMax) ∧
    ∀ v, p.SBRB = some v → land v 0xffff ≤ sbrbMax

theorem within_assign_word {v : Option Int} {field : Int} (h : Within 0xffff field) :
    Within 0xffff (assign v 0xffff field) := by
  cases v with
  | none => exact h
  | some v => exact within_land_word v

theorem within_assign_byte {v : Option Int} {field : Int} (h : Within 0xff field) :
    Within 0xff (assign v 0xff field) := by
  cases v with
  | none => exact h
  | some v => exact within_land_byte v

theorem within_assign_nibble {v : Option Int} {field : Int} (h : Within 0xf field) :
    Within 0xf (assign v 0xf field) := by
  cases v with
  | none => exact h
  | some v => exact within_land_nibble v

/-- An assignment masked to 16 bits, of a value that is known to be small. -/
theorem within_assign_small {v : Option Int} {field m : Int} (h : Within m field)
    (hv : ∀ x, v = some x → land x 0xffff ≤ m) : Within m (assign v 0xffff field) := by
  cases v with
  | none => exact h
  | some v => exact ⟨(within_land_word v).1, hv v rfl⟩

theorem bounded_setState {o b : Int} {r : CPURegister} {p : PartialState} (h : Bounded o b r)
    (hp : p.Fits o b) : Bounded o b (r.setState p) where
  R := fun i => within_assign_word (h.R i)
  SP := within_assign_word h.SP
  STR := within_assign_word h.STR
  IC := within_assign_word h.IC
  CSBR := within_assign_nibble h.CSBR
  SSBR := within_assign_nibble h.SSBR
  TSR0 := within_assign_nibble h.TSR0
  TSR1 := within_assign_nibble h.TSR1
  OSR := fun i => within_assign_small (h.OSR i) (hp.1 i)
  NPP := within_assign_byte h.NPP
  IISR := within_assign_word h.IISR
  SBRB := within_assign_small h.SBRB hp.2
  ICB := within_assign_word h.ICB

section Run

variable {bd : Board σ} {W : Scope bd}

theorem Quiet.ok {s s' : Cpu σ} (h : Quiet s s') (hs : W.Ok s) : W.Ok s' := by
  obtain ⟨hreg, hboard⟩ := hs
  constructor
  · rw [h.reg]
    exact hreg
  · rw [h.board]
    exact hboard

theorem initial_ok {s : Cpu σ} (hreg : s.reg = .initial) (hboard : W.B s.board) : W.Ok s := by
  constructor
  · rw [hreg]
    exact bounded_initial (le_trans (by decide) W.osrMax_ge) (le_trans (by decide) W.sbrbMax_ge)
  · exact hboard

/-- After a reset the registers are in their widths, whatever they were before. -/
theorem reset_ok {b : Machine σ} (hboard : W.B b.cpu.board) : W.Ok (b.reset bd).cpu := by
  have hinit := initial_ok (W := W) (s := { b.cpu with reg := .initial }) rfl hboard
  exact ⟨{ hinit.1 with STR := within_getUint16 _ _, IC := within_getUint16 _ _ },
    W.ioRead _ _ hboard⟩

/-- The events that respect the scope. -/
def Event.Fits (W : Scope bd) : Event σ → Prop
  | .setState p => p.Fits W.osrMax W.sbrbMax
  | .external _ change => ∀ board, W.B board → W.B (change board)
  | _ => True

theorem start_ok {b : Machine σ} {e : Event σ} {s₀ : Cpu σ} (hs : Machine.Start bd b e s₀)
    (hb : W.Ok b.cpu) (he : e.Fits W) : W.Ok s₀ := by
  cases hs with
  | keep => exact hb
  | reset => exact reset_ok hb.2
  | powerOn => exact initial_ok rfl hb.2
  | setState p => exact ⟨bounded_setState hb.1 he, hb.2⟩
  | run a => exact ⟨{ hb.1 with IC := within_land_word a }, hb.2⟩
  | external mem change => exact ⟨hb.1, he _ hb.2⟩

theorem handle_ok (hL : ∀ lv, ¬ W.L lv) {b : Machine σ} {e : Event σ} (hb : W.Ok b.cpu)
    (he : e.Fits W) : W.Ok (b.handle bd e).cpu := by
  obtain ⟨s₀, hstart, hout⟩ := Machine.handle_cases bd b e
  have h₀ := start_ok hstart hb he
  cases hexec : b.executing bd e with
  | none =>
      rw [hexec] at hout
      exact hout.ok h₀
  | some s =>
      rw [hexec] at hout
      exact hout.2.ok (stepOne_ok bd hL (hout.1.ok h₀))

theorem handleAll_ok (hL : ∀ lv, ¬ W.L lv) {b : Machine σ} (es : List (Event σ))
    (hb : W.Ok b.cpu) (hes : ∀ e ∈ es, e.Fits W) : W.Ok (b.handleAll bd es).cpu := by
  induction es generalizing b with
  | nil => exact hb
  | cons e es ih =>
      have he := handle_ok hL hb (hes e List.mem_cons_self)
      exact ih he fun e' he' => hes e' (List.mem_cons_of_mem e he')

end Run

section Logged

/-- The board that also records the accesses shown to its comparators. -/
def Board.logged (bd : Board σ) : Board (σ × List AddrBusAccess) where
  ioRead s port :=
    ((bd.ioRead s.1 port).1, ⟨(bd.ioRead s.1 port).2.irq, ((bd.ioRead s.1 port).2.state, s.2)⟩)
  ioWrite s port v := ⟨(bd.ioWrite s.1 port v).irq, ((bd.ioWrite s.1 port v).state, s.2)⟩
  probe s a := ⟨(bd.probe s.1 a).irq, ((bd.probe s.1 a).state, s.2 ++ [a])⟩
  onInstructionFetch s ir :=
    ⟨(bd.onInstructionFetch s.1 ir).irq, ((bd.onInstructionFetch s.1 ir).state, s.2)⟩

/-- The machine with an empty record of accesses. -/
def Machine.logged (b : Machine σ) : Machine (σ × List AddrBusAccess) where
  cpu :=
    { reg := b.cpu.reg, mem := b.cpu.mem, execStatus := b.cpu.execStatus
      stepMode := b.cpu.stepMode, pendingIRQ := b.cpu.pendingIRQ
      ioLastWrite := b.cpu.ioLastWrite, board := (b.cpu.board, []), fetches := b.cpu.fetches }
  pin := b.pin
  breakpoints := b.breakpoints

/-- The event on the machine that records accesses. -/
def Event.logged : Event σ → Event (σ × List AddrBusAccess)
  | .powerOnIdle => .powerOnIdle
  | .reset => .reset
  | .setPins levels => .setPins levels
  | .processInputPins => .processInputPins
  | .tickCpu => .tickCpu
  | .startRun => .startRun
  | .requestHalt => .requestHalt
  | .halt => .halt
  | .setState p => .setState p
  | .setStepMode enable => .setStepMode enable
  | .triggerInterrupt lv => .triggerInterrupt lv
  | .step => .step
  | .run startAddr => .run startAddr
  | .runTick maxCycles cycles => .runTick maxCycles cycles
  | .addBreakpoint addr => .addBreakpoint addr
  | .removeBreakpoint addr => .removeBreakpoint addr
  | .clearBreakpoints => .clearBreakpoints
  | .external mem change => .external mem fun s => (change s.1, s.2)

/-- Every recorded memory access goes to a physical word. -/
def InMemory (log : List AddrBusAccess) : Prop :=
  ∀ a ∈ log, a.io = false → Within 0x3ffff a.addr

/-- The scope of the width invariant. -/
def Scope.widths (bd : Board σ) : Scope bd where
  L := fun _ => False
  osrMax := 0xf
  sbrbMax := 0xff
  B := fun _ => True
  osrMax_ge := le_refl _
  sbrbMax_ge := le_refl _
  ioRead := fun _ _ _ => trivial
  ioWrite := fun _ _ _ _ => trivial
  probe := fun _ _ _ _ => trivial
  onInstructionFetch := fun _ _ _ => trivial

theorem nibble_le_word : (0xf : Int) ≤ 0xffff := by decide

theorem byte_le_word : (0xff : Int) ≤ 0xffff := by decide

/-- The scope in which the recorded memory accesses are in range. -/
def Scope.inMemory (bd : Board σ) : Scope bd.logged where
  L := fun _ => False
  osrMax := 0xffff
  sbrbMax := 0xffff
  B := fun s => InMemory s.2
  osrMax_ge := nibble_le_word
  sbrbMax_ge := byte_le_word
  ioRead := fun _ _ h => h
  ioWrite := fun _ _ _ h => h
  probe := by
    intro s a ha h a' ha'
    rcases List.mem_append.mp ha' with hmem | hmem
    · exact h a' hmem
    · rw [List.mem_singleton] at hmem
      rw [hmem]
      exact ha
  onInstructionFetch := fun _ _ h => h

/-- After a reset, every memory access of any run goes to a physical word. -/
theorem accesses_in_memory (bd : Board σ) (b : Machine σ) (es : List (Event σ)) :
    InMemory ((b.logged.reset bd.logged).handleAll bd.logged
      (es.map Event.logged)).cpu.board.2 := by
  let W := Scope.inMemory bd
  have hstart : W.Ok (b.logged.reset bd.logged).cpu :=
    reset_ok fun a ha => absurd ha List.not_mem_nil
  have hfits : ∀ e ∈ es.map Event.logged, e.Fits W := by
    intro e he
    obtain ⟨e', -, rfl⟩ := List.mem_map.mp he
    cases e' with
    | setState p => exact ⟨fun _ v _ => (within_land_word v).2, fun v _ => (within_land_word v).2⟩
    | external mem change => exact fun _ h => h
    | _ => trivial
  exact (handleAll_ok (W := W) (fun _ h => h) _ hstart hfits).2

/-- The events whose `setState` keeps `OSR` and `SBRB` in their widths. -/
def Event.FitsWidths : Event σ → Prop
  | .setState p => p.Fits 0xf 0xff
  | _ => True

/-- Width invariant: in every run after a reset, under any program, memory, device,
interrupt and debugger activity whose `setState` calls fit, every register stays in its
width and every memory access goes to a physical word. -/
theorem registers_in_width (bd : Board σ) (b : Machine σ) (es : List (Event σ))
    (hes : ∀ e ∈ es, e.FitsWidths) :
    Bounded 0xf 0xff ((b.reset bd).handleAll bd es).cpu.reg ∧
      InMemory ((b.logged.reset bd.logged).handleAll bd.logged
        (es.map Event.logged)).cpu.board.2 := by
  constructor
  · let W := Scope.widths bd
    have hstart : W.Ok (b.reset bd).cpu := reset_ok trivial
    have hfits : ∀ e ∈ es, e.Fits W := by
      intro e he
      have hfit := hes e he
      cases e with
      | setState p => exact hfit
      | external mem change => exact fun _ h => h
      | _ => trivial
    exact (handleAll_ok (W := W) (fun _ h => h) es hstart hfits).1
  · exact accesses_in_memory bd b es

/-- A step after `OSR0` and `SBRB` have been set within their widths. -/
theorem registers_in_width_step :
    let b := Machine.initial (fun _ => 0x4801#16) ()
    let es := [.setState { OSR := fun _ => some 3, SBRB := some 0x80 }, .step]
    Bounded 0xf 0xff ((b.reset .default).handleAll .default es).cpu.reg ∧
      InMemory ((b.logged.reset Board.default.logged).handleAll Board.default.logged
        (es.map Event.logged)).cpu.board.2 := by
  have hfit : PartialState.Fits 0xf 0xff { OSR := fun _ => some 3, SBRB := some 0x80 } := by
    constructor
    · rintro i v ⟨⟩
      decide
    · rintro v ⟨⟩
      decide
  refine registers_in_width .default _ _ fun e he => ?_
  rcases List.mem_cons.mp he with rfl | he'
  · exact hfit
  · rw [List.mem_singleton] at he'
    rw [he']
    trivial

/-- `setState` lets 16 bits into the 4-bit `OSR0` and the 8-bit `SBRB`. -/
theorem setState_too_wide :
    let b := Machine.initial (fun _ => 0#16) ()
    let es := [.setState { OSR := fun _ => some 0xffff, SBRB := some 0xffff }]
    let r := ((b.reset .default).handleAll .default es).cpu.reg
    r.OSR 0 = 0xffff ∧ r.SBRB = 0xffff ∧ ¬ Bounded 0xf 0xff r := by
  refine ⟨by decide, by decide, fun h => ?_⟩
  have hosr := (h.OSR 0).2
  revert hosr
  decide

end Logged

end Mn1613
end EmuTs
end RetroCpu
