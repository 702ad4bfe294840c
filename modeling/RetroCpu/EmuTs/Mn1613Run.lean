import RetroCpu.EmuTs.Mn1613Board
import RetroCpu.EmuTs.Mn1613Effect

/-!
# Runs of the TypeScript MN1613 core

What one event does to the core: a reset or an assignment of registers may prepare it
(`Start`), at most one instruction is executed (`executing`), and for the rest only the
status and the requests change (`Quiet`).  `handle_cases` is the case analysis from
which the invariants of whole runs are proved.
-/

namespace RetroCpu
namespace EmuTs
namespace Mn1613

open Js Prog RetroCpu.Mn1613

variable {σ : Type}

namespace Machine

variable (bd : Board σ)

/-- The state of the core on which `tickCpu` calls `_executeOne`, if it does. -/
def tickExecuting (b : Machine σ) : Option (Cpu σ) :=
  b.tickReady.bind fun b' => if b'.cpu.reg.IC ∈ b'.breakpoints then none else some b'.cpu

/-- The state of the core on which an event calls `_executeOne`. -/
def executing (b : Machine σ) : Event σ → Option (Cpu σ)
  | .tickCpu => (b.processInputPins bd).tickExecuting
  | .step =>
      if b.stepReady then some { b.cpu with stepMode := false, execStatus := .running } else none
  | .runTick _ _ => if b.runStop = none then some b.cpu else none
  | _ => none

/-- Does the RST pin reset the core at the next sample? -/
def rstFires (b : Machine σ) : Bool := (b.takePin InputPin.risingEdge .RST).1

/-- Does an event reset the core? -/
def resets (b : Machine σ) : Event σ → Bool
  | .powerOnIdle => true
  | .reset => true
  | .setPins levels =>
      rstFires { b with pin := fun p => { b.pin p with now := (levels p).getD (b.pin p).now } }
  | .processInputPins => b.rstFires
  | .tickCpu => b.rstFires
  | _ => false

end Machine

/-- The states that differ in the execution control and in added requests only. -/
structure Quiet (s s' : Cpu σ) : Prop where
  reg : s'.reg = s.reg
  mem : s'.mem = s.mem
  board : s'.board = s.board
  pending : ∀ lv, requested s.pendingIRQ lv → requested s'.pendingIRQ lv

theorem Quiet.refl (s : Cpu σ) : Quiet s s := ⟨rfl, rfl, rfl, fun _ h => h⟩

theorem Quiet.trans {s s' s'' : Cpu σ} (h : Quiet s s') (h' : Quiet s' s'') : Quiet s s'' where
  reg := h'.reg.trans h.reg
  mem := h'.mem.trans h.mem
  board := h'.board.trans h.board
  pending := fun lv hr => h'.pending lv (h.pending lv hr)

namespace Machine

section Sampling

variable (bd : Board σ) (b : Machine σ)

theorem setStatus_quiet (status : ExecStatus) : Quiet b.cpu (b.setStatus status).cpu :=
  ⟨rfl, rfl, rfl, fun _ h => h⟩

theorem takePin_cpu (condition : InputPin → Bool) (p : Pin) :
    (b.takePin condition p).2.cpu = b.cpu := rfl

theorem sampleHlt_quiet : Quiet b.cpu b.sampleHlt.cpu := by
  unfold sampleHlt
  simp only
  split_ifs
  · exact setStatus_quiet _ _
  · exact Quiet.refl _

theorem triggerInterrupt_quiet (lv : Level) : Quiet b.cpu (b.triggerInterrupt lv).cpu :=
  ⟨rfl, rfl, rfl, fun lv' h => (requested_raise _ lv' lv).mpr (.inr h)⟩

theorem sampleIrq_quiet (lv : Level) : Quiet b.cpu (b.sampleIrq lv).cpu := by
  unfold sampleIrq
  simp only
  split_ifs
  · exact triggerInterrupt_quiet _ lv
  · exact Quiet.refl _

theorem sampleIrqs_quiet (lvs : List Level) : Quiet b.cpu (lvs.foldl sampleIrq b).cpu := by
  induction lvs generalizing b with
  | nil => exact Quiet.refl _
  | cons lv lvs ih => exact (sampleIrq_quiet b lv).trans (ih (b.sampleIrq lv))

theorem processInputPins_quiet :
    Quiet (b.sampleRst bd).cpu (b.processInputPins bd).cpu :=
  (sampleHlt_quiet (b.sampleRst bd)).trans (sampleIrqs_quiet _ [0, 1, 2])

theorem tickReady_quiet {b b' : Machine σ} (h : b.tickReady = some b') : Quiet b.cpu b'.cpu := by
  unfold tickReady at h
  split_ifs at h
  all_goals cases h
  · exact setStatus_quiet _ _
  · exact Quiet.refl _

/-- `tickCpu` executes an instruction from a state like the sampled one. -/
theorem tickSampled_some {b : Machine σ} {s : Cpu σ} (h : b.tickExecuting = some s) :
    Quiet b.cpu s ∧ (b.tickSampled bd).cpu = stepOne bd s := by
  unfold tickExecuting at h
  unfold tickSampled
  cases hready : b.tickReady with
  | none => simp [hready] at h
  | some b' =>
      simp only [hready, Option.bind_some] at h
      split_ifs at h with hbreak
      cases h
      simp only [if_neg hbreak]
      exact ⟨tickReady_quiet hready, rfl⟩

theorem tickSampled_none {b : Machine σ} (h : b.tickExecuting = none) :
    Quiet b.cpu (b.tickSampled bd).cpu := by
  unfold tickExecuting at h
  unfold tickSampled
  cases hready : b.tickReady with
  | none => exact Quiet.refl _
  | some b' =>
      simp only [hready, Option.bind_some] at h
      split_ifs at h with hbreak
      simp only [if_pos hbreak]
      exact (tickReady_quiet hready).trans (setStatus_quiet b' _)

end Sampling

section Handle

variable (bd : Board σ)

/-- The state of the core before an event executes an instruction, up to the execution
control and added requests. -/
inductive Start (b : Machine σ) : Event σ → Cpu σ → Prop where
  | keep {e : Event σ} (h : resets b e = false) : Start b e b.cpu
  | reset {e : Event σ} (h : resets b e = true) : Start b e (b.reset bd).cpu
  | powerOn : Start b .powerOnIdle b.powerOnIdle.cpu
  | setState (p : PartialState) : Start b (.setState p) (b.setState p).cpu
  | run (a : Int) : Start b (.run a) (b.run a).cpu
  | external (mem : Mem) (change : σ → σ) :
      Start b (.external mem change) (b.handle bd (.external mem change)).cpu

/-- What an event does to the core: it is prepared, and then either at most the status
and the requests change, or one instruction is executed. -/
def Outcome (b : Machine σ) (e : Event σ) (s₀ : Cpu σ) : Option (Cpu σ) → Prop
  | none => Quiet s₀ (b.handle bd e).cpu
  | some s => Quiet s₀ s ∧ Quiet (stepOne bd s) (b.handle bd e).cpu

variable (b : Machine σ)

theorem sampleRst_cpu :
    (b.sampleRst bd).cpu = if b.rstFires then (b.reset bd).cpu else b.cpu := by
  unfold sampleRst rstFires
  simp only
  split_ifs <;> rfl

theorem start_sampled {e : Event σ} (h : b.resets e = b.rstFires) :
    Start bd b e (b.sampleRst bd).cpu := by
  rw [sampleRst_cpu]
  cases hr : b.rstFires with
  | false => exact .keep (h.trans hr)
  | true => exact .reset (h.trans hr)

/-- An event that changes at most the status and the requests. -/
theorem outcome_keep {e : Event σ} (hr : b.resets e = false) (he : b.executing bd e = none)
    (hq : Quiet b.cpu (b.handle bd e).cpu) :
    ∃ s₀, Start bd b e s₀ ∧ Outcome bd b e s₀ (b.executing bd e) := by
  rw [he]
  exact ⟨b.cpu, .keep hr, hq⟩

/-- What the core goes through at an event. -/
theorem handle_cases (e : Event σ) :
    ∃ s₀, Start bd b e s₀ ∧ Outcome bd b e s₀ (b.executing bd e) := by
  cases e with
  | powerOnIdle => exact ⟨_, .powerOn, Quiet.refl _⟩
  | reset => exact ⟨_, .reset rfl, Quiet.refl _⟩
  | setPins levels =>
      let b' : Machine σ :=
        { b with pin := fun p => { b.pin p with now := (levels p).getD (b.pin p).now } }
      have hquiet := processInputPins_quiet bd b'
      rw [sampleRst_cpu] at hquiet
      cases hr : b'.rstFires with
      | false =>
          rw [hr] at hquiet
          exact ⟨_, .keep hr, hquiet⟩
      | true =>
          rw [hr] at hquiet
          exact ⟨_, .reset hr, hquiet⟩
  | processInputPins => exact ⟨_, start_sampled bd b rfl, processInputPins_quiet bd b⟩
  | tickCpu =>
      refine ⟨_, start_sampled bd b rfl, ?_⟩
      have hquiet := processInputPins_quiet bd b
      cases hexec : b.executing bd .tickCpu with
      | none => exact hquiet.trans (tickSampled_none bd hexec)
      | some s =>
          obtain ⟨hs, hrun⟩ := tickSampled_some bd hexec
          refine ⟨hquiet.trans hs, ?_⟩
          rw [← hrun]
          exact Quiet.refl _
  | startRun =>
      refine outcome_keep bd b rfl rfl ?_
      simp only [handle, startRun]
      split_ifs
      · exact Quiet.refl _
      · exact ⟨rfl, rfl, rfl, fun _ h => h⟩
  | requestHalt =>
      refine outcome_keep bd b rfl rfl ?_
      simp only [handle, requestHalt]
      split_ifs
      · exact setStatus_quiet _ _
      · exact Quiet.refl _
  | halt => exact outcome_keep bd b rfl rfl (setStatus_quiet _ _)
  | setState p => exact ⟨_, .setState p, Quiet.refl _⟩
  | setStepMode enable =>
      refine outcome_keep bd b rfl rfl ?_
      simp only [handle, setStepMode]
      split_ifs
      · exact ⟨rfl, rfl, rfl, fun _ h => h⟩
      · exact ⟨rfl, rfl, rfl, fun _ h => h⟩
  | triggerInterrupt lv => exact outcome_keep bd b rfl rfl (triggerInterrupt_quiet b lv)
  | step =>
      refine ⟨b.cpu, .keep rfl, ?_⟩
      simp only [executing]
      split_ifs with hready
      · refine ⟨⟨rfl, rfl, rfl, fun _ h => h⟩, ?_⟩
        simp only [handle, step, hready, if_true]
        split_ifs
        · exact Quiet.refl _
        · exact setStatus_quiet (exec (executeOne bd) { b with cpu := _ }) _
      · simp only [Outcome, handle, step, hready]
        exact Quiet.refl _
  | run a => exact ⟨_, .run a, Quiet.refl _⟩
  | runTick maxCycles cycles =>
      refine ⟨b.cpu, .keep rfl, ?_⟩
      simp only [executing]
      cases hstop : b.runStop with
      | none =>
          refine ⟨Quiet.refl _, ?_⟩
          simp only [handle, runTick, hstop]
          split_ifs
          · exact Quiet.refl _
          · exact setStatus_quiet (b.exec (executeOne bd)) _
          · exact Quiet.refl _
      | some status =>
          simp only [reduceCtorEq, if_false, Outcome, handle, runTick, hstop]
          exact setStatus_quiet b _
  | addBreakpoint addr => exact outcome_keep bd b rfl rfl (Quiet.refl _)
  | removeBreakpoint addr => exact outcome_keep bd b rfl rfl (Quiet.refl _)
  | clearBreakpoints => exact outcome_keep bd b rfl rfl (Quiet.refl _)
  | external mem change => exact ⟨_, .external mem change, Quiet.refl _⟩

end Handle

end Machine

section Step

variable (bd : Board σ) {W : Scope bd}

/-- The instruction word of a step, and the state in which it is executed. -/
def instruction (s : Cpu σ) : Int × Cpu σ :=
  (do checkIRQ bd; let ir ← fetch bd; onInstructionFetch bd ir; return ir : M σ Int).run s

theorem stepOne_eq (s : Cpu σ) :
    stepOne bd s = ((execute bd (instruction bd s).1).run (instruction bd s).2).2 := rfl

theorem onInstructionFetch_moves (ir : Int) : Moves (effect W) 0 (onInstructionFetch bd ir) :=
  fun _ => answer_moves fun hB => W.onInstructionFetch _ _ hB

/-- Fetching keeps every request. -/
theorem fetchInstruction_moves :
    Moves (effect W) 1 (do let ir ← fetch bd; onInstructionFetch bd ir; return ir : M σ Int) :=
  fetch_bind bd fun _ _ => (onInstructionFetch_moves bd _).bind_zero fun _ => Moves.pure _

theorem checkIRQ_moves (hL : ∀ lv, ¬ W.L lv) : Moves (effect W) 0 (checkIRQ bd) := by
  intro s
  by_cases hp : s.pendingIRQ = 0
  · rw [checkIRQ_idle bd hp]
    exact (effect W).refl s
  · rw [checkIRQ_pending bd hp]
    cases hlv : irqLevel s with
    | none =>
        rw [handleIRQ_none bd hlv]
        exact (effect W).refl s
    | some lv =>
        rw [handleIRQ_some bd hlv]
        exact acceptIrq_moves bd (hL lv) s

/-- A step keeps the core inside a scope. -/
theorem stepOne_ok (hL : ∀ lv, ¬ W.L lv) {s : Cpu σ} (h : W.Ok s) : W.Ok (stepOne bd s) := by
  have hpre : W.Ok (instruction bd s).2 :=
    ((checkIRQ_moves bd hL).bind_zero (fun _ => fetchInstruction_moves bd) s).2.2 h
  rw [stepOne_eq]
  exact (execute_moves bd _ (fun h => absurd h (hL 0)) _).2.2 hpre

end Step

end Mn1613
end EmuTs
end RetroCpu
