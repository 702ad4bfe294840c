import RetroCpu.EmuRs.OneInstruction
import RetroCpu.Lib.Slices

/-!
# Slices and halts of the Rust agents (`system.rs`)

`Mn1613CpuAgent` and `Tms9995CpuAgent` record a halt twice: in `ext_halt` and in the core, as its
execution status or as the idle bit of IDLE.  `set_halt(false)` of the MN1613 agent sets the core
going again.  That of the TMS9995 agent clears `ext_halt` only: the core stays idle, so a halted
TMS9995 does not continue.
-/

namespace RetroCpu
namespace EmuRs

open CheckedBuild Slices

section Mn1613Agent

open EmuRs.Mn1613 (Core ExecStatus U8 U16 Level irqLevel)

/-- `PendingIrq` -/
structure PendingIrq where
  level : U8
  cause : U8
deriving DecidableEq, Repr

/-- `Mn1613CpuAgent`, without what runs do not change.  The ports are the device of the core. -/
structure Mn1613CpuAgent (σ : Type) where
  core : Core σ
  extHalt : Bool

/-- What the agent is made of: `take_pending_irq` of its ports, the breakpoints, and
`execute_one` with the memory hook, which tells the ports of every access. -/
structure Mn1613Parts (σ : Type) where
  takePendingIrq : σ → Option PendingIrq × σ
  breakpoints : List U16
  executeOne : Core σ → Except Panic (Core σ)

variable {σ : Type} (parts : Mn1613Parts σ)

/-- `trigger_interrupt` -/
def triggerInterrupt (level : U8) (s : Core σ) : Core σ :=
  if level ≤ 2 then { s with pendingIrq := s.pendingIrq ||| (1 : U8) <<< level } else s

/-- `has_acceptable_irq` -/
def hasAcceptableIrq (s : Core σ) : Bool := (irqLevel s).isSome

/-- `tick`, past the tests for `Idle` and `Halted` -/
def tickAwake (s : Core σ) : Except Panic (Core σ) :=
  if s.execStatus = .brk ∨ s.execStatus = .step then .ok s
  else if s.regs.ic ∈ parts.breakpoints then .ok { s with execStatus := .brk }
  else parts.executeOne s

/-- `tick` -/
def tick (s : Core σ) : Except Panic (Core σ) :=
  if s.execStatus = .idle then .ok s
  else if s.execStatus = .halted then
    if hasAcceptableIrq s then tickAwake parts { s with execStatus := .running } else .ok s
  else tickAwake parts s

/-- The interrupt of the ports goes to the core. -/
def handOver (s : Core σ) : Core σ :=
  let taken := parts.takePendingIrq s.io
  let s := { s with io := taken.2 }
  match taken.1 with
  | some irq => triggerInterrupt irq.level s
  | none => s

/-- `self.core.halt()` -/
def halt (s : Core σ) : Core σ := { s with execStatus := .halted }

/-- `Idle` becomes `Running`. -/
def awaken (s : Core σ) : Core σ :=
  if s.execStatus = .idle then { s with execStatus := .running } else s

/-- One turn of the loop of `run_slice` -/
def mn1613Round (a : Mn1613CpuAgent σ) : Except Panic (Bool × Mn1613CpuAgent σ) :=
  match tick parts (awaken (handOver parts a.core)) with
  | .error why => .error why
  | .ok s =>
      if s.execStatus = .halted ∨ s.execStatus = .brk ∨ s.execStatus = .step then
        .ok (false, { a with core := s })
      else if a.extHalt then .ok (false, { a with core := halt s })
      else .ok (true, { a with core := s })

/-- `let limit = if max_inst == 0 { u32::MAX } else { max_inst };` -/
def limit (maxInst : Nat) : Nat := if maxInst = 0 then 2 ^ 32 - 1 else maxInst

namespace Mn1613CpuAgent

/-- `run_slice` -/
def runSlice (maxInst : Nat) (a : Mn1613CpuAgent σ) : Except Panic (Mn1613CpuAgent σ) :=
  if a.extHalt then .ok a else (upTo (mn1613Round parts) (limit maxInst) a).map Prod.snd

/-- `set_halt` -/
def setHalt (flag : Bool) (a : Mn1613CpuAgent σ) : Mn1613CpuAgent σ :=
  let a := { a with extHalt := flag }
  if flag then { a with core := halt a.core }
  else if a.core.execStatus = .halted then
    { a with core := { a.core with execStatus := .running } }
  else a

/-- `is_halted` -/
def isHalted (a : Mn1613CpuAgent σ) : Bool := a.extHalt || a.core.execStatus = .halted

/-- The registers, the memory, the pending interrupts and the ports, without the status. -/
def seen (a : Mn1613CpuAgent σ) : Core σ := { a.core with execStatus := .running }

/-- The state runs, and a call of `n` instructions is not stopped before its last one.  `Idle` is
made `Running` at every turn. -/
structure Whole (n : Nat) (a : Mn1613CpuAgent σ) : Prop where
  free : a.extHalt = false
  running : a.core.execStatus = .running ∨ a.core.execStatus = .idle
  goesOn : ∃ b, upTo (mn1613Round parts) (n - 1) a = .ok (true, b)

/-- The agent as a machine that runs in slices -/
def machine : Machine (Mn1613CpuAgent σ) Panic where
  runSlice := runSlice parts
  setHalt := setHalt
  isHalted := isHalted

end Mn1613CpuAgent

end Mn1613Agent

section Tms9995Agent

open EmuRs.Tms9995 (Core Tms9995Bus Tms9995Cru StepResult)

variable {β κ : Type}

/-- `Tms9995CpuAgent`, without what runs do not change -/
structure Tms9995CpuAgent (β κ : Type) where
  core : Core β κ
  pendingIrq : Option PendingIrq
  extHalt : Bool

variable (bus : Tms9995Bus β) (cru : Tms9995Cru κ) (rounds : Nat)

/-- `s.idle = true` -/
def stayIdle (s : Core β κ) : Core β κ := { s with idle := true }

/-- One turn of the loop of `run_slice`; the interrupt of the ports is dropped. -/
def tms9995Round (a : Tms9995CpuAgent β κ) : Except Panic (Bool × Tms9995CpuAgent β κ) :=
  let a := { a with pendingIrq := none }
  match (Tms9995.step bus cru rounds).run a.core with
  | .error why => .error why
  | .ok (.error _, s) => .ok (false, { a with core := stayIdle s })
  | .ok (.ok .idle, s) => .ok (false, { a with core := s })
  | .ok (.ok .running, s) =>
      if a.extHalt then .ok (false, { a with core := stayIdle s })
      else .ok (true, { a with core := s })

namespace Tms9995CpuAgent

/-- `run_slice` -/
def runSlice (maxInst : Nat) (a : Tms9995CpuAgent β κ) : Except Panic (Tms9995CpuAgent β κ) :=
  if a.extHalt then .ok a else (upTo (tms9995Round bus cru rounds) maxInst a).map Prod.snd

/-- `set_halt` -/
def setHalt (flag : Bool) (a : Tms9995CpuAgent β κ) : Tms9995CpuAgent β κ :=
  let a := { a with extHalt := flag }
  if flag then { a with core := stayIdle a.core } else a

/-- `is_halted` -/
def isHalted (a : Tms9995CpuAgent β κ) : Bool := a.extHalt || a.core.idle

/-- The registers, the memory, the CRU and the pending interrupts, without the idle bit. -/
def seen (a : Tms9995CpuAgent β κ) : Core β κ × Option PendingIrq :=
  ({ a.core with idle := false }, a.pendingIrq)

/-- A call of `n` instructions returns and is not stopped before its last one. -/
structure Whole (n : Nat) (a : Tms9995CpuAgent β κ) : Prop where
  free : a.extHalt = false
  goesOn : ∃ b, upTo (tms9995Round bus cru rounds) (n - 1) a = .ok (true, b)
  returns : ∃ b, runSlice bus cru rounds n a = .ok b

/-- The agent as a machine that runs in slices -/
def machine : Machine (Tms9995CpuAgent β κ) Panic where
  runSlice := runSlice bus cru rounds
  setHalt := setHalt
  isHalted := isHalted

end Tms9995CpuAgent

end Tms9995Agent

section Mn1613Cuts

open EmuRs.Mn1613 (Core ExecStatus)

variable {σ : Type} {parts : Mn1613Parts σ} {m n : Nat} {a b : Mn1613CpuAgent σ}

theorem mn1613Round_goesOn (h : mn1613Round parts a = .ok (true, b)) :
    b.extHalt = false ∧ (b.core.execStatus = .running ∨ b.core.execStatus = .idle) := by
  unfold mn1613Round at h
  split at h
  · cases h
  · next s _ =>
      by_cases hstop : s.execStatus = .halted ∨ s.execStatus = .brk ∨ s.execStatus = .step
      · rw [if_pos hstop] at h
        cases h
      · rw [if_neg hstop] at h
        cases hext : a.extHalt with
        | true =>
            rw [hext, if_pos rfl] at h
            cases h
        | false =>
            rw [hext, if_neg Bool.false_ne_true] at h
            cases h
            refine ⟨rfl, ?_⟩
            cases hstatus : s.execStatus <;> simp_all

theorem limit_pos (h : 0 < n) : limit n = n := if_neg (Nat.ne_of_gt h)

theorem Mn1613CpuAgent.runSlice_free (hfree : a.extHalt = false) (h : 0 < n) :
    Mn1613CpuAgent.runSlice parts n a = (upTo (mn1613Round parts) n a).map Prod.snd := by
  rw [runSlice, hfree, if_neg Bool.false_ne_true, limit_pos h]

/-- A pause in a run leaves `Running` or `Idle` as `Running`. -/
theorem Mn1613CpuAgent.pause_free (hfree : a.extHalt = false) :
    (Mn1613CpuAgent.machine parts).pause a =
      { a with core := { a.core with execStatus := .running } } := by
  obtain ⟨core, ext⟩ := a
  cases hfree
  rfl

theorem handOver_withStatus (s : Core σ) (status : ExecStatus) :
    handOver parts { s with execStatus := status } =
      { handOver parts s with execStatus := status } := by
  unfold handOver triggerInterrupt
  dsimp only
  split
  · split <;> rfl
  · rfl

theorem handOver_execStatus (s : Core σ) : (handOver parts s).execStatus = s.execStatus := by
  unfold handOver triggerInterrupt
  dsimp only
  split
  · split <;> rfl
  · rfl

theorem awaken_status {s : Core σ} (h : s.execStatus = .running ∨ s.execStatus = .idle) :
    awaken s = { s with execStatus := .running } := by
  unfold awaken
  rcases h with h | h
  · rw [h, if_neg (by decide), ← h]
  · rw [h, if_pos rfl]

/-- Whether the status is `Running` or `Idle` makes no difference to a turn. -/
theorem mn1613Round_running (h : a.core.execStatus = .running ∨ a.core.execStatus = .idle) :
    mn1613Round parts { a with core := { a.core with execStatus := .running } } =
      mn1613Round parts a := by
  have hawake : awaken (handOver parts { a.core with execStatus := .running }) =
      awaken (handOver parts a.core) := by
    rw [handOver_withStatus, awaken_status (.inl rfl), awaken_status]
    rwa [handOver_execStatus]
  unfold mn1613Round
  rw [hawake]

theorem Mn1613CpuAgent.cuts : (machine parts).Cuts (Whole parts) where
  cut := by
    intro m n a hm hn hwhole
    obtain ⟨hfree, hrun, c, hc⟩ := hwhole
    have hsum : m + n - 1 = m + (n - 1) := by omega
    rw [hsum] at hc
    obtain ⟨b, hfirst, hrest⟩ := upTo_split hc
    have hb : b.extHalt = false ∧ (b.core.execStatus = .running ∨ b.core.execStatus = .idle) :=
      upTo_keeps (P := fun b => b.extHalt = false ∧
        (b.core.execStatus = .running ∨ b.core.execStatus = .idle))
        (fun _ _ _ h => mn1613Round_goesOn h) ⟨hfree, hrun⟩ hfirst
    refine ⟨b, ?_, ⟨hb.1, hb.2, c, hrest⟩, ?_⟩
    · exact (runSlice_free hfree hm).trans (congrArg (Except.map Prod.snd) hfirst)
    · refine (runSlice_free hfree (Nat.add_pos_left hm n)).trans ?_
      rw [upTo_add hfirst]
      exact (runSlice_free hb.1 hn).symm

theorem Mn1613CpuAgent.harmless : (machine parts).Harmless (Whole parts) (seen (σ := σ)) where
  whole := by
    intro n a hn hwhole
    obtain ⟨hfree, hrun, c, hc⟩ := hwhole
    rw [pause_free hfree]
    refine ⟨hfree, .inl rfl, ?_⟩
    cases hn' : n - 1 with
    | zero => exact ⟨_, rfl⟩
    | succ m =>
        rw [hn', upTo] at hc
        refine ⟨c, ?_⟩
        rw [upTo, mn1613Round_running hrun]
        exact hc
  same := by
    intro n a hn hwhole
    obtain ⟨m, rfl⟩ := Nat.exists_eq_succ_of_ne_zero (Nat.ne_of_gt hn)
    rw [pause_free hwhole.free]
    have hturn : mn1613Round parts { a with core := { a.core with execStatus := .running } } =
        mn1613Round parts a := mn1613Round_running hwhole.running
    change runSlice parts (m + 1) _ = runSlice parts (m + 1) a
    rw [runSlice_free hwhole.free hn, runSlice_free (by exact hwhole.free) hn, upTo, upTo, hturn]
  seen := fun _ => rfl
  going := fun _ => rfl

end Mn1613Cuts

section Tms9995Cuts

open EmuRs.Tms9995 (Core Tms9995Bus Tms9995Cru StepResult)

variable {β κ : Type} {bus : Tms9995Bus β} {cru : Tms9995Cru κ} {rounds m n : Nat}
  {a b : Tms9995CpuAgent β κ}

namespace Tms9995CpuAgent

theorem runSlice_free (hfree : a.extHalt = false) :
    runSlice bus cru rounds n a = (upTo (tms9995Round bus cru rounds) n a).map Prod.snd := by
  rw [runSlice, hfree, if_neg Bool.false_ne_true]

theorem tms9995Round_goesOn (h : tms9995Round bus cru rounds a = .ok (true, b)) :
    b.extHalt = false := by
  unfold tms9995Round at h
  dsimp only at h
  split at h
  · cases h
  · cases h
  · cases h
  · cases hext : a.extHalt with
    | true =>
        rw [hext, if_pos rfl] at h
        cases h
    | false =>
        rw [hext, if_neg Bool.false_ne_true] at h
        cases h
        rfl

theorem cuts : (machine bus cru rounds).Cuts (Whole bus cru rounds) where
  cut := by
    intro m n a hm hn hwhole
    obtain ⟨hfree, ⟨c, hc⟩, d, hd⟩ := hwhole
    have hsum : m + n - 1 = m + (n - 1) := by omega
    rw [hsum] at hc
    obtain ⟨b, hfirst, hrest⟩ := upTo_split hc
    have hb : b.extHalt = false :=
      upTo_keeps (P := fun b => b.extHalt = false) (fun _ _ _ h => tms9995Round_goesOn h) hfree
        hfirst
    have hcall : runSlice bus cru rounds (m + n) a = runSlice bus cru rounds n b := by
      rw [runSlice_free hfree, runSlice_free hb, upTo_add hfirst]
    refine ⟨b, ?_, ⟨hb, ⟨c, hrest⟩, d, hcall.symm.trans hd⟩, hcall⟩
    exact (runSlice_free hfree).trans (congrArg (Except.map Prod.snd) hfirst)

/-- The idle bit that a halt sets is never cleared by `set_halt(false)`. -/
theorem pause_halted (a : Tms9995CpuAgent β κ) :
    (machine bus cru rounds).isHalted ((machine bus cru rounds).pause a) = true := rfl

/-- A TMS9995 that was halted executes nothing until `hshk_exec` or a reset. -/
theorem runSlice_idle (h : a.core.idle = true) :
    ∃ irq, runSlice bus cru rounds n a = .ok { a with pendingIrq := irq } := by
  obtain ⟨core, irq, ext⟩ := a
  cases ext with
  | true => exact ⟨irq, rfl⟩
  | false =>
      rw [runSlice_free rfl]
      cases n with
      | zero => exact ⟨irq, rfl⟩
      | succ n =>
          refine ⟨none, ?_⟩
          have hstep : (Tms9995.step bus cru rounds).run core = .ok (.ok .idle, core) := by
            unfold Tms9995.step
            rw [run_bind_ok (m := get) rfl, if_pos h]
            rfl
          rw [upTo, tms9995Round, hstep]
          rfl

end Tms9995CpuAgent

end Tms9995Cuts

section Halting

/-- While halted, no slice executes an instruction. -/
theorem mn1613_halted {σ : Type} (parts : Mn1613Parts σ) (n : Nat) (a : Mn1613CpuAgent σ) :
    Mn1613CpuAgent.runSlice parts n (a.setHalt true) = .ok (a.setHalt true) := rfl

theorem tms9995_halted {β κ : Type} (bus : Tms9995.Tms9995Bus β) (cru : Tms9995.Tms9995Cru κ)
    (rounds n : Nat) (a : Tms9995CpuAgent β κ) :
    Tms9995CpuAgent.runSlice bus cru rounds n (a.setHalt true) = .ok (a.setHalt true) := rfl

/-- Cutting and halting are invisible on both agents: a call of `n` instructions that reaches its
last one leaves the same state when it is cut, execution continues after every pause, and nothing is
executed while halted. -/
structure HaltsInvisibly : Prop where
  mn1613 : ∀ (σ : Type) (parts : Mn1613Parts σ) (a : Mn1613CpuAgent σ) (cmds : List Cmd),
    Proper cmds → 0 < instructions cmds → a.Whole parts (instructions cmds) →
    (Mn1613CpuAgent.machine parts).Invisible Mn1613CpuAgent.seen cmds a
  tms9995 : ∀ (β κ : Type) (bus : Tms9995.Tms9995Bus β) (cru : Tms9995.Tms9995Cru κ)
    (rounds : Nat) (a : Tms9995CpuAgent β κ) (cmds : List Cmd),
    Proper cmds → 0 < instructions cmds → a.Whole bus cru rounds (instructions cmds) →
    (Tms9995CpuAgent.machine bus cru rounds).Invisible Tms9995CpuAgent.seen cmds a
  mn1613Halted : ∀ (σ : Type) (parts : Mn1613Parts σ) (n : Nat) (a : Mn1613CpuAgent σ),
    Mn1613CpuAgent.runSlice parts n (a.setHalt true) = .ok (a.setHalt true)
  tms9995Halted : ∀ (β κ : Type) (bus : Tms9995.Tms9995Bus β) (cru : Tms9995.Tms9995Cru κ)
    (rounds n : Nat) (a : Tms9995CpuAgent β κ),
    Tms9995CpuAgent.runSlice bus cru rounds n (a.setHalt true) = .ok (a.setHalt true)

/-- A TMS9995 in a memory full of `JMP $` -/
def jumping : Tms9995CpuAgent (Tms9995.U16 → Tms9995.U8) Unit where
  core :=
    { pc := 0
      wp := 0x0100
      st := 0
      idle := false
      mem := fun addr => if addr.getLsbD 0 then 0xff else 0x10
      cru := () }
  pendingIrq := none
  extHalt := false

theorem jumping_whole : jumping.Whole tms9995Ram emptyCru 1 1 :=
  ⟨rfl, ⟨jumping, rfl⟩, ⟨_, rfl⟩⟩

end Halting

end EmuRs
end RetroCpu
