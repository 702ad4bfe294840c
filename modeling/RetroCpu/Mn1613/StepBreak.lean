import RetroCpu.Lib.Countdown

/-!
# The step-break unit in both emulators

`step_break.ts` and `step_run.rs` are the same one-shot down-counter.  The TypeScript core
signals the first word of an instruction, at the head of `_executeOne`; the Rust core signals
through the memory hook of `System`, which sees every word that `fetch` reads.
-/

namespace RetroCpu
namespace Mn1613
namespace StepBreak

open Countdown

abbrev U8 := BitVec 8
abbrev U16 := BitVec 16

section Unit

def IO_PORT_STEP_ENA : U16 := 0x0036
def IO_PORT_STEP_DELAY : U16 := 0x0037
def STEP_BRK_DELAY_1STEP : U8 := 0x01

/-- `StepBreakUnit`; the counters are kept in 8 bits in both languages. -/
structure StepBreakUnit where
  ena : U8
  delay : U8
  remaining : U8
  skipFirstFetch : Bool
deriving DecidableEq, Repr

/-- A new unit. -/
def initial : StepBreakUnit where
  ena := 0
  delay := STEP_BRK_DELAY_1STEP
  remaining := 0
  skipFirstFetch := false

/-- `reset` -/
def reset (_ : StepBreakUnit) : StepBreakUnit := initial

/-- `onInstructionFetch`, and whether it raises the break. -/
def onInstructionFetch (u : StepBreakUnit) : Bool × StepBreakUnit :=
  if u.ena = 0 then (false, u)
  else if u.skipFirstFetch then (false, { u with skipFirstFetch := false })
  else
    let u := if 0 < u.remaining then { u with remaining := u.remaining - 1 } else u
    if u.remaining = 0 then (true, { u with ena := 0 }) else (false, u)

/-- `writePort` -/
def writePort (u : StepBreakUnit) (port val : U16) : Bool × StepBreakUnit :=
  let p := port &&& 0xffff
  let v := val &&& 0xffff
  if p = IO_PORT_STEP_ENA then
    let u := { u with ena := (v &&& 1).setWidth 8 }
    if u.ena ≠ 0 then (true, { u with remaining := u.delay + 1, skipFirstFetch := true })
    else (true, { u with remaining := 0, skipFirstFetch := false })
  else if p = IO_PORT_STEP_DELAY then (true, { u with delay := (v &&& 0xff).setWidth 8 })
  else (false, u)

end Unit

section Signals

/-- A memory access as the hook of the Rust system sees it. -/
structure MemAccessEvent where
  fetch : Bool
deriving DecidableEq, Repr

/-- The hook of the Rust system: `fetch` reads are passed on to the unit. -/
def memHook (u : StepBreakUnit) (ev : MemAccessEvent) : Bool × StepBreakUnit :=
  if ev.fetch then onInstructionFetch u else (false, u)

/-- The accesses of some words or data, one after the other. -/
def memHooks (ev : MemAccessEvent) : Nat → StepBreakUnit → Bool × StepBreakUnit
  | 0, u => (false, u)
  | n + 1, u =>
      ((memHook u ev).1 || (memHooks ev n (memHook u ev).2).1, (memHooks ev n (memHook u ev).2).2)

inductive Emulator where
  | ts
  | rs
deriving DecidableEq, Repr

/-- What happens to the unit: an instruction with words behind its first one and with data
accesses, a write to a port, a reset. -/
inductive Event where
  | instruction (extra data : Nat)
  | write (port val : U16)
  | reset
deriving DecidableEq, Repr

/-- One instruction, and whether the break is raised in it. -/
def instruction (e : Emulator) (extra data : Nat) (u : StepBreakUnit) : Bool × StepBreakUnit :=
  match e with
  | .ts => onInstructionFetch u
  | .rs =>
      let words := memHooks ⟨true⟩ (extra + 1) u
      let accesses := memHooks ⟨false⟩ data words.2
      (words.1 || accesses.1, accesses.2)

/-- The unit behind an event. -/
def step (e : Emulator) (u : StepBreakUnit) : Event → StepBreakUnit
  | .instruction extra data => (instruction e extra data u).2
  | .write port val => (writePort u port val).2
  | .reset => reset u

/-- The unit behind some events. -/
def after (e : Emulator) (u : StepBreakUnit) (events : List Event) : StepBreakUnit :=
  events.foldl (step e) u

/-- For each instruction of a run, whether the break is raised in it. -/
def raises (e : Emulator) : StepBreakUnit → List Event → List Bool
  | _, [] => []
  | u, .instruction extra data :: events =>
      (instruction e extra data u).1 :: raises e (instruction e extra data u).2 events
  | u, .write port val :: events => raises e (writePort u port val).2 events
  | u, .reset :: events => raises e (reset u) events

/-- The words of each instruction of a run. -/
def words : List Event → List Nat
  | [] => []
  | .instruction extra _ :: events => (extra + 1) :: words events
  | .write _ _ :: events => words events
  | .reset :: events => words events

/-- The unit stays armed: no access to the enable latch and no reset. -/
def Event.KeepsArmed : Event → Prop
  | .instruction _ _ => True
  | .write port _ => port ≠ IO_PORT_STEP_ENA
  | .reset => False

instance Event.KeepsArmed.decidable : (event : Event) → Decidable event.KeepsArmed
  | .instruction _ _ => .isTrue trivial
  | .write port _ => inferInstanceAs (Decidable (port ≠ _))
  | .reset => .isFalse id

/-- The unit is armed: an odd word is written to the enable latch. -/
def arm (u : StepBreakUnit) (v : U16) : StepBreakUnit := (writePort u IO_PORT_STEP_ENA (v ||| 1)).2

end Signals

section Countdown

variable {u : StepBreakUnit}

/-- The fetch signals that an armed unit lets pass. -/
def left (u : StepBreakUnit) : Option Nat :=
  if u.ena = 0 then none
  else if u.skipFirstFetch then some (max 1 u.remaining.toNat)
  else some (u.remaining.toNat - 1)

/-- The unit is a countdown of fetch signals. -/
theorem fetch_signal (u : StepBreakUnit) :
    (onInstructionFetch u).1 = (signal (left u)).1 ∧
      left (onInstructionFetch u).2 = (signal (left u)).2 := by
  have hlt := u.remaining.isLt
  by_cases hena : u.ena = 0
  · rw [onInstructionFetch, if_pos hena, left, if_pos hena]
    exact ⟨rfl, rfl⟩
  rw [onInstructionFetch, if_neg hena, left, if_neg hena]
  by_cases hskip : u.skipFirstFetch = true
  · obtain ⟨k, hk⟩ : ∃ k, max 1 u.remaining.toNat = k + 1 := ⟨max 1 u.remaining.toNat - 1, by omega⟩
    rw [if_pos hskip, if_pos hskip, hk, left, if_neg hena]
    refine ⟨rfl, congrArg some ?_⟩
    simp only
    omega
  · rw [if_neg hskip, if_neg hskip]
    have hnew : (if 0 < u.remaining then { u with remaining := u.remaining - 1 } else u) =
        { u with remaining := BitVec.ofNat 8 (u.remaining.toNat - 1) } := by
      simp only [BitVec.lt_def]
      split_ifs with hpos
      · congr 1
        apply BitVec.eq_of_toNat_eq
        have hzero : (0 : U8).toNat = 0 := rfl
        have hone : (1 : U8).toNat = 1 := rfl
        rw [BitVec.toNat_sub, BitVec.toNat_ofNat, hone]
        omega
      · have hzero : (0 : U8).toNat = 0 := rfl
        have hnone : u.remaining.toNat - 1 = u.remaining.toNat := by omega
        rw [hnone, BitVec.ofNat_toNat, BitVec.setWidth_eq]
    have hval : (BitVec.ofNat 8 (u.remaining.toNat - 1)).toNat = u.remaining.toNat - 1 :=
      Nat.mod_eq_of_lt (by omega)
    rw [hnew]
    dsimp only
    rcases hleft : u.remaining.toNat - 1 with _ | k
    · exact ⟨rfl, rfl⟩
    · rw [hleft] at hval
      have hne : BitVec.ofNat 8 (k + 1) ≠ 0 := by
        intro h
        rw [h] at hval
        exact absurd hval (Nat.zero_ne_add_one k)
      rw [if_neg hne, left, if_neg hena, if_neg hskip]
      exact ⟨rfl, congrArg some (congrArg (· - 1) hval)⟩

theorem writePort_left (u : StepBreakUnit) {port : U16} (h : port ≠ IO_PORT_STEP_ENA) (val : U16) :
    left (writePort u port val).2 = left u := by
  have hmask : port &&& 0xffff = port := BitVec.and_allOnes
  unfold writePort
  rw [hmask]
  dsimp only
  rw [if_neg h]
  split_ifs <;> rfl

theorem arm_left (u : StepBreakUnit) (v : U16) :
    left (arm u v) = some (if u.delay.toNat = 255 then 1 else u.delay.toNat + 1) := by
  have hlt := u.delay.isLt
  have hena : ((((v ||| 1) &&& 0xffff) &&& 1).setWidth 8 : U8) = 1 := by
    apply BitVec.eq_of_getLsbD_eq
    intro i hi
    rcases Nat.eq_zero_or_pos i with rfl | hpos
    · simp
    · simp [hpos.ne']
  have harm : arm u v = { u with ena := 1, remaining := u.delay + 1, skipFirstFetch := true } := by
    unfold arm writePort
    simp only [hena]
    rfl
  have hone : (1 : U8).toNat = 1 := rfl
  rw [harm, left, if_neg (show (1 : U8) ≠ 0 by decide), if_pos rfl]
  refine congrArg some ?_
  rw [BitVec.toNat_add, hone]
  split_ifs with hmax <;> omega

/-- The fetch signals of an instruction. -/
def Emulator.signals : Emulator → Nat → Nat
  | .ts, _ => 1
  | .rs, words => words

theorem memHooks_fetch (n : Nat) (u : StepBreakUnit) :
    (memHooks ⟨true⟩ n u).1 = (Countdown.signals n (left u)).1 ∧
      left (memHooks ⟨true⟩ n u).2 = (Countdown.signals n (left u)).2 := by
  induction n generalizing u with
  | zero => exact ⟨rfl, rfl⟩
  | succ n ih =>
      obtain ⟨hraised, hleft⟩ := fetch_signal u
      obtain ⟨hrest, hleft'⟩ := ih (memHook u ⟨true⟩).2
      have hhook : memHook u ⟨true⟩ = onInstructionFetch u := rfl
      rw [memHooks, Countdown.signals, hrest, hleft', hhook, hraised, hleft]
      exact ⟨rfl, rfl⟩

theorem memHooks_data (n : Nat) (u : StepBreakUnit) : memHooks ⟨false⟩ n u = (false, u) := by
  induction n with
  | zero => rfl
  | succ n ih =>
      have hhook : memHook u ⟨false⟩ = (false, u) := rfl
      rw [memHooks, hhook, ih]
      rfl

theorem instruction_signals (e : Emulator) (extra data : Nat) (u : StepBreakUnit) :
    (instruction e extra data u).1 = (Countdown.signals (e.signals (extra + 1)) (left u)).1 ∧
      left (instruction e extra data u).2 =
        (Countdown.signals (e.signals (extra + 1)) (left u)).2 := by
  cases e with
  | ts =>
      obtain ⟨hraised, hleft⟩ := fetch_signal u
      refine ⟨hraised.trans ?_, hleft⟩
      exact (Bool.or_false _).symm
  | rs =>
      obtain ⟨hraised, hleft⟩ := memHooks_fetch (extra + 1) u
      simp only [instruction, memHooks_data, Bool.or_false]
      exact ⟨hraised, hleft⟩

/-- While the unit stays armed, the breaks of a run are those of the countdown. -/
theorem raises_eq (e : Emulator) {events : List Event} (h : ∀ event ∈ events, event.KeepsArmed)
    (u : StepBreakUnit) : raises e u events = flags ((words events).map e.signals) (left u) := by
  induction events generalizing u with
  | nil => rfl
  | cons event events ih =>
      have hevent := h event List.mem_cons_self
      have hrest := ih fun other hother => h other (List.mem_cons_of_mem event hother)
      cases event with
      | instruction extra data =>
          obtain ⟨hraised, hleft⟩ := instruction_signals e extra data u
          rw [raises, hrest, words, List.map_cons, flags, hraised, hleft]
      | write port val => rw [raises, hrest, words, writePort_left u hevent]
      | reset => exact hevent.elim

end Countdown

section Runs

/-- The delay latch changes with writes and resets only. -/
theorem onInstructionFetch_delay (u : StepBreakUnit) : (onInstructionFetch u).2.delay = u.delay := by
  unfold onInstructionFetch
  dsimp only
  split_ifs <;> rfl

theorem memHooks_delay (ev : MemAccessEvent) (n : Nat) (u : StepBreakUnit) :
    (memHooks ev n u).2.delay = u.delay := by
  induction n generalizing u with
  | zero => rfl
  | succ n ih =>
      rw [memHooks, ih]
      unfold memHook
      split_ifs
      · exact onInstructionFetch_delay u
      · rfl

theorem instruction_delay (e : Emulator) (extra data : Nat) (u : StepBreakUnit) :
    (instruction e extra data u).2.delay = u.delay := by
  cases e with
  | ts => exact onInstructionFetch_delay u
  | rs => exact (memHooks_delay _ _ _).trans (memHooks_delay _ _ _)

theorem writePort_delay {u v : StepBreakUnit} (h : u.delay = v.delay) (port val : U16) :
    (writePort u port val).2.delay = (writePort v port val).2.delay := by
  unfold writePort
  dsimp only
  split_ifs <;> first | exact h | rfl

/-- Both emulators hold the same delay behind the same events. -/
theorem after_delay {u v : StepBreakUnit} (h : u.delay = v.delay) (events : List Event) :
    (after .ts u events).delay = (after .rs v events).delay := by
  induction events generalizing u v with
  | nil => exact h
  | cons event events ih =>
      refine ih ?_
      cases event with
      | instruction extra data =>
          exact (instruction_delay .ts extra data u).trans
            (h.trans (instruction_delay .rs extra data v).symm)
      | write port val => exact writePort_delay h port val
      | reset => rfl

/-- The unit of an emulator is armed by an odd word behind some events with delay `d`, and the
break is raised in instruction `d + 1`, counted from 0, of the events that follow and in no
other one. -/
def BreaksOnce (e : Emulator) (before : List Event) (v : U16) (events : List Event) : Prop :=
  RaisesAt (raises e (arm (after e initial before) v) events)
    ((after e initial before).delay.toNat + 1)

/-- The instructions up to the break have a single word each; with delay 255, hardly an
instruction follows. -/
def Counts (d : Nat) (rounds : List Nat) : Prop :=
  if d = 255 then rounds.sum ≤ 1 else (rounds.take (d + 1)).sum ≤ d + 1

instance (d : Nat) (rounds : List Nat) : Decidable (Counts d rounds) :=
  inferInstanceAs
    (Decidable (if d = 255 then rounds.sum ≤ 1 else (rounds.take (d + 1)).sum ≤ d + 1))

theorem words_pos {events : List Event} : ∀ n ∈ words events, 0 < n := by
  induction events with
  | nil => exact fun n hn => absurd hn List.not_mem_nil
  | cons event events ih =>
      cases event with
      | instruction extra data =>
          intro n hn
          rcases List.mem_cons.mp hn with rfl | hn
          · exact Nat.succ_pos extra
          · exact ih n hn
      | write port val => exact ih
      | reset => exact ih

theorem signals_pos (e : Emulator) (events : List Event) :
    ∀ n ∈ (words events).map e.signals, 0 < n := by
  intro n hn
  obtain ⟨m, hm, rfl⟩ := List.mem_map.mp hn
  cases e with
  | ts => exact Nat.one_pos
  | rs => exact words_pos m hm

theorem ts_signals_sum (rounds : List Nat) : (rounds.map Emulator.ts.signals).sum = rounds.length := by
  induction rounds with
  | nil => rfl
  | cons n rounds ih =>
      rw [List.map_cons, List.sum_cons, ih, List.length_cons]
      exact Nat.add_comm 1 _

theorem rs_signals (rounds : List Nat) : rounds.map Emulator.rs.signals = rounds :=
  List.map_id rounds

/-- When the break of an emulator comes once, in the right instruction. -/
theorem breaksOnce_iff (e : Emulator) (before : List Event) (v : U16) {events : List Event}
    (h : ∀ event ∈ events, event.KeepsArmed) :
    BreaksOnce e before v events ↔
      Counts (after e initial before).delay.toNat ((words events).map e.signals) := by
  unfold BreaksOnce Counts
  rw [raises_eq e h, arm_left]
  split_ifs with hmax
  · rw [hmax]
    exact raisesAt_one (signals_pos e events) (by omega)
  · exact raisesAt_left (signals_pos e events) _

theorem counts_ts {d : Nat} {rounds : List Nat} (hpos : ∀ n ∈ rounds, 0 < n)
    (h : Counts d rounds) : Counts d (rounds.map Emulator.ts.signals) := by
  unfold Counts at *
  split_ifs at * with hmax
  · rw [ts_signals_sum]
    have hmin := le_sum_take hpos (Nat.le_refl _)
    rw [List.take_length] at hmin
    omega
  · rw [← List.map_take, ts_signals_sum, List.length_take]
    exact Nat.min_le_left _ _

/-- In every run, behind every arming, both emulators break once and in the right instruction
exactly when the instructions up to the break have a single word each and the delay is not 255,
or the run is over before. -/
theorem step_break_once (before : List Event) (v : U16) (events : List Event)
    (h : ∀ event ∈ events, event.KeepsArmed) :
    (BreaksOnce .ts before v events ∧ BreaksOnce .rs before v events) ↔
      Counts (after .ts initial before).delay.toNat (words events) := by
  have hdelay : (after .ts initial before).delay = (after .rs initial before).delay :=
    after_delay rfl before
  rw [breaksOnce_iff .ts before v h, breaksOnce_iff .rs before v h, ← hdelay, rs_signals]
  exact ⟨fun hboth => hboth.2, fun hcounts => ⟨counts_ts words_pos hcounts, hcounts⟩⟩

/-- Delay 2, three instructions of one word and one of two words. -/
theorem step_break_once_two :
    BreaksOnce .ts [.write IO_PORT_STEP_DELAY 2] 1
        [.instruction 0 1, .instruction 0 0, .instruction 0 2, .instruction 1 0] ∧
      BreaksOnce .rs [.write IO_PORT_STEP_DELAY 2] 1
        [.instruction 0 1, .instruction 0 0, .instruction 0 2, .instruction 1 0] :=
  (step_break_once [.write IO_PORT_STEP_DELAY 2] 1
    [.instruction 0 1, .instruction 0 0, .instruction 0 2, .instruction 1 0] (by decide)).mpr
    (by decide)

/-- With delay 1 the Rust emulator breaks in the third instruction of one word, but in the second
one where the first has two words; and both emulators break in the second instruction with
delay 255 as well as with delay 0. -/
theorem breaks_early :
    raises .rs (arm (after .rs initial [.write IO_PORT_STEP_DELAY 1]) 1)
        [.instruction 0 0, .instruction 0 0, .instruction 0 0] = [false, false, true] ∧
      raises .rs (arm (after .rs initial [.write IO_PORT_STEP_DELAY 1]) 1)
        [.instruction 1 0, .instruction 0 0, .instruction 0 0] = [false, true, false] ∧
      raises .ts (arm (after .ts initial [.write IO_PORT_STEP_DELAY 0]) 1)
        [.instruction 0 0, .instruction 0 0, .instruction 0 0] = [false, true, false] ∧
      raises .ts (arm (after .ts initial [.write IO_PORT_STEP_DELAY 255]) 1)
        [.instruction 0 0, .instruction 0 0, .instruction 0 0] = [false, true, false] := by
  decide

end Runs

end StepBreak
end Mn1613
end RetroCpu
