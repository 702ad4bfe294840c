/-!
# Runs that are cut into slices

A run of `n` rounds can be asked for in one call or in several, and between two calls the machine
can be halted and set going again.  `Invisible` says that nobody can tell.
-/

namespace RetroCpu
namespace Slices

section Rounds

variable {A ε : Type} {round : A → Except ε (Bool × A)} {a b : A} {m n : Nat}

/-- At most `n` rounds; a round says whether there is a next one. -/
def upTo (round : A → Except ε (Bool × A)) : Nat → A → Except ε (Bool × A)
  | 0, a => .ok (true, a)
  | n + 1, a =>
      match round a with
      | .error why => .error why
      | .ok (false, b) => .ok (false, b)
      | .ok (true, b) => upTo round n b

theorem upTo_succ (h : round a = .ok (true, b)) : upTo round (n + 1) a = upTo round n b := by
  rw [upTo, h]

/-- A loop that was not stopped goes on where it was. -/
theorem upTo_add (h : upTo round m a = .ok (true, b)) :
    upTo round (m + n) a = upTo round n b := by
  induction m generalizing a with
  | zero =>
      cases h
      rw [Nat.zero_add]
  | succ m ih =>
      rw [Nat.succ_add]
      rw [upTo] at h ⊢
      cases hround : round a with
      | error why =>
          rw [hround] at h
          cases h
      | ok result =>
          rw [hround] at h
          obtain ⟨goesOn, c⟩ := result
          cases goesOn with
          | false => cases h
          | true => exact ih h

/-- A loop that is not stopped in `m + n` rounds is not stopped in `m`. -/
theorem upTo_split (h : upTo round (m + n) a = .ok (true, b)) :
    ∃ c, upTo round m a = .ok (true, c) ∧ upTo round n c = .ok (true, b) := by
  induction m generalizing a with
  | zero =>
      rw [Nat.zero_add] at h
      exact ⟨a, rfl, h⟩
  | succ m ih =>
      rw [Nat.succ_add, upTo] at h
      rw [upTo]
      cases hround : round a with
      | error why =>
          rw [hround] at h
          cases h
      | ok result =>
          rw [hround] at h
          obtain ⟨goesOn, c⟩ := result
          cases goesOn with
          | false => cases h
          | true => exact ih h

/-- What a round keeps, the loop keeps. -/
theorem upTo_keeps {P : A → Prop} (hround : ∀ a b, P a → round a = .ok (true, b) → P b) (ha : P a)
    (h : upTo round n a = .ok (true, b)) : P b := by
  induction n generalizing a with
  | zero =>
      cases h
      exact ha
  | succ n ih =>
      rw [upTo] at h
      cases hr : round a with
      | error why =>
          rw [hr] at h
          cases h
      | ok result =>
          rw [hr] at h
          obtain ⟨goesOn, c⟩ := result
          cases goesOn with
          | false => cases h
          | true => exact ih (hround a c ha hr) h

end Rounds

section Cuts

/-- What is asked of a machine: a slice, or to halt and go on. -/
inductive Cmd
  | slice (n : Nat)
  | pause

/-- The instructions that are asked for. -/
def instructions : List Cmd → Nat
  | [] => 0
  | .slice n :: cmds => n + instructions cmds
  | .pause :: cmds => instructions cmds

/-- No slice is empty. -/
def Proper : List Cmd → Prop
  | [] => True
  | .slice n :: cmds => 0 < n ∧ Proper cmds
  | .pause :: cmds => Proper cmds

/-- A machine that runs in slices. -/
structure Machine (A ε : Type) where
  runSlice : Nat → A → Except ε A
  setHalt : Bool → A → A
  isHalted : A → Bool

variable {A V ε : Type} (M : Machine A ε)

/-- `set_halt(true)`, `set_halt(false)` -/
def Machine.pause (a : A) : A := M.setHalt false (M.setHalt true a)

def Machine.run : List Cmd → A → Except ε A
  | [], a => .ok a
  | .slice n :: cmds, a => M.runSlice n a >>= Machine.run cmds
  | .pause :: cmds, a => Machine.run cmds (M.pause a)

/-- Execution continues after every pause. -/
def Machine.Continues : List Cmd → A → Prop
  | [], _ => True
  | .slice n :: cmds, a => ∀ b, M.runSlice n a = .ok b → Machine.Continues cmds b
  | .pause :: cmds, a => M.isHalted (M.pause a) = false ∧ Machine.Continues cmds (M.pause a)

/-- The commands lead where one call leads, as far as `view` shows, and execution continues after
every pause. -/
structure Machine.Invisible (view : A → V) (cmds : List Cmd) (a : A) : Prop where
  same : (M.run cmds a).map view = (M.runSlice (instructions cmds) a).map view
  continues : M.Continues cmds a

/-- The states in which a call of `n` instructions can be cut: `Whole n a` says that it is not
stopped before its last instruction. -/
structure Machine.Cuts (Whole : Nat → A → Prop) : Prop where
  cut : ∀ {m n a}, 0 < m → 0 < n → Whole (m + n) a →
    ∃ b, M.runSlice m a = .ok b ∧ Whole n b ∧ M.runSlice (m + n) a = M.runSlice n b

/-- A pause that changes no later call and nothing that is seen at the end. -/
structure Machine.Harmless (Whole : Nat → A → Prop) (view : A → V) : Prop where
  whole : ∀ {n a}, 0 < n → Whole n a → Whole n (M.pause a)
  same : ∀ {n a}, 0 < n → Whole n a → M.runSlice n (M.pause a) = M.runSlice n a
  seen : ∀ a, view (M.pause a) = view a
  going : ∀ a, M.isHalted (M.pause a) = false

variable {M} {Whole : Nat → A → Prop} {view : A → V} {cmds : List Cmd} {a : A}

/-- Nothing but pauses. -/
theorem run_pauses (hp : .pause ∈ cmds → M.Harmless Whole view) (hproper : Proper cmds)
    (h : instructions cmds = 0) (a : A) :
    (M.run cmds a).map view = .ok (view a) ∧ M.Continues cmds a := by
  induction cmds generalizing a with
  | nil => exact ⟨rfl, trivial⟩
  | cons c cmds ih =>
      cases c with
      | slice n =>
          have hpos := hproper.1
          rw [instructions] at h
          omega
      | pause =>
          have hp' := hp List.mem_cons_self
          obtain ⟨hrun, hgo⟩ := ih (fun _ => hp') hproper h (M.pause a)
          refine ⟨?_, hp'.going a, hgo⟩
          rw [Machine.run, hrun, hp'.seen]

/-- Where a call can be cut and a pause is harmless, nobody can tell. -/
theorem invisible (hc : M.Cuts Whole) (hp : .pause ∈ cmds → M.Harmless Whole view)
    (hproper : Proper cmds) (hn : 0 < instructions cmds) (h : Whole (instructions cmds) a) :
    M.Invisible view cmds a := by
  induction cmds generalizing a with
  | nil => exact absurd hn (Nat.lt_irrefl 0)
  | cons c cmds ih =>
      have hrest : .pause ∈ cmds → M.Harmless Whole view :=
        fun hmem => hp (List.mem_cons_of_mem c hmem)
      cases c with
      | pause =>
          have harmless := hp List.mem_cons_self
          have hinv := ih hrest hproper hn (harmless.whole hn h)
          refine ⟨?_, harmless.going a, hinv.continues⟩
          rw [Machine.run, hinv.same]
          exact congrArg (Except.map view) (harmless.same hn h)
      | slice m =>
          obtain ⟨hm, hproper⟩ := hproper
          rw [instructions] at h
          by_cases hzero : instructions cmds = 0
          · -- the last slice: only pauses can follow
            rw [hzero, Nat.add_zero] at h
            refine ⟨?_, fun b _ => (run_pauses hrest hproper hzero b).2⟩
            rw [Machine.run, instructions, hzero, Nat.add_zero]
            cases M.runSlice m a with
            | error why => rfl
            | ok b => exact (run_pauses hrest hproper hzero b).1
          · have hpos : 0 < instructions cmds := Nat.pos_of_ne_zero hzero
            obtain ⟨b, hslice, hwhole, hcall⟩ := hc.cut hm hpos h
            have hinv := ih hrest hproper hpos hwhole
            refine ⟨?_, fun c hrun => ?_⟩
            · rw [Machine.run, instructions, hslice, hcall]
              exact hinv.same
            · rw [hslice] at hrun
              cases hrun
              exact hinv.continues

/-- A machine that a pause stops shows each of its pauses. -/
theorem not_mem_pause (hc : M.Cuts Whole) (hstop : ∀ a, M.isHalted (M.pause a) = true)
    (hreturns : ∀ {n a}, Whole n a → ∃ b, M.runSlice n a = .ok b) (hproper : Proper cmds)
    (h : 0 < instructions cmds → Whole (instructions cmds) a) (hgo : M.Continues cmds a) :
    .pause ∉ cmds := by
  induction cmds generalizing a with
  | nil => exact List.not_mem_nil
  | cons c cmds ih =>
      cases c with
      | pause =>
          rw [Machine.Continues, hstop] at hgo
          exact absurd hgo.1 (by decide)
      | slice m =>
          obtain ⟨hm, hproper⟩ := hproper
          have hwhole := h (Nat.add_pos_left hm _)
          rw [instructions] at hwhole
          have hcmds : .pause ∉ cmds := by
            by_cases hzero : instructions cmds = 0
            · rw [hzero, Nat.add_zero] at hwhole
              obtain ⟨b, hb⟩ := hreturns hwhole
              exact ih hproper (fun hpos => absurd hzero (Nat.ne_of_gt hpos)) (hgo b hb)
            · obtain ⟨b, hb, hrest, -⟩ := hc.cut hm (Nat.pos_of_ne_zero hzero) hwhole
              exact ih hproper (fun _ => hrest) (hgo b hb)
          intro hmem
          rcases List.mem_cons.mp hmem with heq | hmem
          · cases heq
          · exact hcmds hmem

end Cuts

end Slices
end RetroCpu
