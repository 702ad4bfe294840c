import Mathlib.Logic.Relation

/-!
# Two programs on a shared state

A program makes single accesses to a shared state and waits for conditions on it.  Two
programs run in any interleaving of their accesses; nothing times out.  `Settles` says that
every interleaving ends, and ends in a state with a given property.

The rules execute one program while the other stays where it is: an access of one program
may be made first when it commutes with all that the other does on its own
(`Free`), and a condition may be passed when the other program keeps it (`Stable`).  A
program that waits for something that is not there does nothing on its own, so that both are
immediate.
-/

namespace RetroCpu
namespace Interleave

section Programs

/-- A program over the states `σ`; its waits have names `ι`, and tell the program how they
ended: not at all, or with some count.  `stop` goes on for ever without an access. -/
inductive Prog (σ ι α : Type)
  | done (a : α)
  | stop
  | access (f : σ → σ) (k : σ → Prog σ ι α)
  | wait (name : ι) (c : σ → Bool) (k : Option Nat → Prog σ ι α)

variable {σ ι κ α β γ : Type}

namespace Prog

def bind : Prog σ ι α → (α → Prog σ ι β) → Prog σ ι β
  | .done a, g => g a
  | .stop, _ => .stop
  | .access f k, g => .access f fun s => (k s).bind g
  | .wait name c k, g => .wait name c fun r => (k r).bind g

instance : Monad (Prog σ ι) where
  pure := .done
  bind := bind

@[simp] theorem pure_bind (a : α) (g : α → Prog σ ι β) : (.done a : Prog σ ι α) >>= g = g a := rfl

@[simp] theorem access_bind (f : σ → σ) (k : σ → Prog σ ι α) (g : α → Prog σ ι β) :
    .access f k >>= g = .access f fun s => k s >>= g := rfl

@[simp] theorem wait_bind (name : ι) (c : σ → Bool) (k : Option Nat → Prog σ ι α)
    (g : α → Prog σ ι β) : .wait name c k >>= g = .wait name c fun r => k r >>= g := rfl

theorem bind_assoc (p : Prog σ ι α) (g : α → Prog σ ι β) (h : β → Prog σ ι γ) :
    p >>= g >>= h = p >>= fun a => g a >>= h := by
  induction p with
  | done a => rfl
  | stop => rfl
  | access f k ih => exact congrArg (Prog.access f) (funext ih)
  | wait name c k ih => exact congrArg (Prog.wait name c) (funext ih)

theorem bind_done (p : Prog σ ι α) : p >>= Prog.done = p := by
  induction p with
  | done a => rfl
  | stop => rfl
  | access f k ih => exact congrArg (Prog.access f) (funext ih)
  | wait name c k ih => exact congrArg (Prog.wait name c) (funext ih)

instance : LawfulMonad (Prog σ ι) :=
  LawfulMonad.mk' (Prog σ ι) bind_done (fun _ _ => rfl) bind_assoc

end Prog

end Programs

section Runs

variable {σ ι κ α β : Type}

/-- One program moves on its own. -/
inductive Step : Prog σ ι α → σ → Prog σ ι α → σ → Prop
  | access {f : σ → σ} {k : σ → Prog σ ι α} {s : σ} : Step (.access f k) s (k s) (f s)
  | wait {name : ι} {c : σ → Bool} {k : Option Nat → Prog σ ι α} {s : σ} (n : Nat)
      (h : c s = true) : Step (.wait name c k) s (k (some n)) s

/-- Two programs and their state. -/
structure Pair (σ ι κ α β : Type) where
  left : Prog σ ι α
  right : Prog σ κ β
  state : σ

/-- One of the two moves. -/
inductive Joint : Pair σ ι κ α β → Pair σ ι κ α β → Prop
  | left {p p' : Prog σ ι α} {q : Prog σ κ β} {s s' : σ} (h : Step p s p' s') :
      Joint ⟨p, q, s⟩ ⟨p', q, s'⟩
  | right {p : Prog σ ι α} {q q' : Prog σ κ β} {s s' : σ} (h : Step q s q' s') :
      Joint ⟨p, q, s⟩ ⟨p, q', s'⟩

/-- Any number of moves. -/
def Runs : Pair σ ι κ α β → Pair σ ι κ α β → Prop := Relation.ReflTransGen Joint

/-- Nothing moves any more. -/
def Stuck (x : Pair σ ι κ α β) : Prop := ∀ y, ¬ Joint x y

/-- Every interleaving ends, in a state with `F`. -/
inductive Settles (F : Pair σ ι κ α β → Prop) : Pair σ ι κ α β → Prop
  | final {x : Pair σ ι κ α β} (hF : F x) (hx : Stuck x) : Settles F x
  | step {x : Pair σ ι κ α β} (h : ∃ y, Joint x y) (hall : ∀ y, Joint x y → Settles F y) :
      Settles F x

variable {F : Pair σ ι κ α β → Prop} {x y : Pair σ ι κ α β}

theorem Settles.joint (h : Settles F x) (hj : Joint x y) : Settles F y := by
  cases h with
  | final hF hx => exact absurd hj (hx y)
  | step h hall => exact hall y hj

theorem Settles.runs (h : Settles F x) (hr : Runs x y) : Settles F y := by
  induction hr with
  | refl => exact h
  | tail _ hj ih => exact ih.joint hj

/-- Where nothing moves any more, `F` holds. -/
theorem Settles.stuck (h : Settles F x) (hr : Runs x y) (hy : Stuck y) : F y := by
  cases h.runs hr with
  | final hF _ => exact hF
  | step hex _ =>
      obtain ⟨z, hz⟩ := hex
      exact absurd hz (hy z)

/-- No interleaving goes on for ever. -/
theorem Settles.acc (h : Settles F x) : Acc (fun y x => Joint x y) x := by
  induction h with
  | final hF hx =>
      constructor
      intro y hy
      exact absurd hy (hx y)
  | step _ _ ih => exact ⟨_, ih⟩

/-- Some interleaving ends. -/
theorem Settles.exists_final (h : Settles F x) : ∃ y, Runs x y ∧ Stuck y ∧ F y := by
  induction h with
  | @final x hF hx => exact ⟨x, .refl, hx, hF⟩
  | step hex _ ih =>
      obtain ⟨y, hy⟩ := hex
      obtain ⟨z, hz, hstuck, hF⟩ := ih y hy
      exact ⟨z, .head hy hz, hstuck, hF⟩

theorem Settles.mono {G : Pair σ ι κ α β → Prop} (h : Settles F x) (hFG : ∀ y, F y → G y) :
    Settles G x := by
  induction h with
  | final hF hx => exact .final (hFG _ hF) hx
  | step hex _ ih => exact .step hex ih

end Runs

section Schedule

variable {σ ι κ α β : Type}

/-- The next move of a program, if it has one. -/
def Prog.next : Prog σ ι α → σ → Option (Prog σ ι α × σ)
  | .done _, _ | .stop, _ => none
  | .access f k, s => some (k s, f s)
  | .wait _ c k, s => if c s then some (k (some 0), s) else none

theorem step_of_next {p p' : Prog σ ι α} {s s' : σ} (h : p.next s = some (p', s')) :
    Step p s p' s' := by
  cases p with
  | done a => cases h
  | stop => cases h
  | access f k =>
      cases h
      exact .access
  | wait name c k =>
      rcases hc : c s with _ | _
      · rw [Prog.next, hc] at h
        cases h
      · rw [Prog.next, hc] at h
        cases h
        exact .wait 0 hc

theorem no_step_of_next {p : Prog σ ι α} {s : σ} (h : p.next s = none) (p' : Prog σ ι α) (s' : σ) :
    ¬ Step p s p' s' := by
  intro hstep
  cases hstep with
  | access => cases h
  | wait n hc =>
      rw [Prog.next, hc] at h
      cases h

/-- The schedule in which the second program moves whenever it can. -/
def rightFirst : Nat → Pair σ ι κ α β → Pair σ ι κ α β
  | 0, x => x
  | n + 1, x =>
      match x.right.next x.state with
      | some (q, s) => rightFirst n ⟨x.left, q, s⟩
      | none =>
          match x.left.next x.state with
          | some (p, s) => rightFirst n ⟨p, x.right, s⟩
          | none => x

theorem runs_rightFirst (n : Nat) (x : Pair σ ι κ α β) : Runs x (rightFirst n x) := by
  induction n generalizing x with
  | zero => exact .refl
  | succ n ih =>
      unfold rightFirst
      split
      case h_1 q s hq => exact .head (.right (step_of_next hq)) (ih _)
      case h_2 =>
        split
        case h_1 p s hp => exact .head (.left (step_of_next hp)) (ih _)
        case h_2 => exact .refl

/-- Neither program has a move. -/
def Pair.halted (x : Pair σ ι κ α β) : Bool :=
  (x.left.next x.state).isNone && (x.right.next x.state).isNone

theorem stuck_of_halted {x : Pair σ ι κ α β} (h : x.halted = true) : Stuck x := by
  obtain ⟨hleft, hright⟩ := Bool.and_eq_true_iff.mp h
  intro y hy
  cases hy with
  | left hstep => exact no_step_of_next (Option.isNone_iff_eq_none.mp hleft) _ _ hstep
  | right hstep => exact no_step_of_next (Option.isNone_iff_eq_none.mp hright) _ _ hstep

end Schedule

section Rules

variable {σ ι κ α β δ : Type}

/-- A program that does nothing on its own. -/
def Idle (p : Prog σ ι α) (s : σ) : Prop := ∀ p' s', ¬ Step p s p' s'

theorem idle_done (a : α) (s : σ) : Idle (.done a : Prog σ ι α) s := by
  rintro p' s' ⟨⟩

theorem idle_stop (s : σ) : Idle (.stop : Prog σ ι α) s := by
  rintro p' s' ⟨⟩

theorem idle_wait {name : ι} {c : σ → Bool} {k : Option Nat → Prog σ ι α} {s : σ}
    (h : c s = false) : Idle (.wait name c k) s := by
  intro p' s' hstep
  cases hstep with
  | wait n hc =>
      rw [h] at hc
      cases hc

theorem stuck_of_idle {p : Prog σ ι α} {q : Prog σ κ β} {s : σ} (hp : Idle p s) (hq : Idle q s) :
    Stuck ⟨p, q, s⟩ := by
  intro y hy
  cases hy with
  | left h => exact hp _ _ h
  | right h => exact hq _ _ h

/-- An access `f` with the outcome `k` commutes with all that a program does on its own. -/
def Free (f : σ → σ) (k : σ → δ) : Prog σ ι α → σ → Prop
  | .done _, _ | .stop, _ => True
  | .access g h, s => h (f s) = h s ∧ f (g s) = g (f s) ∧ k (g s) = k s ∧ Free f k (h s) (g s)
  | .wait _ c h, s => c s = true → c (f s) = true ∧ ∀ n, Free f k (h (some n)) s

/-- A program keeps the condition `c` in all that it does on its own. -/
def Stable (c : σ → Bool) : Prog σ ι α → σ → Prop
  | .done _, _ | .stop, _ => True
  | .access g h, s => c (g s) = true ∧ Stable c (h s) (g s)
  | .wait _ c' h, s => c' s = true → ∀ n, Stable c (h (some n)) s

theorem free_of_idle {f : σ → σ} {k : σ → δ} {p : Prog σ ι α} {s : σ} (h : Idle p s) :
    Free f k p s := by
  cases p with
  | done a => trivial
  | stop => trivial
  | access g h' => exact absurd .access (h _ _)
  | wait name c h' => exact fun hc => absurd (.wait 0 hc) (h _ _)

theorem stable_of_idle {c : σ → Bool} {p : Prog σ ι α} {s : σ} (h : Idle p s) : Stable c p s := by
  cases p with
  | done a => trivial
  | stop => trivial
  | access g h' => exact absurd .access (h _ _)
  | wait name c' h' => exact fun hc => absurd (.wait 0 hc) (h _ _)

variable {F : Pair σ ι κ α β → Prop} {p : Prog σ ι α} {q : Prog σ κ β} {s : σ}

/-- A free access may be made first. -/
theorem Settles.right_access {f : σ → σ} {k : σ → Prog σ κ β} (hfree : Free f k p s)
    (h : Settles F ⟨p, k s, f s⟩) : Settles F ⟨p, .access f k, s⟩ := by
  induction p generalizing s with
  | done a =>
      refine .step ⟨_, .right .access⟩ ?_
      intro y hy
      cases hy with
      | left hp => cases hp
      | right hq =>
          cases hq
          exact h
  | stop =>
      refine .step ⟨_, .right .access⟩ ?_
      intro y hy
      cases hy with
      | left hp => cases hp
      | right hq =>
          cases hq
          exact h
  | access g h' ih =>
      refine .step ⟨_, .right .access⟩ ?_
      intro y hy
      cases hy with
      | left hp =>
          cases hp
          obtain ⟨hh, hfg, hk, hfree⟩ := hfree
          refine ih s hfree ?_
          have hnext := h.joint (.left .access)
          rw [hh, ← hfg, ← hk] at hnext
          exact hnext
      | right hq =>
          cases hq
          exact h
  | wait name c h' ih =>
      refine .step ⟨_, .right .access⟩ ?_
      intro y hy
      cases hy with
      | left hp =>
          cases hp with
          | wait n hc =>
              obtain ⟨hc', hfree⟩ := hfree hc
              exact ih (some n) (hfree n) (h.joint (.left (.wait n hc')))
      | right hq =>
          cases hq
          exact h

/-- A stable condition may be passed first. -/
theorem Settles.right_wait {name : κ} {c : σ → Bool} {k : Option Nat → Prog σ κ β}
    (hc : c s = true) (hstable : Stable c p s) (h : ∀ n, Settles F ⟨p, k (some n), s⟩) :
    Settles F ⟨p, .wait name c k, s⟩ := by
  induction p generalizing s with
  | done a =>
      refine .step ⟨_, .right (.wait 0 hc)⟩ ?_
      intro y hy
      cases hy with
      | left hp => cases hp
      | right hq =>
          cases hq with
          | wait n _ => exact h n
  | stop =>
      refine .step ⟨_, .right (.wait 0 hc)⟩ ?_
      intro y hy
      cases hy with
      | left hp => cases hp
      | right hq =>
          cases hq with
          | wait n _ => exact h n
  | access g h' ih =>
      refine .step ⟨_, .right (.wait 0 hc)⟩ ?_
      intro y hy
      cases hy with
      | left hp =>
          cases hp
          exact ih s hstable.1 hstable.2 fun n => (h n).joint (.left .access)
      | right hq =>
          cases hq with
          | wait n _ => exact h n
  | wait name' c' h' ih =>
      refine .step ⟨_, .right (.wait 0 hc)⟩ ?_
      intro y hy
      cases hy with
      | left hp =>
          cases hp with
          | wait m hc' =>
              exact ih (some m) hc (hstable hc' m) fun n => (h n).joint (.left (.wait m hc'))
      | right hq =>
          cases hq with
          | wait n _ => exact h n

/-- The other way round. -/
def Pair.swap (x : Pair σ ι κ α β) : Pair σ κ ι β α := ⟨x.right, x.left, x.state⟩

theorem joint_swap {x y : Pair σ ι κ α β} (h : Joint x y) : Joint x.swap y.swap := by
  cases h with
  | left h => exact .right h
  | right h => exact .left h

theorem Settles.swap {G : Pair σ κ ι β α → Prop} {x : Pair σ ι κ α β}
    (h : Settles (fun y => G y.swap) x) : Settles G x.swap := by
  induction h with
  | final hF hx => exact .final hF fun y hy => hx y.swap (joint_swap hy)
  | step hex _ ih =>
      obtain ⟨y, hy⟩ := hex
      exact .step ⟨_, joint_swap hy⟩ fun z hz => ih z.swap (joint_swap hz)

theorem Settles.left_access {f : σ → σ} {k : σ → Prog σ ι α} (hfree : Free f k q s)
    (h : Settles F ⟨k s, q, f s⟩) : Settles F ⟨.access f k, q, s⟩ :=
  (Settles.right_access (F := fun y => F y.swap) hfree
    (Settles.swap (G := fun y => F y.swap) h)).swap

theorem Settles.left_wait {name : ι} {c : σ → Bool} {k : Option Nat → Prog σ ι α}
    (hc : c s = true) (hstable : Stable c q s) (h : ∀ n, Settles F ⟨k (some n), q, s⟩) :
    Settles F ⟨.wait name c k, q, s⟩ :=
  (Settles.right_wait (F := fun y => F y.swap) hc hstable
    fun n => Settles.swap (G := fun y => F y.swap) (h n)).swap

theorem Settles.of_idle (hp : Idle p s) (hq : Idle q s) (h : F ⟨p, q, s⟩) :
    Settles F ⟨p, q, s⟩ := .final h (stuck_of_idle hp hq)

/-- Every access of a program leaves the part `own` of the state alone. -/
def Keeps {τ : Type} (own : σ → τ) : Prog σ ι α → Prop
  | .done _ | .stop => True
  | .access f k => (∀ s, own (f s) = own s) ∧ ∀ s, Keeps own (k s)
  | .wait _ _ k => ∀ r, Keeps own (k r)

theorem Keeps.bind {τ : Type} {own : σ → τ} {p : Prog σ ι α} {g : α → Prog σ ι β}
    (hp : Keeps own p) (hg : ∀ a, Keeps own (g a)) : Keeps own (p >>= g) := by
  induction p with
  | done a => exact hg a
  | stop => trivial
  | access f k ih => exact ⟨hp.1, fun s => ih s (hp.2 s)⟩
  | wait name c k ih => exact fun r => ih r (hp r)

theorem free_of_keeps {τ : Type} {own : σ → τ} {f : σ → σ} {k : σ → δ} {v : τ}
    (hf : ∀ t, own t = v → f t = t) (hk : ∀ t t', own t = v → own t' = v → k t = k t')
    (hp : Keeps own p) (hs : own s = v) : Free f k p s := by
  induction p generalizing s with
  | done a => trivial
  | stop => trivial
  | access g h ih =>
      obtain ⟨hg, hh⟩ := hp
      have hgs : own (g s) = v := (hg s).trans hs
      refine ⟨by rw [hf s hs], by rw [hf s hs, hf _ hgs], hk _ _ hgs hs, ih s (hh s) hgs⟩
  | wait name c h ih =>
      intro hc
      rw [hf s hs]
      exact ⟨hc, fun n => ih _ (hp _) hs⟩

/-- An access to the own part of the state that changes nothing. -/
theorem Settles.right_own {τ : Type} {own : σ → τ} {f : σ → σ} {k : σ → Prog σ κ β}
    (hp : Keeps own p) (hf : ∀ t, own t = own s → f t = t)
    (hk : ∀ t t', own t = own s → own t' = own s → k t = k t')
    (h : Settles F ⟨p, k s, s⟩) : Settles F ⟨p, .access f k, s⟩ := by
  refine Settles.right_access (free_of_keeps hf hk hp rfl) ?_
  rw [hf s rfl]
  exact h

/-- An access that only reads, of what the other program keeps. -/
theorem Settles.right_read {τ : Type} {own : σ → τ} {g : τ → Prog σ κ β} (hp : Keeps own p)
    (h : Settles F ⟨p, g (own s), s⟩) : Settles F ⟨p, .access id fun t => g (own t), s⟩ := by
  refine Settles.right_own hp (fun _ _ => rfl) ?_ h
  intro t t' ht ht'
  rw [ht, ht']

/-- What an access does elsewhere makes no difference. -/
theorem Free.congr {τ : Type} {own : σ → τ} {f f' : σ → σ} {x : δ} (hp : Keeps own p)
    (hf : ∀ t, own t = own s → f' t = f t) (h : Free f (fun _ => ()) p s) :
    Free f' (fun _ => x) p s := by
  induction p generalizing s with
  | done a => trivial
  | stop => trivial
  | access g h' ih =>
      obtain ⟨hg, hh⟩ := hp
      obtain ⟨hk, hfg, _, hfree⟩ := h
      have hs := hf s rfl
      have hgs := hf (g s) (hg s)
      refine ⟨by rw [hs, hk], by rw [hs, hgs, hfg], rfl, ih s (hh s) ?_ hfree⟩
      intro t ht
      exact hf t (ht.trans (hg s))
  | wait name c h' ih =>
      intro hc
      obtain ⟨hc', hfree⟩ := h hc
      exact ⟨by rw [hf s rfl, hc'], fun n => ih _ (hp _) hf (hfree n)⟩

theorem Free.const {f : σ → σ} {x : δ} (h : Free f (fun _ => ()) p s) : Free f (fun _ => x) p s := by
  induction p generalizing s with
  | done a => trivial
  | stop => trivial
  | access g h' ih =>
      obtain ⟨hk, hfg, _, hfree⟩ := h
      exact ⟨hk, hfg, rfl, ih s hfree⟩
  | wait name c h' ih =>
      intro hc
      obtain ⟨hc', hfree⟩ := h hc
      exact ⟨hc', fun n => ih _ (hfree n)⟩

theorem free_id : Free id (fun _ => ()) p s := by
  induction p generalizing s with
  | done a => trivial
  | stop => trivial
  | access g h ih => exact ⟨rfl, rfl, rfl, ih _⟩
  | wait name c h ih => exact fun hc => ⟨hc, fun n => ih _⟩

/-- A read of the own part, and a write that depends on it. -/
theorem Settles.right_update {τ : Type} {own : σ → τ} {w : σ → σ → σ} {r : σ → Prog σ κ β}
    {f : σ → σ} (hp : Keeps own p) (hw : ∀ t, own t = own s → w t = w s)
    (hr : ∀ t, own t = own s → r t = r s) (hf : ∀ t, own t = own s → w s t = f t)
    (hfree : Free f (fun _ => ()) p s) (h : Settles F ⟨p, r s, f s⟩) :
    Settles F ⟨p, .access id fun t => .access (w t) fun _ => r t, s⟩ := by
  refine Settles.right_own hp (fun _ _ => rfl) ?_ ?_
  · intro t t' ht ht'
    rw [hw t ht, hw t' ht', hr t ht, hr t' ht']
  · refine Settles.right_access (hfree.congr hp hf) ?_
    rw [hf s rfl]
    exact h

/-- A program that waits for a condition and then goes on as one of `Q`. -/
inductive Waits (c : σ → Bool) (Q : Prog σ ι α → Prop) : Prog σ ι α → Prop
  | intro {name : ι} {k : Option Nat → Prog σ ι α} (h : ∀ n, Q (k (some n))) :
      Waits c Q (.wait name c k)

theorem Waits.idle {c : σ → Bool} {Q : Prog σ ι α → Prop} (hp : Waits c Q p) (hc : c s = false) :
    Idle p s := by
  cases hp with
  | intro _ => exact idle_wait hc

theorem Waits.mono {c : σ → Bool} {Q Q' : Prog σ ι α → Prop} (hp : Waits c Q p)
    (hQ : ∀ r, Q r → Q' r) : Waits c Q' p := by
  cases hp with
  | intro h => exact .intro fun n => hQ _ (h n)

theorem Settles.right_waits {c : σ → Bool} {Q : Prog σ κ β → Prop} (hq : Waits c Q q)
    (hc : c s = true) (hstable : Stable c p s) (h : ∀ r, Q r → Settles F ⟨p, r, s⟩) :
    Settles F ⟨p, q, s⟩ := by
  cases hq with
  | intro hQ => exact .right_wait hc hstable fun n => h _ (hQ n)

end Rules

end Interleave
end RetroCpu
