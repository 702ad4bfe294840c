import Mathlib.Logic.Function.Iterate
import Mathlib.Tactic.SplitIfs

/-!
# Reasoning about state programs

Small rules for programs in `StateM`:

* the `run_*` equations execute a program symbolically;
* `Keeps f m` says that `m` does not change the part `f` of the state;
* `Moves R n m` says that `m` moves along the `n`-th of a family of relations closed
  under composition, and `Yields R n m Q` that its result has the property `Q` besides;
* `Sim R f m n` says that `m` and `n`, started in `R`-related states, end in
  `R`-related states and that the result of `m` is `f` of the result of `n`.

Each notion comes with its rules for sequencing and branching, and with the rule
for iterating a step.
-/

namespace RetroCpu
namespace Prog

universe u v

variable {S T α β γ δ ε : Type}

section Run

theorem run_bind (m : StateM S α) (f : α → StateM S β) (s : S) :
    (m >>= f).run s = (f (m.run s).1).run (m.run s).2 := (rfl)

theorem run_pure (a : α) (s : S) : (pure a : StateM S α).run s = (a, s) := (rfl)

theorem run_modify (f : S → S) (s : S) :
    (modify f : StateM S Unit).run s = ((), f s) := (rfl)

theorem run_get (s : S) : (get : StateM S S).run s = (s, s) := (rfl)

theorem run_map (g : α → β) (m : StateM S α) (s : S) :
    (g <$> m).run s = (g (m.run s).1, (m.run s).2) := (rfl)

theorem run_ite (c : Prop) [Decidable c] (m n : StateM S α) (s : S) :
    (if c then m else n).run s = if c then m.run s else n.run s := by
  split_ifs <;> rfl

end Run

section Keeps

/-- The program leaves the part `f` of the state alone. -/
def Keeps (f : S → γ) (m : StateM S α) : Prop :=
  ∀ s, f (m.run s).2 = f s

variable {f : S → γ}

theorem Keeps.pure (a : α) : Keeps f (pure a : StateM S α) := fun _ => rfl

theorem Keeps.get : Keeps f (get : StateM S S) := fun _ => rfl

theorem Keeps.modify {g : S → S} (h : ∀ s, f (g s) = f s) :
    Keeps f (modify g : StateM S Unit) := h

theorem Keeps.bind {m : StateM S α} {k : α → StateM S β}
    (hm : Keeps f m) (hk : ∀ a, Keeps f (k a)) : Keeps f (m >>= k) := by
  intro s
  rw [run_bind, hk, hm]

theorem Keeps.ite {c : Prop} [Decidable c] {m n : StateM S α}
    (hm : Keeps f m) (hn : Keeps f n) : Keeps f (if c then m else n) := by
  split_ifs
  · exact hm
  · exact hn

end Keeps

section Moves

/-- A family of relations between states, indexed by a count and closed under
composition: what a program that counts `n` may do to the state. -/
structure GradedRel (S : Type) where
  rel : Nat → S → S → Prop
  refl : ∀ s, rel 0 s s
  comp : ∀ {m n s s' s''}, rel m s s' → rel n s' s'' → rel (m + n) s s''

/-- From every state the program moves along `R`, with count `n`. -/
def Moves (R : GradedRel S) (n : Nat) (m : StateM S α) : Prop :=
  ∀ s, R.rel n s (m.run s).2

variable {R : GradedRel S} {j n : Nat}

theorem Moves.pure (a : α) : Moves R 0 (pure a : StateM S α) := fun s => R.refl s

theorem Moves.get : Moves R 0 (get : StateM S S) := fun s => R.refl s

theorem Moves.bind {m : StateM S α} {k : α → StateM S β}
    (hm : Moves R j m) (hk : ∀ a, Moves R n (k a)) : Moves R (j + n) (m >>= k) :=
  fun s => R.comp (hm s) (hk _ _)

/-- A prefix that counts nothing. -/
theorem Moves.bind_zero {m : StateM S α} {k : α → StateM S β}
    (hm : Moves R 0 m) (hk : ∀ a, Moves R n (k a)) : Moves R n (m >>= k) := by
  have h := hm.bind hk
  rwa [Nat.zero_add] at h

theorem Moves.ite {c : Prop} [Decidable c] {m m' : StateM S α}
    (hm : c → Moves R j m) (hm' : ¬ c → Moves R n m') :
    Moves R (if c then j else n) (if c then m else m') := by
  split_ifs with hc
  · exact hm hc
  · exact hm' hc

/-- A branch whose arms count the same. -/
theorem Moves.ite_same {c : Prop} [Decidable c] {m m' : StateM S α}
    (hm : Moves R n m) (hm' : Moves R n m') : Moves R n (if c then m else m') := by
  split_ifs
  · exact hm
  · exact hm'

/-- The program moves along `R`, with count `n`, and its result satisfies `Q`. -/
def Yields (R : GradedRel S) (n : Nat) (m : StateM S α) (Q : α → Prop) : Prop :=
  ∀ s, R.rel n s (m.run s).2 ∧ Q (m.run s).1

variable {Q : α → Prop} {Q' : β → Prop}

theorem Yields.moves {m : StateM S α} (hm : Yields R n m Q) : Moves R n m := fun s => (hm s).1

theorem Yields.pure {a : α} (h : Q a) : Yields R 0 (pure a : StateM S α) Q :=
  fun s => ⟨R.refl s, h⟩

/-- The rest of the program may use what is known of the first result. -/
theorem Yields.bind {m : StateM S α} {k : α → StateM S β}
    (hm : Yields R j m Q) (hk : ∀ a, Q a → Moves R n (k a)) : Moves R (j + n) (m >>= k) :=
  fun s => R.comp (hm s).1 (hk _ (hm s).2 _)

theorem Yields.bind_zero {m : StateM S α} {k : α → StateM S β}
    (hm : Yields R 0 m Q) (hk : ∀ a, Q a → Moves R n (k a)) : Moves R n (m >>= k) := by
  have h := hm.bind hk
  rwa [Nat.zero_add] at h

/-- The result of a sequence is that of its second part. -/
theorem Yields.bind_yields {m : StateM S α} {k : α → StateM S β}
    (hm : Yields R j m Q) (hk : ∀ a, Q a → Yields R n (k a) Q') :
    Yields R (j + n) (m >>= k) Q' := by
  intro s
  obtain ⟨hrel, hq⟩ := hm s
  obtain ⟨hrel', hq'⟩ := hk _ hq (m.run s).2
  exact ⟨R.comp hrel hrel', hq'⟩

theorem Yields.bind_zero_yields {m : StateM S α} {k : α → StateM S β}
    (hm : Yields R 0 m Q) (hk : ∀ a, Q a → Yields R n (k a) Q') : Yields R n (m >>= k) Q' := by
  have h := hm.bind_yields hk
  rwa [Nat.zero_add] at h

theorem Moves.yields {m : StateM S α} (hm : Moves R n m) : Yields R n m (fun _ => True) :=
  fun s => ⟨hm s, trivial⟩

theorem Moves.bind_zero_yields {m : StateM S α} {k : α → StateM S β}
    (hm : Moves R 0 m) (hk : ∀ a, Yields R n (k a) Q') : Yields R n (m >>= k) Q' :=
  hm.yields.bind_zero_yields fun a _ => hk a

end Moves

section Sim

/-- Lockstep simulation of two state programs. -/
def Sim (R : S → T → Prop) (f : β → α) (m : StateM S α) (n : StateM T β) : Prop :=
  ∀ s t, R s t → (m.run s).1 = f (n.run t).1 ∧ R (m.run s).2 (n.run t).2

variable {R : S → T → Prop}

theorem Sim.pure {f : β → α} {a : α} {b : β} (h : a = f b) :
    Sim R f (pure a : StateM S α) (pure b : StateM T β) :=
  fun _ _ hR => ⟨h, hR⟩

theorem Sim.bind {f : β → α} {g : δ → γ} {m : StateM S α} {n : StateM T β}
    {k : α → StateM S γ} {l : β → StateM T δ}
    (hm : Sim R f m n) (hk : ∀ b, Sim R g (k (f b)) (l b)) :
    Sim R g (m >>= k) (n >>= l) := by
  intro s t hR
  obtain ⟨hv, hs⟩ := hm s t hR
  have := hk (n.run t).1 _ _ hs
  rwa [← hv] at this

theorem Sim.ite {f : β → α} {c d : Prop} [Decidable c] [Decidable d]
    {m m' : StateM S α} {n n' : StateM T β} (hcd : c ↔ d)
    (hm : d → Sim R f m n) (hn : ¬ d → Sim R f m' n') :
    Sim R f (if c then m else m') (if d then n else n') := by
  by_cases hd : d
  · rw [if_pos hd, if_pos (hcd.mpr hd)]
    exact hm hd
  · rw [if_neg hd, if_neg (mt hcd.mp hd)]
    exact hn hd

/-- Related states stay related along equally long runs of a step. -/
theorem Sim.iterate {f : β → α} {m : StateM S α} {n : StateM T β}
    (h : Sim R f m n) (k : Nat) {s : S} {t : T} (hR : R s t) :
    R ((fun s => (m.run s).2)^[k] s) ((fun t => (n.run t).2)^[k] t) := by
  induction k generalizing s t with
  | zero => exact hR
  | succ k ih => exact ih (h s t hR).2

end Sim

end Prog
end RetroCpu
