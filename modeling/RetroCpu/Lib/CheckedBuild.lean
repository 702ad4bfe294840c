import Mathlib.Algebra.Group.Nat.Defs
import RetroCpu.Lib.StateProg

/-!
# Programs of a checked build

A build with overflow checks stops at the first unchecked operator that leaves the range
of its type.  A program of such a build either stops with a `Panic` or returns a value
and a state:

* the checked operators of machine integers;
* `Returns m Q` says that `m` returns from every state, with a result that satisfies `Q`;
* `Computes m n` says that `m` returns from every state what the total program `n` does.
-/

namespace RetroCpu
namespace CheckedBuild

/-- Why a checked build does not return.  `endless` stands for a loop or a recursion
that is still going on when the rounds granted to it are used up. -/
inductive Panic where
  | overflow
  | shift
  | divideByZero
  | index
  | endless
deriving DecidableEq, Repr

abbrev PanicM (S α : Type) := StateT S (Except Panic) α

variable {S α β : Type}

/-- Run the first part of a sequence. -/
theorem run_bind_ok {m : PanicM S α} {k : α → PanicM S β} {s s' : S} {a : α}
    (h : m.run s = .ok (a, s')) : (m >>= k).run s = (k a).run s' := by
  rw [StateT.run_bind, h]
  rfl

theorem run_bind_error {m : PanicM S α} {k : α → PanicM S β} {s : S} {why : Panic}
    (h : m.run s = .error why) : (m >>= k).run s = .error why := by
  rw [StateT.run_bind, h]
  rfl

section Operators

/-- The value `a`, if the operation that computes it is in range. -/
def ensure (p : Prop) [Decidable p] (why : Panic) (a : α) : PanicM S α :=
  fun s => if p then .ok (a, s) else .error why

variable {w n : Nat}

/-- `a + b` on an unsigned type. -/
def addU (a b : BitVec w) : PanicM S (BitVec w) :=
  ensure (BitVec.uaddOverflow a b = false) .overflow (a + b)

/-- `a - b` on an unsigned type. -/
def subU (a b : BitVec w) : PanicM S (BitVec w) :=
  ensure (BitVec.usubOverflow a b = false) .overflow (a - b)

/-- `a * b` on an unsigned type. -/
def mulU (a b : BitVec w) : PanicM S (BitVec w) :=
  ensure (BitVec.umulOverflow a b = false) .overflow (a * b)

/-- `a + b` on a signed type. -/
def addS (a b : BitVec w) : PanicM S (BitVec w) :=
  ensure (BitVec.saddOverflow a b = false) .overflow (a + b)

/-- `a - b` on a signed type. -/
def subS (a b : BitVec w) : PanicM S (BitVec w) :=
  ensure (BitVec.ssubOverflow a b = false) .overflow (a - b)

/-- `a * b` on a signed type. -/
def mulS (a b : BitVec w) : PanicM S (BitVec w) :=
  ensure (BitVec.smulOverflow a b = false) .overflow (a * b)

/-- `-a` on a signed type. -/
def negS (a : BitVec w) : PanicM S (BitVec w) :=
  ensure (BitVec.negOverflow a = false) .overflow (-a)

/-- `a / b` on an unsigned type. -/
def divU (a b : BitVec w) : PanicM S (BitVec w) :=
  ensure (b ≠ 0) .divideByZero (a / b)

/-- `a % b` on an unsigned type. -/
def remU (a b : BitVec w) : PanicM S (BitVec w) :=
  ensure (b ≠ 0) .divideByZero (a % b)

/-- `a / b` on a signed type. -/
def divS (a b : BitVec w) : PanicM S (BitVec w) :=
  ensure (b ≠ 0 ∧ BitVec.sdivOverflow a b = false) .divideByZero (a.sdiv b)

/-- `a % b` on a signed type. -/
def remS (a b : BitVec w) : PanicM S (BitVec w) :=
  ensure (b ≠ 0 ∧ BitVec.sdivOverflow a b = false) .divideByZero (a.srem b)

/-- `a << k` -/
def shl (a : BitVec w) (k : Nat) : PanicM S (BitVec w) := ensure (k < w) .shift (a <<< k)

/-- `a >> k` on an unsigned type. -/
def shrU (a : BitVec w) (k : Nat) : PanicM S (BitVec w) := ensure (k < w) .shift (a >>> k)

/-- `a + b` on `usize`. -/
def addSize (a b : Nat) : PanicM S Nat := ensure (a + b < 2 ^ 64) .overflow (a + b)

/-- `a * b` on `usize`. -/
def mulSize (a b : Nat) : PanicM S Nat := ensure (a * b < 2 ^ 64) .overflow (a * b)

/-- `i` as an index of an array of `n` elements. -/
def index (n i : Nat) : PanicM S (Fin n) :=
  fun s => if h : i < n then .ok (⟨i, h⟩, s) else .error .index

end Operators

section Returns

/-- The program returns from every state, with a result that satisfies `Q`. -/
def Returns (m : PanicM S α) (Q : α → Prop) : Prop :=
  ∀ s, ∃ a s', m.run s = .ok (a, s') ∧ Q a

variable {Q : α → Prop} {Q' : β → Prop}

theorem Returns.pure {a : α} (h : Q a) : Returns (pure a : PanicM S α) Q :=
  fun s => ⟨a, s, rfl, h⟩

theorem Returns.bind {m : PanicM S α} {k : α → PanicM S β} (hm : Returns m Q)
    (hk : ∀ a, Q a → Returns (k a) Q') : Returns (m >>= k) Q' := by
  intro s
  obtain ⟨a, s', hrun, ha⟩ := hm s
  obtain ⟨b, s'', hrun', hb⟩ := hk a ha s'
  exact ⟨b, s'', (run_bind_ok hrun).trans hrun', hb⟩

theorem Returns.ite {c : Prop} [Decidable c] {m m' : PanicM S α} (hm : c → Returns m Q)
    (hm' : ¬ c → Returns m' Q) : Returns (if c then m else m') Q := by
  split_ifs with hc
  · exact hm hc
  · exact hm' hc

theorem Returns.mono {P : α → Prop} {m : PanicM S α} (hm : Returns m P) (h : ∀ a, P a → Q a) :
    Returns m Q := by
  intro s
  obtain ⟨a, s', hrun, ha⟩ := hm s
  exact ⟨a, s', hrun, h a ha⟩

theorem Returns.ensure {p : Prop} [Decidable p] {why : Panic} {a : α} (hp : p) (ha : Q a) :
    Returns (ensure p why a : PanicM S α) Q :=
  fun s => ⟨a, s, if_pos hp, ha⟩

/-- The program returns from every state. -/
abbrev Ends (m : PanicM S α) : Prop := Returns m fun _ => True

theorem Ends.pure (a : α) : Ends (pure a : PanicM S α) := Returns.pure trivial

theorem Ends.get : Ends (get : PanicM S S) := fun s => ⟨s, s, rfl, trivial⟩

theorem Ends.modify (f : S → S) : Ends (modify f : PanicM S Unit) :=
  fun s => ⟨(), f s, rfl, trivial⟩

theorem Returns.ends {m : PanicM S α} (h : Returns m Q) : Ends m := h.mono fun _ _ => trivial

theorem Ends.bind {m : PanicM S α} {k : α → PanicM S β} (hm : Ends m)
    (hk : ∀ a, Returns (k a) Q') : Returns (m >>= k) Q' :=
  Returns.bind hm fun a _ => hk a

/-- A loop over a list returns when its body does. -/
theorem Returns.foldlM {f : β → α → PanicM S β} {l : List α}
    (hf : ∀ a ∈ l, ∀ b, Q' b → Returns (f b a) Q') :
    ∀ b, Q' b → Returns (l.foldlM f b) Q' := by
  induction l with
  | nil => exact fun b hb => Returns.pure hb
  | cons a l ih =>
      intro b hb
      rw [List.foldlM_cons]
      exact (hf a (by simp) b hb).bind fun b' hb' =>
        ih (fun a ha => hf a (by simp [ha])) b' hb'

theorem Returns.forM {f : α → PanicM S Unit} {l : List α}
    (hf : ∀ a ∈ l, Ends (f a)) : Ends (l.forM f) := by
  induction l with
  | nil => exact Returns.pure trivial
  | cons a l ih =>
      change Ends (f a >>= fun _ => l.forM f)
      exact (hf a (by simp)).bind fun _ => ih fun a ha => hf a (by simp [ha])

end Returns

section Computes

/-- A program that cannot stop, as a program of a checked build. -/
def ofState (m : StateM S α) : PanicM S α := fun s => .ok (m.run s)

/-- From every state the program returns what the total program `n` does. -/
def Computes (m : PanicM S α) (n : StateM S α) : Prop := ∀ s, m.run s = .ok (n.run s)

theorem Computes.ends {m : PanicM S α} {n : StateM S α} (h : Computes m n) : Ends m :=
  fun s => ⟨_, _, h s, trivial⟩

theorem Computes.ofState (m : StateM S α) : Computes (ofState m) m := fun _ => rfl

theorem Computes.pure (a : α) : Computes (pure a : PanicM S α) (pure a) := fun _ => rfl

theorem Computes.bind {m : PanicM S α} {n : StateM S α} {k : α → PanicM S β}
    {l : α → StateM S β} (hm : Computes m n) (hk : ∀ a, Computes (k a) (l a)) :
    Computes (m >>= k) (n >>= l) :=
  fun s => (run_bind_ok (hm s)).trans (hk _ _)

theorem Computes.ite {c : Prop} [Decidable c] {m m' : PanicM S α} {n n' : StateM S α}
    (hm : c → Computes m n) (hm' : ¬ c → Computes m' n') :
    Computes (if c then m else m') (if c then n else n') := by
  split_ifs with hc
  · exact hm hc
  · exact hm' hc

theorem Computes.ensure {p : Prop} [Decidable p] {why : Panic} {a : α} (hp : p) :
    Computes (ensure p why a : PanicM S α) (Pure.pure a) :=
  fun _ => if_pos hp

theorem Computes.index {n i : Nat} (h : i < n) :
    Computes (index n i : PanicM S (Fin n)) (Pure.pure ⟨i, h⟩) :=
  fun _ => dif_pos h

/-- A part that computes a value of the total program. -/
theorem Computes.value_bind {m : PanicM S α} {a : α} {k : α → PanicM S β} {n : StateM S β}
    (hm : Computes m (Pure.pure a)) (hk : Computes (k a) n) : Computes (m >>= k) n :=
  fun s => (run_bind_ok (hm s)).trans (hk s)

/-- A loop over a list that computes a value. -/
theorem Computes.foldlM {f : β → α → PanicM S β} {g : β → α → β} {l : List α}
    (h : ∀ a ∈ l, ∀ b, Computes (f b a) (Pure.pure (g b a))) (b : β) :
    Computes (l.foldlM f b) (Pure.pure (l.foldl g b)) := by
  induction l generalizing b with
  | nil => exact Computes.pure b
  | cons a l ih =>
      rw [List.foldlM_cons]
      exact (h a (by simp) b).value_bind (ih (fun a ha => h a (by simp [ha])) _)

end Computes

end CheckedBuild
end RetroCpu
