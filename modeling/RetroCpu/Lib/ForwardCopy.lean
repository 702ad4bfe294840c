import Mathlib.Logic.Function.Basic

/-!
# Copying cell by cell

A copy loop moves the contents of the cells `src 0`, `src 1`, … to `dst 0`, `dst 1`, …, one
after the other.  When the two ranges overlap, a cell that has been written may be read
again; when they do not, the copy is exact.
-/

namespace RetroCpu
namespace ForwardCopy

variable {A V : Type} [DecidableEq A] {src dst : Nat → A} {n : Nat} {m : A → V} {a : A}

/-- The memory after the first `n` cells have been copied. -/
def copyForward (src dst : Nat → A) : Nat → (A → V) → A → V
  | 0, m => m
  | n + 1, m =>
      let m' := copyForward src dst n m
      Function.update m' (dst n) (m' (src n))

@[simp] theorem copyForward_zero : copyForward src dst 0 m = m := rfl

theorem copyForward_succ : copyForward src dst (n + 1) m =
    Function.update (copyForward src dst n m) (dst n) (copyForward src dst n m (src n)) := rfl

/-- The first cell, and then the others. -/
theorem copyForward_succ_left : copyForward src dst (n + 1) m =
    copyForward (fun i => src (i + 1)) (fun i => dst (i + 1)) n
      (Function.update m (dst 0) (m (src 0))) := by
  induction n with
  | zero => rfl
  | succ n ih => rw [copyForward_succ, ih, copyForward_succ]

/-- Only cells of the destination change. -/
theorem copyForward_of_forall_ne (h : ∀ i < n, a ≠ dst i) : copyForward src dst n m a = m a := by
  induction n with
  | zero => rfl
  | succ n ih =>
      rw [copyForward_succ, Function.update_of_ne (h n (Nat.lt_succ_self n))]
      exact ih fun i hi => h i (Nat.lt_succ_of_lt hi)

/-- The copy of a range that is not written to. -/
theorem copyForward_copied (hdst : ∀ i < n, ∀ j < n, dst i = dst j → i = j)
    (hsrc : ∀ i < n, ∀ j < n, src i ≠ dst j) :
    ∀ i < n, copyForward src dst n m (dst i) = m (src i) := by
  induction n with
  | zero =>
      intro i hi
      exact absurd hi (Nat.not_lt_zero i)
  | succ n ih =>
      intro i hi
      have hlast := Nat.lt_succ_self n
      rw [copyForward_succ]
      rcases Nat.lt_succ_iff_lt_or_eq.mp hi with hlt | rfl
      · have hne : dst i ≠ dst n := fun h => Nat.ne_of_lt hlt (hdst i hi n hlast h)
        rw [Function.update_of_ne hne]
        exact ih (fun i hi j hj => hdst i (Nat.lt_succ_of_lt hi) j (Nat.lt_succ_of_lt hj))
          (fun i hi j hj => hsrc i (Nat.lt_succ_of_lt hi) j (Nat.lt_succ_of_lt hj)) i hlt
      · rw [Function.update_self]
        exact copyForward_of_forall_ne fun j hj => hsrc i hi j (Nat.lt_succ_of_lt hj)

end ForwardCopy
end RetroCpu
