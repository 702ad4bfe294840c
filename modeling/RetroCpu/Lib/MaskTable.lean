import Mathlib.Data.List.Pairwise

/-!
# Ordered tables of masked words

An instruction decoder that tests a word against masks, one after the other, is a list of
rows of which the first that matches counts.  Where no two rows match the same word, the
order says nothing, and a row is found by the words that it matches.
-/

namespace RetroCpu
namespace MaskTable

variable {w : Nat} {α : Type}

/-- A row matches the words that agree with `value` in the bits of `mask`. -/
structure Row (w : Nat) (α : Type) where
  mask : BitVec w
  value : BitVec w
  result : α
deriving DecidableEq, Repr

def Row.Matches (r : Row w α) (x : BitVec w) : Prop := x &&& r.mask = r.value

instance (r : Row w α) (x : BitVec w) : Decidable (r.Matches x) :=
  inferInstanceAs (Decidable (_ = _))

/-- The first row that matches. -/
def firstMatch (rows : List (Row w α)) (x : BitVec w) : Option (Row w α) :=
  rows.find? fun r => decide (r.Matches x)

/-- The rows differ in a bit that both test. -/
def Row.Apart (r s : Row w α) : Prop := r.value &&& s.mask ≠ s.value &&& r.mask

instance (r s : Row w α) : Decidable (r.Apart s) := inferInstanceAs (Decidable (_ ≠ _))

theorem Row.Apart.not_matches {r s : Row w α} (h : r.Apart s) {x : BitVec w}
    (hr : r.Matches x) : ¬ s.Matches x := by
  intro hs
  apply h
  calc r.value &&& s.mask = (x &&& r.mask) &&& s.mask := by rw [hr]
    _ = (x &&& s.mask) &&& r.mask := by rw [BitVec.and_assoc, BitVec.and_assoc, BitVec.and_comm r.mask]
    _ = s.value &&& r.mask := by rw [hs]

theorem matches_of_firstMatch {rows : List (Row w α)} {x : BitVec w} {r : Row w α}
    (h : firstMatch rows x = some r) : r ∈ rows ∧ r.Matches x :=
  ⟨List.mem_of_find?_eq_some h, by simpa using List.find?_some h⟩

/-- Rows that are apart are found whatever their order. -/
theorem firstMatch_eq {rows : List (Row w α)} (hrows : rows.Pairwise Row.Apart) {x : BitVec w}
    {r : Row w α} (hr : r ∈ rows) (hx : r.Matches x) : firstMatch rows x = some r := by
  induction hrows with
  | nil => cases hr
  | @cons s rows hs _ ih =>
      rcases List.mem_cons.mp hr with rfl | hr
      · exact List.find?_cons_of_pos (by simpa using hx)
      · have hmiss : ¬ s.Matches x := fun h => (hs r hr).not_matches h hx
        rw [firstMatch, List.find?_cons_of_neg (by simpa using hmiss)]
        exact ih hr

end MaskTable
end RetroCpu
