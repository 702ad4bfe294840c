/-!
# Trimming a list at both ends

The elements of a class are dropped at both ends, as far as they reach.
-/

namespace RetroCpu
namespace Trimming

variable {α : Type} {p : α → Bool}

def trimBy (p : α → Bool) (l : List α) : List α :=
  ((l.dropWhile p).reverse.dropWhile p).reverse

theorem dropWhile_append_left {w : List α} (hw : ∀ a ∈ w, p a = true) (l : List α) :
    (w ++ l).dropWhile p = l.dropWhile p := by
  induction w with
  | nil => rfl
  | cons a w ih =>
      rw [List.cons_append, List.dropWhile_cons_of_pos (hw a List.mem_cons_self)]
      exact ih fun b hb => hw b (List.mem_cons_of_mem _ hb)

/-- What is dropped at the front belongs to the class. -/
theorem dropWhile_split (l : List α) : ∃ w, l = w ++ l.dropWhile p ∧ ∀ a ∈ w, p a = true :=
  ⟨l.takeWhile p, List.takeWhile_append_dropWhile.symm,
    fun a ha => List.all_eq_true.mp List.all_takeWhile a ha⟩

theorem trimBy_append_left {w : List α} (hw : ∀ a ∈ w, p a = true) (l : List α) :
    trimBy p (w ++ l) = trimBy p l := by
  rw [trimBy, dropWhile_append_left hw, trimBy]

/-- The class is dropped at the back, too. -/
theorem trimBy_append_right {w : List α} (hw : ∀ a ∈ w, p a = true) (l : List α) :
    trimBy p (l ++ w) = trimBy p l := by
  have hreverse : ∀ a ∈ w.reverse, p a = true := fun a ha => hw a (List.mem_reverse.mp ha)
  have hdrop : (l ++ w).dropWhile p = l.dropWhile p ++ w ∨
      ((l ++ w).dropWhile p = [] ∧ l.dropWhile p = []) := by
    induction l with
    | nil =>
        have hnil := dropWhile_append_left hw []
        rw [List.append_nil] at hnil
        exact .inr ⟨hnil, rfl⟩
    | cons a l ih =>
        by_cases ha : p a = true
        · rw [List.cons_append, List.dropWhile_cons_of_pos ha, List.dropWhile_cons_of_pos ha]
          exact ih
        · rw [List.cons_append, List.dropWhile_cons_of_neg ha, List.dropWhile_cons_of_neg ha]
          exact .inl rfl
  rcases hdrop with h | ⟨h, h'⟩
  · rw [trimBy, trimBy, h, List.reverse_append, dropWhile_append_left hreverse]
  · rw [trimBy, trimBy, h, h']

/-- A list is its trimmed part between two parts of the class. -/
theorem trimBy_split (l : List α) : ∃ w w', l = w ++ trimBy p l ++ w' ∧ (∀ a ∈ w, p a = true) ∧
    ∀ a ∈ w', p a = true := by
  obtain ⟨w, hl, hw⟩ := dropWhile_split (p := p) l
  obtain ⟨v, hr, hv⟩ := dropWhile_split (p := p) (l.dropWhile p).reverse
  refine ⟨w, v.reverse, ?_, hw, fun a ha => hv a (List.mem_reverse.mp ha)⟩
  have hback : l.dropWhile p = trimBy p l ++ v.reverse := by
    rw [trimBy, ← List.reverse_append, ← hr, List.reverse_reverse]
  rw [List.append_assoc, ← hback]
  exact hl

theorem trimBy_idem (l : List α) : trimBy p (trimBy p l) = trimBy p l := by
  obtain ⟨w, w', hl, hw, hw'⟩ := trimBy_split (p := p) l
  conv => rhs; rw [hl]
  rw [trimBy_append_right hw', trimBy_append_left hw]

theorem dropWhile_congr {q : α → Bool} {l : List α} (h : ∀ a ∈ l, p a = q a) :
    l.dropWhile p = l.dropWhile q := by
  induction l with
  | nil => rfl
  | cons a l ih =>
      rw [List.dropWhile_cons, List.dropWhile_cons, h a List.mem_cons_self,
        ih fun b hb => h b (List.mem_cons_of_mem _ hb)]

theorem trimBy_congr {q : α → Bool} {l : List α} (h : ∀ a ∈ l, p a = q a) :
    trimBy p l = trimBy q l := by
  rw [trimBy, trimBy, dropWhile_congr h, dropWhile_congr]
  intro a ha
  exact h a ((List.dropWhile_sublist _).subset (List.mem_reverse.mp ha))

theorem trimBy_subset (l : List α) : trimBy p l ⊆ l := by
  intro c hc
  have hback := (List.dropWhile_sublist _).subset (List.mem_reverse.mp hc)
  exact (List.dropWhile_sublist _).subset (List.mem_reverse.mp hback)

theorem head_dropWhile {l : List α} {c : α} (h : c ∈ (l.dropWhile p).head?) : p c = false := by
  have hnot := List.head?_dropWhile_not p l
  rw [h] at hnot
  exact hnot

theorem all_of_dropWhile {l : List α} (h : l.dropWhile p = []) :
    ∀ c ∈ l, p c = true := by
  intro c hc
  have hsplit := List.takeWhile_append_dropWhile (p := p) (l := l)
  rw [h, List.append_nil] at hsplit
  rw [← hsplit] at hc
  exact List.all_eq_true.mp List.all_takeWhile c hc

end Trimming
end RetroCpu
