import Mathlib.Algebra.GroupWithZero.Nat
import Mathlib.Data.List.Perm.Basic

/-!
# Lists cut into pieces

What is taken from each piece of a list, put together again: when two such concatenations
agree, and how often an element is taken.
-/

namespace RetroCpu
namespace ListPieces

variable {α β γ : Type}

/-- Concatenations of lists of the same lengths agree only piece by piece. -/
theorem flatMap_eq_iff {f g : α → List β} {l : List α}
    (hlen : ∀ a ∈ l, (f a).length = (g a).length) :
    l.flatMap f = l.flatMap g ↔ ∀ a ∈ l, f a = g a := by
  induction l with
  | nil => simp
  | cons a l ih =>
      have ih := ih fun b hb => hlen b (by simp [hb])
      constructor
      · intro h
        rw [List.flatMap_cons, List.flatMap_cons] at h
        obtain ⟨ha, hl⟩ := List.append_inj h (hlen a (by simp))
        intro b hb
        rcases List.mem_cons.mp hb with rfl | hb
        · exact ha
        · exact ih.mp hl b hb
      · intro h
        rw [List.flatMap_cons, List.flatMap_cons, h a (by simp),
          ih.mpr fun b hb => h b (by simp [hb])]

section Count

variable (p : γ → α → Bool)

theorem filter_eq_flatMap_replicate (q : α → Bool) (l : List α) :
    l.filter q = l.flatMap fun a => List.replicate (if q a then 1 else 0) a := by
  induction l with
  | nil => rfl
  | cons a l ih =>
      by_cases h : q a = true
      · simp [h, ih]
      · simp [h, ih]

/-- Each element is taken once for each piece that it belongs to. -/
theorem flatMap_filter_perm (cs : List γ) (l : List α) :
    (cs.flatMap fun c => l.filter (p c)).Perm
      (l.flatMap fun a => List.replicate (cs.countP (p · a)) a) := by
  induction cs with
  | nil => simp
  | cons c cs ih =>
      rw [List.flatMap_cons, filter_eq_flatMap_replicate]
      refine (List.Perm.append_left _ ih).trans ((List.flatMap_append_perm _ _ _).trans ?_)
      refine List.Perm.of_eq (List.flatMap_congr fun a _ => ?_)
      rw [List.countP_cons, ← List.replicate_add, Nat.add_comm]

theorem flatMap_replicate_of_one {n : α → Nat} {l : List α} (h : ∀ a ∈ l, n a = 1) :
    (l.flatMap fun a => List.replicate (n a) a) = l := by
  induction l with
  | nil => rfl
  | cons a l ih =>
      rw [List.flatMap_cons, h a (by simp), ih fun b hb => h b (by simp [hb])]
      rfl

/-- Where each element is taken at least once, the lengths tell whether it is only once. -/
theorem one_of_length_flatMap_replicate {n : α → Nat} {l : List α} (hpos : ∀ a ∈ l, 1 ≤ n a)
    (hlen : (l.flatMap fun a => List.replicate (n a) a).length ≤ l.length) :
    ∀ a ∈ l, n a = 1 := by
  have hge : ∀ l : List α, (∀ a ∈ l, 1 ≤ n a) →
      l.length ≤ (l.flatMap fun a => List.replicate (n a) a).length := by
    intro l
    induction l with
    | nil => simp
    | cons a l ih =>
        intro hpos
        have ha := hpos a (by simp)
        have hl := ih fun b hb => hpos b (by simp [hb])
        rw [List.flatMap_cons, List.length_append, List.length_replicate, List.length_cons]
        omega
  induction l with
  | nil => simp
  | cons a l ih =>
      have ha := hpos a (by simp)
      have hl := hge l fun b hb => hpos b (by simp [hb])
      rw [List.flatMap_cons, List.length_append, List.length_replicate, List.length_cons] at hlen
      intro b hb
      rcases List.mem_cons.mp hb with rfl | hb
      · omega
      · exact ih (fun b hb => hpos b (by simp [hb])) (by omega) b hb

end Count

/-- Numbers whose remainders have the same sum are their own remainders. -/
theorem mod_eq_of_sum_eq {m : Nat} {f : α → Nat} {l : List α}
    (h : (l.map f).sum ≤ (l.map fun a => f a % m).sum) : ∀ a ∈ l, f a % m = f a := by
  have hle : ∀ l : List α, (l.map fun a => f a % m).sum ≤ (l.map f).sum := by
    intro l
    induction l with
    | nil => simp
    | cons a l ih =>
        have := Nat.mod_le (f a) m
        simp only [List.map_cons, List.sum_cons]
        omega
  induction l with
  | nil => simp
  | cons a l ih =>
      have ha := Nat.mod_le (f a) m
      have hl := hle l
      simp only [List.map_cons, List.sum_cons] at h
      intro b hb
      rcases List.mem_cons.mp hb with rfl | hb
      · omega
      · exact ih (by omega) b hb

end ListPieces
end RetroCpu
