import RetroCpu.Lib.Interleave

/-!
# Programs that differ only in what they do behind a time-out

In an interleaving nothing times out, so that such programs come to the same ends.
-/

namespace RetroCpu
namespace Interleave

variable {σ ι κ α β : Type}

/-- The same accesses and conditions, and the same way on behind a wait that ends. -/
def Alike : Prog σ ι α → Prog σ ι α → Prop
  | .done a, .done b => a = b
  | .stop, .stop => True
  | .access f k, .access f' k' => f = f' ∧ ∀ s, Alike (k s) (k' s)
  | .wait _ c k, .wait _ c' k' => c = c' ∧ ∀ n, Alike (k (some n)) (k' (some n))
  | _, _ => False

theorem Alike.refl (p : Prog σ ι α) : Alike p p := by
  induction p with
  | done a => rfl
  | stop => trivial
  | access f k ih => exact ⟨rfl, ih⟩
  | wait name c k ih => exact ⟨rfl, fun n => ih (some n)⟩

theorem Alike.symm {p q : Prog σ ι α} (h : Alike p q) : Alike q p := by
  induction p generalizing q with
  | done a =>
      cases q with
      | done b => exact Eq.symm h
      | stop => exact h
      | access f k => exact h
      | wait name c k => exact h
  | stop =>
      cases q with
      | done b => exact h
      | stop => trivial
      | access f k => exact h
      | wait name c k => exact h
  | access f k ih =>
      cases q with
      | done b => exact h
      | stop => exact h
      | access f' k' => exact ⟨h.1.symm, fun s => ih s (h.2 s)⟩
      | wait name c k => exact h
  | wait name c k ih =>
      cases q with
      | done b => exact h
      | stop => exact h
      | access f k => exact h
      | wait name' c' k' => exact ⟨h.1.symm, fun n => ih (some n) (h.2 n)⟩

theorem Alike.bind {p q : Prog σ ι α} {g g' : α → Prog σ ι β} (h : Alike p q)
    (hg : ∀ a, Alike (g a) (g' a)) : Alike (p >>= g) (q >>= g') := by
  induction p generalizing q with
  | done a =>
      cases q with
      | done b =>
          cases h
          exact hg a
      | stop => cases h
      | access f k => cases h
      | wait name c k => cases h
  | stop =>
      cases q with
      | done b => cases h
      | stop => trivial
      | access f k => cases h
      | wait name c k => cases h
  | access f k ih =>
      cases q with
      | done b => cases h
      | stop => cases h
      | access f' k' => exact ⟨h.1, fun s => ih s (h.2 s)⟩
      | wait name c k => cases h
  | wait name c k ih =>
      cases q with
      | done b => cases h
      | stop => cases h
      | access f k => cases h
      | wait name' c' k' => exact ⟨h.1, fun n => ih (some n) (h.2 n)⟩

theorem Alike.step {p p' q : Prog σ ι α} {s s' : σ} (h : Alike p q) (hp : Step p s p' s') :
    ∃ q', Step q s q' s' ∧ Alike p' q' := by
  cases hp with
  | access =>
      cases q with
      | done b => cases h
      | stop => cases h
      | access f' k' =>
          obtain ⟨rfl, hk⟩ := h
          exact ⟨_, .access, hk s⟩
      | wait name c k => cases h
  | wait n hc =>
      cases q with
      | done b => cases h
      | stop => cases h
      | access f k => cases h
      | wait name' c' k' =>
          obtain ⟨rfl, hk⟩ := h
          exact ⟨_, .wait n hc, hk n⟩

/-- A program settles as one that is alike does. -/
theorem Settles.alike {F : Pair σ ι κ α β → Prop} {p q : Prog σ ι α} {r : Prog σ κ β} {s : σ}
    (hF : ∀ p q r s, Alike p q → F ⟨p, r, s⟩ → F ⟨q, r, s⟩) (h : Settles F ⟨p, r, s⟩)
    (hpq : Alike p q) : Settles F ⟨q, r, s⟩ := by
  generalize hx : (⟨p, r, s⟩ : Pair σ ι κ α β) = x at h
  induction h generalizing p q r s with
  | final hend hstuck =>
      subst hx
      refine .final (hF _ _ _ _ hpq hend) fun y hy => ?_
      cases hy with
      | left hq =>
          obtain ⟨p', hp', -⟩ := hpq.symm.step hq
          exact hstuck _ (.left hp')
      | right hr => exact hstuck _ (.right hr)
  | step hex hall ih =>
      subst hx
      refine .step ?_ fun y hy => ?_
      · obtain ⟨y, hy⟩ := hex
        cases hy with
        | left hp =>
            obtain ⟨q', hq', -⟩ := hpq.step hp
            exact ⟨_, .left hq'⟩
        | right hr => exact ⟨_, .right hr⟩
      · cases hy with
        | left hq =>
            obtain ⟨p', hp', halike⟩ := hpq.symm.step hq
            exact ih _ (.left hp') halike.symm rfl
        | right hr => exact ih _ (.right hr) hpq rfl

end Interleave
end RetroCpu
