import Mathlib.Logic.Function.Iterate
import Mathlib.Tactic.Choose

/-!
# A routine that is called again and again

A machine goes on by `step`.  A state asks for something, and is served when some number of steps
leads to an answer.  What has been asked and answered before is the past of a call, as a value of
the specification.  What happens between an answer and the next call is the caller's own.
-/

namespace RetroCpu
namespace Calls

variable {S A H : Type} {step : S → S} {asks : H → A → S → Prop} {answers : H → A → S → S → Prop}

/-- Every call is answered after some number of steps. -/
def Serves (step : S → S) (asks : H → A → S → Prop) (answers : H → A → S → S → Prop) : Prop :=
  ∀ h a s, asks h a s → ∃ n, answers h a s (step^[n] s)

/-- Calls one after the other. -/
structure Session (step : S → S) (asks : H → A → S → Prop) (answers : H → A → S → S → Prop)
    (after : A → S → H → H) (ops : Nat → A) (between : Nat → H → S → S) (past : Nat → H)
    (asked answered : Nat → S) : Prop where
  asks : ∀ i, asks (past i) (ops i) (asked i)
  runs : ∀ i, ∃ n, answered i = step^[n] (asked i)
  answers : ∀ i, answers (past i) (ops i) (asked i) (answered i)
  remembers : ∀ i, past (i + 1) = after (ops i) (answered i) (past i)
  next : ∀ i, asked (i + 1) = between i (past (i + 1)) (answered i)

/-- A caller that asks again after each answer has a session. -/
theorem Serves.session (hserves : Serves step asks answers) (after : A → S → H → H)
    (ops : Nat → A) (between : Nat → H → S → S) {h : H} {s : S} (hfirst : asks h (ops 0) s)
    (hnext : ∀ i h s t, asks h (ops i) s → answers h (ops i) s t →
      asks (after (ops i) t h) (ops (i + 1)) (between i (after (ops i) t h) t)) :
    ∃ past asked answered, past 0 = h ∧ asked 0 = s ∧
      Session step asks answers after ops between past asked answered := by
  choose count hcount using hserves
  let exit (i : Nat) (x : {x : H × S // asks x.1 (ops i) x.2}) : S :=
    step^[count x.1.1 (ops i) x.1.2 x.2] x.1.2
  have hexit (i : Nat) (x : {x : H × S // asks x.1 (ops i) x.2}) :
      answers x.1.1 (ops i) x.1.2 (exit i x) := hcount _ _ _ x.2
  let state (i : Nat) : {x : H × S // asks x.1 (ops i) x.2} :=
    Nat.rec ⟨(h, s), hfirst⟩ (fun i x => ⟨(after (ops i) (exit i x) x.1.1,
      between i (after (ops i) (exit i x) x.1.1) (exit i x)), hnext i _ _ _ x.2 (hexit i x)⟩) i
  exact ⟨fun i => (state i).1.1, fun i => (state i).1.2, fun i => exit i (state i), rfl, rfl,
    ⟨fun i => (state i).2, fun i => ⟨_, rfl⟩, fun i => hexit i (state i), fun _ => rfl,
      fun _ => rfl⟩⟩

end Calls
end RetroCpu
