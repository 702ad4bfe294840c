/-!
# Runs of a step function

A system that takes one event after the other, and properties of the steps of its runs.
-/

namespace RetroCpu
namespace StepRuns

variable {σ ε : Type}

section Always

/-- The state after some events. -/
def after (step : σ → ε → σ) (s : σ) (events : List ε) : σ := events.foldl step s

/-- Every step of the run of some events has a property. -/
def Always (step : σ → ε → σ) (P : σ → ε → Prop) : σ → List ε → Prop
  | _, [] => True
  | s, event :: events => P s event ∧ Always step P (step s event) events

variable {step : σ → ε → σ} {P Q : σ → ε → Prop} {Inv : σ → Prop} {s : σ} {events : List ε}

/-- An invariant that the steps with a property keep. -/
theorem Always.after (h : Always step P s events) (hs : Inv s)
    (hkeep : ∀ s event, Inv s → P s event → Inv (step s event)) :
    Inv (after step s events) := by
  induction events generalizing s with
  | nil => exact hs
  | cons event events ih =>
      obtain ⟨hfirst, hrest⟩ := h
      exact ih hrest (hkeep s event hs hfirst)

/-- A property that the steps with another one have under an invariant, which they keep. -/
theorem Always.imp (h : Always step P s events) (hs : Inv s)
    (hstep : ∀ s event, Inv s → P s event → Q s event ∧ Inv (step s event)) :
    Always step Q s events := by
  induction events generalizing s with
  | nil => trivial
  | cons event events ih =>
      obtain ⟨hfirst, hrest⟩ := h
      obtain ⟨hQ, hkept⟩ := hstep s event hs hfirst
      exact ⟨hQ, ih hrest hkept⟩

/-- Two properties that agree under an invariant agree along the runs. -/
theorem always_iff (hs : Inv s) (hiff : ∀ s event, Inv s → (P s event ↔ Q s event))
    (hkeep : ∀ s event, Inv s → P s event → Inv (step s event)) :
    Always step P s events ↔ Always step Q s events := by
  induction events generalizing s with
  | nil => exact Iff.rfl
  | cons event events ih =>
      constructor
      · rintro ⟨hfirst, hrest⟩
        exact ⟨(hiff s event hs).mp hfirst, (ih (hkeep s event hs hfirst)).mp hrest⟩
      · rintro ⟨hfirst, hrest⟩
        have hP := (hiff s event hs).mpr hfirst
        exact ⟨hP, (ih (hkeep s event hs hP)).mpr hrest⟩

end Always

end StepRuns
end RetroCpu
