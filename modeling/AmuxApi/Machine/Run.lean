import Mathlib.Logic.Basic

/- Histories of a state machine: events happen one after the other, and each changes the state.
   A guard is a condition on the events, each in the state that it finds.

   `Reach.keeps`: what holds at first, and is kept by every event that meets the guard, holds in
   every state that is reached. -/
namespace AmuxApi.Machine

variable {S E : Type}

/-- The states that are reached by events that meet the guard. -/
inductive Reach (guard : S → E → Prop) (step : S → E → S) (s₀ : S) : S → Prop
  | start : Reach guard step s₀ s₀
  | step {s : S} (e : E) (h : Reach guard step s₀ s) (hguard : guard s e) : Reach guard step s₀ (step s e)

def anyEvent (_ : S) (_ : E) : Prop := True

section
variable {guard : S → E → Prop} {step : S → E → S} {s₀ s : S}

theorem Reach.keeps {P : S → Prop} (h0 : P s₀) (hstep : ∀ s e, P s → guard s e → P (step s e))
    (h : Reach guard step s₀ s) : P s := by
  induction h with
  | start => exact h0
  | step e _ hguard ih => exact hstep _ e ih hguard

/-- Every event meets the guard in the state that it finds. -/
def Meets (guard : S → E → Prop) (step : S → E → S) : S → List E → Prop
  | _, [] => True
  | s, e :: es => guard s e ∧ Meets guard step (step s e) es

instance meetsDecidable [∀ s e, Decidable (guard s e)] : ∀ (s : S) (es : List E), Decidable (Meets guard step s es)
  | _, [] => .isTrue trivial
  | s, e :: es => @instDecidableAnd _ _ _ (meetsDecidable (step s e) es)

/-- A history that can be evaluated leads to a state that is reached. -/
theorem reach_foldl (h : Reach guard step s₀ s) :
    ∀ (es : List E), Meets guard step s es → Reach guard step s₀ (es.foldl step s) := by
  intro es
  induction es generalizing s with
  | nil => exact fun _ => h
  | cons e es ih =>
    intro hmeets
    exact ih (.step e h hmeets.1) hmeets.2

end

end AmuxApi.Machine
