import Mathlib.Data.List.Basic

/-!
# Runs whose steps meet a condition

A system takes a step for every event of a list. `StepsMeet` says that every step of the run meets
a condition in the state that it finds. What such steps preserve holds after the run
(`StepsMeet.invariant`), and the condition passes to the beginnings of a run.
-/

namespace Goodmoneying.Library

variable {σ ε : Type}

/-- Every step of the run meets the condition, in the state that it finds. -/
def StepsMeet (step : σ → ε → σ) (condition : σ → ε → Prop) (start : σ) (events : List ε) : Prop :=
  ∀ before event rest, events = before ++ event :: rest →
    condition (before.foldl step start) event

variable {step : σ → ε → σ} {condition : σ → ε → Prop} {start : σ} {events : List ε}

theorem stepsMeet_nil : StepsMeet step condition start [] := by
  intro before event rest h
  simp at h

theorem stepsMeet_cons {event : ε} : StepsMeet step condition start (event :: events) ↔
    condition start event ∧ StepsMeet step condition (step start event) events := by
  constructor
  · intro h
    refine ⟨h [] event events rfl, fun before next rest hrest => ?_⟩
    exact h (event :: before) next rest (by rw [hrest]; rfl)
  · rintro ⟨hevent, hevents⟩ before next rest h
    cases before with
    | nil =>
      obtain ⟨rfl, -⟩ := List.cons.inj h
      exact hevent
    | cons first before =>
      obtain ⟨rfl, htail⟩ := List.cons.inj h
      exact hevents before next rest htail

/-- A beginning of the run meets it, too. -/
theorem StepsMeet.beginning {later : List ε}
    (h : StepsMeet step condition start (events ++ later)) :
    StepsMeet step condition start events := by
  intro before event rest hrest
  exact h before event (rest ++ later) (by rw [hrest]; simp)

/-- What the steps preserve where they meet the condition. -/
theorem StepsMeet.invariant {P : σ → Prop} (h : StepsMeet step condition start events)
    (hstep : ∀ state event, P state → condition state event → P (step state event))
    (hstart : P start) : P (events.foldl step start) := by
  induction events generalizing start with
  | nil => exact hstart
  | cons event events ih =>
    obtain ⟨hevent, hevents⟩ := stepsMeet_cons.mp h
    exact ih hevents (hstep start event hstart hevent)

end Goodmoneying.Library
