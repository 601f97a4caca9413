import Mathlib.Data.List.Nodup

/-!
# Steps that do not concern each other

Where a list is gone through with steps that each concern one of its items only, every step does its
part of the work (`foldl_each`), and what concerns none of the items stays (`foldl_keeps`).
-/

namespace Goodmoneying.Library

open List

variable {α σ : Type} {step : σ → α → σ}

/-- What the steps for other items leave alone stays. -/
theorem foldl_keeps {P : σ → Prop} {items : List α}
    (hstep : ∀ item ∈ items, ∀ state, P state → P (step state item)) {state : σ} (h : P state) :
    P (items.foldl step state) := by
  induction items generalizing state with
  | nil => exact h
  | cons item items ih =>
    rw [forall_mem_cons] at hstep
    exact ih hstep.2 (hstep.1 state h)

/-- Each of the steps does its own part, and leaves the others alone. -/
theorem foldl_each (before after : α → σ → Prop) {items : List α} (hnodup : items.Nodup)
    (hstep : ∀ item ∈ items, ∀ state, before item state → after item (step state item))
    (hbefore : ∀ item, ∀ other ∈ items, other ≠ item → ∀ state, before item state →
      before item (step state other))
    (hafter : ∀ item, ∀ other ∈ items, other ≠ item → ∀ state, after item state →
      after item (step state other)) {state : σ} {item : α} (hitem : item ∈ items)
    (h : before item state) : after item (items.foldl step state) := by
  induction items generalizing state with
  | nil => exact absurd hitem not_mem_nil
  | cons first items ih =>
    rw [nodup_cons] at hnodup
    rw [forall_mem_cons] at hstep
    rcases mem_cons.mp hitem with rfl | hmem
    · rw [foldl_cons]
      refine foldl_keeps (fun other hother state => hafter item other
        (mem_cons_of_mem item hother) ?_ state) (hstep.1 state h)
      exact fun heq => hnodup.1 (heq ▸ hother)
    · have hne : first ≠ item := fun heq => hnodup.1 (heq ▸ hmem)
      exact ih hnodup.2 hstep.2
        (fun item other hother => hbefore item other (mem_cons_of_mem first hother))
        (fun item other hother => hafter item other (mem_cons_of_mem first hother)) hmem
        (hbefore item first mem_cons_self hne state h)

end Goodmoneying.Library
