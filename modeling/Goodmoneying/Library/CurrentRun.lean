import Mathlib.Data.List.Chain
import Mathlib.Data.List.DropRight

/-!
# Current runs

A stream of elements of which some are usable, and a relation that says when one element continues
another. The current run at a point of the stream is the longest chain of usable elements that ends
there (`CurrentRun`). A loop can carry it, and what it computes over the run: `seededFold` gives
nothing for the first elements, a seed from the first `period` of them, and from then on one step an
element; the last elements may be kept in a window that is cut again after each one
(`rtake_window_concat`).
-/

namespace Goodmoneying.Library

open List

variable {α β : Type}
variable {l : List α}

/-- `run` is the longest chain of usable elements that ends where `seen` does. -/
structure CurrentRun (usable : α → Prop) (follows : α → α → Prop) (seen run : List α) :
    Prop where
  isSuffix : run <:+ seen
  allUsable : ∀ a ∈ run, usable a
  isChain : run.IsChain follows
  longest : ∀ other, other <:+ seen → (∀ a ∈ other, usable a) → other.IsChain follows →
    other.length ≤ run.length

namespace CurrentRun

variable {usable : α → Prop} {follows : α → α → Prop} {seen run : List α} {a : α}

theorem nil : CurrentRun usable follows [] [] where
  isSuffix := suffix_refl []
  allUsable := by simp
  isChain := .nil
  longest other hsuffix _ _ := hsuffix.length_le

/-- The last element of the run is the last one seen. -/
theorem mem_getLast? (h : CurrentRun usable follows seen run) {b : α} (hb : b ∈ run.getLast?) :
    b ∈ seen.getLast? := by
  obtain ⟨before, rfl⟩ := h.isSuffix
  have hne : run ≠ [] := by
    rintro rfl
    simp at hb
  rw [List.getLast?_append_of_ne_nil _ hne]
  exact hb

/-- An unusable element ends every run. -/
theorem unusable (ha : ¬ usable a) : CurrentRun usable follows (seen ++ [a]) [] where
  isSuffix := nil_suffix
  allUsable := by simp
  isChain := .nil
  longest other hsuffix husable _ := by
    rcases suffix_concat_iff.mp hsuffix with rfl | ⟨front, rfl, -⟩
    · exact le_rfl
    · exact absurd (husable a (by simp)) ha

/-- A usable element that continues the run is appended. -/
theorem extend (h : CurrentRun usable follows seen run) (ha : usable a)
    (hfollows : ∀ b ∈ run.getLast?, follows b a) :
    CurrentRun usable follows (seen ++ [a]) (run ++ [a]) where
  isSuffix := by
    obtain ⟨before, rfl⟩ := h.isSuffix
    exact ⟨before, by rw [append_assoc]⟩
  allUsable := by
    intro b hb
    rcases mem_append.mp hb with hb | hb
    · exact h.allUsable b hb
    · rw [mem_singleton.mp hb]
      exact ha
  isChain := by
    refine h.isChain.append (.singleton a) ?_
    intro b hb c hc
    rw [← Option.mem_some.mp hc]
    exact hfollows b hb
  longest other hsuffix husable hchain := by
    rcases suffix_concat_iff.mp hsuffix with rfl | ⟨front, rfl, hfront⟩
    · simp
    · have := h.longest front hfront (fun b hb => husable b (mem_append_left _ hb))
        hchain.left_of_append
      simp only [length_append]
      omega

/-- A usable element that does not continue the one before starts a run. -/
theorem restart (ha : usable a) (hgap : ∀ b ∈ seen.getLast?, ¬ follows b a) :
    CurrentRun usable follows (seen ++ [a]) [a] where
  isSuffix := suffix_append seen [a]
  allUsable := by simpa using ha
  isChain := .singleton a
  longest other hsuffix _ hchain := by
    rcases suffix_concat_iff.mp hsuffix with rfl | ⟨front, rfl, hfront⟩
    · simp
    · rcases eq_nil_or_concat front with rfl | ⟨front, b, rfl⟩
      · exact le_rfl
      · obtain ⟨before, rfl⟩ := hfront
        have hlast : b ∈ (before ++ front.concat b).getLast? := by simp
        have hba : follows b a := by
          refine (isChain_append.mp hchain).2.2 b ?_ a ?_ <;> simp
        exact absurd hba (hgap b hlast)

end CurrentRun

theorem rtake_of_length_le {n : ℕ} (h : l.length ≤ n) : l.rtake n = l := by
  rw [List.rtake, Nat.sub_eq_zero_of_le h, drop_zero]

theorem length_rtake (l : List α) (n : ℕ) : (l.rtake n).length = min n l.length := by
  rw [List.rtake, length_drop]
  omega

theorem rtake_rtake {n m : ℕ} (h : n ≤ m) (l : List α) : (l.rtake m).rtake n = l.rtake n := by
  simp only [List.rtake, drop_drop, length_drop]
  congr 1
  omega

/-- A window that is cut again after each element is a window of all of them. -/
theorem rtake_window_concat (l : List α) (n : ℕ) (a : α) :
    (l.rtake (n + 1) ++ [a]).rtake (n + 1) = (l ++ [a]).rtake (n + 1) := by
  rw [rtake_concat_succ, rtake_concat_succ, rtake_rtake (Nat.le_succ n)]

/-- Nothing below `period` elements, the seed of the first `period`, then a step for each further
one. -/
def seededFold (period : ℕ) (seed : List α → β) (step : β → α → β) (l : List α) : Option β :=
  if l.length < period then none else some ((l.drop period).foldl step (seed (l.take period)))

variable {period : ℕ} {seed : List α → β} {step : β → α → β}

theorem seededFold_eq_none_iff : seededFold period seed step l = none ↔ l.length < period := by
  unfold seededFold
  split_ifs <;> simp_all

/-- One more element: the seed is complete, or the fold takes a step. -/
theorem seededFold_concat (l : List α) (a : α) :
    seededFold period seed step (l ++ [a]) =
      if l.length + 1 = period then some (seed (l ++ [a]))
      else (seededFold period seed step l).map fun value => step value a := by
  unfold seededFold
  simp only [length_append, length_singleton]
  split_ifs with hshort hseed hbelow hseed hbelow
  · omega
  · rfl
  · omega
  · rw [take_of_length_le (by simp; omega), drop_of_length_le (by simp; omega)]
    rfl
  · omega
  · rw [drop_append_of_le_length (by omega), take_append_of_le_length (by omega), foldl_append]
    rfl

/-- A property of the seed that every step keeps is one of the fold. -/
theorem seededFold_induction {P : β → Prop} (hseed : ∀ first, (∀ a ∈ first, a ∈ l) → P (seed first))
    (hstep : ∀ value, ∀ a ∈ l, P value → P (step value a)) :
    ∀ value ∈ seededFold period seed step l, P value := by
  have hfold : ∀ (rest : List α) (value : β), (∀ a ∈ rest, a ∈ l) → P value →
      P (rest.foldl step value) := by
    intro rest
    induction rest with
    | nil => exact fun value _ hvalue => hvalue
    | cons a rest ih =>
      intro value hrest hvalue
      obtain ⟨ha, hrest⟩ := forall_mem_cons.mp hrest
      exact ih _ hrest (hstep value a ha hvalue)
  intro value hvalue
  unfold seededFold at hvalue
  split_ifs at hvalue
  · simp at hvalue
  · rw [← Option.mem_some.mp hvalue]
    exact hfold _ _ (fun a => mem_of_mem_drop) (hseed _ fun a => mem_of_mem_take)

end Goodmoneying.Library
