import Mathlib.Algebra.Order.Group.Defs
import Mathlib.Algebra.Order.Sub.Basic
import Mathlib.Data.List.TakeWhile

/-!
# Sliding windows

A limiter of at most `limit` entries in every window of one length keeps a queue of recent
entries and drops from its front those that are a whole window old. What was dropped never
counts again, so a queue shorter than the limit is reason enough to grant.

How old an entry is at a time is a parameter, since a clock may round it; all that is asked of it
is that no entry grows younger. The difference of two times is one such age.
-/

namespace Goodmoneying.SlidingWindow

open List

variable {limit : ℕ}

/-! ## Entries by their age -/

section Ages

variable {T A : Type*} [LinearOrder A] (age : T → T → A)

/-- Dropping from the front what is at least a window old at `now`. -/
def pruneBy (window : A) (now : T) (queue : List T) : List T :=
  queue.dropWhile fun c => decide (window ≤ age now c)

/-- The queue holds the end of the log, and what it no longer holds is at least a window old. -/
def Tracks (window : A) (now : T) (log queue : List T) : Prop :=
  ∃ old, log = old ++ queue ∧ ∀ c ∈ old, window ≤ age now c

/-- An empty queue tracks no entries. -/
theorem Tracks.empty (window : A) (now : T) : Tracks age window now [] [] :=
  ⟨[], rfl, fun _ hc => absurd hc not_mem_nil⟩

variable {age} {window : A} {now now' : T} {log queue : List T}

/-- Pruning drops only what is a window old. -/
theorem Tracks.prune (h : Tracks age window now log queue) :
    Tracks age window now log (pruneBy age window now queue) := by
  obtain ⟨old, hlog, hold⟩ := h
  refine ⟨old ++ queue.takeWhile fun c => decide (window ≤ age now c), ?_, fun c hc => ?_⟩
  · rw [append_assoc, pruneBy, takeWhile_append_dropWhile]
    exact hlog
  · rcases mem_append.mp hc with hc | hc
    · exact hold c hc
    · have hdropped := mem_takeWhile_imp hc
      exact of_decide_eq_true hdropped

/-- Both take the granted entry at their end. -/
theorem Tracks.grant (h : Tracks age window now log queue) (c : T) :
    Tracks age window now (log ++ [c]) (queue ++ [c]) := by
  obtain ⟨old, hlog, hold⟩ := h
  exact ⟨old, by rw [hlog, append_assoc], hold⟩

/-- The front of a pruned queue is less than a window old. -/
theorem head_pruneBy_lt {c : T} {rest : List T} (h : pruneBy age window now queue = c :: rest) :
    age now c < window := by
  have hhead := List.head?_dropWhile_not (fun c => decide (window ≤ age now c)) queue
  rw [show queue.dropWhile (fun c => decide (window ≤ age now c)) = c :: rest from h] at hhead
  simpa using hhead

variable [LinearOrder T]

/-- The entries of a log up to `t` that are less than a window old then. -/
def withinBy (age : T → T → A) (window : A) (t : T) (log : List T) : List T :=
  log.filter fun c => decide (age t c < window ∧ c ≤ t)

/-- At most `limit` entries of the log in every window. -/
def BoundedBy (age : T → T → A) (limit : ℕ) (window : A) (log : List T) : Prop :=
  ∀ t, (withinBy age window t log).length ≤ limit

theorem BoundedBy.empty (age : T → T → A) (limit : ℕ) (window : A) :
    BoundedBy age limit window [] := fun t => by
  simp [withinBy]

/-- What is a window old stays so. -/
theorem Tracks.later (hage : ∀ c, Monotone fun t => age t c) (hnow : now ≤ now')
    (h : Tracks age window now log queue) : Tracks age window now' log queue := by
  obtain ⟨old, hlog, hold⟩ := h
  exact ⟨old, hlog, fun c hc => (hold c hc).trans (hage c hnow)⟩

/-- A queue shorter than the limit is reason enough to grant at `now`. -/
theorem BoundedBy.grant (hage : ∀ c, Monotone fun t => age t c) (h : BoundedBy age limit window log)
    (htracks : Tracks age window now log queue) (hroom : queue.length < limit) :
    BoundedBy age limit window (log ++ [now]) := by
  intro t
  have happend : withinBy age window t (log ++ [now]) =
      withinBy age window t log ++ withinBy age window t [now] := filter_append ..
  by_cases hnow : now ≤ t
  · obtain ⟨old, rfl, hold⟩ := htracks
    -- what is a window old at `now` lies in no window that reaches `now`
    have hnone : withinBy age window t old = [] := filter_eq_nil_iff.mpr fun c hc => by
      simpa using fun hyoung => absurd ((hold c hc).trans (hage c hnow)) (not_le.mpr hyoung)
    have hqueue : (withinBy age window t queue).length ≤ queue.length := length_filter_le ..
    have hone : (withinBy age window t [now]).length ≤ 1 := length_filter_le ..
    rw [happend, show withinBy age window t (old ++ queue) = withinBy age window t old ++
      withinBy age window t queue from filter_append .., hnone]
    simp only [nil_append, length_append]
    omega
  · have hnone : withinBy age window t [now] = [] := by simp [withinBy, hnow]
    rw [happend, hnone, append_nil]
    exact h t

end Ages

/-! ## Windows of time -/

variable {T : Type*} [AddCommGroup T] [LinearOrder T]

/-- The entries of a log in `(t - window, t]`. -/
def within (window t : T) (log : List T) : List T :=
  log.filter fun c => decide (t - window < c ∧ c ≤ t)

/-- Dropping from the front what is at least a window old at `now`. -/
def prune (window now : T) (queue : List T) : List T :=
  queue.dropWhile fun c => decide (window ≤ now - c)

/-- At most `limit` entries of the log in every window. -/
def Bounded (limit : ℕ) (window : T) (log : List T) : Prop :=
  ∀ t, (within window t log).length ≤ limit

theorem Bounded.empty (limit : ℕ) (window : T) : Bounded limit window [] := fun t => by
  simp [within]

variable [IsOrderedAddMonoid T]

theorem age_mono (c : T) : Monotone fun t => t - c := fun _ _ h => sub_le_sub_right h c

variable {window : T} {log : List T}

/-- A window of time holds what is younger than it. -/
theorem bounded_iff : Bounded limit window log ↔ BoundedBy (fun t c => t - c) limit window log := by
  unfold Bounded BoundedBy within withinBy
  simp only [sub_lt_comm]

variable {now : T}

theorem Bounded.grant {queue : List T} (h : Bounded limit window log)
    (htracks : Tracks (fun t c => t - c) window now log queue) (hroom : queue.length < limit) :
    Bounded limit window (log ++ [now]) :=
  bounded_iff.mpr ((bounded_iff.mp h).grant age_mono htracks hroom)

/-! ## Logs in the order of time -/

/-- The entries of a log less than a window old at `now`. -/
def recent (window now : T) (log : List T) : List T :=
  log.filter fun c => decide (now - c < window)

omit [IsOrderedAddMonoid T] in
theorem recent_sorted (hsorted : log.Pairwise (· ≤ ·)) :
    (recent window now log).Pairwise (· ≤ ·) := hsorted.filter _

/-- In a log in the order of time, those that are a window old come first. -/
theorem prune_eq_recent (hsorted : log.Pairwise (· ≤ ·)) :
    prune window now log = recent window now log := by
  induction log with
  | nil => rfl
  | cons c log ih =>
    obtain ⟨hfirst, hrest⟩ := pairwise_cons.mp hsorted
    unfold prune recent at *
    by_cases hold : window ≤ now - c
    · rw [dropWhile_cons_of_pos (by simpa using hold), ih hrest,
        filter_cons_of_neg (by simpa using hold)]
    · rw [dropWhile_cons_of_neg (by simpa using hold), eq_comm, filter_eq_self]
      intro d hd
      have hle : c ≤ d := by
        rcases mem_cons.mp hd with rfl | hd
        · exact le_refl _
        · exact hfirst d hd
      have hlt : now - d < window := lt_of_le_of_lt (sub_le_sub_left hle now) (not_le.mp hold)
      simpa using hlt

/-- A queue of the recent entries holds the end of the log. -/
theorem tracks_recent (hsorted : log.Pairwise (· ≤ ·)) :
    Tracks (fun t c => t - c) window now log (recent window now log) := by
  rw [← prune_eq_recent hsorted]
  exact Tracks.prune ⟨[], rfl, fun _ hc => absurd hc not_mem_nil⟩

/-- The recent entries are found among those that were recent before. -/
theorem recent_recent {window' now' : T} (log : List T) (hnow : now ≤ now')
    (hwindow : window' ≤ window) :
    recent window' now' (recent window now log) = recent window' now' log := by
  unfold recent
  rw [filter_filter]
  refine filter_congr fun c _ => ?_
  rw [Bool.and_eq_left_iff_imp]
  intro hrecent
  have hlt : now' - c < window' := of_decide_eq_true hrecent
  exact decide_eq_true (lt_of_le_of_lt (sub_le_sub_right hnow c) (lt_of_lt_of_le hlt hwindow))

end Goodmoneying.SlidingWindow
