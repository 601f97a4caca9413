import Mathlib.Algebra.GroupWithZero.Nat
import Mathlib.Data.List.Basic
import Goodmoneying.Library.Tiling

/-!
# Runs of points and the gaps between them

Every point of an ascending list takes the interval from itself to the next place (`next`), which no
later point comes before. Points whose intervals touch form a run (`runsFrom`), and between
neighbours whose intervals do not touch there is a gap (`gapsBetween`). The runs and the gaps
together partition what lies between the first point and the place after the last one
(`exists_mem_runs_gaps_iff`, `pairwise_runs_gaps`).
-/

namespace Goodmoneying.Library

open List

variable {α : Type}
variable {points : List α}

/-! ## Runs -/

/-- A run: where it begins and ends, and the number of its points. -/
structure Run (α : Type) where
  start : α
  stop : α
  count : ℕ
  deriving DecidableEq

/-- The half-open interval holds the element. -/
def LiesIn [LinearOrder α] (interval : α × α) (x : α) : Prop := interval.1 ≤ x ∧ x < interval.2

def Run.interval (run : Run α) : α × α := (run.start, run.stop)

/-- The runs of the points from here on, where the run of `count` points from `start` on reaches
the point `last` so far. -/
def runsFrom [DecidableEq α] (next : α → α) (start last : α) (count : ℕ) : List α → List (Run α)
  | [] => [⟨start, next last, count⟩]
  | point :: points =>
    if point = next last then runsFrom next start point (count + 1) points
    else ⟨start, next last, count⟩ :: runsFrom next point point 1 points

/-- The intervals of the runs of a list of points, and their numbers. -/
def runs [DecidableEq α] (next : α → α) : List α → List (Run α)
  | [] => []
  | first :: points => runsFrom next first first 1 points

/-- Every point belongs to one run. -/
theorem sum_count_runsFrom [DecidableEq α] (next : α → α) (start last : α) (count : ℕ)
    (points : List α) :
    ((runsFrom next start last count points).map Run.count).sum = count + points.length := by
  induction points generalizing start last count with
  | nil => simp [runsFrom]
  | cons point points ih =>
    rw [runsFrom]
    split_ifs with htouch
    · rw [ih, length_cons]
      omega
    · simp only [map_cons, sum_cons, ih, length_cons]
      omega

/-! ## Gaps -/

section Gaps

variable [LinearOrder α] {next : α → α}

/-- The gaps between the intervals of neighbours. -/
def gapsBetween (next : α → α) (points : List α) : List (α × α) :=
  (pieces points).filterMap fun piece =>
    if next piece.1 < piece.2 then some (next piece.1, piece.2) else none

theorem gapsBetween_cons_cons (first second : α) (points : List α) :
    gapsBetween next (first :: second :: points) =
      if next first < second then (next first, second) :: gapsBetween next (second :: points)
      else gapsBetween next (second :: points) := by
  rw [gapsBetween, pieces_cons_cons, filterMap_cons]
  by_cases hlt : next first < second
  · simp [hlt, gapsBetween]
  · simp [hlt, gapsBetween]

/-- A gap has an element. -/
theorem lt_of_mem_gapsBetween {gap : α × α} (h : gap ∈ gapsBetween next points) :
    gap.1 < gap.2 := by
  obtain ⟨piece, -, hpiece⟩ := mem_filterMap.mp h
  split_ifs at hpiece with hlt
  obtain rfl := Option.some.inj hpiece
  exact hlt

end Gaps

/-! ## Spaced points -/

section Spaced

variable [LinearOrder α]
variable {first start last : α} {count : ℕ}

/-- Every point has room up to the next place, and no later point begins before that. -/
structure Spaced (next : α → α) (points : List α) : Prop where
  lt_next : ∀ point ∈ points, point < next point
  next_le : points.Pairwise fun first second => next first ≤ second

variable {next : α → α}

theorem Spaced.tail (h : Spaced next (first :: points)) : Spaced next points where
  lt_next point hpoint := h.lt_next point (mem_cons_of_mem _ hpoint)
  next_le := (pairwise_cons.mp h.next_le).2

/-- A later point is greater. -/
theorem Spaced.lt_of_mem {point : α} (h : Spaced next (first :: points)) (hpoint : point ∈ points) :
    first < point :=
  (h.lt_next first mem_cons_self).trans_le ((pairwise_cons.mp h.next_le).1 point hpoint)

/-- Any other point has its room before the last one. -/
theorem Spaced.eq_or_next_le_getLast (h : Spaced next points) (hne : points ≠ []) {point : α}
    (hpoint : point ∈ points) : point = points.getLast hne ∨ next point ≤ points.getLast hne := by
  have hpairs : points.Pairwise fun first second => first = second ∨ next first ≤ second :=
    h.next_le.imp Or.inr
  exact hpairs.rel_getLast_of_rel_getLast_getLast hpoint (Or.inl rfl)

/-! ### What lies in a run -/

/-- The elements of the runs are those of the intervals. -/
theorem exists_mem_runsFrom_iff (h : Spaced next (last :: points)) (hstart : start ≤ last) (x : α) :
    (∃ run ∈ runsFrom next start last count points, run.start ≤ x ∧ x < run.stop) ↔
      (start ≤ x ∧ x < next last) ∨ ∃ point ∈ points, point ≤ x ∧ x < next point := by
  induction points generalizing start last count with
  | nil => simp [runsFrom]
  | cons point points ih =>
    rw [runsFrom, exists_mem_cons_iff]
    split_ifs with htouch
    · subst htouch
      have hlast := h.lt_next last mem_cons_self
      have hnext := h.tail.lt_next (next last) mem_cons_self
      rw [ih h.tail (hstart.trans hlast.le), ← or_assoc]
      refine or_congr_left ?_
      -- the interval of the point goes on where the run ended
      constructor
      · rintro ⟨hx, hlt⟩
        exact (lt_or_ge x (next last)).imp (fun hbefore => ⟨hx, hbefore⟩) fun hfrom => ⟨hfrom, hlt⟩
      · rintro (⟨hx, hlt⟩ | ⟨hx, hlt⟩)
        · exact ⟨hx, hlt.trans hnext⟩
        · exact ⟨(hstart.trans hlast.le).trans hx, hlt⟩
    · rw [exists_mem_cons_iff, ih h.tail le_rfl]

/-- A run begins where the open one does, or at a point. -/
theorem start_of_mem_runsFrom {run : Run α} (h : run ∈ runsFrom next start last count points) :
    run.start = start ∨ run.start ∈ points := by
  induction points generalizing start last count with
  | nil =>
    obtain rfl := mem_singleton.mp h
    exact Or.inl rfl
  | cons point points ih =>
    rw [runsFrom] at h
    split_ifs at h with htouch
    · exact (ih h).imp_right (mem_cons_of_mem _)
    · rcases mem_cons.mp h with rfl | hlater
      · exact Or.inl rfl
      · right
        rcases ih hlater with heq | hmem
        · exact heq ▸ mem_cons_self
        · exact mem_cons_of_mem _ hmem

/-- No run is empty. -/
theorem lt_of_mem_runsFrom (h : Spaced next (last :: points)) (hstart : start ≤ last) {run : Run α}
    (hrun : run ∈ runsFrom next start last count points) : run.start < run.stop := by
  have hlast := h.lt_next last mem_cons_self
  induction points generalizing start last count with
  | nil =>
    obtain rfl := mem_singleton.mp hrun
    exact hstart.trans_lt hlast
  | cons point points ih =>
    have hpoint := h.tail.lt_next point mem_cons_self
    rw [runsFrom] at hrun
    split_ifs at hrun with htouch
    · exact ih h.tail (hstart.trans (h.lt_of_mem mem_cons_self).le) hrun hpoint
    · rcases mem_cons.mp hrun with rfl | hlater
      · exact hstart.trans_lt hlast
      · exact ih h.tail le_rfl hlater hpoint

/-- The runs ascend. -/
theorem pairwise_runsFrom (h : Spaced next (last :: points)) :
    (runsFrom next start last count points).Pairwise fun run other => run.stop ≤ other.start := by
  induction points generalizing start last count with
  | nil => exact pairwise_singleton _ _
  | cons point points ih =>
    rw [runsFrom]
    split_ifs with htouch
    · exact ih h.tail
    · refine pairwise_cons.mpr ⟨fun run hrun => ?_, ih h.tail⟩
      have hfrom := (pairwise_cons.mp h.next_le).1
      rcases start_of_mem_runsFrom hrun with heq | hmem
      · rw [heq]
        exact hfrom point mem_cons_self
      · exact hfrom run.start (mem_cons_of_mem _ hmem)

/-! ### What lies in a gap -/

/-- The gaps ascend. -/
theorem pairwise_gapsBetween (h : Spaced next points) :
    (gapsBetween next points).Pairwise fun gap other => gap.2 ≤ other.1 := by
  induction points with
  | nil => exact List.Pairwise.nil
  | cons first points ih =>
    cases points with
    | nil => exact List.Pairwise.nil
    | cons second points =>
      rw [gapsBetween_cons_cons]
      split_ifs with hlt
      · refine pairwise_cons.mpr ⟨fun gap hgap => ?_, ih h.tail⟩
        obtain ⟨piece, hmem, hpiece⟩ := mem_filterMap.mp hgap
        split_ifs at hpiece
        obtain rfl := Option.some.inj hpiece
        have hbegin := (mem_of_mem_pieces hmem).1
        have hroom := h.tail.lt_next piece.1 hbegin
        show second ≤ next piece.1
        rcases mem_cons.mp hbegin with heq | hlater
        · rw [← heq]
          exact hroom.le
        · exact ((h.tail.lt_of_mem hlater).trans hroom).le
      · exact ih h.tail

/-- The elements of the gaps are those between the first point and the last that lie in no
interval. -/
theorem exists_mem_gapsBetween_iff (h : Spaced next (first :: points)) (x : α) :
    (∃ gap ∈ gapsBetween next (first :: points), gap.1 ≤ x ∧ x < gap.2) ↔
      first ≤ x ∧ x < (first :: points).getLast (cons_ne_nil _ _) ∧
        ∀ point ∈ first :: points, ¬ (point ≤ x ∧ x < next point) := by
  induction points generalizing first with
  | nil =>
    have hnone : gapsBetween next [first] = [] := rfl
    rw [hnone, getLast_singleton]
    simp only [not_mem_nil, false_and, exists_false, false_iff]
    rintro ⟨hle, hlt, -⟩
    exact absurd hlt (not_lt.mpr hle)
  | cons second points ih =>
    have hfirst := h.lt_next first mem_cons_self
    have hnext := (pairwise_cons.mp h.next_le).1 second mem_cons_self
    have hif : (∃ gap ∈ gapsBetween next (first :: second :: points), gap.1 ≤ x ∧ x < gap.2) ↔
        (next first ≤ x ∧ x < second) ∨
          ∃ gap ∈ gapsBetween next (second :: points), gap.1 ≤ x ∧ x < gap.2 := by
      rw [gapsBetween_cons_cons]
      split_ifs with hlt
      · rw [exists_mem_cons_iff]
      · refine (or_iff_right ?_).symm
        rintro ⟨hle, hbefore⟩
        exact hlt (hle.trans_lt hbefore)
    have hlast : second ≤ (second :: points).getLast (cons_ne_nil _ _) := by
      rcases mem_cons.mp (getLast_mem (cons_ne_nil second points)) with heq | hmem
      · exact heq.symm.le
      · exact (h.tail.lt_of_mem hmem).le
    rw [hif, ih h.tail, getLast_cons_cons, forall_mem_cons (a := first)]
    constructor
    · rintro (⟨hle, hlt⟩ | ⟨hle, hlt, hnone⟩)
      · refine ⟨hfirst.le.trans hle, hlt.trans_le hlast, fun hin => not_le.mpr hin.2 hle,
          fun point hpoint hin => ?_⟩
        rcases mem_cons.mp hpoint with rfl | hlater
        · exact not_le.mpr hlt hin.1
        · exact not_le.mpr (hlt.trans (h.tail.lt_of_mem hlater)) hin.1
      · exact ⟨(h.lt_of_mem mem_cons_self).le.trans hle, hlt,
          fun hin => not_le.mpr hin.2 (hnext.trans hle), hnone⟩
    · rintro ⟨hle, hlt, hnot, hnone⟩
      have hfrom : next first ≤ x := not_lt.mp fun hbefore => hnot ⟨hle, hbefore⟩
      exact (lt_or_ge x second).imp (fun hbefore => ⟨hfrom, hbefore⟩) fun hge => ⟨hge, hlt, hnone⟩

/-! ### Runs and gaps -/

/-- The elements of the runs are those of the intervals of the points. -/
theorem exists_mem_runs_iff (h : Spaced next points) (x : α) :
    (∃ run ∈ runs next points, LiesIn run.interval x) ↔
      ∃ point ∈ points, LiesIn (point, next point) x := by
  cases points with
  | nil => simp [runs]
  | cons first points =>
    rw [exists_mem_cons_iff]
    exact exists_mem_runsFrom_iff h le_rfl x

/-- The runs and the gaps hold what lies between the first point and the place after the last. -/
theorem exists_mem_runs_gaps_iff (h : Spaced next (first :: points)) (x : α) :
    (∃ interval ∈ (runs next (first :: points)).map Run.interval ++
        gapsBetween next (first :: points), LiesIn interval x) ↔
      first ≤ x ∧ x < next ((first :: points).getLast (cons_ne_nil _ _)) := by
  have hne := cons_ne_nil first points
  have hlast := getLast_mem hne
  have hroom := h.lt_next _ hlast
  have hfirst : ∀ point ∈ first :: points, first ≤ point := by
    intro point hpoint
    rcases mem_cons.mp hpoint with heq | hlater
    · exact heq.symm.le
    · exact (h.lt_of_mem hlater).le
  have hend : ∀ point ∈ first :: points, next point ≤ next ((first :: points).getLast hne) := by
    intro point hpoint
    rcases h.eq_or_next_le_getLast hne hpoint with heq | hle
    · exact heq ▸ le_rfl
    · exact hle.trans hroom.le
  constructor
  · rintro ⟨interval, hmem, hin⟩
    rcases mem_append.mp hmem with hrun | hgap
    · obtain ⟨run, hmemRun, rfl⟩ := mem_map.mp hrun
      obtain ⟨point, hpoint, hle, hlt⟩ := (exists_mem_runs_iff h x).mp ⟨run, hmemRun, hin⟩
      exact ⟨(hfirst point hpoint).trans hle, hlt.trans_le (hend point hpoint)⟩
    · obtain ⟨hle, hlt, -⟩ := (exists_mem_gapsBetween_iff h x).mp ⟨interval, hgap, hin⟩
      exact ⟨hle, hlt.trans hroom⟩
  · rintro ⟨hle, hlt⟩
    by_cases hpoint : ∃ point ∈ first :: points, LiesIn (point, next point) x
    · obtain ⟨run, hrun, hin⟩ := (exists_mem_runs_iff h x).mpr hpoint
      exact ⟨run.interval, mem_append_left _ (mem_map_of_mem hrun), hin⟩
    · have hnone : ∀ point ∈ first :: points, ¬ (point ≤ x ∧ x < next point) :=
        fun point hmem hin => hpoint ⟨point, hmem, hin⟩
      have hbefore : x < (first :: points).getLast hne :=
        not_le.mp fun hge => hnone _ hlast ⟨hge, hlt⟩
      obtain ⟨gap, hgap, hin⟩ := (exists_mem_gapsBetween_iff h x).mpr ⟨hle, hbefore, hnone⟩
      exact ⟨gap, mem_append_right _ hgap, hin⟩

/-- Two of the runs and gaps have nothing in common. -/
theorem pairwise_runs_gaps (h : Spaced next points) :
    ((runs next points).map Run.interval ++ gapsBetween next points).Pairwise
      fun interval other => ∀ x, ¬ (LiesIn interval x ∧ LiesIn other x) := by
  cases points with
  | nil => exact List.Pairwise.nil
  | cons first points =>
    have hapart : ∀ {interval other : α × α}, interval.2 ≤ other.1 →
        ∀ x, ¬ (LiesIn interval x ∧ LiesIn other x) :=
      fun hle x hin => not_le.mpr hin.1.2 (hle.trans hin.2.1)
    rw [pairwise_append, pairwise_map]
    refine ⟨(pairwise_runsFrom h).imp hapart, (pairwise_gapsBetween h).imp hapart,
      fun interval hrun gap hgap x hin => ?_⟩
    obtain ⟨run, hmem, rfl⟩ := mem_map.mp hrun
    -- an element of a run lies in the interval of a point, and one of a gap in none
    obtain ⟨point, hpoint, hwithin⟩ := (exists_mem_runs_iff h x).mp ⟨run, hmem, hin.1⟩
    obtain ⟨-, -, hnone⟩ := (exists_mem_gapsBetween_iff h x).mp ⟨gap, hgap, hin.2⟩
    exact hnone point hpoint hwithin

end Spaced

end Goodmoneying.Library
