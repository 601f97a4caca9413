import Mathlib.Order.Lattice

/-!
# Gaps of a scan

A scan goes through ascending points and opens a range at the first missing point after a present
one; the range ends at the next present point, or where the scan stops (`scanGaps`). The ranges ascend
without overlap, and a point of the scan lies in one of them exactly when it is missing
(`scanGaps_exact`).
-/

namespace Goodmoneying.Library

open List

variable {T : Type}
variable {missing : T → Bool} {stop point low : T} {points : List T}

/-- The ranges from here on, where `opened` is the beginning of a range that has no end yet. -/
def scanGapsFrom (missing : T → Bool) (stop : T) : List T → Option T → List (T × T)
  | [], none => []
  | [], some first => [(first, stop)]
  | point :: points, none =>
    if missing point then scanGapsFrom missing stop points (some point)
    else scanGapsFrom missing stop points none
  | point :: points, some first =>
    if missing point then scanGapsFrom missing stop points (some first)
    else (first, point) :: scanGapsFrom missing stop points none

def scanGaps (missing : T → Bool) (stop : T) (points : List T) : List (T × T) :=
  scanGapsFrom missing stop points none

/-- Where every point is missing, an open range goes on to the end. -/
theorem scanGapsFrom_of_forall_missing (h : ∀ point ∈ points, missing point = true) (first : T) :
    scanGapsFrom missing stop points (some first) = [(first, stop)] := by
  induction points with
  | nil => rfl
  | cons point points ih =>
    rw [scanGapsFrom, if_pos (h point mem_cons_self)]
    exact ih fun other hother => h other (mem_cons_of_mem _ hother)

theorem scanGaps_of_forall_missing (h : ∀ other ∈ point :: points, missing other = true) :
    scanGaps missing stop (point :: points) = [(point, stop)] := by
  rw [scanGaps, scanGapsFrom, if_pos (h point mem_cons_self)]
  exact scanGapsFrom_of_forall_missing (fun other hother => h other (mem_cons_of_mem _ hother))
    point

/-- A range begins where one is open, or at a point. -/
theorem begins_scanGapsFrom {opened : Option T} :
    ∀ range ∈ scanGapsFrom missing stop points opened, opened = some range.1 ∨ range.1 ∈ points := by
  induction points generalizing opened with
  | nil =>
    intro range hrange
    cases opened with
    | none => cases hrange
    | some first =>
      obtain rfl := mem_singleton.mp hrange
      exact Or.inl rfl
  | cons point points ih =>
    have hlater : ∀ (other : Option T), ∀ range ∈ scanGapsFrom missing stop points other,
        other = some range.1 ∨ range.1 ∈ point :: points := fun other range hrange =>
      (ih range hrange).imp_right (mem_cons_of_mem _)
    intro range hrange
    cases opened with
    | none =>
      rw [scanGapsFrom] at hrange
      split_ifs at hrange with hmissing
      · rcases hlater _ range hrange with hfirst | hpoint
        · exact Or.inr (Option.some.inj hfirst ▸ mem_cons_self)
        · exact Or.inr hpoint
      · exact hlater _ range hrange
    | some first =>
      rw [scanGapsFrom] at hrange
      split_ifs at hrange with hmissing
      · exact hlater _ range hrange
      · rcases mem_cons.mp hrange with rfl | hrange
        · exact Or.inl rfl
        · exact Or.inr ((hlater _ range hrange).resolve_left fun hnone => by cases hnone)

/-- An open range ends at a point or with the scan. -/
theorem opened_scanGapsFrom (first : T) :
    ∃ last, (first, last) ∈ scanGapsFrom missing stop points (some first) ∧
      (last ∈ points ∨ last = stop) := by
  induction points with
  | nil => exact ⟨stop, mem_singleton_self _, Or.inr rfl⟩
  | cons point points ih =>
    rw [scanGapsFrom]
    split_ifs with hmissing
    · obtain ⟨last, hlast, hend⟩ := ih
      exact ⟨last, hlast, hend.imp_left (mem_cons_of_mem _)⟩
    · exact ⟨point, mem_cons_self, Or.inl mem_cons_self⟩

variable [LinearOrder T]

/-- What the ranges of a scan are, where `low` is a bound of what is open and of the points. -/
structure GapsExact (missing : T → Bool) (stop low : T) (points : List T)
    (ranges : List (T × T)) : Prop where
  nonempty : ∀ range ∈ ranges, range.1 < range.2
  inside : ∀ range ∈ ranges, low ≤ range.1 ∧ range.2 ≤ stop
  ascending : ranges.Pairwise fun range later => range.2 ≤ later.1
  exact : ∀ point ∈ points,
    (∃ range ∈ ranges, range.1 ≤ point ∧ point < range.2) ↔ missing point = true

/-- A missing point lies in the range that is open at it. -/
theorem GapsExact.cons_missing {first : T} (hfirst : first ≤ point) (hstop : point < stop)
    (hhead : ∀ later ∈ points, point < later) (hmissing : missing point = true)
    (h : GapsExact missing stop low points (scanGapsFrom missing stop points (some first))) :
    GapsExact missing stop low (point :: points)
      (scanGapsFrom missing stop points (some first)) where
  nonempty := h.nonempty
  inside := h.inside
  ascending := h.ascending
  exact := by
    refine forall_mem_cons.mpr ⟨?_, h.exact⟩
    obtain ⟨last, hlast, hend⟩ : ∃ last, (first, last) ∈ scanGapsFrom missing stop points
        (some first) ∧ (last ∈ points ∨ last = stop) := opened_scanGapsFrom first
    have hafter : point < last := by
      rcases hend with hin | rfl
      · exact hhead last hin
      · exact hstop
    exact iff_of_true ⟨(first, last), hlast, hfirst, hafter⟩ hmissing

/-- Where no range is open, the ranges begin after a point that is there. -/
theorem GapsExact.cons_present (hhead : ∀ later ∈ points, point < later)
    (hpresent : ¬ missing point = true)
    (h : GapsExact missing stop low points (scanGapsFrom missing stop points none)) :
    GapsExact missing stop low (point :: points) (scanGapsFrom missing stop points none) where
  nonempty := h.nonempty
  inside := h.inside
  ascending := h.ascending
  exact := by
    refine forall_mem_cons.mpr ⟨iff_of_false ?_ hpresent, h.exact⟩
    rintro ⟨range, hrange, hbegins, -⟩
    have hpoint := (begins_scanGapsFrom range hrange).resolve_left fun hnone => by cases hnone
    exact absurd (hhead range.1 hpoint) (not_lt.mpr hbegins)

/-- A range that is open ends at a point that is there. -/
theorem GapsExact.cons_closed {first : T} (hlow : low ≤ first) (hfirst : first < point)
    (hstop : point < stop) (hhead : ∀ later ∈ points, point < later)
    (h : GapsExact missing stop low (point :: points) (scanGapsFrom missing stop points none)) :
    GapsExact missing stop low (point :: points)
      ((first, point) :: scanGapsFrom missing stop points none) where
  nonempty := forall_mem_cons.mpr ⟨hfirst, h.nonempty⟩
  inside := forall_mem_cons.mpr ⟨⟨hlow, hstop.le⟩, h.inside⟩
  ascending := by
    refine pairwise_cons.mpr ⟨fun range hrange => ?_, h.ascending⟩
    have hpoint := (begins_scanGapsFrom range hrange).resolve_left fun hnone => by cases hnone
    exact (hhead range.1 hpoint).le
  exact := by
    intro other hother
    rw [← h.exact other hother]
    constructor
    · rintro ⟨range, hrange, hbegins, hends⟩
      rcases mem_cons.mp hrange with rfl | hrange
      · have hle : point ≤ other := by
          rcases mem_cons.mp hother with rfl | hother
          · exact le_refl _
          · exact (hhead other hother).le
        exact absurd hends (not_lt.mpr hle)
      · exact ⟨range, hrange, hbegins, hends⟩
    · rintro ⟨range, hrange, hin⟩
      exact ⟨range, mem_cons_of_mem _ hrange, hin⟩

/-- The scan finds exactly the points that are missing. -/
theorem scanGapsFrom_exact {opened : Option T} (hpoints : points.Pairwise (· < ·))
    (hstop : ∀ point ∈ points, point < stop) (hlow : ∀ point ∈ points, low ≤ point) (hopened : ∀
      first, opened = some first → low ≤ first ∧ first < stop ∧ ∀ point ∈ points, first < point) :
    GapsExact missing stop low points (scanGapsFrom missing stop points opened) := by
  induction points generalizing opened with
  | nil =>
    cases opened with
    | none => exact ⟨by simp [scanGapsFrom], by simp [scanGapsFrom], List.Pairwise.nil, by simp⟩
    | some first =>
      obtain ⟨hfirst, hbefore, -⟩ := hopened first rfl
      exact ⟨by simpa [scanGapsFrom] using hbefore, by simpa [scanGapsFrom] using hfirst,
        pairwise_singleton _ _, by simp⟩
  | cons point points ih =>
    obtain ⟨hhead, hrest⟩ := pairwise_cons.mp hpoints
    rw [forall_mem_cons] at hstop hlow
    have hopen : ∀ first, low ≤ first → first ≤ point → missing point = true →
        GapsExact missing stop low (point :: points)
          (scanGapsFrom missing stop points (some first)) := by
      intro first hfirst hle hmissing
      refine GapsExact.cons_missing hle hstop.1 hhead hmissing
        (ih hrest hstop.2 hlow.2 fun other hother => ?_)
      obtain rfl := Option.some.inj hother
      exact ⟨hfirst, lt_of_le_of_lt hle hstop.1,
        fun later hlater => lt_of_le_of_lt hle (hhead later hlater)⟩
    have hclosed : ¬ missing point = true →
        GapsExact missing stop low (point :: points) (scanGapsFrom missing stop points none) :=
      fun hpresent => GapsExact.cons_present hhead hpresent
        (ih hrest hstop.2 hlow.2 fun _ hnone => by cases hnone)
    cases opened with
    | none =>
      rw [scanGapsFrom]
      split_ifs with hmissing
      · exact hopen point hlow.1 (le_refl _) hmissing
      · exact hclosed hmissing
    | some first =>
      obtain ⟨hfirst, -, hbefore⟩ := hopened first rfl
      have hlt := hbefore point mem_cons_self
      rw [scanGapsFrom]
      split_ifs with hmissing
      · exact hopen first hfirst hlt.le hmissing
      · exact GapsExact.cons_closed hfirst hlt hstop.1 hhead (hclosed hmissing)

/-- The ranges of a scan are its gaps. -/
theorem scanGaps_exact (hpoints : points.Pairwise (· < ·)) (hstop : ∀ point ∈ points, point < stop)
    (hlow : ∀ point ∈ points, low ≤ point) :
    GapsExact missing stop low points (scanGaps missing stop points) :=
  scanGapsFrom_exact hpoints hstop hlow fun _ hnone => by cases hnone

end Goodmoneying.Library
