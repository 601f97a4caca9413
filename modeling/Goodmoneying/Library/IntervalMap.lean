import Mathlib.Data.List.Basic
import Mathlib.Data.List.Pairwise
import Mathlib.Order.Basic
import Mathlib.Order.Lattice
import Mathlib.Order.MinMax

/-!
# Maps kept as half-open intervals

A map from a linear order to values is kept as a list of intervals `[start, stop)` with a
value each. Where the intervals are apart, `lookup` reads the map; `assign` gives one interval
a new value, which cuts that interval out of the others; `clip` and `gaps` split an interval
into the parts that the map covers and the parts that it does not.
-/

namespace Goodmoneying.Library

open List

variable {α β γ : Type} [LinearOrder α]
variable {x start stop : α} {value : γ}

/-! ## Intervals -/

/-- A nonempty half-open interval with a value. -/
structure Span (α β : Type) [LinearOrder α] where
  start : α
  stop : α
  value : β
  start_lt : start < stop

/-- `x` lies in the interval. -/
def Span.Contains (span : Span α β) (x : α) : Prop := span.start ≤ x ∧ x < span.stop

instance (span : Span α β) (x : α) : Decidable (span.Contains x) :=
  inferInstanceAs (Decidable (_ ∧ _))

/-- One interval ends before the other begins. -/
def Apart (a : Span α β) (b : Span α γ) : Prop := a.stop ≤ b.start ∨ b.stop ≤ a.start

instance (a : Span α β) (b : Span α γ) : Decidable (Apart a b) :=
  inferInstanceAs (Decidable (_ ∨ _))

variable {a : Span α β} {b : Span α γ}

theorem Apart.symm (h : Apart a b) : Apart b a := Or.symm h

/-- Intervals are apart exactly when they share no point. -/
theorem apart_iff : Apart a b ↔ ∀ x, a.Contains x → ¬ b.Contains x := by
  constructor
  · rintro (h | h) x ⟨hax, hxa⟩ ⟨hbx, hxb⟩
    · exact absurd (lt_of_lt_of_le hxa h) (not_lt.mpr hbx)
    · exact absurd (lt_of_lt_of_le hxb h) (not_lt.mpr hax)
  · intro h
    by_contra hclose
    simp only [Apart, not_or, not_le] at hclose
    -- the later of the two starts lies in both
    have ha : a.Contains (max a.start b.start) := ⟨le_max_left _ _, max_lt a.start_lt hclose.1⟩
    exact h _ ha ⟨le_max_right _ _, max_lt hclose.2 b.start_lt⟩

/-- `a` lies within `b`. -/
def Span.Within (a : Span α β) (b : Span α γ) : Prop := b.start ≤ a.start ∧ a.stop ≤ b.stop

theorem Span.Within.refl (a : Span α β) : a.Within a := ⟨le_rfl, le_rfl⟩

theorem Apart.within (h : Apart a b) {δ ε : Type} {a' : Span α δ} {b' : Span α ε} (ha : a'.Within a)
    (hb : b'.Within b) : Apart a' b' :=
  h.imp (fun h => (ha.2.trans h).trans hb.1) fun h => (hb.2.trans h).trans ha.1

/-! ## Reading the map -/

/-- The value at `x`, of the first interval that contains it. -/
def lookup (spans : List (Span α β)) (x : α) : Option β :=
  (spans.find? fun span => span.Contains x).map Span.value

variable {spans : List (Span α β)}

/-- Where the intervals are apart, each one gives the value on its points. -/
theorem lookup_eq_some_iff (h : spans.Pairwise Apart) {value : β} :
    lookup spans x = some value ↔ ∃ span ∈ spans, span.Contains x ∧ span.value = value := by
  induction spans with
  | nil => simp [lookup]
  | cons span spans ih =>
    obtain ⟨hspan, hspans⟩ := pairwise_cons.mp h
    by_cases hx : span.Contains x
    · have hothers : ∀ other ∈ spans, ¬ other.Contains x := fun other hother =>
        apart_iff.mp (hspan other hother) x hx
      have hlookup : lookup (span :: spans) x = some span.value := by simp [lookup, hx]
      rw [hlookup, Option.some.injEq]
      constructor
      · intro hvalue
        exact ⟨span, by simp, hx, hvalue⟩
      · rintro ⟨other, hother, hcontains, hvalue⟩
        rcases mem_cons.mp hother with rfl | hother
        · exact hvalue
        · exact absurd hcontains (hothers other hother)
    · have hlookup : lookup (span :: spans) x = lookup spans x := by simp [lookup, hx]
      rw [hlookup, ih hspans]
      simp [hx]

theorem lookup_eq_none_iff : lookup spans x = none ↔ ∀ span ∈ spans, ¬ span.Contains x := by
  simp [lookup]

/-- The order of the intervals does not matter. -/
theorem lookup_perm {spans' : List (Span α β)} (h : spans.Pairwise Apart)
    (hperm : spans'.Perm spans) (x : α) : lookup spans' x = lookup spans x := by
  have h' : spans'.Pairwise Apart := (hperm.pairwise_iff Apart.symm).mpr h
  refine Option.ext fun value => ?_
  rw [lookup_eq_some_iff h, lookup_eq_some_iff h']
  simp [hperm.mem_iff]

/-! ## Assigning an interval -/

/-- The interval `[start, stop)` with the value, if there is one. -/
def Span.ofBounds (start stop : α) (value : β) : List (Span α β) :=
  if h : start < stop then [⟨start, stop, value, h⟩] else []

/-- What the interval has outside of `[start, stop)`. -/
def Span.trim (start stop : α) (span : Span α β) : List (Span α β) :=
  Span.ofBounds span.start (min span.stop start) span.value ++
    Span.ofBounds (max span.start stop) span.stop span.value

variable {span : Span α β}

/-- The interval of the given bounds. -/
theorem mem_ofBounds {value : β} : span ∈ Span.ofBounds start stop value ↔
      span.start = start ∧ span.stop = stop ∧ span.value = value := by
  unfold Span.ofBounds
  split_ifs with h
  · rw [mem_singleton]
    constructor
    · rintro rfl
      exact ⟨rfl, rfl, rfl⟩
    · rintro ⟨rfl, rfl, rfl⟩
      rfl
  · simp only [not_mem_nil, false_iff]
    rintro ⟨rfl, rfl, -⟩
    exact h span.start_lt

/-- One interval or none is apart from nothing. -/
theorem ofBounds_pairwise (start stop : α) (value : β) :
    (Span.ofBounds start stop value).Pairwise Apart := by
  unfold Span.ofBounds
  split_ifs
  · exact pairwise_singleton _ _
  · exact List.Pairwise.nil

/-- The remainders keep the value and lie within their interval, outside of the one cut
out. -/
theorem mem_trim {piece : Span α β} (h : piece ∈ span.trim start stop) :
    piece.value = span.value ∧ piece.Within span ∧ (piece.stop ≤ start ∨ stop ≤ piece.start) := by
  rcases mem_append.mp h with h | h
  · obtain ⟨hstart, hstop, hvalue⟩ := mem_ofBounds.mp h
    exact ⟨hvalue, ⟨hstart.ge, hstop.le.trans (min_le_left _ _)⟩,
      Or.inl (hstop.le.trans (min_le_right _ _))⟩
  · obtain ⟨hstart, hstop, hvalue⟩ := mem_ofBounds.mp h
    exact ⟨hvalue, ⟨(le_max_left _ _).trans hstart.ge, hstop.le⟩,
      Or.inr ((le_max_right _ _).trans hstart.ge)⟩

/-- The remainders hold the points outside of the interval cut out. -/
theorem exists_mem_trim_iff : (∃ piece ∈ span.trim start stop, piece.Contains x) ↔
      span.Contains x ∧ (x < start ∨ stop ≤ x) := by
  constructor
  · rintro ⟨piece, hpiece, hx⟩
    obtain ⟨-, hwithin, houtside⟩ := mem_trim hpiece
    exact ⟨⟨hwithin.1.trans hx.1, hx.2.trans_le hwithin.2⟩,
      houtside.imp hx.2.trans_le fun h => h.trans hx.1⟩
  · rintro ⟨⟨hstart, hstop⟩, houtside⟩
    unfold Span.trim
    rcases houtside with hx | hx
    · have hlt := lt_min hstop hx
      refine ⟨⟨span.start, min span.stop start, span.value, hstart.trans_lt hlt⟩, ?_, hstart, hlt⟩
      exact mem_append_left _ (mem_ofBounds.mpr ⟨rfl, rfl, rfl⟩)
    · have hle := max_le hstart hx
      refine ⟨⟨max span.start stop, span.stop, span.value, hle.trans_lt hstop⟩, ?_, hle, hstop⟩
      exact mem_append_right _ (mem_ofBounds.mpr ⟨rfl, rfl, rfl⟩)

/-- The remainders are apart. -/
theorem trim_pairwise (h : start < stop) (span : Span α β) :
    (span.trim start stop).Pairwise Apart := by
  refine pairwise_append.mpr
    ⟨ofBounds_pairwise _ _ _, ofBounds_pairwise _ _ _, fun a ha b hb => Or.inl ?_⟩
  rw [(mem_ofBounds.mp ha).2.1, (mem_ofBounds.mp hb).1]
  exact (min_le_right _ _).trans (h.le.trans (le_max_right _ _))

/-- An interval that is apart from the one cut out stays as it is. -/
theorem trim_eq_self (h : start < stop) (houtside : span.stop ≤ start ∨ stop ≤ span.start) :
    span.trim start stop = [span] := by
  unfold Span.trim Span.ofBounds
  rcases houtside with hle | hle
  · have hright : ¬ max span.start stop < span.stop :=
      not_lt.mpr ((hle.trans h.le).trans (le_max_right _ _))
    simp [min_eq_left hle, span.start_lt, hright]
  · have hleft : ¬ span.start < min span.stop start :=
      not_lt.mpr ((min_le_right _ _).trans (h.le.trans hle))
    simp [max_eq_left hle, span.start_lt, hleft]

/-- Cutting one of several intervals keeps them apart. -/
theorem append_trim_pairwise (h : start < stop) {rest : List (Span α β)}
    (hspans : (span :: rest).Pairwise Apart) : (rest ++ span.trim start stop).Pairwise Apart := by
  obtain ⟨hspan, hrest⟩ := pairwise_cons.mp hspans
  refine pairwise_append.mpr ⟨hrest, trim_pairwise h span, fun a ha b hb => ?_⟩
  exact ((hspan a ha).within (mem_trim hb).2.1 (Span.Within.refl a)).symm

theorem flatMap_trim_eq_self (h : start < stop)
    (houtside : ∀ span ∈ spans, span.stop ≤ start ∨ stop ≤ span.start) :
    spans.flatMap (Span.trim start stop) = spans :=
  (flatMap_congr fun span hspan => trim_eq_self h (houtside span hspan)).trans
    (flatMap_singleton' spans)

/-- The map with the value on all of `[start, stop)`. -/
def assign (spans : List (Span α β)) (start stop : α) (value : β) : List (Span α β) :=
  spans.flatMap (Span.trim start stop) ++ Span.ofBounds start stop value

theorem flatMap_trim_pairwise (h : start < stop) (hspans : spans.Pairwise Apart) :
    (spans.flatMap (Span.trim start stop)).Pairwise Apart := by
  refine pairwise_flatMap.mpr ⟨fun span _ => trim_pairwise h span, ?_⟩
  exact hspans.imp fun hapart a ha b hb => hapart.within (mem_trim ha).2.1 (mem_trim hb).2.1

/-- Assigning keeps the intervals apart. -/
theorem assign_pairwise (h : start < stop) (hspans : spans.Pairwise Apart) (value : β) :
    (assign spans start stop value).Pairwise Apart := by
  refine pairwise_append.mpr
    ⟨flatMap_trim_pairwise h hspans, ofBounds_pairwise _ _ _, fun a ha b hb => ?_⟩
  obtain ⟨span, -, ha⟩ := mem_flatMap.mp ha
  obtain ⟨hstart, hstop, -⟩ := mem_ofBounds.mp hb
  rw [Apart, hstart, hstop]
  exact (mem_trim ha).2.2

/-- Assigning changes the map on its interval, and there alone. -/
theorem lookup_assign (h : start < stop) (hspans : spans.Pairwise Apart) (value : β) (x : α) :
    lookup (assign spans start stop value) x =
      if start ≤ x ∧ x < stop then some value else lookup spans x := by
  refine Option.ext fun found => ?_
  rw [lookup_eq_some_iff (assign_pairwise h hspans value)]
  have hassigned : (∃ span ∈ assign spans start stop value, span.Contains x ∧
        span.value = found) ↔
      (∃ span ∈ spans, span.Contains x ∧ (x < start ∨ stop ≤ x) ∧ span.value = found) ∨
        (start ≤ x ∧ x < stop ∧ value = found) := by
    constructor
    · rintro ⟨span, hspan, hx, hfound⟩
      rcases mem_append.mp hspan with hspan | hspan
      · obtain ⟨whole, hwhole, hpiece⟩ := mem_flatMap.mp hspan
        obtain ⟨hcontains, houtside⟩ := exists_mem_trim_iff.mp ⟨span, hpiece, hx⟩
        exact Or.inl ⟨whole, hwhole, hcontains, houtside, (mem_trim hpiece).1 ▸ hfound⟩
      · obtain ⟨hstart, hstop, hvalue⟩ := mem_ofBounds.mp hspan
        exact Or.inr ⟨hstart ▸ hx.1, hstop ▸ hx.2, hvalue ▸ hfound⟩
    · rintro (⟨span, hspan, hx, houtside, hfound⟩ | ⟨hstart, hstop, hfound⟩)
      · obtain ⟨piece, hpiece, hcontains⟩ := exists_mem_trim_iff.mpr ⟨hx, houtside⟩
        exact ⟨piece, mem_append_left _ (mem_flatMap.mpr ⟨span, hspan, hpiece⟩),
          hcontains, (mem_trim hpiece).1.trans hfound⟩
      · exact ⟨⟨start, stop, value, h⟩,
          mem_append_right _ (mem_ofBounds.mpr ⟨rfl, rfl, rfl⟩), ⟨hstart, hstop⟩, hfound⟩
  rw [hassigned]
  split_ifs with hx
  · have hinside : ¬ (x < start ∨ stop ≤ x) := by
      rw [not_or, not_lt, not_le]
      exact hx
    simp [hx, hinside]
  · have houtside : x < start ∨ stop ≤ x := by
      by_contra hinside
      rw [not_or, not_lt, not_le] at hinside
      exact hx hinside
    rw [lookup_eq_some_iff hspans]
    constructor
    · rintro (⟨span, hspan, hcontains, -, hfound⟩ | ⟨hstart, hstop, -⟩)
      · exact ⟨span, hspan, hcontains, hfound⟩
      · exact absurd ⟨hstart, hstop⟩ hx
    · rintro ⟨span, hspan, hcontains, hfound⟩
      exact Or.inl ⟨span, hspan, hcontains, houtside, hfound⟩

/-! ## The covered and the uncovered parts of an interval -/

/-- What the interval has inside of `[start, stop)`. -/
def Span.clip (start stop : α) (span : Span α β) : Option (Span α β) :=
  if h : max span.start start < min span.stop stop then
    some ⟨max span.start start, min span.stop stop, span.value, h⟩
  else none

/-- The clipped interval lies within both, with the value, and holds their common points. -/
theorem clip_eq_some {clipped : Span α β} (h : span.clip start stop = some clipped) :
    clipped.value = span.value ∧ clipped.Within span ∧ start ≤ clipped.start ∧
      clipped.stop ≤ stop := by
  unfold Span.clip at h
  split_ifs at h
  obtain rfl := Option.some.inj h
  exact ⟨rfl, ⟨le_max_left _ _, min_le_left _ _⟩, le_max_right _ _, min_le_right _ _⟩

/-- The clipped interval holds the points inside. -/
theorem exists_clip_iff : (∃ clipped, span.clip start stop = some clipped ∧ clipped.Contains x) ↔
      span.Contains x ∧ start ≤ x ∧ x < stop := by
  constructor
  · rintro ⟨clipped, hclip, hx⟩
    obtain ⟨-, hwithin, hstart, hstop⟩ := clip_eq_some hclip
    exact ⟨⟨hwithin.1.trans hx.1, hx.2.trans_le hwithin.2⟩, hstart.trans hx.1, hx.2.trans_le hstop⟩
  · rintro ⟨⟨hspan, hxspan⟩, hstart, hstop⟩
    have hle := max_le hspan hstart
    have hlt := lt_min hxspan hstop
    exact ⟨⟨_, _, span.value, hle.trans_lt hlt⟩, dif_pos (hle.trans_lt hlt), hle, hlt⟩

/-- The parts of `[start, stop)` before, between and after intervals in ascending order. -/
def gaps (value : γ) (start : α) : List (Span α β) → α → List (Span α γ)
  | [], stop => Span.ofBounds start stop value
  | span :: spans, stop =>
    Span.ofBounds start span.start value ++ gaps value (max start span.stop) spans stop

/-- The gaps lie within `[start, stop)` and have the value. -/
theorem mem_gaps (hstop : ∀ span ∈ spans, span.stop ≤ stop) {gap : Span α γ}
    (h : gap ∈ gaps value start spans stop) :
    gap.value = value ∧ start ≤ gap.start ∧ gap.stop ≤ stop := by
  induction spans generalizing start with
  | nil =>
    obtain ⟨hstart, hgap, hvalue⟩ := mem_ofBounds.mp h
    exact ⟨hvalue, hstart.ge, hgap.le⟩
  | cons span spans ih =>
    obtain ⟨hfirst, hrest⟩ := forall_mem_cons.mp hstop
    rcases mem_append.mp h with h | h
    · obtain ⟨hstart, hgap, hvalue⟩ := mem_ofBounds.mp h
      exact ⟨hvalue, hstart.ge, hgap.le.trans (span.start_lt.le.trans hfirst)⟩
    · obtain ⟨hvalue, hstart, hgap⟩ := ih hrest h
      exact ⟨hvalue, (le_max_left _ _).trans hstart, hgap⟩

/-- The gaps hold the points of `[start, stop)` that no interval contains. -/
theorem exists_mem_gaps_iff (hsorted : spans.Pairwise fun a b => a.start ≤ b.start)
    (hstop : ∀ span ∈ spans, span.stop ≤ stop) :
    (∃ gap ∈ gaps value start spans stop, gap.Contains x) ↔
      start ≤ x ∧ x < stop ∧ ∀ span ∈ spans, ¬ span.Contains x := by
  have hbounds : ∀ {a b : α}, (∃ gap ∈ Span.ofBounds a b value, gap.Contains x) ↔
      a ≤ x ∧ x < b := by
    intro a b
    constructor
    · rintro ⟨gap, hgap, hx⟩
      obtain ⟨ha, hb, -⟩ := mem_ofBounds.mp hgap
      exact ⟨ha ▸ hx.1, hb ▸ hx.2⟩
    · rintro ⟨ha, hb⟩
      exact ⟨⟨a, b, value, ha.trans_lt hb⟩, mem_ofBounds.mpr ⟨rfl, rfl, rfl⟩, ha, hb⟩
  induction spans generalizing start with
  | nil => simpa [gaps] using hbounds
  | cons span spans ih =>
    obtain ⟨hfirst, hrest⟩ := pairwise_cons.mp hsorted
    obtain ⟨hspan, hspans⟩ := forall_mem_cons.mp hstop
    simp only [gaps, mem_append, or_and_right, exists_or, hbounds, ih hrest hspans,
      forall_mem_cons, max_le_iff]
    constructor
    · rintro (⟨hstart, hx⟩ | ⟨⟨hstart, hx⟩, hlt, hothers⟩)
      · -- before the first interval, and so before all
        refine ⟨hstart, hx.trans (span.start_lt.trans_le hspan), fun h => absurd hx (not_lt.mpr h.1),
          fun other hother h => absurd (hx.trans_le (hfirst other hother)) (not_lt.mpr h.1)⟩
      · exact ⟨hstart, hlt, fun h => absurd h.2 (not_lt.mpr hx), hothers⟩
    · rintro ⟨hstart, hlt, hnot, hothers⟩
      rcases lt_or_ge x span.start with hx | hx
      · exact Or.inl ⟨hstart, hx⟩
      · exact Or.inr ⟨⟨hstart, not_lt.mp fun hstop => hnot ⟨hx, hstop⟩⟩, hlt, hothers⟩

/-- The gaps are apart. -/
theorem gaps_pairwise (hstop : ∀ span ∈ spans, span.stop ≤ stop) :
    (gaps value start spans stop).Pairwise Apart := by
  induction spans generalizing start with
  | nil => exact ofBounds_pairwise _ _ _
  | cons span spans ih =>
    obtain ⟨-, hspans⟩ := forall_mem_cons.mp hstop
    refine pairwise_append.mpr ⟨ofBounds_pairwise _ _ _, ih hspans, fun a ha b hb => Or.inl ?_⟩
    rw [(mem_ofBounds.mp ha).2.1]
    exact span.start_lt.le.trans ((le_max_right _ _).trans (mem_gaps hspans hb).2.1)

end Goodmoneying.Library
