import Goodmoneying.Analysis.DatasetHashing

/-!
# Overlapping statuses and segments

A projection check of `canonical_dataset_hashes` goes through its items in the order of their starts
and remembers the last end of every series. It passes exactly if every item starts where those of
its series before it have ended (`validateProjection_iff`), which is that no two of them overlap
(`statusProjection_iff`, `coverageProjection_iff`). Where statuses overlap, the coverage is not
looked at (`overlaps_not_both`).
-/

namespace Goodmoneying.Analysis.DatasetOverlaps

open List Library Program

variable {a b status : DatasetMarketStatusSnapshot}

/-- Two of the items are related. -/
def TwoOf {α : Type} (R : α → α → Prop) (l : List α) : Prop :=
  ∃ i j : Fin l.length, i < j ∧ R (l.get i) (l.get j)

theorem not_twoOf_iff {α : Type} {R : α → α → Prop} {l : List α} :
    ¬ TwoOf R l ↔ l.Pairwise fun a b => ¬ R a b := by
  simp only [TwoOf, pairwise_iff_get, not_exists, not_and]

/-- The order of the items does not matter for a symmetric relation. -/
theorem twoOf_perm {α : Type} {R : α → α → Prop} (hsymm : ∀ a b, R a b → R b a) {l m : List α}
    (h : l.Perm m) : TwoOf R l ↔ TwoOf R m := by
  rw [← not_iff_not, not_twoOf_iff, not_twoOf_iff]
  exact h.pairwise_iff fun hab hba => hab (hsymm _ _ hba)

section

variable {α ι σ : Type} [DecidableEq ι] [DecidableEq σ] {identity : α → ι} {series : α → σ}
  {start finish : α → Instant} {duplicated overlapping : String}

/-- The check passes, or it fails with one of its two messages. -/
theorem validateProjection_cases (l : List α) (seen : List ι) (previous : σ → Option Instant) :
    validateProjection identity series start finish duplicated overlapping l seen previous = .ok () ∨
    validateProjection identity series start finish duplicated overlapping l seen previous =
      .error (.valueError duplicated) ∨
    validateProjection identity series start finish duplicated overlapping l seen previous =
      .error (.valueError overlapping) := by
  induction l generalizing seen previous with
  | nil => exact Or.inl rfl
  | cons item l ih =>
    rw [validateProjection]
    unfold requireValue
    split_ifs
    · exact ih _ _
    · exact Or.inr (Or.inr rfl)
    · exact Or.inr (Or.inl rfl)
    · exact Or.inr (Or.inl rfl)

/-- What the check accepts. -/
theorem validateProjection_eq_ok_of {l : List α} {seen : List ι}
    {previous : σ → Option Instant} (hseen : ∀ a ∈ l, identity a ∉ seen)
    (hdistinct : l.Pairwise fun a b => identity a ≠ identity b)
    (hprevious : ∀ a ∈ l, ∀ ended, previous (series a) = some ended → ended ≤ start a)
    (hranges : l.Pairwise fun a b => series a = series b → finish a ≤ start b) :
    validateProjection identity series start finish duplicated overlapping l seen previous =
      .ok () := by
  induction l generalizing seen previous with
  | nil => rfl
  | cons item l ih =>
    rw [forall_mem_cons] at hseen hprevious
    rw [pairwise_cons] at hdistinct hranges
    have hseen' : ∀ a ∈ l, identity a ∉ identity item :: seen := by
      intro a ha
      rw [mem_cons, not_or]
      exact ⟨(hdistinct.1 a ha).symm, hseen.2 a ha⟩
    have hprevious' : ∀ a ∈ l, ∀ ended,
        Function.update previous (series item) (some (finish item)) (series a) = some ended →
          ended ≤ start a := by
      intro a ha ended hended
      by_cases hseries : series a = series item
      · rw [hseries, Function.update_self] at hended
        exact Option.some.inj hended ▸ hranges.1 a ha hseries.symm
      · rw [Function.update_of_ne hseries] at hended
        exact hprevious.2 a ha ended hended
    have hrest := ih hseen' hdistinct.2 hprevious' hranges.2
    have hfree : requireValue (!seen.contains (identity item)) duplicated = .ok () :=
      requireValue_eq_ok.mpr (by simpa using hseen.1)
    have hlater : requireValue (!(previous (series item)).any fun previousEnd =>
        start item < previousEnd) overlapping = .ok () := by
      refine requireValue_eq_ok.mpr ?_
      cases hlast : previous (series item) with
      | none => rfl
      | some ended => simpa using hprevious.1 ended hlast
    rw [validateProjection, hfree, ok_bind, hlater, ok_bind, hrest]

/-- The check passes exactly if the items of a series start where those before have ended;
`identity` is of items that start together in a series. -/
theorem validateProjection_iff {l : List α} (hends : ∀ a ∈ l, start a ≤ finish a)
    (hidentity : l.Pairwise fun a b => identity a = identity b →
      series a = series b ∧ start b < finish a) :
    validateProjection identity series start finish duplicated overlapping l [] (fun _ => none) =
        .ok () ↔ l.Pairwise fun a b => series a = series b → finish a ≤ start b := by
  constructor
  · intro h
    exact ((validateProjection_eq_ok h).2.2 hends).2
  · intro h
    refine validateProjection_eq_ok_of (fun _ _ => not_mem_nil) ?_
      (fun _ _ _ hended => by cases hended) h
    refine (h.and hidentity).imp fun {a b} ⟨hfollows, hidentity⟩ heq => ?_
    obtain ⟨hseries, hlt⟩ := hidentity heq
    exact absurd (hfollows hseries) (not_le.mpr hlt)

end

/-- A list of texts that is not above another one with the same texts before a place is not above
it at the place. -/
theorem le_of_append_le {p l m : List String} {a b : String} (h : p ++ a :: l ≤ p ++ b :: m) :
    a ≤ b := by
  rw [← not_lt] at h ⊢
  exact fun hlt => h (append_left_lt (cons_lt_cons_iff.mpr (Or.inl hlt)))

/-- The validity of a status at an instant; without an end it has no bound. -/
def ValidAt (status : DatasetMarketStatusSnapshot) (x : Instant) : Prop :=
  status.validFrom.instant ≤ x ∧ ∀ validTo, status.validTo = some validTo → x < validTo.instant

/-- Statuses of one market whose validity intervals intersect. -/
def StatusesOverlap (a b : DatasetMarketStatusSnapshot) : Prop :=
  (a.exchange = b.exchange ∧ a.marketCode = b.marketCode) ∧ ∃ x, ValidAt a x ∧ ValidAt b x

/-- A status of the market of an open-ended one begins at `datetime.max`. -/
def BeginsAtDatetimeMax (a b : DatasetMarketStatusSnapshot) : Prop :=
  (a.exchange = b.exchange ∧ a.marketCode = b.marketCode) ∧
    (a.validTo = none ∧ b.validFrom.instant = datetimeMax ∨
      b.validTo = none ∧ a.validFrom.instant = datetimeMax)

theorem StatusesOverlap.symm (h : StatusesOverlap a b) : StatusesOverlap b a :=
  ⟨⟨h.1.1.symm, h.1.2.symm⟩, h.2.imp fun _ hx => hx.symm⟩

theorem BeginsAtDatetimeMax.symm (h : BeginsAtDatetimeMax a b) : BeginsAtDatetimeMax b a :=
  ⟨⟨h.1.1.symm, h.1.2.symm⟩, h.2.symm⟩

/-- A status is valid when it begins. -/
theorem validAt_from (h : canonicalMarketStatus status = .ok status) :
    ValidAt status status.validFrom.instant := by
  obtain ⟨_, -, h⟩ := bind_eq_ok.mp h
  obtain ⟨_, -, h⟩ := bind_eq_ok.mp h
  obtain ⟨_, hend, -⟩ := bind_eq_ok.mp h
  refine ⟨le_rfl, fun validTo hsome => ?_⟩
  have hlt := requireValue_eq_ok.mp hend
  rw [hsome, Option.all_some, decide_eq_true_eq] at hlt
  exact hlt

/-- No datetime in UTC is after `datetime.max`. -/
theorem instant_le_datetimeMax {value : Datetime} (h : value.utcoffset.microseconds = 0) :
    value.instant ≤ datetimeMax := by
  have hdate := value.date.ordinal_le.2
  have htime := value.timeOfDay.isLt
  unfold Datetime.instant Datetime.wallClock datetimeMax Instant
  rw [h]
  have hday : (value.date.ordinal : ℤ) * dayMicroseconds ≤ maxOrdinal * dayMicroseconds := by
    exact_mod_cast Nat.mul_le_mul_right dayMicroseconds hdate
  omega

/-- The end of a status, as the check reads it. -/
def statusEnd (status : DatasetMarketStatusSnapshot) : Instant :=
  (status.validTo.map Datetime.instant).getD datetimeMax

theorem statusEnd_of_none (h : status.validTo = none) : statusEnd status = datetimeMax := by
  rw [statusEnd, h, Option.map_none, Option.getD_none]

theorem statusEnd_of_some {validTo : Datetime} (h : status.validTo = some validTo) :
    statusEnd status = validTo.instant := by
  rw [statusEnd, h, Option.map_some, Option.getD_some]

theorem le_statusEnd (h : canonicalMarketStatus status = .ok status) :
    status.validFrom.instant ≤ statusEnd status := by
  cases hend : status.validTo with
  | none =>
    rw [statusEnd_of_none hend]
    exact instant_le_datetimeMax (canonicalMarketStatus_eq_ok h).2.1
  | some validTo =>
    rw [statusEnd_of_some hend]
    exact ((validAt_from h).2 validTo hend).le

/-- Of two statuses of a market in order the later one begins after the end of the other exactly if
they do not overlap. -/
theorem statusEnd_le_iff (hb : canonicalMarketStatus b = .ok b)
    (hmarket : a.exchange = b.exchange ∧ a.marketCode = b.marketCode)
    (hstart : a.validFrom.instant ≤ b.validFrom.instant) (hmax : ¬ BeginsAtDatetimeMax a b) :
    statusEnd a ≤ b.validFrom.instant ↔ ¬ StatusesOverlap a b := by
  have hutc := (canonicalMarketStatus_eq_ok hb).2.1
  have hbegins := validAt_from hb
  constructor
  · rintro hle ⟨-, x, hxa, hxb⟩
    cases hend : a.validTo with
    | none =>
      have heq : b.validFrom.instant = datetimeMax :=
        le_antisymm (instant_le_datetimeMax hutc) (statusEnd_of_none hend ▸ hle)
      exact hmax ⟨hmarket, Or.inl ⟨hend, heq⟩⟩
    | some validTo =>
      rw [statusEnd_of_some hend] at hle
      exact absurd ((hxa.2 validTo hend).trans_le hle) (not_lt.mpr hxb.1)
  · intro hapart
    by_contra hlt
    refine hapart ⟨hmarket, b.validFrom.instant, ⟨hstart, fun validTo hsome => ?_⟩, hbegins⟩
    rw [statusEnd_of_some hsome] at hlt
    exact not_le.mp hlt

/-- The check of the statuses passes exactly if no two of them overlap. -/
theorem statusProjection_iff {statuses : List DatasetMarketStatusSnapshot}
    (hvalid : ∀ status ∈ statuses, canonicalMarketStatus status = .ok status)
    (hmax : ¬ TwoOf BeginsAtDatetimeMax statuses) :
    validateStatusProjection (sortedBy marketStatusSortKey statuses) = .ok () ↔
      ¬ TwoOf StatusesOverlap statuses := by
  have hperm := sortedBy_perm marketStatusSortKey statuses
  have hsortedValid : ∀ status ∈ sortedBy marketStatusSortKey statuses,
      canonicalMarketStatus status = .ok status :=
    fun status hstatus => hvalid status (mem_sortedBy.mp hstatus)
  have hfree : (sortedBy marketStatusSortKey statuses).Pairwise
      fun a b => ¬ BeginsAtDatetimeMax a b :=
    not_twoOf_iff.mp fun h => hmax ((twoOf_perm (fun _ _ => BeginsAtDatetimeMax.symm) hperm).mp h)
  -- statuses of one market stand in the order of their beginnings
  have hstarts : (sortedBy marketStatusSortKey statuses).Pairwise fun a b =>
      (a.exchange = b.exchange ∧ a.marketCode = b.marketCode) →
        a.validFrom.instant ≤ b.validFrom.instant := by
    refine (sortedBy_pairwise marketStatusSortKey statuses).imp_of_mem ?_
    rintro a b ha hb hle ⟨hexchange, hcode⟩
    have hutc := (canonicalMarketStatus_eq_ok (hsortedValid a ha)).2.1
    have hutc' := (canonicalMarketStatus_eq_ok (hsortedValid b hb)).2.1
    rw [marketStatusSortKey, marketStatusSortKey, hexchange, hcode] at hle
    have hstr : a.validFrom.str ≤ b.validFrom.str :=
      le_of_append_le (p := [b.exchange, b.marketCode]) hle
    exact not_lt.mp fun hlt => absurd ((Datetime.str_lt_iff hutc' hutc).mpr hlt) (not_lt.mpr hstr)
  rw [← twoOf_perm (fun _ _ => StatusesOverlap.symm) hperm, not_twoOf_iff, validateStatusProjection,
    validateProjection_iff]
  · constructor
    · intro h
      refine ((h.and hstarts).and hfree).imp_of_mem ?_
      rintro a b - hb ⟨⟨hfollows, hstart⟩, hmax⟩ hoverlap
      have hmarket := hoverlap.1
      exact (statusEnd_le_iff (hsortedValid b hb) hmarket (hstart hmarket) hmax).mp
        (hfollows (Prod.ext hmarket.1 hmarket.2)) hoverlap
    · intro h
      refine ((h.and hstarts).and hfree).imp_of_mem ?_
      rintro a b - hb ⟨⟨hapart, hstart⟩, hmax⟩ hseries
      have hmarket := Prod.ext_iff.mp hseries
      exact (statusEnd_le_iff (hsortedValid b hb) hmarket (hstart hmarket) hmax).mpr hapart
  · exact fun status hstatus => le_statusEnd (hsortedValid status hstatus)
  · refine hfree.imp_of_mem fun {a b} ha _ hmax heq => ?_
    simp only [marketStatusIdentity, Prod.mk.injEq] at heq
    refine ⟨Prod.ext heq.1 heq.2.1, ?_⟩
    rw [← heq.2.2.1]
    -- an end is not after the beginning only if the status begins at the last instant
    refine lt_of_le_of_ne (le_statusEnd (hsortedValid a ha)) fun hends => ?_
    have hsame : a.validFrom.instant = statusEnd a := hends
    cases hend : a.validTo with
    | none =>
      rw [statusEnd_of_none hend] at hsame
      exact hmax ⟨⟨heq.1, heq.2.1⟩, Or.inl ⟨hend, heq.2.2.1 ▸ hsame⟩⟩
    | some validTo =>
      rw [statusEnd_of_some hend] at hsame
      exact absurd hsame ((validAt_from (hsortedValid a ha)).2 validTo hend).ne

/-- Segments of one series whose ranges intersect. -/
def SegmentsOverlap (a b : DatasetCoverageSegment) : Prop :=
  coverageSeries a = coverageSeries b ∧
    ∃ x : Instant, (a.rangeStartAt.instant ≤ x ∧ x < a.rangeEndAt.instant) ∧
      b.rangeStartAt.instant ≤ x ∧ x < b.rangeEndAt.instant

theorem SegmentsOverlap.symm {a b : DatasetCoverageSegment} (h : SegmentsOverlap a b) :
    SegmentsOverlap b a :=
  ⟨h.1.symm, h.2.imp fun _ hx => ⟨hx.2, hx.1⟩⟩

/-- The check of the coverage passes exactly if no two segments overlap. -/
theorem coverageProjection_iff {coverage : List DatasetCoverageSegment}
    (hvalid : ∀ segment ∈ coverage, canonicalCoverageSegment segment = .ok segment) :
    validateCoverageProjection (sortedBy coverageSortKey coverage) = .ok () ↔
      ¬ TwoOf SegmentsOverlap coverage := by
  have hsortedValid : ∀ segment ∈ sortedBy coverageSortKey coverage,
      canonicalCoverageSegment segment = .ok segment :=
    fun segment hsegment => hvalid segment (mem_sortedBy.mp hsegment)
  have hranges : ∀ segment ∈ sortedBy coverageSortKey coverage,
      segment.rangeStartAt.instant < segment.rangeEndAt.instant :=
    fun segment hsegment => (canonicalCoverageSegment_eq_ok (hsortedValid segment hsegment)).2.2.2
  -- segments of one series stand in the order of their starts
  have hstarts : (sortedBy coverageSortKey coverage).Pairwise fun a b =>
      coverageSeries a = coverageSeries b → a.rangeStartAt.instant ≤ b.rangeStartAt.instant := by
    refine (sortedBy_pairwise coverageSortKey coverage).imp_of_mem ?_
    intro a b ha hb hle hseries
    have hutc := (canonicalCoverageSegment_eq_ok (hsortedValid a ha)).2.1
    have hutc' := (canonicalCoverageSegment_eq_ok (hsortedValid b hb)).2.1
    simp only [coverageSeries, Prod.mk.injEq, List.cons.injEq, and_true] at hseries
    obtain ⟨⟨hkind, hexchange, hcode, hversion⟩, hunit, hhash⟩ := hseries
    rw [coverageSortKey, coverageSortKey, hkind, hexchange, hcode, hversion, hunit, hhash] at hle
    have hstr : a.rangeStartAt.str ≤ b.rangeStartAt.str :=
      le_of_append_le (p := [b.dataKind, b.exchange, b.marketCode, strText b.unit,
        strText b.definitionSetHash, b.calculationVersion]) hle
    exact not_lt.mp fun hlt => absurd ((Datetime.str_lt_iff hutc' hutc).mpr hlt) (not_lt.mpr hstr)
  rw [← twoOf_perm (fun _ _ => SegmentsOverlap.symm) (sortedBy_perm coverageSortKey coverage),
    not_twoOf_iff, validateCoverageProjection, validateProjection_iff]
  · constructor
    · rintro h
      refine h.imp fun {a b} hfollows hoverlap => ?_
      obtain ⟨hseries, x, hxa, hxb⟩ := hoverlap
      exact absurd (hxa.2.trans_le (hfollows hseries)) (not_lt.mpr hxb.1)
    · intro h
      refine (h.and hstarts).imp_of_mem ?_
      rintro a b - hb ⟨hapart, hstart⟩ hseries
      by_contra hlt
      exact hapart ⟨hseries, b.rangeStartAt.instant, ⟨hstart hseries, not_le.mp hlt⟩, le_rfl,
        hranges b hb⟩
  · exact fun segment hsegment => (hranges segment hsegment).le
  · refine pairwise_of_forall_mem_list fun a ha b _ heq => ?_
    obtain ⟨hseries, htimes⟩ := Prod.ext_iff.mp heq
    have hstart : a.rangeStartAt.instant = b.rangeStartAt.instant := (Prod.ext_iff.mp htimes).1
    refine ⟨hseries, ?_⟩
    rw [← hstart]
    exact hranges a ha

section

variable {sha256 : List ℕ → String} {specification : DatasetCanonicalSpecification}
  {members : List DatasetCanonicalMember} {statuses : List DatasetMarketStatusSnapshot}
  {coverage : List DatasetCoverageSegment}

/-- The dataset is refused for its statuses. -/
def StatusError (result : Except PythonError DatasetHashes) : Prop :=
  result = .error (.valueError "시장 상태 snapshot 자연키가 중복되었다.") ∨
    result = .error (.valueError "시장 상태 snapshot 구간이 겹친다.")

/-- The dataset is refused for its coverage. -/
def CoverageError (result : Except PythonError DatasetHashes) : Prop :=
  result = .error (.valueError "coverage snapshot 자연키가 중복되었다.") ∨
    result = .error (.valueError "coverage snapshot 구간이 겹친다.")

theorem validateStatusProjection_cases (statuses : List DatasetMarketStatusSnapshot) :
    validateStatusProjection statuses = .ok () ∨ validateStatusProjection statuses =
      .error (.valueError "시장 상태 snapshot 자연키가 중복되었다.") ∨
    validateStatusProjection statuses = .error (.valueError "시장 상태 snapshot 구간이 겹친다.") :=
  validateProjection_cases _ _ _

theorem validateCoverageProjection_cases (coverage : List DatasetCoverageSegment) :
    validateCoverageProjection coverage = .ok () ∨ validateCoverageProjection coverage =
      .error (.valueError "coverage snapshot 자연키가 중복되었다.") ∨
    validateCoverageProjection coverage = .error (.valueError "coverage snapshot 구간이 겹친다.") :=
  validateProjection_cases _ _ _

/-- What is left to check of a dataset whose specification and members are accepted, and whose
statuses and segments are valid one by one. -/
theorem canonicalDatasetHashes_of_valid
    (haccepted : (canonicalDatasetHashes sha256 specification members [] []).isOk = true)
    (hstatuses : ∀ status ∈ statuses, canonicalMarketStatus status = .ok status)
    (hcoverage : ∀ segment ∈ coverage, canonicalCoverageSegment segment = .ok segment) :
    ∃ hashes, canonicalDatasetHashes sha256 specification members statuses coverage =
      (validateStatusProjection (sortedBy marketStatusSortKey statuses) >>= fun _ =>
        validateCoverageProjection (sortedBy coverageSortKey coverage) >>= fun _ =>
          .ok hashes) := by
  obtain ⟨accepted, haccepted⟩ := exists_ok_of_isOk haccepted
  obtain ⟨hspecification, hmembers, hnodup, -⟩ := canonicalDatasetHashes_eq_ok.mp haccepted
  have hperm := (sortedBy_perm memberSortKey members).map memberNaturalKey
  have hnodup : ∀ message, requireValue
      (decide ((sortedBy memberSortKey members).map memberNaturalKey).Nodup) message = .ok () :=
    fun _ => requireValue_eq_ok.mpr (decide_eq_true (hperm.nodup_iff.mpr hnodup))
  refine ⟨datasetHashes sha256
    (canonicalPayloadHash sha256 (canonicalSpecification specification))
    (canonicalPayloadHash sha256 (.list ((sortedBy memberSortKey members).map memberPayload)))
    (canonicalPayloadHash sha256
      (.list ((sortedBy marketStatusSortKey statuses).map marketStatusPayload)))
    (canonicalPayloadHash sha256
      (.list ((sortedBy coverageSortKey coverage).map coveragePayload))), ?_⟩
  unfold canonicalDatasetHashes
  simp only [hspecification, ok_bind, mapM_eq_ok_self hmembers, hnodup,
    mapM_eq_ok_self hstatuses, mapM_eq_ok_self hcoverage]
  rfl

/-- A dataset is refused for its statuses exactly if their check fails, and for its coverage
exactly if the check of the statuses passes and that of the coverage fails. -/
theorem errors_iff
    (haccepted : (canonicalDatasetHashes sha256 specification members [] []).isOk = true)
    (hstatuses : ∀ status ∈ statuses, canonicalMarketStatus status = .ok status)
    (hcoverage : ∀ segment ∈ coverage, canonicalCoverageSegment segment = .ok segment) :
    (StatusError (canonicalDatasetHashes sha256 specification members statuses coverage) ↔
      ¬ validateStatusProjection (sortedBy marketStatusSortKey statuses) = .ok ()) ∧
    (CoverageError (canonicalDatasetHashes sha256 specification members statuses coverage) ↔
      validateStatusProjection (sortedBy marketStatusSortKey statuses) = .ok () ∧
        ¬ validateCoverageProjection (sortedBy coverageSortKey coverage) = .ok ()) := by
  obtain ⟨hashes, heq⟩ := canonicalDatasetHashes_of_valid haccepted hstatuses hcoverage
  rw [heq]
  unfold StatusError CoverageError
  rcases validateStatusProjection_cases (sortedBy marketStatusSortKey statuses) with h | h | h
  · rw [h]
    rcases validateCoverageProjection_cases (sortedBy coverageSortKey coverage) with h | h | h <;>
      rw [h] <;> simp
  · rw [h]
    simp
  · rw [h]
    simp

/-- The dataset is refused for its statuses exactly if two of a market overlap, and where it is not,
for its coverage exactly if two segments of a series overlap.
SOURCE: dataset_versions.py:197-221, 455-499 -/
theorem overlaps_detected (sha256 : List ℕ → String)
    (specification : DatasetCanonicalSpecification) (members : List DatasetCanonicalMember)
    (statuses : List DatasetMarketStatusSnapshot) (coverage : List DatasetCoverageSegment)
    (haccepted : (canonicalDatasetHashes sha256 specification members [] []).isOk = true)
    (hstatuses : ∀ status ∈ statuses, canonicalMarketStatus status = .ok status)
    (hcoverage : ∀ segment ∈ coverage, canonicalCoverageSegment segment = .ok segment)
    (hmax : ¬ TwoOf BeginsAtDatetimeMax statuses) :
    (StatusError (canonicalDatasetHashes sha256 specification members statuses coverage) ↔
      TwoOf StatusesOverlap statuses) ∧
    (CoverageError (canonicalDatasetHashes sha256 specification members statuses coverage) ↔
      ¬ TwoOf StatusesOverlap statuses ∧ TwoOf SegmentsOverlap coverage) := by
  obtain ⟨hstatus, hsegment⟩ := errors_iff haccepted hstatuses hcoverage
  rw [hstatus, hsegment, statusProjection_iff hstatuses hmax, coverageProjection_iff hcoverage,
    not_not, not_not]
  exact ⟨Iff.rfl, Iff.rfl⟩

end

/-- The status of the dataset from another observation. -/
def observedAgain : DatasetMarketStatusSnapshot :=
  { activeStatus with observedAt := dayOfCandles.endAt }

theorem statuses_valid : ∀ status ∈ [activeStatus, observedAgain],
    canonicalMarketStatus status = .ok status := by
  have hok : ∀ status ∈ [activeStatus, observedAgain],
      (canonicalMarketStatus status).isOk = true := by
    decide +kernel
  intro status hstatus
  obtain ⟨validated, h⟩ := exists_ok_of_isOk (hok status hstatus)
  rw [h, (canonicalMarketStatus_eq_ok h).1]

theorem segments_valid : ∀ segment ∈ [fullCoverage, fullCoverage],
    canonicalCoverageSegment segment = .ok segment := by
  have hok : ∀ segment ∈ [fullCoverage, fullCoverage],
      (canonicalCoverageSegment segment).isOk = true := by
    decide +kernel
  intro segment hsegment
  obtain ⟨validated, h⟩ := exists_ok_of_isOk (hok segment hsegment)
  rw [h, (canonicalCoverageSegment_eq_ok h).1]

/-- Two segments of a dataset overlap, but it is its statuses that it is refused for. -/
theorem overlaps_not_both : ¬ ∀ (sha256 : List ℕ → String)
    (specification : DatasetCanonicalSpecification) (members : List DatasetCanonicalMember)
    (statuses : List DatasetMarketStatusSnapshot) (coverage : List DatasetCoverageSegment),
    (canonicalDatasetHashes sha256 specification members [] []).isOk = true →
    (∀ status ∈ statuses, canonicalMarketStatus status = .ok status) →
    (∀ segment ∈ coverage, canonicalCoverageSegment segment = .ok segment) →
    (∀ segment ∈ coverage, segment.unit ≠ some "None" ∧ segment.definitionSetHash ≠ some "None") →
    (StatusError (canonicalDatasetHashes sha256 specification members statuses coverage) ↔
      TwoOf StatusesOverlap statuses) ∧
    (CoverageError (canonicalDatasetHashes sha256 specification members statuses coverage) ↔
      TwoOf SegmentsOverlap coverage) := by
  intro hexact
  have hcoverage := (hexact sampleSha256 dayOfCandles [] [activeStatus, observedAgain]
    [fullCoverage, fullCoverage] (by decide +kernel) statuses_valid segments_valid
    (by decide +kernel)).2
  have hstatus : canonicalDatasetHashes sampleSha256 dayOfCandles [] [activeStatus, observedAgain]
      [fullCoverage, fullCoverage] =
        .error (.valueError "시장 상태 snapshot 구간이 겹친다.") := by
    decide +kernel
  have hoverlap : TwoOf SegmentsOverlap [fullCoverage, fullCoverage] :=
    ⟨0, 1, by decide, rfl, (january 0 0).instant, by decide +kernel, by decide +kernel⟩
  rcases hcoverage.mpr hoverlap with h | h <;>
    · rw [hstatus] at h
      revert h
      decide

/-- A dataset whose segments overlap, and whose status does not. -/
theorem overlaps_detected_two_segments :
    (StatusError (canonicalDatasetHashes sampleSha256 dayOfCandles [] [activeStatus]
        [fullCoverage, fullCoverage]) ↔ TwoOf StatusesOverlap [activeStatus]) ∧
    (CoverageError (canonicalDatasetHashes sampleSha256 dayOfCandles [] [activeStatus]
        [fullCoverage, fullCoverage]) ↔ ¬ TwoOf StatusesOverlap [activeStatus] ∧
        TwoOf SegmentsOverlap [fullCoverage, fullCoverage]) := by
  have hsingle : ¬ TwoOf BeginsAtDatetimeMax [activeStatus] :=
    not_twoOf_iff.mpr (pairwise_singleton _ _)
  exact overlaps_detected sampleSha256 dayOfCandles [] [activeStatus] [fullCoverage, fullCoverage]
    (by decide +kernel) (fun status hstatus => statuses_valid status (mem_cons.mpr
      (Or.inl (mem_singleton.mp hstatus)))) segments_valid hsingle

end Goodmoneying.Analysis.DatasetOverlaps
