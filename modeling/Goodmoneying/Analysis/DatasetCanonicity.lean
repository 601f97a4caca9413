import Goodmoneying.Analysis.DatasetHashing

/-!
# The hashes of a dataset are canonical

The order of the lists, the ids of instruments and source rows and the `tzinfo` objects do not
reach the hashes. What is left of a record without the ids is its `portable` part; the keys and
the payloads are functions of it, and the keys of an accepted dataset are distinct, so the sorted
lists show the same (`map_sortedBy_eq_of_perm`).
-/

namespace Goodmoneying.Analysis

open List Library
open Program

/-! ## Without the ids -/

/-- A series without the id of its instrument. -/
def portableSeries (item : DatasetSeriesRequest) : DatasetSeriesRequest :=
  { item with instrumentId := 0 }

section Portable

variable {τ : Type}

/-- A member without the id of its source row. -/
def portableMember (member : DatasetCanonicalMemberOf τ) : DatasetCanonicalMemberOf τ :=
  { member with sourceRefId := 0 }

/-- A market status without the id of its source row. -/
def portableStatus (status : DatasetMarketStatusSnapshotOf τ) : DatasetMarketStatusSnapshotOf τ :=
  { status with sourceRefId := 0 }

/-- A coverage segment without the id of its source row. -/
def portableSegment (segment : DatasetCoverageSegmentOf τ) : DatasetCoverageSegmentOf τ :=
  { segment with sourceRefId := none }

end Portable

theorem canonicalMember_portable {member : DatasetCanonicalMember} :
    canonicalMember (portableMember member) = .ok (portableMember member) ↔
      canonicalMember member = .ok member := by
  simp [canonicalMember, bind_eq_ok, map_eq_ok, portableMember]

theorem canonicalMarketStatus_portable {status : DatasetMarketStatusSnapshot} :
    canonicalMarketStatus (portableStatus status) = .ok (portableStatus status) ↔
      canonicalMarketStatus status = .ok status := by
  simp [canonicalMarketStatus, bind_eq_ok, map_eq_ok, portableStatus]
  intros
  exact Iff.rfl

theorem canonicalCoverageSegment_portable {segment : DatasetCoverageSegment} :
    canonicalCoverageSegment (portableSegment segment) = .ok (portableSegment segment) ↔
      canonicalCoverageSegment segment = .ok segment := by
  simp [canonicalCoverageSegment, bind_eq_ok, map_eq_ok, portableSegment]
  intros
  exact Iff.rfl

section Shown

variable {α β : Type} {f : α → α} {g : α → β}

/-- A part of a record that is read of its portable part. -/
theorem map_map_of_shown (hg : ∀ a, g (f a) = g a) (l : List α) : (l.map f).map g = l.map g := by
  rw [map_map]
  exact map_congr_left fun a _ => hg a

theorem map_eq_of_shown {l m : List α} (h : l.map f = m.map f) (hg : ∀ a, g (f a) = g a) :
    l.map g = m.map g := by
  rw [← map_map_of_shown hg l, h, map_map_of_shown hg m]

theorem perm_of_shown {l m : List α} (h : (l.map f).Perm (m.map f)) (hg : ∀ a, g (f a) = g a) :
    (l.map g).Perm (m.map g) := by
  rw [← map_map_of_shown hg l, ← map_map_of_shown hg m]
  exact h.map g

/-- What holds of all records holds of records with the same portable parts, in any order. -/
theorem forall_of_shown {l m : List α} (h : (m.map f).Perm (l.map f)) {p : α → Prop}
    (hp : ∀ a, p (f a) ↔ p a) (hl : ∀ a ∈ l, p a) : ∀ a ∈ m, p a := by
  intro a ha
  obtain ⟨b, hb, heq⟩ := mem_map.mp (h.mem_iff.mp (mem_map_of_mem ha))
  rw [← hp, ← heq, hp]
  exact hl b hb

end Shown

/-- A projection check of records that are shown by `f`. -/
theorem validateProjection_map {α β ι σ : Type} [DecidableEq ι] [DecidableEq σ] (f : α → β)
    (identity : β → ι) (series : β → σ) (start finish : β → Instant)
    (duplicated overlapping : String) (l : List α) (seen : List ι) (previous : σ → Option Instant) :
    validateProjection identity series start finish duplicated overlapping (l.map f) seen previous =
      validateProjection (fun a => identity (f a)) (fun a => series (f a))
        (fun a => start (f a)) (fun a => finish (f a)) duplicated overlapping l seen previous := by
  induction l generalizing seen previous with
  | nil => rfl
  | cons a l ih => rw [map_cons, validateProjection, validateProjection, ih]

/-! ## The series -/

/-- The loop over the series accepts distinct series, each of which passes its checks. -/
theorem validateSeries_eq_ok {series : List DatasetSeriesRequest}
    {naturalKeys : List (List String × List (Option String))} :
    validateSeries series naturalKeys = .ok () ↔ (∀ item ∈ series, 0 < item.instrumentId) ∧
      (∀ item ∈ series, datasetKinds.contains item.dataKind = true ∧
        item.unit.any (fun unit => unit ≠ "") = true) ∧
      (series.map seriesIdentity).Nodup ∧ ∀ item ∈ series, seriesIdentity item ∉ naturalKeys := by
  induction series generalizing naturalKeys with
  | nil => simp [validateSeries]
  | cons item series ih =>
    rw [validateSeries, forall_mem_cons, forall_mem_cons, forall_mem_cons]
    simp only [bind_eq_ok, requireValue_eq_ok, ih, exists_const, decide_eq_true_iff,
      Bool.not_eq_true', contains_eq_mem, decide_eq_false_iff_not, map_cons,
      nodup_cons, mem_cons, not_or, mem_map, not_exists, not_and]
    constructor
    · rintro ⟨hid, hkind, hunit, hnew, hids, hchecks, hnodup, hdistinct⟩
      exact ⟨⟨hid, hids⟩, ⟨⟨hkind, hunit⟩, hchecks⟩,
        ⟨fun other hother heq => (hdistinct other hother).1 heq, hnodup⟩, hnew,
        fun other hother => (hdistinct other hother).2⟩
    · rintro ⟨⟨hid, hids⟩, ⟨⟨hkind, hunit⟩, hchecks⟩, ⟨hdistinct, hnodup⟩, hnew, hothers⟩
      exact ⟨hid, hkind, hunit, hnew, hids, hchecks, hnodup,
        fun other hother => ⟨hdistinct other hother, hothers other hother⟩⟩

/-- Series with distinct identities have distinct sort keys. -/
theorem nodup_seriesSortKey {series : List DatasetSeriesRequest}
    (hunit : ∀ item ∈ series, item.unit ≠ some "None")
    (hhash : ∀ item ∈ series, item.definitionSetHash ≠ some "None")
    (hversion : ∀ item ∈ series, item.calculationVersion ≠ some "None")
    (hnodup : (series.map seriesIdentity).Nodup) : (series.map seriesSortKey).Nodup := by
  apply nodup_map_of_key_eq _ hnodup
  intro a ha b hb heq
  simp only [seriesSortKey, List.cons.injEq] at heq
  obtain ⟨hexchange, hcode, hkind, hunitEq, hhashEq, hversionEq, -⟩ := heq
  rw [seriesIdentity, seriesIdentity, hexchange, hcode, hkind,
    eq_of_strText_eq (hunit a ha) (hunit b hb) hunitEq,
    eq_of_strText_eq (hhash a ha) (hhash b hb) hhashEq,
    eq_of_strText_eq (hversion a ha) (hversion b hb) hversionEq]

/-- The order of the series and the ids of their instruments are not in the payload. -/
theorem canonicalSpecification_eq {specification : DatasetCanonicalSpecification}
    {series : List DatasetSeriesRequest}
    (hseries : (series.map portableSeries).Perm (specification.series.map portableSeries))
    (hnodup : (series.map seriesSortKey).Nodup) :
    canonicalSpecification { specification with series := series } =
      canonicalSpecification specification := by
  have hsorted := map_sortedBy_eq_of_perm seriesSortKey hseries hnodup
  have hpayloads : (sortedBy seriesSortKey series).map seriesPayload =
      (sortedBy seriesSortKey specification.series).map seriesPayload :=
    map_eq_of_shown hsorted fun _ => rfl
  simp only [canonicalSpecification, hpayloads]

/-- A specification with its series in another order and with other ids is valid. -/
theorem validateSpecification_of_perm {specification : DatasetCanonicalSpecification}
    {series : List DatasetSeriesRequest} (h : validateSpecification specification = .ok ())
    (hseries : (series.map portableSeries).Perm (specification.series.map portableSeries))
    (hids : ∀ item ∈ series, 0 < item.instrumentId) :
    validateSpecification { specification with series := series } = .ok () := by
  simp only [validateSpecification, validateDatasetPolicies, check_eq_ok] at h
  obtain ⟨hasOf, hinput, houtput, hend, horder, hnonempty, hloop, hfill, hmissing, hcandles⟩ := h
  obtain ⟨-, hchecks, hnodup, -⟩ := validateSeries_eq_ok.mp hloop
  have hidentities : (series.map seriesIdentity).Perm (specification.series.map seriesIdentity) :=
    perm_of_shown hseries fun _ => rfl
  have hseriesLoop : validateSeries series [] = .ok () :=
    validateSeries_eq_ok.mpr ⟨hids, forall_of_shown hseries (fun _ => Iff.rfl) hchecks,
      hidentities.nodup_iff.mpr hnodup, by simp⟩
  have hempty : series.isEmpty = specification.series.isEmpty := by
    have hlength := hseries.length_eq
    rw [length_map, length_map] at hlength
    rw [Bool.eq_iff_iff, isEmpty_iff_length_eq_zero, isEmpty_iff_length_eq_zero, hlength]
  have hany : series.any (fun item => item.dataKind ≠ "candle") =
      specification.series.any fun item => item.dataKind ≠ "candle" := by
    have hkinds : (series.map DatasetSeriesRequest.dataKind).Perm
        (specification.series.map DatasetSeriesRequest.dataKind) :=
      perm_of_shown hseries fun _ => rfl
    have hperm := hkinds.any_eq (f := fun dataKind => dataKind ≠ "candle")
    rw [any_map, any_map] at hperm
    exact hperm
  unfold validateSpecification validateDatasetPolicies
  simp only [hasOf, hinput, houtput, hend, horder, hempty, hnonempty, hseriesLoop, hfill, hmissing,
    hany, hcandles, ok_bind]

/-! ## The lists of records -/

/-- A projection check reads the portable parts of the sorted records. -/
theorem validateProjection_of_shown {α ι σ : Type} [DecidableEq ι] [DecidableEq σ] {f : α → α}
    {identity : α → ι} {series : α → σ} {start finish : α → Instant}
    {duplicated overlapping : String} {l m : List α} {seen : List ι} {previous : σ → Option Instant}
    (h : l.map f = m.map f) (hshown : ∀ a, identity (f a) = identity a ∧
      series (f a) = series a ∧ start (f a) = start a ∧ finish (f a) = finish a) :
    validateProjection identity series start finish duplicated overlapping l seen previous =
      validateProjection identity series start finish duplicated overlapping m seen previous := by
  have hmap := fun l => validateProjection_map f identity series start finish duplicated
    overlapping l seen previous
  simp only [hshown] at hmap
  rw [← hmap l, h, hmap m]

/-- A dataset with its lists in another order and with other ids hashes as before. -/
theorem canonicalDatasetHashes_of_perm {sha256 : List ℕ → String}
    {specification : DatasetCanonicalSpecification} {series : List DatasetSeriesRequest}
    {members members' : List DatasetCanonicalMember}
    {statuses statuses' : List DatasetMarketStatusSnapshot}
    {coverage coverage' : List DatasetCoverageSegment} {hashes : DatasetHashes}
    (haccepted :
      canonicalDatasetHashes sha256 specification members statuses coverage = .ok hashes)
    (hseriesUnit : ∀ item ∈ specification.series, item.unit ≠ some "None")
    (hseriesHash : ∀ item ∈ specification.series, item.definitionSetHash ≠ some "None")
    (hseriesVersion : ∀ item ∈ specification.series, item.calculationVersion ≠ some "None")
    (hmemberUnit : ∀ member ∈ members, member.unit ≠ some "None")
    (hcoverageUnit : ∀ segment ∈ coverage, segment.unit ≠ some "None")
    (hids : ∀ item ∈ series, 0 < item.instrumentId)
    (hseries : (series.map portableSeries).Perm (specification.series.map portableSeries))
    (hmembers : (members'.map portableMember).Perm (members.map portableMember))
    (hstatuses : (statuses'.map portableStatus).Perm (statuses.map portableStatus))
    (hcoverage : (coverage'.map portableSegment).Perm (coverage.map portableSegment)) :
    canonicalDatasetHashes sha256 { specification with series := series } members' statuses'
      coverage' = .ok hashes := by
  obtain ⟨hspecification, hmemberValid, hmemberKeys, hstatusValid, hstatusProjection,
    hcoverageValid, hcoverageProjection, rfl⟩ := canonicalDatasetHashes_eq_ok.mp haccepted
  have hseriesKeys : (series.map seriesSortKey).Nodup := by
    have hkeys : (series.map seriesSortKey).Perm (specification.series.map seriesSortKey) :=
      perm_of_shown hseries fun _ => rfl
    apply hkeys.nodup_iff.mpr
    simp only [validateSpecification, check_eq_ok] at hspecification
    obtain ⟨-, -, -, -, -, -, hloop, -⟩ := hspecification
    exact nodup_seriesSortKey hseriesUnit hseriesHash hseriesVersion
      (validateSeries_eq_ok.mp hloop).2.2.1
  have hsortedMembers : (sortedBy memberSortKey members).map portableMember =
      (sortedBy memberSortKey members').map portableMember := by
    apply map_sortedBy_eq_of_perm memberSortKey hmembers.symm
    have hkeys := nodup_memberStreamKey hmemberValid hmemberUnit hmemberKeys
    exact nodup_map_of_key_eq (fun a _ b _ heq => congrArg List.dropLast heq) hkeys
  have hsortedStatuses : (sortedBy marketStatusSortKey statuses).map portableStatus =
      (sortedBy marketStatusSortKey statuses').map portableStatus :=
    map_sortedBy_eq_of_perm marketStatusSortKey hstatuses.symm
      (nodup_marketStatusSortKey hstatusValid hstatusProjection)
  have hsortedCoverage : (sortedBy coverageSortKey coverage).map portableSegment =
      (sortedBy coverageSortKey coverage').map portableSegment :=
    map_sortedBy_eq_of_perm coverageSortKey hcoverage.symm
      (nodup_coverageSortKey hcoverageValid hcoverageUnit hcoverageProjection)
  have hnaturalKeys : (members'.map memberNaturalKey).Perm (members.map memberNaturalKey) :=
    perm_of_shown hmembers fun _ => rfl
  apply canonicalDatasetHashes_eq_ok.mpr
  refine ⟨validateSpecification_of_perm hspecification hseries hids,
    forall_of_shown hmembers (fun _ => canonicalMember_portable) hmemberValid,
    hnaturalKeys.nodup_iff.mpr hmemberKeys,
    forall_of_shown hstatuses (fun _ => canonicalMarketStatus_portable) hstatusValid, ?_,
    forall_of_shown hcoverage (fun _ => canonicalCoverageSegment_portable) hcoverageValid, ?_, ?_⟩
  · rw [← hstatusProjection]
    exact (validateProjection_of_shown hsortedStatuses fun _ => ⟨rfl, rfl, rfl, rfl⟩).symm
  · rw [← hcoverageProjection]
    exact (validateProjection_of_shown hsortedCoverage fun _ => ⟨rfl, rfl, rfl, rfl⟩).symm
  · rw [canonicalSpecification_eq hseries hseriesKeys,
      map_eq_of_shown hsortedMembers (g := memberPayload) fun _ => rfl,
      map_eq_of_shown hsortedStatuses (g := marketStatusPayload) fun _ => rfl,
      map_eq_of_shown hsortedCoverage (g := coveragePayload) fun _ => rfl]

/-! ## Without the `tzinfo` objects -/

/-- The object says an offset of zero for every wall clock. -/
def IsUtc (tzinfo : TzInfo) : Prop :=
  ∀ date time, (tzinfo.utcoffset date time).microseconds = 0

/-- The wall clock of a datetime. -/
def wallClockOf (value : AwareDatetime) : Date × Fin dayMicroseconds := (value.date, value.timeOfDay)

theorem abs_zero_lt_day : |(0 : ℤ)| < dayMicroseconds := by
  decide

/-- A wall clock in UTC. -/
def utcDatetime (value : Date × Fin dayMicroseconds) : Datetime where
  date := value.1
  timeOfDay := value.2
  utcoffset := ⟨0, abs_zero_lt_day⟩

/-- What is read of a datetime in UTC is its wall clock. -/
theorem datetime_eq_utcDatetime {value : AwareDatetime} (h : IsUtc value.tzinfo) :
    value.datetime = utcDatetime (wallClockOf value) := by
  have hzero := h value.date value.timeOfDay
  unfold AwareDatetime.datetime utcDatetime wallClockOf
  cases hoffset : value.tzinfo.utcoffset value.date value.timeOfDay with
  | mk microseconds bound =>
    rw [hoffset] at hzero
    obtain rfl : microseconds = 0 := hzero
    rfl

section Times

variable {τ : Type}

/-- The times of a specification. -/
def specificationTimes (specification : DatasetCanonicalSpecificationOf τ) : List τ :=
  [specification.asOf, specification.inputStartAt, specification.outputStartAt,
    specification.endAt]

/-- The times of a member. -/
def memberTimes (member : DatasetCanonicalMemberOf τ) : List τ :=
  [member.occurredAt, member.knowledgeAt, member.sourceAsOf]

/-- The times of a market status. -/
def statusTimes (status : DatasetMarketStatusSnapshotOf τ) : List τ :=
  status.validFrom :: status.observedAt :: status.validTo.toList

/-- The times of a coverage segment. -/
def segmentTimes (segment : DatasetCoverageSegmentOf τ) : List τ :=
  [segment.rangeStartAt, segment.rangeEndAt, segment.knowledgeAt]

end Times

/-- A specification without the ids of the instruments, the order of its series and the `tzinfo`
objects. -/
def specificationCore (specification : DatasetCanonicalSpecificationOf AwareDatetime) :
    DatasetCanonicalSpecificationOf (Date × Fin dayMicroseconds) :=
  { specification.mapTimes wallClockOf with series := [] }

/-- A member without its id and its `tzinfo` objects. -/
def memberCore (member : DatasetCanonicalMemberOf AwareDatetime) :
    DatasetCanonicalMemberOf (Date × Fin dayMicroseconds) :=
  portableMember (member.mapTimes wallClockOf)

/-- A market status without its id and its `tzinfo` objects. -/
def statusCore (status : DatasetMarketStatusSnapshotOf AwareDatetime) :
    DatasetMarketStatusSnapshotOf (Date × Fin dayMicroseconds) :=
  portableStatus (status.mapTimes wallClockOf)

/-- A coverage segment without its id and its `tzinfo` objects. -/
def segmentCore (segment : DatasetCoverageSegmentOf AwareDatetime) :
    DatasetCoverageSegmentOf (Date × Fin dayMicroseconds) :=
  portableSegment (segment.mapTimes wallClockOf)

/-- `canonical_dataset_hashes`, of records whose times have `tzinfo` objects. -/
def awareDatasetHashes (sha256 : List ℕ → String)
    (specification : DatasetCanonicalSpecificationOf AwareDatetime)
    (members : List (DatasetCanonicalMemberOf AwareDatetime))
    (statuses : List (DatasetMarketStatusSnapshotOf AwareDatetime))
    (coverage : List (DatasetCoverageSegmentOf AwareDatetime)) :
    Except PythonError DatasetHashes :=
  canonicalDatasetHashes sha256 (specification.mapTimes AwareDatetime.datetime)
    (members.map fun member => member.mapTimes AwareDatetime.datetime)
    (statuses.map fun status => status.mapTimes AwareDatetime.datetime)
    (coverage.map fun segment => segment.mapTimes AwareDatetime.datetime)

theorem portableMember_mapTimes {member : DatasetCanonicalMemberOf AwareDatetime}
    (h : ∀ time ∈ memberTimes member, IsUtc time.tzinfo) :
    portableMember (member.mapTimes AwareDatetime.datetime) =
      (memberCore member).mapTimes utcDatetime := by
  simp only [memberTimes, forall_mem_cons] at h
  obtain ⟨hoccurred, hknowledge, hsource, -⟩ := h
  simp only [portableMember, memberCore, DatasetCanonicalMemberOf.mapTimes,
    datetime_eq_utcDatetime hoccurred, datetime_eq_utcDatetime hknowledge,
    datetime_eq_utcDatetime hsource]

theorem portableStatus_mapTimes {status : DatasetMarketStatusSnapshotOf AwareDatetime}
    (h : ∀ time ∈ statusTimes status, IsUtc time.tzinfo) :
    portableStatus (status.mapTimes AwareDatetime.datetime) =
      (statusCore status).mapTimes utcDatetime := by
  simp only [statusTimes, forall_mem_cons, Option.mem_toList] at h
  obtain ⟨hfrom, hobserved, hto⟩ := h
  have hmap : status.validTo.map AwareDatetime.datetime =
      (status.validTo.map wallClockOf).map utcDatetime := by
    cases hvalidTo : status.validTo with
    | none => rfl
    | some time => simp [datetime_eq_utcDatetime (hto time hvalidTo)]
  simp only [portableStatus, statusCore, DatasetMarketStatusSnapshotOf.mapTimes,
    datetime_eq_utcDatetime hfrom, datetime_eq_utcDatetime hobserved, hmap]

theorem portableSegment_mapTimes {segment : DatasetCoverageSegmentOf AwareDatetime}
    (h : ∀ time ∈ segmentTimes segment, IsUtc time.tzinfo) :
    portableSegment (segment.mapTimes AwareDatetime.datetime) =
      (segmentCore segment).mapTimes utcDatetime := by
  simp only [segmentTimes, forall_mem_cons] at h
  obtain ⟨hstart, hend, hknowledge, -⟩ := h
  simp only [portableSegment, segmentCore, DatasetCoverageSegmentOf.mapTimes,
    datetime_eq_utcDatetime hstart, datetime_eq_utcDatetime hend,
    datetime_eq_utcDatetime hknowledge]

theorem specification_mapTimes {specification : DatasetCanonicalSpecificationOf AwareDatetime}
    (h : ∀ time ∈ specificationTimes specification, IsUtc time.tzinfo) :
    specification.mapTimes AwareDatetime.datetime =
      { (specificationCore specification).mapTimes utcDatetime with
        series := specification.series } := by
  simp only [specificationTimes, forall_mem_cons] at h
  obtain ⟨hasOf, hinput, houtput, hend, -⟩ := h
  simp only [specificationCore, DatasetCanonicalSpecificationOf.mapTimes,
    datetime_eq_utcDatetime hasOf, datetime_eq_utcDatetime hinput,
    datetime_eq_utcDatetime houtput, datetime_eq_utcDatetime hend]

/-- Records that are read alike: the permutation passes from what is left of them to what is
read of them. -/
theorem perm_of_core {α β γ δ : Type} {core : α → β} {read : α → γ} {portable : γ → δ}
    {g : β → δ} {p : α → Prop} (hread : ∀ a, p a → portable (read a) = g (core a)) {l m : List α}
    (hl : ∀ a ∈ l, p a) (hm : ∀ a ∈ m, p a) (h : (m.map core).Perm (l.map core)) :
    ((m.map read).map portable).Perm ((l.map read).map portable) := by
  have hmap : ∀ l : List α, (∀ a ∈ l, p a) →
      (l.map read).map portable = (l.map core).map g := by
    intro l hl
    rw [map_map, map_map]
    exact map_congr_left fun a ha => hread a (hl a ha)
  rw [hmap l hl, hmap m hm]
  exact h.map g

/-- The hashes of an accepted dataset do not depend on the order of its lists, on the ids of
instruments and source rows or on the `tzinfo` objects of UTC.
SOURCE: dataset_versions.py:173-238, 257-334, 404-512 -/
theorem awareDatasetHashes_canonical (sha256 : List ℕ → String)
    (specification specification' : DatasetCanonicalSpecificationOf AwareDatetime)
    (members members' : List (DatasetCanonicalMemberOf AwareDatetime))
    (statuses statuses' : List (DatasetMarketStatusSnapshotOf AwareDatetime))
    (coverage coverage' : List (DatasetCoverageSegmentOf AwareDatetime)) (hashes : DatasetHashes)
    (haccepted : awareDatasetHashes sha256 specification members statuses coverage = .ok hashes)
    (hseriesUnit : ∀ item ∈ specification.series, item.unit ≠ some "None")
    (hseriesHash : ∀ item ∈ specification.series, item.definitionSetHash ≠ some "None")
    (hseriesVersion : ∀ item ∈ specification.series, item.calculationVersion ≠ some "None")
    (hmemberUnit : ∀ member ∈ members, member.unit ≠ some "None")
    (hcoverageUnit : ∀ segment ∈ coverage, segment.unit ≠ some "None")
    (hspecificationUtc : ∀ time ∈ specificationTimes specification ++
      specificationTimes specification', IsUtc time.tzinfo)
    (hmembersUtc : ∀ member ∈ members ++ members', ∀ time ∈ memberTimes member,
      IsUtc time.tzinfo)
    (hstatusesUtc : ∀ status ∈ statuses ++ statuses', ∀ time ∈ statusTimes status,
      IsUtc time.tzinfo)
    (hcoverageUtc : ∀ segment ∈ coverage ++ coverage', ∀ time ∈ segmentTimes segment,
      IsUtc time.tzinfo)
    (hcore : specificationCore specification' = specificationCore specification)
    (hids : ∀ item ∈ specification'.series, 0 < item.instrumentId)
    (hseries : (specification'.series.map portableSeries).Perm
      (specification.series.map portableSeries))
    (hmembers : (members'.map memberCore).Perm (members.map memberCore))
    (hstatuses : (statuses'.map statusCore).Perm (statuses.map statusCore))
    (hcoverage : (coverage'.map segmentCore).Perm (coverage.map segmentCore)) :
    awareDatasetHashes sha256 specification' members' statuses' coverage' = .ok hashes := by
  rw [forall_mem_append] at hspecificationUtc hmembersUtc hstatusesUtc hcoverageUtc
  unfold awareDatasetHashes at haccepted ⊢
  have hread : specification'.mapTimes AwareDatetime.datetime =
      { specification.mapTimes AwareDatetime.datetime with series := specification'.series } := by
    rw [specification_mapTimes hspecificationUtc.1, specification_mapTimes hspecificationUtc.2,
      hcore]
  rw [hread]
  refine canonicalDatasetHashes_of_perm haccepted hseriesUnit hseriesHash hseriesVersion ?_ ?_ hids
    hseries ?_ ?_ ?_
  · intro member hmember
    obtain ⟨aware, haware, rfl⟩ := mem_map.mp hmember
    exact hmemberUnit aware haware
  · intro segment hsegment
    obtain ⟨aware, haware, rfl⟩ := mem_map.mp hsegment
    exact hcoverageUnit aware haware
  · exact perm_of_core (fun _ => portableMember_mapTimes) hmembersUtc.1 hmembersUtc.2 hmembers
  · exact perm_of_core (fun _ => portableStatus_mapTimes) hstatusesUtc.1 hstatusesUtc.2 hstatuses
  · exact perm_of_core (fun _ => portableSegment_mapTimes) hcoverageUtc.1 hcoverageUtc.2 hcoverage

/-- A `tzinfo` object of UTC. -/
def utcInfo (name : String) : TzInfo where
  name := name
  utcoffset := fun _ _ => ⟨0, abs_zero_lt_day⟩

theorem isUtc_utcInfo (name : String) : IsUtc (utcInfo name) := fun _ _ => rfl

/-- A datetime with another object. -/
def withInfo (name : String) (value : Datetime) : AwareDatetime where
  date := value.date
  timeOfDay := value.timeOfDay
  tzinfo := utcInfo name

/-- The members come the other way round, with new ids, and all times of another object. -/
theorem awareDatasetHashes_canonical_one_day :
    ∃ hashes,
      awareDatasetHashes sampleSha256 (dayOfCandles.mapTimes (withInfo "UTC"))
        [(memberAt 43200000000).mapTimes (withInfo "UTC"),
          (memberAt 43200500000).mapTimes (withInfo "UTC")]
        [activeStatus.mapTimes (withInfo "UTC")] [fullCoverage.mapTimes (withInfo "UTC")] =
          .ok hashes ∧
      awareDatasetHashes sampleSha256
        { dayOfCandles.mapTimes (withInfo "Etc/UTC") with
          series := dayOfCandles.series.map fun item => { item with instrumentId := 7 } }
        [{ (memberAt 43200500000).mapTimes (withInfo "Etc/UTC") with sourceRefId := 9 },
          { (memberAt 43200000000).mapTimes (withInfo "Etc/UTC") with sourceRefId := 8 }]
        [activeStatus.mapTimes (withInfo "Etc/UTC")]
        [fullCoverage.mapTimes (withInfo "Etc/UTC")] = .ok hashes := by
  have haccepted : (awareDatasetHashes sampleSha256 (dayOfCandles.mapTimes (withInfo "UTC"))
      [(memberAt 43200000000).mapTimes (withInfo "UTC"),
        (memberAt 43200500000).mapTimes (withInfo "UTC")]
      [activeStatus.mapTimes (withInfo "UTC")]
      [fullCoverage.mapTimes (withInfo "UTC")]).isOk = true := by
    decide +kernel
  obtain ⟨hashes, haccepted⟩ := exists_ok_of_isOk haccepted
  refine ⟨hashes, haccepted, ?_⟩
  apply awareDatasetHashes_canonical _ _ _ _ _ _ _ _ _ _ haccepted
  · simp [dayOfCandles, DatasetCanonicalSpecificationOf.mapTimes]
  · simp [dayOfCandles, DatasetCanonicalSpecificationOf.mapTimes]
  · simp [dayOfCandles, DatasetCanonicalSpecificationOf.mapTimes]
  · simp [memberAt, DatasetCanonicalMemberOf.mapTimes]
  · simp [fullCoverage, DatasetCoverageSegmentOf.mapTimes]
  · simp [specificationTimes, DatasetCanonicalSpecificationOf.mapTimes, withInfo, isUtc_utcInfo]
  · simp [memberTimes, DatasetCanonicalMemberOf.mapTimes, withInfo, isUtc_utcInfo]
  · simp [statusTimes, activeStatus, DatasetMarketStatusSnapshotOf.mapTimes, withInfo,
      isUtc_utcInfo]
  · simp [segmentTimes, DatasetCoverageSegmentOf.mapTimes, withInfo, isUtc_utcInfo]
  · rfl
  · simp [dayOfCandles]
  · simp [dayOfCandles, DatasetCanonicalSpecificationOf.mapTimes, portableSeries]
  · exact List.Perm.swap _ _ _
  · exact List.Perm.refl _
  · exact List.Perm.refl _

end Goodmoneying.Analysis
