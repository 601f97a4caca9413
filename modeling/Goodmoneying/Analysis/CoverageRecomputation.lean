import Goodmoneying.Analysis.CoverageReplacement
import Goodmoneying.Analysis.TransitionRanges

/-!
# The whole coverage replacement

A call of `replaceCoverageWithClassification` that returns has done the replacement
(`replaceCoverage_of_classification`). The store refuses nothing of it, so what the call raises
comes from the recomputation of the created events, and it raises nothing where the calendar has
room around the source candles of the target (`classification_isOk`).
-/

namespace Goodmoneying.Analysis

open Library Program Program.Aggregation

variable {checksum : CanonicalValue → String} {sha256 : String → String}
  {db db' : CoverageTables} {call : CoverageCall}

/-- The calendar has room around the source candles of a target. -/
def TargetHasRoom (db : CoverageTables) (targetSpecId : ℤ) : Prop :=
  ∀ target ∈ db.contexts targetSpecId, ∀ instrumentId ∈ target.instrumentId,
    HasRoom db.revisions instrumentId

/-- The tables agree in what no call changes. -/
structure SameTargets (db db' : CoverageTables) : Prop where
  markets : db'.markets = db.markets
  contexts : db'.contexts = db.contexts
  revisions : db'.revisions = db.revisions

theorem SameTargets.refl (db : CoverageTables) : SameTargets db db := ⟨rfl, rfl, rfl⟩

theorem SameTargets.trans {db₁ db₂ db₃ : CoverageTables} (h : SameTargets db₁ db₂)
    (h' : SameTargets db₂ db₃) : SameTargets db₁ db₃ :=
  ⟨h'.markets.trans h.markets, h'.contexts.trans h.contexts, h'.revisions.trans h.revisions⟩

theorem SameTargets.hasRoom (h : SameTargets db db') {targetSpecId : ℤ}
    (hroom : TargetHasRoom db targetSpecId) : TargetHasRoom db' targetSpecId := by
  rw [TargetHasRoom, h.contexts, h.revisions]
  exact hroom

/-- The replacement leaves the targets as they are. -/
theorem markets_of_replaceCoverage {inner inner' : CoverageDatabase}
    (h : replaceCoverage checksum inner call = .ok inner') : inner'.markets = inner.markets := by
  unfold replaceCoverage at h
  split_ifs at h
  · exact congrArg _ (Except.ok.inj h).symm
  · split at h
    · exact congrArg _ (Except.ok.inj h).symm
    · obtain ⟨preserved, -, h⟩ := bind_eq_ok.mp h
      obtain ⟨replaced, -, h⟩ := bind_eq_ok.mp h
      obtain rfl := pure_eq_ok.mp h
      rfl

/-- A call that returns has done the replacement. -/
theorem replaceCoverage_of_classification
    (h : replaceCoverageWithClassification checksum sha256 db call = .ok db') :
    replaceCoverage checksum db.toCoverageDatabase call = .ok db'.toCoverageDatabase ∧
      SameTargets db db' := by
  obtain ⟨replaced, hreplaced, h⟩ := bind_eq_ok.mp h
  rw [mapError_eq_ok] at hreplaced
  obtain ⟨recomputed, -, h⟩ := bind_eq_ok.mp h
  obtain rfl := pure_eq_ok.mp h
  exact ⟨hreplaced, markets_of_replaceCoverage hreplaced, rfl, rfl⟩

/-- A call returns, if the calendar has room for its recomputations. -/
theorem classification_isOk (checksum : CanonicalValue → String) (sha256 : String → String)
    (hseparate : Separate db.intervals) (hroom : TargetHasRoom db call.targetSpecId) :
    ∃ db', replaceCoverageWithClassification checksum sha256 db call = .ok db' ∧
      Separate db'.intervals ∧ SameTargets db db' := by
  obtain ⟨replaced, hreplaced, hseparate'⟩ := replaceCoverage_separate checksum hseparate call
  let next : CoverageTables := { db with toCoverageDatabase := replaced }
  obtain ⟨recomputed, hrecomputed⟩ : ∃ recomputed, recomputeCreated sha256 next call
      (createdEvents db.events replaced.events) = .ok recomputed :=
    mapM_isOk_iff.mpr fun event _ => enqueue_isOk sha256 hroom _ _ _ _ _
  refine ⟨{ next with recomputations := db.recomputations ++ recomputed }, ?_, hseparate',
    markets_of_replaceCoverage hreplaced, rfl, rfl⟩
  rw [replaceCoverageWithClassification, mapError_eq_ok.mpr hreplaced, ok_bind]
  exact bind_eq_ok.mpr ⟨recomputed, mapError_eq_ok.mpr hrecomputed, rfl⟩

/-- The store refuses no call. -/
theorem error_of_classification (hseparate : Separate db.intervals) {error : CoverageException}
    (h : replaceCoverageWithClassification checksum sha256 db call = .error error) :
    ∃ exception, error = .python exception := by
  obtain ⟨replaced, hreplaced, -⟩ := replaceCoverage_separate checksum hseparate call
  rw [replaceCoverageWithClassification, mapError_eq_ok.mpr hreplaced, ok_bind] at h
  dsimp only at h
  cases hloop : recomputeCreated sha256 { db with toCoverageDatabase := replaced } call
      (createdEvents db.events replaced.events) with
  | error exception =>
    rw [hloop] at h
    exact ⟨exception, (Except.error.inj h).symm⟩
  | ok recomputed =>
    rw [hloop] at h
    cases h

/-- A call without a range, or for a target without a market, changes nothing. -/
theorem classification_unchanged (checksum : CanonicalValue → String) (sha256 : String → String)
    (h : call.rangeEndAt ≤ call.rangeStartAt ∨ db.markets call.targetSpecId = none) :
    replaceCoverageWithClassification checksum sha256 db call = .ok db := by
  have hreplaced := replaceCoverage_unchanged checksum h
  rw [replaceCoverageWithClassification, mapError_eq_ok.mpr hreplaced, ok_bind, createdEvents,
    List.drop_length]
  show Except.ok { db with recomputations := db.recomputations ++ [] } = _
  rw [List.append_nil]

/-- What a call that returns has done to the coverage of its target, and of the others. -/
theorem coverageAt_classification (hseparate : Separate db.intervals)
    (hmarket : (db.markets call.targetSpecId).isSome) (hcall : call.rangeStartAt < call.rangeEndAt)
    (h : replaceCoverageWithClassification checksum sha256 db call = .ok db') :
    Separate db'.intervals ∧
      (∀ other, other ≠ call.targetSpecId →
        db'.intervals.ofTarget other = db.intervals.ofTarget other) ∧
      ∀ x, coverageAt db'.intervals call.targetSpecId x =
        if call.rangeStartAt ≤ x ∧ x < call.rangeEndAt then some (newCoverage call)
        else coverageAt db.intervals call.targetSpecId x := by
  obtain ⟨hreplaced, -⟩ := replaceCoverage_of_classification h
  obtain ⟨inner, hinner, hspans, hothers, -⟩ :=
    replaceCoverage_refines_assign checksum hseparate hmarket hcall
  obtain rfl := Except.ok.inj (hreplaced.symm.trans hinner)
  have hassigned := assign_pairwise hcall (hseparate call.targetSpecId) (newCoverage call)
  refine ⟨fun target => ?_, hothers, fun x => ?_⟩
  · by_cases htarget : target = call.targetSpecId
    · rw [htarget]
      exact (hspans.pairwise_iff Library.Apart.symm).mpr hassigned
    · rw [spansOf, hothers target htarget]
      exact hseparate target
  · rw [coverageAt, lookup_perm hassigned hspans, lookup_assign hcall (hseparate _), coverageAt]

/-- The status of a target after a call that returns. -/
theorem statusAt_classification (hseparate : Separate db.intervals)
    (hmarket : (db.markets call.targetSpecId).isSome) (hcall : call.rangeStartAt < call.rangeEndAt)
    (h : replaceCoverageWithClassification checksum sha256 db call = .ok db') (target : ℤ)
    (x : Instant) :
    statusAt db'.intervals target x =
      if target = call.targetSpecId ∧ call.rangeStartAt ≤ x ∧ x < call.rangeEndAt then
        some call.status
      else statusAt db.intervals target x := by
  obtain ⟨-, hothers, hcoverage⟩ := coverageAt_classification hseparate hmarket hcall h
  by_cases htarget : target = call.targetSpecId
  · rw [statusAt, htarget, hcoverage]
    simp only [true_and]
    split_ifs <;> rfl
  · rw [if_neg (fun h => htarget h.1), statusAt, coverageAt, spansOf, hothers target htarget]
    rfl

/-- A call that returns keeps the intervals of every target disjoint. -/
theorem classification_separate (hseparate : Separate db.intervals)
    (h : replaceCoverageWithClassification checksum sha256 db call = .ok db') :
    Separate db'.intervals := by
  obtain ⟨inner, hinner, hkept⟩ := replaceCoverage_separate checksum hseparate call
  obtain rfl := Except.ok.inj ((replaceCoverage_of_classification h).1.symm.trans hinner)
  exact hkept

/-- A sequence of calls. -/
def replaceAll (checksum : CanonicalValue → String) (sha256 : String → String)
    (db : CoverageTables) (calls : List CoverageCall) : Except CoverageException CoverageTables :=
  calls.foldlM (replaceCoverageWithClassification checksum sha256) db

/-- A sequence returns, if the calendar has room around the source candles of its targets. -/
theorem replaceAll_isOk (checksum : CanonicalValue → String) (sha256 : String → String)
    (hseparate : Separate db.intervals) {calls : List CoverageCall}
    (hroom : ∀ call ∈ calls, TargetHasRoom db call.targetSpecId) :
    ∃ db', replaceAll checksum sha256 db calls = .ok db' ∧
      Separate db'.intervals ∧ SameTargets db db' := by
  refine foldlM_isOk (P := fun db' => Separate db'.intervals ∧ SameTargets db db') ?_
    ⟨hseparate, .refl db⟩
  rintro next call hcall ⟨hnext, hsame⟩
  obtain ⟨last, hlast, hseparate', hsame'⟩ :=
    classification_isOk checksum sha256 hnext (hsame.hasRoom (hroom call hcall))
  exact ⟨last, hlast, hseparate', hsame.trans hsame'⟩

/-- A coverage without evidence. -/
def plainCoverage (status : CoverageState) : Coverage := ⟨status, [], none, 0⟩

/-- A database in which target 1 is available on [0, 10) and missing on [20, 30). -/
def twoIntervals : CoverageDatabase where
  markets := fun target => if target = 1 then some 1 else none
  intervals := {
    rows := [⟨1, 1, 0, 10, plainCoverage .available, by decide⟩,
      ⟨2, 1, 20, 30, plainCoverage .missing, by decide⟩]
    nextId := 3
    unique := by decide
    fresh := by simp }
  events := .empty

/-- A call for target 1, at a time. -/
def callAt (assessedAt start stop : Instant) (status : CoverageState) : CoverageCall where
  targetSpecId := 1
  rangeStartAt := start
  rangeEndAt := stop
  status := status
  reasonCode := "reason"
  manifestId := none
  evidence := []
  assessedAt := assessedAt

/-- The database with a source candle of minutes for target 1. -/
def twoTables : CoverageTables where
  toCoverageDatabase := twoIntervals
  contexts := fun target => if target = 1 then some minuteTarget else none
  revisions := [⟨1, 1, ⟨738000 * dayMicroseconds, by decide⟩⟩]
  recomputations := []

/-- The intervals of the database are disjoint. -/
theorem twoTables_separate : Separate twoTables.intervals := by
  intro target
  by_cases htarget : target = 1
  · rw [htarget]
    decide
  · simp [spansOf, IntervalTable.ofTarget, twoTables, twoIntervals, Ne.symm htarget]

/-- Its source candle is far from the ends of the calendar. -/
theorem twoTables_hasRoom (targetSpecId : ℤ) : TargetHasRoom twoTables targetSpecId := by
  intro target _ instrumentId _ revision hrevision _
  obtain rfl := List.mem_singleton.mp hrevision
  decide

/-- Its transitions: the available part becomes missing, and so does the hole. -/
example : (coverageTransitions (callAt 7 5 25 .missing)
      (overlappingIntervals twoIntervals.intervals (callAt 7 5 25 .missing))).map
        (fun transition => (transition.value, transition.start, transition.stop)) =
    [(some .available, 5, 10), (none, 10, 20)] := by
  decide +kernel

/-- The beginning of the sixteenth day before the last one. -/
def lastMonth : Instant := ((maxOrdinal - 16) * dayMicroseconds : ℕ)

/-- Tables without coverage, and with one source candle. -/
def emptyTables (candleStartAt : UtcTime) : CoverageTables where
  markets := fun _ => some 1
  intervals := ⟨[], 1, List.nodup_nil, fun _ h => absurd h List.not_mem_nil⟩
  events := .empty
  contexts := fun _ => some minuteTarget
  revisions := [⟨1, 1, candleStartAt⟩]
  recomputations := []

end Goodmoneying.Analysis
