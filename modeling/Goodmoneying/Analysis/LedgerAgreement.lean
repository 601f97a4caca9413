import Goodmoneying.Program.CandleLedger

/-!
# The row of a candle and its current revision

The row is guarded by `collected_at`, the ledger by the content of the last revision, and the
readers order by `source_as_of`. A content that is fetched again leaves no revision, so that a late
candle can become current (`refetched_overtaken`). The row and the current revision agree as long as
no candle is written where the three criteria part (`Records`).
-/

namespace Goodmoneying.Analysis

open List Library Program Program.CandleLedger

variable (price : ℚ) (collected : Fin 100)

/-! ## One candle -/

/-- The row of a stored candle has a market and is not older than its revisions, which have
ascending numbers. -/
structure Ledgered (db : CandleDatabase) (key : CandleKey) : Prop where
  unstored : db.sourceCandles key = none → db.revisionsOf key = []
  stored : ∀ row, db.sourceCandles key = some row → row.marketId ≠ none ∧
    db.revisionsOf key ≠ [] ∧
    ∀ revision ∈ db.revisionsOf key, revision.sourceAsOf ≤ row.collectedAt
  numbers : (db.revisionsOf key).Pairwise fun revision other =>
    revision.revisionNumber < other.revisionNumber

/-- The row has the values of the current revision. -/
def RowAgrees (db : CandleDatabase) (key : CandleKey) : Prop :=
  ∀ row, db.sourceCandles key = some row →
    ∃ current, currentRevision db key = some current ∧ current.values = row.values

section

variable (ar : Arithmetic) (sha256 : String → String)
variable {db' : CandleDatabase} {new : CandleRevision} {row : SourceCandleRow}
variable {db : CandleDatabase} {item : InstrumentCandle} {market : ℤ} {key : CandleKey}
  {call : UpsertCall}
variable (marketId : Option ℤ)

/-- The candle does not part the row from the ledger: where it replaces the row, it is not what
the last revision has unless the current one has it as well; where it is late, it is what the last
revision or the row has, or older than the current revision. -/
def Records (db : CandleDatabase) (item : InstrumentCandle) : Prop :=
  ∀ row last current, db.sourceCandles item.key = some row →
    lastRevision db item.key = some last → currentRevision db item.key = some current →
    if row.collectedAt ≤ item.collectedAt then
      last.inputContentHash ≠ sourceCandleContentHash ar sha256 item.values ∨
        current.values = item.values
    else
      last.inputContentHash = sourceCandleContentHash ar sha256 item.values ∨
        item.collectedAt < current.sourceAsOf ∨ item.values = row.values

/-- The last revision has the content of the candle. -/
def ContentKnown (db : CandleDatabase) (item : InstrumentCandle) : Prop :=
  ∃ last, lastRevision db item.key = some last ∧
    last.inputContentHash = sourceCandleContentHash ar sha256 item.values

/-- The candle does not replace the row. -/
def Late (db : CandleDatabase) (item : InstrumentCandle) : Prop :=
  ∃ row, db.sourceCandles item.key = some row ∧ item.collectedAt < row.collectedAt

variable {ar sha256}

theorem insertSourceCandle_late (h : Late db item) : insertSourceCandle db marketId item = db := by
  obtain ⟨row, hrow, hlate⟩ := h
  unfold insertSourceCandle
  rw [hrow]
  simp [hlate]

theorem insertSourceCandle_timely (h : ¬ Late db item) :
    insertSourceCandle db marketId item = { db with
      sourceCandles := Function.update db.sourceCandles item.key
        (some ⟨item.values, item.collectedAt, marketId⟩) } := by
  unfold insertSourceCandle
  refine if_pos ?_
  cases hrow : db.sourceCandles item.key with
  | none => rfl
  | some row => exact decide_eq_true (not_lt.mp fun hlate => h ⟨row, hrow, hlate⟩)

theorem insertSourceCandle_row (h : ¬ Late db item) :
    (insertSourceCandle db marketId item).sourceCandles item.key =
      some ⟨item.values, item.collectedAt, marketId⟩ := by
  rw [insertSourceCandle_timely marketId h]
  exact Function.update_self ..

theorem insertSourceCandle_revisions (db : CandleDatabase) (marketId : Option ℤ)
    (item : InstrumentCandle) : (insertSourceCandle db marketId item).revisions = db.revisions := by
  unfold insertSourceCandle
  dsimp only
  split_ifs <;> rfl

/-- The row of the candle after the insertion. -/
theorem insertSourceCandle_own (hledger : Ledgered db item.key) :
    ∃ row, (insertSourceCandle db (some market) item).sourceCandles item.key = some row ∧
      row.marketId ≠ none ∧ item.collectedAt ≤ row.collectedAt ∧
      (∀ old, db.sourceCandles item.key = some old → old.collectedAt ≤ row.collectedAt) := by
  by_cases hlate : Late db item
  · obtain ⟨row, hrow, hlt⟩ := id hlate
    rw [insertSourceCandle_late _ hlate]
    refine ⟨row, hrow, (hledger.stored row hrow).1, hlt.le, fun old hold => ?_⟩
    rw [Option.some.inj (hold.symm.trans hrow)]
  · rw [insertSourceCandle_timely _ hlate]
    refine ⟨_, Function.update_self .., by simp, le_refl _, fun old hold => ?_⟩
    exact not_lt.mp fun hlt => hlate ⟨old, hold, hlt⟩

theorem lastRevision_congr (h : db'.revisions = db.revisions) (key : CandleKey) :
    lastRevision db' key = lastRevision db key := by
  unfold lastRevision CandleDatabase.revisionsOf
  rw [h]

/-- What an append that creates a revision adds to the revisions of its candle. -/
structure Appended (db db' : CandleDatabase) (item : InstrumentCandle) (new : CandleRevision) :
    Prop where
  rows : db'.revisions.rows = db.revisions.rows ++ [new]
  sourceCandles : db'.sourceCandles = db.sourceCandles
  key : new.key = item.key
  values : new.values = item.values
  sourceAsOf : new.sourceAsOf = item.collectedAt
  later : ∀ revision ∈ db.revisionsOf item.key, revision.revisionNumber < new.revisionNumber

/-- The key of the candle gets one more revision. -/
theorem Appended.own (h : Appended db db' item new) :
    db'.revisionsOf item.key = db.revisionsOf item.key ++ [new] := by
  unfold CandleDatabase.revisionsOf
  rw [h.rows, filter_append]
  simp [h.key]

/-- The other keys keep their revisions. -/
theorem Appended.other (h : Appended db db' item new) (hkey : key ≠ item.key) :
    db'.revisionsOf key = db.revisionsOf key := by
  unfold CandleDatabase.revisionsOf
  rw [h.rows, filter_append]
  simp [h.key, hkey.symm]

theorem appendSourceCandleRevision_known (h : ContentKnown ar sha256 db item) :
    (appendSourceCandleRevision ar sha256 db item).2 = db := by
  obtain ⟨last, hlast, hhash⟩ := h
  unfold appendSourceCandleRevision
  split
  · rfl
  · simp [hlast, hhash]

theorem appendSourceCandleRevision_new (hrow : db.sourceCandles item.key = some row)
    (hmarket : row.marketId ≠ none) (h : ¬ ContentKnown ar sha256 db item) :
    ∃ new, Appended db (appendSourceCandleRevision ar sha256 db item).2 item new := by
  obtain ⟨market, hmarket⟩ := Option.ne_none_iff_exists'.mp hmarket
  unfold appendSourceCandleRevision
  rw [hrow, Option.bind_some, hmarket]
  dsimp only
  rw [if_neg]
  · refine ⟨_, rfl, rfl, rfl, rfl, rfl, fun revision hrevision => ?_⟩
    cases hlast : lastRevision db item.key with
    | none => rw [maxBy_eq_none.mp hlast] at hrevision; cases hrevision
    | some last => exact Int.lt_add_one_of_le ((maxBy_spec hlast).2 revision hrevision)
  · intro hany
    obtain ⟨last, hlast, hhash⟩ := (Option.any_eq_true _ _).mp hany
    exact h ⟨last, hlast, of_decide_eq_true hhash⟩

/-- The current revision after an append. -/
theorem Appended.current (h : Appended db db' item new) :
    currentRevision db' item.key = some ((currentRevision db item.key).elim new fun current =>
      if current.sourceAsOf ≤ item.collectedAt then new else current) := by
  unfold currentRevision
  rw [h.own, maxBy_concat]
  cases hcurrent : maxBy (fun revision : CandleRevision =>
      toLex (revision.sourceAsOf, toLex (revision.revisionNumber, revision.id)))
      (db.revisionsOf item.key) with
  | none => rfl
  | some current =>
    have hlater := h.later current (maxBy_spec hcurrent).1
    have hiff : toLex (current.sourceAsOf, toLex (current.revisionNumber, current.id)) <
        toLex (new.sourceAsOf, toLex (new.revisionNumber, new.id)) ↔
        current.sourceAsOf ≤ item.collectedAt := by
      simp only [Prod.Lex.toLex_lt_toLex, h.sourceAsOf]
      rw [le_iff_lt_or_eq]
      exact or_congr_right ⟨fun hsame => hsame.1, fun hsame => ⟨hsame, Or.inl hlater⟩⟩
    simp only [Option.elim_some, hiff]

/-! ## One round of the loop -/

/-- The database after the insertion into `source_candles`: the revisions are not written. -/
theorem known_insertSourceCandle :
    ContentKnown ar sha256 (insertSourceCandle db marketId item) item ↔
      ContentKnown ar sha256 db item := by
  unfold ContentKnown
  rw [lastRevision_congr (insertSourceCandle_revisions db marketId item)]

/-- A round appends to the revisions of the candle, or knows its content. -/
theorem upsertSourceCandle_cases (hledger : Ledgered db item.key) :
    let inserted := insertSourceCandle db (some market) item
    let after := (upsertSourceCandle ar sha256 db (some market) item).2
    (ContentKnown ar sha256 db item ∧ after = inserted) ∨
    (¬ ContentKnown ar sha256 db item ∧ ∃ new, Appended inserted after item new) := by
  intro inserted after
  by_cases hknown : ContentKnown ar sha256 db item
  · exact Or.inl ⟨hknown,
      appendSourceCandleRevision_known ((known_insertSourceCandle _).mpr hknown)⟩
  · obtain ⟨row, hrow, hmarket, -⟩ := insertSourceCandle_own hledger
    exact Or.inr ⟨hknown, appendSourceCandleRevision_new hrow hmarket
      fun h => hknown ((known_insertSourceCandle _).mp h)⟩

theorem revisionsOf_insertSourceCandle (db : CandleDatabase) (marketId : Option ℤ)
    (item : InstrumentCandle) (key : CandleKey) :
    (insertSourceCandle db marketId item).revisionsOf key = db.revisionsOf key := by
  unfold CandleDatabase.revisionsOf
  rw [insertSourceCandle_revisions]

/-- A round leaves the other candles. -/
theorem upsertSourceCandle_other (hledger : Ledgered db item.key) (hkey : key ≠ item.key) :
    (upsertSourceCandle ar sha256 db (some market) item).2.sourceCandles key =
      db.sourceCandles key ∧
    (upsertSourceCandle ar sha256 db (some market) item).2.revisionsOf key =
      db.revisionsOf key := by
  have hinserted : (insertSourceCandle db (some market) item).sourceCandles key =
      db.sourceCandles key := by
    by_cases hlate : Late db item
    · rw [insertSourceCandle_late _ hlate]
    · rw [insertSourceCandle_timely _ hlate]
      exact Function.update_of_ne hkey _ _
  rcases @upsertSourceCandle_cases ar sha256 db item market hledger with
    ⟨-, hsame⟩ | ⟨-, new, happended⟩
  · rw [hsame]
    exact ⟨hinserted, revisionsOf_insertSourceCandle _ _ _ _⟩
  · rw [happended.sourceCandles, happended.other hkey]
    exact ⟨hinserted, revisionsOf_insertSourceCandle _ _ _ _⟩

/-- An upsert keeps the ledger of every key. -/
theorem upsertSourceCandle_ledgered (hledger : ∀ key, Ledgered db key) (key : CandleKey) :
    Ledgered (upsertSourceCandle ar sha256 db (some market) item).2 key := by
  by_cases hkey : key = item.key
  swap
  · obtain ⟨hrow, hrevisions⟩ :=
      @upsertSourceCandle_other ar sha256 db item market key (hledger item.key) hkey
    have hbefore := hledger key
    exact ⟨fun h => hrevisions ▸ hbefore.unstored (hrow ▸ h),
      fun row h => hrevisions ▸ hbefore.stored row (hrow ▸ h), hrevisions ▸ hbefore.numbers⟩
  subst hkey
  obtain ⟨row, hrow, hmarket, hcollected, hold⟩ := @insertSourceCandle_own db item market
    (hledger item.key)
  have hrevisions := revisionsOf_insertSourceCandle db (some market) item item.key
  have hbound : ∀ revision ∈ db.revisionsOf item.key, revision.sourceAsOf ≤ row.collectedAt := by
    intro revision hrevision
    cases hbefore : db.sourceCandles item.key with
    | none => rw [(hledger item.key).unstored hbefore] at hrevision; cases hrevision
    | some old =>
      exact (((hledger item.key).stored old hbefore).2.2 revision hrevision).trans
        (hold old hbefore)
  have hcases := @upsertSourceCandle_cases ar sha256 db item market (hledger item.key)
  rcases hcases with ⟨⟨last, hlast, -⟩, hsame⟩ | ⟨-, new, happended⟩
  · rw [hsame]
    refine ⟨fun h => absurd (hrow.symm.trans h) (by simp), fun found hfound => ?_, ?_⟩
    · obtain rfl := Option.some.inj (hrow.symm.trans hfound)
      rw [hrevisions]
      exact ⟨hmarket, ne_nil_of_mem (maxBy_spec hlast).1, hbound⟩
    · rw [hrevisions]
      exact (hledger item.key).numbers
  · have hown := happended.own
    have hlater := happended.later
    rw [hrevisions] at hown hlater
    refine ⟨fun h => ?_, fun found hfound => ?_, ?_⟩
    · rw [happended.sourceCandles, hrow] at h
      cases h
    · rw [happended.sourceCandles] at hfound
      obtain rfl := Option.some.inj (hrow.symm.trans hfound)
      rw [hown]
      refine ⟨hmarket, by simp, fun revision hrevision => ?_⟩
      rcases mem_append.mp hrevision with hbefore | hnew
      · exact hbound revision hbefore
      · obtain rfl := mem_singleton.mp hnew
        exact happended.sourceAsOf ▸ hcollected
    · rw [hown, pairwise_append]
      refine ⟨(hledger item.key).numbers, pairwise_singleton _ _, ?_⟩
      intro revision hrevision other hother
      obtain rfl := mem_singleton.mp hother
      exact hlater revision hrevision

theorem agrees_iff {current : CandleRevision} (hrow : db.sourceCandles key = some row)
    (hcurrent : currentRevision db key = some current) :
    RowAgrees db key ↔ current.values = row.values := by
  constructor
  · intro h
    obtain ⟨found, hfound, hvalues⟩ := h row hrow
    rwa [Option.some.inj (hcurrent.symm.trans hfound)]
  · intro h found hfound
    obtain rfl := Option.some.inj (hrow.symm.trans hfound)
    exact ⟨current, hcurrent, h⟩

theorem records_iff {current : CandleRevision} (hrow : db.sourceCandles item.key = some row)
    (hcurrent : currentRevision db item.key = some current)
    (hlast : ∃ last, lastRevision db item.key = some last) :
    Records ar sha256 db item ↔
      if row.collectedAt ≤ item.collectedAt then
        ¬ ContentKnown ar sha256 db item ∨ current.values = item.values
      else
        ContentKnown ar sha256 db item ∨ item.collectedAt < current.sourceAsOf ∨
          item.values = row.values := by
  obtain ⟨last, hlast⟩ := hlast
  have hknown : ContentKnown ar sha256 db item ↔
      last.inputContentHash = sourceCandleContentHash ar sha256 item.values :=
    ⟨fun ⟨found, hfound, h⟩ => Option.some.inj (hlast.symm.trans hfound) ▸ h,
      fun h => ⟨last, hlast, h⟩⟩
  rw [hknown]
  constructor
  · intro h
    exact h row last current hrow hlast hcurrent
  · intro h found foundLast foundCurrent hfound hfoundLast hfoundCurrent
    obtain rfl := Option.some.inj (hrow.symm.trans hfound)
    obtain rfl := Option.some.inj (hlast.symm.trans hfoundLast)
    obtain rfl := Option.some.inj (hcurrent.symm.trans hfoundCurrent)
    exact h

/-- Where the row of a candle agrees with its current revision, it agrees after a round exactly
when the candle of the round does not part them. -/
theorem upsertSourceCandle_agrees (hledger : Ledgered db item.key)
    (hagrees : RowAgrees db item.key) :
    RowAgrees (upsertSourceCandle ar sha256 db (some market) item).2 item.key ↔
      Records ar sha256 db item := by
  have hcases := @upsertSourceCandle_cases ar sha256 db item market hledger
  dsimp only at hcases
  generalize (upsertSourceCandle ar sha256 db (some market) item).2 = after at hcases
  have hread : currentRevision (insertSourceCandle db (some market) item) item.key =
      currentRevision db item.key := by
    unfold currentRevision
    rw [revisionsOf_insertSourceCandle]
  cases hbefore : db.sourceCandles item.key with
  | none =>
    have hempty := hledger.unstored hbefore
    have hrecords : Records ar sha256 db item :=
      fun row _ _ hrow => by rw [hbefore] at hrow; cases hrow
    have htimely : ¬ Late db item := fun ⟨row, hrow, _⟩ => by rw [hbefore] at hrow; cases hrow
    have hnone : currentRevision db item.key = none := maxBy_eq_none.mpr hempty
    rcases hcases with ⟨⟨last, hlast, -⟩, -⟩ | ⟨-, new, happended⟩
    · rw [lastRevision, hempty] at hlast
      cases hlast
    · have hcurrent := happended.current
      rw [hread, hnone, Option.elim_none] at hcurrent
      have hrow := congrFun happended.sourceCandles item.key
      rw [insertSourceCandle_row _ htimely] at hrow
      exact iff_of_true ((agrees_iff hrow hcurrent).mpr happended.values) hrecords
  | some row =>
    obtain ⟨-, hne, hbound⟩ := hledger.stored row hbefore
    obtain ⟨last, hlast⟩ := Option.ne_none_iff_exists'.mp
      (mt maxBy_eq_none.mp hne : lastRevision db item.key ≠ none)
    obtain ⟨current, hcurrent, hvalues⟩ := hagrees row hbefore
    have hasOf := hbound current (maxBy_spec hcurrent).1
    rw [records_iff hbefore hcurrent ⟨last, hlast⟩]
    by_cases htimely : row.collectedAt ≤ item.collectedAt
    · have hnotLate : ¬ Late db item := by
        rintro ⟨found, hfound, hlt⟩
        obtain rfl := Option.some.inj (hbefore.symm.trans hfound)
        exact absurd htimely (not_le.mpr hlt)
      have hrow := insertSourceCandle_row (some market) hnotLate
      rw [if_pos htimely]
      rcases hcases with ⟨hknown, hsame⟩ | ⟨hnew, new, happended⟩
      · subst hsame
        rw [agrees_iff hrow (hread.trans hcurrent)]
        exact ⟨Or.inr, fun h => h.resolve_left fun hnot => hnot hknown⟩
      · have hafter := happended.current
        rw [hread, hcurrent, Option.elim_some, if_pos (hasOf.trans htimely)] at hafter
        rw [← happended.sourceCandles] at hrow
        exact iff_of_true ((agrees_iff hrow hafter).mpr happended.values) (Or.inl hnew)
    · have hlate : Late db item := ⟨row, hbefore, not_le.mp htimely⟩
      rw [if_neg htimely]
      rcases hcases with ⟨hknown, hsame⟩ | ⟨hnew, new, happended⟩
      · subst hsame
        rw [insertSourceCandle_late _ hlate]
        exact iff_of_true hagrees (Or.inl hknown)
      · have hafter := happended.current
        rw [hread, hcurrent, Option.elim_some] at hafter
        have hrow := congrFun happended.sourceCandles item.key
        rw [insertSourceCandle_late _ hlate, hbefore] at hrow
        rw [agrees_iff hrow hafter]
        by_cases hreplaced : current.sourceAsOf ≤ item.collectedAt
        · rw [if_pos hreplaced, happended.values]
          exact ⟨fun h => Or.inr (Or.inr h), fun h =>
            (h.resolve_left hnew).resolve_left (not_lt.mpr hreplaced)⟩
        · rw [if_neg hreplaced]
          exact iff_of_true hvalues (Or.inr (Or.inl (not_le.mp hreplaced)))

/-! ## Runs -/

/-- Every candle of a call has a market. -/
def Marketed (call : UpsertCall) : Prop := ∀ item ∈ call.candles, call.market item ≠ none

variable (ar sha256)

/-- Every round of a loop records its candle. -/
def LoopRecords (call : UpsertCall) (db : CandleDatabase) : List InstrumentCandle → Prop
  | [] => True
  | item :: items => Records ar sha256 db item ∧
    LoopRecords call (upsertSourceCandle ar sha256 db (call.market item) item).2 items

/-- Every call of a sequence records its candles. -/
def RunRecords (db : CandleDatabase) : List UpsertCall → Prop
  | [] => True
  | call :: calls => LoopRecords ar sha256 call db call.candles ∧
    RunRecords (upsertCandles ar sha256 db call).2 calls

variable {ar sha256}

/-- Filling in a market changes nothing where every row has one. -/
theorem fillMarket_ledgered (hledger : ∀ key, Ledgered db key) (marketId : Option ℤ)
    (key : CandleKey) : fillMarket db marketId key = db := by
  have hsame : (db.sourceCandles key).map (fun row : SourceCandleRow =>
      { row with marketId := row.marketId <|> marketId }) = db.sourceCandles key := by
    cases hrow : db.sourceCandles key with
    | none => rfl
    | some row =>
      obtain ⟨market, hmarket⟩ := Option.ne_none_iff_exists'.mp ((hledger key).stored row hrow).1
      cases row
      simp_all
  unfold fillMarket
  rw [hsame, Function.update_eq_self]

theorem upsertLoop_ledgered {items : List InstrumentCandle}
    (hmarket : ∀ item ∈ items, call.market item ≠ none) (hledger : ∀ key, Ledgered db key)
    (key : CandleKey) : Ledgered (upsertLoop ar sha256 call db items).2 key := by
  induction items generalizing db with
  | nil => exact hledger key
  | cons item items ih =>
    obtain ⟨market, hitem⟩ := Option.ne_none_iff_exists'.mp (hmarket item mem_cons_self)
    refine ih (fun other hother => hmarket other (mem_cons_of_mem _ hother)) ?_
    rw [hitem]
    exact upsertSourceCandle_ledgered hledger

theorem upsertLoop_agrees {items : List InstrumentCandle}
    (hmarket : ∀ item ∈ items, call.market item ≠ none) (hledger : ∀ key, Ledgered db key)
    (hagrees : ∀ key, RowAgrees db key) (hrecords : LoopRecords ar sha256 call db items)
    (key : CandleKey) : RowAgrees (upsertLoop ar sha256 call db items).2 key := by
  induction items generalizing db with
  | nil => exact hagrees key
  | cons item items ih =>
    obtain ⟨market, hitem⟩ := Option.ne_none_iff_exists'.mp (hmarket item mem_cons_self)
    obtain ⟨hrecord, hrest⟩ := hrecords
    rw [hitem] at hrest
    show RowAgrees (upsertLoop ar sha256 call
      (upsertSourceCandle ar sha256 db (call.market item) item).2 items).2 key
    rw [hitem]
    refine ih (fun other hother => hmarket other (mem_cons_of_mem _ hother))
      (upsertSourceCandle_ledgered hledger) (fun other => ?_) hrest
    by_cases hother : other = item.key
    · subst hother
      exact (upsertSourceCandle_agrees (hledger _) (hagrees _)).mpr hrecord
    · obtain ⟨hrow, hrevisions⟩ := @upsertSourceCandle_other ar sha256 db item market other
        (hledger item.key) hother
      intro row hfound
      rw [currentRevision, hrevisions]
      exact hagrees other row (hrow ▸ hfound)

/-- A call is its loop where every row has a market. -/
theorem upsertCandles_eq (hmarket : Marketed call) (hledger : ∀ key, Ledgered db key) :
    (upsertCandles ar sha256 db call).2 = (upsertLoop ar sha256 call db call.candles).2 := by
  have hafter := @upsertLoop_ledgered ar sha256 db call call.candles hmarket hledger
  unfold upsertCandles
  generalize upsertLoop ar sha256 call db call.candles = result at hafter
  show call.candles.foldl (fun db item => fillMarket db (call.market item) item.key) result.2 =
    result.2
  induction call.candles with
  | nil => rfl
  | cons item items ih => rw [foldl_cons, fillMarket_ledgered hafter, ih]

theorem empty_ledgered (key : CandleKey) : Ledgered .empty key where
  unstored _ := rfl
  stored _ h := by cases h
  numbers := List.Pairwise.nil

theorem runRecords_agrees {calls before : List UpsertCall} (hbefore : before <+: calls)
    (hmarket : ∀ call ∈ calls, Marketed call) (hledger : ∀ key, Ledgered db key)
    (hagrees : ∀ key, RowAgrees db key) (hrecords : RunRecords ar sha256 db calls) :
    ∀ key, RowAgrees (afterCalls ar sha256 db before) key := by
  induction before generalizing db calls with
  | nil => exact hagrees
  | cons call before ih =>
    obtain ⟨rest, rfl⟩ := hbefore
    have hcall := hmarket call mem_cons_self
    have hafter : ∀ key, Ledgered (upsertCandles ar sha256 db call).2 key := by
      rw [upsertCandles_eq hcall hledger]
      exact upsertLoop_ledgered hcall hledger
    refine ih (prefix_append before rest)
      (fun other hother => hmarket other (mem_cons_of_mem _ hother)) hafter ?_ hrecords.2
    dsimp only
    rw [upsertCandles_eq hcall hledger]
    exact upsertLoop_agrees hcall hledger hagrees hrecords.1

/-- The first call of a run of single candles after which a row disagrees is the first one that
does not record its candle. -/
theorem agrees_runRecords {calls : List UpsertCall} (hmarket : ∀ call ∈ calls, Marketed call)
    (hsingle : ∀ call ∈ calls, ∃ item, call.candles = [item]) (hledger : ∀ key, Ledgered db key)
    (hagrees : ∀ before, before <+: calls → ∀ key, RowAgrees (afterCalls ar sha256 db before) key) :
    RunRecords ar sha256 db calls := by
  induction calls generalizing db with
  | nil => trivial
  | cons call calls ih =>
    have hcall := hmarket call mem_cons_self
    obtain ⟨item, hitem⟩ := hsingle call mem_cons_self
    have hafter := @upsertCandles_eq ar sha256 db call hcall hledger
    refine ⟨?_, ih (fun other hother => hmarket other (mem_cons_of_mem _ hother))
      (fun other hother => hsingle other (mem_cons_of_mem _ hother)) ?_ ?_⟩
    · obtain ⟨market, hmarketItem⟩ := Option.ne_none_iff_exists'.mp
        (hcall item (hitem ▸ mem_singleton_self item))
      have hone := hagrees [call] (by simp) item.key
      rw [show afterCalls ar sha256 db [call] = (upsertCandles ar sha256 db call).2 from rfl,
        hafter, hitem] at hone
      have hround : (upsertLoop ar sha256 call db [item]).2 =
        (upsertSourceCandle ar sha256 db (call.market item) item).2 := rfl
      rw [hround, hmarketItem] at hone
      rw [hitem]
      have hfirst := hagrees [] nil_prefix item.key
      exact ⟨(upsertSourceCandle_agrees (hledger _) hfirst).mp hone, trivial⟩
    · rw [hafter]
      exact upsertLoop_ledgered hcall hledger
    · intro before hbefore
      exact hagrees (call :: before) ((prefix_cons_inj call).mpr hbefore)

end

/-- In every run of calls on instruments with a market whose candles are all recorded, every row
has the values of the current revision of its candle after every call. In a run of single candles
this is so only if every candle is recorded.
SOURCE: postgres_repository.py:5836-5897, 5962-6042 -/
theorem revisions_reproduce_candle (ar : Arithmetic) (sha256 : String → String)
    (calls : List UpsertCall) (hmarket : ∀ call ∈ calls, Marketed call) :
    (RunRecords ar sha256 .empty calls → ∀ before, before <+: calls →
      ∀ key, RowAgrees (afterCalls ar sha256 .empty before) key) ∧
    ((∀ call ∈ calls, ∃ item, call.candles = [item]) →
      (∀ before, before <+: calls → ∀ key, RowAgrees (afterCalls ar sha256 .empty before) key) →
      RunRecords ar sha256 .empty calls) :=
  ⟨fun hrecords _ hbefore => runRecords_agrees hbefore hmarket empty_ledgered
      (fun _ _ hrow => by cases hrow) hrecords,
    fun hsingle hagrees => agrees_runRecords hmarket hsingle empty_ledgered hagrees⟩

/-! ## A content that is fetched again -/

theorem hundred_in_calendar :
    (collected : ℕ) < maxOrdinal * dayMicroseconds := collected.isLt.trans (by decide)

/-- A call with one candle of a minute, at a price, collected some microseconds after the
beginning of the calendar. -/
def fetched : UpsertCall where
  candles := [{
    instrumentId := 1
    candle := {
      candleUnit := "1m"
      candleStartAt := ⟨0, UtcTime.zero_in_calendar⟩
      openPrice := price
      highPrice := price
      lowPrice := price
      closePrice := price
      tradeVolume := 1
      tradeAmount := price
      collectedAt := ⟨collected, hundred_in_calendar collected⟩ } }]
  marketId := fun _ _ => some 1

def fetchedKey : CandleKey := ⟨1, "1m", ⟨0, UtcTime.zero_in_calendar⟩⟩

theorem fetched_marketed : Marketed (fetched price collected) :=
  fun _ _ => Option.some_ne_none _

/-- The values of a fetched candle. -/
def fetchedValues : CandleValues := ⟨price, price, price, price, 1, price⟩

/-- The row and the current revision have these values. -/
def Shows (db : CandleDatabase) (row current : ℚ) : Bool :=
  (db.sourceCandles fetchedKey).any (fun found => found.values = fetchedValues row) &&
  (currentRevision db fetchedKey).any fun found => found.values = fetchedValues current

/-- The same content is fetched at 10 and at 20, and another one, collected at 15, is written
after that: it is the current revision, but not the row. -/
theorem refetched_overtaken :
    (∀ call ∈ [fetched 100 10, fetched 100 20, fetched 101 15], Marketed call) ∧
    ¬ RowAgrees (afterCalls .default id .empty [fetched 100 10, fetched 100 20, fetched 101 15])
      fetchedKey := by
  have hshows : Shows (afterCalls .default id .empty
      [fetched 100 10, fetched 100 20, fetched 101 15]) 100 101 = true := by decide +kernel
  refine ⟨by simp [fetched_marketed], fun hagrees => ?_⟩
  rw [Shows, Bool.and_eq_true, Option.any_eq_true, Option.any_eq_true] at hshows
  obtain ⟨⟨row, hrow, hrowValues⟩, current, hcurrent, hcurrentValues⟩ := hshows
  obtain ⟨found, hfound, hvalues⟩ := hagrees row hrow
  obtain rfl := Option.some.inj (hcurrent.symm.trans hfound)
  rw [of_decide_eq_true hrowValues, of_decide_eq_true hcurrentValues] at hvalues
  exact absurd hvalues (by decide +kernel)

/-- A corrected candle. -/
theorem revisions_reproduce_candle_corrected :
    RowAgrees (afterCalls .default id .empty [fetched 100 10, fetched 101 20]) fetchedKey := by
  have hmarket : ∀ call ∈ [fetched 100 10, fetched 101 20], Marketed call := by
    simp [fetched_marketed]
  refine (revisions_reproduce_candle .default id _ hmarket).1 ?_ _ (prefix_refl _) _
  let stored := afterCalls .default id .empty [fetched 100 10]
  have hcontent : (lastRevision stored fetchedKey).all (fun last => last.inputContentHash ≠
      sourceCandleContentHash .default id (fetchedValues 101)) = true := by decide +kernel
  have htimely : (stored.sourceCandles fetchedKey).all (fun row =>
      decide (row.collectedAt ≤ ⟨20, by decide⟩)) = true := by decide +kernel
  refine ⟨⟨?_, trivial⟩, ⟨fun row last _ hrow hlast _ => ?_, trivial⟩, trivial⟩
  · intro row _ _ hrow
    cases hrow
  · have hrowAt : row.collectedAt ≤ ⟨20, by decide⟩ :=
      of_decide_eq_true ((Option.all_eq_true _ _).mp htimely row hrow)
    exact (if_pos hrowAt).mpr
      (Or.inl (of_decide_eq_true ((Option.all_eq_true _ _).mp hcontent last hlast)))

end Goodmoneying.Analysis
