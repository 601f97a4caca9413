import Goodmoneying.Program.SourceFrames

/-!
# Rows and the receipts that they name

A row of `ticker_snapshots` or `source_candles` that names a receipt has the values of the frame of
that receipt (`ReceiptsHold`), in every run whose calls keep the receipts (`KeepsReceipts`): a call
without frames replaces no values that have a receipt by others, and of a batch of frames the latest
new one of each row replaces what is there.
-/

namespace Goodmoneying.Analysis.SourceFrames

open List Library Library.SourcedTable
open Program Program.SourceFrames
open CandleLedger (CandleKey InstrumentCandle)

variable {frames : List RealtimeSourceFrame} {db : SourceDatabase}
variable (receipts : IdentityTable ReceivedFrame.id)

/-- A ticker that came with a frame, and the receipt of the frame. -/
def TickerReceived (record : SourceRecord TickerKey TickerContent) : Prop :=
  ∃ row ∈ receipts.rows, row.tickerRecord = some record

/-- A candle that came with a frame, and the receipt of the frame. -/
def CandleReceived (record : SourceRecord CandleKey CandleContent) : Prop :=
  ∃ row ∈ receipts.rows, row.candleRecord = some record

/-- Every row that names a receipt has the values of the frame of that receipt. -/
structure ReceiptsHold (db : SourceDatabase) : Prop where
  tickers : db.tickerSnapshots.Sourced (TickerReceived db.sourceReceipts)
  candles : db.sourceCandles.Sourced (CandleReceived db.sourceReceipts)

theorem receiptsHold_empty : ReceiptsHold .empty :=
  ⟨fun _ _ _ hrow => (by cases hrow), fun _ _ _ hrow => (by cases hrow)⟩

/-- The frames whose receipts are new: not seen before, and not before in the batch. -/
def newFrames : List SourceReceipt → List RealtimeSourceFrame → List RealtimeSourceFrame
  | _, [] => []
  | seen, frame :: frames =>
    if seen.any frame.receipt.sameFrame then newFrames seen frames
    else frame :: newFrames (seen ++ [frame.receipt]) frames

/-- The receipts that are stored. -/
def storedReceipts : List SourceReceipt :=
  receipts.rows.map fun row => row.frame.receipt

/-- The row of a ticker and its values. -/
def tickerItem (frame : RealtimeSourceFrame) : Option (TickerKey × TickerContent) :=
  frame.ticker.map fun ticker => (ticker.key, ticker.content)

/-- The row of a candle and its values. -/
def candleItem (frame : RealtimeSourceFrame) : Option (CandleKey × CandleContent) :=
  frame.candle.map fun item => (item.key, candleContent item)

/-- The latest of the new frames for each row replaces what is there, or is there already. -/
def LatestWritten (db : SourceDatabase) (frames : List RealtimeSourceFrame) : Prop :=
  let new := newFrames (storedReceipts db.sourceReceipts) frames
  (∀ item, Latest Prod.fst (fun item => item.2.collectedAt) (new.filterMap tickerItem) item →
    Writes tickerReplaces db.tickerSnapshots item) ∧
  ∀ item, Latest Prod.fst (fun item => item.2.collectedAt) (new.filterMap candleItem) item →
    Writes candleReplaces db.sourceCandles item

/-- Values that have a receipt are not replaced by others. -/
def CandlesKept (db : SourceDatabase) (candles : List InstrumentCandle) : Prop :=
  ∀ item ∈ candles, KeepsSources candleReplaces db.sourceCandles (item.key, candleContent item)

def TickersKept (db : SourceDatabase) (tickers : List TickerSnapshot) : Prop :=
  ∀ ticker ∈ tickers, KeepsSources tickerReplaces db.tickerSnapshots (ticker.key, ticker.content)

def KeepsReceipts (db : SourceDatabase) : SourceCall → Prop
  | .recordRealtimeSourceFrames _ frames => LatestWritten db frames
  | .recordIncrementalCollection tickers candles => TickersKept db tickers ∧ CandlesKept db candles
  | .recordBackfillCandles _ _ candles => CandlesKept db candles

/-- What the receipts of a batch add. -/
structure ReceiptsAdded (before : IdentityTable ReceivedFrame.id)
    (frames : List RealtimeSourceFrame) (after : IdentityTable ReceivedFrame.id)
    (new : List ReceivedFrame) : Prop where
  kept : ∀ row ∈ before.rows, row ∈ after.rows
  stored : ∀ row ∈ new, row ∈ after.rows
  frames : new.map ReceivedFrame.frame = newFrames (storedReceipts before) frames

/-- What inserting the receipts of a batch adds. -/
theorem insertReceipts_added {markets : List ℤ} {before after : IdentityTable ReceivedFrame.id}
    {new : List ReceivedFrame} (h : insertReceipts markets before frames = .ok (after, new)) :
    ReceiptsAdded before frames after new := by
  induction frames generalizing before after new with
  | nil =>
    obtain ⟨rfl, rfl⟩ := Prod.mk.inj (Except.ok.inj h)
    exact ⟨fun _ hrow => hrow, by simp, rfl⟩
  | cons frame frames ih =>
    obtain ⟨⟨receipts, row⟩, hinsert, h⟩ := bind_eq_ok.mp h
    obtain ⟨⟨receipts', rows⟩, hrest, h⟩ := bind_eq_ok.mp h
    obtain ⟨rfl, rfl⟩ := Prod.mk.inj (pure_eq_ok.mp h)
    have ih := ih hrest
    unfold insertReceipt at hinsert
    split_ifs at hinsert with hmarket
    have hseen : (storedReceipts before).any frame.receipt.sameFrame =
        (before.rows.find? fun row => frame.receipt.sameFrame row.frame.receipt).isSome := by
      unfold storedReceipts
      rw [any_map, isSome_find?]
      rfl
    split at hinsert
    · rename_i hfind
      obtain ⟨rfl, rfl⟩ := Prod.mk.inj (Except.ok.inj hinsert)
      refine ⟨fun old hold => ih.kept old ?_, fun added hadded => ?_, ?_⟩
      · exact mem_append_left _ hold
      · rcases mem_cons.mp hadded with rfl | hadded
        · exact ih.kept _ (mem_append_right _ mem_cons_self)
        · exact ih.stored added hadded
      · rw [newFrames, hseen, hfind]
        have hstored : storedReceipts
            (before.insert (fun id => ⟨id, frame⟩) (newReceipt_id frame)) =
            storedReceipts before ++ [frame.receipt] := by
          unfold storedReceipts
          rw [IdentityTable.insert_rows, map_append, map_singleton]
        have hframes := ih.frames
        rw [hstored] at hframes
        simp [hframes]
    · rename_i existing hfind
      split_ifs at hinsert with hagrees
      obtain ⟨rfl, rfl⟩ := Prod.mk.inj (Except.ok.inj hinsert)
      refine ⟨ih.kept, ih.stored, ?_⟩
      rw [newFrames, hseen, hfind]
      exact ih.frames

/-- The records of new receipts are those of the new frames. -/
theorem records_items {rows : List ReceivedFrame}
    (hframes : rows.map ReceivedFrame.frame = frames) :
    (rows.filterMap ReceivedFrame.tickerRecord).map SourceRecord.item =
        frames.filterMap tickerItem ∧
      (rows.filterMap ReceivedFrame.candleRecord).map SourceRecord.item =
        frames.filterMap candleItem := by
  subst hframes
  rw [map_filterMap, map_filterMap, filterMap_map, filterMap_map]
  constructor
  · refine filterMap_congr fun row _ => ?_
    exact Option.map_map _ _ _
  · refine filterMap_congr fun row _ => ?_
    exact Option.map_map _ _ _

/-- A batch of records, where each is of a receipt and the latest is written. -/
theorem sourced_record {κ α τ : Type} [DecidableEq κ] [LinearOrder τ] {replaces : α → α → Bool}
    {time : α → τ} {table : SourcedTable κ α} {holds : SourceRecord κ α → Prop}
    {records : List (SourceRecord κ α)} (h : table.Sourced holds)
    (hholds : ∀ record ∈ records, holds record)
    (hwrites : ∀ item, Latest Prod.fst (fun item => time item.2) (records.map SourceRecord.item)
      item → Writes replaces table item) :
    (table.record replaces (latestOf SourceRecord.key (fun record => time record.content)
      records)).Sourced holds := by
  have hentries : LatestEntries SourceRecord.key (fun record => time record.content) records
      (latestOf SourceRecord.key (fun record => time record.content) records) :=
    latestOf_entries records
  refine h.record hentries.nodup (fun record hrecord => ?_) fun record hrecord => ?_
  · exact hholds record (hentries.latest record hrecord).mem
  · exact hwrites record.item (Latest.map (f := SourceRecord.item) (hentries.latest record hrecord))

/-- A batch of frames keeps the receipts right, if it overwrites no newer content. -/
theorem receiptsHold_recordRealtimeSourceFrames {context : FrameContext} {db' : SourceDatabase}
    (h : ReceiptsHold db) (hlatest : LatestWritten db frames)
    (hrun : recordRealtimeSourceFrames context db frames = .ok db') : ReceiptsHold db' := by
  unfold recordRealtimeSourceFrames at hrun
  split_ifs at hrun with hsession
  obtain ⟨⟨receipts, rows⟩, hinsert, hrun⟩ := bind_eq_ok.mp hrun
  obtain rfl := pure_eq_ok.mp hrun
  have hadded := insertReceipts_added hinsert
  obtain ⟨htickers, hcandles⟩ := records_items hadded.frames
  constructor
  · have hkept : db.tickerSnapshots.Sourced (TickerReceived receipts) := by
      refine h.tickers.mono fun record hrecord => ?_
      obtain ⟨row, hrow, hsame⟩ := hrecord
      exact ⟨row, hadded.kept row hrow, hsame⟩
    refine sourced_record hkept (fun record hrecord => ?_) fun item hitem => ?_
    · obtain ⟨row, hrow, hsame⟩ := mem_filterMap.mp hrecord
      exact ⟨row, hadded.stored row hrow, hsame⟩
    · rw [htickers] at hitem
      exact hlatest.1 item hitem
  · have hkept : db.sourceCandles.Sourced (CandleReceived receipts) := by
      refine h.candles.mono fun record hrecord => ?_
      obtain ⟨row, hrow, hsame⟩ := hrecord
      exact ⟨row, hadded.kept row hrow, hsame⟩
    refine sourced_record hkept (fun record hrecord => ?_) fun item hitem => ?_
    · obtain ⟨row, hrow, hsame⟩ := mem_filterMap.mp hrecord
      exact ⟨row, hadded.stored row hrow, hsame⟩
    · rw [hcandles] at hitem
      exact hlatest.2 item hitem

theorem sourced_upsertCandleRows {candles : List InstrumentCandle} (h : ReceiptsHold db)
    (hkept : CandlesKept db candles) :
    (upsertCandleRows db.sourceCandles candles).Sourced (CandleReceived db.sourceReceipts) := by
  refine h.candles.upsertAll fun item hitem => ?_
  obtain ⟨candle, hcandle, rfl⟩ := mem_map.mp hitem
  exact hkept candle hcandle

theorem sourced_upsertTickers {tickers : List TickerSnapshot} (h : ReceiptsHold db)
    (hkept : TickersKept db tickers) :
    (upsertTickers db.tickerSnapshots tickers).Sourced (TickerReceived db.sourceReceipts) := by
  refine h.tickers.upsertAll fun item hitem => ?_
  obtain ⟨ticker, hticker, rfl⟩ := mem_map.mp hitem
  exact hkept ticker hticker

theorem receiptsHold_run {call : SourceCall} {db' : SourceDatabase} (h : ReceiptsHold db)
    (hkeeps : KeepsReceipts db call) (hrun : call.run db = .ok db') : ReceiptsHold db' := by
  cases call with
  | recordRealtimeSourceFrames context frames =>
    exact receiptsHold_recordRealtimeSourceFrames h hkeeps hrun
  | recordIncrementalCollection tickers candles =>
    obtain rfl := Except.ok.inj hrun
    exact ⟨sourced_upsertTickers h hkeeps.1, sourced_upsertCandleRows h hkeeps.2⟩
  | recordBackfillCandles lease instrumentId candles =>
    change SourceFrames.recordBackfillCandles lease db instrumentId candles = .ok db' at hrun
    unfold SourceFrames.recordBackfillCandles at hrun
    split_ifs at hrun with hinstrument
    cases lease with
    | error error => cases hrun
    | ok =>
      obtain rfl := Except.ok.inj hrun
      exact ⟨h.tickers, sourced_upsertCandleRows h hkeeps⟩

/-- One call that keeps the receipts, or raises. -/
def KeepingStep (db db' : SourceDatabase) : Prop :=
  ∃ call : SourceCall, db' = call.after db ∧ ((call.run db).isOk = true → KeepsReceipts db call)

theorem receiptsHold_after {call : SourceCall} (h : ReceiptsHold db)
    (hkeeps : (call.run db).isOk = true → KeepsReceipts db call) :
    ReceiptsHold (call.after db) := by
  unfold SourceCall.after
  cases hrun : call.run db with
  | error error => exact h
  | ok db' =>
    rw [hrun] at hkeeps
    exact receiptsHold_run h (hkeeps rfl) hrun

/-- Where every call keeps the receipts, each row that names one has the values of its frame.
SOURCE: postgres_repository.py:1105-1196, 1321-1384, 5609-5675, 5836-5897 -/
theorem sourceReceipts_hold {db : SourceDatabase}
    (h : Relation.ReflTransGen KeepingStep .empty db) : ReceiptsHold db := by
  induction h with
  | refl => exact receiptsHold_empty
  | tail _ hstep ih =>
    obtain ⟨call, rfl, hkeeps⟩ := hstep
    exact receiptsHold_after ih hkeeps

theorem hundred_in_calendar (n : Fin 100) : n.val < maxOrdinal * dayMicroseconds :=
  lt_trans n.isLt (by decide)

/-- A candle of a minute, at a price, collected some microseconds after the beginning of the
calendar. -/
def liveCandle (price : ℚ) (collected : Fin 100) : InstrumentCandle where
  instrumentId := 1
  candle := {
    candleUnit := "1m"
    candleStartAt := ⟨0, UtcTime.zero_in_calendar⟩
    openPrice := price
    highPrice := price
    lowPrice := price
    closePrice := price
    tradeVolume := 1
    tradeAmount := price
    collectedAt := ⟨collected, hundred_in_calendar collected⟩ }

/-- A frame with the candle. -/
def liveFrame (sequence : ℤ) (price : ℚ) (collected : Fin 100) : RealtimeSourceFrame where
  receipt := {
    dataType := "source_candle"
    instrumentId := 1
    connectionId := "a"
    frameSequence := sequence
    payloadChecksum := ""
    rawPayload := "\x7b\x7d" }
  candle := some (liveCandle price collected)

def liveCall (sequence : ℤ) (price : ℚ) (collected : Fin 100) : SourceCall :=
  .recordRealtimeSourceFrames ⟨[1], ["a"]⟩ [liveFrame sequence price collected]

def liveKey : CandleKey := ⟨1, "1m", ⟨0, UtcTime.zero_in_calendar⟩⟩

/-- What a database has of the candle: its receipt, and whether a receipt of that id came with the
values that are stored. -/
def sourceOf (db : SourceDatabase) : Option (Option ℤ × Bool) :=
  (db.sourceCandles liveKey).map fun row => (row.source, db.sourceReceipts.rows.any fun receipt =>
    receipt.candleRecord.any fun record =>
      record.key = liveKey && record.content = row.content && some record.source = row.source)

theorem sourceOf_of_receiptsHold (h : ReceiptsHold db) {receiptId : ℤ} {agrees : Bool}
    (hsource : sourceOf db = some (some receiptId, agrees)) : agrees = true := by
  obtain ⟨row, hrow, hpair⟩ := Option.map_eq_some_iff.mp hsource
  obtain ⟨hid, rfl⟩ := Prod.mk.inj hpair
  obtain ⟨receipt, hreceipt, hrecord⟩ := h.candles liveKey row receiptId hrow hid
  refine any_eq_true.mpr ⟨receipt, hreceipt, ?_⟩
  rw [hrecord]
  simp [hid]

/-- A candle comes with a frame and is fetched later with another price: the row names the frame
still. -/
theorem fetchedCandle_keepsReceipt : ¬ ∀ calls : List SourceCall,
    ReceiptsHold (afterSourceCalls .empty calls) := by
  intro h
  have hsource : sourceOf (afterSourceCalls .empty
      [liveCall 1 100 1, .recordBackfillCandles (.ok ()) 1 [liveCandle 101 2]]) =
      some (some 1, false) := by decide +kernel
  exact absurd (sourceOf_of_receiptsHold (h _) hsource) (by decide)

/-- A frame, and a newer one: the row has the values of the newer one and names it. -/
theorem sourceReceipts_hold_newerFrame :
    ReceiptsHold (afterSourceCalls .empty [liveCall 1 100 1, liveCall 2 101 2]) := by
  refine sourceReceipts_hold (.tail (.tail .refl ⟨liveCall 1 100 1, rfl, fun _ => ?_⟩)
    ⟨liveCall 2 101 2, rfl, fun _ => ?_⟩)
  · refine ⟨fun item hitem => ?_, fun item _ row hrow => ?_⟩
    · cases hitem.mem
    · cases hrow
  · refine ⟨fun item hitem => ?_, fun item hitem row hrow => ?_⟩
    · cases hitem.mem
    · obtain rfl := mem_singleton.mp hitem.mem
      obtain rfl := Option.some.inj hrow
      exact Or.inl (by decide +kernel)

end Goodmoneying.Analysis.SourceFrames
