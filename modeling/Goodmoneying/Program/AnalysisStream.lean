import Goodmoneying.Library.ListTransfer

/-!
# The live analysis stream

`send_snapshot` and the tick of `stream_coin_analysis` in `main.py`, and `applyAnalysisMessage` of
`analysisStream.ts`. The server remembers what it counts as sent (`StreamMemory`), the browser
keeps an `AnalysisState`. What is JSON beside the `startedAt` of an item is of type `β`; envelopes,
heartbeats and sequence numbers are not part of what the state of the browser is made of.
-/

namespace Goodmoneying.Program

open Library

/-- A candle, an indicator point or a microstructure point: `startedAt` and the other entries. -/
structure Stamped (β : Type) where
  startedAt : String
  fields : β
  deriving DecidableEq, Repr

/-- `market` of a snapshot. -/
structure AnalysisMarket (β : Type) where
  ticker : β
  orderbook : β
  tradeSummary : β
  deriving DecidableEq, Repr

/-- What `analysis_snapshot` returns. -/
structure AnalysisSnapshot (β : Type) where
  instrument : β
  unit : String
  candles : List (Stamped β)
  indicatorPoints : List (Stamped β)
  microstructurePoints : List (Stamped β)
  market : AnalysisMarket β
  deriving DecidableEq, Repr

/-- `AnalysisSubscriptionError`. -/
structure AnalysisSubscriptionError where
  code : String
  message : String
  deriving DecidableEq, Repr

/-- The messages of the stream. `revisionRefresh` is there in a tick only. -/
inductive AnalysisMessage (β : Type) where
  | session (subscriptionId : String)
  | instrument (instrument : β)
  | chart (unit : String) (chunkIndex chunkCount : ℕ) (candles : List (Stamped β))
  | indicators (chunkIndex chunkCount : ℕ) (revisionRefresh : Bool) (points : List (Stamped β))
  | indicatorUpsert (point : Stamped β)
  | microstructure (chunkIndex chunkCount : ℕ) (revisionRefresh : Bool) (points : List (Stamped β))
  | microstructureUpsert (point : Stamped β)
  | market (market : AnalysisMarket β)
  | candleUpsert (candle : Stamped β)
  | error (code message : String)
  deriving DecidableEq, Repr

variable {β : Type}

/-! ## The server -/

/-- What a connection remembers as sent. -/
structure StreamMemory (β : Type) where
  latestCandle : Option (Stamped β)
  latestIndicatorPoints : List (Stamped β)
  latestMicrostructurePoints : List (Stamped β)
  deriving DecidableEq, Repr

/-- `(len(items) + 499) // 500`, one at least. -/
def chunkCount (items : List (Stamped β)) : ℕ := sliceCount 500 items

/-- `items[chunk_index * 500 : (chunk_index + 1) * 500]` -/
def chunk (items : List (Stamped β)) (chunkIndex : ℕ) : List (Stamped β) :=
  slice 500 items chunkIndex

def chartMessages (unit : String) (candles : List (Stamped β)) : List (AnalysisMessage β) :=
  (List.range (chunkCount candles)).map fun i =>
    .chart unit i (chunkCount candles) (chunk candles i)

def indicatorMessages (revisionRefresh : Bool) (points : List (Stamped β)) :
    List (AnalysisMessage β) :=
  (List.range (chunkCount points)).map fun i =>
    .indicators i (chunkCount points) revisionRefresh (chunk points i)

def microstructureMessages (revisionRefresh : Bool) (points : List (Stamped β)) :
    List (AnalysisMessage β) :=
  (List.range (chunkCount points)).map fun i =>
    .microstructure i (chunkCount points) revisionRefresh (chunk points i)

/-- `remember_snapshot` -/
def rememberSnapshot (snapshot : AnalysisSnapshot β) : StreamMemory β where
  latestCandle := snapshot.candles.getLast?
  latestIndicatorPoints := snapshot.indicatorPoints
  latestMicrostructurePoints := snapshot.microstructurePoints

/-- `send_snapshot` -/
def sendSnapshot (subscriptionId : String) (memory : StreamMemory β) :
    Except AnalysisSubscriptionError (AnalysisSnapshot β) →
      StreamMemory β × List (AnalysisMessage β)
  | .error exc => (memory, [.error exc.code exc.message])
  | .ok snapshot =>
    (rememberSnapshot snapshot,
      [.session subscriptionId, .instrument snapshot.instrument] ++
      chartMessages snapshot.unit snapshot.candles ++
      indicatorMessages false snapshot.indicatorPoints ++
      microstructureMessages false snapshot.microstructurePoints ++
      [.market snapshot.market])

/-- The answers of `_classify_indicator_stream_update`. -/
inductive StreamUpdate where
  | none
  | upsert
  | cache
  | refresh
  deriving DecidableEq, Repr

variable [DecidableEq β]

/-- `_classify_indicator_stream_update` -/
def classifyIndicatorStreamUpdate (previous current : List (Stamped β))
    (latestCandle : Option (Stamped β)) : StreamUpdate :=
  if current = previous then .none
  else
    match current.getLast?, latestCandle with
    | some latestPoint, some latestCandle =>
      let appendedLatest : Bool :=
        current.length = previous.length + 1 ∧ current.dropLast = previous
      let replacedLatest : Bool :=
        current.length = previous.length ∧ current.dropLast = previous.dropLast
      if latestPoint.startedAt ≠ latestCandle.startedAt then
        if appendedLatest then .cache else .refresh
      else if appendedLatest ∨ replacedLatest then .upsert else .refresh
    | _, _ => .refresh

/-- `_classify_microstructure_stream_update` -/
def classifyMicrostructureStreamUpdate (previous current : List (Stamped β))
    (latestCandle : Option (Stamped β)) : StreamUpdate :=
  classifyIndicatorStreamUpdate previous current latestCandle

/-- The messages of a tick about one list of points, and what is remembered of it then. -/
def pointUpdate (update : StreamUpdate) (upsertMessage : Stamped β → AnalysisMessage β)
    (refreshMessages : List (Stamped β) → List (AnalysisMessage β))
    (previous current : List (Stamped β)) : List (Stamped β) × List (AnalysisMessage β) :=
  match update with
  | .none => (previous, [])
  | .upsert => (current, (current.getLast?.map upsertMessage).toList)
  | .cache => (current, [])
  | .refresh => (current, refreshMessages current)

/-- The message of a tick about the candles, and the candle remembered then. -/
def candleUpdate (latestCandle : Option (Stamped β)) (candles : List (Stamped β)) :
    Option (Stamped β) × List (AnalysisMessage β) :=
  match candles.getLast? with
  | some candle =>
    if some candle ≠ latestCandle then (some candle, [.candleUpsert candle])
    else (latestCandle, [])
  | none => (latestCandle, [])

/-- What follows a second without a message of the browser: nothing where the snapshot is
refused. -/
def tick (memory : StreamMemory β) :
    Except AnalysisSubscriptionError (AnalysisSnapshot β) →
      StreamMemory β × List (AnalysisMessage β)
  | .error _ => (memory, [])
  | .ok snapshot =>
    let candle := candleUpdate memory.latestCandle snapshot.candles
    let indicators := pointUpdate
      (classifyIndicatorStreamUpdate memory.latestIndicatorPoints snapshot.indicatorPoints
        snapshot.candles.getLast?)
      .indicatorUpsert (indicatorMessages true)
      memory.latestIndicatorPoints snapshot.indicatorPoints
    let microstructure := pointUpdate
      (classifyMicrostructureStreamUpdate memory.latestMicrostructurePoints
        snapshot.microstructurePoints snapshot.candles.getLast?)
      .microstructureUpsert (microstructureMessages true)
      memory.latestMicrostructurePoints snapshot.microstructurePoints
    (⟨candle.1, indicators.1, microstructure.1⟩,
      candle.2 ++ indicators.2 ++ microstructure.2 ++ [.market snapshot.market])

/-! ## The browser -/

/-- `AnalysisState` -/
structure AnalysisState (β : Type) where
  instrument : Option β
  candles : List (Stamped β)
  indicators : List (Stamped β)
  market : Option (AnalysisMarket β)
  error : Option String
  deriving DecidableEq, Repr

/-- `initialAnalysisState` -/
def initialAnalysisState : AnalysisState β := ⟨none, [], [], none, none⟩

/-- `upsertCandle` -/
def upsertCandle (candles : List (Stamped β)) (candle : Stamped β) : List (Stamped β) :=
  upsertBy Stamped.startedAt candles candle

/-- `upsertIndicator` -/
def upsertIndicator (indicators : List (Stamped β)) (point : Stamped β) : List (Stamped β) :=
  upsertBy Stamped.startedAt indicators point

/-- `applyAnalysisMessage`. Sessions and microstructure are left to others. -/
def applyAnalysisMessage (state : AnalysisState β) : AnalysisMessage β → AnalysisState β
  | .instrument instrument => { state with instrument := some instrument, error := none }
  | .chart _ chunkIndex _ candles =>
    { state with
      candles := if chunkIndex = 0 then candles else state.candles ++ candles
      indicators := if chunkIndex = 0 then [] else state.indicators
      error := none }
  | .indicators chunkIndex _ _ points =>
    { state with
      indicators := if chunkIndex = 0 then points else state.indicators ++ points
      error := none }
  | .market market => { state with market := some market, error := none }
  | .indicatorUpsert point => { state with indicators := upsertIndicator state.indicators point }
  | .candleUpsert candle => { state with candles := upsertCandle state.candles candle }
  | .error _ message => { state with error := some message }
  | .session _ => state
  | .microstructure _ _ _ _ => state
  | .microstructureUpsert _ => state

/-! ## Both -/

/-- Server and browser of one subscription. -/
structure AnalysisStream (β : Type) where
  memory : StreamMemory β
  state : AnalysisState β
  deriving DecidableEq, Repr

/-- What the server sends arrives in order and without loss. -/
def AnalysisStream.deliver (stream : AnalysisStream β)
    (sent : StreamMemory β × List (AnalysisMessage β)) : AnalysisStream β where
  memory := sent.1
  state := sent.2.foldl applyAnalysisMessage stream.state

/-- The stream after the tick number `n`: the subscription is answered with the first snapshot, a
tick with the next one. -/
def analysisStream (subscriptionId : String) (snapshots : ℕ → AnalysisSnapshot β)
    (start : AnalysisStream β) : ℕ → AnalysisStream β
  | 0 => start.deliver (sendSnapshot subscriptionId start.memory (.ok (snapshots 0)))
  | n + 1 =>
    let stream := analysisStream subscriptionId snapshots start n
    stream.deliver (tick stream.memory (.ok (snapshots (n + 1))))

end Goodmoneying.Program
