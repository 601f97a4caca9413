import Goodmoneying.Program.BacktestEngine
import Goodmoneying.Program.PortfolioTables

/-!
# Storing a backtest

`_insert_trades` and `_insert_equity_points` of `backtest_store.py`, into the tables of
migration `20260718000200_p4_backtest_runs.sql`: the numeric columns keep 18 decimals, the
`CHECK` constraints are evaluated on what they keep, and no two equity points of a run share
an `occurred_at`. The run's own id is new, so the rows of the run are all there is.
-/

namespace Goodmoneying.Program

/-- A row of `backtest_trades`. -/
structure BacktestTradeRow where
  tradeSequence : ℤ
  side : Side
  requestedQuantity : ℚ
  filledQuantity : ℚ
  remainingQuantity : ℚ
  fillPrice : ℚ
  feePaid : ℚ
  status : BacktestTradeStatus
  occurredAt : Instant
  knowledgeAt : Instant
  deriving DecidableEq, Repr

/-- The `CHECK` constraints of `backtest_trades`. -/
structure BacktestTradeRow.Checks (row : BacktestTradeRow) : Prop where
  requested_nonneg : 0 ≤ row.requestedQuantity
  filled_nonneg : 0 ≤ row.filledQuantity
  remaining_nonneg : 0 ≤ row.remainingQuantity
  price_nonneg : 0 ≤ row.fillPrice
  fee_nonneg : 0 ≤ row.feePaid
  split : row.filledQuantity + row.remainingQuantity = row.requestedQuantity
  known_after : row.occurredAt ≤ row.knowledgeAt

instance (row : BacktestTradeRow) : Decidable row.Checks :=
  decidable_of_iff
    (0 ≤ row.requestedQuantity ∧ 0 ≤ row.filledQuantity ∧ 0 ≤ row.remainingQuantity ∧
      0 ≤ row.fillPrice ∧ 0 ≤ row.feePaid ∧
      row.filledQuantity + row.remainingQuantity = row.requestedQuantity ∧
      row.occurredAt ≤ row.knowledgeAt)
    ⟨fun ⟨h₁, h₂, h₃, h₄, h₅, h₆, h₇⟩ => ⟨h₁, h₂, h₃, h₄, h₅, h₆, h₇⟩,
      fun h => ⟨h.1, h.2, h.3, h.4, h.5, h.6, h.7⟩⟩

/-- One `INSERT INTO backtest_trades`. -/
def insertTrade (ar : Arithmetic) (tradeSequence : ℕ) (trade : BacktestTrade) :
    Except StoreError BacktestTradeRow := do
  let row : BacktestTradeRow := {
    tradeSequence := ← integerColumn tradeSequence
    side := trade.side
    requestedQuantity := ← ar.store trade.requestedQuantity
    filledQuantity := ← ar.store trade.filledQuantity
    remainingQuantity := ← ar.store trade.remainingQuantity
    fillPrice := ← ar.store trade.fillPrice
    feePaid := ← ar.store trade.feePaid
    status := trade.status
    occurredAt := trade.occurredAt
    knowledgeAt := trade.knowledgeAt }
  check row.Checks
  pure row

/-- `_insert_trades`: the rows of a run. -/
def insertTrades (ar : Arithmetic) (trades : List BacktestTrade) :
    Except StoreError (List BacktestTradeRow) :=
  (trades.zipIdx 1).mapM fun item => insertTrade ar item.2 item.1

/-- A row of `backtest_equity_points`. -/
structure BacktestEquityPointRow where
  pointSequence : ℤ
  occurredAt : Instant
  knowledgeAt : Instant
  cash : ℚ
  basePosition : ℚ
  equity : ℚ
  deriving DecidableEq, Repr

/-- One `INSERT INTO backtest_equity_points`, after the rows `rows` of the run. -/
def insertEquityPoint (ar : Arithmetic) (rows : List BacktestEquityPointRow)
    (pointSequence : ℕ) (point : BacktestEquityPoint) :
    Except StoreError BacktestEquityPointRow := do
  let row : BacktestEquityPointRow := {
    pointSequence := ← integerColumn pointSequence
    occurredAt := point.occurredAt
    knowledgeAt := point.knowledgeAt
    cash := ← ar.store point.cash
    basePosition := ← ar.store point.basePosition
    equity := ← ar.store point.equity }
  check (row.occurredAt ≤ row.knowledgeAt)
  if rows.any fun other => other.occurredAt = row.occurredAt then
    throw .uniqueViolation
  pure row

/-- `_insert_equity_points`: the rows of a run. -/
def insertEquityPoints (ar : Arithmetic) (points : List BacktestEquityPoint) :
    Except StoreError (List BacktestEquityPointRow) :=
  (points.zipIdx 1).foldlM
    (fun rows item => do
      let row ← insertEquityPoint ar rows item.2 item.1
      pure (rows ++ [row]))
    []

end Goodmoneying.Program
