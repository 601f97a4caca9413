import Goodmoneying.Program.PortfolioTables

/-!
# The position projection

`_upsert_position_projection` of `portfolio_bot_store.py`: the position of a portfolio in
an instrument, brought forward by one fill. The average entry price is the average cost of
the held quantity and `NULL` when nothing is held; a sale of more than is held is refused.
-/

namespace Goodmoneying.Program

/-- A row of `position_projections`, for its `(portfolio_id, instrument_id)`. -/
structure PositionProjection where
  quantity : ℚ
  averageEntryPrice : Option ℚ
  realizedPnl : ℚ
  sourceFillId : ℤ
  deriving DecidableEq, Repr

/-- `position_projections`, by `UNIQUE (portfolio_id, instrument_id)`. -/
abbrev PositionTable := ℤ → ℤ → Option PositionProjection

/-- The table with one row written. -/
def PositionTable.set (table : PositionTable) (portfolioId instrumentId : ℤ)
    (row : PositionProjection) : PositionTable := fun portfolio instrument =>
  if portfolio = portfolioId ∧ instrument = instrumentId then some row
  else table portfolio instrument

/-- `"보유 position 없는 매도 fill은 projection으로 반영할 수 없다."` -/
def sellWithoutPosition : StoreError :=
  .valueError "보유 position 없는 매도 fill은 projection으로 반영할 수 없다."

/-- `"보유 quantity를 초과한 매도 fill은 projection으로 반영할 수 없다."` -/
def sellExceedsQuantity : StoreError :=
  .valueError "보유 quantity를 초과한 매도 fill은 projection으로 반영할 수 없다."

/-- The row the columns of `position_projections` keep. -/
def positionRow (ar : Arithmetic) (signedQuantity : ℚ) (averageEntryPrice : Option ℚ)
    (realizedPnl : ℚ) (sourceFillId : ℤ) : Except StoreError PositionProjection := do
  let quantity ← ar.store signedQuantity
  let average ← averageEntryPrice.mapM ar.store
  let realized ← ar.store realizedPnl
  check (average.all fun price => 0 ≤ price)
  pure {
    quantity := quantity
    averageEntryPrice := average
    realizedPnl := realized
    sourceFillId := sourceFillId }

/-- `_upsert_position_projection` on the current row, if any. -/
def upsertPositionProjection (ar : Arithmetic) (current : Option PositionProjection)
    (side : Side) (quantity price : ℚ) (sourceFillId : ℤ) :
    Except StoreError PositionProjection :=
  match current with
  | none =>
    match side with
    | .sell => .error sellWithoutPosition
    | .buy =>
      positionRow ar quantity (if quantity > 0 then some price else none) 0 sourceFillId
  | some row =>
    let previousAverage := row.averageEntryPrice.getD 0
    match side with
    | .buy =>
      let signedQuantity := ar.add row.quantity quantity
      let cost := ar.add (ar.mul row.quantity previousAverage) (ar.mul quantity price)
      positionRow ar signedQuantity
        (if signedQuantity > 0 then some (ar.div cost signedQuantity) else none)
        row.realizedPnl sourceFillId
    | .sell =>
      if quantity > row.quantity then .error sellExceedsQuantity
      else
        let signedQuantity := ar.sub row.quantity quantity
        positionRow ar signedQuantity
          (if signedQuantity > 0 then some previousAverage else none)
          (ar.add row.realizedPnl (ar.mul (ar.sub price previousAverage) quantity)) sourceFillId

/-- `_upsert_position_projection` on the table. -/
def PositionTable.upsert (ar : Arithmetic) (table : PositionTable)
    (portfolioId instrumentId : ℤ) (side : Side) (quantity price : ℚ) (sourceFillId : ℤ) :
    Except StoreError PositionTable := do
  let row ← upsertPositionProjection ar (table portfolioId instrumentId) side quantity price
    sourceFillId
  pure (table.set portfolioId instrumentId row)

/-- Without rounding every row with a nonnegative average is stored. -/
theorem positionRow_exact {signedQuantity realizedPnl : ℚ} {averageEntryPrice : Option ℚ}
    {sourceFillId : ℤ} (h : ∀ price, averageEntryPrice = some price → 0 ≤ price) :
    positionRow .exact signedQuantity averageEntryPrice realizedPnl sourceFillId =
      .ok { quantity := signedQuantity
            averageEntryPrice := averageEntryPrice
            realizedPnl := realizedPnl
            sourceFillId := sourceFillId } := by
  cases averageEntryPrice with
  | none => rfl
  | some price =>
    have hprice := h price rfl
    simp [positionRow, check, hprice, bind, Except.bind, pure, Except.pure]

end Goodmoneying.Program
