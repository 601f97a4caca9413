import Mathlib.Data.List.Nodup
import Goodmoneying.Library.ExceptRules
import Goodmoneying.Program.Values

/-!
# The tables of orders, fills and positions

Migrations `20260718000500_p5_portfolio_bot_risk.sql`, `20260718000700` and `20260718000800`
under `docs/contracts/db/migrations`: the rows that the functions of
`portfolio_bot_store.py` read and write, and the column and `CHECK` constraints an
insertion has to pass. A table looked up by its primary key, or by a unique pair of
columns, is a partial function of that key.
-/

namespace Goodmoneying.Program

open Library

/-! ## Exceptions -/

/-- What a store function raises: its own exceptions with their messages, and those of the
database, of the decimal context and of a mapping without a key. -/
inductive StoreError where
  | valueError (message : String)
  | leaseLost (message : String)
  | idempotencyConflict (message : String)
  | inputNotReady (message : String)
  | invalidSnapshot (message : String)
  | numericValueOutOfRange
  | checkViolation
  | uniqueViolation
  | exclusionViolation
  | divisionByZero
  | assertionError
  | keyError (key : String)
  deriving DecidableEq, Repr

/-- What a `NUMERIC(38,18)` column keeps of a value. -/
def Arithmetic.store (ar : Arithmetic) (value : ℚ) : Except StoreError ℚ :=
  match ar.column value with
  | some kept => .ok kept
  | none => .error .numericValueOutOfRange

@[simp] theorem exact_store (value : ℚ) : Arithmetic.exact.store value = .ok value := rfl

/-- A `CHECK` constraint. -/
def check (condition : Bool) : Except StoreError Unit :=
  if condition then .ok () else .error .checkViolation

/-- The range of an `INTEGER` column. -/
def integerColumn (value : ℤ) : Except StoreError ℤ :=
  if -2147483648 ≤ value ∧ value ≤ 2147483647 then .ok value else .error .numericValueOutOfRange

/-! ## Arguments -/

/-- `str.isspace` of one character. -/
def isSpace (c : Char) : Bool :=
  (9 ≤ c.toNat && c.toNat ≤ 13) || (28 ≤ c.toNat && c.toNat ≤ 32) || c.toNat = 133 ||
  c.toNat = 160 || c.toNat = 5760 || (8192 ≤ c.toNat && c.toNat ≤ 8202) ||
  c.toNat = 8232 || c.toNat = 8233 || c.toNat = 8239 || c.toNat = 8287 || c.toNat = 12288

/-- `str.strip`. -/
def strip (value : String) : String :=
  .ofList ((value.toList.dropWhile isSpace).reverse.dropWhile isSpace).reverse

/-- `_non_blank`. -/
def nonBlank (value field : String) : Except StoreError String :=
  if strip value = "" then .error (.valueError (field ++ "는 공백일 수 없다."))
  else .ok (strip value)

/-- `btrim(text) = ''`. -/
def blank (text : String) : Bool := text.toList.all fun c => c = ' '

/-- A text that `nonBlank` passes on is not blank. -/
theorem nonBlank_eq_ok {value field text : String} (h : nonBlank value field = .ok text) :
    text = strip value ∧ blank text = false := by
  unfold nonBlank at h
  split_ifs at h with hempty
  obtain rfl := Except.ok.inj h
  refine ⟨rfl, ?_⟩
  -- the last character of the stripped text is not a space
  let kept := (value.toList.dropWhile isSpace).reverse.dropWhile isSpace
  have hkept : kept ≠ [] := by
    intro hnil
    apply hempty
    have htext : strip value = .ofList kept.reverse := rfl
    rw [htext, hnil]
    rfl
  have hlast : isSpace (kept.head hkept) = false := List.head_dropWhile_not _ _
  have hmem : kept.head hkept ∈ (strip value).toList := by
    have htext : (strip value).toList = kept.reverse := by simp [strip, kept]
    rw [htext, List.mem_reverse]
    exact List.head_mem hkept
  have hspace : ¬ kept.head hkept = ' ' := by
    intro heq
    rw [heq] at hlast
    exact absurd hlast (by decide)
  rw [blank, List.all_eq_false]
  exact ⟨_, hmem, by simpa using hspace⟩

/-- `_side`. -/
def sideOf (value : String) : Except StoreError Side := do
  let side ← nonBlank value "side"
  if side = "buy" then pure .buy
  else if side = "sell" then pure .sell
  else throw (.valueError "side는 buy 또는 sell이어야 한다.")

/-- What `_positive_decimal` raises. -/
def notPositive (field : String) : StoreError := .valueError (field ++ "는 0보다 커야 한다.")

/-- What `_non_negative_decimal` raises. -/
def isNegative (field : String) : StoreError := .valueError (field ++ "는 0 이상이어야 한다.")

/-- `_positive_decimal`. -/
def positiveDecimal (value : ℚ) (field : String) : Except StoreError ℚ :=
  if value ≤ 0 then .error (notPositive field) else .ok value

/-! ## Orders and intents -/

/-- `order_intents.status`. -/
inductive IntentStatus where
  | created | riskRejected | approved | paperFilled | shadowObserved | outcomeUnknown
  | reconciled | cancelled | completed
  deriving DecidableEq, Repr

/-- `exchange_orders.status`. -/
inductive OrderStatus where
  | pendingSubmit | wait | watch | trade | partiallyFilled | done | cancel | prevented
  | rejected | outcomeUnknown | reconciled
  deriving DecidableEq, Repr

/-- `bot_instances.stage`. -/
inductive BotStage where
  | draft | backtest | paper | shadow | paused | stopped | faulted
  deriving DecidableEq, Repr

/-- `execution_mode` of bot instances and exchange orders. -/
inductive ExecutionMode where
  | paper | shadow | live
  deriving DecidableEq, Repr

/-- A row of `order_intents`. -/
structure OrderIntent where
  botInstanceId : ℤ
  instrumentId : ℤ
  side : Side
  requestedQuantity : Option ℚ
  requestedNotional : Option ℚ
  status : IntentStatus
  deriving DecidableEq, Repr

/-- A row of `bot_instances` with the portfolio of its definition. -/
structure BotInstance where
  portfolioId : ℤ
  stage : BotStage
  executionMode : ExecutionMode
  deriving DecidableEq, Repr

/-! ## Fills -/

/-- `order_fills.fill_source`. -/
inductive FillSource where
  | paperSimulator | shadowObservation | reconciliation
  deriving DecidableEq, Repr

/-- A row of `order_fills`. -/
structure OrderFill where
  id : ℤ
  exchangeOrderId : ℤ
  fillSequence : ℤ
  fillSource : FillSource
  side : Side
  filledQuantity : ℚ
  fillPrice : ℚ
  feePaid : ℚ
  occurredAt : Instant
  knowledgeAt : Instant
  evidence : List (String × CanonicalValue)

/-- The values of an `INSERT INTO order_fills`. -/
structure FillValues where
  exchangeOrderId : ℤ
  fillSequence : ℤ
  fillSource : FillSource
  side : Side
  filledQuantity : ℚ
  fillPrice : ℚ
  feePaid : ℚ
  occurredAt : Instant
  knowledgeAt : Instant
  evidence : List (String × CanonicalValue)

/-- The columns of `UNIQUE (exchange_order_id, fill_sequence)`. -/
def OrderFill.uniqueKey (row : OrderFill) : ℤ × ℤ := (row.exchangeOrderId, row.fillSequence)

/-- `order_fills` and the sequence of its ids. -/
structure FillTable where
  rows : List OrderFill
  nextId : ℤ
  unique : (rows.map OrderFill.uniqueKey).Nodup

/-- The fills of one exchange order. -/
def FillTable.ofOrder (table : FillTable) (exchangeOrderId : ℤ) : List OrderFill :=
  table.rows.filter fun row => row.exchangeOrderId = exchangeOrderId

/-- The row the columns of `order_fills` keep of the inserted values. -/
def FillValues.row (ar : Arithmetic) (values : FillValues) (id : ℤ) :
    Except StoreError OrderFill := do
  let row : OrderFill := {
    id := id
    exchangeOrderId := values.exchangeOrderId
    fillSequence := ← integerColumn values.fillSequence
    fillSource := values.fillSource
    side := values.side
    filledQuantity := ← ar.store values.filledQuantity
    fillPrice := ← ar.store values.fillPrice
    feePaid := ← ar.store values.feePaid
    occurredAt := values.occurredAt
    knowledgeAt := values.knowledgeAt
    evidence := values.evidence }
  check (1 ≤ row.fillSequence)
  check (0 < row.filledQuantity)
  check (0 < row.fillPrice)
  check (0 ≤ row.feePaid)
  check (row.occurredAt ≤ row.knowledgeAt)
  pure row

/-- A stored row has the facts of its values, with each number as its column keeps it. -/
theorem FillValues.row_eq_ok {ar : Arithmetic} {values : FillValues} {id : ℤ} {row : OrderFill}
    (h : values.row ar id = .ok row) : row.id = id ∧ row.exchangeOrderId = values.exchangeOrderId ∧
      row.fillSequence = values.fillSequence ∧ row.fillSource = values.fillSource ∧
      row.side = values.side ∧ ar.store values.filledQuantity = .ok row.filledQuantity ∧
      ar.store values.fillPrice = .ok row.fillPrice ∧
      ar.store values.feePaid = .ok row.feePaid := by
  unfold FillValues.row at h
  obtain ⟨sequence, hsequence, h⟩ := bind_eq_ok.mp h
  obtain ⟨quantity, hquantity, h⟩ := bind_eq_ok.mp h
  obtain ⟨price, hprice, h⟩ := bind_eq_ok.mp h
  obtain ⟨fee, hfee, h⟩ := bind_eq_ok.mp h
  obtain ⟨_, _, h⟩ := bind_eq_ok.mp h
  obtain ⟨_, _, h⟩ := bind_eq_ok.mp h
  obtain ⟨_, _, h⟩ := bind_eq_ok.mp h
  obtain ⟨_, _, h⟩ := bind_eq_ok.mp h
  obtain ⟨_, _, h⟩ := bind_eq_ok.mp h
  obtain rfl := pure_eq_ok.mp h
  have hkept : sequence = values.fillSequence := by
    unfold integerColumn at hsequence
    split_ifs at hsequence
    exact (Except.ok.inj hsequence).symm
  exact ⟨rfl, rfl, hkept, rfl, rfl, hquantity, hprice, hfee⟩

/-- `INSERT INTO order_fills … RETURNING id`. -/
def FillTable.insert (ar : Arithmetic) (table : FillTable) (values : FillValues) :
    Except StoreError (OrderFill × FillTable) := do
  let row ← values.row ar table.nextId
  if h : row.uniqueKey ∈ table.rows.map OrderFill.uniqueKey then
    throw .uniqueViolation
  else
    pure (row, {
      rows := table.rows ++ [row]
      nextId := table.nextId + 1
      unique := by
        rw [List.map_append, List.map_singleton]
        exact table.unique.append (List.nodup_singleton _) (by simpa using h) })

/-- An insertion appends its row, whose key was free. -/
theorem FillTable.insert_eq_ok {ar : Arithmetic} {table table' : FillTable}
    {values : FillValues} {row : OrderFill} (h : table.insert ar values = .ok (row, table')) :
    values.row ar table.nextId = .ok row ∧ table'.rows = table.rows ++ [row] ∧
      row.uniqueKey ∉ table.rows.map OrderFill.uniqueKey := by
  unfold FillTable.insert at h
  obtain ⟨inserted, hrow, h⟩ := bind_eq_ok.mp h
  split_ifs at h with hused
  obtain ⟨rfl, rfl⟩ := Prod.mk.inj (pure_eq_ok.mp h)
  exact ⟨hrow, rfl, hused⟩

/-! ## Exchange orders -/

/-- A row of `exchange_orders`. -/
structure ExchangeOrder where
  id : ℤ
  orderIntentId : ℤ
  executionMode : ExecutionMode
  simulatedOrderKey : String
  status : OrderStatus
  submittedAt : Option Instant
  reconciledAt : Option Instant
  rawPayload : List (String × CanonicalValue)

/-- The columns of `UNIQUE (order_intent_id, simulated_order_key)`. -/
def ExchangeOrder.uniqueKey (row : ExchangeOrder) : ℤ × String :=
  (row.orderIntentId, row.simulatedOrderKey)

/-- `exchange_orders` and the sequence of its ids. -/
structure OrderTable where
  rows : List ExchangeOrder
  nextId : ℤ
  unique : (rows.map ExchangeOrder.uniqueKey).Nodup

/-- `SELECT … FROM exchange_orders WHERE id=%s`. -/
def OrderTable.find (table : OrderTable) (id : ℤ) : Option ExchangeOrder :=
  table.rows.find? fun row => row.id = id

/-- `INSERT INTO exchange_orders … RETURNING id`, of a row given by its id. -/
def OrderTable.insert (table : OrderTable) (values : ℤ → ExchangeOrder) :
    Except StoreError (ExchangeOrder × OrderTable) :=
  let row := values table.nextId
  if h : row.uniqueKey ∈ table.rows.map ExchangeOrder.uniqueKey then
    .error .uniqueViolation
  else
    .ok (row, {
      rows := table.rows ++ [row]
      nextId := table.nextId + 1
      unique := by
        rw [List.map_append, List.map_singleton]
        exact table.unique.append (List.nodup_singleton _) (by simpa using h) })

/-- An insertion appends its row, under the next id. -/
theorem OrderTable.insert_eq_ok {table table' : OrderTable} {values : ℤ → ExchangeOrder}
    {row : ExchangeOrder} (h : table.insert values = .ok (row, table')) :
    row = values table.nextId ∧ table'.rows = table.rows ++ [row] ∧
      table'.nextId = table.nextId + 1 := by
  unfold OrderTable.insert at h
  dsimp only at h
  split_ifs at h
  obtain ⟨rfl, rfl⟩ := Prod.mk.inj (Except.ok.inj h)
  exact ⟨rfl, rfl, rfl⟩

/-- `UPDATE exchange_orders SET status=…, reconciled_at=… WHERE id=%s`. -/
def OrderTable.reconcile (table : OrderTable) (id : ℤ) (status : OrderStatus) (now : Instant) :
    OrderTable where
  rows := table.rows.map fun row =>
    if row.id = id then { row with status := status, reconciledAt := some now } else row
  nextId := table.nextId
  unique := by
    have hkeys : ∀ row : ExchangeOrder, ExchangeOrder.uniqueKey
        (if row.id = id then { row with status := status, reconciledAt := some now } else row) =
          row.uniqueKey := by
      intro row
      split_ifs <;> rfl
    simpa [Function.comp_def, hkeys] using table.unique

/-- `UPDATE order_intents SET status=… WHERE id=%s`. -/
def setIntentStatus (intents : ℤ → Option OrderIntent) (id : ℤ) (status : IntentStatus) :
    ℤ → Option OrderIntent := fun intent =>
  if intent = id then (intents intent).map fun row => { row with status := status }
  else intents intent

end Goodmoneying.Program
