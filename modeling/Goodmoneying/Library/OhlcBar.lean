import Mathlib.Algebra.BigOperators.Group.List.Basic
import Mathlib.Algebra.Group.WithOne.Defs
import Mathlib.Data.Finset.Lattice.Basic
import Mathlib.Order.MinMax

/-!
# Bars of consecutive trading intervals

A bar sums up an interval of trading: the first and the last price, the extreme prices, the
traded amounts, the latest of two optional times, and the inputs it is computed of. The bar
of an interval followed by another is `first * second`; the product is associative, so the
bar of a run of intervals does not depend on how the run is cut (`barOf_flatMap`).
-/

namespace Goodmoneying.Library

open List

/-- Prices and amounts in `ν`, times in `τ`, inputs named by `ι`. -/
@[ext]
structure OhlcBar (ν τ ι : Type) where
  open_ : ν
  high : ν
  low : ν
  close : ν
  volume : ν
  tradeAmount : ν
  sourceAsOf : Option τ
  knowledgeAt : Option τ
  inputs : Finset ι

/-- The later of two optional times. -/
def latest {τ : Type} [LinearOrder τ] : Option τ → Option τ → Option τ
  | none, time => time
  | some time, none => some time
  | some first, some second => some (max first second)

theorem latest_assoc {τ : Type} [LinearOrder τ] (a b c : Option τ) :
    latest (latest a b) c = latest a (latest b c) := by
  cases a <;> cases b <;> cases c <;> simp [latest, max_assoc]

/-- The latest of the times there are. -/
theorem foldl_latest {α τ : Type} [LinearOrder τ] (time : α → Option τ) (l : List α)
    (start : Option τ) :
    (l.map time).foldl latest start = latest start (l.filterMap time).max? := by
  induction l generalizing start with
  | nil => cases start <;> rfl
  | cons a l ih =>
    rw [map_cons, foldl_cons, ih, latest_assoc]
    cases ha : time a with
    | none => rw [filterMap_cons_none ha]; rfl
    | some t =>
      rw [filterMap_cons_some ha, List.max?_cons]
      cases (l.filterMap time).max? <;> rfl

namespace OhlcBar

variable {ν τ ι α β : Type} [LinearOrder ν] [AddSemigroup ν] [LinearOrder τ] [DecidableEq ι]

instance : Mul (OhlcBar ν τ ι) where
  mul first second :=
    { open_ := first.open_
      high := max first.high second.high
      low := min first.low second.low
      close := second.close
      volume := first.volume + second.volume
      tradeAmount := first.tradeAmount + second.tradeAmount
      sourceAsOf := latest first.sourceAsOf second.sourceAsOf
      knowledgeAt := latest first.knowledgeAt second.knowledgeAt
      inputs := first.inputs ∪ second.inputs }

instance : Semigroup (OhlcBar ν τ ι) where
  mul_assoc a b c := by
    ext1
    · rfl
    · exact max_assoc _ _ _
    · exact min_assoc _ _ _
    · rfl
    · exact add_assoc _ _ _
    · exact add_assoc _ _ _
    · exact latest_assoc _ _ _
    · exact latest_assoc _ _ _
    · exact Finset.union_assoc _ _ _

/-- The bar of a run of intervals, one after the other. -/
def fold (first : OhlcBar ν τ ι) (rest : List (OhlcBar ν τ ι)) : OhlcBar ν τ ι :=
  rest.foldl (· * ·) first

variable (first : OhlcBar ν τ ι) (rest : List (OhlcBar ν τ ι))

theorem fold_cons (second : OhlcBar ν τ ι) :
    fold first (second :: rest) = fold (first * second) rest := rfl

theorem fold_open : (fold first rest).open_ = first.open_ := by
  induction rest generalizing first with
  | nil => rfl
  | cons second rest ih => exact ih _

theorem fold_high : (fold first rest).high = (rest.map high).foldl max first.high := by
  induction rest generalizing first with
  | nil => rfl
  | cons second rest ih => exact ih _

theorem fold_low : (fold first rest).low = (rest.map low).foldl min first.low := by
  induction rest generalizing first with
  | nil => rfl
  | cons second rest ih => exact ih _

theorem fold_close : (fold first rest).close = (rest.getLastD first).close := by
  induction rest generalizing first with
  | nil => rfl
  | cons second rest ih =>
    rw [fold_cons, ih, getLastD_cons]
    cases rest <;> rfl

theorem fold_volume : (fold first rest).volume = (rest.map volume).foldl (· + ·) first.volume := by
  induction rest generalizing first with
  | nil => rfl
  | cons second rest ih => exact ih _

theorem fold_tradeAmount :
    (fold first rest).tradeAmount = (rest.map tradeAmount).foldl (· + ·) first.tradeAmount := by
  induction rest generalizing first with
  | nil => rfl
  | cons second rest ih => exact ih _

theorem fold_sourceAsOf :
    (fold first rest).sourceAsOf = (rest.map sourceAsOf).foldl latest first.sourceAsOf := by
  induction rest generalizing first with
  | nil => rfl
  | cons second rest ih => exact ih _

theorem fold_knowledgeAt :
    (fold first rest).knowledgeAt = (rest.map knowledgeAt).foldl latest first.knowledgeAt := by
  induction rest generalizing first with
  | nil => rfl
  | cons second rest ih => exact ih _

theorem mem_fold_inputs {id : ι} :
    id ∈ (fold first rest).inputs ↔ ∃ bar ∈ first :: rest, id ∈ bar.inputs := by
  induction rest generalizing first with
  | nil => simp [fold]
  | cons second rest ih =>
    rw [fold_cons, ih]
    have hmul : (first * second).inputs = first.inputs ∪ second.inputs := rfl
    simp [hmul, or_assoc]

/-- The bar of a run, if the run is not empty. -/
def barOf (bars : List (OhlcBar ν τ ι)) : WithOne (OhlcBar ν τ ι) :=
  (bars.map (↑)).prod

theorem barOf_cons : barOf (first :: rest) = ↑(fold first rest) := by
  induction rest generalizing first with
  | nil => simp [barOf, fold]
  | cons second rest ih =>
    have hrest := ih (first * second)
    rw [barOf, map_cons, prod_cons, WithOne.coe_mul, mul_assoc] at hrest
    rw [barOf, map_cons, map_cons, prod_cons, prod_cons]
    exact hrest

/-- The bar of bars of runs is the bar of the runs, one after the other. -/
theorem barOf_flatMap {runs : List α} {run : α → List β} {bar : β → OhlcBar ν τ ι} :
    (runs.map fun a => barOf ((run a).map bar)).prod = barOf ((runs.flatMap run).map bar) := by
  rw [barOf, map_flatMap, map_flatMap, flatMap_def, prod_flatten, map_map]
  rfl

end OhlcBar

end Goodmoneying.Library
