import Mathlib.Data.List.Basic
import Mathlib.Order.Nat
import Goodmoneying.Program.AnalysisStream

/-!
# What the browser holds of the live analysis stream

A tick sends the last candle only, and an indicator point only where it is that of the last candle.
So the browser lacks the indicator points that the server counted as sent while they were late, and
of the candles it has those that were the last of a snapshot, or in the first one, and have not been
changed since.
-/

namespace Goodmoneying.Analysis

open List Library Program

variable {β : Type}
variable {latestCandle : Option (Stamped β)} {held : List (Stamped β)}

/-! ## What the messages do to the browser -/

/-- Chunks of candles make the list whole. -/
theorem candles_foldl_chartMessages (unit : String) (candles : List (Stamped β))
    (state : AnalysisState β) :
    ((chartMessages unit candles).foldl applyAnalysisMessage state).candles = candles := by
  have hfold : ∀ (indices : List ℕ) (state : AnalysisState β),
      ((indices.map fun i => AnalysisMessage.chart unit i (chunkCount candles)
        (chunk candles i)).foldl applyAnalysisMessage state).candles =
      indices.foldl (fun held i => if i = 0 then chunk candles i else held ++ chunk candles i)
        state.candles := by
    intro indices
    induction indices with
    | nil => intro state; rfl
    | cons i indices ih => intro state; exact ih _
  rw [chartMessages, hfold]
  exact foldl_sliceCount (by omega) candles state.candles

/-- Chunks of points make the list whole, and leave the candles. -/
theorem foldl_indicatorMessages (revisionRefresh : Bool) (points : List (Stamped β))
    (state : AnalysisState β) :
    ((indicatorMessages revisionRefresh points).foldl applyAnalysisMessage state).candles =
        state.candles ∧
      ((indicatorMessages revisionRefresh points).foldl applyAnalysisMessage state).indicators =
        points := by
  have hfold : ∀ (indices : List ℕ) (state : AnalysisState β),
      let received := (indices.map fun i => AnalysisMessage.indicators i (chunkCount points)
        revisionRefresh (chunk points i)).foldl applyAnalysisMessage state
      received.candles = state.candles ∧
      received.indicators =
        indices.foldl (fun held i => if i = 0 then chunk points i else held ++ chunk points i)
          state.indicators := by
    intro indices
    induction indices with
    | nil => intro state; exact ⟨rfl, rfl⟩
    | cons i indices ih => intro state; exact ih _
  have hpoints := hfold (List.range (chunkCount points)) state
  exact ⟨hpoints.1, hpoints.2.trans (foldl_sliceCount (by omega) points state.indicators)⟩

/-- Messages of the microstructure leave the state as it is. -/
theorem foldl_microstructure (messages : List (AnalysisMessage β))
    (hmessages : ∀ message ∈ messages, ∀ state : AnalysisState β,
      applyAnalysisMessage state message = state) (state : AnalysisState β) :
    messages.foldl applyAnalysisMessage state = state := by
  induction messages with
  | nil => rfl
  | cons message messages ih =>
    rw [foldl_cons, hmessages message (by simp) state]
    exact ih fun other hother => hmessages other (by simp [hother])

theorem apply_microstructureMessages (revisionRefresh : Bool) (points : List (Stamped β)) :
    ∀ message ∈ microstructureMessages revisionRefresh points, ∀ state : AnalysisState β,
      applyAnalysisMessage state message = state := by
  intro message hmessage state
  obtain ⟨i, -, rfl⟩ := mem_map.mp hmessage
  rfl

/-- The first snapshot arrives whole. -/
theorem deliver_sendSnapshot (subscriptionId : String) (memory : StreamMemory β)
    (snapshot : AnalysisSnapshot β) (stream : AnalysisStream β) :
    let received := stream.deliver (sendSnapshot subscriptionId memory (.ok snapshot))
    received.memory = rememberSnapshot snapshot ∧ received.state.candles = snapshot.candles ∧
      received.state.indicators = snapshot.indicatorPoints := by
  refine ⟨rfl, ?_⟩
  simp only [AnalysisStream.deliver, sendSnapshot, foldl_append, foldl_cons, foldl_nil]
  rw [foldl_microstructure _ (apply_microstructureMessages false snapshot.microstructurePoints)]
  have hpoints := foldl_indicatorMessages false snapshot.indicatorPoints
    ((chartMessages snapshot.unit snapshot.candles).foldl applyAnalysisMessage
      (applyAnalysisMessage (applyAnalysisMessage stream.state (.session subscriptionId))
        (.instrument snapshot.instrument)))
  exact ⟨hpoints.1.trans (candles_foldl_chartMessages ..), hpoints.2⟩

/-- What the browser holds of the indicators after a tick. -/
def receivedPoints (update : StreamUpdate) (points held : List (Stamped β)) : List (Stamped β) :=
  match update with
  | .none => held
  | .upsert => (points.getLast?.map (upsertIndicator held)).getD held
  | .cache => held
  | .refresh => points

theorem foldl_pointUpdate (update : StreamUpdate) (previous points : List (Stamped β))
    (state : AnalysisState β) :
    let received := (pointUpdate update .indicatorUpsert (indicatorMessages true) previous
      points).2.foldl applyAnalysisMessage state
    received.candles = state.candles ∧
      received.indicators = receivedPoints update points state.indicators := by
  cases update with
  | none => exact ⟨rfl, rfl⟩
  | cache => exact ⟨rfl, rfl⟩
  | refresh => exact foldl_indicatorMessages true points state
  | upsert =>
    unfold pointUpdate receivedPoints
    cases points.getLast? with
    | none => exact ⟨rfl, rfl⟩
    | some point => exact ⟨rfl, rfl⟩

theorem apply_microstructureUpdate (update : StreamUpdate) (previous points : List (Stamped β)) :
    ∀ message ∈ (pointUpdate update .microstructureUpsert (microstructureMessages true) previous
      points).2, ∀ state : AnalysisState β, applyAnalysisMessage state message = state := by
  cases update with
  | none => simp [pointUpdate]
  | cache => simp [pointUpdate]
  | refresh => exact apply_microstructureMessages true points
  | upsert =>
    intro message hmessage state
    obtain ⟨point, -, rfl⟩ : ∃ point, points.getLast? = some point ∧
        AnalysisMessage.microstructureUpsert point = message := by
      simpa [pointUpdate] using hmessage
    rfl

variable [DecidableEq β]

/-! ## What a tick decides -/

/-- What the answers of the classification say about the two lists. -/
theorem classifyIndicatorStreamUpdate_cases (previous current : List (Stamped β))
    (latestCandle : Option (Stamped β)) :
    match classifyIndicatorStreamUpdate previous current latestCandle with
    | .none => current = previous
    | .upsert =>
      (∃ point, current = previous ++ [point]) ∨
        ∃ points old point, previous = points ++ [old] ∧ current = points ++ [point]
    | .cache => ∃ point, current = previous ++ [point]
    | .refresh => True := by
  by_cases hsame : current = previous
  · simp [classifyIndicatorStreamUpdate, hsame]
  · rcases eq_nil_or_concat' current with rfl | ⟨points, point, rfl⟩
    · simp [classifyIndicatorStreamUpdate, hsame]
    · cases latestCandle with
      | none => simp [classifyIndicatorStreamUpdate, hsame]
      | some candle =>
        simp only [classifyIndicatorStreamUpdate, hsame, if_false, List.getLast?_append,
          List.getLast?_singleton, Option.some_or, dropLast_concat, decide_eq_true_eq]
        by_cases hstart : point.startedAt ≠ candle.startedAt
        · rw [if_pos hstart]
          split_ifs with happended
          · exact ⟨point, by rw [happended.2]⟩
          · trivial
        · rw [if_neg hstart]
          split_ifs with hupsert
          · rcases hupsert with happended | ⟨hlength, hpoints⟩
            · exact Or.inl ⟨point, by rw [happended.2]⟩
            · rcases eq_nil_or_concat' previous with rfl | ⟨before, old, rfl⟩
              · simp at hlength
              · rw [dropLast_concat] at hpoints
                exact Or.inr ⟨points, old, point, by rw [hpoints], rfl⟩
          · trivial

/-! ## What a tick does -/

/-- What the browser holds of the candles after a tick. -/
def receivedCandles (latestCandle : Option (Stamped β)) (candles held : List (Stamped β)) :
    List (Stamped β) :=
  match candles.getLast? with
  | some candle => if some candle ≠ latestCandle then upsertCandle held candle else held
  | none => held

theorem foldl_candleUpdate (latestCandle : Option (Stamped β)) (candles : List (Stamped β))
    (state : AnalysisState β) :
    (candleUpdate latestCandle candles).2.foldl applyAnalysisMessage state =
      { state with candles := receivedCandles latestCandle candles state.candles } := by
  unfold candleUpdate receivedCandles
  cases candles.getLast? with
  | none => rfl
  | some candle =>
    dsimp only
    split_ifs
    · rfl
    · rfl

/-- What is remembered of the points is the list of the snapshot, sent or not. -/
theorem pointUpdate_remembered (upsertMessage : Stamped β → AnalysisMessage β)
    (refreshMessages : List (Stamped β) → List (AnalysisMessage β))
    (previous current : List (Stamped β)) (latestCandle : Option (Stamped β)) :
    (pointUpdate (classifyIndicatorStreamUpdate previous current latestCandle) upsertMessage
      refreshMessages previous current).1 = current := by
  have hcases := classifyIndicatorStreamUpdate_cases previous current latestCandle
  cases hupdate : classifyIndicatorStreamUpdate previous current latestCandle with
  | none =>
    rw [hupdate] at hcases
    exact hcases.symm
  | upsert => rfl
  | cache => rfl
  | refresh => rfl

/-- A tick, as far as candles and indicators go. -/
theorem deliver_tick (snapshot : AnalysisSnapshot β) (stream : AnalysisStream β) :
    let update := classifyIndicatorStreamUpdate stream.memory.latestIndicatorPoints
      snapshot.indicatorPoints snapshot.candles.getLast?
    let received := stream.deliver (tick stream.memory (.ok snapshot))
    received.memory.latestCandle =
        (candleUpdate stream.memory.latestCandle snapshot.candles).1 ∧
      received.memory.latestIndicatorPoints = snapshot.indicatorPoints ∧
      received.state.candles = receivedCandles stream.memory.latestCandle snapshot.candles
        stream.state.candles ∧
      received.state.indicators =
        receivedPoints update snapshot.indicatorPoints stream.state.indicators := by
  intro update received
  refine ⟨rfl, pointUpdate_remembered _ _ _ _ _, ?_⟩
  have hpoints := foldl_pointUpdate update stream.memory.latestIndicatorPoints
    snapshot.indicatorPoints
    { stream.state with
      candles := receivedCandles stream.memory.latestCandle snapshot.candles
        stream.state.candles }
  have hmicrostructure := apply_microstructureUpdate
    (classifyMicrostructureStreamUpdate stream.memory.latestMicrostructurePoints
      snapshot.microstructurePoints snapshot.candles.getLast?)
    stream.memory.latestMicrostructurePoints snapshot.microstructurePoints
  simp only [received, AnalysisStream.deliver, tick, foldl_append, foldl_cons, foldl_nil]
  rw [foldl_microstructure _ hmicrostructure, foldl_candleUpdate]
  exact hpoints

/-! ## Indicators -/

/-- The starts that are withheld after an update: a late point is counted as sent, and is sent
when it is replaced as the last one, or with all others. -/
def withheldAfter (update : StreamUpdate) (points : List (Stamped β)) (withheld : List String) :
    List String :=
  match update with
  | .none => withheld
  | .upsert => withheld.filter fun start => points.getLast?.map Stamped.startedAt ≠ some start
  | .cache => (points.getLast?.map Stamped.startedAt).toList ++ withheld
  | .refresh => []

/-- The points that are not withheld. -/
def shownPoints (withheld : List String) (points : List (Stamped β)) : List (Stamped β) :=
  points.filter fun point => point.startedAt ∉ withheld

omit [DecidableEq β] in
theorem startedAt_notMem_of_nodup {points : List (Stamped β)} {point : Stamped β}
    (hstarts : ((points ++ [point]).map Stamped.startedAt).Nodup) :
    point.startedAt ∉ points.map Stamped.startedAt := by
  rw [map_append] at hstarts
  intro hmem
  exact (nodup_append.mp hstarts).2.2 _ hmem point.startedAt (by simp) rfl

omit [DecidableEq β] in
/-- A new last point that is withheld changes nothing of what is shown. -/
theorem shownPoints_cache (withheld : List String) (points : List (Stamped β)) (point : Stamped β)
    (hstart : point.startedAt ∉ points.map Stamped.startedAt) :
    shownPoints (withheldAfter .cache (points ++ [point]) withheld) (points ++ [point]) =
      shownPoints withheld points := by
  have hothers : ∀ other ∈ points, other.startedAt ≠ point.startedAt := fun other hother heq =>
    hstart (mem_map.mpr ⟨other, hother, heq⟩)
  simp only [shownPoints, withheldAfter, filter_append, List.getLast?_append,
    List.getLast?_singleton, Option.some_or, Option.map_some, Option.toList_some]
  have hlast : [point].filter (fun other => other.startedAt ∉ [point.startedAt] ++ withheld) = [] :=
    by simp
  rw [hlast, append_nil]
  refine filter_congr fun other hother => ?_
  simp [hothers other hother]

omit [DecidableEq β] in
/-- A last point that is sent is shown, after the others. -/
theorem shownPoints_upsert (withheld : List String) (points : List (Stamped β))
    (point : Stamped β) (hstart : point.startedAt ∉ points.map Stamped.startedAt) :
    shownPoints (withheldAfter .upsert (points ++ [point]) withheld) (points ++ [point]) =
      shownPoints withheld points ++ [point] := by
  have hothers : ∀ other ∈ points, point.startedAt ≠ other.startedAt := fun other hother heq =>
    hstart (mem_map.mpr ⟨other, hother, heq.symm⟩)
  simp only [shownPoints, withheldAfter, filter_append, List.getLast?_append,
    List.getLast?_singleton, Option.some_or, Option.map_some]
  congr 1
  · refine filter_congr fun other hother => ?_
    simp [hothers other hother]
  · simp

omit [DecidableEq β] in
/-- The browser puts a point of the last start, or of a new one, after what it shows of the
others. -/
theorem upsertIndicator_shownPoints (withheld : List String) (points last : List (Stamped β))
    (point : Stamped β) (hstart : point.startedAt ∉ points.map Stamped.startedAt)
    (hlast : last = [] ∨ ∃ old, last = [old] ∧ old.startedAt = point.startedAt) :
    upsertIndicator (shownPoints withheld (points ++ last)) point =
      shownPoints withheld points ++ [point] := by
  have hshown : point.startedAt ∉ (shownPoints withheld points).map Stamped.startedAt := by
    intro hmem
    obtain ⟨other, hother, heq⟩ := mem_map.mp hmem
    exact hstart (mem_map.mpr ⟨other, (mem_filter.mp hother).1, heq⟩)
  unfold upsertIndicator
  rcases hlast with rfl | ⟨old, rfl, hold⟩
  · rw [append_nil, upsertBy_of_notMem hshown]
  · rw [shownPoints, filter_append, filter_singleton]
    cases decide (old.startedAt ∉ withheld) with
    | true => exact upsertBy_concat hshown hold
    | false =>
      rw [cond_false, append_nil]
      exact upsertBy_of_notMem hshown

/-- What the browser shows after a tick, where the last point keeps its start when it is
replaced. -/
theorem receivedPoints_shownPoints {previous current : List (Stamped β)} {update : StreamUpdate}
    (hupdate : classifyIndicatorStreamUpdate previous current latestCandle = update)
    (hcurrent : (current.map Stamped.startedAt).Nodup) (hlast : update = .upsert → current.length =
      previous.length → current.getLast?.map Stamped.startedAt = previous.getLast?.map
      Stamped.startedAt) (withheld : List String) :
    receivedPoints update current (shownPoints withheld previous) =
      shownPoints (withheldAfter update current withheld) current := by
  have hcases := classifyIndicatorStreamUpdate_cases previous current latestCandle
  rw [hupdate] at hcases
  cases update with
  | none =>
    rw [show current = previous from hcases]
    rfl
  | cache =>
    obtain ⟨point, rfl⟩ := hcases
    rw [shownPoints_cache withheld previous point (startedAt_notMem_of_nodup hcurrent)]
    rfl
  | refresh => simp [receivedPoints, shownPoints, withheldAfter]
  | upsert =>
    obtain ⟨points, last, point, rfl, rfl, hold⟩ : ∃ points last point,
        previous = points ++ last ∧ current = points ++ [point] ∧
          (last = [] ∨ ∃ old, last = [old] ∧ old.startedAt = point.startedAt) := by
      rcases hcases with ⟨point, rfl⟩ | ⟨points, old, point, rfl, rfl⟩
      · exact ⟨previous, [], point, by simp, rfl, Or.inl rfl⟩
      · have hsame : point.startedAt = old.startedAt := by simpa using hlast rfl (by simp)
        exact ⟨points, [old], point, rfl, rfl, Or.inr ⟨old, rfl, hsame.symm⟩⟩
    have hstart := startedAt_notMem_of_nodup hcurrent
    rw [shownPoints_upsert withheld points point hstart]
    simp only [receivedPoints, List.getLast?_append, List.getLast?_singleton, Option.some_or,
      Option.map_some, Option.getD_some]
    exact upsertIndicator_shownPoints withheld points last point hstart hold

/-- How the tick number `n` sends the indicators; the first snapshot is sent whole. -/
def indicatorUpdate (snapshots : ℕ → AnalysisSnapshot β) : ℕ → StreamUpdate
  | 0 => .refresh
  | n + 1 =>
    classifyIndicatorStreamUpdate (snapshots n).indicatorPoints (snapshots (n + 1)).indicatorPoints
      (snapshots (n + 1)).candles.getLast?

/-- The starts of the points that the browser lacks after the tick number `n`. -/
def withheldStarts (snapshots : ℕ → AnalysisSnapshot β) : ℕ → List String
  | 0 => []
  | n + 1 =>
    withheldAfter (indicatorUpdate snapshots (n + 1)) (snapshots (n + 1)).indicatorPoints
      (withheldStarts snapshots n)

/-- In the tick after the tick number `n` the last point is not replaced by one of another start. -/
def KeepsLatestStart (snapshots : ℕ → AnalysisSnapshot β) (n : ℕ) : Prop :=
  indicatorUpdate snapshots (n + 1) = .upsert →
    (snapshots (n + 1)).indicatorPoints.length = (snapshots n).indicatorPoints.length →
    (snapshots (n + 1)).indicatorPoints.getLast?.map Stamped.startedAt =
      (snapshots n).indicatorPoints.getLast?.map Stamped.startedAt

section Run

variable (subscriptionId : String) (snapshots : ℕ → AnalysisSnapshot β) (start : AnalysisStream β)

theorem latestIndicatorPoints_analysisStream (n : ℕ) :
    (analysisStream subscriptionId snapshots start n).memory.latestIndicatorPoints =
      (snapshots n).indicatorPoints := by
  cases n with
  | zero => rfl
  | succ n => exact (deliver_tick (snapshots (n + 1)) _).2.1

theorem indicators_analysisStream_succ (n : ℕ) :
    (analysisStream subscriptionId snapshots start (n + 1)).state.indicators =
      receivedPoints (indicatorUpdate snapshots (n + 1)) (snapshots (n + 1)).indicatorPoints
        (analysisStream subscriptionId snapshots start n).state.indicators := by
  have htick := (deliver_tick (snapshots (n + 1))
    (analysisStream subscriptionId snapshots start n)).2.2.2
  rw [latestIndicatorPoints_analysisStream] at htick
  exact htick

/-- The browser holds all points after a full transfer. -/
theorem indicators_of_refresh {m : ℕ} (hrefresh : indicatorUpdate snapshots m = .refresh) :
    (analysisStream subscriptionId snapshots start m).state.indicators =
        shownPoints (withheldStarts snapshots m) (snapshots m).indicatorPoints := by
  cases m with
  | zero =>
    have hfirst := (deliver_sendSnapshot subscriptionId start.memory (snapshots 0) start).2.2
    simpa [analysisStream, shownPoints, withheldStarts] using hfirst
  | succ m =>
    rw [indicators_analysisStream_succ, withheldStarts, hrefresh]
    simp [receivedPoints, shownPoints, withheldAfter]

/-- From a full transfer on the browser lacks the withheld points and no others. -/
theorem indicators_analysisStream
    (hpoints : ∀ n, ((snapshots n).indicatorPoints.map Stamped.startedAt).Nodup) {m n : ℕ}
    (hmn : m ≤ n) (hrefresh : indicatorUpdate snapshots m = .refresh)
    (hkeeps : ∀ k, m ≤ k → k < n → KeepsLatestStart snapshots k) :
    (analysisStream subscriptionId snapshots start n).state.indicators =
      shownPoints (withheldStarts snapshots n) (snapshots n).indicatorPoints := by
  induction n, hmn using Nat.le_induction with
  | base => exact indicators_of_refresh subscriptionId snapshots start hrefresh
  | succ n hmn ih =>
    have hbefore := ih fun k hmk hkn => hkeeps k hmk (by omega)
    rw [indicators_analysisStream_succ, hbefore, withheldStarts]
    exact receivedPoints_shownPoints rfl (hpoints (n + 1)) (hkeeps n hmn (by omega)) _

end Run

/-! ## Candles -/

theorem mem_receivedCandles (hheld : (held.map Stamped.startedAt).Nodup)
    (hlatest : ∀ candle, latestCandle = some candle → candle ∈ held) (candles : List (Stamped β))
    (candle : Stamped β) : candle ∈ receivedCandles latestCandle candles held ↔
      candles.getLast? = some candle ∨ candle ∈ held ∧
        ∀ last, candles.getLast? = some last → candle.startedAt ≠ last.startedAt := by
  unfold receivedCandles
  cases candles.getLast? with
  | none => simp
  | some last =>
    simp only [Option.some.injEq, forall_eq']
    rw [eq_comm (a := last)]
    split_ifs with hsent
    · exact mem_upsertBy hheld last candle
    · -- the last candle is the one that was sent last
      have hmem : last ∈ held := hlatest last (not_not.mp hsent).symm
      constructor
      · intro hcandle
        by_cases heq : candle = last
        · exact Or.inl heq
        · exact Or.inr ⟨hcandle, fun hstart =>
            heq (inj_on_of_nodup_map hheld hcandle hmem hstart)⟩
      · rintro (rfl | ⟨hcandle, -⟩)
        · exact hmem
        · exact hcandle

theorem nodup_receivedCandles (hheld : (held.map Stamped.startedAt).Nodup)
    (latestCandle : Option (Stamped β)) (candles : List (Stamped β)) :
    ((receivedCandles latestCandle candles held).map Stamped.startedAt).Nodup := by
  unfold receivedCandles
  cases candles.getLast? with
  | none => exact hheld
  | some last =>
    dsimp only
    split_ifs
    · exact nodup_upsertBy hheld last
    · exact hheld

theorem latest_mem_receivedCandles (hheld : (held.map Stamped.startedAt).Nodup)
    (hlatest : ∀ candle, latestCandle = some candle → candle ∈ held) (candles : List (Stamped β))
    (candle : Stamped β) (h : (candleUpdate latestCandle candles).1 = some candle) :
    candle ∈ receivedCandles latestCandle candles held := by
  rw [mem_receivedCandles hheld hlatest]
  unfold candleUpdate at h
  cases hlast : candles.getLast? with
  | none =>
    rw [hlast] at h
    exact Or.inr ⟨hlatest candle h, by simp⟩
  | some last =>
    rw [hlast] at h
    dsimp only at h
    split_ifs at h with hsent
    · exact Or.inl h
    · exact Or.inl ((not_not.mp hsent).trans h)

/-- A candle that was sent, in the first snapshot or as the last one of a later snapshot, and of
which no later snapshot had another version as its last one. -/
def DeliveredUnchanged (snapshots : ℕ → AnalysisSnapshot β) (n : ℕ) (candle : Stamped β) : Prop :=
  ∃ m ≤ n,
    (m = 0 ∧ candle ∈ (snapshots 0).candles ∨ (snapshots m).candles.getLast? = some candle) ∧
      ∀ k, m < k → k ≤ n → ∀ last, (snapshots k).candles.getLast? = some last →
        last.startedAt = candle.startedAt → last = candle

omit [DecidableEq β] in
/-- A candle is the last one delivered of its start by the next tick. -/
theorem deliveredUnchanged_succ (snapshots : ℕ → AnalysisSnapshot β) (n : ℕ) (candle : Stamped β) :
    DeliveredUnchanged snapshots (n + 1) candle ↔
      (snapshots (n + 1)).candles.getLast? = some candle ∨ DeliveredUnchanged snapshots n candle ∧
          ∀ last, (snapshots (n + 1)).candles.getLast? = some last →
            candle.startedAt ≠ last.startedAt := by
  constructor
  · rintro ⟨m, hm, hsent, hlater⟩
    by_cases hlast : (snapshots (n + 1)).candles.getLast? = some candle
    · exact Or.inl hlast
    · have hmn : m ≤ n := by
        rcases Nat.lt_or_ge n m with hlt | hle
        · obtain rfl : m = n + 1 := by omega
          rcases hsent with ⟨hzero, -⟩ | hsent
          · omega
          · exact absurd hsent hlast
        · exact hle
      refine Or.inr ⟨⟨m, hmn, hsent, fun k hmk hkn => hlater k hmk (by omega)⟩, ?_⟩
      intro last hother hstart
      have heq := hlater (n + 1) (by omega) le_rfl last hother hstart.symm
      exact hlast (heq ▸ hother)
  · rintro (hlast | ⟨⟨m, hm, hsent, hlater⟩, hother⟩)
    · exact ⟨n + 1, le_rfl, Or.inr hlast, fun k hk hkn => by omega⟩
    · refine ⟨m, by omega, hsent, fun k hmk hkn last hlast hstart => ?_⟩
      rcases Nat.lt_or_ge n k with hlt | hle
      · obtain rfl : k = n + 1 := by omega
        exact absurd hstart.symm (hother last hlast)
      · exact hlater k hmk hle last hlast hstart

section Run

variable (subscriptionId : String) (snapshots : ℕ → AnalysisSnapshot β) (start : AnalysisStream β)

/-- Candles of distinct starts, the last one sent among them. -/
theorem candles_invariant (hcandles : ((snapshots 0).candles.map Stamped.startedAt).Nodup) (n : ℕ) :
    let stream := analysisStream subscriptionId snapshots start n
    (stream.state.candles.map Stamped.startedAt).Nodup ∧
      ∀ candle, stream.memory.latestCandle = some candle → candle ∈ stream.state.candles := by
  induction n with
  | zero =>
    obtain ⟨hmemory, hstate, -⟩ :=
      deliver_sendSnapshot subscriptionId start.memory (snapshots 0) start
    simp only [analysisStream]
    rw [hmemory, hstate]
    exact ⟨hcandles, fun candle hlast => mem_of_getLast? hlast⟩
  | succ n ih =>
    obtain ⟨hlatest, -, hstate, -⟩ := deliver_tick (snapshots (n + 1))
      (analysisStream subscriptionId snapshots start n)
    simp only [analysisStream]
    rw [hlatest, hstate]
    exact ⟨nodup_receivedCandles ih.1 _ _, latest_mem_receivedCandles ih.1 ih.2 _⟩

theorem mem_candles_analysisStream
    (hcandles : ((snapshots 0).candles.map Stamped.startedAt).Nodup) (n : ℕ) (candle : Stamped β) :
    candle ∈ (analysisStream subscriptionId snapshots start n).state.candles ↔
      DeliveredUnchanged snapshots n candle := by
  induction n with
  | zero =>
    have hstate := (deliver_sendSnapshot subscriptionId start.memory (snapshots 0) start).2.1
    simp only [analysisStream]
    rw [hstate]
    constructor
    · intro hmem
      exact ⟨0, le_rfl, Or.inl ⟨rfl, hmem⟩, fun k hk hk0 => by omega⟩
    · rintro ⟨m, hm, hsent, -⟩
      obtain rfl : m = 0 := by omega
      rcases hsent with ⟨-, hmem⟩ | hlast
      · exact hmem
      · exact mem_of_getLast? hlast
  | succ n ih =>
    obtain ⟨hheld, hlatest⟩ := candles_invariant subscriptionId snapshots start hcandles n
    have hstate := (deliver_tick (snapshots (n + 1))
      (analysisStream subscriptionId snapshots start n)).2.2.1
    simp only [analysisStream]
    rw [hstate, mem_receivedCandles hheld hlatest, ih, deliveredUnchanged_succ]

end Run

/-! ## The browser's view -/

/-- After every tick the browser shows the indicator points of the snapshot that are not withheld,
and it holds a candle of the snapshot if and only if that one was sent and not changed since.
SOURCE: main.py:1456-1597, 1995-2021; analysisStream.ts:60-104 -/
theorem analysisStream_view (subscriptionId : String) (snapshots : ℕ → AnalysisSnapshot β)
    (start : AnalysisStream β)
    (hcandles : ∀ n, ((snapshots n).candles.map Stamped.startedAt).Nodup)
    (hpoints : ∀ n, ((snapshots n).indicatorPoints.map Stamped.startedAt).Nodup) (n : ℕ) :
    (∀ m ≤ n, indicatorUpdate snapshots m = .refresh →
      (∀ k, m ≤ k → k < n → KeepsLatestStart snapshots k) →
        (analysisStream subscriptionId snapshots start n).state.indicators =
          shownPoints (withheldStarts snapshots n) (snapshots n).indicatorPoints) ∧
    ∀ candle ∈ (snapshots n).candles,
      ((analysisStream subscriptionId snapshots start n).state.candles.filter fun other =>
        other.startedAt = candle.startedAt) = [candle] ↔
        DeliveredUnchanged snapshots n candle := by
  refine ⟨fun m hmn hrefresh hkeeps => ?_, fun candle _ => ?_⟩
  · exact indicators_analysisStream subscriptionId snapshots start hpoints hmn hrefresh hkeeps
  · rw [filter_key_eq_singleton_iff (candles_invariant subscriptionId snapshots start
      (hcandles 0) n).1]
    exact mem_candles_analysisStream subscriptionId snapshots start (hcandles 0) n candle

/-- Snapshots of one and then of three minutes. -/
def threeMinutes : ℕ → AnalysisSnapshot Unit
  | 0 => ⟨(), "1m", [⟨"2026-07-17T00:00:00Z", ()⟩], [⟨"2026-07-17T00:00:00Z", ()⟩], [],
      ⟨(), (), ()⟩⟩
  | _ + 1 => ⟨(), "1m",
      [⟨"2026-07-17T00:00:00Z", ()⟩, ⟨"2026-07-17T00:01:00Z", ()⟩, ⟨"2026-07-17T00:02:00Z", ()⟩],
      [⟨"2026-07-17T00:00:00Z", ()⟩, ⟨"2026-07-17T00:01:00Z", ()⟩], [], ⟨(), (), ()⟩⟩

theorem forall_threeMinutes (P : AnalysisSnapshot Unit → Prop) (hfirst : P (threeMinutes 0))
    (hlater : P (threeMinutes 1)) : ∀ n, P (threeMinutes n)
  | 0 => hfirst
  | _ + 1 => hlater

theorem analysisStream_view_threeMinutes : (∀ m ≤ 1, indicatorUpdate threeMinutes m = .refresh →
      (∀ k, m ≤ k → k < 1 → KeepsLatestStart threeMinutes k) →
        (analysisStream "s" threeMinutes ⟨⟨none, [], []⟩, initialAnalysisState⟩
          1).state.indicators =
          shownPoints (withheldStarts threeMinutes 1) (threeMinutes 1).indicatorPoints) ∧
    ∀ candle ∈ (threeMinutes 1).candles,
      ((analysisStream "s" threeMinutes ⟨⟨none, [], []⟩, initialAnalysisState⟩
        1).state.candles.filter fun other => other.startedAt = candle.startedAt) = [candle] ↔
        DeliveredUnchanged threeMinutes 1 candle :=
  analysisStream_view "s" threeMinutes ⟨⟨none, [], []⟩, initialAnalysisState⟩
    (forall_threeMinutes (fun snapshot => (snapshot.candles.map Stamped.startedAt).Nodup)
      (by decide) (by decide))
    (forall_threeMinutes (fun snapshot => (snapshot.indicatorPoints.map Stamped.startedAt).Nodup)
      (by decide) (by decide)) 1

/-- Candles and points in ascending order, points at starts of candles. -/
def Ascending (snapshot : AnalysisSnapshot Unit) : Prop :=
  (snapshot.candles.map Stamped.startedAt).Pairwise (· < ·) ∧
    (snapshot.indicatorPoints.map Stamped.startedAt).Pairwise (· < ·) ∧
    ∀ point ∈ snapshot.indicatorPoints,
      point.startedAt ∈ snapshot.candles.map Stamped.startedAt

/-- The second of the three minutes is never sent, and no indicator after the first. -/
theorem stream_not_converges :
    ¬ ∀ (snapshots : ℕ → AnalysisSnapshot Unit) (start : AnalysisStream Unit),
      (∀ n, Ascending (snapshots n)) →
      ∀ n, (analysisStream "s" snapshots start n).state.indicators =
          (snapshots n).indicatorPoints ∧
        ∀ candle ∈ (snapshots n).candles,
          ((analysisStream "s" snapshots start n).state.candles.filter fun other =>
            other.startedAt = candle.startedAt) = [candle] := by
  intro h
  have hminutes := h threeMinutes ⟨⟨none, [], []⟩, initialAnalysisState⟩
    (forall_threeMinutes Ascending (by unfold Ascending; decide +kernel)
      (by unfold Ascending; decide +kernel)) 1
  have hcandle := hminutes.2 ⟨"2026-07-17T00:01:00Z", ()⟩ (by decide)
  revert hcandle
  decide +kernel

end Goodmoneying.Analysis
