import Mathlib.Data.List.DropRight
import Goodmoneying.Program.CandlePages

/-!
# Candle pages end and are complete

Whatever the exchange answers, the cursors of the requests descend within the range, so there are
finitely many. An exchange that answers with the latest candles before the cursor leaves out only
candles that are before the next cursor: the pages have every candle of the range once.
-/

namespace Goodmoneying.Analysis.CandlePages

open List Library Program Program.CandlePages

variable {candles : List UpbitCandle}

/-! ## One page -/

/-- The oldest time is that of a candle, and no candle is before it. -/
theorem oldestTime_spec (first : UpbitCandle) (rest : List UpbitCandle) :
    (∃ item ∈ first :: rest, item.candleDateTimeUtc = oldestTime first rest) ∧
      ∀ item ∈ first :: rest, oldestTime first rest ≤ item.candleDateTimeUtc := by
  unfold oldestTime
  induction rest using List.reverseRecOn with
  | nil => simp
  | append_singleton rest last ih =>
    obtain ⟨⟨item, hitem, hat⟩, hle⟩ := ih
    rw [foldl_append, foldl_cons, foldl_nil]
    constructor
    · rcases min_choice (rest.foldl (fun oldest item => min oldest item.candleDateTimeUtc)
        first.candleDateTimeUtc) last.candleDateTimeUtc with hmin | hmin
      · exact ⟨item, by rw [← cons_append]; exact mem_append_left _ hitem,
          hat.trans hmin.symm⟩
      · exact ⟨last, by simp, hmin.symm⟩
    · intro other hother
      rw [← cons_append] at hother
      rcases mem_append.mp hother with hother | hother
      · exact (min_le_left _ _).trans (hle other hother)
      · obtain rfl := mem_singleton.mp hother
        exact min_le_right _ _

/-- The candles of a range. -/
def candlesIn (startAt endAt : Instant) (candles : List UpbitCandle) : List UpbitCandle :=
  candles.filter fun item =>
    decide (startAt ≤ item.candleDateTimeUtc ∧ item.candleDateTimeUtc < endAt)

theorem mem_candlesIn {startAt endAt : Instant} {item : UpbitCandle} :
    item ∈ candlesIn startAt endAt candles ↔
      item ∈ candles ∧ startAt ≤ item.candleDateTimeUtc ∧ item.candleDateTimeUtc < endAt := by
  unfold candlesIn
  rw [mem_filter, decide_eq_true_iff]

/-- A page has a row of each candle of the range, where the starts are distinct. -/
theorem pageRows_perm (market : String) (startAt endAt : Instant) {payload : List UpbitCandle}
    (hnodup : (payload.map UpbitCandle.candleDateTimeUtc).Nodup) :
    (pageRows market startAt endAt payload).Perm
      ((candlesIn startAt endAt payload).map (upbitCandleToRow market)) := by
  have hentries : pageRowsByStartedAt market startAt endAt payload =
      (candlesIn startAt endAt payload).map fun item =>
        (item.candleDateTimeUtc, upbitCandleToRow market item) := by
    have hset : pageRowsByStartedAt market startAt endAt payload =
        setItems [] ((candlesIn startAt endAt payload).map fun item =>
          (item.candleDateTimeUtc, upbitCandleToRow market item)) := by
      unfold pageRowsByStartedAt setItems candlesIn
      rw [foldl_map, foldl_filter]
      simp only [decide_eq_true_eq]
    rw [hset]
    refine setItems_of_nodup [] ?_
    rw [nil_append, map_map]
    exact hnodup.sublist (filter_sublist.map _)
  unfold pageRows
  rw [hentries]
  refine ((sortedBy_perm _ _).map _).trans ?_
  rw [map_map]
  exact List.Perm.refl _

/-! ## Answers of the exchange -/

/-- The latest candles before the time of a request, at most as many as it asks for. -/
def latestBefore (candles : List UpbitCandle) (request : CandleRequest) : List UpbitCandle :=
  (sortedBy UpbitCandle.candleDateTimeUtc
    (candles.filter fun item => decide (item.candleDateTimeUtc < request.to_))).rtake request.count

/-- The exchange answers each request with these, in any order. -/
def AnswersLatest (exchange : ℕ → CandleRequest → List UpbitCandle)
    (candles : List UpbitCandle) : Prop :=
  ∀ n request, (exchange n request).Perm (latestBefore candles request)

section Latest

variable {candles : List UpbitCandle} {request : CandleRequest} {item : UpbitCandle}

theorem mem_latestBefore (h : item ∈ latestBefore candles request) :
    item ∈ candles ∧ item.candleDateTimeUtc < request.to_ := by
  have hmem := mem_sortedBy.mp (mem_of_mem_drop h)
  rwa [mem_filter, decide_eq_true_iff] at hmem

theorem nodup_latestBefore (hcandles : (candles.map UpbitCandle.candleDateTimeUtc).Nodup) :
    ((latestBefore candles request).map UpbitCandle.candleDateTimeUtc).Nodup := by
  have hsorted := (sortedBy_perm UpbitCandle.candleDateTimeUtc
    (candles.filter fun item => decide (item.candleDateTimeUtc < request.to_))).map
      UpbitCandle.candleDateTimeUtc
  refine (hsorted.nodup_iff.mpr ?_).sublist ((drop_sublist _ _).map _)
  exact hcandles.sublist (filter_sublist.map _)

/-- What is left out is before all that is answered, and something is answered. -/
theorem not_mem_latestBefore (hcandles : (candles.map UpbitCandle.candleDateTimeUtc).Nodup)
    (hcount : 0 < request.count) (hitem : item ∈ candles)
    (hbefore : item.candleDateTimeUtc < request.to_) (h : item ∉ latestBefore candles request) :
    latestBefore candles request ≠ [] ∧
      ∀ other ∈ latestBefore candles request, item.candleDateTimeUtc < other.candleDateTimeUtc := by
  let sorted := sortedBy UpbitCandle.candleDateTimeUtc
    (candles.filter fun item => decide (item.candleDateTimeUtc < request.to_))
  have hsorted : sorted.Pairwise fun a b => a.candleDateTimeUtc < b.candleDateTimeUtc :=
    sortedBy_lt_of_nodup (hcandles.sublist (filter_sublist.map _))
  have hmem : item ∈ sorted := by
    rw [mem_sortedBy, mem_filter, decide_eq_true_iff]
    exact ⟨hitem, hbefore⟩
  have hsplit : sorted.take (sorted.length - request.count) ++ latestBefore candles request =
      sorted := take_append_drop _ _
  have hearlier : item ∈ sorted.take (sorted.length - request.count) := by
    rw [← hsplit] at hmem
    exact (mem_append.mp hmem).resolve_right h
  constructor
  · intro hnil
    have hlength := congrArg List.length hsplit
    rw [hnil, append_nil, length_take] at hlength
    have hpos := length_pos_of_mem hmem
    omega
  · intro other hother
    rw [← hsplit, pairwise_append] at hsorted
    exact hsorted.2.2 item hearlier other hother

end Latest

/-! ## The loop -/

section Loop

variable {exchange : ℕ → CandleRequest → List UpbitCandle} {market : String}
  {startAt endAt : Instant}
variable {cursor : Instant}

/-- The page of the `n`-th request. -/
def pageAt (exchange : ℕ → CandleRequest → List UpbitCandle) (market : String)
    (startAt endAt : Instant) (n : ℕ) (cursor : Instant) : FetchedCandlePage where
  rows := pageRows market startAt endAt (exchange n ⟨market, cursor, 200⟩)
  request := ⟨market, cursor, 200⟩
  requestedRangeStartAt := startAt
  requestedRangeEndAt := cursor
  responsePayload := exchange n ⟨market, cursor, 200⟩

variable (exchange market endAt) in
/-- A page is the last one, or the loop goes on from its oldest candle. -/
theorem fetchPagesFrom_cases (n : ℕ) (hcursor : startAt < cursor) :
    (fetchPagesFrom exchange market startAt endAt n cursor =
        [pageAt exchange market startAt endAt n cursor] ∧
      ∀ first rest, exchange n ⟨market, cursor, 200⟩ = first :: rest →
        oldestTime first rest ≤ startAt ∨ cursor ≤ oldestTime first rest) ∨
    ∃ first rest, exchange n ⟨market, cursor, 200⟩ = first :: rest ∧
      startAt < oldestTime first rest ∧ oldestTime first rest < cursor ∧
      fetchPagesFrom exchange market startAt endAt n cursor =
        pageAt exchange market startAt endAt n cursor ::
          fetchPagesFrom exchange market startAt endAt (n + 1) (oldestTime first rest) := by
  rw [fetchPagesFrom, if_pos hcursor]
  unfold pageAt
  dsimp only
  generalize exchange n ⟨market, cursor, 200⟩ = payload
  cases payload with
  | nil => exact Or.inl ⟨rfl, fun first rest hcons => by cases hcons⟩
  | cons first rest =>
    dsimp only
    split_ifs with hstart hend
    · refine Or.inl ⟨rfl, fun first' rest' hcons => ?_⟩
      obtain ⟨rfl, rfl⟩ := List.cons.inj hcons
      exact Or.inl hstart
    · refine Or.inl ⟨rfl, fun first' rest' hcons => ?_⟩
      obtain ⟨rfl, rfl⟩ := List.cons.inj hcons
      exact Or.inr hend
    · exact Or.inr ⟨first, rest, rfl, not_le.mp hstart, not_le.mp hend, rfl⟩

theorem fetchPagesFrom_of_le (n : ℕ) (hcursor : cursor ≤ startAt) :
    fetchPagesFrom exchange market startAt endAt n cursor = [] := by
  rw [fetchPagesFrom, if_neg (not_lt.mpr hcursor)]

/-- Induction on the time from the beginning of the range to the cursor. -/
theorem cursor_induction {P : ℕ → Instant → Prop} (startAt : Instant)
    (step : ∀ n cursor, (∀ m older, startAt < older → older < cursor → P m older) → P n cursor)
    (n : ℕ) (cursor : Instant) : P n cursor := by
  induction hmeasure : (cursor - startAt).toNat using Nat.strong_induction_on
    generalizing n cursor with
  | _ measure ih =>
    subst hmeasure
    refine step n cursor fun m older hstart hbefore => ih _ ?_ m older rfl
    simp only [Instant] at *
    omega

/-- The cursors descend towards the beginning of the range. -/
structure CursorsDescend (startAt cursor : Instant) (pages : List FetchedCandlePage) : Prop where
  descending : (pages.map fun page => page.request.to_).Pairwise (· > ·)
  between : ∀ page ∈ pages, startAt < page.request.to_ ∧ page.request.to_ ≤ cursor
  length : pages.length ≤ (cursor - startAt).toNat

/-- The cursors of the pages descend. -/
theorem cursorsDescend_fetchPagesFrom (n : ℕ) (cursor : Instant) :
    CursorsDescend startAt cursor (fetchPagesFrom exchange market startAt endAt n cursor) := by
  induction n, cursor using cursor_induction startAt with
  | step n cursor ih =>
    rcases lt_or_ge startAt cursor with hcursor | hcursor
    · have hpositive : 1 ≤ (cursor - startAt).toNat := by
        simp only [Instant] at *
        omega
      obtain ⟨heq, -⟩ | ⟨first, rest, -, hstart, hbefore, heq⟩ :=
        fetchPagesFrom_cases exchange market endAt n hcursor
      · rw [heq]
        refine ⟨pairwise_singleton _ _, fun page hpage => ?_, hpositive⟩
        obtain rfl := mem_singleton.mp hpage
        exact ⟨hcursor, le_refl _⟩
      · have hrest := ih (n + 1) (oldestTime first rest) hstart hbefore
        rw [heq]
        refine ⟨?_, fun page hpage => ?_, ?_⟩
        · rw [map_cons, pairwise_cons]
          refine ⟨fun time htime => ?_, hrest.descending⟩
          obtain ⟨page, hpage, rfl⟩ := mem_map.mp htime
          exact lt_of_le_of_lt (hrest.between page hpage).2 hbefore
        · rcases mem_cons.mp hpage with rfl | hpage
          · exact ⟨hcursor, le_refl _⟩
          · exact ⟨(hrest.between page hpage).1,
              (hrest.between page hpage).2.trans hbefore.le⟩
        · rw [length_cons]
          have hlength := hrest.length
          simp only [Instant] at *
          omega
    · rw [fetchPagesFrom_of_le n hcursor]
      exact ⟨List.Pairwise.nil, by simp, Nat.zero_le _⟩

/-- What an answer from its oldest time on has of a range: the candles from that time on. -/
theorem candlesIn_answer_perm {payload : List UpbitCandle} {request : CandleRequest}
    (hcandles : (candles.map UpbitCandle.candleDateTimeUtc).Nodup) (hcount : 0 < request.count)
    (hpayload : payload.Perm (latestBefore candles request)) (hend : request.to_ ≤ endAt)
    {oldest : Instant} (hle : ∀ item ∈ payload, oldest ≤ item.candleDateTimeUtc) (hleast : ∀ time,
      (∀ item ∈ payload, time < item.candleDateTimeUtc) → payload ≠ [] → time < oldest) :
    (candlesIn startAt endAt payload).Perm
      ((candlesIn startAt request.to_ candles).filter fun item =>
        decide (oldest ≤ item.candleDateTimeUtc)) := by
  have hnodup : candles.Nodup := hcandles.of_map
  have hnodup' : payload.Nodup :=
    ((hpayload.map _).nodup_iff.mpr (nodup_latestBefore hcandles)).of_map
  have hin : (candlesIn startAt endAt payload).Nodup := hnodup'.filter _
  have hout : (candlesIn startAt request.to_ candles).Nodup := hnodup.filter _
  refine (perm_ext_iff_of_nodup hin (hout.filter _)).mpr fun item => ?_
  rw [mem_candlesIn, mem_filter, mem_candlesIn, decide_eq_true_iff]
  constructor
  · rintro ⟨hitem, hstart, -⟩
    obtain ⟨hknown, hbefore⟩ := mem_latestBefore (hpayload.mem_iff.mp hitem)
    exact ⟨⟨hknown, hstart, hbefore⟩, hle item hitem⟩
  · rintro ⟨⟨hknown, hstart, hbefore⟩, hfrom⟩
    refine ⟨?_, hstart, lt_of_lt_of_le hbefore hend⟩
    by_contra hout
    obtain ⟨hne, hearlier⟩ := not_mem_latestBefore hcandles hcount hknown hbefore
      fun hin => hout (hpayload.mem_iff.mpr hin)
    have hlt := hleast item.candleDateTimeUtc
      (fun other hother => hearlier other (hpayload.mem_iff.mp hother))
      fun hnil => hne (nil_perm.mp (hnil ▸ hpayload))
    exact absurd hlt (not_lt.mpr hfrom)

/-- Against such an exchange, the pages from a cursor on have the candles before it. -/
theorem fetchPagesFrom_perm (hcandles : (candles.map UpbitCandle.candleDateTimeUtc).Nodup)
    (hanswers : AnswersLatest exchange candles) (n : ℕ) (hend : cursor ≤ endAt) :
    ((fetchPagesFrom exchange market startAt endAt n cursor).flatMap FetchedCandlePage.rows).Perm
      ((candlesIn startAt cursor candles).map (upbitCandleToRow market)) := by
  induction n, cursor using cursor_induction startAt with
  | step n cursor ih =>
    rcases lt_or_ge startAt cursor with hcursor | hcursor
    · have hanswer := hanswers n ⟨market, cursor, 200⟩
      have hpage := pageRows_perm market startAt endAt
        ((hanswer.map _).nodup_iff.mpr (nodup_latestBefore hcandles))
      have hcount : 0 < (⟨market, cursor, 200⟩ : CandleRequest).count := Nat.succ_pos 199
      -- the part of the range that the answer reaches
      have hreached : ∀ oldest : Instant,
          (∀ item ∈ exchange n ⟨market, cursor, 200⟩, oldest ≤ item.candleDateTimeUtc) →
          (∀ time, (∀ item ∈ exchange n ⟨market, cursor, 200⟩, time < item.candleDateTimeUtc) →
            exchange n ⟨market, cursor, 200⟩ ≠ [] → time < oldest) →
          (pageAt exchange market startAt endAt n cursor).rows.Perm
            (((candlesIn startAt cursor candles).filter fun item =>
              decide (oldest ≤ item.candleDateTimeUtc)).map (upbitCandleToRow market)) :=
        fun oldest hle hleast => hpage.trans
          ((candlesIn_answer_perm hcandles hcount hanswer hend hle hleast).map _)
      have hall : ∀ oldest ≤ startAt, ((candlesIn startAt cursor candles).filter fun item =>
          decide (oldest ≤ item.candleDateTimeUtc)) = candlesIn startAt cursor candles := by
        intro oldest hle
        refine filter_eq_self.mpr fun item hitem => decide_eq_true ?_
        exact hle.trans (mem_candlesIn.mp hitem).2.1
      obtain ⟨heq, hlast⟩ | ⟨first, rest, hpayload, hstart, hbefore, heq⟩ :=
        fetchPagesFrom_cases exchange market endAt n hcursor
      · rw [heq, flatMap_singleton]
        cases hpayload : exchange n ⟨market, cursor, 200⟩ with
        | nil =>
          rw [← hall startAt (le_refl _)]
          rw [hpayload] at hreached
          exact hreached startAt (by simp) (by simp)
        | cons first rest =>
          obtain ⟨⟨item, hitem, hat⟩, hle⟩ := oldestTime_spec first rest
          rw [hpayload] at hanswer hreached
          have hbefore := (mem_latestBefore (hanswer.mem_iff.mp hitem)).2
          rw [hat] at hbefore
          have hstart := (hlast first rest hpayload).resolve_right (not_le.mpr hbefore)
          rw [← hall _ hstart]
          exact hreached _ hle fun time htime _ => hat ▸ htime item hitem
      · obtain ⟨⟨item, hitem, hat⟩, hle⟩ := oldestTime_spec first rest
        have hrest := ih (n + 1) (oldestTime first rest) hstart hbefore (hbefore.le.trans hend)
        have hearlier : ((candlesIn startAt cursor candles).filter fun item =>
            !decide (oldestTime first rest ≤ item.candleDateTimeUtc)) =
            candlesIn startAt (oldestTime first rest) candles := by
          unfold candlesIn
          rw [filter_filter]
          refine filter_congr fun other _ => ?_
          rw [Bool.eq_iff_iff, Bool.and_eq_true, Bool.not_eq_true', decide_eq_false_iff_not,
            decide_eq_true_iff, decide_eq_true_iff, not_le]
          exact ⟨fun h => ⟨h.2.1, h.1⟩, fun h => ⟨h.2, h.1, h.2.trans hbefore⟩⟩
        have hsplit := filter_append_perm
          (fun item => decide (oldestTime first rest ≤ item.candleDateTimeUtc))
          (candlesIn startAt cursor candles)
        rw [hearlier] at hsplit
        rw [hpayload] at hreached
        rw [heq, flatMap_cons]
        refine (List.Perm.append (hreached _ hle fun time htime _ => hat ▸ htime item hitem)
          hrest).trans ?_
        rw [← map_append]
        exact hsplit.map _
    · rw [fetchPagesFrom_of_le n hcursor]
      have hnone : candlesIn startAt cursor candles = [] := by
        refine filter_eq_nil_iff.mpr fun item _ hitem => ?_
        obtain ⟨hstart, hbefore⟩ := of_decide_eq_true hitem
        exact absurd (lt_of_le_of_lt hstart hbefore) (not_lt.mpr hcursor)
      rw [hnone]
      exact List.Perm.nil

end Loop

theorem nodup_starts (startAt endAt : Instant) (market : String)
    (hcandles : (candles.map UpbitCandle.candleDateTimeUtc).Nodup) :
    (((candlesIn startAt endAt candles).map (upbitCandleToRow market)).map
      CandleRow.candleStartAt).Nodup := by
  rw [map_map]
  exact hcandles.sublist (filter_sublist.map _)

/-- A candle at a time. -/
def candleAt (time : Instant) : UpbitCandle := ⟨time, "1", "1", "1", "1", "1", "1"⟩

end Goodmoneying.Analysis.CandlePages
