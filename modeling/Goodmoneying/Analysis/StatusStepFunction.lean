import Goodmoneying.Analysis.StatusRevisions

/-!
# The status history as a step function

The history of a market after a sequence of catalogs says of every time what the last catalog before
it said: what the last row says after a call (`contains_iff_last`), that later calls change nothing
about the times before them (`exists_contains_append_iff`), and that the rows succeed one another
(`History`). A catalog that the sync refuses leaves no trace.
-/

namespace Goodmoneying.Analysis.StatusHistory

open List Library Program Program.StatusHistory

variable {sha256 : String → String} {db : HistoryDatabase} {call : CatalogCall}
  {calls : List CatalogCall} {marketCode : String}
variable {rows : List StatusRow} {new row : StatusRow} {x : Instant} {status : MarketStatus}
  {later before : List CatalogCall}

/-- The loop over the catalog ends only where all codes are valid. -/
theorem validCode_of_foldlM {observedAt : Instant} {catalog : List CatalogItem}
    {state state' : HistoryDatabase × List ℤ}
    (h : catalog.foldlM (syncItem sha256 observedAt) state = .ok state') :
    ∀ item ∈ catalog, validCode item.marketCode = true := by
  induction catalog generalizing state with
  | nil => simp
  | cons item catalog ih =>
    rw [foldlM_cons] at h
    obtain ⟨state₁, hstep, hrest⟩ := bind_eq_ok.mp h
    refine forall_mem_cons.mpr ⟨?_, ih hrest⟩
    by_contra hcode
    simp [syncItem, hcode] at hstep

theorem accepted_of_ok {db' : HistoryDatabase}
    (h : syncMarketCatalog sha256 db call.catalog call.observedAt = .ok db') : Accepted call := by
  unfold syncMarketCatalog at h
  split_ifs at h with hnil hcodes
  obtain ⟨state, hloop, -⟩ := bind_eq_ok.mp h
  exact ⟨hnil, hcodes, validCode_of_foldlM hloop⟩

/-- A refused call changes nothing. -/
theorem after_of_refused (h : ¬ Accepted call) : db.after sha256 call = db := by
  unfold HistoryDatabase.after
  cases hsync : syncMarketCatalog sha256 db call.catalog call.observedAt with
  | error e => rfl
  | ok db' => exact absurd (accepted_of_ok hsync) h

/-- The rows after a revision: a row of before, which may have been closed, or the new one. -/
theorem mem_recordInto (h : row ∈ recordInto rows new) :
    row = new ∨ ∃ old ∈ rows, row = old ∨ row = old.close new.validFrom := by
  unfold recordInto at h
  split_ifs at h
  · exact .inr ⟨row, h, .inl rfl⟩
  · obtain rfl | ⟨l, a, rfl⟩ := rows.eq_nil_or_concat'
    · exact .inl (mem_singleton.mp h)
    · rw [supersede_concat] at h
      simp only [mem_append, mem_cons, not_mem_nil, or_false] at h
      obtain hold | rfl | rfl := h
      · exact .inr ⟨row, mem_append_left _ hold, .inl rfl⟩
      · exact .inr ⟨a, by simp, .inr rfl⟩
      · exact .inl rfl

/-- Neighbours differ where the rows before did and the checksum has changed. -/
theorem recordInto_differ (h : rows.IsChain fun a b => a.status ≠ b.status) (hnew : ∀ a ∈
      rows.getLast?, a.sourcePayloadChecksum ≠ new.sourcePayloadChecksum → a.status ≠ new.status) :
    (recordInto rows new).IsChain fun a b => a.status ≠ b.status := by
  unfold recordInto
  split_ifs with hsame
  · exact h
  · obtain rfl | ⟨l, a, rfl⟩ := rows.eq_nil_or_concat'
    · exact isChain_singleton new
    · rw [supersede_concat]
      have hlast := hnew a (by simp) fun heq => hsame ⟨a, by simp, heq⟩
      rw [isChain_append] at h
      rw [show l ++ [a.close new.validFrom, new] = (l ++ [a.close new.validFrom]) ++ [new] by simp,
        isChain_append, isChain_append]
      refine ⟨⟨h.1, isChain_singleton _, fun x hx y hy => ?_⟩, isChain_singleton _,
        fun x hx y hy => ?_⟩
      · obtain rfl : a.close new.validFrom = y := by simpa using hy
        exact h.2.2 x hx a (by simp)
      · obtain rfl : a.close new.validFrom = x := by simpa using hx
        obtain rfl : new = y := by simpa using hy
        exact hlast

/-- About the times before a revision, nothing changes. -/
theorem exists_validAt_recordInto_iff (h : Successive rows) (hx : x < new.validFrom)
    (P : ℤ → MarketStatus → Prop) : (∃ row ∈ recordInto rows new,
        ValidAt StatusRow.validFrom StatusRow.validTo row x ∧ P row.id row.status) ↔
      ∃ row ∈ rows, ValidAt StatusRow.validFrom StatusRow.validTo row x ∧ P row.id row.status := by
  unfold recordInto
  split_ifs
  · exact Iff.rfl
  · exact exists_validAt_supersede_iff (StatusRow.close_validFrom _) (StatusRow.close_validTo _)
      (P := fun row : StatusRow => P row.id row.status) (fun _ => Iff.rfl) h hx

/-- The statuses that a run may fingerprint. -/
def ObservedStatus (calls : List CatalogCall) (status : MarketStatus) : Prop :=
  status = missingStatus ∨ ∃ call ∈ calls, ∃ item ∈ call.catalog, status = item.status

/-- The code is listed in a call that the sync does not refuse. -/
def ListedBy (marketCode : String) (call : CatalogCall) : Prop :=
  Accepted call ∧ marketCode ∈ call.catalog.map CatalogItem.marketCode

/-- The rows of a code after a run. -/
structure CodeHistory (sha256 : String → String) (calls : List CatalogCall) (marketCode : String)
    (rows : List StatusRow) : Prop where
  begun : ∀ row ∈ rows, ∃ call ∈ calls, Accepted call ∧ row.validFrom = call.observedAt
  fingerprint : ∀ row ∈ rows, ObservedStatus calls row.status ∧
    row.sourcePayloadChecksum = row.status.fingerprint sha256
  differ : rows.IsChain fun a b => a.status ≠ b.status
  nonempty_iff : rows ≠ [] ↔ ∃ call ∈ calls, ListedBy marketCode call

theorem codeHistory_nil (sha256 : String → String) (marketCode : String) :
    CodeHistory sha256 [] marketCode [] := by
  constructor <;> simp

theorem ObservedStatus.mono {others : List CatalogCall} (h : ObservedStatus calls status)
    (hsub : ∀ call ∈ calls, call ∈ others) : ObservedStatus others status :=
  h.imp id fun ⟨call, hcall, hitem⟩ => ⟨call, hsub call hcall, hitem⟩

/-- A call that does not list the code and changes no row. -/
theorem CodeHistory.unlisted (h : CodeHistory sha256 calls marketCode rows)
    (hcall : ¬ ListedBy marketCode call) :
    CodeHistory sha256 (calls ++ [call]) marketCode rows where
  begun row hrow := by
    obtain ⟨earlier, hearlier, hbegun⟩ := h.begun row hrow
    exact ⟨earlier, mem_append_left _ hearlier, hbegun⟩
  fingerprint row hrow := by
    obtain ⟨hstatus, hsum⟩ := h.fingerprint row hrow
    exact ⟨hstatus.mono fun _ => mem_append_left _, hsum⟩
  differ := h.differ
  nonempty_iff := by
    rw [h.nonempty_iff]
    simp [or_and_right, exists_or, hcall]

/-- A call that records a status for the code. -/
theorem CodeHistory.recorded {rows' : List StatusRow} (h : CodeHistory sha256 calls marketCode rows)
    (hcall : Accepted call) (hstatus : ObservedStatus [call] status)
    (hrecorded : Recorded sha256 status call.observedAt rows rows')
    (hreason : marketCode ∈ call.catalog.map CatalogItem.marketCode ∨ rows ≠ []) :
    CodeHistory sha256 (calls ++ [call]) marketCode rows' := by
  obtain ⟨marketId, id, rfl⟩ := hrecorded
  refine ⟨fun row hrow => ?_, fun row hrow => ?_, ?_, iff_of_true ?_ ?_⟩
  · obtain rfl | ⟨old, hold, rfl | rfl⟩ := mem_recordInto hrow
    · exact ⟨call, mem_append_right _ mem_cons_self, hcall, rfl⟩
    all_goals
      obtain ⟨earlier, hearlier, hbegun⟩ := h.begun _ hold
      exact ⟨earlier, mem_append_left _ hearlier, hbegun⟩
  · obtain rfl | ⟨old, hold, rfl | rfl⟩ := mem_recordInto hrow
    · exact ⟨hstatus.mono fun _ => mem_append_right _, rfl⟩
    all_goals
      obtain ⟨hold', hsum⟩ := h.fingerprint _ hold
      exact ⟨hold'.mono fun _ => mem_append_left _, hsum⟩
  · refine recordInto_differ h.differ fun a ha hchecksum heq => hchecksum ?_
    rw [(h.fingerprint a (mem_of_getLast? ha)).2, heq]
    rfl
  · unfold recordInto
    split_ifs with hsame
    · obtain ⟨a, ha, -⟩ := hsame
      exact ne_nil_of_mem (mem_of_getLast? ha)
    · simp [supersede]
  · obtain hlisted | hne := hreason
    · exact ⟨call, by simp, hcall, hlisted⟩
    · obtain ⟨earlier, hearlier, hlisted⟩ := h.nonempty_iff.mp hne
      exact ⟨earlier, mem_append_left _ hearlier, hlisted⟩

/-- The tables after a run. -/
structure History (sha256 : String → String) (calls : List CatalogCall) (db : HistoryDatabase) :
    Prop where
  sound : SoundHistory db
  codes : ∀ marketCode, CodeHistory sha256 calls marketCode (db.rowsOfCode marketCode)

theorem history_nil (sha256 : String → String) : History sha256 [] HistoryDatabase.empty where
  sound := ⟨fun _ => succession_nil, fun _ _ => rfl⟩
  codes marketCode := codeHistory_nil sha256 marketCode

/-- What a call makes of the tables. -/
theorem History.after (h : History sha256 calls db)
    (hlater : ∀ earlier ∈ calls, earlier.observedAt < call.observedAt) :
    History sha256 (calls ++ [call]) (db.after sha256 call) ∧
      (Accepted call → ∀ marketCode, Synced sha256 call marketCode
        (db.rowsOfCode marketCode) ((db.after sha256 call).rowsOfCode marketCode)) := by
  by_cases hcall : Accepted call
  · have hbefore : ∀ marketCode, ∀ row ∈ db.rowsOfCode marketCode,
        row.validFrom < call.observedAt := by
      intro marketCode row hrow
      obtain ⟨earlier, hearlier, -, hbegun⟩ := (h.codes marketCode).begun row hrow
      exact hbegun ▸ hlater earlier hearlier
    obtain ⟨db', hsync, hsound, hsynced⟩ := syncMarketCatalog_rows sha256 hcall h.sound hbefore
    have hafter : db.after sha256 call = db' := by
      rw [HistoryDatabase.after, hsync]
      rfl
    rw [hafter]
    refine ⟨⟨hsound, fun marketCode => ?_⟩, fun _ => hsynced⟩
    have hcode := hsynced marketCode
    by_cases hlisted : marketCode ∈ call.catalog.map CatalogItem.marketCode
    · obtain ⟨item, hitem, heq⟩ := mem_map.mp hlisted
      exact (h.codes marketCode).recorded hcall
        (.inr ⟨call, mem_singleton_self call, item, hitem, rfl⟩)
        (hcode.listed item hitem heq) (.inl hlisted)
    · by_cases hactive : LastActive (db.rowsOfCode marketCode)
      · refine (h.codes marketCode).recorded hcall (.inl rfl) (hcode.missing hlisted hactive)
          (.inr fun hnil => ?_)
        simp [hnil, LastActive] at hactive
      · rw [hcode.unchanged hlisted hactive]
        exact (h.codes marketCode).unlisted fun hlistedBy => hlisted hlistedBy.2
  · rw [after_of_refused hcall]
    refine ⟨⟨h.sound, fun marketCode => ?_⟩, fun haccepted => absurd haccepted hcall⟩
    exact (h.codes marketCode).unlisted fun hlistedBy => hcall hlistedBy.1

/-- The tables after a run whose calls are one after the other. -/
theorem history_afterCalls (sha256 : String → String)
    (htimes : calls.Pairwise fun a b => a.observedAt < b.observedAt) :
    History sha256 calls (HistoryDatabase.empty.afterCalls sha256 calls) := by
  induction calls using List.reverseRecOn with
  | nil => exact history_nil sha256
  | append_singleton calls call ih =>
    rw [pairwise_append] at htimes
    rw [HistoryDatabase.afterCalls, foldl_append]
    exact ((ih htimes.1).after fun earlier hearlier =>
      htimes.2.2 earlier hearlier call mem_cons_self).1

/-- The rows of a code after a run. -/
abbrev rowsAfter (sha256 : String → String) (calls : List CatalogCall) (marketCode : String) :
    List StatusRow :=
  (HistoryDatabase.empty.afterCalls sha256 calls).rowsOfCode marketCode

/-- The row is valid at the time. -/
abbrev Contains (row : StatusRow) (x : Instant) : Prop :=
  ValidAt StatusRow.validFrom StatusRow.validTo row x

theorem afterCalls_concat (calls : List CatalogCall) (call : CatalogCall) :
    HistoryDatabase.empty.afterCalls sha256 (calls ++ [call]) =
      (HistoryDatabase.empty.afterCalls sha256 calls).after sha256 call := by
  simp [HistoryDatabase.afterCalls]

/-- One call changes nothing about the times before it. -/
theorem exists_contains_after_iff
    (htimes : (calls ++ [call]).Pairwise fun a b => a.observedAt < b.observedAt)
    (hx : Accepted call → x < call.observedAt) (P : ℤ → MarketStatus → Prop) :
    (∃ row ∈ rowsAfter sha256 (calls ++ [call]) marketCode,
        Contains row x ∧ P row.id row.status) ↔
      ∃ row ∈ rowsAfter sha256 calls marketCode, Contains row x ∧ P row.id row.status := by
  rw [rowsAfter, afterCalls_concat]
  by_cases hcall : Accepted call
  · obtain ⟨hearlier, -, hlater⟩ := pairwise_append.mp htimes
    have hhistory := history_afterCalls sha256 hearlier
    have hsynced := (hhistory.after fun earlier hmem =>
      hlater earlier hmem call mem_cons_self).2 hcall marketCode
    have hsucc := hhistory.sound.rowsOfCode marketCode
    have hrecorded : ∀ {status}, Recorded sha256 status call.observedAt
        ((HistoryDatabase.empty.afterCalls sha256 calls).rowsOfCode marketCode)
        (((HistoryDatabase.empty.afterCalls sha256 calls).after sha256 call).rowsOfCode
          marketCode) → _ := fun ⟨marketId, id, hrows⟩ =>
      hrows ▸ exists_validAt_recordInto_iff hsucc (hx hcall) P
    by_cases hlisted : marketCode ∈ call.catalog.map CatalogItem.marketCode
    · obtain ⟨item, hitem, heq⟩ := mem_map.mp hlisted
      exact hrecorded (hsynced.listed item hitem heq)
    · by_cases hactive : LastActive
        ((HistoryDatabase.empty.afterCalls sha256 calls).rowsOfCode marketCode)
      · exact hrecorded (hsynced.missing hlisted hactive)
      · rw [hsynced.unchanged hlisted hactive]
  · rw [after_of_refused hcall]

/-- Later calls change nothing about the times before them. -/
theorem exists_contains_append_iff
    (htimes : (calls ++ later).Pairwise fun a b => a.observedAt < b.observedAt)
    (hx : ∀ call ∈ later, Accepted call → x < call.observedAt) (P : ℤ → MarketStatus → Prop) :
    (∃ row ∈ rowsAfter sha256 (calls ++ later) marketCode,
        Contains row x ∧ P row.id row.status) ↔
      ∃ row ∈ rowsAfter sha256 calls marketCode, Contains row x ∧ P row.id row.status := by
  induction later using List.reverseRecOn with
  | nil => rw [append_nil]
  | append_singleton later call ih =>
    rw [← append_assoc] at htimes ⊢
    rw [exists_contains_after_iff htimes (hx call (by simp)) P]
    exact ih (pairwise_append.mp htimes).1 fun other hother =>
      hx other (mem_append_left _ hother)

/-- After all accepted calls, the last row is the valid one. -/
theorem contains_iff_last (htimes : calls.Pairwise fun a b => a.observedAt < b.observedAt)
    (hx : ∀ call ∈ calls, Accepted call → call.observedAt ≤ x)
    (hrow : row ∈ rowsAfter sha256 calls marketCode) :
    Contains row x ↔ row ∈ (rowsAfter sha256 calls marketCode).getLast? := by
  have hhistory := history_afterCalls sha256 htimes
  refine (hhistory.sound.rowsOfCode marketCode).validAt_iff_last (fun row hrow => ?_) hrow
  obtain ⟨call, hcall, haccepted, hbegun⟩ := (hhistory.codes marketCode).begun row hrow
  exact hbegun ▸ hx call hcall haccepted

/-- What is said of a time after the accepted calls `calls` and before the accepted ones of `later`
is what the last row says after `calls`. -/
theorem exists_last_of_contains
    (htimes : (calls ++ later).Pairwise fun a b => a.observedAt < b.observedAt)
    (hbefore : ∀ call ∈ calls, Accepted call → call.observedAt ≤ x)
    (hafter : ∀ call ∈ later, Accepted call → x < call.observedAt)
    (hrow : row ∈ rowsAfter sha256 (calls ++ later) marketCode) (hx : Contains row x) :
    ∃ last ∈ (rowsAfter sha256 calls marketCode).getLast?,
      last.id = row.id ∧ last.status = row.status := by
  obtain ⟨last, hlast, hlastx, hsame⟩ := (exists_contains_append_iff htimes hafter
    fun id status => id = row.id ∧ status = row.status).mp ⟨row, hrow, hx, rfl, rfl⟩
  exact ⟨last, (contains_iff_last (pairwise_append.mp htimes).1 hbefore hlast).mp hlastx, hsame⟩

/-- The texts that a run may fingerprint. -/
def observedTexts (calls : List CatalogCall) : Set String :=
  MarketStatus.canonical '' {status | ObservedStatus calls status}

/-- Where no two texts collide, the last row after a revision has the recorded status. -/
theorem Recorded.last {rows' : List StatusRow} {observedAt : Instant}
    (h : Recorded sha256 status observedAt rows rows')
    (hinj : Set.InjOn sha256 (observedTexts calls)) (hstatus : ObservedStatus calls status) (hrows :
      ∀ row ∈ rows, ObservedStatus calls row.status ∧ row.sourcePayloadChecksum =
      row.status.fingerprint sha256) : ∃ a ∈ rows'.getLast?, a.status = status := by
  obtain ⟨marketId, id, rfl⟩ := h
  unfold recordInto
  split_ifs with hsame
  · obtain ⟨a, ha, hchecksum⟩ := hsame
    obtain ⟨hobserved, hsum⟩ := hrows a (mem_of_getLast? ha)
    rw [hsum] at hchecksum
    exact ⟨a, ha, canonical_inj (hinj ⟨_, hobserved, rfl⟩ ⟨_, hstatus, rfl⟩ hchecksum)⟩
  · exact ⟨newRow sha256 marketId status observedAt id, by simp, rfl⟩

/-- The ids of the rows of a code ascend. -/
theorem rowsOfCode_ascending (db : HistoryDatabase) (marketCode : String) :
    (db.rowsOfCode marketCode).Pairwise fun a b => a.id < b.id := by
  unfold HistoryDatabase.rowsOfCode
  cases db.markets.find marketCode with
  | none => exact List.Pairwise.nil
  | some market => exact db.history.ascending.filter _

theorem eq_of_id {other : StatusRow} (hrow : row ∈ db.rowsOfCode marketCode)
    (hother : other ∈ db.rowsOfCode marketCode) (h : row.id = other.id) : row = other :=
  inj_on_of_nodup_map
    (pairwise_map.mpr ((rowsOfCode_ascending db marketCode).imp ne_of_lt)) hrow hother h

/-- The last catalog observed at or before the time: a catalog that is refused is not observed. -/
structure LastObserved (calls : List CatalogCall) (x : Instant) (call : CatalogCall) : Prop where
  mem : call ∈ calls
  accepted : Accepted call
  le : call.observedAt ≤ x
  last : ∀ other ∈ calls, Accepted other → other.observedAt ≤ x →
    other.observedAt ≤ call.observedAt

/-- The time lies between the call and the ones observed before it. -/
structure JustBefore (calls : List CatalogCall) (y : Instant) (call : CatalogCall) : Prop where
  lt : y < call.observedAt
  earlier : ∀ other ∈ calls, Accepted other → other.observedAt < call.observedAt →
    other.observedAt ≤ y

/-- The rows of a market are the step function of the catalogs. -/
structure StepFunction (calls : List CatalogCall) (marketCode : String) (rows : List StatusRow) :
    Prop where
  disjoint : rows.Pairwise fun a b => ∀ x, ¬ (Contains a x ∧ Contains b x)
  touching : rows.IsChain fun a b => a.validTo = some b.validFrom
  last_open : ∀ row ∈ rows, row.validTo = none ↔ row ∈ rows.getLast?
  differ : rows.IsChain fun a b => a.status ≠ b.status
  present : ∀ x, (∃ row ∈ rows, Contains row x) ↔
    ∃ call ∈ calls, call.observedAt ≤ x ∧ ListedBy marketCode call
  listed : ∀ x call, LastObserved calls x call →
    ∀ item ∈ call.catalog, item.marketCode = marketCode →
      ∀ row ∈ rows, Contains row x → row.status = item.status
  unlisted : ∀ x call, LastObserved calls x call →
    marketCode ∉ call.catalog.map CatalogItem.marketCode →
      ∀ row ∈ rows, Contains row x → ∀ y, JustBefore calls y call →
        ∃ before ∈ rows, Contains before y ∧
          if before.status.tradingStatus = .active then row.status.tradingStatus = .inactive
          else row = before

/-- The calls up to a time and those after it. -/
theorem exists_split (htimes : calls.Pairwise fun a b => a.observedAt < b.observedAt)
    (x : Instant) : ∃ before later, calls = before ++ later ∧
      (∀ call ∈ before, call.observedAt ≤ x) ∧ ∀ call ∈ later, x < call.observedAt := by
  induction calls with
  | nil => exact ⟨[], [], rfl, by simp, by simp⟩
  | cons call calls ih =>
    obtain ⟨hfirst, hrest⟩ := pairwise_cons.mp htimes
    obtain hle | hlt := le_or_gt call.observedAt x
    · obtain ⟨before, later, rfl, hbefore, hlater⟩ := ih hrest
      exact ⟨call :: before, later, rfl, forall_mem_cons.mpr ⟨hle, hbefore⟩, hlater⟩
    · exact ⟨[], call :: calls, rfl, by simp, forall_mem_cons.mpr
        ⟨hlt, fun other hother => hlt.trans (hfirst other hother)⟩⟩

/-- A market has a row for the time exactly where a catalog has listed it by then. -/
theorem present_iff (htimes : calls.Pairwise fun a b => a.observedAt < b.observedAt) (x : Instant) :
    (∃ row ∈ rowsAfter sha256 calls marketCode, Contains row x) ↔
      ∃ call ∈ calls, call.observedAt ≤ x ∧ ListedBy marketCode call := by
  obtain ⟨before, later, rfl, hbefore, hlater⟩ := exists_split htimes x
  have htimes' := (pairwise_append.mp htimes).1
  have hframe : (∃ row ∈ rowsAfter sha256 (before ++ later) marketCode, Contains row x ∧ True) ↔
      ∃ row ∈ rowsAfter sha256 before marketCode, Contains row x ∧ True :=
    exists_contains_append_iff htimes (fun call hcall _ => hlater call hcall) fun _ _ => True
  simp only [and_true] at hframe
  have hcode := (history_afterCalls sha256 htimes').codes marketCode
  rw [hframe]
  constructor
  · rintro ⟨row, hrow, -⟩
    obtain ⟨call, hcall, hlisted⟩ := hcode.nonempty_iff.mp (ne_nil_of_mem hrow)
    exact ⟨call, mem_append_left _ hcall, hbefore call hcall, hlisted⟩
  · rintro ⟨call, hcall, hle, hlisted⟩
    have hmem : call ∈ before := (mem_append.mp hcall).resolve_right fun hmem =>
      absurd (hlater call hmem) (not_lt.mpr hle)
    obtain ⟨l, a, hrows⟩ := (rowsAfter sha256 before marketCode).eq_nil_or_concat'.resolve_left
      (hcode.nonempty_iff.mpr ⟨call, hmem, hlisted⟩)
    have ha : a ∈ rowsAfter sha256 before marketCode := by simp [hrows]
    refine ⟨a, ha, (contains_iff_last htimes' (fun call hcall _ => hbefore call hcall) ha).mpr ?_⟩
    simp [hrows]

/-- A call within a run, with what lies before and behind it. -/
theorem LastObserved.split (htimes : calls.Pairwise fun a b => a.observedAt < b.observedAt)
    (h : LastObserved calls x call) : ∃ before later, calls = before ++ call :: later ∧
      (∀ other ∈ before, other.observedAt < call.observedAt) ∧
      (∀ other ∈ later, call.observedAt < other.observedAt) ∧
      ∀ other ∈ later, Accepted other → x < other.observedAt := by
  obtain ⟨before, later, rfl⟩ := append_of_mem h.mem
  obtain ⟨-, hlater, hcross⟩ := pairwise_append.mp htimes
  have hafter : ∀ other ∈ later, call.observedAt < other.observedAt := (pairwise_cons.mp hlater).1
  refine ⟨before, later, rfl, fun other hother => hcross other hother call mem_cons_self,
    hafter, fun other hother haccepted => ?_⟩
  by_contra hle
  have hmem : other ∈ before ++ call :: later := mem_append_right _ (mem_cons_of_mem _ hother)
  exact absurd (h.last other hmem haccepted (not_lt.mp hle)) (not_le.mpr (hafter other hother))

/-- Until the next accepted call, the last row after a call says what is said of the time. -/
theorem exists_last_until
    (htimes : (before ++ call :: later).Pairwise fun a b => a.observedAt < b.observedAt)
    (hlast : LastObserved (before ++ call :: later) x call)
    (hbefore : ∀ other ∈ before, other.observedAt < call.observedAt)
    (hafter : ∀ other ∈ later, Accepted other → x < other.observedAt)
    (hrow : row ∈ rowsAfter sha256 (before ++ call :: later) marketCode) (hx : Contains row x) :
    ∃ last ∈ (rowsAfter sha256 (before ++ [call]) marketCode).getLast?,
      last.id = row.id ∧ last.status = row.status := by
  rw [append_cons] at hrow htimes
  refine exists_last_of_contains htimes (fun other hother _ => ?_) hafter hrow hx
  obtain hother | hother := mem_append.mp hother
  · exact (hbefore other hother).le.trans hlast.le
  · obtain rfl := mem_singleton.mp hother
    exact hlast.le

/-- What an accepted call within a run makes of the rows of a code. -/
theorem synced_within
    (htimes : (before ++ call :: later).Pairwise fun a b => a.observedAt < b.observedAt)
    (hcall : Accepted call) : Synced sha256 call marketCode (rowsAfter sha256 before marketCode)
      (rowsAfter sha256 (before ++ [call]) marketCode) := by
  obtain ⟨hbefore, -, hcross⟩ := pairwise_append.mp htimes
  rw [rowsAfter, rowsAfter, afterCalls_concat]
  exact ((history_afterCalls sha256 hbefore).after fun earlier hearlier =>
    hcross earlier hearlier call mem_cons_self).2 hcall marketCode

/-- After a status has been recorded, the last row has it. -/
theorem last_within
    (htimes : (before ++ call :: later).Pairwise fun a b => a.observedAt < b.observedAt)
    (hinj : Set.InjOn sha256 (observedTexts (before ++ call :: later)))
    (hstatus : ObservedStatus [call] status) (h : Recorded sha256 status call.observedAt (rowsAfter
      sha256 before marketCode) (rowsAfter sha256 (before ++ [call]) marketCode))
    (hrow : row ∈ (rowsAfter sha256 (before ++ [call]) marketCode).getLast?) :
    row.status = status := by
  have hbefore := (pairwise_append.mp htimes).1
  obtain ⟨a, ha, hsame⟩ := h.last hinj (hstatus.mono (by simp)) fun old hold => by
    obtain ⟨hobserved, hsum⟩ :=
      ((history_afterCalls sha256 hbefore).codes marketCode).fingerprint old hold
    exact ⟨hobserved.mono fun _ => mem_append_left _, hsum⟩
  rw [← hsame, Option.mem_unique hrow ha]

/-- The status history is the step function of the catalogs: for every sequence of catalogs,
observed one after the other, and every market.
SOURCE: data_foundation_repository.py:52-65, 139-236, 666-717, 805-845 -/
theorem statusHistory_stepFunction (sha256 : String → String) (calls : List CatalogCall)
    (htimes : calls.Pairwise fun a b => a.observedAt < b.observedAt)
    (hinj : Set.InjOn sha256 (observedTexts calls)) (marketCode : String) :
    StepFunction calls marketCode (rowsAfter sha256 calls marketCode) := by
  have hhistory := history_afterCalls sha256 htimes
  have hsucc := hhistory.sound.rowsOfCode marketCode
  refine ⟨hsucc.apart, hsucc.touching.imp fun a b h => h.1, fun row hrow => hsucc.open_iff hrow,
    (hhistory.codes marketCode).differ, present_iff htimes, ?_, ?_⟩
  · intro x call hlast item hitem hcode row hrow hx
    obtain ⟨before, later, rfl, hbefore, hlater, hafter⟩ := hlast.split htimes
    obtain ⟨last, hlastRow, -, hstatus⟩ := exists_last_until htimes hlast hbefore hafter hrow hx
    rw [← hstatus]
    exact last_within htimes hinj (.inr ⟨call, mem_singleton_self call, item, hitem, rfl⟩)
      ((synced_within htimes hlast.accepted).listed item hitem hcode) hlastRow
  · intro x call hlast hunlisted row hrow hx y hy
    have hpresent := (present_iff htimes x).mp ⟨row, hrow, hx⟩
    obtain ⟨before, later, rfl, hbefore, hlater, hafter⟩ := hlast.split htimes
    have hsynced : Synced sha256 call marketCode (rowsAfter sha256 before marketCode)
        (rowsAfter sha256 (before ++ [call]) marketCode) := synced_within htimes hlast.accepted
    obtain ⟨last, hlastRow, hid, hstatus⟩ := exists_last_until htimes hlast hbefore hafter hrow hx
    -- the market was listed by an earlier call, so it has a row at `y`
    obtain ⟨old, hold, hle, hlisted⟩ := hpresent
    have hearlier : old.observedAt < call.observedAt := by
      refine lt_of_le_of_ne (hlast.last old hold hlisted.1 hle) fun heq => hunlisted ?_
      obtain hmem | hmem := mem_append.mp hold
      · exact absurd heq (hbefore old hmem).ne
      · obtain rfl | hmem := mem_cons.mp hmem
        · exact hlisted.2
        · exact absurd heq (hlater old hmem).ne'
    obtain ⟨previous, hprevious, hy'⟩ :=
      (present_iff htimes y).mpr ⟨old, hold, hy.earlier old hold hlisted.1 hearlier, hlisted⟩
    obtain ⟨last', hlastRow', hid', hstatus'⟩ := exists_last_of_contains htimes
      (fun other hother haccepted => hy.earlier other (mem_append_left _ hother) haccepted
        (hbefore other hother))
      (forall_mem_cons.mpr ⟨fun _ => hy.lt, fun other hother _ =>
        hy.lt.trans (hlater other hother)⟩) hprevious hy'
    refine ⟨previous, hprevious, hy', ?_⟩
    split_ifs with hactive
    · have := last_within htimes hinj (.inl rfl) (hsynced.missing hunlisted
        ⟨last', hlastRow', hstatus' ▸ hactive⟩) hlastRow
      rw [← hstatus, this]
      rfl
    · have hsame := hsynced.unchanged hunlisted fun ⟨other, hother, hotherActive⟩ =>
        hactive (by rwa [← hstatus', ← Option.mem_unique hother hlastRow'])
      rw [hsame] at hlastRow
      exact eq_of_id hrow hprevious (by rw [← hid, ← hid', Option.mem_unique hlastRow hlastRow'])

def bitcoin : CatalogItem where
  marketCode := "KRW-BTC"
  koreanName := "비트코인"
  englishName := "Bitcoin"
  marketWarning := "NONE"
  tradable := true

def ether : CatalogItem where
  marketCode := "KRW-ETH"
  koreanName := "이더리움"
  englishName := "Ethereum"
  marketWarning := "CAUTION"
  tradable := true

/-- Both markets, one of them, and both again. -/
def threeCatalogs : List CatalogCall :=
  [⟨[bitcoin, ether], 1⟩, ⟨[ether], 2⟩, ⟨[bitcoin, ether], 3⟩]

/-- A market that is missing for one catalog has three rows. -/
theorem statusHistory_stepFunction_threeCatalogs :
    ((rowsAfter id threeCatalogs "KRW-BTC").map fun row =>
      (row.status.tradingStatus, row.validFrom, row.validTo)) =
        [(.active, 1, some 2), (.inactive, 2, some 3), (.active, 3, none)] ∧
    StepFunction threeCatalogs "KRW-BTC" (rowsAfter id threeCatalogs "KRW-BTC") :=
  ⟨by decide +kernel,
    statusHistory_stepFunction id threeCatalogs (by decide) (Set.injOn_id _) "KRW-BTC"⟩

end Goodmoneying.Analysis.StatusHistory
