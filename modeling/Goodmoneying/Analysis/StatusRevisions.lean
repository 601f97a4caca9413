import Goodmoneying.Program.StatusHistory

/-!
# What a sync does to the history of a market

A revision of the status of a market leaves its rows alone where the last one has the same checksum,
and supersedes the last row otherwise (`recordInto`, `recordStatusRevision_rows`). A sync records
one revision for each market at most: what the catalog says of it, or that it is missing where it
was active (`syncMarketCatalog_rows`).
-/

namespace Goodmoneying.Analysis.StatusHistory

open List Library Program Program.StatusHistory
open Goodmoneying.Program.MarketCatalog (TradingStatus)

variable {marketCode : String}

theorem tradingStatus_text_inj {a b : TradingStatus}
    (h : TradingStatus.text a = TradingStatus.text b) : a = b := by
  cases a <;> cases b <;> simp_all [TradingStatus.text]

/-- The text that is fingerprinted tells the status. -/
theorem canonical_inj {status other : MarketStatus} (h : status.canonical = other.canonical) :
    status = other := by
  have hentries := dumpsEntries_inj h rfl (by simp)
  simp only [dumpsEntries_eq_map, map_cons, map_nil, List.cons.injEq, Prod.mk.injEq,
    true_and, and_true] at hentries
  obtain ⟨htrading, hwarning, hevent⟩ := hentries
  have hread : status.marketEvent.value = other.marketEvent.value := by
    have := loads_dumps status.marketEvent.canonical
    rw [hevent, loads_dumps other.marketEvent.canonical] at this
    exact (Option.some.inj this).symm
  exact MarketStatus.ext (tradingStatus_text_inj (dumps_text_inj htrading))
    (dumps_text_inj hwarning) (MarketEvent.ext hread)

/-- The rows of a market succeed one another. -/
abbrev Successive (rows : List StatusRow) : Prop :=
  Succession StatusRow.validFrom StatusRow.validTo rows

/-- The rows after a revision: the same ones where the last has the checksum of the new row. -/
def recordInto (rows : List StatusRow) (new : StatusRow) : List StatusRow :=
  if ∃ a ∈ rows.getLast?, a.sourcePayloadChecksum = new.sourcePayloadChecksum then rows
  else supersede (StatusRow.close new.validFrom) rows new

variable {sha256 : String → String} {db : HistoryDatabase} {marketId : ℤ} {status : MarketStatus}
  {observedAt : Instant}

/-- The open row is the last one. -/
theorem currentRow_eq (h : Successive (db.rowsOf marketId)) :
    db.currentRow marketId = (db.rowsOf marketId).getLast? := by
  unfold HistoryDatabase.currentRow
  obtain hnil | ⟨l, a, hrows⟩ := (db.rowsOf marketId).eq_nil_or_concat'
  · rw [hnil]
    exact maxBy_eq_none.mpr rfl
  · rw [hrows] at h ⊢
    have hclosed : l.filter (fun row => row.validTo = none) = [] := by
      refine filter_eq_nil_iff.mpr fun row hrow => ?_
      obtain ⟨-, e, he, -⟩ := (pairwise_append.mp h.pairwise).2.2 row hrow a (by simp)
      simp [Option.mem_def.mp he]
    have hopen := h.last_open a (by simp)
    simp only [filter_append, hclosed, hopen, filter_cons, filter_nil,
      nil_append, decide_true, if_true, List.getLast?_concat]
    obtain ⟨b, hb⟩ : ∃ b, maxBy StatusRow.validFrom [a] = some b :=
      Option.ne_none_iff_exists'.mp (by simp [maxBy_eq_none])
    have hmem := (maxBy_spec hb).1
    rw [hb, mem_singleton.mp hmem]

/-- A write that leaves the markets and the rows of the other markets alone. -/
structure Writes (db db' : HistoryDatabase) (marketId : ℤ) (rows : List StatusRow) : Prop where
  markets : db'.markets = db.markets
  rows : db'.rowsOf marketId = rows
  others : ∀ other, other ≠ marketId → db'.rowsOf other = db.rowsOf other

/-- Closing a row is a map of the rows of each market. -/
theorem rowsOf_close (db : HistoryDatabase) (id marketId : ℤ) (observedAt : Instant) :
    ({ db with
      history := db.history.update (fun row => row.id = id) (StatusRow.close observedAt)
        (StatusRow.close_id observedAt) } : HistoryDatabase).rowsOf marketId =
      (db.rowsOf marketId).map fun row => if row.id = id then row.close observedAt else row := by
  simp only [HistoryDatabase.rowsOf, IdentityTable.update_rows, filter_map]
  congr 1
  · funext row
    simp
  · refine filter_congr fun row _ => ?_
    simp only [Function.comp_apply]
    split_ifs <;> rfl

theorem mem_rowsOf {row : StatusRow} :
    row ∈ db.rowsOf marketId ↔ row ∈ db.history.rows ∧ row.marketId = marketId := by
  simp [HistoryDatabase.rowsOf]

theorem closeRow_writes {l : List StatusRow} {a : StatusRow}
    (hrows : db.rowsOf marketId = l ++ [a]) (hlt : a.validFrom < observedAt) :
    ∃ db', db.closeRow a observedAt = .ok db' ∧
      Writes db db' marketId (l ++ [a.close observedAt]) := by
  have ha := mem_rowsOf.mp (hrows ▸ mem_append_right l mem_cons_self)
  refine ⟨_, if_pos hlt, rfl, ?_, fun other hother => ?_⟩
  · -- the ids of the rows before are smaller
    have hpair : (l ++ [a]).Pairwise fun row other : StatusRow => row.id < other.id :=
      hrows ▸ db.history.ascending.filter _
    have hids : ∀ row ∈ l, row.id ≠ a.id := fun row hrow =>
      ((pairwise_append.mp hpair).2.2 row hrow a (by simp)).ne
    rw [rowsOf_close, hrows, map_append, map_singleton, if_pos rfl,
      map_congr_left fun row hrow => if_neg (hids row hrow), map_id']
  · rw [rowsOf_close]
    refine (map_congr_left fun row hrow => if_neg fun hid => ?_).trans (map_id' _)
    obtain ⟨hmem, hmarket⟩ := mem_rowsOf.mp hrow
    have := IdentityTable.eq_of_key hmem ha.1 hid
    exact hother (hmarket.symm.trans (this ▸ ha.2))

/-- A row is inserted where all rows of the market have ended. -/
theorem insertRow_writes (sha256 : String → String) (status : MarketStatus)
    (hclosed : ∀ row ∈ db.rowsOf marketId, ∃ e ∈ row.validTo, e ≤ observedAt) :
    ∃ db' id, db.insertRow sha256 marketId status observedAt = .ok db' ∧
      Writes db db' marketId
        (db.rowsOf marketId ++ [newRow sha256 marketId status observedAt id]) := by
  have hnone : ¬ (db.rowsOf marketId).any
      (fun row => decide (∀ e ∈ row.validTo, observedAt < e)) = true := by
    rw [any_eq_true]
    rintro ⟨row, hrow, hover⟩
    obtain ⟨e, he, hle⟩ := hclosed row hrow
    exact absurd (of_decide_eq_true hover e he) (not_lt.mpr hle)
  refine ⟨_, db.history.last + 1, if_neg hnone, rfl, ?_, fun other hother => ?_⟩
  · simp [HistoryDatabase.rowsOf, IdentityTable.insert_rows, newRow]
  · simp [HistoryDatabase.rowsOf, IdentityTable.insert_rows, newRow, hother.symm]

/-- A revision is recorded into the rows of its market, if these have begun before. -/
theorem recordStatusRevision_rows (sha256 : String → String) (status : MarketStatus)
    (h : Successive (db.rowsOf marketId))
    (hbefore : ∀ row ∈ db.rowsOf marketId, row.validFrom < observedAt) :
    ∃ db' id, recordStatusRevision sha256 db marketId status observedAt = .ok db' ∧
      Writes db db' marketId (recordInto (db.rowsOf marketId)
        (newRow sha256 marketId status observedAt id)) := by
  obtain hnil | ⟨l, a, hrows⟩ := (db.rowsOf marketId).eq_nil_or_concat'
  · have hended : ∀ row ∈ db.rowsOf marketId, ∃ e ∈ row.validTo, e ≤ observedAt := by simp [hnil]
    obtain ⟨db', id, hinsert, hwrites⟩ := insertRow_writes sha256 status hended
    refine ⟨db', id, ?_, ?_⟩
    · rw [recordStatusRevision, currentRow_eq h, hnil]
      exact hinsert
    · simpa [hnil, recordInto, supersede_nil] using hwrites
  · have hcurrent : db.currentRow marketId = some a := by
      rw [currentRow_eq h, hrows, List.getLast?_concat]
    by_cases hsame : a.sourcePayloadChecksum = status.fingerprint sha256
    · refine ⟨db, 0, ?_, rfl, ?_, fun _ _ => rfl⟩
      · simp [recordStatusRevision, hcurrent, hsame]
      · simp [recordInto, hrows, newRow, hsame]
    · obtain ⟨closed, hclose, hwrites⟩ := closeRow_writes hrows
        (hbefore a (hrows ▸ mem_append_right l mem_cons_self))
      have hended : ∀ row ∈ closed.rowsOf marketId, ∃ e ∈ row.validTo, e ≤ observedAt := by
        intro row hrow
        rw [hwrites.rows] at hrow
        obtain hrow | hrow := mem_append.mp hrow
        · obtain ⟨-, e, he, hle⟩ :=
            (pairwise_append.mp (hrows ▸ h.pairwise)).2.2 row hrow a (by simp)
          have hlast := hbefore a (hrows ▸ mem_append_right l mem_cons_self)
          exact ⟨e, he, hle.trans hlast.le⟩
        · obtain rfl := mem_singleton.mp hrow
          exact ⟨observedAt, rfl, le_rfl⟩
      obtain ⟨db', id, hinsert, hinserted⟩ := insertRow_writes sha256 status hended
      refine ⟨db', id, ?_, ?_, ?_, fun other hother => ?_⟩
      · simp only [recordStatusRevision, hcurrent, if_neg hsame, hclose]
        exact hinsert
      · rw [hinserted.markets, hwrites.markets]
      · have hnew : ¬ ∃ b ∈ (l ++ [a]).getLast?, b.sourcePayloadChecksum =
            (newRow sha256 marketId status observedAt id).sourcePayloadChecksum := by
          simpa [newRow] using hsame
        rw [hinserted.rows, hwrites.rows, hrows, recordInto, if_neg hnew, supersede_concat]
        simp [newRow]
      · rw [hinserted.others other hother, hwrites.others other hother]

theorem find_eq_some_iff {markets : MarketTable} {market : StatusHistory.MarketRow} :
    markets.find marketCode = some market ↔
      market ∈ markets.rows ∧ market.marketCode = marketCode := by
  constructor
  · intro h
    exact ⟨mem_of_find?_eq_some h, by simpa using List.find?_some h⟩
  · rintro ⟨hmem, hcode⟩
    cases hfind : markets.find marketCode with
    | none =>
      have := List.find?_eq_none.mp hfind market hmem
      simp [hcode] at this
    | some other =>
      have hother : other.marketCode = marketCode := by simpa using List.find?_some hfind
      rw [inj_on_of_nodup_map markets.codes (mem_of_find?_eq_some hfind) hmem
        (hother.trans hcode.symm)]

/-- What a sync makes of the markets: the code has the id, a known one keeps its id. -/
structure Upserts (markets markets' : MarketTable) (marketCode : String) (marketId : ℤ) : Prop where
  found : ∃ market, markets'.find marketCode = some market ∧ market.id = marketId
  others : ∀ other, other ≠ marketCode → markets'.find other = markets.find other
  known : (∃ market, markets.find marketCode = some market ∧ market.id = marketId) ∨
    markets.find marketCode = none ∧ markets.last < marketId
  le_last : markets.last ≤ markets'.last ∧ marketId ≤ markets'.last

/-- What an upsert does to the markets. -/
theorem upsert_upserts (markets : MarketTable) (item : CatalogItem) :
    Upserts markets (markets.upsert item).1 item.marketCode (markets.upsert item).2 := by
  unfold MarketTable.upsert
  split
  next market h =>
    have hmem := (find_eq_some_iff.mp h).1
    have hcode := (find_eq_some_iff.mp h).2
    refine ⟨⟨market.rename item, find_eq_some_iff.mpr ⟨?_, hcode⟩, rfl⟩, fun other hother => ?_,
      .inl ⟨market, h, rfl⟩, le_rfl, markets.le_last market hmem⟩
    · simp only [IdentityTable.update_rows, mem_map]
      exact ⟨market, hmem, if_pos (by simpa using hcode)⟩
    · ext row
      simp only [find_eq_some_iff, IdentityTable.update_rows, mem_map, decide_eq_true_eq]
      constructor
      · rintro ⟨⟨old, hold, rfl⟩, hrow⟩
        split_ifs at hrow ⊢ with hlisted
        · exact absurd (hrow.symm.trans hlisted) hother
        · exact ⟨hold, hrow⟩
      · rintro ⟨hrow, hcode⟩
        exact ⟨⟨row, hrow, if_neg (hcode ▸ hother)⟩, hcode⟩
  next h =>
    refine ⟨⟨listedMarket item (markets.last + 1), find_eq_some_iff.mpr ⟨?_, rfl⟩, rfl⟩,
      fun other hother => ?_, .inr ⟨h, lt_add_one _⟩, (lt_add_one _).le, le_rfl⟩
    · simp [IdentityTable.insert_rows]
    · simp [MarketTable.find, IdentityTable.insert_rows, List.find?_append, listedMarket,
        hother.symm]

/-- The rows of each market succeed one another, and rows belong to a market. -/
structure SoundHistory (db : HistoryDatabase) : Prop where
  successive : ∀ marketId, Successive (db.rowsOf marketId)
  referenced : ∀ marketId, db.markets.last < marketId → db.rowsOf marketId = []

theorem rowsOfCode_of_find {market : StatusHistory.MarketRow}
    (h : db.markets.find marketCode = some market) :
    db.rowsOfCode marketCode = db.rowsOf market.id := by
  simp [HistoryDatabase.rowsOfCode, h]

theorem SoundHistory.rowsOfCode (h : SoundHistory db) (marketCode : String) :
    Successive (db.rowsOfCode marketCode) := by
  unfold HistoryDatabase.rowsOfCode
  cases db.markets.find marketCode with
  | none => exact succession_nil
  | some market => exact h.successive market.id

theorem recordInto_successive {rows : List StatusRow} {new : StatusRow} (h : Successive rows)
    (hbefore : ∀ row ∈ rows, row.validFrom < new.validFrom) (hopen : new.validTo = none) :
    Successive (recordInto rows new) := by
  unfold recordInto
  split_ifs
  · exact h
  · exact h.supersede (StatusRow.close_validFrom _) (StatusRow.close_validTo _) hbefore hopen

/-- The status is recorded into the rows. -/
def Recorded (sha256 : String → String) (status : MarketStatus) (observedAt : Instant)
    (rows rows' : List StatusRow) : Prop :=
  ∃ marketId id, rows' = recordInto rows (newRow sha256 marketId status observedAt id)

/-- What a round of the loop leaves of the markets of the other codes. -/
def SameCode (db db' : HistoryDatabase) (marketCode : String) : Prop :=
  db'.markets.find marketCode = db.markets.find marketCode ∧
    db'.rowsOfCode marketCode = db.rowsOfCode marketCode

/-- The code has a market of an observed id. -/
def Observed (db : HistoryDatabase) (marketCode : String) (marketId : ℤ) : Prop :=
  ∃ market, db.markets.find marketCode = some market ∧ market.id = marketId

/-- What the sync of an item does to the rows of its code. -/
theorem syncItem_rows (sha256 : String → String) {item : CatalogItem} (ids : List ℤ)
    (h : SoundHistory db) (hcode : validCode item.marketCode = true)
    (hbefore : ∀ row ∈ db.rowsOfCode item.marketCode, row.validFrom < observedAt) :
    ∃ db' marketId, syncItem sha256 observedAt (db, ids) item = .ok (db', marketId :: ids) ∧
      SoundHistory db' ∧ Observed db' item.marketCode marketId ∧
      Recorded sha256 item.status observedAt (db.rowsOfCode item.marketCode)
        (db'.rowsOfCode item.marketCode) ∧
      ∀ other, other ≠ item.marketCode → SameCode db db' other := by
  have hupsert := upsert_upserts db.markets item
  generalize hresult : db.markets.upsert item = result at hupsert
  obtain ⟨markets, marketId⟩ := result
  simp only at hupsert
  -- the rows of the market before: those of a known one, none of a new one
  have hold : db.rowsOfCode item.marketCode = db.rowsOf marketId := by
    obtain ⟨market, hfind, rfl⟩ | ⟨hnone, hlt⟩ := hupsert.known
    · exact rowsOfCode_of_find hfind
    · simp [HistoryDatabase.rowsOfCode, hnone, h.referenced marketId hlt]
  have hrowsOf : ({ db with markets := markets } : HistoryDatabase).rowsOf marketId =
      db.rowsOf marketId := rfl
  have hsuccessive := h.successive marketId
  rw [← hrowsOf] at hsuccessive hold
  obtain ⟨db', id, hrecord, hwrites⟩ :=
    recordStatusRevision_rows sha256 item.status hsuccessive (hold ▸ hbefore)
  rw [hrowsOf] at hwrites hold
  obtain ⟨market, hfind, hid⟩ := hupsert.found
  have hfind' : db'.markets.find item.marketCode = some market := by rw [hwrites.markets, hfind]
  refine ⟨db', marketId, ?_, ⟨fun other => ?_, fun other hlt => ?_⟩, ⟨market, hfind', hid⟩,
    ⟨marketId, id, ?_⟩, fun other hother => ?_⟩
  · simp only [syncItem, hcode, if_true, hresult, hrecord]
    rfl
  · by_cases hother : other = marketId
    · rw [hother, hwrites.rows]
      exact recordInto_successive (h.successive marketId) (hold ▸ hbefore) rfl
    · rw [hwrites.others other hother]
      exact h.successive other
  · rw [hwrites.markets] at hlt
    rw [hwrites.others other (hupsert.le_last.2.trans_lt hlt).ne']
    exact h.referenced other (hupsert.le_last.1.trans_lt hlt)
  · rw [rowsOfCode_of_find hfind', hid, hwrites.rows, hold]
  · have hsame : db'.markets.find other = db.markets.find other := by
      rw [hwrites.markets]
      exact hupsert.others other hother
    refine ⟨hsame, ?_⟩
    rw [HistoryDatabase.rowsOfCode, HistoryDatabase.rowsOfCode, hsame]
    cases hcase : db.markets.find other with
    | none => rfl
    | some market' =>
      obtain ⟨hmem, hcode'⟩ := find_eq_some_iff.mp hcase
      refine hwrites.others market'.id fun heq => ?_
      obtain ⟨known, hknown, hsameId⟩ | ⟨-, hlt⟩ := hupsert.known
      · obtain ⟨hmem', hcode''⟩ := find_eq_some_iff.mp hknown
        have := IdentityTable.eq_of_key hmem hmem' (heq.trans hsameId.symm)
        exact hother (hcode'.symm.trans (this ▸ hcode''))
      · exact absurd (db.markets.le_last market' hmem) (not_le.mpr (heq ▸ hlt))

theorem SameCode.trans {db₁ db₂ db₃ : HistoryDatabase} (h : SameCode db₁ db₂ marketCode)
    (h' : SameCode db₂ db₃ marketCode) : SameCode db₁ db₃ marketCode :=
  ⟨h'.1.trans h.1, h'.2.trans h.2⟩

theorem SameCode.observed {db₁ db₂ : HistoryDatabase} (h : SameCode db₁ db₂ marketCode) :
    Observed db₂ marketCode marketId ↔ Observed db₁ marketCode marketId := by
  rw [Observed, Observed, h.1]

/-- The loop over the catalog records the status of each item. -/
theorem syncItems_rows (sha256 : String → String) {catalog : List CatalogItem} (ids : List ℤ)
    (h : SoundHistory db) (hcodes : (catalog.map CatalogItem.marketCode).Nodup)
    (hvalid : ∀ item ∈ catalog, validCode item.marketCode = true)
    (hbefore : ∀ marketCode, ∀ row ∈ db.rowsOfCode marketCode, row.validFrom < observedAt) :
    ∃ db' ids', catalog.foldlM (syncItem sha256 observedAt) (db, ids) = .ok (db', ids') ∧
      SoundHistory db' ∧
      (∀ item ∈ catalog, Recorded sha256 item.status observedAt (db.rowsOfCode item.marketCode)
        (db'.rowsOfCode item.marketCode)) ∧
      (∀ marketCode ∉ catalog.map CatalogItem.marketCode, SameCode db db' marketCode) ∧
      (∀ item ∈ catalog, ∃ marketId, Observed db' item.marketCode marketId) ∧
      ∀ marketId, marketId ∈ ids' ↔ marketId ∈ ids ∨
        ∃ item ∈ catalog, Observed db' item.marketCode marketId := by
  -- only the codes of the items still to come are asked for what begins before
  have hbefore' : ∀ item ∈ catalog, ∀ row ∈ db.rowsOfCode item.marketCode,
      row.validFrom < observedAt := fun item _ => hbefore item.marketCode
  clear hbefore
  induction catalog generalizing db ids with
  | nil => exact ⟨db, ids, rfl, h, by simp, fun _ _ => ⟨rfl, rfl⟩, by simp, by simp⟩
  | cons item catalog ih =>
    rw [map_cons, nodup_cons] at hcodes
    rw [forall_mem_cons] at hvalid hbefore'
    obtain ⟨db₁, marketId, hstep, hsound, hobserved, hrecorded, hothers⟩ :=
      syncItem_rows sha256 ids h hvalid.1 hbefore'.1
    have hne : ∀ other ∈ catalog, other.marketCode ≠ item.marketCode := fun other hother heq =>
      hcodes.1 (heq ▸ mem_map_of_mem hother)
    obtain ⟨db', ids', hloop, hsound', hrecorded', hothers', hobserved', hids⟩ :=
      ih (marketId :: ids) hsound hcodes.2 hvalid.2 fun other hother => by
        rw [(hothers _ (hne other hother)).2]
        exact hbefore'.2 other hother
    have hsame : SameCode db₁ db' item.marketCode := hothers' item.marketCode hcodes.1
    refine ⟨db', ids', ?_, hsound', ?_, ?_,
      forall_mem_cons.mpr ⟨⟨marketId, hsame.observed.mpr hobserved⟩, hobserved'⟩, ?_⟩
    · rw [foldlM_cons, hstep]
      exact hloop
    · rw [forall_mem_cons]
      refine ⟨?_, fun other hother => ?_⟩
      · rw [hsame.2]
        exact hrecorded
      · rw [← (hothers _ (hne other hother)).2]
        exact hrecorded' other hother
    · intro marketCode hunlisted
      rw [map_cons, mem_cons, not_or] at hunlisted
      exact (hothers _ hunlisted.1).trans (hothers' _ hunlisted.2)
    · intro id
      have hfirst : Observed db' item.marketCode id ↔ id = marketId := by
        rw [hsame.observed]
        obtain ⟨market, hfind, hid⟩ := hobserved
        rw [Observed, hfind]
        simp [hid, eq_comm]
      rw [hids, mem_cons, exists_mem_cons_iff, hfirst]
      tauto

/-- The last row of the market says that it is active. -/
def LastActive (rows : List StatusRow) : Prop :=
  ∃ a ∈ rows.getLast?, a.status.tradingStatus = .active

instance (rows : List StatusRow) : Decidable (LastActive rows) := by
  unfold LastActive
  infer_instance

/-- A history has one open row at most, so the join has each market once. -/
theorem missingMarkets_eq (h : SoundHistory db) (ids : List ℤ) :
    missingMarkets db ids = db.markets.rows.filter fun market =>
      LastActive (db.rowsOf market.id) ∧ market.id ∉ ids := by
  have hjoin : ∀ market : StatusHistory.MarketRow, ((db.rowsOf market.id).filter fun row =>
      row.validTo = none ∧ row.status.tradingStatus = .active ∧ market.id ∉ ids).map
        (fun _ => market) =
      if LastActive (db.rowsOf market.id) ∧ market.id ∉ ids then [market] else [] := by
    intro market
    have hsucc := h.successive market.id
    obtain hnil | ⟨l, a, hrows⟩ := (db.rowsOf market.id).eq_nil_or_concat'
    · simp [hnil, LastActive]
    · rw [hrows] at hsucc ⊢
      have hclosed : l.filter (fun row => row.validTo = none ∧
          row.status.tradingStatus = .active ∧ market.id ∉ ids) = [] := by
        refine filter_eq_nil_iff.mpr fun row hrow => ?_
        obtain ⟨-, e, he, -⟩ := (pairwise_append.mp hsucc.pairwise).2.2 row hrow a (by simp)
        simp [Option.mem_def.mp he]
      have hopen := hsucc.last_open a (by simp)
      simp only [filter_append, hclosed, nil_append, filter_cons, filter_nil,
        hopen, LastActive, List.getLast?_concat, Option.mem_def, Option.some.injEq,
        exists_eq_left', true_and, decide_eq_true_eq]
      split_ifs <;> rfl
  simp only [missingMarkets, hjoin]
  induction db.markets.rows with
  | nil => rfl
  | cons market rows ih =>
    rw [flatMap_cons, filter_cons, ih]
    split_ifs <;> simp_all

/-- The loop over the missing markets records their new status. -/
theorem markMissing_rows (sha256 : String → String) {missing : List StatusHistory.MarketRow}
    (hids : (missing.map StatusHistory.MarketRow.id).Nodup)
    (hsucc : ∀ market ∈ missing, Successive (db.rowsOf market.id))
    (hbefore : ∀ market ∈ missing, ∀ row ∈ db.rowsOf market.id, row.validFrom < observedAt) :
    ∃ db', missing.foldlM (fun db market =>
        recordStatusRevision sha256 db market.id missingStatus observedAt) db = .ok db' ∧
      db'.markets = db.markets ∧
      (∀ market ∈ missing, ∃ id, db'.rowsOf market.id = recordInto (db.rowsOf market.id)
        (newRow sha256 market.id missingStatus observedAt id)) ∧
      ∀ marketId ∉ missing.map StatusHistory.MarketRow.id,
        db'.rowsOf marketId = db.rowsOf marketId := by
  induction missing generalizing db with
  | nil => exact ⟨db, rfl, rfl, by simp, fun _ _ => rfl⟩
  | cons market missing ih =>
    rw [map_cons, nodup_cons] at hids
    rw [forall_mem_cons] at hsucc hbefore
    obtain ⟨db₁, id, hstep, hwrites⟩ :=
      recordStatusRevision_rows sha256 missingStatus hsucc.1 hbefore.1
    have hothers : ∀ other ∈ missing, db₁.rowsOf other.id = db.rowsOf other.id :=
      fun other hother => hwrites.others other.id fun heq =>
        hids.1 (heq ▸ mem_map_of_mem hother)
    obtain ⟨db', hloop, hmarkets, hrecorded, hkept⟩ := ih hids.2
      (fun other hother => by rw [hothers other hother]; exact hsucc.2 other hother)
      (fun other hother => by rw [hothers other hother]; exact hbefore.2 other hother)
    refine ⟨db', ?_, hmarkets.trans hwrites.markets, ?_, fun other hother => ?_⟩
    · rw [foldlM_cons, hstep]
      exact hloop
    · rw [forall_mem_cons]
      refine ⟨⟨id, ?_⟩, fun other hother => ?_⟩
      · rw [hkept market.id hids.1, hwrites.rows]
      · rw [← hothers other hother]
        exact hrecorded other hother
    · rw [map_cons, mem_cons, not_or] at hother
      rw [hkept other hother.2, hwrites.others other hother.1]

/-- The catalog is one that the sync does not refuse. -/
structure Accepted (call : CatalogCall) : Prop where
  ne_nil : call.catalog ≠ []
  codes : (call.catalog.map CatalogItem.marketCode).Nodup
  valid : ∀ item ∈ call.catalog, validCode item.marketCode = true

instance (call : CatalogCall) : Decidable (Accepted call) :=
  decidable_of_iff (call.catalog ≠ [] ∧ (call.catalog.map CatalogItem.marketCode).Nodup ∧
    ∀ item ∈ call.catalog, validCode item.marketCode = true)
    ⟨fun ⟨h₁, h₂, h₃⟩ => ⟨h₁, h₂, h₃⟩, fun h => ⟨h.ne_nil, h.codes, h.valid⟩⟩

/-- What an accepted call makes of the rows of a code. -/
structure Synced (sha256 : String → String) (call : CatalogCall) (marketCode : String)
    (rows rows' : List StatusRow) : Prop where
  listed : ∀ item ∈ call.catalog, item.marketCode = marketCode →
    Recorded sha256 item.status call.observedAt rows rows'
  missing : marketCode ∉ call.catalog.map CatalogItem.marketCode → LastActive rows →
    Recorded sha256 missingStatus call.observedAt rows rows'
  unchanged : marketCode ∉ call.catalog.map CatalogItem.marketCode → ¬ LastActive rows →
    rows' = rows

/-- What a sync does to the rows of every code. -/
theorem syncMarketCatalog_rows (sha256 : String → String) {call : CatalogCall}
    (hcall : Accepted call) (h : SoundHistory db)
    (hbefore : ∀ marketCode, ∀ row ∈ db.rowsOfCode marketCode, row.validFrom < call.observedAt) :
    ∃ db', syncMarketCatalog sha256 db call.catalog call.observedAt = .ok db' ∧ SoundHistory db' ∧
      ∀ marketCode, Synced sha256 call marketCode (db.rowsOfCode marketCode)
        (db'.rowsOfCode marketCode) := by
  obtain ⟨synced, ids, hloop, hsound, hrecorded, hsame, hobserved, hids⟩ :=
    syncItems_rows sha256 [] h hcall.codes hcall.valid hbefore
  simp only [not_mem_nil, false_or] at hids
  -- the markets observed are those whose code is listed
  have hlisted : ∀ market ∈ synced.markets.rows, market.id ∈ ids ↔
      market.marketCode ∈ call.catalog.map CatalogItem.marketCode := by
    intro market hmarket
    rw [hids, mem_map]
    refine exists_congr fun item => and_congr_right fun _ => ⟨?_, fun hcode => ?_⟩
    · rintro ⟨other, hfind, hid⟩
      obtain ⟨hother, hcode⟩ := find_eq_some_iff.mp hfind
      rw [← IdentityTable.eq_of_key hother hmarket hid, hcode]
    · exact ⟨market, find_eq_some_iff.mpr ⟨hmarket, hcode.symm⟩, rfl⟩
  have hmissing : ∀ market, market ∈ missingMarkets synced ids ↔ market ∈ synced.markets.rows ∧
      LastActive (synced.rowsOf market.id) ∧
        market.marketCode ∉ call.catalog.map CatalogItem.marketCode := by
    intro market
    rw [missingMarkets_eq hsound, mem_filter, decide_eq_true_eq]
    exact and_congr_right fun hmarket => by rw [hlisted market hmarket]
  have hrows : ∀ market ∈ synced.markets.rows,
      synced.rowsOfCode market.marketCode = synced.rowsOf market.id := fun market hmarket =>
    rowsOfCode_of_find (find_eq_some_iff.mpr ⟨hmarket, rfl⟩)
  have hdistinct : ((missingMarkets synced ids).map StatusHistory.MarketRow.id).Nodup := by
    rw [missingMarkets_eq hsound]
    exact synced.markets.nodup_keys.sublist (filter_sublist.map _)
  have hbegun : ∀ market ∈ missingMarkets synced ids, ∀ row ∈ synced.rowsOf market.id,
      row.validFrom < call.observedAt := by
    intro market hmarket
    obtain ⟨hmem, -, hunlisted⟩ := (hmissing market).mp hmarket
    rw [← hrows market hmem, (hsame _ hunlisted).2]
    exact hbefore market.marketCode
  obtain ⟨db', hmark, hmarkets, hmarked, hkept⟩ := markMissing_rows sha256 hdistinct
    (fun market _ => hsound.successive market.id) hbegun
  have hkept' : ∀ market ∈ synced.markets.rows, market ∉ missingMarkets synced ids →
      db'.rowsOf market.id = synced.rowsOf market.id := by
    intro market hmarket hnot
    refine hkept market.id fun hmem => ?_
    obtain ⟨other, hother, hid⟩ := mem_map.mp hmem
    exact hnot (IdentityTable.eq_of_key ((hmissing other).mp hother).1 hmarket hid ▸ hother)
  have hcode : ∀ marketCode,
      if marketCode ∉ call.catalog.map CatalogItem.marketCode ∧
        LastActive (synced.rowsOfCode marketCode) then
        Recorded sha256 missingStatus call.observedAt (synced.rowsOfCode marketCode)
          (db'.rowsOfCode marketCode)
      else db'.rowsOfCode marketCode = synced.rowsOfCode marketCode := by
    intro marketCode
    cases hfind : synced.markets.find marketCode with
    | none => simp [HistoryDatabase.rowsOfCode, hmarkets, hfind, LastActive]
    | some market =>
      obtain ⟨hmarket, rfl⟩ := find_eq_some_iff.mp hfind
      rw [rowsOfCode_of_find (hmarkets ▸ hfind : db'.markets.find market.marketCode = some market),
        hrows market hmarket]
      split_ifs with hactive
      · obtain ⟨id, hmark'⟩ := hmarked market ((hmissing market).mpr
          ⟨hmarket, hactive.2, hactive.1⟩)
        exact ⟨market.id, id, hmark'⟩
      · refine hkept' market hmarket fun hmem => hactive ?_
        exact ⟨((hmissing market).mp hmem).2.2, ((hmissing market).mp hmem).2.1⟩
  refine ⟨db', ?_, ⟨fun marketId => ?_, fun marketId hlt => ?_⟩, fun marketCode => ?_⟩
  · have hids' : ids ≠ [] := by
      obtain ⟨item, hitem⟩ := exists_mem_of_ne_nil _ hcall.ne_nil
      obtain ⟨marketId, hmem⟩ := hobserved item hitem
      exact ne_nil_of_mem ((hids marketId).mpr ⟨item, hitem, hmem⟩)
    rw [syncMarketCatalog, if_neg hcall.ne_nil, if_neg (not_not.mpr hcall.codes), hloop]
    simp only [bind, Except.bind, markMissingMarketsInactive, if_neg hids']
    exact hmark
  · by_cases hmem : marketId ∈ (missingMarkets synced ids).map StatusHistory.MarketRow.id
    · obtain ⟨market, hmarket, rfl⟩ := mem_map.mp hmem
      obtain ⟨id, hmark'⟩ := hmarked market hmarket
      rw [hmark']
      exact recordInto_successive (hsound.successive market.id) (hbegun market hmarket) rfl
    · rw [hkept marketId hmem]
      exact hsound.successive marketId
  · rw [hmarkets] at hlt
    rw [hkept marketId, hsound.referenced marketId hlt]
    intro hmem
    obtain ⟨market, hmarket, rfl⟩ := mem_map.mp hmem
    exact absurd (synced.markets.le_last market ((hmissing market).mp hmarket).1)
      (not_le.mpr hlt)
  · have hcode' := hcode marketCode
    constructor
    · rintro item hitem rfl
      rw [if_neg fun hmiss => hmiss.1 (mem_map_of_mem hitem)] at hcode'
      rw [hcode']
      exact hrecorded item hitem
    · intro hunlisted hactive
      rw [← (hsame marketCode hunlisted).2] at hactive ⊢
      rwa [if_pos ⟨hunlisted, hactive⟩] at hcode'
    · intro hunlisted hactive
      rw [← (hsame marketCode hunlisted).2] at hactive ⊢
      rwa [if_neg fun hmiss => hactive hmiss.2] at hcode'

end Goodmoneying.Analysis.StatusHistory
