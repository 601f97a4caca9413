import Mathlib.Logic.Encodable.Basic
import Mathlib.Logic.Equiv.List
import Goodmoneying.Program.MarketCatalog

/-!
# Collection states and subscription desires

What a catalog and a command of the operator make of the specs and the desires of one market
(`SyncedItem`, `MissingMarket`, `CommandedMarket`): a desire follows its spec and the trading status
of the market (`TargetAgrees`), the operator's decision about a spec survives the catalogs
(`Decided`), and generations count the changes of a desire (`DesireAdvances`).
-/

namespace Goodmoneying.Analysis

open List Library Program Program.MarketCatalog

variable {db db' : MarketDatabase} {market : Market} {code marketCode : String}
  {env : CatalogEnvironment} {item : MarketCatalogItem} {observedAt : Instant}
  {command : TargetStateCommand} {spec decision : TargetSpec}
variable {change : Market → Market}
  {hkey : ∀ market, (change market).marketCode = market.marketCode} {new : Bool}
variable (subscribed : Bool) (desire : SubscriptionDesire)

/-! ## Markets by their codes -/

/-- The current trading status of a market. -/
def tradingStatus (db : MarketDatabase) (marketCode : String) : Option TradingStatus :=
  ((db.market? marketCode).bind Market.history).map StatusRevision.tradingStatus

theorem market?_updateMarket (db : MarketDatabase) (code code' : String) (change : Market → Market)
    (hkey : ∀ market, (change market).marketCode = market.marketCode) :
    (db.updateMarket code change hkey).market? code' =
      (db.market? code').map fun market => if code' = code then change market else market :=
  KeyedTable.find_update_key db.markets code code' change hkey

theorem market?_of_mem (h : market ∈ db.markets.rows) :
    db.market? market.marketCode = some market :=
  (KeyedTable.find_eq_some_iff (k := market.marketCode) (by simp)).mpr ⟨h, by simp⟩

/-- The market of an item is there, and the others are as they were. -/
theorem upsertMarket_market? (db : MarketDatabase) (item : MarketCatalogItem) :
    (∃ market, (upsertMarket db item).market? item.marketCode = some market ∧
      market.history = (db.market? item.marketCode).bind Market.history) ∧
    ∀ code, code ≠ item.marketCode → (upsertMarket db item).market? code = db.market? code := by
  unfold upsertMarket
  split_ifs with hmem
  · obtain ⟨market, hmarket, hcode⟩ := any_eq_true.mp hmem
    have hfound : db.market? item.marketCode = some market :=
      of_decide_eq_true hcode ▸ market?_of_mem hmarket
    refine ⟨?_, fun code hne => ?_⟩
    · rw [market?_updateMarket, hfound]
      exact ⟨_, rfl, by simp⟩
    · rw [market?_updateMarket]
      simp [hne]
  · have hnone : db.market? item.marketCode = none := by
      refine KeyedTable.find_eq_none_iff.mpr fun row hrow => ?_
      rw [any_eq_true, not_exists] at hmem
      exact Bool.eq_false_iff.mpr fun hcode => hmem row ⟨hrow, hcode⟩
    have hinsert : ∀ code, MarketDatabase.market? { db with
        markets := db.markets.insert (listedMarket item) (KeyedTable.not_mem_keys hmem) } code =
        (db.market? code).or
          (if item.marketCode = code then some (listedMarket item) else none) :=
      KeyedTable.find_insert_key db.markets (listedMarket item) (KeyedTable.not_mem_keys hmem)
    refine ⟨⟨listedMarket item, ?_, ?_⟩, fun code hne => ?_⟩
    · rw [hinsert, hnone, if_pos rfl, Option.none_or]
    · rw [hnone]
      rfl
    · rw [hinsert, if_neg fun h => hne h.symm, Option.or_none]

/-! ## What happens to one market -/

/-- The current revisions of the markets come from items of a catalog. -/
def RevisionsSound (env : CatalogEnvironment) (db : MarketDatabase) : Prop :=
  ∀ code revision, (db.market? code).bind Market.history = some revision →
    ∃ item, revision.sourcePayloadChecksum = env.statusChecksum item ∧
      revision.tradingStatus = itemStatus item.tradable

/-- Items with different tradability have different checksums: the digest has no collision
there. -/
def ChecksumTells (env : CatalogEnvironment) : Prop :=
  ∀ item item', env.statusChecksum item = env.statusChecksum item' →
    item.tradable = item'.tradable

/-- Only the rows of one market have changed. -/
structure OnlyMarket (db db' : MarketDatabase) (marketCode : String) : Prop where
  status : ∀ code, code ≠ marketCode → tradingStatus db' code = tradingStatus db code
  specs : ∀ code, code ≠ marketCode → db'.specs code = db.specs code
  desires : ∀ code, code ≠ marketCode → db'.desires code = db.desires code

/-- A market is listed with an item. -/
structure RecordedItem (env : CatalogEnvironment) (db db' : MarketDatabase)
    (item : MarketCatalogItem) : Prop where
  revisions : RevisionsSound env db → RevisionsSound env db'
  status : RevisionsSound env db → ChecksumTells env →
    tradingStatus db' item.marketCode = some (itemStatus item.tradable)
  others : ∀ code, code ≠ item.marketCode → tradingStatus db' code = tradingStatus db code
  specs : db'.specs = db.specs
  desires : db'.desires = db.desires

theorem market?_updateMarket_isSome (code' : String) :
    ((db.updateMarket code change hkey).market? code').isSome = (db.market? code').isSome := by
  rw [market?_updateMarket, Option.isSome_map]

/-- A revision leaves every market in its table. -/
theorem recordStatusRevision_present (h : recordStatusRevision env db item observedAt = .ok db')
    (code : String) : (db'.market? code).isSome = (db.market? code).isSome := by
  unfold recordStatusRevision at h
  cases hcurrent : (db.market? item.marketCode).bind Market.history with
  | none =>
    simp only [hcurrent, Except.ok.injEq] at h
    exact h ▸ market?_updateMarket_isSome code
  | some current =>
    simp only [hcurrent] at h
    split_ifs at h
    · exact Except.ok.inj h ▸ rfl
    · exact Except.ok.inj h ▸ market?_updateMarket_isSome code

/-- What recording a revision of the status does. -/
theorem recordStatusRevision_spec (hmarket : db.market? item.marketCode = some market)
    (h : recordStatusRevision env db item observedAt = .ok db') : RecordedItem env db db' item := by
  have hrecorded : ∀ revision : StatusRevision,
      revision.sourcePayloadChecksum = env.statusChecksum item →
      revision.tradingStatus = itemStatus item.tradable →
      RecordedItem env db (db.updateMarket item.marketCode
        (fun market => { market with history := some revision }) fun _ => rfl) item := by
    intro revision hsum htrading
    have hrow : ∀ code, (((db.updateMarket item.marketCode
        (fun market => { market with history := some revision }) fun _ => rfl).market? code).bind
          Market.history) = if code = item.marketCode then some revision
            else (db.market? code).bind Market.history := by
      intro code
      rw [market?_updateMarket]
      by_cases hcode : code = item.marketCode
      · simp [hcode, hmarket]
      · simp [hcode]
    exact {
      revisions := fun hsound code current hcurrent => by
        rw [hrow] at hcurrent
        split_ifs at hcurrent with hcode
        · obtain rfl := Option.some.inj hcurrent
          exact ⟨item, hsum, htrading⟩
        · exact hsound code current hcurrent
      status := fun _ _ => by rw [tradingStatus, hrow, if_pos rfl, Option.map_some, htrading]
      others := fun code hne => by rw [tradingStatus, hrow, if_neg hne, tradingStatus]
      specs := rfl
      desires := rfl }
  unfold recordStatusRevision at h
  cases hcurrent : (db.market? item.marketCode).bind Market.history with
  | none =>
    simp only [hcurrent, Except.ok.injEq] at h
    exact h ▸ hrecorded _ rfl rfl
  | some current =>
    simp only [hcurrent] at h
    split_ifs at h with hsame hlate
    · obtain rfl := Except.ok.inj h
      refine ⟨id, fun hsound htells => ?_, fun _ _ => rfl, rfl, rfl⟩
      obtain ⟨source, hsource, htrading⟩ := hsound item.marketCode current hcurrent
      rw [tradingStatus, hcurrent, Option.map_some, htrading,
        htells source item (hsource.symm.trans hsame)]
    · exact Except.ok.inj h ▸ hrecorded _ rfl rfl

theorem syncMarket_spec (h : syncMarket env db item observedAt = .ok db') :
    RecordedItem env db db' item := by
  unfold syncMarket at h
  simp only at h
  split_ifs at h
  obtain ⟨⟨market, hmarket, hhistory⟩, hothers⟩ := upsertMarket_market? db item
  have hrecorded := recordStatusRevision_spec hmarket h
  have hbind : ∀ code, ((upsertMarket db item).market? code).bind Market.history =
      (db.market? code).bind Market.history := by
    intro code
    by_cases hcode : code = item.marketCode
    · rw [hcode, hmarket, Option.bind_some, hhistory]
    · rw [hothers code hcode]
  have hrows : RevisionsSound env db → RevisionsSound env (upsertMarket db item) :=
    fun hsound code revision hrevision => hsound code revision (hbind code ▸ hrevision)
  have hspecs : (upsertMarket db item).specs = db.specs := by unfold upsertMarket; split_ifs <;> rfl
  have hdesires : (upsertMarket db item).desires = db.desires := by
    unfold upsertMarket; split_ifs <;> rfl
  exact {
    revisions := fun hsound => hrecorded.revisions (hrows hsound)
    status := fun hsound htells => hrecorded.status (hrows hsound) htells
    others := fun code hne => by rw [hrecorded.others code hne, tradingStatus, hbind, tradingStatus]
    specs := hrecorded.specs.trans hspecs
    desires := hrecorded.desires.trans hdesires }

/-! ## The specs of a listed market -/

section Targets

variable (env : CatalogEnvironment) (item : MarketCatalogItem) (observedAt : Instant)
variable {types : List DataType}

/-- The desire of a data type after the sync. -/
def syncedDesireOf (db : MarketDatabase) (dataType : DataType) : SubscriptionDesire :=
  let spec := syncedSpec item dataType (db.specs item.marketCode dataType)
  syncedDesire (spec.status = .active && item.tradable && spec.continuous)
    (db.desires item.marketCode dataType)

theorem syncTarget_tables (state : MarketDatabase × Bool) (dataType : DataType) :
    (syncTarget env item observedAt state dataType).1.specs =
      Function.update state.1.specs item.marketCode
        (Function.update (state.1.specs item.marketCode) dataType
          (some (syncedSpec item dataType (state.1.specs item.marketCode dataType)))) ∧
    (syncTarget env item observedAt state dataType).1.desires =
      Function.update state.1.desires item.marketCode
        (Function.update (state.1.desires item.marketCode) dataType
          (some (syncedDesireOf item state.1 dataType))) ∧
    (syncTarget env item observedAt state dataType).1.markets = state.1.markets := by
  unfold syncTarget
  simp only
  split_ifs <;> exact ⟨rfl, rfl, rfl⟩

/-- A round for another data type comes to the same spec and desire of this one. -/
theorem syncTarget_other {state : MarketDatabase × Bool} {dataType other : DataType}
    (hne : other ≠ dataType) :
    (syncTarget env item observedAt state other).1.specs item.marketCode dataType =
      state.1.specs item.marketCode dataType ∧
    (syncTarget env item observedAt state other).1.desires item.marketCode dataType =
      state.1.desires item.marketCode dataType := by
  obtain ⟨hspecs, hdesires, -⟩ := syncTarget_tables env item observedAt state other
  simp [hspecs, hdesires, Function.update_of_ne hne.symm]

theorem foldl_syncTarget_other (types : List DataType) (state : MarketDatabase × Bool) :
    (types.foldl (syncTarget env item observedAt) state).1.markets = state.1.markets ∧
    ∀ code, code ≠ item.marketCode →
      (types.foldl (syncTarget env item observedAt) state).1.specs code = state.1.specs code ∧
      (types.foldl (syncTarget env item observedAt) state).1.desires code =
        state.1.desires code := by
  induction types generalizing state with
  | nil => exact ⟨rfl, fun _ _ => ⟨rfl, rfl⟩⟩
  | cons dataType types ih =>
    obtain ⟨hspecs, hdesires, hmarkets⟩ := syncTarget_tables env item observedAt state dataType
    obtain ⟨hmarkets', hothers⟩ := ih (syncTarget env item observedAt state dataType)
    refine ⟨hmarkets'.trans hmarkets, fun code hne => ?_⟩
    obtain ⟨hspecs', hdesires'⟩ := hothers code hne
    exact ⟨by rw [foldl_cons, hspecs', hspecs, Function.update_of_ne hne],
      by rw [foldl_cons, hdesires', hdesires, Function.update_of_ne hne]⟩

theorem foldl_syncTarget_same {dataType : DataType} (hnot : dataType ∉ types)
    (state : MarketDatabase × Bool) :
    (types.foldl (syncTarget env item observedAt) state).1.specs item.marketCode dataType =
      state.1.specs item.marketCode dataType ∧
    (types.foldl (syncTarget env item observedAt) state).1.desires item.marketCode dataType =
      state.1.desires item.marketCode dataType := by
  induction types generalizing state with
  | nil => exact ⟨rfl, rfl⟩
  | cons other types ih =>
    rw [mem_cons, not_or] at hnot
    obtain ⟨hspec, hdesire⟩ := ih hnot.2 (syncTarget env item observedAt state other)
    obtain ⟨hother, hother'⟩ := syncTarget_other env item observedAt (Ne.symm hnot.1)
    exact ⟨hspec.trans hother, hdesire.trans hother'⟩

/-- After the loop each of its data types has been synced once. -/
theorem foldl_syncTarget_spec (hnodup : types.Nodup) {dataType : DataType} (hmem : dataType ∈ types)
    (state : MarketDatabase × Bool) :
    (types.foldl (syncTarget env item observedAt) state).1.specs item.marketCode dataType =
      some (syncedSpec item dataType (state.1.specs item.marketCode dataType)) ∧
    (types.foldl (syncTarget env item observedAt) state).1.desires item.marketCode dataType =
      some (syncedDesireOf item state.1 dataType) := by
  induction types generalizing state with
  | nil => cases hmem
  | cons first types ih =>
    obtain ⟨hfirst, hnodup⟩ := nodup_cons.mp hnodup
    obtain ⟨hspecs, hdesires, -⟩ := syncTarget_tables env item observedAt state first
    rcases mem_cons.mp hmem with rfl | hmem
    · obtain ⟨hspec, hdesire⟩ := foldl_syncTarget_same env item observedAt hfirst
        (syncTarget env item observedAt state dataType)
      rw [foldl_cons, hspec, hdesire, hspecs, hdesires]
      simp
    · have hne : first ≠ dataType := fun heq => hfirst (heq ▸ hmem)
      obtain ⟨hspec, hdesire⟩ := ih hnodup hmem (syncTarget env item observedAt state first)
      obtain ⟨hother, hother'⟩ := @syncTarget_other env item observedAt state _ _ hne
      rw [foldl_cons, hspec, hdesire]
      refine ⟨by rw [hother], ?_⟩
      simp only [syncedDesireOf, hother, hother']

end Targets

/-- What the catalog makes of the market of an item. -/
structure SyncedItem (env : CatalogEnvironment) (db db' : MarketDatabase)
    (item : MarketCatalogItem) : Prop where
  revisions : RevisionsSound env db → RevisionsSound env db'
  status : RevisionsSound env db → ChecksumTells env →
    tradingStatus db' item.marketCode = some (itemStatus item.tradable)
  others : OnlyMarket db db' item.marketCode
  collected : item.quoteCurrency = "KRW" → ∀ dataType,
    db'.specs item.marketCode dataType =
      some (syncedSpec item dataType (db.specs item.marketCode dataType)) ∧
    db'.desires item.marketCode dataType = some (syncedDesireOf item db dataType)
  uncollected : item.quoteCurrency ≠ "KRW" → db'.specs = db.specs ∧ db'.desires = db.desires

theorem nodup_defaults : DataType.defaults.Nodup := by decide

theorem mem_defaults (dataType : DataType) : dataType ∈ DataType.defaults := by
  cases dataType <;> decide

/-- The history of the markets does not depend on their collection. -/
theorem history_updateMarket (hhistory : ∀ market, (change market).history = market.history)
    (code' : String) : ((db.updateMarket code change hkey).market? code').bind Market.history =
      (db.market? code').bind Market.history := by
  rw [market?_updateMarket]
  cases db.market? code' with
  | none => rfl
  | some market =>
    simp only [Option.map_some, Option.bind_some]
    split_ifs
    · rw [hhistory]
    · rfl

theorem history_setCollectionTarget (db : MarketDatabase) (code : String) (active : Bool)
    (code' : String) : ((db.setCollectionTarget code active).market? code').bind Market.history =
      (db.market? code').bind Market.history := by
  refine history_updateMarket ?_ code'
  intro market
  rfl

theorem history_ensureLegacyCollectionTarget (db : MarketDatabase) (item : MarketCatalogItem)
    (code : String) : ((ensureLegacyCollectionTarget db item).market? code).bind Market.history =
      (db.market? code).bind Market.history := by
  refine history_updateMarket ?_ code
  intro market
  rfl

/-- The collection of a market changes its specs and desires, and no history. -/
theorem syncCollection_spec (env : CatalogEnvironment) (db : MarketDatabase)
    (item : MarketCatalogItem) (observedAt : Instant) :
    (∀ code, ((syncCollection env db item observedAt).market? code).bind Market.history =
      (db.market? code).bind Market.history) ∧
    (∀ code, code ≠ item.marketCode →
      (syncCollection env db item observedAt).specs code = db.specs code ∧
      (syncCollection env db item observedAt).desires code = db.desires code) ∧
    ∀ dataType,
      (syncCollection env db item observedAt).specs item.marketCode dataType =
        some (syncedSpec item dataType (db.specs item.marketCode dataType)) ∧
      (syncCollection env db item observedAt).desires item.marketCode dataType =
        some (syncedDesireOf item db dataType) := by
  have hstart : (ensureLegacyCollectionTarget db item).specs = db.specs ∧
      (ensureLegacyCollectionTarget db item).desires = db.desires := ⟨rfl, rfl⟩
  obtain ⟨hmarkets, hothers⟩ := foldl_syncTarget_other env item observedAt DataType.defaults
    (ensureLegacyCollectionTarget db item, false)
  refine ⟨fun code => ?_, hothers, fun dataType => ?_⟩
  · refine (history_setCollectionTarget ..).trans ?_
    rw [MarketDatabase.market?, syncTargets, hmarkets]
    exact history_ensureLegacyCollectionTarget db item code
  · exact foldl_syncTarget_spec env item observedAt nodup_defaults (mem_defaults dataType)
      (ensureLegacyCollectionTarget db item, false)

/-- What the sync of an item does. -/
theorem syncItem_spec (h : syncItem env observedAt db item = .ok db') :
    SyncedItem env db db' item := by
  obtain ⟨recorded, hrecorded, h⟩ := bind_eq_ok.mp h
  have hmarket := syncMarket_spec hrecorded
  split_ifs at h with hquote
  · obtain rfl := pure_eq_ok.mp h
    exact {
      revisions := hmarket.revisions
      status := hmarket.status
      others := ⟨hmarket.others, fun code _ => by rw [hmarket.specs],
        fun code _ => by rw [hmarket.desires]⟩
      collected := fun hkrw => absurd hkrw hquote
      uncollected := fun _ => ⟨hmarket.specs, hmarket.desires⟩ }
  · obtain rfl := pure_eq_ok.mp h
    obtain ⟨hhistory, hothers, hsynced⟩ := syncCollection_spec env recorded item observedAt
    have hstatus : ∀ code, tradingStatus
        (syncBackfillWork env (syncCollection env recorded item observedAt) item) code =
        tradingStatus recorded code := fun code => congrArg _ (hhistory code)
    exact {
      revisions := fun hsound code revision hrevision =>
        hmarket.revisions hsound code revision (hhistory code ▸ hrevision)
      status := fun hsound htells => (hstatus _).trans (hmarket.status hsound htells)
      others := ⟨fun code hne => (hstatus code).trans (hmarket.others code hne),
        fun code hne => (hothers code hne).1.trans (by rw [hmarket.specs]),
        fun code hne => (hothers code hne).2.trans (by rw [hmarket.desires])⟩
      collected := fun _ dataType => by
        obtain ⟨hspec, hdesire⟩ := hsynced dataType
        refine ⟨hspec.trans (by rw [hmarket.specs]), hdesire.trans ?_⟩
        simp only [syncedDesireOf, hmarket.specs, hmarket.desires]
      uncollected := fun hnot => absurd hnot hquote }

/-- What the catalog makes of a market that it no longer lists. -/
structure MissingMarket (env : CatalogEnvironment) (db db' : MarketDatabase)
    (marketCode : String) : Prop where
  present : ∀ code, (db'.market? code).isSome = (db.market? code).isSome
  revisions : RevisionsSound env db → RevisionsSound env db'
  status : RevisionsSound env db → ChecksumTells env →
    tradingStatus db' marketCode = some .inactive
  others : OnlyMarket db db' marketCode
  specs : ∀ dataType, db'.specs marketCode dataType =
    (db.specs marketCode dataType).map missingSpec
  desires : ∀ dataType, db'.desires marketCode dataType =
    (db.desires marketCode dataType).map missingDesire

/-- What marking a market missing does. -/
theorem markMissingMarket_spec (hmarket : (db.market? market.marketCode).isSome = true)
    (h : markMissingMarket env observedAt db market = .ok db') :
    MissingMarket env db db' market.marketCode := by
  obtain ⟨recorded, hrecorded, h⟩ := bind_eq_ok.mp h
  obtain rfl := pure_eq_ok.mp h
  obtain ⟨row, hrow⟩ := Option.isSome_iff_exists.mp hmarket
  have hspec := recordStatusRevision_spec hrow hrecorded
  have hhistory : ∀ (tables : MarketDatabase) (code : String),
      tables.markets = recorded.markets →
      ((tables.setCollectionTarget market.marketCode false).market? code).bind Market.history =
        (recorded.market? code).bind Market.history := by
    intro tables code hmarkets
    rw [history_setCollectionTarget, MarketDatabase.market?, hmarkets]
    rfl
  exact {
    present := fun code =>
      (market?_updateMarket_isSome code).trans (recordStatusRevision_present hrecorded code)
    revisions := fun hsound code revision hrevision =>
      hspec.revisions hsound code revision ((hhistory _ code rfl) ▸ hrevision)
    status := fun hsound htells =>
      (congrArg _ (hhistory _ _ rfl)).trans (hspec.status hsound htells)
    others := ⟨fun code hne => (congrArg _ (hhistory _ code rfl)).trans (hspec.others code hne),
      fun code hne => (Function.update_of_ne hne ..).trans (by rw [hspec.specs]),
      fun code hne => (Function.update_of_ne hne ..).trans (by rw [hspec.desires])⟩
    specs := fun dataType => by
      refine (congrFun (Function.update_self ..) dataType).trans ?_
      rw [hspec.specs]
    desires := fun dataType => by
      refine (congrFun (Function.update_self ..) dataType).trans ?_
      rw [hspec.desires] }

/-! ## The specs of a commanded market -/

/-- The desire of a data type after a command. -/
def commandedDesireOf (command : TargetStateCommand) (db : MarketDatabase) (dataType : DataType)
    (spec : TargetSpec) : SubscriptionDesire :=
  let selected := selectedDataTypes command (db.specs command.marketCode) dataType
  commandedDesire
    (selected && command.state = .active &&
      (configuredSpec command.policy dataType spec).continuous)
    (policyChanged command selected dataType spec) (db.desires command.marketCode dataType)

/-- What a command makes of its market. -/
structure CommandedMarket (db db' : MarketDatabase) (command : TargetStateCommand) : Prop where
  history : ∀ code, (db'.market? code).bind Market.history = (db.market? code).bind Market.history
  others : ∀ code, code ≠ command.marketCode →
    db'.specs code = db.specs code ∧ db'.desires code = db.desires code
  specs : ∀ dataType, db'.specs command.marketCode dataType =
    (db.specs command.marketCode dataType).map (commandedSpec command
      (selectedDataTypes command (db.specs command.marketCode) dataType) dataType)
  desires : ∀ dataType, db'.desires command.marketCode dataType =
    (db.specs command.marketCode dataType).elim (db.desires command.marketCode dataType)
      fun spec => some (commandedDesireOf command db dataType spec)
  active : command.state = .active → tradingStatus db command.marketCode = some .active

theorem applyCommand_spec
    (hactive : command.state = .active → tradingStatus db command.marketCode = some .active) :
    CommandedMarket db (applyCommand env db command) command where
  history code := by
    refine (history_setCollectionTarget ..).trans ?_
    rfl
  others code hne := ⟨Function.update_of_ne hne .., Function.update_of_ne hne ..⟩
  specs dataType := by
    show Function.update db.specs command.marketCode _ command.marketCode dataType = _
    rw [Function.update_self]
  desires dataType := by
    show Function.update db.desires command.marketCode _ command.marketCode dataType = _
    rw [Function.update_self]
    rfl
  active := hactive

/-- A market that passes the checks trades if it is to be active, and has a spec. -/
theorem checkMarket_eq_ok (h : checkMarket db command = .ok ()) :
    (command.state = .active → tradingStatus db command.marketCode = some .active) ∧
      ∃ dataType, (db.specs command.marketCode dataType).isSome = true := by
  unfold checkMarket at h
  cases hrow : db.market? command.marketCode with
  | none => simp [hrow] at h
  | some market =>
    simp only [hrow] at h
    split_ifs at h with htrading hspecs
    constructor
    · intro hstate
      rw [not_and, not_not] at htrading
      rw [tradingStatus, hrow, Option.bind_some]
      exact htrading hstate
    · simp only [all_eq_true, not_forall] at hspecs
      obtain ⟨dataType, -, hspec⟩ := hspecs
      exact ⟨dataType, by simpa [Option.isSome_iff_ne_none] using hspec⟩

/-- A command repeats another one, or its market has passed the checks. -/
theorem setMarketTargetState_eq_ok (h : setMarketTargetState env db command = .ok (new, db')) :
    new = false ∧ db' = db ∨
      new = true ∧ db' = applyCommand env db command ∧ checkMarket db command = .ok () := by
  obtain ⟨⟨⟩, -, h⟩ := bind_eq_ok.mp h
  cases hrecord : db.commands command.idempotencyKey with
  | some payloadHash =>
    simp only [hrecord] at h
    split_ifs at h
    obtain ⟨rfl, rfl⟩ := Prod.mk.inj (Except.ok.inj h)
    exact .inl ⟨rfl, rfl⟩
  | none =>
    simp only [hrecord] at h
    obtain ⟨⟨⟩, hmarket, h⟩ := bind_eq_ok.mp h
    obtain ⟨rfl, rfl⟩ := Prod.mk.inj (Except.ok.inj h)
    exact .inr ⟨rfl, rfl, hmarket⟩

theorem setMarketTargetState_spec (h : setMarketTargetState env db command = .ok (new, db')) :
    new = false ∧ db' = db ∨
      new = true ∧ db' = applyCommand env db command ∧ CommandedMarket db db' command := by
  obtain hrepeated | ⟨hnew, rfl, hmarket⟩ := setMarketTargetState_eq_ok h
  · exact .inl hrepeated
  · exact .inr ⟨hnew, rfl, applyCommand_spec (checkMarket_eq_ok hmarket).1⟩

/-! ## Desires follow their specs -/

/-- A desire follows its spec, and an active spec its market. -/
structure TargetAgrees (db : MarketDatabase) (marketCode : String) (dataType : DataType)
    (spec : TargetSpec) : Prop where
  desire : ∃ desire, db.desires marketCode dataType = some desire ∧
    (desire.subscribed = true ↔ spec.status = .active ∧ spec.continuous = true ∧
      tradingStatus db marketCode = some .active)
  active : spec.status = .active → tradingStatus db marketCode = some .active

/-- Every spec agrees, none is active for a reason, and the markets that have one are in `KRW`. -/
structure TargetsSound (env : CatalogEnvironment) (db : MarketDatabase) : Prop where
  revisions : RevisionsSound env db
  agrees : ∀ code dataType spec, db.specs code dataType = some spec →
    TargetAgrees db code dataType spec
  reasons : ∀ code dataType spec, db.specs code dataType = some spec →
    spec.status = .active → spec.stateReason = none
  krw : ∀ code dataType spec, db.specs code dataType = some spec → (partitionCode code).1 = "KRW"

/-- A target agrees as long as its market and its desires stay. -/
theorem TargetAgrees.congr {dataType : DataType} (h : TargetAgrees db code dataType spec)
    (hstatus : tradingStatus db' code = tradingStatus db code)
    (hdesires : db'.desires code = db.desires code) : TargetAgrees db' code dataType spec :=
  ⟨by rw [hdesires, hstatus]; exact h.desire, by rw [hstatus]; exact h.active⟩

/-- A spec that is active after the sync of its market is so because the market is. -/
theorem syncedSpec_active {dataType : DataType} {old : Option TargetSpec}
    (hreason : ∀ spec, old = some spec → spec.status = .active → spec.stateReason = none)
    (h : (syncedSpec item dataType old).status = .active) :
    item.tradable = true ∧ (syncedSpec item dataType old).stateReason = none := by
  have hcatalog : (catalogState item.tradable).1 = .active →
      item.tradable = true ∧ (catalogState item.tradable).2 = none := by
    unfold catalogState
    split_ifs with htradable
    · exact fun _ => ⟨htradable, rfl⟩
    · exact fun h => by cases h
  cases old with
  | none => exact hcatalog h
  | some spec =>
    unfold syncedSpec at h ⊢
    simp only at h ⊢
    split_ifs at h ⊢ with hauto hexcluded hheld
    · exact hcatalog h
    · have hnone := hreason spec rfl h
      simp [TargetSpec.held, h, hnone] at hheld
    · exact hcatalog h

theorem itemStatus_active {tradable : Bool} : itemStatus tradable = .active ↔ tradable = true := by
  cases tradable <;> simp [itemStatus]

theorem syncedDesire_subscribed (old : Option SubscriptionDesire) :
    (syncedDesire subscribed old).subscribed = subscribed := by
  cases old <;> rfl

/-- The sync of an item keeps the targets sound. -/
theorem SyncedItem.sound (htells : ChecksumTells env) (hsound : TargetsSound env db)
    (h : SyncedItem env db db' item) : TargetsSound env db' := by
  have hstatus := h.status hsound.revisions htells
  have hcollected : ∀ dataType spec, db'.specs item.marketCode dataType = some spec →
      item.quoteCurrency = "KRW" := by
    intro dataType spec hspec
    by_contra hquote
    rw [(h.uncollected hquote).1] at hspec
    exact hquote (hsound.krw _ _ _ hspec)
  have hsame : ∀ code dataType spec, db'.specs code dataType = some spec →
      code = item.marketCode ∧ spec = syncedSpec item dataType (db.specs item.marketCode dataType) ∧
        db'.desires item.marketCode dataType = some (syncedDesireOf item db dataType) ∨
      code ≠ item.marketCode ∧ db.specs code dataType = some spec := by
    intro code dataType spec hspec
    by_cases hcode : code = item.marketCode
    · subst hcode
      obtain ⟨hsynced, hdesire⟩ := h.collected (hcollected dataType spec hspec) dataType
      exact .inl ⟨rfl, Option.some.inj (hspec.symm.trans hsynced), hdesire⟩
    · exact .inr ⟨hcode, by rw [← h.others.specs code hcode]; exact hspec⟩
  have hactive : ∀ dataType,
      (syncedSpec item dataType (db.specs item.marketCode dataType)).status = .active →
      item.tradable = true ∧
        (syncedSpec item dataType (db.specs item.marketCode dataType)).stateReason = none :=
    fun dataType => syncedSpec_active fun spec hspec => hsound.reasons _ _ _ hspec
  exact {
    revisions := h.revisions hsound.revisions
    agrees := fun code dataType spec hspec => by
      rcases hsame code dataType spec hspec with ⟨rfl, rfl, hdesire⟩ | ⟨hne, hspec⟩
      · refine ⟨⟨_, hdesire, ?_⟩, fun hspec => ?_⟩
        · rw [syncedDesireOf, syncedDesire_subscribed, hstatus, Option.some.injEq,
            itemStatus_active]
          simp only [Bool.and_eq_true, decide_eq_true_eq]
          exact ⟨fun ⟨⟨ha, ht⟩, hc⟩ => ⟨ha, hc, ht⟩, fun ⟨ha, hc, ht⟩ => ⟨⟨ha, ht⟩, hc⟩⟩
        · rw [hstatus, Option.some.injEq, itemStatus_active]
          exact (hactive dataType hspec).1
      · exact (hsound.agrees code dataType spec hspec).congr (h.others.status code hne)
          (h.others.desires code hne)
    reasons := fun code dataType spec hspec hstate => by
      rcases hsame code dataType spec hspec with ⟨rfl, rfl, -⟩ | ⟨-, hspec⟩
      · exact (hactive dataType hstate).2
      · exact hsound.reasons code dataType spec hspec hstate
    krw := fun code dataType spec hspec => by
      rcases hsame code dataType spec hspec with ⟨rfl, -⟩ | ⟨-, hold⟩
      · exact hcollected dataType spec hspec
      · exact hsound.krw code dataType spec hold }

/-- A missing market keeps the targets sound. -/
theorem MissingMarket.sound (htells : ChecksumTells env) (hsound : TargetsSound env db)
    (h : MissingMarket env db db' marketCode) : TargetsSound env db' := by
  have hstatus := h.status hsound.revisions htells
  have hmissing : ∀ spec : TargetSpec, (missingSpec spec).status ≠ .active := by
    intro spec
    unfold missingSpec
    simp only
    split_ifs <;> exact fun h => by cases h
  have hsame : ∀ code dataType spec, db'.specs code dataType = some spec →
      (∃ old, code = marketCode ∧ db.specs marketCode dataType = some old ∧
        spec = missingSpec old) ∨ code ≠ marketCode ∧ db.specs code dataType = some spec := by
    intro code dataType spec hspec
    by_cases hcode : code = marketCode
    · subst hcode
      obtain ⟨old, hold, rfl⟩ := Option.map_eq_some_iff.mp ((h.specs dataType).symm.trans hspec)
      exact .inl ⟨old, rfl, hold, rfl⟩
    · exact .inr ⟨hcode, by rw [← h.others.specs code hcode]; exact hspec⟩
  exact {
    revisions := h.revisions hsound.revisions
    agrees := fun code dataType spec hspec => by
      rcases hsame code dataType spec hspec with ⟨old, rfl, hold, rfl⟩ | ⟨hne, hspec⟩
      · obtain ⟨desire, hdesire, -⟩ := (hsound.agrees code dataType old hold).desire
        refine ⟨⟨missingDesire desire, by rw [h.desires, hdesire]; rfl, ?_⟩,
          fun hactive => absurd hactive (hmissing old)⟩
        exact ⟨fun hsub => absurd hsub Bool.false_ne_true,
          fun hactive => absurd hactive.1 (hmissing old)⟩
      · exact (hsound.agrees code dataType spec hspec).congr (h.others.status code hne)
          (h.others.desires code hne)
    reasons := fun code dataType spec hspec hactive => by
      rcases hsame code dataType spec hspec with ⟨old, rfl, hold, rfl⟩ | ⟨-, hspec⟩
      · exact absurd hactive (hmissing old)
      · exact hsound.reasons code dataType spec hspec hactive
    krw := fun code dataType spec hspec => by
      rcases hsame code dataType spec hspec with ⟨old, rfl, hold, rfl⟩ | ⟨-, hold⟩
      · exact hsound.krw code dataType old hold
      · exact hsound.krw code dataType spec hold }

theorem commandedDesire_subscribed (changed : Bool) (old : Option SubscriptionDesire) :
    (commandedDesire subscribed changed old).subscribed = subscribed := by
  cases old <;> rfl

/-- A spec that a command leaves active was selected, and the command's state is `active`. -/
theorem commandedSpec_active {selected : Bool} {dataType : DataType} :
    (commandedSpec command selected dataType spec).status = .active ↔
      selected = true ∧ command.state = .active := by
  unfold commandedSpec
  cases selected <;> simp

/-- A command keeps the targets sound. -/
theorem CommandedMarket.sound (hsound : TargetsSound env db) (h : CommandedMarket db db' command) :
    TargetsSound env db' := by
  have hstatus : ∀ code, tradingStatus db' code = tradingStatus db code :=
    fun code => congrArg _ (h.history code)
  have hsame : ∀ code dataType spec, db'.specs code dataType = some spec →
      (∃ old, code = command.marketCode ∧ db.specs command.marketCode dataType = some old ∧
        spec = commandedSpec command
          (selectedDataTypes command (db.specs command.marketCode) dataType) dataType old) ∨
      code ≠ command.marketCode ∧ db.specs code dataType = some spec := by
    intro code dataType spec hspec
    by_cases hcode : code = command.marketCode
    · subst hcode
      obtain ⟨old, hold, rfl⟩ := Option.map_eq_some_iff.mp ((h.specs dataType).symm.trans hspec)
      exact .inl ⟨old, rfl, hold, rfl⟩
    · exact .inr ⟨hcode, by rw [← (h.others code hcode).1]; exact hspec⟩
  exact {
    revisions := fun code revision hrevision =>
      hsound.revisions code revision (h.history code ▸ hrevision)
    agrees := fun code dataType spec hspec => by
      rcases hsame code dataType spec hspec with ⟨old, rfl, hold, rfl⟩ | ⟨hne, hspec⟩
      · refine ⟨⟨commandedDesireOf command db dataType old, by rw [h.desires, hold]; rfl, ?_⟩,
          fun hactive => ?_⟩
        · rw [commandedDesireOf, commandedDesire_subscribed, commandedSpec_active, hstatus]
          simp only [Bool.and_eq_true, decide_eq_true_eq]
          exact ⟨fun ⟨⟨hs, ha⟩, hc⟩ => ⟨⟨hs, ha⟩, hc, h.active ha⟩,
            fun ⟨hsa, hc, _⟩ => ⟨hsa, hc⟩⟩
        · rw [hstatus]
          exact h.active (commandedSpec_active.mp hactive).2
      · exact (hsound.agrees code dataType spec hspec).congr (hstatus code) (h.others code hne).2
    reasons := fun code dataType spec hspec hactive => by
      rcases hsame code dataType spec hspec with ⟨old, rfl, hold, rfl⟩ | ⟨-, hspec⟩
      · obtain ⟨hselected, hstate⟩ := commandedSpec_active.mp hactive
        simp [commandedSpec, hselected, hstate, operatorReason]
      · exact hsound.reasons code dataType spec hspec hactive
    krw := fun code dataType spec hspec => by
      rcases hsame code dataType spec hspec with ⟨old, rfl, hold, rfl⟩ | ⟨-, hold⟩
      · exact hsound.krw _ dataType old hold
      · exact hsound.krw code dataType spec hold }

/-! ## The operator's decisions -/

/-- What is left of a decision of the operator about a spec: one that was not for `active` keeps
its status and its reason, and one for `active` waits for the market at most. -/
structure Decided (db : MarketDatabase) (marketCode : String) (dataType : DataType)
    (decision spec : TargetSpec) : Prop where
  mem : db.specs marketCode dataType = some spec
  managed : spec.autoManaged = false
  kept : decision.status ≠ .active →
    spec.status = decision.status ∧ spec.stateReason = decision.stateReason
  restored : decision.status = .active → spec.held = false ∧
    (tradingStatus db marketCode = some .active → spec.status = .active)

/-- A decision as a command leaves it. -/
structure IsDecision (decision : TargetSpec) : Prop where
  held : decision.status ≠ .active → decision.held = true

theorem commandedSpec_decision (command : TargetStateCommand) (selected : Bool)
    (dataType : DataType) (old : TargetSpec) :
    IsDecision (commandedSpec command selected dataType old) ∧
    (commandedSpec command selected dataType old).autoManaged = false ∧
    ((commandedSpec command selected dataType old).status = .active →
      (commandedSpec command selected dataType old).held = false) := by
  unfold commandedSpec
  cases selected with
  | false => exact ⟨⟨fun _ => by simp [TargetSpec.held]⟩, rfl, fun h => by simp at h⟩
  | true =>
    cases hstate : command.state <;>
      exact ⟨⟨fun h => by simp [TargetSpec.held, operatorReason] at h ⊢⟩, rfl,
        fun h => by simp [TargetSpec.held, operatorReason] at h ⊢⟩

/-- A command decides about the specs of its market. -/
theorem CommandedMarket.decided (h : CommandedMarket db db' command) {dataType : DataType}
    (hdecision : db'.specs command.marketCode dataType = some decision) :
    IsDecision decision ∧ Decided db' command.marketCode dataType decision decision := by
  obtain ⟨old, -, rfl⟩ := Option.map_eq_some_iff.mp ((h.specs dataType).symm.trans hdecision)
  obtain ⟨hdecided, hmanaged, hactive⟩ := commandedSpec_decision command
    (selectedDataTypes command (db.specs command.marketCode) dataType) dataType old
  exact ⟨hdecided, hdecision, hmanaged, fun _ => ⟨rfl, rfl⟩,
    fun hstate => ⟨hactive hstate, fun _ => hstate⟩⟩

/-- A decision stands as long as the specs and the market stay. -/
theorem Decided.congr {dataType : DataType} (h : Decided db code dataType decision spec)
    (hstatus : tradingStatus db' code = tradingStatus db code)
    (hspecs : db'.specs code = db.specs code) : Decided db' code dataType decision spec :=
  ⟨by rw [hspecs]; exact h.mem, h.managed, h.kept, by rw [hstatus]; exact h.restored⟩

/-- A spec that the sync of its market finds as the operator has left it. -/
theorem Decided.held {dataType : DataType} (hdecision : IsDecision decision)
    (h : Decided db code dataType decision spec) (hnot : decision.status ≠ .active) :
    spec.held = true := by
  have hheld := hdecision.held hnot
  unfold TargetSpec.held at hheld ⊢
  rw [(h.kept hnot).1, (h.kept hnot).2]
  exact hheld

theorem catalogState_held (tradable : Bool) (spec : TargetSpec) :
    TargetSpec.held { spec with
      status := (catalogState tradable).1
      stateReason := (catalogState tradable).2 } = false := by
  cases tradable <;> simp [TargetSpec.held, catalogState]

/-- A sync keeps a decision. -/
theorem Decided.synced (htells : ChecksumTells env) (hsound : TargetsSound env db)
    (hitem : SyncedItem env db db' item) {dataType : DataType} (hdecision : IsDecision decision)
    (h : Decided db code dataType decision spec) :
    ∃ spec', Decided db' code dataType decision spec' := by
  by_cases hcode : code = item.marketCode
  · subst hcode
    have hquote : item.quoteCurrency = "KRW" := hsound.krw _ _ _ h.mem
    obtain ⟨hsynced, -⟩ := hitem.collected hquote dataType
    have hstatus := hitem.status hsound.revisions htells
    rw [h.mem] at hsynced
    unfold syncedSpec at hsynced
    simp only [h.managed, Bool.false_eq_true, if_false] at hsynced
    by_cases hstate : decision.status = .active
    · rw [if_neg (Bool.eq_false_iff.mp (h.restored hstate).1)] at hsynced
      refine ⟨_, hsynced, rfl, fun hnot => absurd hstate hnot, fun _ =>
        ⟨catalogState_held item.tradable spec, fun hactive => ?_⟩⟩
      rw [hstatus, Option.some.injEq, itemStatus_active] at hactive
      simp [catalogState, hactive]
    · rw [if_pos (h.held hdecision hstate)] at hsynced
      exact ⟨_, hsynced, h.managed, h.kept, fun hactive => absurd hactive hstate⟩
  · exact ⟨spec, h.congr (hitem.others.status code hcode) (hitem.others.specs code hcode)⟩

/-- A missing market keeps a decision. -/
theorem Decided.missing (htells : ChecksumTells env) (hsound : TargetsSound env db)
    (hmissing : MissingMarket env db db' marketCode) {dataType : DataType}
    (hdecision : IsDecision decision) (h : Decided db code dataType decision spec) :
    ∃ spec', Decided db' code dataType decision spec' := by
  by_cases hcode : code = marketCode
  · subst hcode
    have hstatus := hmissing.status hsound.revisions htells
    refine ⟨missingSpec spec, by rw [hmissing.specs, h.mem]; rfl, h.managed, fun hnot => ?_,
      fun hstate => ⟨?_, fun hactive => by rw [hstatus] at hactive; cases hactive⟩⟩
    · have hheld := h.held hdecision hnot
      have hspec := (h.kept hnot).1
      rw [← hspec, ← (h.kept hnot).2]
      unfold missingSpec
      unfold TargetSpec.held at hheld
      cases hcase : spec.status with
      | active => exact absurd (hspec.symm.trans hcase) hnot
      | excluded => simp
      | paused =>
        have hreason : spec.stateReason ∈
            [some StateReason.operatorPaused, some .policyDataTypeDisabled] := by
          simpa [hcase] using hheld
        simp only [if_pos hreason]
        simp
    · obtain ⟨hheld, -⟩ := h.restored hstate
      unfold TargetSpec.held at hheld
      rw [Bool.or_eq_false_iff, decide_eq_false_iff_not, decide_eq_false_iff_not] at hheld
      simp [missingSpec, TargetSpec.held, hheld.1, hheld.2]
  · exact ⟨spec, h.congr (hmissing.others.status code hcode) (hmissing.others.specs code hcode)⟩

/-! ## Generations -/

/-- A desire keeps its generation or raises it, and raises it with every change of its state. -/
def DesireAdvances (desire' : SubscriptionDesire) : Prop :=
  desire.generation ≤ desire'.generation ∧
  (desire'.subscribed ≠ desire.subscribed → desire.generation < desire'.generation)

/-- Every desire advances. -/
def DesiresAdvance (db db' : MarketDatabase) : Prop :=
  ∀ code dataType desire, db.desires code dataType = some desire →
    ∃ desire', db'.desires code dataType = some desire' ∧ DesireAdvances desire desire'

theorem DesireAdvances.refl : DesireAdvances desire desire :=
  ⟨le_rfl, fun hne => absurd rfl hne⟩

theorem DesireAdvances.trans {desire desire' desire'' : SubscriptionDesire}
    (h : DesireAdvances desire desire') (h' : DesireAdvances desire' desire'') :
    DesireAdvances desire desire'' := by
  refine ⟨h.1.trans h'.1, fun hne => ?_⟩
  by_cases hsame : desire'.subscribed = desire.subscribed
  · exact lt_of_le_of_lt h.1 (h'.2 fun heq => hne (heq.trans hsame))
  · exact lt_of_lt_of_le (h.2 hsame) h'.1

theorem DesiresAdvance.refl (db : MarketDatabase) : DesiresAdvance db db :=
  fun _ _ desire h => ⟨desire, h, .refl desire⟩

theorem DesiresAdvance.trans {db'' : MarketDatabase} (h : DesiresAdvance db db')
    (h' : DesiresAdvance db' db'') : DesiresAdvance db db'' := by
  intro code dataType desire hdesire
  obtain ⟨desire', hdesire', hadvances⟩ := h code dataType desire hdesire
  obtain ⟨desire'', hdesire'', hadvances'⟩ := h' code dataType desire' hdesire'
  exact ⟨desire'', hdesire'', hadvances.trans hadvances'⟩

theorem syncedDesire_advances : DesireAdvances desire (syncedDesire subscribed (some desire)) := by
  unfold syncedDesire DesireAdvances
  simp only
  split_ifs with hne
  · exact ⟨Int.le_add_one le_rfl, fun _ => Int.lt_add_one_of_le le_rfl⟩
  · rw [not_not] at hne
    exact ⟨le_rfl, fun h => absurd hne.symm h⟩

theorem missingDesire_advances : DesireAdvances desire (missingDesire desire) := by
  unfold missingDesire DesireAdvances
  simp only
  split_ifs with hsubscribed
  · exact ⟨Int.le_add_one le_rfl, fun _ => Int.lt_add_one_of_le le_rfl⟩
  · exact ⟨le_rfl, fun h => absurd (Bool.eq_false_iff.mpr hsubscribed).symm h⟩

theorem commandedDesire_advances (changed : Bool) (desire : SubscriptionDesire) :
    DesireAdvances desire (commandedDesire subscribed changed (some desire)) := by
  unfold commandedDesire DesireAdvances
  simp only
  split_ifs with hchanged
  · exact ⟨Int.le_add_one le_rfl, fun _ => Int.lt_add_one_of_le le_rfl⟩
  · refine ⟨by simp, fun hne => absurd ?_ hchanged⟩
    simp [hne.symm]

/-- A sync moves the generations of desires forward only. -/
theorem SyncedItem.advances (h : SyncedItem env db db' item) : DesiresAdvance db db' := by
  intro code dataType desire hdesire
  by_cases hquote : item.quoteCurrency = "KRW"
  · by_cases hcode : code = item.marketCode
    · subst hcode
      refine ⟨_, (h.collected hquote dataType).2, ?_⟩
      rw [syncedDesireOf, hdesire]
      exact syncedDesire_advances _ desire
    · exact ⟨desire, by rw [h.others.desires code hcode]; exact hdesire, .refl desire⟩
  · exact ⟨desire, by rw [(h.uncollected hquote).2]; exact hdesire, .refl desire⟩

theorem MissingMarket.advances (h : MissingMarket env db db' marketCode) :
    DesiresAdvance db db' := by
  intro code dataType desire hdesire
  by_cases hcode : code = marketCode
  · subst hcode
    exact ⟨missingDesire desire, by rw [h.desires, hdesire]; rfl, missingDesire_advances desire⟩
  · exact ⟨desire, by rw [h.others.desires code hcode]; exact hdesire, .refl desire⟩

/-- A command moves the generations of desires forward only. -/
theorem CommandedMarket.advances (h : CommandedMarket db db' command) : DesiresAdvance db db' := by
  intro code dataType desire hdesire
  by_cases hcode : code = command.marketCode
  · subst hcode
    rw [h.desires]
    cases db.specs command.marketCode dataType with
    | none => exact ⟨desire, hdesire, .refl desire⟩
    | some spec =>
      refine ⟨_, rfl, ?_⟩
      rw [commandedDesireOf, hdesire]
      exact commandedDesire_advances _ _ desire
  · exact ⟨desire, by rw [(h.others code hcode).2]; exact hdesire, .refl desire⟩

/-! ## Every call and every run -/

section Runs

variable {env : CatalogEnvironment} {db db' : MarketDatabase}
variable {P : MarketDatabase → Prop}

/-- What the rounds for the listed and for the missing markets preserve, a sync preserves. -/
theorem syncMarketCatalog_invariant {catalog : List MarketCatalogItem}
    (hitem : ∀ db item db', P db → SyncedItem env db db' item → P db')
    (hmissing : ∀ db code db', P db → MissingMarket env db db' code → P db') (hdb : P db)
    (h : syncMarketCatalog env db catalog observedAt = .ok db') : P db' := by
  unfold syncMarketCatalog at h
  split_ifs at h
  obtain ⟨synced, hsynced, h⟩ := bind_eq_ok.mp h
  have hfirst : P synced := foldlM_invariant
    (fun db item db' _ hdb hround => hitem db item db' hdb (syncItem_spec hround)) hdb hsynced
  -- the rounds keep the rows of the markets, so each of them finds its market
  have hrows : ∀ market ∈ missingMarkets synced catalog,
      (synced.market? market.marketCode).isSome = true := fun market hmarket => by
    rw [market?_of_mem (mem_of_mem_filter hmarket)]
    rfl
  refine (foldlM_invariant (P := fun db => P db ∧
    ∀ market ∈ missingMarkets synced catalog, (db.market? market.marketCode).isSome = true)
    (fun db market db' hmem hdb hround => ?_) ⟨hfirst, hrows⟩ h).1
  have hmarket := markMissingMarket_spec (hdb.2 market hmem) hround
  exact ⟨hmissing db market.marketCode db' hdb.1 hmarket, fun other hother =>
    (hmarket.present other.marketCode).trans (hdb.2 other hother)⟩

/-- A call does nothing, or syncs a catalog, or applies a command. -/
theorem afterCall_invariant {call : MarketCall}
    (hitem : ∀ db item db', P db → SyncedItem env db db' item → P db')
    (hmissing : ∀ db code db', P db → MissingMarket env db db' code → P db') (hcommand : ∀ command,
      call = .setTargetState command → ∀ db', CommandedMarket db db' command → P db') (hdb : P db) :
    P (db.after env call) := by
  cases call with
  | syncCatalog catalog observedAt =>
    cases hsync : syncMarketCatalog env db catalog observedAt with
    | ok db' =>
      have hafter : db.after env (.syncCatalog catalog observedAt) = db' := by
        simp [MarketDatabase.after, hsync, Except.toOption]
      exact hafter ▸ syncMarketCatalog_invariant hitem hmissing hdb hsync
    | error error =>
      have hafter : db.after env (.syncCatalog catalog observedAt) = db := by
        simp [MarketDatabase.after, hsync, Except.toOption]
      exact hafter.symm ▸ hdb
  | setTargetState command =>
    cases hset : setMarketTargetState env db command with
    | ok result =>
      obtain ⟨new, db'⟩ := result
      have hafter : db.after env (.setTargetState command) = db' := by
        simp [MarketDatabase.after, hset, Except.toOption]
      rw [hafter]
      rcases setMarketTargetState_spec hset with ⟨-, rfl⟩ | ⟨-, -, hmarket⟩
      · exact hdb
      · exact hcommand command rfl db' hmarket
    | error error =>
      have hafter : db.after env (.setTargetState command) = db := by
        simp [MarketDatabase.after, hset, Except.toOption]
      exact hafter.symm ▸ hdb

theorem afterCall_sound (htells : ChecksumTells env) (hsound : TargetsSound env db)
    (call : MarketCall) : TargetsSound env (db.after env call) :=
  afterCall_invariant (fun _ _ _ hdb hitem => hitem.sound htells hdb)
    (fun _ _ _ hdb hmissing => hmissing.sound htells hdb)
    (fun _ _ _ hmarket => hmarket.sound hsound) hsound

theorem afterCall_advances (call : MarketCall) : DesiresAdvance db (db.after env call) :=
  afterCall_invariant (fun _ _ _ hdb hitem => hdb.trans hitem.advances)
    (fun _ _ _ hdb hmissing => hdb.trans hmissing.advances)
    (fun _ _ _ hmarket => hmarket.advances) (DesiresAdvance.refl db)

/-- The call is a command for the market. -/
def Commands (marketCode : String) : MarketCall → Prop
  | .syncCatalog .. => False
  | .setTargetState command => command.marketCode = marketCode

theorem afterCall_decided (htells : ChecksumTells env) (hsound : TargetsSound env db)
    {call : MarketCall} {dataType : DataType} (hdecision : IsDecision decision)
    (hother : ¬ Commands code call) (h : ∃ spec, Decided db code dataType decision spec) :
    ∃ spec, Decided (db.after env call) code dataType decision spec := by
  refine (@afterCall_invariant env db (fun db => TargetsSound env db ∧
    ∃ spec, Decided db code dataType decision spec) call ?_ ?_ ?_ ⟨hsound, h⟩).2
  · rintro db item db' ⟨hsound, spec, hspec⟩ hitem
    exact ⟨hitem.sound htells hsound, hspec.synced htells hsound hitem hdecision⟩
  · rintro db marketCode db' ⟨hsound, spec, hspec⟩ hmissing
    exact ⟨hmissing.sound htells hsound, hspec.missing htells hsound hmissing hdecision⟩
  · rintro command rfl db' hmarket
    obtain ⟨spec, hspec⟩ := h
    have hne : code ≠ command.marketCode := fun heq => hother heq.symm
    exact ⟨hmarket.sound hsound, spec, hspec.congr (congrArg _ (hmarket.history code))
      (hmarket.others code hne).1⟩

theorem afterCalls_sound (htells : ChecksumTells env) (hsound : TargetsSound env db)
    (calls : List MarketCall) : TargetsSound env (db.afterCalls env calls) := by
  induction calls generalizing db with
  | nil => exact hsound
  | cons call calls ih => exact ih (afterCall_sound htells hsound call)

theorem afterCalls_decided (htells : ChecksumTells env) (hsound : TargetsSound env db)
    {calls : List MarketCall} {dataType : DataType} (hdecision : IsDecision decision)
    (hother : ∀ call ∈ calls, ¬ Commands code call)
    (h : ∃ spec, Decided db code dataType decision spec) :
    ∃ spec, Decided (db.afterCalls env calls) code dataType decision spec := by
  induction calls generalizing db with
  | nil => exact h
  | cons call calls ih =>
    rw [forall_mem_cons] at hother
    exact ih (afterCall_sound htells hsound call) hother.2
      (afterCall_decided htells hsound hdecision hother.1 h)

theorem empty_sound (env : CatalogEnvironment) : TargetsSound env .empty where
  revisions _ _ h := by cases h
  agrees _ _ _ h := by cases h
  reasons _ _ _ h := by cases h
  krw _ _ _ h := by cases h

end Runs

/-- From empty tables on, after every sequence of calls: a desire is for a subscription exactly
when its spec is active and continuous and its market trades, and active specs are of markets
that trade; what a command has decided about a spec lasts until the next command for the market;
and the generation of a desire counts its changes.
SOURCE: data_foundation_repository.py:252-400, 666-717, 805-878, 1366-1518 -/
theorem desires_follow_collection (env : CatalogEnvironment) (htells : ChecksumTells env)
    (calls : List MarketCall) : (∀ code dataType spec,
      (MarketDatabase.empty.afterCalls env calls).specs code dataType = some spec →
      TargetAgrees (MarketDatabase.empty.afterCalls env calls) code dataType spec) ∧
    (∀ command decided,
      setMarketTargetState env (MarketDatabase.empty.afterCalls env calls) command =
        .ok (true, decided) →
      ∀ dataType decision, decided.specs command.marketCode dataType = some decision →
      ∀ rest, (∀ call ∈ rest, ¬ Commands command.marketCode call) →
      ∃ spec, (decided.afterCalls env rest).specs command.marketCode dataType = some spec ∧
        (decision.status ≠ .active →
          spec.status = decision.status ∧ spec.stateReason = decision.stateReason) ∧
        (decision.status = .active →
          tradingStatus (decided.afterCalls env rest) command.marketCode = some .active →
          spec.status = .active)) ∧
    ∀ call, DesiresAdvance (MarketDatabase.empty.afterCalls env calls)
      ((MarketDatabase.empty.afterCalls env calls).after env call) := by
  have hsound := afterCalls_sound htells (empty_sound env) calls
  refine ⟨hsound.agrees, ?_, fun call => afterCall_advances call⟩
  intro command decided hset dataType decision hmem rest hrest
  rcases setMarketTargetState_spec hset with ⟨hnew, -⟩ | ⟨-, -, hmarket⟩
  · cases hnew
  · obtain ⟨hdecision, hdecided⟩ := hmarket.decided hmem
    obtain ⟨spec, hspec⟩ := afterCalls_decided htells (hmarket.sound hsound) hdecision hrest
      ⟨decision, hdecided⟩
    exact ⟨spec, hspec.mem, hspec.kept, fun hstate => (hspec.restored hstate).2⟩

/-! ## A paused market -/

/-- Ids and digests for examples. -/
def exampleEnvironment : CatalogEnvironment where
  instrumentId code := Encodable.encode (code.toList.map Char.toNat)
  instrumentId_injective _ _ h :=
    String.toList_injective (map_injective_iff.mpr (fun _ _ => Char.toNat_inj.mp)
      (Encodable.encode_injective (Int.ofNat.inj h)))
  statusChecksum item := if item.tradable then "active" else "inactive"
  payloadHash command := command.reason
  policyKey payload := payload.targetSpecId

theorem exampleEnvironment_tells : ChecksumTells exampleEnvironment := by
  intro item item' h
  unfold exampleEnvironment at h
  cases hitem : item.tradable <;> cases hitem' : item'.tradable <;> simp_all

/-- A market as the catalog lists it. -/
def listed (marketCode : String) : MarketCatalogItem where
  marketCode := marketCode
  koreanName := marketCode
  englishName := marketCode
  marketWarning := "NONE"
  tradable := true

/-- The operator's pause of the market. -/
def pauseMarket : TargetStateCommand where
  marketCode := "KRW-BTC"
  state := .paused
  actor := "operator"
  reason := "pause"
  changedAt := 2
  requestId := "request"
  idempotencyKey := "key"
  requestedAt := 2
  policy := none

/-- The tables before the pause and after it. -/
def listedDatabase : MarketDatabase :=
  .afterCalls exampleEnvironment .empty [.syncCatalog [listed "KRW-BTC"] 1]

def pausedDatabase : MarketDatabase := applyCommand exampleEnvironment listedDatabase pauseMarket

/-- The pause outlasts the next catalog. -/
theorem desires_follow_collection_paused : ∃ spec, (pausedDatabase.afterCalls exampleEnvironment
        [.syncCatalog [listed "KRW-BTC"] 3]).specs "KRW-BTC" .sourceCandle = some spec ∧
      spec.status = .paused ∧ spec.stateReason = some .operatorPaused := by
  obtain ⟨-, hdecided, -⟩ := desires_follow_collection exampleEnvironment
    exampleEnvironment_tells [.syncCatalog [listed "KRW-BTC"] 1]
  have hset : setMarketTargetState exampleEnvironment listedDatabase pauseMarket =
      .ok (true, pausedDatabase) := by rfl
  have hpaused : (pausedDatabase.specs "KRW-BTC" .sourceCandle).any (fun spec =>
      spec.status = .paused && spec.stateReason = some .operatorPaused) = true := by
    decide +kernel
  obtain ⟨decision, hdecision, hstate⟩ := (Option.any_eq_true _ _).mp hpaused
  simp only [Bool.and_eq_true, decide_eq_true_eq] at hstate
  obtain ⟨spec, hspec, hkept, -⟩ := hdecided pauseMarket pausedDatabase hset .sourceCandle decision
    hdecision [.syncCatalog [listed "KRW-BTC"] 3] (fun call hcall => by
      rw [mem_singleton.mp hcall]
      exact id)
  have hnot : decision.status ≠ .active := by
    rw [hstate.1]
    decide
  obtain ⟨hstatus, hreason⟩ := hkept hnot
  exact ⟨spec, hspec, hstatus.trans hstate.1, hreason.trans hstate.2⟩

end Goodmoneying.Analysis
