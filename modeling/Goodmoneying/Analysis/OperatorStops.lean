import Goodmoneying.Analysis.MarketStopSteps
import Goodmoneying.Analysis.MarketTargets
import Goodmoneying.Library.ConditionalRun

/-!
# The stops of the operator

A control command halts a job, a command for a market stops its collection. Both last until the
operator takes them back (`StopsHonoured`), in every run whose steps respect them (`RespectsStops`).
Where a catalog lists a market again whose backfill the operator has paused, the backfill goes on
(`sync_resumes_halted_job`).
-/

namespace Goodmoneying.Analysis

open List Library Program Program.Backfill
open Program.MarketCatalog Analysis.Backfill

variable {db db' : MarketDatabase} {code marketCode : String} {market' : Market}
  {item : MarketCatalogItem}
variable {change : Market → Market}
  {hkey : ∀ market, (change market).marketCode = market.marketCode} {env : CatalogEnvironment}
  {observedAt : Instant} {spec : TargetSpec} {tables : BackfillTables}

/-! ## What is asked of a step -/

/-- A `source_candle` spec under which paused targets are taken up again. -/
def specCollects (spec : TargetSpec) : Bool :=
  spec.status = .active && spec.exclusionReason ≠ some policyDisabledReason

/-- The open jobs with a paused target of the market that an active market takes up again;
`collects` tells it of targets that have a spec. -/
def takenUp (env : CatalogEnvironment) (db : MarketDatabase) (marketCode : String)
    (collects : Bool) : List ℤ :=
  openJobsWith db.backfill (resumable (fun _ => collects) (env.instrumentId marketCode))

/-- What the sync of an item takes up, no stop is about. -/
def ItemRespects (env : CatalogEnvironment) (stops : OperatorStops) (db : MarketDatabase)
    (item : MarketCatalogItem) : Prop :=
  item.quoteCurrency = "KRW" → item.tradable = true →
  ∀ jobId ∈ takenUp env db item.marketCode
      (specCollects (syncedSpec item .sourceCandle (db.specs item.marketCode .sourceCandle))),
    stops.halted jobId = false ∧ stops.stopped item.marketCode = false

/-- The command gives the candles a new policy. -/
def supersedes (specs : DataType → Option TargetSpec) (command : TargetStateCommand) : Bool :=
  command.policy.isSome && (specs .sourceCandle).any
    (policyChanged command (selectedDataTypes command specs .sourceCandle) .sourceCandle)

/-- What an activation takes up, no control command has halted. -/
def CommandRespects (env : CatalogEnvironment) (stops : OperatorStops) (db : MarketDatabase)
    (command : TargetStateCommand) : Prop :=
  command.state = .active → supersedes (db.specs command.marketCode) command = false →
  ∀ jobId ∈ takenUp env db command.marketCode
      ((db.specs command.marketCode .sourceCandle).any fun spec =>
        specCollects (commandedSpec command
          (selectedDataTypes command (db.specs command.marketCode) .sourceCandle) .sourceCandle
          spec)), stops.halted jobId = false

/-- No target that a restart of the job sets to `pending` is of a stopped market. -/
def ControlRespects (stops : OperatorStops) (tables : BackfillTables) (jobId : ℤ)
    (action : ControlAction) : Prop :=
  action.restarts = true → ∀ target ∈ tables.targetsOf jobId, target.status ≠ .succeeded →
    ∀ code, stops.stopped code = true → target.instrumentId ≠ stops.instrumentId code

/-- The stops of a state. -/
def operatorStops (env : CatalogEnvironment) (state : OperatorState) : OperatorStops :=
  ⟨env.instrumentId, state.halted, state.stopped⟩

/-- A step that does not raise takes up nothing that a stop is about. -/
def RespectsStops (env : CatalogEnvironment) (state : OperatorState) : OperatorEvent → Prop
  | .syncCatalog catalog observedAt =>
    (∃ db, syncMarketCatalog env state.db catalog observedAt = .ok db) →
      ∀ item ∈ catalog, ItemRespects env (operatorStops env state) state.db item
  | .setTargetState command =>
    (∃ db, setMarketTargetState env state.db command = .ok (true, db)) →
      CommandRespects env (operatorStops env state) state.db command
  | .control jobId action =>
    controlRead state.db.backfill jobId action = .ok () →
      ControlRespects (operatorStops env state) state.db.backfill jobId action
  | _ => True

/-! ## The tables of the markets -/

/-- A spec that the operator has stopped: the catalogs leave it as it is. -/
structure HeldBack (spec : TargetSpec) : Prop where
  managed : spec.autoManaged = false
  held : spec.held = true
  inactive : spec.status ≠ .active

/-- What holds at any time: the stops are held, a market has all its specs or none, and a stopped
market has none that is active and is not collected. -/
structure StopsSound (env : CatalogEnvironment) (stops : OperatorStops) (db : MarketDatabase) :
    Prop where
  ids : stops.instrumentId = env.instrumentId
  held : StopsHeld stops db.backfill
  whole : ∀ code dataType other, (db.specs code dataType).isSome = true →
    (db.specs code other).isSome = true
  decided : ∀ code, stops.stopped code = true → ∀ dataType,
    ∃ spec, db.specs code dataType = some spec ∧ HeldBack spec
  uncollected : ∀ code, stops.stopped code = true → ∀ market ∈ db.markets.rows,
    market.marketCode = code → market.collectionActive ≠ some true

/-- No market becomes collected. -/
def NoneCollected (db db' : MarketDatabase) : Prop :=
  ∀ market' ∈ db'.markets.rows, market'.collectionActive = some true →
    ∃ market ∈ db.markets.rows, market.marketCode = market'.marketCode ∧
      market.collectionActive = some true

theorem NoneCollected.refl (db : MarketDatabase) : NoneCollected db db :=
  fun market hmarket hactive => ⟨market, hmarket, rfl, hactive⟩

theorem NoneCollected.trans {db'' : MarketDatabase} (h : NoneCollected db db')
    (h' : NoneCollected db' db'') : NoneCollected db db'' := by
  intro market'' hmarket'' hactive
  obtain ⟨market', hmarket', hcode', hactive'⟩ := h' market'' hmarket'' hactive
  obtain ⟨market, hmarket, hcode, hactive''⟩ := h market' hmarket' hactive'
  exact ⟨market, hmarket, hcode.trans hcode', hactive''⟩

theorem mem_updateMarket :
    market' ∈ (db.updateMarket code change hkey).markets.rows ↔ ∃ market ∈ db.markets.rows,
      (if market.marketCode = code then change market else market) = market' := by
  simp [MarketDatabase.updateMarket, KeyedTable.update_rows]

theorem updateMarket_noneCollected (hchange : ∀ market, (change market).collectionActive = some true
      → market.collectionActive = some true) :
    NoneCollected db (db.updateMarket code change hkey) := by
  intro market' hmarket' hactive
  obtain ⟨market, hmarket, rfl⟩ := mem_updateMarket.mp hmarket'
  split_ifs at hactive ⊢ with hcode
  · exact ⟨market, hmarket, (hkey market).symm, hchange market hactive⟩
  · exact ⟨market, hmarket, rfl, hactive⟩

theorem mem_setCollectionTarget {active : Bool}
    (h : market' ∈ (db.setCollectionTarget code active).markets.rows) :
    ∃ market ∈ db.markets.rows, (if market.marketCode = code then
      { market with collectionActive := market.collectionActive.map fun _ => active }
      else market) = market' :=
  mem_updateMarket.mp h

theorem setCollectionTarget_noneCollected (db : MarketDatabase) (code : String) :
    NoneCollected db (db.setCollectionTarget code false) :=
  updateMarket_noneCollected fun market hactive => by simp at hactive

theorem upsertMarket_noneCollected (db : MarketDatabase) (item : MarketCatalogItem) :
    NoneCollected db (upsertMarket db item) := by
  unfold upsertMarket
  split_ifs with hmem
  · exact updateMarket_noneCollected fun _ hactive => hactive
  · intro market' hmarket' hactive
    rcases mem_append.mp hmarket' with hold | hnew
    · exact ⟨market', hold, rfl, hactive⟩
    · obtain rfl := mem_singleton.mp hnew
      cases hactive

/-- A revision changes the history of a market at most. -/
theorem recordStatusRevision_kept (h : recordStatusRevision env db item observedAt = .ok db') :
    db'.backfill = db.backfill ∧ db'.specs = db.specs ∧ NoneCollected db db' := by
  have hrecorded : ∀ revision : StatusRevision, NoneCollected db (db.updateMarket item.marketCode
      (fun market => { market with history := some revision }) fun _ => rfl) :=
    fun _ => updateMarket_noneCollected fun _ hactive => hactive
  unfold recordStatusRevision at h
  cases hcurrent : (db.market? item.marketCode).bind Market.history with
  | none =>
    simp only [hcurrent, Except.ok.injEq] at h
    exact h ▸ ⟨rfl, rfl, hrecorded _⟩
  | some current =>
    simp only [hcurrent] at h
    split_ifs at h
    · exact Except.ok.inj h ▸ ⟨rfl, rfl, .refl db⟩
    · exact Except.ok.inj h ▸ ⟨rfl, rfl, hrecorded _⟩

theorem syncMarket_kept (h : syncMarket env db item observedAt = .ok db') :
    db'.backfill = db.backfill ∧ db'.specs = db.specs ∧ NoneCollected db db' := by
  unfold syncMarket at h
  simp only at h
  split_ifs at h
  obtain ⟨hbackfill, hspecs, hcollected⟩ := recordStatusRevision_kept h
  have hupserted : (upsertMarket db item).backfill = db.backfill ∧
      (upsertMarket db item).specs = db.specs := by
    unfold upsertMarket
    split_ifs <;> exact ⟨rfl, rfl⟩
  exact ⟨hbackfill.trans hupserted.1, hspecs.trans hupserted.2,
    (upsertMarket_noneCollected db item).trans hcollected⟩

/-! ## A listed market -/

section Item

variable {env : CatalogEnvironment} {item : MarketCatalogItem} {observedAt : Instant}
variable {types : List DataType} {target : BackfillTarget}

theorem foldl_syncTarget_backfill (hnot : .sourceCandle ∉ types) (state : MarketDatabase × Bool) :
    (types.foldl (syncTarget env item observedAt) state).1.backfill = state.1.backfill := by
  induction types generalizing state with
  | nil => rfl
  | cons dataType types ih =>
    rw [mem_cons, not_or] at hnot
    refine (ih hnot.2 _).trans ?_
    simp [syncTarget, Ne.symm hnot.1, MarketDatabase.setSpec, MarketDatabase.setDesire]

/-- The backfill of a market that the catalog lists. -/
def syncRequest (env : CatalogEnvironment) (item : MarketCatalogItem) (observedAt : Instant) :
    BackfillRequest where
  targetSpecId := item.marketCode
  instrumentId := env.instrumentId item.marketCode
  startAt := defaultKrwStartAt
  endAt := observedAt
  priority := 100
  policyKey := none
  now := observedAt

theorem syncTarget_backfill (state : MarketDatabase × Bool) :
    (syncTarget env item observedAt state .sourceCandle).1.backfill =
      if (syncedSpec item .sourceCandle (state.1.specs item.marketCode .sourceCandle)).status =
          .active then ensureBackfillJob state.1.backfill (syncRequest env item observedAt)
      else state.1.backfill := by
  unfold syncTarget
  simp only [decide_true, Bool.true_and, decide_eq_true_eq]
  split_ifs <;> rfl

theorem syncCollection_backfill (db : MarketDatabase) :
    (syncCollection env db item observedAt).backfill =
      if (syncedSpec item .sourceCandle (db.specs item.marketCode .sourceCandle)).status =
          .active then ensureBackfillJob db.backfill (syncRequest env item observedAt)
      else db.backfill := by
  have hnot : DataType.sourceCandle ∉ DataType.defaults.tail := by decide
  have hdefaults : DataType.defaults = .sourceCandle :: DataType.defaults.tail := rfl
  have htargets : (syncCollection env db item observedAt).backfill =
      (syncTargets env db item observedAt).1.backfill := rfl
  rw [htargets, syncTargets, hdefaults, foldl_cons, foldl_syncTarget_backfill hnot,
    syncTarget_backfill]
  rfl

/-- Where no spec is active, the market is not collected. -/
theorem foldl_syncTarget_flag (hnodup : types.Nodup) (state : MarketDatabase × Bool) (hinactive : ∀
      dataType ∈ types, (syncedSpec item dataType (state.1.specs item.marketCode dataType)).status ≠
      .active) : (types.foldl (syncTarget env item observedAt) state).2 = state.2 := by
  induction types generalizing state with
  | nil => rfl
  | cons dataType types ih =>
    obtain ⟨hnot, hnodup⟩ := nodup_cons.mp hnodup
    rw [forall_mem_cons] at hinactive
    refine (ih hnodup _ fun other hother => ?_).trans ?_
    · have hne : dataType ≠ other := fun heq => hnot (heq ▸ hother)
      rw [(@syncTarget_other env item observedAt state _ _ hne).1]
      exact hinactive.2 other hother
    · simp [syncTarget, hinactive.1]

theorem HeldBack.synced (h : HeldBack spec) (dataType : DataType) :
    syncedSpec item dataType (some spec) = spec := by
  simp [syncedSpec, h.managed, h.held]

theorem ensureLegacyCollectionTarget_code (db : MarketDatabase)
    (h : market' ∈ (ensureLegacyCollectionTarget db item).markets.rows)
    (hcode : market'.marketCode ≠ item.marketCode) : market' ∈ db.markets.rows := by
  obtain ⟨market, hmarket, rfl⟩ := mem_updateMarket.mp h
  split_ifs at hcode ⊢ with hitem
  · exact absurd hitem hcode
  · exact hmarket

/-- Only the market of the item becomes collected, and that when one of its specs is active. -/
theorem syncCollection_collected
    (hmarket' : market' ∈ (syncCollection env db item observedAt).markets.rows)
    (hactive : market'.collectionActive = some true) :
    market'.marketCode = item.marketCode ∧ (syncTargets env db item observedAt).2 = true ∨
      market'.marketCode ≠ item.marketCode ∧ market' ∈ db.markets.rows := by
  obtain ⟨market, hmarket, rfl⟩ := mem_setCollectionTarget hmarket'
  rw [syncTargets, (foldl_syncTarget_other env item observedAt DataType.defaults _).1] at hmarket
  split_ifs at hactive ⊢ with hcode
  · refine .inl ⟨hcode, ?_⟩
    obtain ⟨collected, -, hflag⟩ := Option.map_eq_some_iff.mp hactive
    exact hflag
  · exact .inr ⟨hcode, ensureLegacyCollectionTarget_code db hmarket hcode⟩

variable {stops : OperatorStops} {db db' : MarketDatabase}

/-- The spec of a target is of the market of its instrument. -/
theorem spec_of_instrument (hheld : StopsHeld stops tables)
    (hids : stops.instrumentId = env.instrumentId) (htarget : target ∈ tables.targets.rows)
    (hinstrument : target.instrumentId = env.instrumentId marketCode)
    (hspec : target.targetSpecId = some code) : code = marketCode := by
  have hsame := hheld.specs target htarget code hspec
  rw [hinstrument, hids] at hsame
  exact (env.instrumentId_injective hsame).symm

/-- The stops depend on the jobs, the specs and the collected markets only. -/
theorem StopsSound.congr (h : StopsSound env stops db) (hbackfill : db'.backfill = db.backfill)
    (hspecs : db'.specs = db.specs) (hcollected : NoneCollected db db') :
    StopsSound env stops db' where
  ids := h.ids
  held := by rw [hbackfill]; exact h.held
  whole := by rw [hspecs]; exact h.whole
  decided := by rw [hspecs]; exact h.decided
  uncollected code hstopped market' hmarket' hcode hactive := by
    obtain ⟨market, hmarket, hsame, hactive⟩ := hcollected market' hmarket' hactive
    exact h.uncollected code hstopped market hmarket (hsame.trans hcode) hactive

/-- The specs of a stopped market stay as they are, and none is active. -/
theorem StopsSound.synced (h : StopsSound env stops db)
    (hstopped : stops.stopped item.marketCode = true) (dataType : DataType) :
    (syncedSpec item dataType (db.specs item.marketCode dataType)).status ≠ .active := by
  obtain ⟨spec, hspec, hheld⟩ := h.decided item.marketCode hstopped dataType
  rw [hspec, hheld.synced]
  exact hheld.inactive

/-- No stop is about another market's instrument. -/
theorem StopsSound.unstopped (h : StopsSound env stops db)
    (hunstopped : stops.stopped marketCode = false) (code : String)
    (hstopped : stops.stopped code = true) :
    env.instrumentId marketCode ≠ stops.instrumentId code := by
  rw [h.ids]
  intro heq
  rw [env.instrumentId_injective heq, hstopped] at hunstopped
  cases hunstopped

/-- The backfill that the sync gives a market. -/
theorem syncCollection_held (h : StopsSound env stops db) :
    StopsHeld stops (syncCollection env db item observedAt).backfill := by
  rw [syncCollection_backfill]
  split_ifs with hactive
  · refine ensureBackfillJob_stopsHeld h.held (congrFun h.ids.symm _) ?_
    have hunstopped : stops.stopped item.marketCode = false := by
      by_contra hstopped
      exact h.synced (by simpa using hstopped) .sourceCandle hactive
    exact h.unstopped hunstopped
  · exact h.held

theorem syncCollection_confined (db : MarketDatabase) :
    Confined (env.instrumentId item.marketCode) db.backfill
      (syncCollection env db item observedAt).backfill := by
  rw [syncCollection_backfill]
  split_ifs
  · exact ensureBackfillJob_confined db.backfill (syncRequest env item observedAt)
  · exact Confined.refl _ _

/-- A paused target after the collection was there before it, and a job that was there is open
where it was. -/
theorem syncCollection_paused
    (h : target ∈ (syncCollection env db item observedAt).backfill.targets.rows)
    (hpaused : target.status = .paused) : target ∈ db.backfill.targets.rows := by
  rw [syncCollection_backfill] at h
  split_ifs at h
  · exact ensureBackfillJob_paused h hpaused
  · exact h

/-- What the sync of an item takes up is not stopped. -/
theorem ItemRespects.resumes (h : StopsSound env stops db)
    (hrespects : ItemRespects env stops db item) (hquote : item.quoteCurrency = "KRW")
    (htradable : item.tradable = true) :
    Resumes stops (syncCollection env db item observedAt).backfill
      (syncCollection env db item observedAt).specEligible (env.instrumentId item.marketCode) := by
  intro job hjob hopen target htarget hid hresumable
  have hheld := @syncCollection_held env item observedAt stops db h
  simp only [resumable, Bool.and_eq_true, decide_eq_true_eq] at hresumable
  obtain ⟨⟨hinstrument, hpaused⟩, heligible⟩ := hresumable
  have hold := syncCollection_paused htarget hpaused
  obtain ⟨old, holdJob, holdId⟩ := h.held.jobOf target hold
  have holdOpen := (@syncCollection_confined env item observedAt db).opened old holdJob job hjob
    (hid.symm.trans holdId.symm) hopen
  have hcollects : target.targetSpecId.all (fun _ => specCollects
      (syncedSpec item .sourceCandle (db.specs item.marketCode .sourceCandle))) = true := by
    cases hspec : target.targetSpecId with
    | none => rfl
    | some code =>
      obtain rfl := spec_of_instrument hheld h.ids htarget hinstrument hspec
      obtain ⟨-, -, hsynced⟩ := syncCollection_spec env db item observedAt
      rw [hspec, Option.all_some, MarketDatabase.specEligible, (hsynced .sourceCandle).1]
        at heligible
      exact heligible
  have htaken : job.id ∈ takenUp env db item.marketCode (specCollects
      (syncedSpec item .sourceCandle (db.specs item.marketCode .sourceCandle))) := by
    refine mem_openJobsWith.mpr ⟨old, holdJob, holdId.trans hid, holdOpen, target, hold, hid, ?_⟩
    simp only [resumable, Bool.and_eq_true, decide_eq_true_eq]
    exact ⟨⟨hinstrument, hpaused⟩, hcollects⟩
  obtain ⟨hhalted, hunstopped⟩ := hrespects hquote htradable job.id htaken
  exact ⟨hhalted, h.unstopped hunstopped⟩

/-- The collection of a market, up to its backfill work. -/
theorem syncCollection_sound (h : StopsSound env stops db) :
    StopsSound env stops (syncCollection env db item observedAt) := by
  obtain ⟨-, hothers, hsynced⟩ := syncCollection_spec env db item observedAt
  exact {
    ids := h.ids
    held := syncCollection_held h
    whole := fun code dataType other hspec => by
      by_cases hcode : code = item.marketCode
      · rw [hcode, (hsynced other).1]
        rfl
      · rw [(hothers code hcode).1] at hspec ⊢
        exact h.whole code dataType other hspec
    decided := fun code hstopped dataType => by
      obtain ⟨spec, hspec, hheld⟩ := h.decided code hstopped dataType
      by_cases hcode : code = item.marketCode
      · subst hcode
        exact ⟨spec, by rw [(hsynced dataType).1, hspec, hheld.synced], hheld⟩
      · exact ⟨spec, by rw [(hothers code hcode).1]; exact hspec, hheld⟩
    uncollected := fun code hstopped market' hmarket' hcode hactive => by
      rcases syncCollection_collected hmarket' hactive with ⟨hitem, hflag⟩ | ⟨-, hmarket⟩
      · obtain rfl := hcode.symm.trans hitem
        have hnone : (syncTargets env db item observedAt).2 = false :=
          foldl_syncTarget_flag nodup_defaults _ fun dataType _ => h.synced hstopped dataType
        rw [hnone] at hflag
        cases hflag
      · exact h.uncollected code hstopped market' hmarket hcode hactive }

/-- A sync that respects the stops keeps them. -/
theorem syncItem_sound (h : StopsSound env stops db) (hrespects : ItemRespects env stops db item)
    (hitem : syncItem env observedAt db item = .ok db') : StopsSound env stops db' ∧
      Confined (env.instrumentId item.marketCode) db.backfill db'.backfill := by
  obtain ⟨recorded, hrecorded, hitem⟩ := bind_eq_ok.mp hitem
  obtain ⟨hbackfill, hspecs, hcollected⟩ := syncMarket_kept hrecorded
  have hsound := h.congr hbackfill hspecs hcollected
  have hrespects' : ItemRespects env stops recorded item := by
    unfold ItemRespects takenUp at hrespects ⊢
    rw [hbackfill, hspecs]
    exact hrespects
  split_ifs at hitem with hquote
  · obtain rfl := pure_eq_ok.mp hitem
    exact ⟨hsound, by rw [hbackfill]; exact Confined.refl _ _⟩
  · obtain rfl := pure_eq_ok.mp hitem
    have hcollection := @syncCollection_sound env item observedAt stops recorded hsound
    have hconfined := @syncCollection_confined env item observedAt recorded
    rw [hbackfill] at hconfined
    rw [not_not] at hquote
    have hresumes : (if item.tradable then SpecStatus.active else .paused) = .active →
        Resumes stops (syncCollection env recorded item observedAt).backfill
          (syncCollection env recorded item observedAt).specEligible
          (env.instrumentId item.marketCode) := by
      intro hactive
      refine hrespects'.resumes hsound hquote ?_
      split_ifs at hactive with htradable
      exact htradable
    exact ⟨⟨hcollection.ids, transitionMarketBackfillWork_stopsHeld hcollection.held hresumes,
      hcollection.whole, hcollection.decided, hcollection.uncollected⟩,
      hconfined.trans (transitionMarketBackfillWork_confined _ _ _ _)⟩

end Item

/-! ## A catalog -/

section Catalog

variable {env : CatalogEnvironment} {stops : OperatorStops} {db db' : MarketDatabase}
  {observedAt : Instant}
variable {catalog : List MarketCatalogItem}

/-- The sync of a market leaves what another one takes up. -/
theorem ItemRespects.confined (hrespects : ItemRespects env stops db item)
    (hheld : StopsHeld stops db.backfill)
    (hconfined : Confined (env.instrumentId marketCode) db.backfill db'.backfill)
    (hspecs : db'.specs item.marketCode = db.specs item.marketCode)
    (hne : item.marketCode ≠ marketCode) : ItemRespects env stops db' item := by
  intro hquote htradable jobId htaken
  rw [hspecs] at htaken
  refine hrespects hquote htradable jobId ?_
  obtain ⟨job', hjob', rfl, hopen, target, htarget, hid, hresumable⟩ := mem_openJobsWith.mp htaken
  have hinstrument : target.instrumentId ≠ env.instrumentId marketCode := by
    simp only [resumable, Bool.and_eq_true, decide_eq_true_eq] at hresumable
    rw [hresumable.1.1]
    exact fun heq => hne (env.instrumentId_injective heq)
  have hold := hconfined.others target htarget hinstrument
  obtain ⟨job, hjob, hjobId⟩ := hheld.jobOf target hold
  have hsame : job'.id = job.id := hid.symm.trans hjobId.symm
  exact mem_openJobsWith.mpr ⟨job, hjob, hsame.symm,
    hconfined.opened job hjob job' hjob' hsame hopen, target, hold, hid, hresumable⟩

theorem foldlM_syncItem_sound (hnodup : (catalog.map MarketCatalogItem.marketCode).Nodup)
    (h : StopsSound env stops db) (hrespects : ∀ item ∈ catalog, ItemRespects env stops db item)
    (hsync : catalog.foldlM (syncItem env observedAt) db = .ok db') : StopsSound env stops db' := by
  induction catalog generalizing db with
  | nil =>
    obtain rfl := pure_eq_ok.mp hsync
    exact h
  | cons item catalog ih =>
    rw [foldlM_cons] at hsync
    obtain ⟨synced, hitem, hsync⟩ := bind_eq_ok.mp hsync
    rw [map_cons, nodup_cons] at hnodup
    rw [forall_mem_cons] at hrespects
    obtain ⟨hsound, hconfined⟩ := syncItem_sound h hrespects.1 hitem
    refine ih hnodup.2 hsound (fun other hother => ?_) hsync
    have hne : other.marketCode ≠ item.marketCode := fun heq =>
      hnodup.1 (heq ▸ mem_map_of_mem hother)
    exact (hrespects.2 other hother).confined h.held hconfined
      ((syncItem_spec hitem).others.specs _ hne) hne

theorem HeldBack.missing (h : HeldBack spec) : HeldBack (missingSpec spec) := by
  obtain ⟨hmanaged, hheld, hinactive⟩ := h
  refine ⟨hmanaged, ?_, ?_⟩
  · unfold TargetSpec.held at hheld
    cases hstatus : spec.status <;> simp_all [missingSpec, TargetSpec.held]
  · simp only [missingSpec]
    split_ifs <;> exact fun hactive => by cases hactive

/-- Marking a market missing keeps the stops. -/
theorem markMissingMarket_sound {market : Market} (h : StopsSound env stops db)
    (hround : markMissingMarket env observedAt db market = .ok db') : StopsSound env stops db' := by
  obtain ⟨recorded, hrecorded, hround⟩ := bind_eq_ok.mp hround
  obtain rfl := pure_eq_ok.mp hround
  obtain ⟨hbackfill, hspecs, hcollected⟩ := recordStatusRevision_kept hrecorded
  have hsound := h.congr hbackfill hspecs hcollected
  have hmissing : ∀ code dataType, Function.update recorded.specs market.marketCode
      (fun dataType => (recorded.specs market.marketCode dataType).map missingSpec) code dataType =
        if code = market.marketCode then (recorded.specs code dataType).map missingSpec
        else recorded.specs code dataType := by
    intro code dataType
    rw [Function.update_apply]
    split_ifs with hcode
    · rw [hcode]
    · rfl
  exact {
    ids := h.ids
    held := stopMarketBackfillWork_stopsHeld hsound.held stopStatus_paused
    whole := fun code dataType other hspec => by
      refine (congrArg Option.isSome (hmissing code other)).trans ?_
      have hold : (recorded.specs code dataType).isSome = true := by
        have hnew := (congrArg Option.isSome (hmissing code dataType)).symm.trans hspec
        split_ifs at hnew
        · rwa [Option.isSome_map] at hnew
        · exact hnew
      have hother := hsound.whole code dataType other hold
      split_ifs
      · rwa [Option.isSome_map]
      · exact hother
    decided := fun code hstopped dataType => by
      obtain ⟨spec, hspec, hheld⟩ := hsound.decided code hstopped dataType
      by_cases hcode : code = market.marketCode
      · refine ⟨missingSpec spec, (hmissing code dataType).trans ?_, hheld.missing⟩
        rw [if_pos hcode, hspec]
        rfl
      · refine ⟨spec, (hmissing code dataType).trans ?_, hheld⟩
        rw [if_neg hcode, hspec]
    uncollected := fun code hstopped market' hmarket' hcode hactive => by
      obtain ⟨old, hold, hsame, hactive⟩ :=
        setCollectionTarget_noneCollected _ _ market' hmarket' hactive
      exact hsound.uncollected code hstopped old hold (hsame.trans hcode) hactive }

theorem syncMarketCatalog_sound (h : StopsSound env stops db)
    (hrespects : ∀ item ∈ catalog, ItemRespects env stops db item)
    (hsync : syncMarketCatalog env db catalog observedAt = .ok db') : StopsSound env stops db' := by
  unfold syncMarketCatalog at hsync
  split_ifs at hsync with _ hnodup
  obtain ⟨synced, hsynced, hsync⟩ := bind_eq_ok.mp hsync
  exact foldlM_invariant (fun _ _ _ _ hsound hround => markMissingMarket_sound hsound hround)
    (foldlM_syncItem_sound hnodup h hrespects hsynced) hsync

end Catalog

/-! ## A command for a market -/

section Command

variable {env : CatalogEnvironment} {stops : OperatorStops} {db : MarketDatabase}
  {command : TargetStateCommand}

theorem commandSpecs_apply (db : MarketDatabase) (command : TargetStateCommand) (code : String)
    (dataType : DataType) : (commandSpecs db command).specs code dataType =
      if code = command.marketCode then (db.specs code dataType).map (commandedSpec command
        (selectedDataTypes command (db.specs command.marketCode) dataType) dataType)
      else db.specs code dataType := by
  simp only [commandSpecs, Function.update_apply]
  split_ifs with hcode
  · rw [hcode]
  · rfl

/-- What a new policy leaves of the backfills. -/
theorem commandSuperseded_held (hheld : StopsHeld stops db.backfill)
    (specs : DataType → Option TargetSpec) :
    StopsHeld stops (commandSuperseded env specs db command) := by
  unfold commandSuperseded
  split_ifs
  · exact (cancelSupersededSourceBackfill_superseding hheld command.changedAt).held
  · exact hheld

/-- What an activation takes up again. -/
theorem CommandRespects.resumes (h : StopsSound env stops db)
    (hrespects : CommandRespects env stops db command) (hstate : command.state = .active)
    (hunstopped : stops.stopped command.marketCode = false) :
    Resumes stops (commandSuperseded env (db.specs command.marketCode) (commandSpecs db command)
      command) (commandSpecs db command).specEligible (env.instrumentId command.marketCode) := by
  intro job hjob hopen target htarget hid hresumable
  refine ⟨?_, h.unstopped hunstopped⟩
  have hparts := hresumable
  simp only [resumable, Bool.and_eq_true, decide_eq_true_eq] at hparts
  obtain ⟨⟨hinstrument, hpaused⟩, heligible⟩ := hparts
  cases hsupersedes : supersedes (db.specs command.marketCode) command with
  | true =>
    -- the superseded work leaves nothing to take up
    have hcancelled : commandSuperseded env (db.specs command.marketCode)
        (commandSpecs db command) command = cancelSupersededSourceBackfill db.backfill
          command.changedAt (env.instrumentId command.marketCode) := if_pos hsupersedes
    rw [hcancelled] at hjob htarget
    have hleft := (@cancelSupersededSourceBackfill_superseding stops db.backfill
      (env.instrumentId command.marketCode) h.held command.changedAt).left job hjob hopen target
      htarget hid (by simp [stoppable, hinstrument, hpaused])
    cases hleft
  | false =>
    have hsame : commandSuperseded env (db.specs command.marketCode) (commandSpecs db command)
        command = db.backfill := if_neg (Bool.eq_false_iff.mp hsupersedes)
    rw [hsame] at hjob htarget
    refine hrespects hstate hsupersedes job.id (mem_openJobsWith.mpr
      ⟨job, hjob, rfl, hopen, target, htarget, hid, ?_⟩)
    simp only [resumable, Bool.and_eq_true, decide_eq_true_eq]
    refine ⟨⟨hinstrument, hpaused⟩, ?_⟩
    cases hspec : target.targetSpecId with
    | none => rfl
    | some code =>
      obtain rfl := spec_of_instrument h.held h.ids htarget hinstrument hspec
      rw [hspec, Option.all_some, MarketDatabase.specEligible, commandSpecs_apply, if_pos rfl,
        Option.any_map] at heligible
      exact heligible

/-- The backfill work of the market after its transition. -/
def commandedWork (env : CatalogEnvironment) (db : MarketDatabase) (command : TargetStateCommand) :
    BackfillTables :=
  transitionMarketBackfillWork
    (commandSuperseded env (db.specs command.marketCode) (commandSpecs db command) command)
    (commandSpecs db command).specEligible (env.instrumentId command.marketCode) command.state

/-- An activation may give the market a further backfill. -/
theorem commandTransition_cases (env : CatalogEnvironment) (db : MarketDatabase)
    (command : TargetStateCommand) :
    (commandTransition env (db.specs command.marketCode) (commandSpecs db command)
      command).backfill = commandedWork env db command ∨
    command.state = .active ∧ ∃ request : BackfillRequest,
      request.targetSpecId = command.marketCode ∧
      request.instrumentId = env.instrumentId command.marketCode ∧
      (commandTransition env (db.specs command.marketCode) (commandSpecs db command)
        command).backfill = ensureBackfillJob (commandedWork env db command) request := by
  have hbackfill : (commandTransition env (db.specs command.marketCode) (commandSpecs db command)
      command).backfill = commandBackfill env (db.specs command.marketCode)
        ((commandSpecs db command).withBackfill (commandedWork env db command)) command := rfl
  rw [hbackfill]
  unfold commandBackfill
  cases db.specs command.marketCode .sourceCandle with
  | none => exact .inl rfl
  | some spec =>
    simp only [Option.elim_some]
    split_ifs with hactive
    · simp only [Bool.and_eq_true, decide_eq_true_eq] at hactive
      exact .inr ⟨hactive.1.2, _, rfl, rfl, rfl⟩
    · exact .inl rfl

/-- A market that is active again is not stopped. -/
theorem StopsSound.restart (h : StopsSound env stops db) (marketCode : String) :
    StopsSound env (stops.withStopped marketCode false) db := by
  have hstopped : ∀ code, (stops.withStopped marketCode false).stopped code = true →
      stops.stopped code = true := by
    intro code hcode
    simp only [OperatorStops.withStopped, Function.update_apply] at hcode
    split_ifs at hcode
    exact hcode
  exact ⟨h.ids, h.held.restart marketCode, h.whole,
    fun code hcode => h.decided code (hstopped code hcode),
    fun code hcode => h.uncollected code (hstopped code hcode)⟩

/-- A command that stops a market stops its backfill work. -/
theorem commandTransition_stopped (h : StopsSound env stops db) (hstate : command.state ≠ .active) :
    StopsHeld (stops.withStopped command.marketCode true)
      (commandTransition env (db.specs command.marketCode) (commandSpecs db command)
        command).backfill := by
  have hsuperseded := @commandSuperseded_held env stops (commandSpecs db command) command h.held
    (db.specs command.marketCode)
  have hheld : StopsHeld stops (commandedWork env db command) :=
    transitionMarketBackfillWork_stopsHeld hsuperseded fun hactive => absurd hactive hstate
  rcases commandTransition_cases env db command with hsame | ⟨hactive, -⟩
  · rw [hsame]
    refine hheld.stop ?_
    rw [h.ids]
    exact transitionMarketBackfillWork_inactive hsuperseded hstate
  · exact absurd hactive hstate

/-- A command that activates a market takes its backfill work up again. -/
theorem commandTransition_restarted (h : StopsSound env stops db)
    (hrespects : CommandRespects env stops db command) (hstate : command.state = .active)
    (hunstopped : stops.stopped command.marketCode = false) :
    StopsHeld stops (commandTransition env (db.specs command.marketCode) (commandSpecs db command)
      command).backfill := by
  have hheld : StopsHeld stops (commandedWork env db command) :=
    transitionMarketBackfillWork_stopsHeld
      (@commandSuperseded_held env stops (commandSpecs db command) command h.held _)
      fun _ => hrespects.resumes h hstate hunstopped
  rcases commandTransition_cases env db command with
    hsame | ⟨-, request, hspec, hinstrument, hensured⟩
  · rw [hsame]
    exact hheld
  · rw [hensured]
    refine ensureBackfillJob_stopsHeld hheld ?_ ?_
    · rw [hinstrument, hspec, h.ids]
    · rw [hinstrument]
      exact h.unstopped hunstopped

theorem commandedSpec_heldBack (hstate : command.state ≠ .active) (selected : Bool)
    (dataType : DataType) (spec : TargetSpec) :
    HeldBack (commandedSpec command selected dataType spec) := by
  obtain ⟨hdecision, hmanaged, -⟩ := commandedSpec_decision command selected dataType spec
  have hinactive : (commandedSpec command selected dataType spec).status ≠ .active := fun hactive =>
    hstate (commandedSpec_active.mp hactive).2
  exact ⟨hmanaged, hdecision.held hinactive, hinactive⟩

/-- The specs after a command: a market keeps all of them or none. -/
theorem commandSpecs_whole (h : StopsSound env stops db) (code : String) (dataType other : DataType)
    (hspec : ((commandSpecs db command).specs code dataType).isSome = true) :
    ((commandSpecs db command).specs code other).isSome = true := by
  rw [commandSpecs_apply] at hspec ⊢
  have hold : (db.specs code dataType).isSome = true := by
    split_ifs at hspec
    · rwa [Option.isSome_map] at hspec
    · exact hspec
  have hother := h.whole code dataType other hold
  split_ifs
  · rwa [Option.isSome_map]
  · exact hother

/-- The markets other than that of the command are as they were. -/
theorem applyCommand_market (h : market' ∈ (applyCommand env db command).markets.rows) :
    market'.marketCode = command.marketCode ∧
        (market'.collectionActive = some true → command.state = .active) ∨
      market'.marketCode ≠ command.marketCode ∧ market' ∈ db.markets.rows := by
  obtain ⟨market, hmarket, rfl⟩ := mem_setCollectionTarget h
  split_ifs with hcode
  · refine .inl ⟨hcode, fun hactive => ?_⟩
    obtain ⟨collected, -, hstate⟩ := Option.map_eq_some_iff.mp hactive
    exact of_decide_eq_true hstate
  · exact .inr ⟨hcode, hmarket⟩

/-- A command that respects the stops keeps them, and sets that of its market. -/
theorem applyCommand_sound (h : StopsSound env stops db)
    (hspec : ∃ dataType, (db.specs command.marketCode dataType).isSome = true)
    (hrespects : CommandRespects env stops db command) :
    StopsSound env (stops.withStopped command.marketCode (command.state ≠ .active))
      (applyCommand env db command) := by
  by_cases hstate : command.state = .active
  · have hstops : decide (command.state ≠ .active) = false := by simp [hstate]
    rw [hstops]
    have hrestarted := h.restart command.marketCode
    have hunstopped : (stops.withStopped command.marketCode false).stopped command.marketCode =
        false := Function.update_self ..
    exact {
      ids := h.ids
      held := commandTransition_restarted hrestarted hrespects hstate hunstopped
      whole := commandSpecs_whole h
      decided := fun code hstopped dataType => by
        have hne : code ≠ command.marketCode := by
          rintro rfl
          rw [hunstopped] at hstopped
          cases hstopped
        obtain ⟨spec, hold, hheld⟩ := hrestarted.decided code hstopped dataType
        exact ⟨spec, (commandSpecs_apply db command code dataType).trans
          ((if_neg hne).trans hold), hheld⟩
      uncollected := fun code hstopped market' hmarket' hcode hactive => by
        rcases applyCommand_market hmarket' with ⟨hsame, -⟩ | ⟨-, hold⟩
        · rw [← hcode, hsame, hunstopped] at hstopped
          cases hstopped
        · exact hrestarted.uncollected code hstopped market' hold hcode hactive }
  · have hstops : decide (command.state ≠ .active) = true := by simp [hstate]
    rw [hstops]
    have hstopped : ∀ code, code ≠ command.marketCode →
        (stops.withStopped command.marketCode true).stopped code = true →
        stops.stopped code = true := by
      intro code hne hcode
      simpa [OperatorStops.withStopped, hne] using hcode
    exact {
      ids := h.ids
      held := commandTransition_stopped h hstate
      whole := commandSpecs_whole h
      decided := fun code hcode dataType => by
        by_cases hne : code = command.marketCode
        · obtain ⟨other, hother⟩ := hspec
          subst hne
          obtain ⟨spec, hold⟩ := Option.isSome_iff_exists.mp (h.whole _ other dataType hother)
          refine ⟨_, (commandSpecs_apply db command _ dataType).trans ?_,
            commandedSpec_heldBack hstate (selectedDataTypes command (db.specs command.marketCode)
              dataType) dataType spec⟩
          rw [if_pos rfl, hold]
          rfl
        · obtain ⟨spec, hold, hheld⟩ := h.decided code (hstopped code hne hcode) dataType
          exact ⟨spec, (commandSpecs_apply db command code dataType).trans
            ((if_neg hne).trans hold), hheld⟩
      uncollected := fun code hcode market' hmarket' hsame hactive => by
        rcases applyCommand_market hmarket' with ⟨-, hnot⟩ | ⟨hne, hold⟩
        · exact hstate (hnot hactive)
        · exact h.uncollected code (hstopped code (hsame ▸ hne) hcode) market' hold hsame
            hactive }

end Command

/-! ## Every step and every run -/

section Runs

variable {ar : Arithmetic} {sha256 : String → String} {env : CatalogEnvironment}
  {state : OperatorState}
variable {stops : OperatorStops}

theorem StopsSound.withBackfill (h : StopsSound env stops db) (hheld : StopsHeld stops tables) :
    StopsSound env stops (db.withBackfill tables) :=
  ⟨h.ids, hheld, h.whole, h.decided, h.uncollected⟩

theorem withResult_sound {result : Except BackfillError BackfillTables}
    (h : StopsSound env (operatorStops env state) state.db)
    (hresult : ∀ tables, result = .ok tables → StopsHeld (operatorStops env state) tables) :
    StopsSound env (operatorStops env (state.withResult result)) (state.withResult result).db := by
  cases result with
  | error error => exact h
  | ok tables => exact h.withBackfill (hresult tables rfl)

theorem setTargetState_sound {command : TargetStateCommand}
    (h : StopsSound env (operatorStops env state) state.db)
    (hrespects : RespectsStops env state (.setTargetState command)) :
    StopsSound env (operatorStops env (state.after ar sha256 env (.setTargetState command)))
      (state.after ar sha256 env (.setTargetState command)).db := by
  cases hset : setMarketTargetState env state.db command with
  | error error =>
    have hafter : state.after ar sha256 env (.setTargetState command) = state := by
      simp [OperatorState.after, hset, Except.toOption]
    rw [hafter]
    exact h
  | ok result =>
    obtain ⟨new, db'⟩ := result
    have hafter : state.after ar sha256 env (.setTargetState command) =
        state.withCommand command (new, db') := by
      simp [OperatorState.after, hset, Except.toOption]
    rw [hafter]
    rcases setMarketTargetState_eq_ok hset with ⟨rfl, -⟩ | ⟨rfl, rfl, hmarket⟩
    · exact h
    · exact applyCommand_sound h (checkMarket_eq_ok hmarket).2 (hrespects ⟨_, hset⟩)

theorem control_sound {jobId : ℤ} {action : ControlAction}
    (h : StopsSound env (operatorStops env state) state.db)
    (hrespects : RespectsStops env state (.control jobId action)) :
    StopsSound env (operatorStops env (state.after ar sha256 env (.control jobId action)))
      (state.after ar sha256 env (.control jobId action)).db := by
  cases hcontrol : controlBackfillJob state.db.backfill jobId action with
  | error error =>
    have hafter : state.after ar sha256 env (.control jobId action) = state := by
      simp [OperatorState.after, hcontrol, Except.toOption]
    rw [hafter]
    exact h
  | ok tables =>
    have hafter : state.after ar sha256 env (.control jobId action) =
        state.withControl jobId action tables := by
      simp [OperatorState.after, hcontrol, Except.toOption]
    rw [hafter]
    obtain ⟨⟨⟩, hread, -⟩ := bind_eq_ok.mp hcontrol
    exact ⟨h.ids, controlBackfillJob_stopsHeld h.held (hrespects hread) hcontrol, h.whole,
      h.decided, h.uncollected⟩

/-- A stopped market is not collected. -/
theorem StopsSound.not_activeMarket (h : StopsSound env stops db) {instrumentId : ℤ}
    (hactive : activeMarket env db instrumentId = true) (code : String)
    (hstopped : stops.stopped code = true) : instrumentId ≠ stops.instrumentId code := by
  rw [h.ids]
  rintro rfl
  obtain ⟨market, hmarket, hcollected⟩ := any_eq_true.mp hactive
  simp only [Bool.and_eq_true, decide_eq_true_eq] at hcollected
  exact h.uncollected code hstopped market hmarket
    (env.instrumentId_injective hcollected.1.1) hcollected.1.2

/-- A step that respects the stops keeps what holds of them. -/
theorem afterEvent_sound {event : OperatorEvent}
    (h : StopsSound env (operatorStops env state) state.db)
    (hrespects : RespectsStops env state event) :
    StopsSound env (operatorStops env (state.after ar sha256 env event))
      (state.after ar sha256 env event).db := by
  cases event with
  | syncCatalog catalog observedAt =>
    cases hsync : syncMarketCatalog env state.db catalog observedAt with
    | error error =>
      have hafter : state.after ar sha256 env (.syncCatalog catalog observedAt) = state := by
        simp [OperatorState.after, hsync, Except.toOption]
      rw [hafter]
      exact h
    | ok db =>
      have hafter : state.after ar sha256 env (.syncCatalog catalog observedAt) =
          state.withDatabase db := by
        simp [OperatorState.after, hsync, Except.toOption]
      rw [hafter]
      exact syncMarketCatalog_sound h (hrespects ⟨db, hsync⟩) hsync
  | setTargetState command => exact setTargetState_sound h hrespects
  | createPlan planId now targetStartAt targetEndAt instrumentIds =>
    exact withResult_sound h fun _ hplan => createBackfillPlan_stopsHeld h.held hplan
  | approve planId now =>
    exact withResult_sound h fun _ happrove =>
      approveBackfillJob_stopsHeld h.held (fun _ => h.not_activeMarket) happrove
  | control jobId action => exact control_sound h hrespects
  | claim call => exact h.withBackfill (claim_stopsHeld h.held call)
  | mark call mark refresh =>
    exact withResult_sound h fun _ hmark => markBackfillTarget_stopsHeld h.held hmark
  | recordCandles call marketId candles =>
    exact withResult_sound h fun _ hrecord => recordBackfillCandles_stopsHeld h.held hrecord
  | recordProgress call progress =>
    exact withResult_sound h fun _ hrecord =>
      recordBackfillTargetProgress_stopsHeld h.held hrecord

/-- Every step of the run respects the stops. -/
def RunRespectsStops (ar : Arithmetic) (sha256 : String → String) (env : CatalogEnvironment)
    (start : OperatorState) (events : List OperatorEvent) : Prop :=
  StepsMeet (OperatorState.after ar sha256 env) (RespectsStops env) start events

theorem afterEvents_sound {start : OperatorState} {events : List OperatorEvent}
    (h : StopsSound env (operatorStops env start) start.db)
    (hrespects : RunRespectsStops ar sha256 env start events) :
    StopsSound env (operatorStops env (start.afterEvents ar sha256 env events))
      (start.afterEvents ar sha256 env events).db := by
  refine @StepsMeet.invariant _ _ _ _ _ _ (fun state => StopsSound env (operatorStops env state)
    state.db) hrespects (fun state event hsound hevent => ?_) h
  exact afterEvent_sound hsound hevent

theorem initial_sound (env : CatalogEnvironment) :
    StopsSound env (operatorStops env .initial) OperatorState.initial.db where
  ids := rfl
  held := {
    jobOf := fun _ h => by cases h
    fits := fun _ h => by cases h
    specs := fun _ h => by cases h
    haltedJob := fun _ h => by cases h
    atRest := fun _ h => by cases h
    inactive := fun _ h => by cases h }
  whole _ _ _ h := by cases h
  decided _ h := by cases h
  uncollected _ h := by cases h

/-- What the stops of the operator are for: a halted job is not worked on and not claimed, and a
stopped market has no target that is worked on, and its candles are not recorded. -/
structure StopsHonoured (ar : Arithmetic) (sha256 : String → String) (env : CatalogEnvironment)
    (state : OperatorState) : Prop where
  halted : ∀ job ∈ state.db.backfill.jobs.rows, state.halted job.id = true →
    job.status ≠ .pending ∧ job.status ≠ .retryWait ∧ job.status ≠ .running
  unclaimed : ∀ call job, (claimNextBackfillJob state.db.backfill call).1 = some job →
    state.halted job.id = false
  inactive : ∀ code, state.stopped code = true → ∀ target ∈ state.db.backfill.targets.rows,
    target.instrumentId = env.instrumentId code →
      target.status ≠ .pending ∧ target.status ≠ .running
  unrecorded : ∀ code, state.stopped code = true → ∀ call marketId candles tables,
    recordBackfillCandles ar sha256 state.db.backfill call marketId candles = .ok tables →
      call.instrumentId ≠ env.instrumentId code ∧
        ∀ candle ∈ candles, candle.instrumentId ≠ env.instrumentId code

theorem StopsSound.honoured (h : StopsSound env (operatorStops env state) state.db) :
    StopsHonoured ar sha256 env state where
  halted job hjob hhalted := by
    have hrest := h.held.atRest job hjob hhalted
    refine ⟨?_, ?_, ?_⟩ <;> intro hstatus <;> rw [hstatus] at hrest <;> cases hrest
  unclaimed call job hclaim := claim_not_halted h.held hclaim
  inactive code hstopped target htarget hinstrument := by
    have hnot := h.held.inactive code hstopped target htarget hinstrument
    constructor <;> intro hstatus <;> rw [hstatus] at hnot <;> cases hnot
  unrecorded code hstopped call marketId candles tables hrecord := by
    unfold recordBackfillCandles at hrecord
    split_ifs at hrecord with hcandles
    obtain ⟨⟨⟩, hassert, -⟩ := bind_eq_ok.mp hrecord
    obtain ⟨job, target, hlease⟩ := assertBackfillWriteLease_ok.mp hassert
    have hinstrument : target.instrumentId = call.instrumentId :=
      congrArg Prod.snd hlease.target_key
    have hne : call.instrumentId ≠ env.instrumentId code := by
      intro heq
      have hnot := h.held.inactive code hstopped target hlease.target_mem (hinstrument.trans heq)
      rw [hlease.active] at hnot
      cases hnot
    refine ⟨hne, fun candle hcandle heq => hcandles (any_eq_true.mpr ⟨candle, hcandle, ?_⟩)⟩
    rw [heq]
    exact decide_eq_true hne.symm

end Runs

/-- In every run from empty tables whose steps respect the stops, the stops are honoured.
SOURCE: postgres_repository.py:3086-3169, 3629-3716; data_foundation_repository.py:401-434,
1740-1849 -/
theorem operatorStops_honoured (ar : Arithmetic) (sha256 : String → String)
    (env : CatalogEnvironment) (events : List OperatorEvent)
    (hrespects : RunRespectsStops ar sha256 env .initial events) :
    StopsHonoured ar sha256 env (OperatorState.initial.afterEvents ar sha256 env events) :=
  (afterEvents_sound (initial_sound env) hrespects).honoured

/-! ## A market that the catalog lists again -/

/-- The catalog lists the market, some minutes after the default start. -/
def listMarket (minutes : ℤ) : OperatorEvent :=
  .syncCatalog [listed "KRW-BTC"] (defaultKrwStartAt + 60000000 * minutes)

/-- The stop of a market outlasts the next catalog. -/
theorem operatorStops_honoured_paused : StopsHonoured .default id exampleEnvironment
      (OperatorState.initial.afterEvents .default id exampleEnvironment
        [listMarket 1, .setTargetState pauseMarket, listMarket 2]) := by
  have hcatalog : ∀ (state : OperatorState) (minutes : ℤ),
      takenUp exampleEnvironment state.db "KRW-BTC" (specCollects (syncedSpec (listed "KRW-BTC")
        .sourceCandle (state.db.specs "KRW-BTC" .sourceCandle))) = [] →
      RespectsStops exampleEnvironment state (listMarket minutes) := by
    intro state minutes hnone _ item hitem _ _ jobId htaken
    obtain rfl := mem_singleton.mp hitem
    rw [show (listed "KRW-BTC").marketCode = "KRW-BTC" from rfl, hnone] at htaken
    cases htaken
  have hpause : ∀ state, RespectsStops exampleEnvironment state (.setTargetState pauseMarket) :=
    fun _ _ hactive => by cases hactive
  exact operatorStops_honoured .default id exampleEnvironment _ (stepsMeet_cons.mpr
    ⟨hcatalog _ 1 (by decide +kernel), stepsMeet_cons.mpr ⟨hpause _,
      stepsMeet_cons.mpr ⟨hcatalog _ 2 (by decide +kernel), stepsMeet_nil⟩⟩⟩)

/-- The operator pauses the backfill of a market, and the next catalog starts it again; or the
operator stops a market, and the resumption of its backfill works on it again. -/
theorem sync_resumes_halted_job : ¬ StopsHonoured .default id exampleEnvironment
      (OperatorState.initial.afterEvents .default id exampleEnvironment
        [listMarket 1, .control 1 .pause, listMarket 2]) ∧
    ¬ StopsHonoured .default id exampleEnvironment
      (OperatorState.initial.afterEvents .default id exampleEnvironment
        [listMarket 1, .setTargetState pauseMarket, .control 1 .resume]) := by
  constructor
  · intro hhonoured
    have hresumed : ((OperatorState.initial.afterEvents .default id exampleEnvironment
        [listMarket 1, .control 1 .pause, listMarket 2]).db.backfill.jobs.rows.any fun job =>
          (OperatorState.initial.afterEvents .default id exampleEnvironment
            [listMarket 1, .control 1 .pause, listMarket 2]).halted job.id &&
          job.status = .pending) = true := by
      decide +kernel
    obtain ⟨job, hjob, hstatus⟩ := any_eq_true.mp hresumed
    simp only [Bool.and_eq_true, decide_eq_true_eq] at hstatus
    exact (hhonoured.halted job hjob hstatus.1).1 hstatus.2
  · intro hhonoured
    have hstopped : (OperatorState.initial.afterEvents .default id exampleEnvironment
        [listMarket 1, .setTargetState pauseMarket, .control 1 .resume]).stopped "KRW-BTC" =
        true := by
      decide +kernel
    have hresumed : ((OperatorState.initial.afterEvents .default id exampleEnvironment
        [listMarket 1, .setTargetState pauseMarket,
          .control 1 .resume]).db.backfill.targets.rows.any fun target =>
            target.instrumentId = exampleEnvironment.instrumentId "KRW-BTC" &&
            target.status = .pending) = true := by
      decide +kernel
    obtain ⟨target, htarget, hstatus⟩ := any_eq_true.mp hresumed
    simp only [Bool.and_eq_true, decide_eq_true_eq] at hstatus
    exact (hhonoured.inactive "KRW-BTC" hstopped target htarget hstatus.1).1 hstatus.2

end Goodmoneying.Analysis
