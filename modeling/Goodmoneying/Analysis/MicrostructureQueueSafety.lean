import Goodmoneying.Analysis.KeysetPagination
import Goodmoneying.Program.MicrostructureQueue

/-!
# The queue of the microstructure

Rows that are worked on are outside the index of those that wait, so an event that is inserted
meanwhile makes a second row of the same key, and the worker's row cannot wait again beside it
(`insertedMeanwhile_refused`). Where no event is inserted for a key that is worked on (`Unworked`),
a key has one active row at most, and no update is refused (`release_never_refused`).
-/

namespace Goodmoneying.Analysis

open List Library Program

variable {sha256 : List ℕ → String} {evidence : EvidenceTables} {db db' : MicrostructureDatabase}
variable {now : Instant} {locked : ℤ → Bool} {workerId : String} {claimed : ClaimedInvalidation}
  {change : MicrostructureInvalidation → MicrostructureInvalidation}
  {row : MicrostructureInvalidation} {rows : List MicrostructureInvalidation}
  {state : MicrostructureState}

/-! ## What the transactions do -/

/-- An event is merged into the rows that wait with its key, or gets a new one. -/
theorem enqueue_cases (evidence : EvidenceTables) (now : Instant) (db : MicrostructureDatabase)
    (event : MarketEvent) :
    ((∃ row ∈ db.invalidations.rows, row.waits = true ∧ row.key = event.key evidence) ∧
      (enqueueMicrostructureInvalidation evidence now db event).invalidations.rows =
        db.invalidations.rows.map fun row =>
          if row.waits = true ∧ row.key = event.key evidence then row.merge db now event else row) ∨
    ((∀ row ∈ db.invalidations.rows, row.waits = true → row.key ≠ event.key evidence) ∧
      (enqueueMicrostructureInvalidation evidence now db event).invalidations.rows =
        db.invalidations.rows ++
          [event.invalidation evidence db now (db.invalidations.last + 1)]) := by
  unfold enqueueMicrostructureInvalidation
  dsimp only
  by_cases h : (db.invalidations.rows.any fun row =>
      row.waits && decide (row.key = event.key evidence)) = true
  · left
    rw [if_pos h]
    obtain ⟨row, hrow, hcondition⟩ := any_eq_true.mp h
    simp only [Bool.and_eq_true, decide_eq_true_eq] at hcondition
    refine ⟨⟨row, hrow, hcondition⟩, ?_⟩
    rw [IdentityTable.update_rows]
    simp only [Bool.and_eq_true, decide_eq_true_eq]
  · right
    rw [if_neg h]
    refine ⟨fun row hrow hwaits hkey => h ?_, rfl⟩
    rw [any_eq_true]
    exact ⟨row, hrow, by simp [hwaits, hkey]⟩

/-- The row that is claimed, and the rows after the claim. -/
theorem claimMicrostructureInvalidation_cases {claimed : Option ClaimedInvalidation}
    (h : claimMicrostructureInvalidation now locked db workerId = (claimed, db')) :
    (claimed = none ∧ db' = db) ∨
    ∃ row ∈ db.invalidations.rows, row.claimable now db.invalidations.rows = true ∧
      claimed = some ⟨row.claim now workerId, row.status, workerId⟩ ∧
      db' = { db with
        invalidations := db.invalidations.update (fun other => other.id = row.id)
          (fun row => row.claim now workerId)
          (MicrostructureInvalidation.claim_id now workerId) } := by
  unfold claimMicrostructureInvalidation at h
  split at h
  next => exact Or.inl ⟨(congrArg Prod.fst h).symm, (congrArg Prod.snd h).symm⟩
  next row hfind =>
    right
    have hcondition := List.find?_some hfind
    rw [Bool.and_eq_true] at hcondition
    exact ⟨row, mem_of_find?_eq_some hfind, hcondition.1, (congrArg Prod.fst h).symm,
      (congrArg Prod.snd h).symm⟩

/-- A row that a worker's update may write: it waits again, or its attempts are used up. -/
structure PutBack (row row' : MicrostructureInvalidation) : Prop where
  id : row'.id = row.id
  key : row'.key = row.key
  frontier : row'.frontier = row.frontier
  knowledgeAt : row'.knowledgeAt = row.knowledgeAt
  leaseOwner : row'.leaseOwner = none
  status : row'.status = .pending ∨ row'.status = .retryWait ∨ row'.status = .deadLetter

theorem putBack_release (now : Instant) (error : String) (row : MicrostructureInvalidation) :
    PutBack row (row.release now error) := by
  refine ⟨rfl, rfl, rfl, rfl, rfl, ?_⟩
  unfold MicrostructureInvalidation.release MicrostructureInvalidation.statusAfterFailure
  dsimp only
  split_ifs <;> simp

theorem putBack_restore (previousStatus : InvalidationStatus) (row : MicrostructureInvalidation) :
    PutBack row (row.restore previousStatus) := by
  refine ⟨rfl, rfl, rfl, rfl, rfl, ?_⟩
  unfold MicrostructureInvalidation.restore
  dsimp only
  split_ifs with h
  · rcases h with rfl | rfl <;> simp
  · simp

theorem putBack_fail (now : Instant) (exc : MicrostructureException)
    (row : MicrostructureInvalidation) : PutBack row (row.fail now exc) := by
  refine ⟨rfl, rfl, rfl, rfl, rfl, ?_⟩
  unfold MicrostructureInvalidation.fail MicrostructureInvalidation.statusAfterFailure
  dsimp only
  split_ifs <;> simp

/-- The database after a worker's update that was not refused. -/
def PutsBack (claimed : ClaimedInvalidation) (db db' : MicrostructureDatabase) : Prop :=
  ∃ (change : MicrostructureInvalidation → MicrostructureInvalidation)
    (hid : ∀ row, (change row).id = row.id), (∀ row, PutBack row (change row)) ∧
    db' = { db with
      invalidations := db.invalidations.update (fun row => row.leasedTo claimed) change hid } ∧
    WaitingKeysUnique db'.invalidations.rows

theorem updateInvalidations_eq_ok {p : MicrostructureInvalidation → Bool}
    {hid : ∀ row, (change row).id = row.id} (h : updateInvalidations db p change hid = .ok db') :
    db' = { db with invalidations := db.invalidations.update p change hid } ∧
      WaitingKeysUnique db'.invalidations.rows := by
  unfold updateInvalidations at h
  dsimp only at h
  split_ifs at h with hunique
  obtain rfl := Except.ok.inj h
  exact ⟨rfl, hunique⟩

theorem releaseForRetry_putsBack {error : String}
    (h : releaseForRetry now db claimed error = .ok db') : PutsBack claimed db db' := by
  obtain ⟨heq, hunique⟩ := updateInvalidations_eq_ok h
  exact ⟨_, _, putBack_release now error, heq, hunique⟩

theorem releasePrecedingFrontier_putsBack (h : releasePrecedingFrontier db claimed = .ok db') :
    PutsBack claimed db db' := by
  obtain ⟨heq, hunique⟩ := updateInvalidations_eq_ok h
  exact ⟨_, _, putBack_restore claimed.previousStatus, heq, hunique⟩

theorem failInvalidation_putsBack {exc : MicrostructureException}
    (h : failInvalidation now db claimed exc = .ok db') : PutsBack claimed db db' := by
  obtain ⟨heq, hunique⟩ := updateInvalidations_eq_ok h
  exact ⟨_, _, putBack_fail now exc, heq, hunique⟩

/-- The work that succeeds: on a live row that no active one precedes, from the inputs that the
row covers. -/
def Materializes (sha256 : List ℕ → String) (evidence : EvidenceTables)
    (claimed : ClaimedInvalidation) (db db' : MicrostructureDatabase) : Prop :=
  ∃ leasedAt completedAt, ∃ live ∈ db.invalidations.rows, live.live leasedAt claimed = true ∧
    live.live completedAt claimed = true ∧
    (∀ row ∈ db.invalidations.rows, row.isOf live.key.instrumentId live.key.bucketStartAt = true →
      row.id < live.id → row.isActive = false) ∧
    ∃ qualities tradeQuality candle point sourceAsOf knowledgeAt,
      qualities = connectionQualities evidence.realtime live.marketId live.key.bucketStartAt
        (live.key.bucketStartAt + minute) live.knowledgeAt live.key.connectionQualityThroughId ∧
      qualities.lookup "trade_event" = some tradeQuality ∧
      sourceCandleInput evidence live = .ok (some candle) ∧
      calculateMicrostructureBucket sha256 live.key.bucketStartAt
        (live.key.bucketStartAt + minute) (orderbookInputs db live) (tradeInputs db live)
        live.frontier (bucketEvidence qualities tradeQuality candle) = .ok point ∧
      point.knowledgeAt = some knowledgeAt ∧
      db' = { insertMaterialization db live.key.instrumentId live.marketId point knowledgeAt
          sourceAsOf (orderbookInputs db live) (tradeInputs db live) with
        invalidations := db.invalidations.update
          (fun row => row.live completedAt claimed) (fun row => row.succeed completedAt)
          (MicrostructureInvalidation.succeed_id completedAt) }

theorem insertMaterialization_invalidations (db : MicrostructureDatabase)
    (instrumentId marketId : ℤ) (point : MicrostructurePoint) (knowledgeAt sourceAsOf : Instant)
    (orderbooks : List MicrostructureOrderbookInput) (trades : List MicrostructureTradeInput) :
    (insertMaterialization db instrumentId marketId point knowledgeAt sourceAsOf orderbooks
      trades).invalidations = db.invalidations := by
  unfold insertMaterialization
  split_ifs <;> rfl

theorem live_id (h : row.live now claimed = true) : row.id = claimed.row.id := by
  simp only [MicrostructureInvalidation.live, MicrostructureInvalidation.leasedTo,
    Bool.and_eq_true, decide_eq_true_eq] at h
  exact h.1.1.1.1

/-- A worker does nothing, puts its rows back, or materializes them. -/
theorem workInvalidation_cases {clock : WorkClock}
    (h : workInvalidation sha256 evidence clock db claimed = .ok db') :
    db' = db ∨ PutsBack claimed db db' ∨ Materializes sha256 evidence claimed db db' := by
  unfold workInvalidation at h
  split at h
  next => exact Or.inl (Except.ok.inj h).symm
  next live hfind =>
    have hlive := List.find?_some hfind
    have hmem := mem_of_find?_eq_some hfind
    dsimp only at h
    by_cases hprior : (db.invalidations.rows.any fun row =>
        row.isOf live.key.instrumentId live.key.bucketStartAt && decide (row.id < live.id) &&
          row.isActive) = true
    · rw [if_pos hprior] at h
      exact Or.inr (Or.inl (releasePrecedingFrontier_putsBack h))
    rw [if_neg hprior] at h
    split at h
    next => exact Or.inr (Or.inl (releaseForRetry_putsBack h))
    next tradeQuality hquality =>
      obtain ⟨candle?, hcandle, h⟩ := bind_eq_ok.mp h
      cases candle? with
      | none => exact Or.inr (Or.inl (releaseForRetry_putsBack h))
      | some candle =>
        dsimp only at h
        split at h
        next => cases h
        next point hpoint =>
          split at h
          next sourceAsOf knowledgeAt hsourceAsOf hknowledgeAt =>
            split_ifs at h with hcompleted
            · right; right
              obtain rfl := Except.ok.inj h
              refine ⟨clock.leasedAt, clock.completedAt, live, hmem, hlive, ?_, ?_, _,
                tradeQuality, candle, point, sourceAsOf, knowledgeAt, rfl, hquality, hcandle,
                hpoint, hknowledgeAt, ?_⟩
              · obtain ⟨row, hrow, hcompleted⟩ := any_eq_true.mp hcompleted
                rwa [IdentityTable.eq_of_key hmem hrow
                  ((live_id hlive).trans (live_id hcompleted).symm)]
              · intro row hrow hisOf hlt
                by_contra hactive
                rw [Bool.not_eq_false] at hactive
                refine hprior (any_eq_true.mpr ⟨row, hrow, ?_⟩)
                simp [hisOf, hlt, hactive]
              · simp only [insertMaterialization_invalidations]
            · exact Or.inl (Except.ok.inj h).symm
          next => exact Or.inr (Or.inl (releaseForRetry_putsBack h))

/-- What the work with its exception handler can do. -/
theorem runClaimedInvalidation_cases (clock : WorkClock) (failedAt : Instant)
    (claimed : ClaimedInvalidation) (raised : Option MicrostructureException) :
    let db' := runClaimedInvalidation sha256 evidence clock failedAt db claimed raised
    db' = db ∨ PutsBack claimed db db' ∨ Materializes sha256 evidence claimed db db' := by
  intro db'
  have hhandler : ∀ exc,
      runClaimedInvalidation sha256 evidence clock failedAt db claimed (some exc) = db ∨
      PutsBack claimed db
        (runClaimedInvalidation sha256 evidence clock failedAt db claimed (some exc)) := by
    intro exc
    unfold runClaimedInvalidation
    cases hfail : failInvalidation failedAt db claimed exc with
    | error _ => simp [hfail]
    | ok failed =>
      simp only [hfail]
      exact Or.inr (failInvalidation_putsBack hfail)
  unfold db' runClaimedInvalidation
  cases raised with
  | some exc =>
    rcases hhandler exc with h | h
    · exact Or.inl h
    · exact Or.inr (Or.inl h)
  | none =>
    dsimp only
    cases hwork : workInvalidation sha256 evidence clock db claimed with
    | ok worked => exact workInvalidation_cases hwork
    | error exc =>
      rcases hhandler exc with h | h
      · exact Or.inl h
      · exact Or.inr (Or.inl h)

/-! ## Leases and active keys -/

/-- A row has an owner only while it is worked on. -/
def LeasesRunning (rows : List MicrostructureInvalidation) : Prop :=
  ∀ row ∈ rows, row.leaseOwner ≠ none → row.status = .running

/-- No two rows that wait or are worked on have one key. -/
def ActiveKeysUnique (rows : List MicrostructureInvalidation) : Prop :=
  ((rows.filter MicrostructureInvalidation.isActive).map MicrostructureInvalidation.key).Nodup

theorem isActive_iff : row.isActive = true ↔ row.waits = true ∨ row.status = .running := by
  simp [MicrostructureInvalidation.isActive]

theorem waits_iff : row.waits = true ↔ row.status = .pending ∨ row.status = .retryWait := by
  simp [MicrostructureInvalidation.waits]

theorem not_running_of_waits (h : row.waits = true) : row.status ≠ .running := by
  rcases waits_iff.mp h with h | h <;> rw [h] <;> decide

theorem claimable_isActive (h : row.claimable now rows = true) : row.isActive = true := by
  simp only [MicrostructureInvalidation.claimable, Bool.and_eq_true, Bool.or_eq_true,
    decide_eq_true_eq] at h
  rcases h.1.1.1 with ⟨hwaits, -⟩ | ⟨hrunning, -⟩
  · exact isActive_iff.mpr (Or.inl hwaits)
  · exact isActive_iff.mpr (Or.inr hrunning)

/-- The row of a lease is worked on. -/
theorem LeasesRunning.running (h : LeasesRunning rows) (hrow : row ∈ rows)
    (hleased : row.leasedTo claimed = true) : row.status = .running := by
  simp only [MicrostructureInvalidation.leasedTo, Bool.and_eq_true, decide_eq_true_eq] at hleased
  exact h row hrow (by rw [hleased.1.2]; exact Option.some_ne_none _)

theorem LeasesRunning.enqueue (h : LeasesRunning db.invalidations.rows) (now : Instant)
    (event : MarketEvent) :
    LeasesRunning (enqueueMicrostructureInvalidation evidence now db event).invalidations.rows := by
  intro row hrow howner
  rcases enqueue_cases evidence now db event with ⟨-, hrows⟩ | ⟨-, hrows⟩ <;> rw [hrows] at hrow
  · obtain ⟨old, hold, rfl⟩ := mem_map.mp hrow
    split_ifs at howner ⊢ with hmerged
    · exact absurd (h old hold howner) (not_running_of_waits hmerged.1)
    · exact h old hold howner
  · rcases mem_append.mp hrow with hrow | hrow
    · exact h row hrow howner
    · obtain rfl := mem_singleton.mp hrow
      exact absurd rfl howner

/-- A claim gives its rows a lease and sets them running. -/
theorem LeasesRunning.claim (h : LeasesRunning db.invalidations.rows)
    {claimed : Option ClaimedInvalidation}
    (hclaim : claimMicrostructureInvalidation now locked db workerId = (claimed, db')) :
    LeasesRunning db'.invalidations.rows := by
  rcases claimMicrostructureInvalidation_cases hclaim with ⟨-, rfl⟩ | ⟨row, -, -, -, rfl⟩
  · exact h
  · intro other hother howner
    obtain ⟨old, hold, rfl⟩ := mem_map.mp hother
    split_ifs at howner ⊢
    · rfl
    · exact h old hold howner

theorem LeasesRunning.putsBack (h : LeasesRunning db.invalidations.rows)
    (hback : PutsBack claimed db db') : LeasesRunning db'.invalidations.rows := by
  obtain ⟨change, hid, hchange, rfl, -⟩ := hback
  intro row hrow howner
  obtain ⟨old, hold, rfl⟩ := mem_map.mp hrow
  split_ifs at howner ⊢
  · exact absurd (hchange old).leaseOwner howner
  · exact h old hold howner

/-- A materialization ends the lease with the work. -/
theorem LeasesRunning.materializes (h : LeasesRunning db.invalidations.rows)
    (hwork : Materializes sha256 evidence claimed db db') :
    LeasesRunning db'.invalidations.rows := by
  obtain ⟨leasedAt, completedAt, live, -, -, -, -, qualities, tradeQuality, candle, point,
    sourceAsOf, knowledgeAt, -, -, -, -, -, rfl⟩ := hwork
  intro row hrow howner
  obtain ⟨old, hold, rfl⟩ := mem_map.mp hrow
  split_ifs at howner ⊢
  · exact absurd rfl howner
  · exact h old hold howner

/-- No transaction gives an owner to a row that is not worked on. -/
theorem LeasesRunning.step {state' : MicrostructureState} {event : QueueEvent}
    (h : LeasesRunning state.db.invalidations.rows)
    (hstep : MicrostructureStep sha256 evidence state event state') :
    LeasesRunning state'.db.invalidations.rows := by
  cases hstep with
  | insertsSnapshot row now => exact LeasesRunning.enqueue (by exact h) now row.event
  | insertsTrade row now => exact LeasesRunning.enqueue (by exact h) now row.event
  | claims workerId now locked claimed db hclaim => exact h.claim hclaim
  | works i claimed clock failedAt raised =>
    rcases runClaimedInvalidation_cases clock failedAt claimed raised with heq | hback | hwork
    · rw [heq]
      exact h
    · exact h.putsBack hback
    · exact h.materializes hwork

/-- An event is inserted only for a key that is not worked on. -/
def Unworked (evidence : EvidenceTables) (db : MicrostructureDatabase) : QueueEvent → Prop
  | .snapshotInserted row => ∀ invalidation ∈ db.invalidations.rows,
    invalidation.key = row.event.key evidence → invalidation.status ≠ .running
  | .tradeInserted row => ∀ invalidation ∈ db.invalidations.rows,
    invalidation.key = row.event.key evidence → invalidation.status ≠ .running
  | _ => True

theorem ActiveKeysUnique.map (h : ActiveKeysUnique rows)
    (hkey : ∀ row ∈ rows, (change row).key = row.key)
    (hactive : ∀ row ∈ rows, (change row).isActive = true → row.isActive = true) :
    ActiveKeysUnique (rows.map change) :=
  h.sublist (map_filter_map_sublist hkey hactive)

/-- An event of a key that is not worked on is merged into the row that waits. -/
theorem ActiveKeysUnique.enqueue (h : ActiveKeysUnique db.invalidations.rows) (now : Instant)
    (event : MarketEvent) (hunworked : ∀ row ∈ db.invalidations.rows, row.key = event.key evidence →
      row.status ≠ .running) : ActiveKeysUnique
      (enqueueMicrostructureInvalidation evidence now db event).invalidations.rows := by
  rcases enqueue_cases evidence now db event with ⟨-, hrows⟩ | ⟨hnone, hrows⟩ <;> rw [hrows]
  · refine h.map (fun row _ => ?_) fun row _ hactive => ?_
    · split_ifs <;> rfl
    · split_ifs at hactive with hmerged
      · exact isActive_iff.mpr (Or.inl hmerged.1)
      · exact hactive
  · unfold ActiveKeysUnique
    rw [filter_append, map_append]
    refine h.append (by simp [List.filter]; split <;> simp) ?_
    intro key hkey hnew
    obtain ⟨row, hrow, rfl⟩ := mem_map.mp hkey
    obtain ⟨hrow, hactive⟩ := mem_filter.mp hrow
    obtain ⟨new, hmem, hnewKey⟩ := mem_map.mp hnew
    obtain rfl := mem_singleton.mp (mem_filter.mp hmem).1
    rcases isActive_iff.mp hactive with hwaits | hrunning
    · exact hnone row hrow hwaits hnewKey.symm
    · exact hunworked row hrow hnewKey.symm hrunning

/-- A claim keeps the keys of the active rows distinct. -/
theorem ActiveKeysUnique.claim (h : ActiveKeysUnique db.invalidations.rows)
    {claimed : Option ClaimedInvalidation}
    (hclaim : claimMicrostructureInvalidation now locked db workerId = (claimed, db')) :
    ActiveKeysUnique db'.invalidations.rows := by
  rcases claimMicrostructureInvalidation_cases hclaim with
    ⟨-, rfl⟩ | ⟨row, hrow, hclaimable, -, rfl⟩
  · exact h
  · refine h.map (fun other _ => ?_) fun other hother hactive => ?_
    · split_ifs <;> rfl
    · split_ifs at hactive with hid
      · obtain rfl := IdentityTable.eq_of_key hother hrow (of_decide_eq_true hid)
        exact claimable_isActive hclaimable
      · exact hactive

theorem ActiveKeysUnique.putsBack (h : ActiveKeysUnique db.invalidations.rows)
    (hleases : LeasesRunning db.invalidations.rows) (hback : PutsBack claimed db db') :
    ActiveKeysUnique db'.invalidations.rows := by
  obtain ⟨change, hid, hchange, rfl, -⟩ := hback
  refine h.map (fun row _ => ?_) fun row hrow hactive => ?_
  · split_ifs
    · exact (hchange row).key
    · rfl
  · split_ifs at hactive with hleased
    · exact isActive_iff.mpr (Or.inr (hleases.running hrow hleased))
    · exact hactive

/-- A materialization keeps the keys of the active rows distinct. -/
theorem ActiveKeysUnique.materializes (h : ActiveKeysUnique db.invalidations.rows)
    (hwork : Materializes sha256 evidence claimed db db') :
    ActiveKeysUnique db'.invalidations.rows := by
  obtain ⟨leasedAt, completedAt, live, -, -, -, -, qualities, tradeQuality, candle, point,
    sourceAsOf, knowledgeAt, -, -, -, -, -, rfl⟩ := hwork
  refine h.map (fun row _ => ?_) fun row _ hactive => ?_
  · split_ifs <;> rfl
  · split_ifs at hactive
    · cases hactive
    · exact hactive

/-- Every step that inserts no event of a key worked on keeps the active keys distinct. -/
theorem ActiveKeysUnique.step {state' : MicrostructureState} {event : QueueEvent}
    (h : ActiveKeysUnique state.db.invalidations.rows)
    (hleases : LeasesRunning state.db.invalidations.rows)
    (hstep : MicrostructureStep sha256 evidence state event state')
    (hunworked : Unworked evidence state.db event) :
    ActiveKeysUnique state'.db.invalidations.rows := by
  cases hstep with
  | insertsSnapshot row now => exact ActiveKeysUnique.enqueue (by exact h) now row.event hunworked
  | insertsTrade row now => exact ActiveKeysUnique.enqueue (by exact h) now row.event hunworked
  | claims workerId now locked claimed db hclaim => exact h.claim hclaim
  | works i claimed clock failedAt raised =>
    rcases runClaimedInvalidation_cases clock failedAt claimed raised with heq | hback | hwork
    · rw [heq]
      exact h
    · exact h.putsBack hleases hback
    · exact h.materializes hwork

/-! ## What a worker can put back -/

/-- The index that refuses two waiting rows of one key holds, and refuses no update of a worker
that has claimed a row. -/
def NeverRefused (state : MicrostructureState) : Prop :=
  WaitingKeysUnique state.db.invalidations.rows ∧
  ∀ claimed ∈ state.workers, ∀ now error exc,
    (releaseForRetry now state.db claimed error).isOk = true ∧
    (releasePrecedingFrontier state.db claimed).isOk = true ∧
    (failInvalidation now state.db claimed exc).isOk = true

/-- Where a key has one active row, a row that is worked on can wait again. -/
theorem updateInvalidations_isOk (h : ActiveKeysUnique db.invalidations.rows)
    (hleases : LeasesRunning db.invalidations.rows) (hid : ∀ row, (change row).id = row.id)
    (hchange : ∀ row, PutBack row (change row)) :
    (updateInvalidations db (fun row => row.leasedTo claimed) change hid).isOk = true := by
  have hunique : WaitingKeysUnique
      (db.invalidations.update (fun row => row.leasedTo claimed) change hid).rows := by
    refine h.sublist (map_filter_map_sublist (fun row _ => ?_) fun row hrow hwaits => ?_)
    · split_ifs
      · exact (hchange row).key
      · rfl
    · split_ifs at hwaits with hleased
      · exact isActive_iff.mpr (Or.inr (hleases.running hrow hleased))
      · exact isActive_iff.mpr (Or.inl hwaits)
  unfold updateInvalidations
  dsimp only
  rw [if_pos hunique]
  rfl

/-- No update of a worker is refused in a history in which no event is inserted for a key that is
worked on.
SOURCE: microstructure_store.py:139-327, 20260717001200_p2_microstructure.sql:245-252,365-410 -/
theorem release_never_refused (sha256 : List ℕ → String) (start state : MicrostructureState)
    (hempty : start.db.invalidations.rows = [])
    (hsteps : Relation.ReflTransGen (fun state state' => ∃ evidence event,
      MicrostructureStep sha256 evidence state event state' ∧ Unworked evidence state.db event)
      start state) : NeverRefused state := by
  have hsound : LeasesRunning state.db.invalidations.rows ∧
      ActiveKeysUnique state.db.invalidations.rows := by
    induction hsteps with
    | refl =>
      rw [hempty]
      exact ⟨by simp [LeasesRunning], nodup_nil⟩
    | tail _ hstep ih =>
      obtain ⟨evidence, event, hstep, hunworked⟩ := hstep
      exact ⟨ih.1.step hstep, ih.2.step ih.1 hstep hunworked⟩
  obtain ⟨hleases, hactive⟩ := hsound
  refine ⟨?_, fun claimed _ now error exc => ⟨?_, ?_, ?_⟩⟩
  · refine hactive.sublist (List.Sublist.map _ ?_)
    exact monotone_filter_right _ fun row hwaits => isActive_iff.mpr (Or.inl hwaits)
  · exact updateInvalidations_isOk hactive hleases _ (putBack_release now error)
  · exact updateInvalidations_isOk hactive hleases _ (putBack_restore claimed.previousStatus)
  · exact updateInvalidations_isOk hactive hleases _ (putBack_fail now exc)

/-! ## A trade that is inserted while its minute is worked on -/

/-- The session of one instrument. -/
def quietSession : RealtimeSession where
  connectionId := "c"
  subscriptionGeneration := 0
  subscriptionScope := ⟨[1], ["trade_event"]⟩
  connectedAt := 0

/-- A connection that went on through the first minute, recorded at its end. -/
def quietConnection : RealtimeDatabase where
  markets := [⟨1, some 1⟩]
  sessions := ⟨[quietSession], by decide⟩
  intervals := [⟨⟨"c", none, "trade_event", 0, minute, .available, "continuous_connection",
    "minute", minute⟩, 1⟩]
  lastIntervalId := 1

/-- The same with the candle of the minute. -/
def quietEvidence : EvidenceTables where
  candleRevisions := [⟨1, 1, 0, 1, 2, 2, minute + 1, minute⟩]
  qualityEvents := []
  realtime := quietConnection

/-- A trade of the first minute that is known so many seconds later. -/
def lateTrade (id seconds : ℤ) : TradeEventRow where
  id := id
  marketId := 1
  instrumentId := 1
  occurredAt := 0
  knowledgeAt := seconds * 1000000
  askBid := "BID"
  tradeVolume := 1
  tradeAmount := 1
  sourceReceiptId := id

/-- A database without events, and no workers. -/
def emptyState : MicrostructureState where
  db := ⟨[], [], [], IdentityTable.empty _, IdentityTable.empty _⟩
  workers := []

/-- The state after a trade. -/
def afterTrade (state : MicrostructureState) (row : TradeEventRow) : MicrostructureState where
  db := enqueueMicrostructureInvalidation quietEvidence row.knowledgeAt { state.db with
    receipts := state.db.receipts ++ [⟨row.sourceReceiptId, row.instrumentId⟩]
    tradeEvents := state.db.tradeEvents ++ [row] } row.event
  workers := state.workers

/-- The state after a claim. -/
def afterClaim (state : MicrostructureState) (now : Instant) : MicrostructureState where
  db := (claimMicrostructureInvalidation now (fun _ => false) state.db "worker").2
  workers := state.workers ++
    (claimMicrostructureInvalidation now (fun _ => false) state.db "worker").1.toList

theorem afterTrade_step {row : TradeEventRow}
    (hmarket : marketOf quietEvidence row.instrumentId = some row.marketId)
    (hid : 0 < row.id ∧ ∀ other ∈ state.db.tradeEvents, other.id < row.id) (hreceipt : 0 <
      row.sourceReceiptId ∧ ∀ receipt ∈ state.db.receipts, receipt.id < row.sourceReceiptId) :
    MicrostructureStep sha256 quietEvidence state (.tradeInserted row) (afterTrade state row) :=
  .insertsTrade state row row.knowledgeAt hmarket hid hreceipt

theorem afterClaim_step (state : MicrostructureState) (now : Instant) :
    MicrostructureStep sha256 quietEvidence state (.claimed "worker") (afterClaim state now) :=
  .claims state "worker" now (fun _ => false) _ _ rfl

/-- The first trade is claimed. -/
def firstClaimed : MicrostructureState :=
  afterClaim (afterTrade emptyState (lateTrade 1 100)) (200 * 1000000)

theorem firstClaimed_steps :
    MicrostructureStep sha256 quietEvidence emptyState (.tradeInserted (lateTrade 1 100))
      (afterTrade emptyState (lateTrade 1 100)) ∧
    MicrostructureStep sha256 quietEvidence (afterTrade emptyState (lateTrade 1 100))
      (.claimed "worker") firstClaimed :=
  ⟨afterTrade_step rfl (by decide) (by decide), afterClaim_step _ _⟩

theorem release_never_refused_firstClaimed : NeverRefused firstClaimed := by
  obtain ⟨hinserts, hclaims⟩ := @firstClaimed_steps fun _ => ""
  have hunworked : Unworked quietEvidence emptyState.db (.tradeInserted (lateTrade 1 100)) := by
    intro invalidation hinvalidation
    cases hinvalidation
  exact release_never_refused (fun _ => "") emptyState firstClaimed rfl
    ((Relation.ReflTransGen.single ⟨_, _, hinserts, hunworked⟩).tail ⟨_, _, hclaims, trivial⟩)

/-- The second trade finds the row of its key worked on, and gets one of its own: the worker
cannot put the first one back. -/
theorem insertedMeanwhile_refused : ¬ ∀ (sha256 : List ℕ → String)
    (start state : MicrostructureState), start.db.invalidations.rows = [] →
    Relation.ReflTransGen (fun state state' => ∃ evidence event,
      MicrostructureStep sha256 evidence state event state') start state → NeverRefused state := by
  intro hnever
  obtain ⟨hinserts, hclaims⟩ := @firstClaimed_steps fun _ => ""
  have hmeanwhile : MicrostructureStep (fun _ => "") quietEvidence firstClaimed
      (.tradeInserted (lateTrade 2 110)) (afterTrade firstClaimed (lateTrade 2 110)) :=
    afterTrade_step rfl (by decide) (by decide)
  have hsteps : Relation.ReflTransGen (fun state state' => ∃ evidence event,
      MicrostructureStep (fun _ => "") evidence state event state') emptyState
      (afterTrade firstClaimed (lateTrade 2 110)) :=
    ((Relation.ReflTransGen.single ⟨_, _, hinserts⟩).tail ⟨_, _, hclaims⟩).tail
      ⟨_, _, hmeanwhile⟩
  have hrefused : ∃ claimed ∈ (afterTrade firstClaimed (lateTrade 2 110)).workers,
      (releaseForRetry 0 (afterTrade firstClaimed (lateTrade 2 110)).db claimed "trade_gap").isOk =
        false := by
    decide +kernel
  obtain ⟨claimed, hclaimed, hfalse⟩ := hrefused
  have htrue := ((hnever _ _ _ rfl hsteps).2 claimed hclaimed 0 "trade_gap" .uniqueViolation).1
  rw [hfalse] at htrue
  cases htrue

end Goodmoneying.Analysis
