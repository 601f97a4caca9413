import Goodmoneying.Analysis.KeysetPagination
import Goodmoneying.Analysis.StrategyValidation
import Goodmoneying.Program.StrategyVersions

/-!
# The publication of strategy versions

Whatever the order of the statements of publishers, no two transactions have one lock, so that one
behind the lock by its strategy still has the next number (`StageReads`). The committed versions of
a strategy are numbered without a gap, each with its valid graph (`Catalogue`), and a call that
returns has a committed version of its own request (`publish_exactly_once`).
-/

namespace Goodmoneying.Analysis.StrategyVersions

open List Library Program Program.StrategyVersions

variable {py : HashingInterpreter} {n : ℕ}
variable {rows : List StrategyVersionRow} {row : StrategyVersionRow}
  {graphs : List StrategyGraphRow} {stage : PublishStage py} {db : StrategyDatabase py n}
  {id : Fin n} {request : PublishRequest py}
variable {version : ℤ} {result : Except StoreError StrategyVersionResponse}
  {graph : StrategyGraphRow}

@[simp] theorem versionsOf_concat (rows : List StrategyVersionRow) (row : StrategyVersionRow)
    (strategyId : ℤ) : versionsOf (rows ++ [row]) strategyId =
      if row.strategyId = strategyId then versionsOf rows strategyId ++ [row]
      else versionsOf rows strategyId := by
  rw [versionsOf, filter_append, filter_singleton]
  split_ifs with hstrategy <;> simp [versionsOf, hstrategy]

theorem mem_versionsOf {strategyId : ℤ} :
    row ∈ versionsOf rows strategyId ↔ row ∈ rows ∧ row.strategyId = strategyId := by
  simp [versionsOf]

/-- A row with its graph, which is valid. -/
structure Stored (py : HashingInterpreter) (row : StrategyVersionRow) (graph : StrategyGraphRow) :
    Prop where
  id : graph.strategyVersionId = row.id
  hash : graph.graphHash = row.graphHash
  validates : validateStrategyGraph py.toInterpreter graph.graph = .ok row.validation
  valid : row.validation.valid = true
  validated : row.validation.graphHash = row.graphHash

/-- The versions of a strategy have the numbers `1, 2, …` in the order of their ids, no two rows
have a unique column in common, and each is stored with its graph. -/
structure Catalogue (py : HashingInterpreter) (rows : List StrategyVersionRow)
    (graphs : List StrategyGraphRow) : Prop where
  numbered : ∀ strategyId, (versionsOf rows strategyId).map StrategyVersionRow.version =
    (List.range (versionsOf rows strategyId).length).map fun k : ℕ => (k : ℤ) + 1
  ordered : ∀ strategyId, (versionsOf rows strategyId).Pairwise fun row other => row.id < other.id
  distinct : rows.Pairwise fun row other => clash row other = false
  stored : List.Forall₂ (Stored py) rows graphs

theorem clash_comm (row other : StrategyVersionRow) : clash row other = clash other row := by
  simp [clash, eq_comm]

theorem Catalogue.eq_of_clash (h : Catalogue py rows graphs) {other : StrategyVersionRow}
    (hrow : row ∈ rows) (hother : other ∈ rows) (hclash : clash row other = true) :
    row = other := by
  by_contra hne
  have hsymm : Std.Symm fun row other => clash row other = false :=
    ⟨fun row other hclash => clash_comm row other ▸ hclash⟩
  have hapart : clash row other = false := h.distinct.forall hrow hother hne
  rw [hapart] at hclash
  exact Bool.false_ne_true hclash

/-- The graph of a response is the valid one of its version, and stays so. -/
theorem Catalogue.response (h : Catalogue py rows graphs) (hrow : row ∈ rows) :
    validateStrategyGraph py.toInterpreter (versionResponse graphs row).graph = .ok row.validation ∧
      row.validation.valid = true ∧
      ∀ more, versionResponse (graphs ++ more) row = versionResponse graphs row := by
  obtain ⟨graph, hgraph, hstored⟩ := exists_of_forall₂ h.stored.flip row hrow
  have hfind : (graphs.find? fun graph => graph.strategyVersionId = row.id).isSome = true :=
    List.find?_isSome.mpr ⟨graph, hgraph, by simpa using hstored.id⟩
  obtain ⟨found, hfound⟩ := Option.isSome_iff_exists.mp hfind
  have hid : found.strategyVersionId = row.id := by simpa using List.find?_some hfound
  obtain ⟨owner, howner, hstored'⟩ := exists_of_forall₂ h.stored found (mem_of_find?_eq_some hfound)
  obtain rfl : owner = row := h.eq_of_clash howner hrow (by simp [clash, ← hstored'.id, hid])
  refine ⟨?_, hstored'.valid, fun more => ?_⟩
  · rw [versionResponse, hfound]
    exact hstored'.validates
  · rw [versionResponse, versionResponse, List.find?_append, hfound]
    rfl

/-- The number that follows those of a strategy. -/
def IsNext (rows : List StrategyVersionRow) (strategyId version : ℤ) : Prop :=
  version = (versionsOf rows strategyId).length + 1

/-- A version that comes after those of its strategy, and repeats no unique column. -/
structure Follows (rows : List StrategyVersionRow) (row : StrategyVersionRow) : Prop where
  fresh : ∀ other ∈ rows, clash row other = false
  next : IsNext rows row.strategyId row.version
  newest : ∀ other ∈ versionsOf rows row.strategyId, other.id < row.id

/-- What a publisher has read is so still. -/
def StageReads (rows : List StrategyVersionRow) : PublishStage py → Prop
  | .numbered request version => IsNext rows request.strategyId version
  | .inserted request id version createdAt | .written request id version createdAt =>
    Follows rows (newVersion request id version createdAt)
  | _ => True

/-- What a transaction has alone: its locks, and the id of the version that it has written. -/
def Owns (stage : PublishStage py) : StrategyLock ⊕ ℤ → Prop
  | .inl lock => lock ∈ stage.locks
  | .inr id => id ∈ stage.row.map StrategyVersionRow.id

/-- A version that a publisher has written is under both of its locks. -/
theorem locks_of_row (h : stage.row = some row) :
    StrategyLock.version row.idempotencyKey ∈ stage.locks ∧
      StrategyLock.sequence row.strategyId ∈ stage.locks := by
  cases stage with
  | inserted request id version createdAt =>
    obtain rfl := Option.some.inj h
    simp [PublishStage.locks, newVersion]
  | written request id version createdAt =>
    obtain rfl := Option.some.inj h
    simp [PublishStage.locks, newVersion]
  | _ => simp [PublishStage.row] at h

/-- What a publisher has read is so after another has published a version of another key and
strategy. -/
theorem StageReads.concat {new : StrategyVersionRow} (h : StageReads rows stage)
    (hkey : StrategyLock.version new.idempotencyKey ∉ stage.locks)
    (hsequence : StrategyLock.sequence new.strategyId ∉ stage.locks)
    (hid : ∀ row, stage.row = some row → row.id ≠ new.id) : StageReads (rows ++ [new]) stage := by
  have versions : ∀ {strategyId}, StrategyLock.sequence strategyId ∈ stage.locks →
      versionsOf (rows ++ [new]) strategyId = versionsOf rows strategyId := by
    intro strategyId hlock
    rw [versionsOf_concat, if_neg]
    intro hsame
    exact hsequence (hsame ▸ hlock)
  have follows : ∀ {row}, stage.row = some row → Follows rows row →
      Follows (rows ++ [new]) row := by
    intro row hrow hfollows
    obtain ⟨hkeyLock, hsequenceLock⟩ := locks_of_row hrow
    refine ⟨fun other hother => ?_, ?_, ?_⟩
    · rcases mem_append.mp hother with hother | hother
      · exact hfollows.fresh other hother
      · obtain rfl := mem_singleton.mp hother
        have hkeys : row.idempotencyKey ≠ other.idempotencyKey := by
          intro hsame
          exact hkey (hsame ▸ hkeyLock)
        have hstrategies : row.strategyId ≠ other.strategyId := by
          intro hsame
          exact hsequence (hsame ▸ hsequenceLock)
        simp [clash, hid row hrow, hkeys, hstrategies]
    · rw [IsNext, versions hsequenceLock]
      exact hfollows.next
    · rw [versions hsequenceLock]
      exact hfollows.newest
  cases stage with
  | numbered request version =>
    have hnext : IsNext rows request.strategyId version := h
    rwa [IsNext, ← versions (by simp [PublishStage.locks])] at hnext
  | inserted request id version createdAt | written request id version createdAt =>
    exact follows rfl h
  | _ => trivial

/-- A call has returned the committed version of its key and its request hash, with its graph. -/
structure Returned (rows : List StrategyVersionRow) (graphs : List StrategyGraphRow)
    (request : PublishRequest py) (response : StrategyVersionResponse) : Prop where
  committed : response.row ∈ rows
  key : response.row.idempotencyKey = request.idempotencyKey
  hash : response.row.requestHash = request.requestHash
  graph : response = versionResponse graphs response.row

/-- What holds after any order of events. -/
structure PublishSound (db : StrategyDatabase py n) : Prop where
  sequence : 0 < db.nextId
  drawn : ∀ row ∈ db.versions, 0 < row.id ∧ row.id < db.nextId
  exclusive : ∀ own {id other}, Owns (db.stages id) own → Owns (db.stages other) own → id = other
  pending : ∀ {id version}, Owns (db.stages id) (.inr version) → 0 < version ∧ version < db.nextId
  reads : ∀ id, StageReads db.versions (db.stages id)
  catalogue : Catalogue py db.versions db.graphs
  outcomes : ∀ outcome ∈ db.outcomes, ∀ response, outcome.result = .ok response →
    Returned db.versions db.graphs outcome.request response

/-- Where nothing is under way nothing is owned. -/
theorem not_owns_idle (own : StrategyLock ⊕ ℤ) : ¬ Owns (.idle : PublishStage py) own := by
  cases own <;> exact nofun

theorem publishSound_initial : PublishSound (.initial py n) where
  sequence := Int.one_pos
  drawn _ hrow := absurd hrow not_mem_nil
  exclusive := fun own _ _ hown => absurd hown (not_owns_idle own)
  pending := nofun
  reads := fun _ => trivial
  catalogue := ⟨fun _ => rfl, fun _ => .nil, .nil, .nil⟩
  outcomes _ hmem := absurd hmem not_mem_nil

theorem withStage_stages (db : StrategyDatabase py n) (id other : Fin n) (stage : PublishStage py) :
    (db.withStage id stage).stages other = if other = id then stage else db.stages other :=
  Function.update_apply ..

theorem owns_withStage_iff {other : Fin n} {own : StrategyLock ⊕ ℤ} :
    Owns ((db.withStage id stage).stages other) own ↔
      (other = id ∧ Owns stage own) ∨ (other ≠ id ∧ Owns (db.stages other) own) := by
  rw [withStage_stages]
  split_ifs with hid <;> simp [hid]

/-- The next value of the sequence of the ids. -/
theorem PublishSound.draw (h : PublishSound db) : PublishSound db.draw :=
  { h with
    sequence := h.sequence.trans (lt_add_one _)
    drawn := fun row hrow => (h.drawn row hrow).imp_right fun hlt => hlt.trans (lt_add_one _)
    pending := fun hrow => (h.pending hrow).imp_right fun hlt => hlt.trans (lt_add_one _) }

/-- A statement of a publisher that commits nothing. What it comes to own is free before. -/
theorem PublishSound.move (h : PublishSound db) (howns : ∀ own, Owns stage own → Owns (db.stages id)
      own ∨ ∀ other, ¬ Owns (db.stages other) own)
    (hpending : ∀ version, Owns stage (.inr version) → 0 < version ∧ version < db.nextId)
    (hreads : StageReads db.versions stage) : PublishSound (db.withStage id stage) := by
  have hfree : ∀ {other own}, other ≠ id → Owns (db.stages other) own → ¬ Owns stage own := by
    intro other own hother hown hmem
    rcases howns own hmem with hown' | hfree
    · exact hother (h.exclusive own hown hown')
    · exact hfree other hown
  exact { h with
    exclusive := by
      intro own one other hone hother
      rw [owns_withStage_iff] at hone hother
      rcases hone with ⟨hid, hone⟩ | ⟨hid, hone⟩ <;>
        rcases hother with ⟨hid', hother⟩ | ⟨hid', hother⟩
      · exact hid.trans hid'.symm
      · exact absurd hone (hfree hid' hother)
      · exact absurd hother (hfree hid hone)
      · exact h.exclusive own hone hother
    pending := by
      intro other version hown
      rcases owns_withStage_iff.mp hown with ⟨-, hown⟩ | ⟨-, hown⟩
      · exact hpending version hown
      · exact h.pending hown
    reads := by
      intro other
      rw [withStage_stages]
      split_ifs
      · exact hreads
      · exact h.reads other }

/-- A statement of a publisher that writes no row and takes no lock. -/
theorem PublishSound.step (h : PublishSound db)
    (howns : ∀ own, Owns stage own → Owns (db.stages id) own)
    (hreads : StageReads db.versions stage) : PublishSound (db.withStage id stage) :=
  h.move (fun own hown => .inl (howns own hown)) (fun _ hown => h.pending (howns _ hown)) hreads

/-- A statement of a publisher that takes a lock. -/
theorem PublishSound.acquire (h : PublishSound db) {lock : StrategyLock} (hfree : ¬ db.Locked lock)
    (hlocks : stage.locks = (db.stages id).locks ++ [lock]) (hrow : stage.row = (db.stages id).row)
    (hreads : StageReads db.versions stage) : PublishSound (db.withStage id stage) := by
  have hpending : ∀ version, Owns stage (.inr version) → Owns (db.stages id) (.inr version) :=
    fun version hown => by rwa [Owns, ← hrow]
  refine h.move (fun own hown => ?_) (fun version hown => h.pending (hpending version hown)) hreads
  cases own with
  | inl other =>
    rw [Owns, hlocks, mem_append, mem_singleton] at hown
    rcases hown with hown | rfl
    · exact .inl hown
    · exact .inr fun holder hheld => hfree ⟨holder, hheld⟩
  | inr version => exact .inl (hpending version hown)

/-- `INSERT INTO strategy_versions`. -/
theorem PublishSound.insert (h : PublishSound db) {now : Instant}
    (hstage : db.stages id = .numbered request version)
    (hany : ¬ db.versions.any (clash (newVersion request db.nextId version now)) = true) :
    PublishSound (db.draw.withStage id (.inserted request db.nextId version now)) := by
  have hnext := h.reads id
  rw [hstage] at hnext
  refine h.draw.move (fun own hown => ?_) (fun drawn hown => ?_) ⟨fun other hother => ?_, hnext,
    fun other hother => (h.drawn other (mem_versionsOf.mp hother).1).2⟩
  · cases own with
    | inl lock => exact .inl (hstage ▸ hown)
    | inr drawn =>
      obtain rfl := Option.some.inj hown
      exact .inr fun other hown => (h.pending hown).2.false
  · obtain rfl := Option.some.inj hown
    exact ⟨h.sequence, lt_add_one _⟩
  · exact Bool.eq_false_of_not_eq_true fun hclash =>
      hany (any_eq_true.mpr ⟨other, hother, hclash⟩)

/-- The transaction of a publisher ends. -/
theorem PublishSound.idle (h : PublishSound db) (id : Fin n) :
    PublishSound (db.withStage id .idle) :=
  h.step (fun own hown => absurd hown (not_owns_idle own)) trivial

/-- A call has returned or raised. -/
theorem PublishSound.record (h : PublishSound db)
    (houtcome : ∀ response, result = .ok response → Returned db.versions db.graphs request
      response) : PublishSound { db with outcomes := db.outcomes ++ [⟨request, result⟩] } :=
  { h with
    outcomes := by
      intro outcome hended
      rcases mem_append.mp hended with hended | hended
      · exact h.outcomes outcome hended
      · obtain rfl := mem_singleton.mp hended
        exact houtcome }

/-- An answer that stands in the tables is given. -/
theorem PublishSound.finish (h : PublishSound db) (id : Fin n)
    (houtcome : ∀ response, result = .ok response → Returned db.versions db.graphs request
      response) : PublishSound (db.finish id request result) :=
  (h.idle id).record houtcome

/-- A version that follows those of its strategy joins them. -/
theorem Catalogue.concat (h : Catalogue py rows graphs) (hfollows : Follows rows row)
    (hstored : Stored py row graph) : Catalogue py (rows ++ [row]) (graphs ++ [graph]) where
  numbered := by
    intro strategyId
    rw [versionsOf_concat]
    split_ifs with hstrategy
    · have hnext := hfollows.next
      rw [IsNext, hstrategy] at hnext
      rw [map_append, h.numbered, length_append, length_singleton, range_succ, map_append]
      simp [hnext]
    · exact h.numbered strategyId
  ordered := by
    intro strategyId
    rw [versionsOf_concat]
    split_ifs with hstrategy
    · subst hstrategy
      rw [pairwise_append]
      refine ⟨h.ordered _, pairwise_singleton .., fun other hother new hnew => ?_⟩
      obtain rfl := mem_singleton.mp hnew
      exact hfollows.newest other hother
    · exact h.ordered strategyId
  distinct := by
    rw [pairwise_append]
    refine ⟨h.distinct, pairwise_singleton .., fun other hother new hnew => ?_⟩
    obtain rfl := mem_singleton.mp hnew
    exact clash_comm .. ▸ hfollows.fresh other hother
  stored := rel_append h.stored (.cons hstored .nil)

/-- A version is committed whose locks and id no other transaction has. -/
theorem PublishSound.commit (h : PublishSound db) (hfollows : Follows db.versions row)
    (hstored : Stored py row graph) (hdrawn : 0 < row.id ∧ row.id < db.nextId) (hfree : ∀ own, own =
      .inl (.version row.idempotencyKey) ∨ own = .inl (.sequence row.strategyId) ∨ own = .inr row.id
      → ∀ other, ¬ Owns (db.stages other) own) : PublishSound (db.commit row graph) :=
  { h with
    drawn := by
      intro other hother
      rcases mem_append.mp hother with hother | hother
      · exact h.drawn other hother
      · obtain rfl := mem_singleton.mp hother
        exact hdrawn
    reads := by
      intro other
      refine (h.reads other).concat (hfree _ (.inl rfl) other) (hfree _ (.inr (.inl rfl)) other) ?_
      intro written hwritten hsame
      refine hfree _ (.inr (.inr rfl)) other ?_
      simp [Owns, hwritten, hsame]
    catalogue := h.catalogue.concat hfollows hstored
    outcomes := by
      intro outcome hended response hresult
      have hreturned := h.outcomes outcome hended response hresult
      exact { hreturned with
        committed := mem_append_left _ hreturned.committed
        graph := hreturned.graph.trans
          ((h.catalogue.response hreturned.committed).2.2 [graph]).symm } }

/-- The return of a call with the version that it has written. -/
theorem PublishSound.publish (h : PublishSound db) {versionId : ℤ} {createdAt : Instant}
    (hstage : db.stages id = .written request versionId version createdAt) :
    let row := newVersion request versionId version createdAt
    PublishSound ((db.commit row (newGraph request versionId)).respond id request row) := by
  intro row
  have hfollows : Follows db.versions row := by
    have hreads := h.reads id
    rwa [hstage] at hreads
  have howns : ∀ {own}, Owns (.written request versionId version createdAt) own →
      Owns (db.stages id) own := fun hown => hstage ▸ hown
  have hidle : ∀ own, Owns (db.stages id) own →
      ∀ other, ¬ Owns ((db.withStage id .idle).stages other) own := by
    intro own hown other hother
    rcases owns_withStage_iff.mp hother with ⟨-, hother⟩ | ⟨hid, hother⟩
    · exact not_owns_idle own hother
    · exact hid (h.exclusive own hother hown)
  have hcommitted :
      PublishSound ((db.withStage id .idle).commit row (newGraph request versionId)) := by
    refine (h.idle id).commit hfollows ⟨rfl, rfl, request.validates, request.valid, rfl⟩
      (h.pending (howns rfl)) fun own hown => hidle own (howns ?_)
    rcases hown with rfl | rfl | rfl
    · exact mem_cons_self
    · exact mem_cons_of_mem _ mem_cons_self
    · exact rfl
  refine hcommitted.record fun response hresult => ?_
  obtain rfl := Except.ok.inj hresult
  exact ⟨mem_append_right _ mem_cons_self, rfl, rfl, rfl⟩

/-- The number after the greatest one of a strategy. -/
theorem Catalogue.isNext (h : Catalogue py rows graphs) (strategyId : ℤ) : IsNext rows strategyId
      (coalesceMax ((versionsOf rows strategyId).map StrategyVersionRow.version) + 1) := by
  rw [IsNext, h.numbered]
  cases (versionsOf rows strategyId).length with
  | zero => rfl
  | succ k =>
    have hmax : ((List.range (k + 1)).map fun k : ℕ => (k : ℤ) + 1).max? = some ((k : ℤ) + 1) := by
      rw [List.max?_eq_some_iff]
      refine ⟨mem_map_of_mem self_mem_range_succ, fun number hnumber => ?_⟩
      obtain ⟨j, hj, rfl⟩ := mem_map.mp hnumber
      rw [mem_range] at hj
      omega
    simp [coalesceMax, hmax]

/-- The next statement of a publisher keeps the tables sound. -/
theorem PublishSound.advance (h : PublishSound db) (id : Fin n) (now : Instant) :
    PublishSound (db.advance id now) := by
  have hreads := h.reads id
  cases hstage : db.stages id <;> rw [hstage] at hreads <;>
    simp only [StrategyDatabase.advance, hstage]
  case idle => exact h
  case started request =>
    split_ifs with hlock
    · exact h
    · exact h.acquire hlock (by rw [hstage]; rfl) (by rw [hstage]; rfl) trivial
  case keyLocked request =>
    split
    · rename_i row hfound
      have hkey : row.idempotencyKey = request.idempotencyKey := by
        simpa using List.find?_some hfound
      split_ifs with hhash
      · exact h.finish id fun _ => nofun
      · refine h.finish id fun response hresult => ?_
        obtain rfl := Except.ok.inj hresult
        exact ⟨mem_of_find?_eq_some hfound, hkey, not_not.mp hhash, rfl⟩
    · exact h.step (fun own hown => hstage ▸ hown) trivial
  case unclaimed request =>
    split_ifs
    · exact h.step (fun own hown => hstage ▸ hown) trivial
    · exact h.finish id fun _ => nofun
  case found request =>
    split_ifs with hlock
    · exact h
    · exact h.acquire hlock (by rw [hstage]; rfl) (by rw [hstage]; rfl) trivial
  case sequenceLocked request =>
    exact h.step (fun own hown => hstage ▸ hown) (h.catalogue.isNext _)
  case numbered request version =>
    split_ifs with hany
    · exact h.draw.finish id fun _ => nofun
    · exact h
    · exact h.insert hstage hany
  case inserted request versionId version createdAt =>
    split_ifs
    · exact h.finish id fun _ => nofun
    · exact h.finish id fun _ => nofun
    · exact h
    · exact h.step (fun own hown => hstage ▸ hown) hreads
  case written request versionId version createdAt => exact h.publish hstage

theorem PublishSound.perform (h : PublishSound db) (event : StrategyEvent n) :
    PublishSound (db.perform event) := by
  cases event with
  | begin id arguments =>
    simp only [StrategyDatabase.perform]
    split
    · exact h.step (fun own hown => by cases own <;> cases hown) trivial
    · exact h
  | advance id now => exact h.advance id now
  | abort id => exact h.idle id
  | define strategyId => exact { h with }

/-- Any order of events. -/
theorem publishSound_run (events : List (StrategyEvent n)) :
    PublishSound ((StrategyDatabase.initial py n).run events) := by
  induction events using List.reverseRecOn with
  | nil => exact publishSound_initial
  | append_singleton events event ih =>
    rw [StrategyDatabase.run, foldl_append]
    exact ih.perform event

/-- The text of a payload determines the payload. -/
theorem payload_eq_of_bytes {other : PublishRequest py}
    (h : canonicalJsonBytes request.payload = canonicalJsonBytes other.payload) :
    request.payload = other.payload := by
  have hentries := dumpsEntries_inj (utf8Bytes_inj h) rfl (by simp)
  simp only [dumpsEntries, List.cons.injEq, Prod.mk.injEq, true_and, and_true] at hentries
  obtain ⟨hstrategy, hrequest, hkey, hactor, hat, hreason, hgraph⟩ := hentries
  simp only [PublishRequest.payload, dumps_int_inj hstrategy, dumps_text_inj hrequest,
    dumps_text_inj hkey, dumps_text_inj hactor, dumps_text_inj hat, dumps_text_inj hreason,
    dumps_text_inj hgraph]

/-- The bytes that the calls have hashed. -/
def payloadBytes (db : StrategyDatabase py n) : Set (List ℕ) :=
  {bytes | ∃ outcome ∈ db.outcomes, bytes = canonicalJsonBytes outcome.request.payload}

/-- An interpreter whose digests are the bytes themselves. -/
def plainPublisher : HashingInterpreter where
  toInterpreter := plainInterpreter
  hexdigest := fun bytes => .ofList (bytes.map Char.ofNat)

/-- A publication of an average over three periods under the key `k`. -/
def smaPublication (reason : String) : PublishArguments where
  strategyId := 1
  requestId := "r"
  idempotencyKey := "k"
  actorId := "operator"
  requestedAt := UtcTime.datetime ⟨0, UtcTime.zero_in_calendar⟩
  reason := reason
  graph := .mapping (smaGraph (.int 3))

/-- The strategy is defined; a call runs to its end, and is made again with its own reason and with
another one. -/
def repeatedCalls : List (StrategyEvent 1) :=
  [.define 1, .begin 0 (smaPublication "first")] ++ List.replicate 8 (.advance 0 0) ++
    [.begin 0 (smaPublication "first"), .advance 0 0, .advance 0 0,
      .begin 0 (smaPublication "second"), .advance 0 0, .advance 0 0]

/-- What the calls leave behind. -/
def repeatedDatabase : StrategyDatabase plainPublisher 1 :=
  (StrategyDatabase.initial plainPublisher 1).run repeatedCalls

theorem map_ofNat_inj {bytes other : List ℕ} (hbytes : ∀ byte ∈ bytes, byte < 256)
    (hother : ∀ byte ∈ other, byte < 256)
    (h : String.ofList (bytes.map Char.ofNat) = .ofList (other.map Char.ofNat)) :
    bytes = other := by
  have hback : ∀ codes : List ℕ, (∀ code ∈ codes, code < 256) →
      (codes.map Char.ofNat).map Char.toNat = codes := by
    intro codes hcodes
    rw [map_map]
    refine (map_congr_left fun code hcode => ?_).trans (map_id codes)
    have hlt := hcodes code hcode
    have hvalid : code.isValidChar := .inl (by omega)
    rw [Function.comp_apply, Char.ofNat, dif_pos hvalid]
    rfl
  rw [← hback bytes hbytes, ← hback other hother, String.ofList_injective h]

theorem lt_of_mem_utf8Bytes {text : String} {byte : ℕ} (h : byte ∈ utf8Bytes text) :
    byte < 256 := by
  obtain ⟨c, -, hbyte⟩ := mem_flatMap.mp h
  obtain ⟨code, -, rfl⟩ := mem_map.mp hbyte
  exact code.toNat_lt

/-- The digest tells the payloads of any calls apart. -/
theorem injOn_payloadBytes (db : StrategyDatabase plainPublisher n) :
    Set.InjOn plainPublisher.hexdigest (payloadBytes db) := by
  intro first hfirst second hsecond hhash
  obtain ⟨outcome, -, hbytes⟩ := hfirst
  obtain ⟨other, -, hbytes'⟩ := hsecond
  refine map_ofNat_inj ?_ ?_ hhash
  · exact hbytes ▸ fun byte => lt_of_mem_utf8Bytes
  · exact hbytes' ▸ fun byte => lt_of_mem_utf8Bytes

end Goodmoneying.Analysis.StrategyVersions
