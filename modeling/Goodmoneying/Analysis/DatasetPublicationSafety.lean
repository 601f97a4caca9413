import Mathlib.Logic.Relation
import Goodmoneying.Analysis.DatasetPublicationSteps

/-!
# Datasets are published once

Whatever the workers do, a build that has succeeded is linked to one version, which is sealed and
complete, and builds of the same content are linked to the same version
(`publication_exactly_once`). The invariant `SoundPublications` and the order `DatabaseAdvances` are
kept by every step.
-/

namespace Goodmoneying.Analysis

open List Library Program

variable {build build' : DatasetBuild} {sha256 : List ℕ → String} {state state' : PublicationState}
variable {now : Instant} {clock : PublicationClock} {reads : PublicationReads} {generation : ℤ}
  {db' : PublicationDatabase}

/-! ## One build -/

/-- A build as `create_build` inserts it. -/
structure FreshBuild (build : DatasetBuild) : Prop where
  status : build.status = .pending
  attempts : build.attemptCount = 0
  maxAttempts : 0 < build.maxAttempts
  version : build.datasetVersionId = none

/-- A status that no step leaves. -/
def BuildFinished (build : DatasetBuild) : Prop :=
  build.status = .succeeded ∨ build.status = .failed ∨ build.status = .deadLetter

/-- What a step keeps of a build. -/
structure BuildAdvances (build build' : DatasetBuild) : Prop where
  id : build'.id = build.id
  generation : build.leaseGeneration ≤ build'.leaseGeneration
  finished : BuildFinished build → build' = build

theorem BuildAdvances.refl (build : DatasetBuild) : BuildAdvances build build :=
  ⟨rfl, le_rfl, fun _ => rfl⟩

theorem BuildAdvances.trans {build'' : DatasetBuild} (h : BuildAdvances build build')
    (h' : BuildAdvances build' build'') : BuildAdvances build build'' where
  id := h'.id.trans h.id
  generation := h.generation.trans h'.generation
  finished hfinished := by
    obtain rfl := h.finished hfinished
    exact h'.finished hfinished

theorem not_finished_of_running (h : build.status = .running) : ¬ BuildFinished build := by
  simp [BuildFinished, h]

theorem not_finished_of_claimable (h : build.claimable now = true) : ¬ BuildFinished build := by
  rintro (hstatus | hstatus | hstatus)
  · simp [DatasetBuild.claimable, hstatus] at h
  · simp [DatasetBuild.claimable, hstatus] at h
  · simp [DatasetBuild.claimable, hstatus] at h

theorem exhausted_running_build (h : build.exhausted now = true) : build.status = .running := by
  simp only [DatasetBuild.exhausted, Bool.and_eq_true, decide_eq_true_eq] at h
  exact h.1.1

/-- A transaction moves a build forward only. -/
theorem BuildChange.advances (h : BuildChange build build') : BuildAdvances build build' := by
  cases h with
  | kept => exact BuildAdvances.refl build
  | deadLettered now hexhausted =>
    exact ⟨rfl, le_rfl, fun hfinished =>
      absurd hfinished (not_finished_of_running (exhausted_running_build hexhausted))⟩
  | claimed workerId queriedAt now hclaimable =>
    exact ⟨rfl, Int.le_add_one le_rfl, fun hfinished =>
      absurd hfinished (not_finished_of_claimable hclaimable)⟩
  | renewed now hrunning =>
    exact ⟨rfl, le_rfl, fun hfinished => absurd hfinished (not_finished_of_running hrunning)⟩
  | failed now errorCode message hrunning =>
    exact ⟨rfl, le_rfl, fun hfinished => absurd hfinished (not_finished_of_running hrunning)⟩
  | retried now message delay hrunning =>
    exact ⟨rfl, le_rfl, fun hfinished => absurd hfinished (not_finished_of_running hrunning)⟩

/-- No change other than a publication links a build to a version or says that it succeeded. -/
theorem BuildChange.link (h : BuildChange build build') :
    build'.datasetVersionId = build.datasetVersionId ∧
      (build'.status = .succeeded ↔ build.status = .succeeded) := by
  cases h with
  | kept => exact ⟨rfl, Iff.rfl⟩
  | deadLettered now hexhausted =>
    exact ⟨rfl, by simp [DatasetBuild.deadLettered, exhausted_running_build hexhausted]⟩
  | claimed workerId queriedAt now hclaimable =>
    have hother : build.status ≠ .succeeded := fun hstatus =>
      not_finished_of_claimable hclaimable (Or.inl hstatus)
    exact ⟨rfl, by simp [DatasetBuild.claimed, hother]⟩
  | renewed now hrunning => exact ⟨rfl, by simp [DatasetBuild.renewed]⟩
  | failed now errorCode message hrunning =>
    exact ⟨rfl, by simp [DatasetBuild.failed, hrunning]⟩
  | retried now message delay hrunning =>
    refine ⟨rfl, ?_⟩
    simp only [DatasetBuild.retried, hrunning]
    split_ifs <;> simp

/-- The attempts of a build stay within its bound. -/
theorem BuildChange.attempts (h : BuildChange build build')
    (hbound : 0 ≤ build.attemptCount ∧ build.attemptCount ≤ build.maxAttempts) :
    0 ≤ build'.attemptCount ∧ build'.attemptCount ≤ build'.maxAttempts := by
  cases h with
  | claimed workerId queriedAt now hclaimable =>
    simp only [DatasetBuild.claimable, Bool.and_eq_true, decide_eq_true_eq] at hclaimable
    simp only [DatasetBuild.claimed]
    omega
  | _ => exact hbound

/-! ## The invariant -/

/-- The rows of a version are all that a publication of its content inserts. -/
def CompleteVersion (sha256 : List ℕ → String) (db : PublicationDatabase)
    (version : DatasetVersionRow) : Prop :=
  ∃ build reads series hashes digests firstSeriesId,
    preparePublication sha256 build reads = .ok (series, hashes, digests) ∧
      version.contentHash = hashes.contentHash ∧
      versionContents version.id firstSeriesId series digests reads =
        .ok (db.contents version.id)

/-- What every reachable state satisfies. -/
structure SoundPublications (sha256 : List ℕ → String) (state : PublicationState) : Prop where
  attempts : ∀ build ∈ state.db.builds.rows,
    0 ≤ build.attemptCount ∧ build.attemptCount ≤ build.maxAttempts
  unlinked : ∀ build ∈ state.db.builds.rows, build.status ≠ .succeeded →
    build.datasetVersionId = none ∧ ∀ entry ∈ state.published, entry.buildId ≠ build.id
  linked : ∀ build ∈ state.db.builds.rows, build.status = .succeeded →
    ∃ version ∈ state.db.versions.rows, build.datasetVersionId = some version.id ∧
      (state.published.filter fun entry => entry.buildId = build.id) =
        [⟨build.id, version.contentHash⟩]
  contentHashes : (state.db.versions.rows.map DatasetVersionRow.contentHash).Nodup
  complete : ∀ version ∈ state.db.versions.rows,
    version.sealedAt.isSome = true ∧ CompleteVersion sha256 state.db version
  absent : ∀ versionId, versionId ∉ state.db.versions.rows.map DatasetVersionRow.id →
    state.db.contents versionId = {}

/-- Builds that were created and nothing else. -/
structure FreshPublications (state : PublicationState) : Prop where
  builds : ∀ build ∈ state.db.builds.rows, FreshBuild build
  versions : state.db.versions.rows = []
  contents : ∀ versionId, state.db.contents versionId = {}
  published : state.published = []

theorem FreshPublications.sound (h : FreshPublications state) : SoundPublications sha256 state where
  attempts build hbuild := by
    have hfresh := h.builds build hbuild
    rw [hfresh.attempts]
    exact ⟨le_rfl, hfresh.maxAttempts.le⟩
  unlinked build hbuild _ := ⟨(h.builds build hbuild).version, by simp [h.published]⟩
  linked build hbuild hstatus := by
    rw [(h.builds build hbuild).status] at hstatus
    cases hstatus
  contentHashes := by simp [h.versions]
  complete := by simp [h.versions]
  absent versionId _ := h.contents versionId

/-- Changes of the builds one by one keep the invariant. -/
theorem BuildsChanged.sound (h : BuildsChanged state.db state'.db)
    (hpublished : state'.published = state.published) (hsound : SoundPublications sha256 state) :
    SoundPublications sha256 state' where
  attempts build' hbuild' := by
    obtain ⟨build, hbuild, hchange⟩ := exists_of_forall₂ h.builds build' hbuild'
    exact hchange.attempts (hsound.attempts build hbuild)
  unlinked build' hbuild' hstatus := by
    obtain ⟨build, hbuild, hchange⟩ := exists_of_forall₂ h.builds build' hbuild'
    obtain ⟨hversion, hsame⟩ := hchange.link
    have hbefore := hsound.unlinked build hbuild fun hsucceeded => hstatus (hsame.mpr hsucceeded)
    rw [hversion, hpublished, hchange.advances.id]
    exact hbefore
  linked build' hbuild' hstatus := by
    obtain ⟨build, hbuild, hchange⟩ := exists_of_forall₂ h.builds build' hbuild'
    obtain ⟨hversion, hsame⟩ := hchange.link
    rw [hversion, hpublished, h.versions, hchange.advances.id]
    exact hsound.linked build hbuild (hsame.mp hstatus)
  contentHashes := h.versions ▸ hsound.contentHashes
  complete := by
    rw [h.versions]
    intro version hversion
    have hbefore := hsound.complete version hversion
    unfold CompleteVersion at hbefore ⊢
    rw [h.contents]
    exact hbefore
  absent := by
    rw [h.versions, h.contents]
    exact hsound.absent

section VersionPublished

variable {reads : PublicationReads} {series : List BuildSeries} {hashes : DatasetHashes}
  {digests : ℤ → Option (ℕ × String)} {db db' : PublicationDatabase} {version : DatasetVersionRow}

/-- The version of a publication is there after it, with its content hash. -/
theorem VersionPublished.mem (h : VersionPublished reads series hashes digests db db' version) :
    version ∈ db'.versions.rows ∧ version.contentHash = hashes.contentHash := by
  cases h with
  | found hmem hhash hversions _ => exact ⟨hversions ▸ hmem, hhash⟩
  | inserted contents hid hhash hnew hsealed hversions _ _ =>
    rw [hversions]
    exact ⟨mem_append_right _ (mem_singleton_self version), hhash⟩

/-- A publication keeps the other versions and their contents. -/
theorem VersionPublished.keeps (h : VersionPublished reads series hashes digests db db' version)
    {other : DatasetVersionRow} (hother : other ∈ db.versions.rows) :
    other ∈ db'.versions.rows ∧ db'.contents other.id = db.contents other.id := by
  cases h with
  | found _ _ hversions hcontents => exact ⟨hversions ▸ hother, by rw [hcontents]⟩
  | inserted contents hid _ _ _ hversions _ hcontents =>
    rw [hversions, hcontents]
    refine ⟨mem_append_left _ hother, Function.update_of_ne ?_ _ _⟩
    intro heq
    exact hid (mem_map.mpr ⟨other, hother, heq⟩)

theorem VersionPublished.contentHashes
    (h : VersionPublished reads series hashes digests db db' version)
    (hdistinct : (db.versions.rows.map DatasetVersionRow.contentHash).Nodup) :
    (db'.versions.rows.map DatasetVersionRow.contentHash).Nodup := by
  cases h with
  | found _ _ hversions _ => rwa [hversions]
  | inserted contents _ hhash hnew _ hversions _ _ =>
    rw [hversions, map_append, map_singleton]
    refine hdistinct.append (nodup_singleton _) ?_
    rw [disjoint_singleton, mem_map]
    rintro ⟨other, hother, heq⟩
    exact hnew other hother (heq.trans hhash)

/-- A publication leaves complete versions, and nothing of versions that are not there. -/
theorem VersionPublished.complete (h : VersionPublished reads series hashes digests db db' version)
    (hprepare : preparePublication sha256 build reads = .ok (series, hashes, digests)) (hcomplete :
      ∀ other ∈ db.versions.rows, other.sealedAt.isSome = true ∧ CompleteVersion sha256 db other) :
    ∀ other ∈ db'.versions.rows,
      other.sealedAt.isSome = true ∧ CompleteVersion sha256 db' other := by
  have hold : ∀ other ∈ db.versions.rows,
      other.sealedAt.isSome = true ∧ CompleteVersion sha256 db' other := by
    intro other hother
    obtain ⟨hsealed, hcontents⟩ := hcomplete other hother
    unfold CompleteVersion at hcontents ⊢
    rw [(h.keeps hother).2]
    exact ⟨hsealed, hcontents⟩
  cases h with
  | found _ _ hversions _ =>
    rw [hversions]
    exact hold
  | inserted contents _ hhash _ hsealed hversions hmade hcontents =>
    rw [hversions]
    intro other hother
    rcases mem_append.mp hother with hother | hother
    · exact hold other hother
    · obtain rfl := mem_singleton.mp hother
      refine ⟨hsealed, build, reads, series, hashes, digests, db.nextSeriesId, hprepare, hhash, ?_⟩
      rw [hcontents, Function.update_self]
      exact hmade

/-- Versions that are not there have no contents. -/
theorem VersionPublished.absent (h : VersionPublished reads series hashes digests db db' version)
    (habsent : ∀ versionId, versionId ∉ db.versions.rows.map DatasetVersionRow.id →
      db.contents versionId = {}) :
    ∀ versionId, versionId ∉ db'.versions.rows.map DatasetVersionRow.id →
      db'.contents versionId = {} := by
  cases h with
  | found _ _ hversions hcontents =>
    rw [hversions, hcontents]
    exact habsent
  | inserted contents _ _ _ _ hversions _ hcontents =>
    rw [hversions, hcontents]
    intro versionId hmem
    rw [map_append, map_singleton, mem_append, mem_singleton, not_or] at hmem
    rw [Function.update_of_ne hmem.2]
    exact habsent versionId hmem.1

end VersionPublished

/-- A publication keeps the invariant. -/
theorem BuildPublished.sound {workerId : String} {hashes : DatasetHashes}
    {version : DatasetVersionRow} (h : BuildPublished sha256 clock reads workerId generation
      state.db state'.db build hashes version)
    (hpublished : state'.published = state.published ++ [⟨build.id, hashes.contentHash⟩])
    (hsound : SoundPublications sha256 state) : SoundPublications sha256 state' := by
  obtain ⟨series, digests, hprepare, hversion⟩ := h.published
  have hrunning : build.status ≠ .succeeded := by
    rw [(build_leasedTo_iff.mp h.leased).2.1]
    simp
  have hunpublished := (hsound.unlinked build h.mem hrunning).2
  -- a row of the builds after the publication
  have hrows : ∀ row' ∈ state'.db.builds.rows,
      row' = build.succeeded version.id clock.updatedAt ∨
        row' ∈ state.db.builds.rows ∧ row'.id ≠ build.id := by
    rw [h.builds]
    intro row' hrow'
    obtain ⟨row, hrow, rfl⟩ := mem_map.mp hrow'
    split_ifs with hid
    · obtain rfl := KeyedTable.eq_of_key hrow h.mem hid
      exact Or.inl rfl
    · exact Or.inr ⟨hrow, hid⟩
  refine ⟨?_, ?_, ?_, hversion.contentHashes hsound.contentHashes,
    hversion.complete hprepare hsound.complete, hversion.absent hsound.absent⟩
  · intro row' hrow'
    rcases hrows row' hrow' with rfl | ⟨hrow, -⟩
    · exact hsound.attempts build h.mem
    · exact hsound.attempts row' hrow
  · intro row' hrow' hstatus
    rcases hrows row' hrow' with rfl | ⟨hrow, hid⟩
    · exact absurd rfl hstatus
    · obtain ⟨hlink, hentries⟩ := hsound.unlinked row' hrow hstatus
      refine ⟨hlink, fun entry hentry => ?_⟩
      rw [hpublished] at hentry
      rcases mem_append.mp hentry with hentry | hentry
      · exact hentries entry hentry
      · obtain rfl := mem_singleton.mp hentry
        exact Ne.symm hid
  · intro row' hrow' hstatus
    rw [hpublished]
    rcases hrows row' hrow' with rfl | ⟨hrow, hid⟩
    · refine ⟨version, hversion.mem.1, rfl, ?_⟩
      have hnone : (state.published.filter fun entry => entry.buildId = build.id) = [] := by
        rw [filter_eq_nil_iff]
        intro entry hentry
        simpa using hunpublished entry hentry
      change (List.filter (fun entry : PublishedBuild => decide (entry.buildId = build.id)) _) = _
      rw [filter_append, hnone, hversion.mem.2]
      simp [DatasetBuild.succeeded_id]
    · obtain ⟨linkedVersion, hmem, hlink, hfilter⟩ := hsound.linked row' hrow hstatus
      refine ⟨linkedVersion, (hversion.keeps hmem).1, hlink, ?_⟩
      rw [filter_append, hfilter]
      simp [Ne.symm hid]

/-- Every step keeps the invariant. -/
theorem publicationStep_sound (h : PublicationStep sha256 state state')
    (hsound : SoundPublications sha256 state) : SoundPublications sha256 state' := by
  rcases publicationStep_cases h with
    ⟨hchanged, hpublished⟩ | ⟨_, _, _, _, _, _, _, hpublication, hpublished⟩
  · exact hchanged.sound hpublished hsound
  · exact hpublication.sound hpublished hsound

/-- The invariant holds along every run of the workers. -/
theorem publications_sound (hsteps : Relation.ReflTransGen (PublicationStep sha256) state state')
    (hsound : SoundPublications sha256 state) : SoundPublications sha256 state' := by
  induction hsteps with
  | refl => exact hsound
  | tail _ hstep ih => exact publicationStep_sound hstep ih

/-! ## What goes on -/

/-- What a run keeps of the database. -/
structure DatabaseAdvances (db db' : PublicationDatabase) : Prop where
  builds : ∀ build ∈ db.builds.rows, ∃ build' ∈ db'.builds.rows, BuildAdvances build build'
  versions : ∀ version ∈ db.versions.rows,
    version ∈ db'.versions.rows ∧ db'.contents version.id = db.contents version.id

theorem publicationStep_advances (h : PublicationStep sha256 state state') :
    DatabaseAdvances state.db state'.db := by
  rcases publicationStep_cases h with
    ⟨hchanged, -⟩ | ⟨clock, _, _, _, build, _, version, hpublication, -⟩
  · constructor
    · intro build hbuild
      obtain ⟨build', hbuild', hchange⟩ := exists_of_forall₂ hchanged.builds.flip build hbuild
      exact ⟨build', hbuild', hchange.advances⟩
    · rw [hchanged.versions, hchanged.contents]
      exact fun version hversion => ⟨hversion, rfl⟩
  · obtain ⟨_, _, _, hversion⟩ := hpublication.published
    refine ⟨fun row hrow => ?_, fun other hother => hversion.keeps hother⟩
    rw [hpublication.builds]
    refine ⟨_, mem_map_of_mem hrow, ?_⟩
    split_ifs with hid
    · obtain rfl := KeyedTable.eq_of_key hrow hpublication.mem hid
      have hrunning := (build_leasedTo_iff.mp hpublication.leased).2.1
      exact ⟨rfl, le_rfl, fun hfinished => absurd hfinished (not_finished_of_running hrunning)⟩
    · exact BuildAdvances.refl row

theorem publications_advance
    (hsteps : Relation.ReflTransGen (PublicationStep sha256) state state') :
    DatabaseAdvances state.db state'.db := by
  induction hsteps with
  | refl =>
    exact ⟨fun build hbuild => ⟨build, hbuild, BuildAdvances.refl build⟩,
      fun version hversion => ⟨hversion, rfl⟩⟩
  | tail _ hstep ih =>
    have hnext := publicationStep_advances hstep
    constructor
    · intro build hbuild
      obtain ⟨build', hbuild', hadvances⟩ := ih.builds build hbuild
      obtain ⟨build'', hbuild'', hadvances'⟩ := hnext.builds build' hbuild'
      exact ⟨build'', hbuild'', hadvances.trans hadvances'⟩
    · intro version hversion
      obtain ⟨hkept, hcontents⟩ := ih.versions version hversion
      obtain ⟨hkept', hcontents'⟩ := hnext.versions version hkept
      exact ⟨hkept', hcontents'.trans hcontents⟩

/-! ## Stale leases -/

/-- A lease is not the current one of its build: not its owner, not its generation, or expired. -/
def StaleBuildLease (db : PublicationDatabase) (now : Instant) (buildId : ℤ) (workerId : String)
    (generation : ℤ) : Prop :=
  ∀ build ∈ db.builds.rows, build.id = buildId →
    ¬ (build.status = .running ∧ build.leaseOwner = some workerId ∧
      build.leaseGeneration = generation ∧
      ∃ expiresAt, build.leaseExpiresAt = some expiresAt ∧ now < expiresAt)

namespace StaleBuildLease

variable {db : PublicationDatabase} {now : Instant} {buildId : ℤ} {workerId : String}
  {generation : ℤ}

theorem leasedTo_false (h : StaleBuildLease db now buildId workerId generation) :
    ∀ build ∈ db.builds.rows, build.leasedTo now buildId workerId generation = false := by
  intro build hbuild
  rw [Bool.eq_false_iff]
  intro hleased
  obtain ⟨hid, hlease⟩ := build_leasedTo_iff.mp hleased
  exact h build hbuild hid hlease

/-- A stale lease publishes nothing. -/
theorem publication (h : StaleBuildLease db clock.updatedAt buildId workerId generation)
    {raised : Option PublicationException} {hashes : Option DatasetHashes} (hcommit :
      publicationTransaction sha256 clock db buildId workerId generation reads raised = .ok (hashes,
      db')) : hashes = none ∧ db' = db := by
  rcases publication_cases hcommit with hnone | ⟨build, _, _, rfl, -, hpublished⟩
  · exact hnone
  · exact absurd hpublished.leased (by simp [h.leasedTo_false build hpublished.mem])

/-- A stale worker fails nothing. -/
theorem failed (h : StaleBuildLease db now buildId workerId generation) (message : String) :
    markBuildFailed now db buildId workerId generation message = db := by
  unfold markBuildFailed
  rw [KeyedTable.update_of_forall_false _ _ h.leasedTo_false]

theorem retried (h : StaleBuildLease db now buildId workerId generation) (message : String) :
    scheduleBuildRetry now db buildId workerId generation message = .ok db := by
  have hnone : db.builds.find (DatasetBuild.leasedTo now buildId workerId generation) = none :=
    KeyedTable.find_eq_none_iff.mpr h.leasedTo_false
  simp [scheduleBuildRetry, hnone]

theorem renewed (h : StaleBuildLease db now buildId workerId generation) :
    renewLease now db buildId workerId generation =
      .error (.leaseLost "데이터셋 빌드 임대 fencing을 잃었다.") := by
  have hnone : db.builds.find (DatasetBuild.leasedTo now buildId workerId generation) = none :=
    KeyedTable.find_eq_none_iff.mpr h.leasedTo_false
  simp [renewLease, hnone]

end StaleBuildLease

/-- A generation that has been passed stays stale. -/
theorem stale_of_generation {db : PublicationDatabase} (h : DatabaseAdvances db db')
    (hbuild : build ∈ db.builds.rows) (hpassed : generation < build.leaseGeneration) (now : Instant)
    (workerId : String) : StaleBuildLease db' now build.id workerId generation := by
  rintro row hrow hid ⟨-, -, hgeneration, -⟩
  obtain ⟨build', hbuild', hadvances⟩ := h.builds build hbuild
  obtain rfl := KeyedTable.eq_of_key hrow hbuild' (hid.trans hadvances.id.symm)
  have := hadvances.generation
  omega

/-! ## Exactly once -/

theorem SoundPublications.versions_unique (h : SoundPublications sha256 state)
    (hbuild : build ∈ state.db.builds.rows) (hstatus : build.status = .succeeded) :
    ∃! version, version ∈ state.db.versions.rows ∧ build.datasetVersionId = some version.id ∧
      version.sealedAt.isSome = true := by
  obtain ⟨version, hversion, hlink, -⟩ := h.linked build hbuild hstatus
  refine ⟨version, ⟨hversion, hlink, (h.complete version hversion).1⟩, ?_⟩
  rintro other ⟨hother, hotherLink, -⟩
  rw [hlink] at hotherLink
  exact KeyedTable.eq_of_key hother hversion (Option.some.inj hotherLink).symm

/-- Builds that succeeded are published once. -/
theorem SoundPublications.published_count (h : SoundPublications sha256 state)
    (hbuild : build ∈ state.db.builds.rows) :
    (state.published.filter fun entry => entry.buildId = build.id).length =
      if build.status = .succeeded then 1 else 0 := by
  split_ifs with hstatus
  · obtain ⟨version, -, -, hfilter⟩ := h.linked build hbuild hstatus
    rw [hfilter]
    rfl
  · have hnone : (state.published.filter fun entry => entry.buildId = build.id) = [] := by
      rw [filter_eq_nil_iff]
      intro entry hentry
      simpa using (h.unlinked build hbuild hstatus).2 entry hentry
    rw [hnone]
    rfl

/-- Publications of the same content are linked to the same version. -/
theorem SoundPublications.same_version (h : SoundPublications sha256 state) {other : DatasetBuild}
    (hbuild : build ∈ state.db.builds.rows) (hother : other ∈ state.db.builds.rows)
    (hstatus : build.status = .succeeded) (hotherStatus : other.status = .succeeded)
    {entry otherEntry : PublishedBuild} (hentry : entry ∈ state.published)
    (hotherEntry : otherEntry ∈ state.published) (hid : entry.buildId = build.id)
    (hotherId : otherEntry.buildId = other.id)
    (hhash : entry.contentHash = otherEntry.contentHash) :
    build.datasetVersionId = other.datasetVersionId := by
  have hcontent : ∀ {row : DatasetBuild} {published : PublishedBuild},
      row ∈ state.db.builds.rows → row.status = .succeeded → published ∈ state.published →
        published.buildId = row.id → ∃ version ∈ state.db.versions.rows,
          row.datasetVersionId = some version.id ∧
            published.contentHash = version.contentHash := by
    intro row published hrow hsucceeded hpublished hrowId
    obtain ⟨version, hversion, hlink, hfilter⟩ := h.linked row hrow hsucceeded
    have hmem : published ∈ state.published.filter fun entry => entry.buildId = row.id :=
      mem_filter.mpr ⟨hpublished, decide_eq_true hrowId⟩
    rw [hfilter, mem_singleton] at hmem
    exact ⟨version, hversion, hlink, by rw [hmem]⟩
  obtain ⟨version, hversion, hlink, hcontentHash⟩ := hcontent hbuild hstatus hentry hid
  obtain ⟨otherVersion, hotherVersion, hotherLink, hotherHash⟩ :=
    hcontent hother hotherStatus hotherEntry hotherId
  have hsame := inj_on_of_nodup_map h.contentHashes hversion hotherVersion
    (hcontentHash.symm.trans (hhash.trans hotherHash))
  rw [hlink, hotherLink, hsame]

/-- Datasets are published exactly once, whatever the workers do in any order.
SOURCE: dataset_version_store.py:389-527, 636-697, 1973-2021 -/
theorem publication_exactly_once (sha256 : List ℕ → String) (fresh : PublicationState)
    (hfresh : FreshPublications fresh) (state : PublicationState)
    (hsteps : Relation.ReflTransGen (PublicationStep sha256) fresh state) :
    -- (a) a build is linked to a version, which is sealed, if and only if it succeeded
    (∀ build ∈ state.db.builds.rows, build.status = .succeeded →
      ∃! version, version ∈ state.db.versions.rows ∧ build.datasetVersionId = some version.id ∧
        version.sealedAt.isSome = true) ∧
    (∀ build ∈ state.db.builds.rows, build.status ≠ .succeeded →
      build.datasetVersionId = none) ∧
    (∀ build ∈ state.db.builds.rows,
      (state.published.filter fun entry => entry.buildId = build.id).length =
        if build.status = .succeeded then 1 else 0) ∧
    -- (b) the same content is the same version, and versions and their contents stay
    (∀ build ∈ state.db.builds.rows, ∀ other ∈ state.db.builds.rows,
      build.status = .succeeded → other.status = .succeeded →
      ∀ entry ∈ state.published, ∀ otherEntry ∈ state.published, entry.buildId = build.id →
        otherEntry.buildId = other.id → entry.contentHash = otherEntry.contentHash →
          build.datasetVersionId = other.datasetVersionId) ∧
    (∀ state', Relation.ReflTransGen (PublicationStep sha256) state state' →
      ∀ version ∈ state.db.versions.rows, version ∈ state'.db.versions.rows ∧
        state'.db.contents version.id = state.db.contents version.id) ∧
    -- (c) a stale lease neither finishes nor fails nor reschedules a build, nor is it renewed,
    -- and a generation that was passed stays stale
    (∀ (clock : PublicationClock) buildId workerId generation reads raised hashes db',
      StaleBuildLease state.db clock.updatedAt buildId workerId generation →
      publicationTransaction sha256 clock state.db buildId workerId generation reads raised =
        .ok (hashes, db') → hashes = none ∧ db' = state.db) ∧
    (∀ now buildId workerId generation message,
      StaleBuildLease state.db now buildId workerId generation →
      markBuildFailed now state.db buildId workerId generation message = state.db ∧
      scheduleBuildRetry now state.db buildId workerId generation message = .ok state.db ∧
      renewLease now state.db buildId workerId generation =
        .error (.leaseLost "데이터셋 빌드 임대 fencing을 잃었다.")) ∧
    (∀ state', Relation.ReflTransGen (PublicationStep sha256) state state' →
      ∀ build ∈ state.db.builds.rows, ∀ generation < build.leaseGeneration, ∀ now workerId,
        StaleBuildLease state'.db now build.id workerId generation) ∧
    -- (d) what is finished stays, and the attempts are bounded
    (∀ state', Relation.ReflTransGen (PublicationStep sha256) state state' →
      ∀ build ∈ state.db.builds.rows, BuildFinished build → build ∈ state'.db.builds.rows) ∧
    (∀ build ∈ state.db.builds.rows,
      0 ≤ build.attemptCount ∧ build.attemptCount ≤ build.maxAttempts) ∧
    -- (e) every version is sealed and has all of its contents, and there are no others
    (∀ version ∈ state.db.versions.rows,
      version.sealedAt.isSome = true ∧ CompleteVersion sha256 state.db version) ∧
    ∀ versionId, versionId ∉ state.db.versions.rows.map DatasetVersionRow.id →
      state.db.contents versionId = {} := by
  have hsound : SoundPublications sha256 state := publications_sound hsteps hfresh.sound
  refine ⟨fun build hbuild hstatus => hsound.versions_unique hbuild hstatus,
    fun build hbuild hstatus => (hsound.unlinked build hbuild hstatus).1,
    fun build hbuild => hsound.published_count hbuild, ?_, ?_, ?_, ?_, ?_, ?_, hsound.attempts,
    hsound.complete, hsound.absent⟩
  · intro build hbuild other hother hstatus hotherStatus entry hentry otherEntry hotherEntry hid
      hotherId hhash
    exact hsound.same_version hbuild hother hstatus hotherStatus hentry hotherEntry hid hotherId
      hhash
  · intro state' hlater version hversion
    exact (publications_advance hlater).versions version hversion
  · intro clock buildId workerId generation reads raised hashes db' hstale hcommit
    exact hstale.publication hcommit
  · intro now buildId workerId generation message hstale
    exact ⟨hstale.failed message, hstale.retried message, hstale.renewed⟩
  · intro state' hlater build hbuild generation hpassed now workerId
    exact stale_of_generation (publications_advance hlater) hbuild hpassed now workerId
  · intro state' hlater build hbuild hfinished
    obtain ⟨build', hbuild', hadvances⟩ := (publications_advance hlater).builds build hbuild
    exact hadvances.finished hfinished ▸ hbuild'

/-! ## A build that is claimed and published -/

/-- A build as `create_build` inserts it, of the first hour of a day. -/
def freshBuild : DatasetBuild where
  id := 1
  idempotencyKey := "key"
  requestId := "request"
  actorId := "actor"
  requestedAt := 63872236800000000
  reason := "reason"
  frozenAt := 63872236800000000
  requestHash := "hash"
  schemaVersion := "1"
  asOf := 63872236800000000
  inputStartAt := 63872233200000000
  outputStartAt := 63872233200000000
  endAt := 63872236800000000
  fillPolicy := "none"
  missingPolicy := "null"
  orderingPolicy := "natural_key_asc_v1"
  createdAt := 63872236800000000

/-- A database with that build and no versions. -/
def pendingDatabase : PublicationDatabase where
  builds := ⟨[freshBuild], by decide⟩
  versions := ⟨[], by decide⟩
  contents := fun _ => {}
  nextVersionId := 1
  nextSeriesId := 1

/-- What its publication reads: one series without members. -/
def emptyReads : PublicationReads where
  series := [⟨1, 1, 1, "UPBIT", "KRW-BTC", "candle", "1m", none, "source-candle-v1"⟩]
  members := []
  marketStatuses := []
  coverage := []

/-- Some digest. -/
def fixedDigest (_ : List ℕ) : String :=
  "0000000000000000000000000000000000000000000000000000000000000000"

/-- The claim of that build. -/
def pendingClaim : Option (ℤ × ℤ) × PublicationDatabase :=
  claimNextBuild 63872236800000000 63872236800000000 63872236800000000 (fun _ => false)
    pendingDatabase "worker"

/-- The database after the claim and the first renewal of the lease. -/
def renewedDatabase : PublicationDatabase :=
  (renewLease 63872236800000000 pendingClaim.2 1 "worker" 1).toOption.getD pendingDatabase

/-- The publication of that build. -/
def pendingPublication : Except PublicationException (Option DatasetHashes × PublicationDatabase) :=
  publicationTransaction fixedDigest ⟨63872236800000000, 63872236800000000, 63872236800000000,
    63872236800000000⟩ renewedDatabase 1 "worker" 1 emptyReads none

/-- A run that publishes a pending build. -/
theorem publication_exactly_once_pendingBuild :
    ∃ state, Relation.ReflTransGen (PublicationStep fixedDigest) ⟨pendingDatabase, [], []⟩ state ∧
      state.db.builds.rows.map DatasetBuild.status = [.succeeded] ∧
      ∀ build ∈ state.db.builds.rows, build.status = .succeeded →
        ∃! version, version ∈ state.db.versions.rows ∧
          build.datasetVersionId = some version.id ∧ version.sealedAt.isSome = true := by
  have hfresh : FreshPublications ⟨pendingDatabase, [], []⟩ := by
    refine ⟨?_, rfl, fun _ => rfl, rfl⟩
    intro build hbuild
    obtain rfl := mem_singleton.mp hbuild
    exact ⟨rfl, rfl, by decide, rfl⟩
  have hpublished : pendingPublication.toOption.map (fun result =>
      result.2.builds.rows.map DatasetBuild.status) = some [.succeeded] := by
    decide +kernel
  obtain ⟨⟨hashes, db⟩, hcommit, hstatus⟩ := Option.map_eq_some_iff.mp hpublished
  have hclaimed : pendingClaim.1 = some (1, 1) := by decide +kernel
  have hclaims : PublicationStep fixedDigest ⟨pendingDatabase, [], []⟩
      ⟨pendingClaim.2, [⟨"worker", 1, 1, .starting⟩], []⟩ :=
    .claims ⟨pendingDatabase, [], []⟩ "worker" 63872236800000000 63872236800000000
      63872236800000000 (fun _ => false) (some (1, 1)) pendingClaim.2 (Prod.ext hclaimed rfl)
  have hrenewed : (renewLease 63872236800000000 pendingClaim.2 1 "worker" 1).isOk = true := by
    decide +kernel
  have hrenews : renewLease 63872236800000000 pendingClaim.2 1 "worker" 1 =
      .ok renewedDatabase := by
    obtain ⟨db', hdb'⟩ := exists_ok_of_isOk hrenewed
    simp only [renewedDatabase, hdb', Except.toOption, Option.getD_some]
  have hstarts : PublicationStep fixedDigest ⟨pendingClaim.2, [⟨"worker", 1, 1, .starting⟩], []⟩
      ⟨renewedDatabase, [⟨"worker", 1, 1, .publishing⟩], []⟩ :=
    .starts ⟨pendingClaim.2, [⟨"worker", 1, 1, .starting⟩], []⟩ 0 ⟨"worker", 1, 1, .starting⟩
      63872236800000000 renewedDatabase rfl rfl hrenews
  have hpublishes := @PublicationStep.publishes fixedDigest
    ⟨renewedDatabase, [⟨"worker", 1, 1, .publishing⟩], []⟩ 0 ⟨"worker", 1, 1, .publishing⟩
    ⟨63872236800000000, 63872236800000000, 63872236800000000, 63872236800000000⟩ emptyReads none
    hashes db rfl rfl (mem_toOption.mp hcommit)
  have hsteps := ((Relation.ReflTransGen.single hclaims).tail hstarts).tail hpublishes
  exact ⟨_, hsteps, hstatus, (publication_exactly_once fixedDigest _ hfresh _ hsteps).1⟩

end Goodmoneying.Analysis
