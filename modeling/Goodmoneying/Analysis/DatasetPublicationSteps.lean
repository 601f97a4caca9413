import Goodmoneying.Program.DatasetPublication

/-!
# What a step does to dataset builds and versions

Every step changes the builds one by one (`BuildChange`) and leaves the versions, or it publishes
one build (`BuildPublished`): it links the build to the version of its content, which is there
already or comes with all of its contents and its seal.
-/

namespace Goodmoneying.Analysis

open List Library Program

variable {now : Instant} {buildId generation : ℤ} {workerId : String} {build : DatasetBuild}
  {builds : BuildTable} {db db' : PublicationDatabase}
variable {locked : ℤ → Bool} {row : DatasetVersionRow} {clock : PublicationClock}
  {reads : PublicationReads} {sha256 : List ℕ → String}

/-- What a step makes of a build, a publication apart. -/
inductive BuildChange : DatasetBuild → DatasetBuild → Prop
  | kept (build : DatasetBuild) : BuildChange build build
  | deadLettered (build : DatasetBuild) (now : Instant) (hexhausted : build.exhausted now = true) :
      BuildChange build (build.deadLettered now)
  | claimed (build : DatasetBuild) (workerId : String) (queriedAt now : Instant)
      (hclaimable : build.claimable queriedAt = true) :
      BuildChange build (build.claimed workerId (build.leaseGeneration + 1) now)
  | renewed (build : DatasetBuild) (now : Instant) (hrunning : build.status = .running) :
      BuildChange build (build.renewed now)
  | failed (build : DatasetBuild) (now : Instant) (errorCode message : String)
      (hrunning : build.status = .running) : BuildChange build (build.failed now errorCode message)
  | retried (build : DatasetBuild) (now : Instant) (message : String) (delay : ℤ)
      (hrunning : build.status = .running) : BuildChange build (build.retried now message delay)

/-- The builds change one by one; no version is written. -/
structure BuildsChanged (db db' : PublicationDatabase) : Prop where
  builds : List.Forall₂ BuildChange db.builds.rows db'.builds.rows
  versions : db'.versions = db.versions
  contents : db'.contents = db.contents

/-- The version of a publication: one that is there, or a new one with all of its contents. -/
inductive VersionPublished (reads : PublicationReads) (series : List BuildSeries)
    (hashes : DatasetHashes) (digests : ℤ → Option (ℕ × String)) (db db' : PublicationDatabase) :
    DatasetVersionRow → Prop
  | found (version : DatasetVersionRow) (hmem : version ∈ db.versions.rows)
      (hhash : version.contentHash = hashes.contentHash) (hversions : db'.versions = db.versions)
      (hcontents : db'.contents = db.contents) :
      VersionPublished reads series hashes digests db db' version
  | inserted (version : DatasetVersionRow) (contents : VersionContents)
      (hid : version.id ∉ db.versions.rows.map DatasetVersionRow.id)
      (hhash : version.contentHash = hashes.contentHash)
      (hnew : ∀ other ∈ db.versions.rows, other.contentHash ≠ hashes.contentHash)
      (hsealed : version.sealedAt.isSome = true)
      (hversions : db'.versions.rows = db.versions.rows ++ [version])
      (hmade : versionContents version.id db.nextSeriesId series digests reads = .ok contents)
      (hcontents : db'.contents = Function.update db.contents version.id contents) :
      VersionPublished reads series hashes digests db db' version

/-- One build is published by a call that holds its lease. -/
structure BuildPublished (sha256 : List ℕ → String) (clock : PublicationClock)
    (reads : PublicationReads) (workerId : String) (generation : ℤ)
    (db db' : PublicationDatabase) (build : DatasetBuild) (hashes : DatasetHashes)
    (version : DatasetVersionRow) : Prop where
  mem : build ∈ db.builds.rows
  leased : build.leasedTo clock.updatedAt build.id workerId generation = true
  published : ∃ series digests,
    preparePublication sha256 build reads = .ok (series, hashes, digests) ∧
      VersionPublished reads series hashes digests db db' version
  builds : db'.builds.rows = db.builds.rows.map fun row =>
    if row.id = build.id then row.succeeded version.id clock.updatedAt else row

/-- The condition on a lease, in words. -/
theorem build_leasedTo_iff : build.leasedTo now buildId workerId generation = true ↔
      build.id = buildId ∧ build.status = .running ∧ build.leaseOwner = some workerId ∧
        build.leaseGeneration = generation ∧
        ∃ expiresAt, build.leaseExpiresAt = some expiresAt ∧ now < expiresAt := by
  simp [DatasetBuild.leasedTo, Option.any_eq_true, and_assoc]

theorem find_leasedBuild :
    builds.find (DatasetBuild.leasedTo now buildId workerId generation) = some build ↔
      build ∈ builds.rows ∧ build.leasedTo now buildId workerId generation = true :=
  KeyedTable.find_eq_some_iff fun _ h => (build_leasedTo_iff.mp h).1

/-- Among the rows of a table, the condition on the lease of a build picks out that build. -/
theorem leasedTo_iff_buildId {row : DatasetBuild} (hbuild : build ∈ builds.rows)
    (hleased : build.leasedTo now buildId workerId generation = true) (hrow : row ∈ builds.rows) :
    row.leasedTo now buildId workerId generation = true ↔ row.id = build.id := by
  constructor
  · intro h
    exact (build_leasedTo_iff.mp h).1.trans (build_leasedTo_iff.mp hleased).1.symm
  · intro h
    rw [KeyedTable.eq_of_key hrow hbuild h]
    exact hleased

/-- An update of the builds that hold a lease, where `change` is a change of a running build. -/
theorem forall_update_leased (change : DatasetBuild → DatasetBuild)
    (hkey : ∀ build, (change build).id = build.id)
    (hchange : ∀ build : DatasetBuild, build.status = .running → BuildChange build (change build)) :
    List.Forall₂ BuildChange db.builds.rows
      (db.builds.update (DatasetBuild.leasedTo now buildId workerId generation) change
        hkey).rows := by
  rw [KeyedTable.update_rows, forall₂_map_right_iff, forall₂_same]
  intro build hbuild
  split_ifs with hleased
  · exact hchange build (build_leasedTo_iff.mp hleased).2.1
  · exact .kept build

/-- The candidate of a claim can be claimed. -/
theorem buildCandidate?_some (h : buildCandidate? builds now locked = some build) :
    build ∈ builds.rows ∧ build.claimable now = true := by
  have hmem := mem_sortedBy.mp (mem_of_head? h)
  simp only [mem_filter, Bool.and_eq_true] at hmem
  exact ⟨hmem.1, hmem.2.1⟩

theorem not_claimable_deadLetteredBuild (now now' : Instant) (build : DatasetBuild) :
    (build.deadLettered now').claimable now = false := by
  simp [DatasetBuild.claimable, DatasetBuild.deadLettered]

/-- What the first update of a claim makes of a build. -/
def sweptBuild (now : Instant) (build : DatasetBuild) : DatasetBuild :=
  if build.exhausted now then build.deadLettered now else build

theorem sweptBuild_changed (now : Instant) (build : DatasetBuild) :
    BuildChange build (sweptBuild now build) := by
  unfold sweptBuild
  split_ifs with hexhausted
  · exact .deadLettered build now hexhausted
  · exact .kept build

/-- A build that can be claimed after the first update is as it was before. -/
theorem sweptBuild_of_claimable {now' : Instant}
    (h : (sweptBuild now build).claimable now' = true) : sweptBuild now build = build := by
  unfold sweptBuild at h ⊢
  split_ifs with hexhausted
  · rw [if_pos hexhausted, not_claimable_deadLetteredBuild] at h
    cases h
  · rfl

/-- What a claim did. -/
theorem claim_changed {sweptAt queriedAt updatedAt : Instant} {claimed : Option (ℤ × ℤ)}
    (h : claimNextBuild sweptAt queriedAt updatedAt locked db workerId = (claimed, db')) :
    BuildsChanged db db' := by
  unfold claimNextBuild at h
  dsimp only at h
  split at h
  · obtain ⟨-, rfl⟩ := Prod.mk.inj h
    refine ⟨?_, rfl, rfl⟩
    rw [KeyedTable.update_rows, forall₂_map_right_iff, forall₂_same]
    exact fun build _ => sweptBuild_changed sweptAt build
  · next candidate hcandidate =>
    obtain ⟨-, rfl⟩ := Prod.mk.inj h
    obtain ⟨hmem, hclaimable⟩ := buildCandidate?_some hcandidate
    refine ⟨?_, rfl, rfl⟩
    rw [KeyedTable.update_rows, KeyedTable.update_rows, map_map,
      forall₂_map_right_iff, forall₂_same]
    intro build hbuild
    simp only [Function.comp_apply]
    change BuildChange build
      (if DatasetBuild.ofGeneration candidate.id candidate.leaseGeneration
        (sweptBuild sweptAt build) then
          DatasetBuild.claimed workerId _ updatedAt (sweptBuild sweptAt build)
        else sweptBuild sweptAt build)
    split_ifs with hcondition
    · -- the build that is claimed was not swept
      have hswept : sweptBuild sweptAt build ∈ (db.builds.update (DatasetBuild.exhausted sweptAt)
          (DatasetBuild.deadLettered sweptAt) (DatasetBuild.deadLettered_id sweptAt)).rows := by
        rw [KeyedTable.update_rows]
        exact mem_map_of_mem hbuild
      have hid : (sweptBuild sweptAt build).id = candidate.id := by
        simp only [DatasetBuild.ofGeneration, Bool.and_eq_true, decide_eq_true_eq] at hcondition
        exact hcondition.1
      obtain rfl := KeyedTable.eq_of_key hswept hmem hid
      have hsame := sweptBuild_of_claimable hclaimable
      rw [hsame] at hclaimable ⊢
      exact .claimed build workerId queriedAt updatedAt hclaimable
    · exact sweptBuild_changed sweptAt build

theorem renew_changed (h : renewLease now db buildId workerId generation = .ok db') :
    BuildsChanged db db' := by
  unfold renewLease at h
  dsimp only at h
  split_ifs at h
  obtain rfl := Except.ok.inj h
  exact ⟨forall_update_leased (DatasetBuild.renewed now) (fun _ => rfl)
    fun build => .renewed build now, rfl, rfl⟩

theorem markBuildFailed_changed (now : Instant) (db : PublicationDatabase) (buildId : ℤ)
    (workerId : String) (generation : ℤ) (message : String) :
    BuildsChanged db (markBuildFailed now db buildId workerId generation message) :=
  ⟨forall_update_leased (DatasetBuild.failed now _ message) (fun _ => rfl)
    fun build => .failed build now _ message, rfl, rfl⟩

theorem retry_changed {message : String}
    (h : scheduleBuildRetry now db buildId workerId generation message = .ok db') :
    BuildsChanged db db' := by
  unfold scheduleBuildRetry at h
  dsimp only at h
  split at h
  · obtain rfl := Except.ok.inj h
    exact ⟨forall₂_same.mpr fun build _ => .kept build, rfl, rfl⟩
  · obtain ⟨delay, -, h⟩ := bind_eq_ok.mp h
    obtain rfl := pure_eq_ok.mp h
    exact ⟨forall_update_leased (DatasetBuild.retried now message delay) (fun _ => rfl)
      fun build => .retried build now message delay, rfl, rfl⟩

/-- A new version is sealed in the transaction that inserts it. -/
theorem insert_sealed {versions : KeyedTable DatasetVersionRow.id}
    (hnew : row.id ∉ versions.rows.map DatasetVersionRow.id) (hunsealed : row.sealedAt = none)
    (now : Instant) : ((versions.insert row hnew).update
      (fun version => version.id = row.id && version.sealedAt.isNone)
      (DatasetVersionRow.sealed now) (DatasetVersionRow.sealed_id now)).rows =
        versions.rows ++ [row.sealed now] := by
  rw [KeyedTable.update_rows]
  change (versions.rows ++ [row]).map _ = _
  rw [map_append]
  congr 1
  · refine (map_congr_left fun version hversion => ?_).trans (map_id' _)
    have hother : version.id ≠ row.id := fun heq =>
      hnew (mem_map.mpr ⟨version, hversion, heq⟩)
    simp [hother]
  · simp [hunsealed]

/-- A publication that returns has written one version, or found it. -/
theorem publishVersion_published {series : List BuildSeries} {hashes : DatasetHashes}
    {digests : ℤ → Option (ℕ × String)}
    (h : publishVersion clock db build reads series hashes digests = .ok (row, db')) :
    db'.builds = db.builds ∧
      ∃ version, version.id = row.id ∧
        VersionPublished reads series hashes digests db db' version := by
  unfold publishVersion at h
  dsimp only at h
  by_cases hexists : (db.versions.rows.any fun version =>
      version.contentHash = hashes.contentHash) = true
  · rw [if_pos hexists] at h
    split at h
    · next version hfind =>
      obtain ⟨rfl, rfl⟩ := Prod.mk.inj (Except.ok.inj h)
      have hfound := List.find?_some hfind
      simp only [Bool.and_eq_true, decide_eq_true_eq] at hfound
      exact ⟨rfl, version, rfl,
        .found version (mem_of_find?_eq_some hfind) hfound.1 rfl rfl⟩
    · cases h
  · rw [if_neg hexists] at h
    by_cases hnew : (versionRow build hashes db.nextVersionId clock.insertedAt).id ∉
        db.versions.rows.map DatasetVersionRow.id
    · rw [dif_pos hnew] at h
      obtain ⟨contents, hcontents, h⟩ := bind_eq_ok.mp h
      obtain ⟨-, h⟩ := guard_eq_ok.mp h
      obtain ⟨rfl, rfl⟩ := Prod.mk.inj (pure_eq_ok.mp h)
      refine ⟨rfl,
        (versionRow build hashes db.nextVersionId clock.insertedAt).sealed clock.sealedAt, rfl,
        .inserted _ contents hnew rfl ?_ rfl ?_ hcontents rfl⟩
      · intro other hother heq
        exact hexists (any_eq_true.mpr ⟨other, hother, decide_eq_true heq⟩)
      · exact insert_sealed hnew rfl clock.sealedAt
    · rw [dif_neg hnew] at h
      cases h

/-- What a publication that committed did: nothing, or it published the build whose lease it
held. -/
theorem publication_cases {raised : Option PublicationException} {hashes : Option DatasetHashes} (h
      : publicationTransaction sha256 clock db buildId workerId generation reads raised = .ok
      (hashes, db')) : (hashes = none ∧ db' = db) ∨
      ∃ build published version, build.id = buildId ∧ hashes = some published ∧
        BuildPublished sha256 clock reads workerId generation db db' build published version := by
  unfold publicationTransaction at h
  split at h
  · cases h
  · obtain ⟨rfl, rfl⟩ := Prod.mk.inj (Except.ok.inj h)
    exact Or.inl ⟨rfl, rfl⟩
  · next build hfind =>
    obtain ⟨⟨published, committed⟩, hpublish, h⟩ := bind_eq_ok.mp h
    obtain ⟨rfl, rfl⟩ := Prod.mk.inj (pure_eq_ok.mp h)
    obtain ⟨hmem, hleased⟩ := find_leasedBuild.mp hfind
    obtain ⟨⟨series, prepared, digests⟩, hprepare, hpublish⟩ := bind_eq_ok.mp hpublish
    obtain ⟨⟨row, written⟩, hversion, hpublish⟩ := bind_eq_ok.mp hpublish
    obtain ⟨hstill, hpublish⟩ := guard_eq_ok.mp hpublish
    obtain ⟨rfl, rfl⟩ := Prod.mk.inj (pure_eq_ok.mp hpublish)
    obtain ⟨hbuilds, version, hid, hpublished⟩ := publishVersion_published hversion
    obtain rfl := (build_leasedTo_iff.mp hleased).1
    rw [hbuilds] at hstill
    have hleasedNow : build.leasedTo clock.updatedAt build.id workerId generation = true := by
      cases hother : db.builds.find
          (DatasetBuild.leasedTo clock.updatedAt build.id workerId generation) with
      | none => exact absurd (Option.isNone_iff_eq_none.mpr hother) hstill
      | some other =>
        obtain ⟨hotherMem, hotherLeased⟩ := find_leasedBuild.mp hother
        have hsame := KeyedTable.eq_of_key hotherMem hmem (build_leasedTo_iff.mp hotherLeased).1
        exact hsame ▸ hotherLeased
    refine Or.inr ⟨build, prepared, version, rfl, rfl, hmem, hleasedNow,
      ⟨series, digests, hprepare, ?_⟩, ?_⟩
    · -- the last update leaves the versions
      cases hpublished with
      | found hversionMem hhash hversions hcontents =>
        exact .found version hversionMem hhash hversions hcontents
      | inserted contents hnewId hhash hnew hsealed hversions hmade hcontents =>
        exact .inserted version contents hnewId hhash hnew hsealed hversions hmade hcontents
    · rw [KeyedTable.update_rows, hbuilds, hid]
      refine map_congr_left fun other hother => ?_
      simp only [leasedTo_iff_buildId hmem hleasedNow hother]

theorem BuildsChanged.refl (db : PublicationDatabase) : BuildsChanged db db :=
  ⟨forall₂_same.mpr fun build _ => .kept build, rfl, rfl⟩

/-- A step changes the builds one by one, or publishes one.
SOURCE: dataset_version_store.py:457-697, 1973-2021 -/
theorem publicationStep_cases {state state' : PublicationState}
    (h : PublicationStep sha256 state state') :
    (BuildsChanged state.db state'.db ∧ state'.published = state.published) ∨
      ∃ clock reads workerId generation build hashes version,
        BuildPublished sha256 clock reads workerId generation state.db state'.db build hashes
          version ∧
        state'.published = state.published ++ [⟨build.id, hashes.contentHash⟩] := by
  cases h with
  | claims workerId sweptAt queriedAt updatedAt locked claimed db hclaim =>
    exact Or.inl ⟨claim_changed hclaim, rfl⟩
  | starts i publisher now db hpublisher hphase hrenew =>
    exact Or.inl ⟨renew_changed hrenew, rfl⟩
  | startRaises i publisher exc hpublisher hphase =>
    exact Or.inl ⟨BuildsChanged.refl _, rfl⟩
  | renews i publisher now db hpublisher hphase hrenew =>
    exact Or.inl ⟨renew_changed hrenew, rfl⟩
  | publishes i publisher clock reads raised hashes db hpublisher hphase hcommit =>
    rcases publication_cases hcommit with
      ⟨rfl, rfl⟩ | ⟨build, published, version, hid, rfl, hpublished⟩
    · exact Or.inl ⟨BuildsChanged.refl _, append_nil _⟩
    · refine Or.inr ⟨clock, reads, publisher.workerId, publisher.generation, build, published,
        version, hpublished, ?_⟩
      rw [hid]
      rfl
  | publicationRaises i publisher clock reads raised exc hpublisher hphase hraise =>
    exact Or.inl ⟨BuildsChanged.refl _, rfl⟩
  | fails i publisher now message hpublisher hphase =>
    exact Or.inl ⟨markBuildFailed_changed now _ _ _ _ message, rfl⟩
  | retries i publisher now message db hpublisher hphase hretry =>
    exact Or.inl ⟨retry_changed hretry, rfl⟩

end Goodmoneying.Analysis
