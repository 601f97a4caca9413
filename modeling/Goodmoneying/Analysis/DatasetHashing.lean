import Goodmoneying.Program.DatasetVersions
import Goodmoneying.Program.UtcTimes

/-!
# Datasets hash the same in memory and row by row

A digest that has been fed values under ascending keys holds the bytes of their array, but for the
closing bracket (`foldlM_eq_digestOf`). The order of the rows, by the texts' bytes and then by the
instants, is that of the keys (`le_of_cursorKey_le`, `cons_str_le`), and what
`canonicalDatasetHashes` accepts has distinct keys, so its lists and the rows are the same lists.
-/

namespace Goodmoneying.Analysis

open List Library
open Program

variable {u : Unit} {members : List DatasetCanonicalMember}
  {statuses : List DatasetMarketStatusSnapshot} {coverage : List DatasetCoverageSegment}

/-! ## The bytes of a digest -/

theorem requireValue_eq_ok {condition : Bool} {message : String} :
    requireValue condition message = .ok u ↔ condition = true := by
  unfold requireValue
  cases condition with
  | true => simp
  | false => simp

section Digest

variable {α : Type} (payload : α → JsonValue) (key : α → List String)

/-- The digest that has been fed the values of a list. -/
def digestOf (l : List α) : CanonicalJsonArrayDigest where
  digest := utf8Bytes ("[" ++ ",".intercalate (l.map fun item => (payload item).dumps))
  count := l.length
  previousKey := l.getLast?.map key

theorem hexdigest_digestOf (sha256 : List ℕ → String) (l : List α) :
    (digestOf payload key l).hexdigest sha256 =
      canonicalPayloadHash sha256 (.list (l.map payload)) := by
  rw [CanonicalJsonArrayDigest.hexdigest, canonicalPayloadHash, canonicalJsonBytes,
    JsonValue.dumps, dumpsItems_eq_map, map_map, digestOf, ← utf8Bytes_append]
  rfl

/-- The separator stands before every value but the first. -/
theorem digestOf_concat (l : List α) (a : α) :
    (digestOf payload key (l ++ [a])).digest =
      (if (digestOf payload key l).count = 0 then (digestOf payload key l).digest
        else (digestOf payload key l).digest ++ utf8Bytes ",") ++
      canonicalJsonBytes (payload a) := by
  cases l with
  | nil => simp [digestOf, canonicalJsonBytes]
  | cons b l =>
    have hne : (b :: l).map (fun item => (payload item).dumps) ≠ [] := by simp
    have hcount : (digestOf payload key (b :: l)).count ≠ 0 := by simp [digestOf]
    rw [if_neg hcount]
    simp only [digestOf, map_append, map_singleton]
    rw [String.intercalate_append_of_ne_nil hne (by simp), String.intercalate_singleton]
    simp only [utf8Bytes_append, canonicalJsonBytes, append_assoc]

/-- A value under a key above the keys before it. -/
theorem add_digestOf {l : List α} {a : α} (h : ∀ b ∈ l, key b < key a) :
    (digestOf payload key l).add (payload a) (key a) =
      .ok (canonicalJsonBytes (payload a), digestOf payload key (l ++ [a])) := by
  have hascending : (digestOf payload key l).requireAscending (key a) = .ok () := by
    apply requireValue_eq_ok.mpr
    cases hlast : l.getLast? with
    | none => simp [digestOf, hlast]
    | some b => simpa [digestOf, hlast] using h b (mem_of_getLast? hlast)
  have hnext : digestOf payload key (l ++ [a]) = {
      digest := (if (digestOf payload key l).count = 0 then (digestOf payload key l).digest
        else (digestOf payload key l).digest ++ utf8Bytes ",") ++ canonicalJsonBytes (payload a)
      count := (digestOf payload key l).count + 1
      previousKey := some (key a) } := by
    rw [← digestOf_concat]
    simp [digestOf]
  simp only [CanonicalJsonArrayDigest.add, CanonicalJsonArrayDigest.addEncoded, hascending,
    ok_bind, hnext]
  rfl

/-- The rows of a cursor, fed one after the other. -/
theorem foldlM_eq_digestOf {step : CanonicalJsonArrayDigest → α →
      Except PythonError CanonicalJsonArrayDigest} {rows : List α} (hstep : ∀ row ∈ rows, ∀ digest,
      step digest row = Prod.snd <$> digest.add (payload row) (key row))
    (h : rows.Pairwise fun a b => key a < key b) :
    rows.foldlM step {} = .ok (digestOf payload key rows) := by
  apply foldlM_eq_of_step (digestOf payload key)
  intro front a hbegins
  have ha : a ∈ rows := hbegins.mem (by simp)
  have hbelow : ∀ b ∈ front, key b < key a := fun b hb =>
    (pairwise_append.mp (h.sublist hbegins.sublist)).2.2 b hb a (by simp)
  rw [hstep a ha, add_digestOf payload key hbelow]
  rfl

end Digest

/-! ## The order of the rows -/

theorem str_le_of_instant_le {s t : Datetime} (hs : s.utcoffset.microseconds = 0)
    (ht : t.utcoffset.microseconds = 0) (h : s.instant ≤ t.instant) : s.str ≤ t.str := by
  rw [← not_lt, Datetime.str_lt_iff ht hs, not_lt]
  exact h

theorem instant_eq_of_str_eq {s t : Datetime} (hs : s.utcoffset.microseconds = 0)
    (ht : t.utcoffset.microseconds = 0) (h : s.str = t.str) : s.instant = t.instant := by
  have hle : ∀ {s t : Datetime}, s.utcoffset.microseconds = 0 → t.utcoffset.microseconds = 0 →
      s.str = t.str → t.instant ≤ s.instant := by
    intro s t hs ht h
    rw [← not_lt, ← Datetime.str_lt_iff hs ht, h]
    exact lt_irrefl _
  exact le_antisymm (hle ht hs h.symm) (hle hs ht h)

/-- The order of a cursor is the order of the keys that are made of its columns. -/
theorem le_of_cursorKey_le {κ : Type} [LinearOrder κ] {texts texts' tail tail' : List String}
    {column column' : κ} (h : (toLex (texts.map utf8Bytes, column) : CursorKey κ) ≤
      toLex (texts'.map utf8Bytes, column'))
    (hlength : texts.length = texts'.length) (htail : column ≤ column' → tail ≤ tail') :
    texts ++ tail ≤ texts' ++ tail' := by
  rcases Prod.Lex.toLex_le_toLex.mp h with hlt | ⟨heq, h⟩
  · have hlt : texts < texts' := (map_lt_iff fun _ _ => utf8Bytes_lt_iff).mp hlt
    exact ((append_lt_append_iff hlength).mpr (Or.inl hlt)).le
  · obtain rfl := eq_of_map_eq (fun _ _ => utf8Bytes_lt_iff) heq
    exact append_le_append (htail h)

/-- A column of times, and what follows it. -/
theorem cons_str_le {time time' : Datetime} {tail tail' : List String}
    (htime : time.utcoffset.microseconds = 0) (htime' : time'.utcoffset.microseconds = 0)
    (h : time.instant < time'.instant ∨ time.instant = time'.instant ∧ tail ≤ tail') :
    time.str :: tail ≤ time'.str :: tail' := by
  rcases h with hlt | ⟨heq, htail⟩
  · exact (cons_lt_cons_iff.mpr (Or.inl ((Datetime.str_lt_iff htime htime').mpr hlt))).le
  · have hstr : time.str = time'.str :=
      le_antisymm (str_le_of_instant_le htime htime' heq.le)
        (str_le_of_instant_le htime' htime heq.ge)
    rw [hstr]
    exact append_le_append (p := [time'.str]) htail

/-! ## What has been accepted -/

theorem validateUtc_eq_ok {value : Datetime} {name : String} :
    validateUtc value name = .ok u ↔ value.utcoffset.microseconds = 0 := by
  rw [validateUtc, requireValue_eq_ok, decide_eq_true_iff]

/-- A hash is longer than the text of an absent value. -/
theorem ne_none_text_of_validateHash {value : Option String} {name : String}
    (h : validateOptional validateHash value name = .ok u) : value ≠ some "None" := by
  rintro rfl
  rw [validateOptional, validateHash, requireValue_eq_ok] at h
  simp at h

/-- A validated member is handed on as it is. -/
theorem canonicalMember_eq_ok {member validated : DatasetCanonicalMember}
    (h : canonicalMember member = .ok validated) : validated = member ∧
      member.occurredAt.utcoffset.microseconds = 0 ∧ member.definitionHash ≠ some "None" := by
  simp only [canonicalMember, check_eq_ok] at h
  obtain ⟨hutc, -, -, -, hhash, -, -, h⟩ := h
  exact ⟨(pure_eq_ok.mp h).symm, validateUtc_eq_ok.mp hutc, ne_none_text_of_validateHash hhash⟩

theorem canonicalMarketStatus_eq_ok {status validated : DatasetMarketStatusSnapshot}
    (h : canonicalMarketStatus status = .ok validated) : validated = status ∧
      status.validFrom.utcoffset.microseconds = 0 ∧
      status.observedAt.utcoffset.microseconds = 0 := by
  simp only [canonicalMarketStatus, check_eq_ok] at h
  obtain ⟨hfrom, -, -, hobserved, -, h⟩ := h
  exact ⟨(pure_eq_ok.mp h).symm, validateUtc_eq_ok.mp hfrom, validateUtc_eq_ok.mp hobserved⟩

theorem canonicalCoverageSegment_eq_ok {segment validated : DatasetCoverageSegment}
    (h : canonicalCoverageSegment segment = .ok validated) : validated = segment ∧
      segment.rangeStartAt.utcoffset.microseconds = 0 ∧
      segment.definitionSetHash ≠ some "None" ∧
      segment.rangeStartAt.instant < segment.rangeEndAt.instant := by
  simp only [canonicalCoverageSegment, check_eq_ok] at h
  obtain ⟨hutc, -, -, hhash, hrange, -, -, -, h⟩ := h
  exact ⟨(pure_eq_ok.mp h).symm, validateUtc_eq_ok.mp hutc, ne_none_text_of_validateHash hhash,
    of_decide_eq_true (requireValue_eq_ok.mp hrange)⟩

/-- The text of an absent value is nothing else's. -/
theorem eq_of_strText_eq {value other : Option String} (hvalue : value ≠ some "None")
    (hother : other ≠ some "None") (h : strText value = strText other) : value = other := by
  unfold strText at h
  cases value with
  | none =>
    cases other with
    | none => rfl
    | some text => exact absurd (congrArg some h.symm) hother
  | some text =>
    cases other with
    | none => exact absurd (congrArg some h) hvalue
    | some other => exact congrArg some h

/-- An accepted projection: the identities are distinct, and a range of a series starts where the
ranges of the series before it have ended. -/
theorem validateProjection_eq_ok {α ι σ : Type} [DecidableEq ι] [DecidableEq σ] {identity : α → ι}
    {series : α → σ} {start finish : α → Instant} {duplicated overlapping : String} {l : List α}
    {seen : List ι} {previous : σ → Option Instant} (h : validateProjection identity series start
      finish duplicated overlapping l seen previous = .ok u) :
    (∀ a ∈ l, identity a ∉ seen) ∧ l.Pairwise (fun a b => identity a ≠ identity b) ∧
      ((∀ a ∈ l, start a ≤ finish a) →
        (∀ a ∈ l, ∀ ended, previous (series a) = some ended → ended ≤ start a) ∧
          l.Pairwise fun a b => series a = series b → finish a ≤ start b) := by
  induction l generalizing seen previous with
  | nil => simp
  | cons a l ih =>
    rw [validateProjection] at h
    obtain ⟨_, hseen, h⟩ := bind_eq_ok.mp h
    obtain ⟨_, hprevious, h⟩ := bind_eq_ok.mp h
    obtain ⟨hfresh, hdistinct, hranges⟩ := ih h
    have hseen : identity a ∉ seen := by simpa using requireValue_eq_ok.mp hseen
    have hprevious : ∀ ended, previous (series a) = some ended → ended ≤ start a := by
      intro ended hended
      simpa [hended] using requireValue_eq_ok.mp hprevious
    refine ⟨?_, ?_, ?_⟩
    · intro b hb
      rcases mem_cons.mp hb with rfl | hb
      · exact hseen
      · exact fun hmem => hfresh b hb (mem_cons_of_mem _ hmem)
    · refine pairwise_cons.mpr ⟨fun b hb heq => ?_, hdistinct⟩
      exact hfresh b hb (by rw [← heq]; simp)
    · intro hnonempty
      obtain ⟨hended, hseparated⟩ := hranges fun b hb => hnonempty b (mem_cons_of_mem a hb)
      have hfollows : ∀ b ∈ l, series a = series b → finish a ≤ start b := by
        intro b hb hseries
        exact hended b hb (finish a) (by rw [← hseries, Function.update_self])
      refine ⟨?_, pairwise_cons.mpr ⟨hfollows, hseparated⟩⟩
      intro b hb ended hlast
      rcases mem_cons.mp hb with rfl | hb
      · exact hprevious ended hlast
      · by_cases hseries : series a = series b
        · -- the range of `a` lies between
          calc ended ≤ start a := hprevious ended (by rw [hseries]; exact hlast)
            _ ≤ finish a := hnonempty a (by simp)
            _ ≤ start b := hfollows b hb hseries
        · exact hended b hb ended (by rw [Function.update_of_ne (Ne.symm hseries)]; exact hlast)

/-! ## The rows are the sorted lists -/

/-- The key a member is fed under. -/
def memberStreamKey (item : DatasetCanonicalMember) : List String := (memberSortKey item).dropLast

theorem nodup_map_of_key_eq {α κ κ' : Type} {key : α → κ} {key' : α → κ'} {l : List α}
    (h : ∀ a ∈ l, ∀ b ∈ l, key' a = key' b → key a = key b) (hnodup : (l.map key).Nodup) :
    (l.map key').Nodup :=
  pairwise_map.mpr ((pairwise_map.mp hnodup).imp_of_mem fun ha hb hne heq =>
    hne (h _ ha _ hb heq))

/-- Members with distinct natural keys are fed under distinct keys. -/
theorem nodup_memberStreamKey (hvalid : ∀ member ∈ members, canonicalMember member = .ok member)
    (hunit : ∀ member ∈ members, member.unit ≠ some "None")
    (hnodup : (members.map memberNaturalKey).Nodup) : (members.map memberStreamKey).Nodup := by
  apply nodup_map_of_key_eq _ hnodup
  intro a ha b hb heq
  obtain ⟨-, hutc, hhash⟩ := canonicalMember_eq_ok (hvalid a ha)
  obtain ⟨-, hutc', hhash'⟩ := canonicalMember_eq_ok (hvalid b hb)
  simp only [memberStreamKey, memberSortKey, List.dropLast, List.cons.injEq] at heq
  obtain ⟨hkind, hexchange, hcode, hunitEq, hhashEq, hversion, htime, -⟩ := heq
  rw [memberNaturalKey, memberNaturalKey, hkind, hexchange, hcode, hversion,
    eq_of_strText_eq (hunit a ha) (hunit b hb) hunitEq, eq_of_strText_eq hhash hhash' hhashEq,
    instant_eq_of_str_eq hutc hutc' htime]

theorem memberSortKey_eq (member : DatasetCanonicalMember) :
    memberSortKey member = memberStreamKey member ++ [member.contentHash] := rfl

/-- The rows of the member cursor. -/
theorem memberRows_eq {rows : List DatasetCanonicalMember}
    (hvalid : ∀ member ∈ members, canonicalMember member = .ok member)
    (hunit : ∀ member ∈ members, member.unit ≠ some "None")
    (hnodup : (members.map memberNaturalKey).Nodup) (hrows : rows.Perm members)
    (hcursor : rows.Pairwise fun a b => memberCursorKey a ≤ memberCursorKey b) :
    rows = sortedBy memberSortKey members ∧
      rows.Pairwise fun a b => memberStreamKey a < memberStreamKey b := by
  have hsorted : (sortedBy memberSortKey members).Pairwise fun a b =>
      memberStreamKey a ≤ memberStreamKey b := by
    apply (sortedBy_pairwise memberSortKey members).imp
    intro a b hle
    -- the content hash only decides between equal keys
    by_contra hlt
    have hlength : (memberStreamKey b).length = (memberStreamKey a).length := rfl
    rw [memberSortKey_eq, memberSortKey_eq] at hle
    exact not_lt.mpr hle ((append_lt_append_iff hlength).mpr (Or.inl (not_le.mp hlt)))
  have hascending : rows.Pairwise fun a b => memberStreamKey a ≤ memberStreamKey b := by
    apply hcursor.imp_of_mem
    intro a b ha hb hle
    obtain ⟨-, hutc, -⟩ := canonicalMember_eq_ok (hvalid a (hrows.mem_iff.mp ha))
    obtain ⟨-, hutc', -⟩ := canonicalMember_eq_ok (hvalid b (hrows.mem_iff.mp hb))
    apply le_of_cursorKey_le hle rfl
    intro hcolumn
    apply cons_str_le hutc hutc'
    exact (Prod.Lex.toLex_le_toLex.mp hcolumn).imp_right fun h => ⟨h.1, le_refl _⟩
  exact eq_sortedBy_of_perm hrows hascending hsorted (nodup_memberStreamKey hvalid hunit hnodup)

/-- The market statuses of an accepted projection have distinct sort keys. -/
theorem nodup_marketStatusSortKey
    (hvalid : ∀ status ∈ statuses, canonicalMarketStatus status = .ok status)
    (hprojection : validateStatusProjection (sortedBy marketStatusSortKey statuses) = .ok ()) :
    (statuses.map marketStatusSortKey).Nodup := by
  obtain ⟨-, hidentity, -⟩ := validateProjection_eq_ok hprojection
  rw [← nodup_map_sortedBy marketStatusSortKey]
  apply nodup_map_of_key_eq _ (pairwise_map.mpr hidentity)
  intro a ha b hb heq
  obtain ⟨-, hfrom, hobserved⟩ := canonicalMarketStatus_eq_ok (hvalid a (mem_sortedBy.mp ha))
  obtain ⟨-, hfrom', hobserved'⟩ := canonicalMarketStatus_eq_ok (hvalid b (mem_sortedBy.mp hb))
  simp only [marketStatusSortKey, List.cons.injEq] at heq
  obtain ⟨hexchange, hcode, hfromEq, hobservedEq, -⟩ := heq
  rw [marketStatusIdentity, marketStatusIdentity, hexchange, hcode,
    instant_eq_of_str_eq hfrom hfrom' hfromEq,
    instant_eq_of_str_eq hobserved hobserved' hobservedEq]

/-- The rows of the market status cursor. -/
theorem marketStatusRows_eq {rows : List DatasetMarketStatusSnapshot}
    (hvalid : ∀ status ∈ statuses, canonicalMarketStatus status = .ok status)
    (hprojection : validateStatusProjection (sortedBy marketStatusSortKey statuses) = .ok ())
    (hrows : rows.Perm statuses)
    (hcursor : rows.Pairwise fun a b => marketStatusCursorKey a ≤ marketStatusCursorKey b) :
    rows = sortedBy marketStatusSortKey statuses ∧
      rows.Pairwise fun a b => marketStatusSortKey a < marketStatusSortKey b := by
  have hascending : rows.Pairwise fun a b => marketStatusSortKey a ≤ marketStatusSortKey b := by
    apply hcursor.imp_of_mem
    intro a b ha hb hle
    obtain ⟨-, hfrom, hobserved⟩ := canonicalMarketStatus_eq_ok (hvalid a (hrows.mem_iff.mp ha))
    obtain ⟨-, hfrom', hobserved'⟩ := canonicalMarketStatus_eq_ok (hvalid b (hrows.mem_iff.mp hb))
    apply le_of_cursorKey_le hle rfl
    intro hcolumn
    apply cons_str_le hfrom hfrom'
    refine (Prod.Lex.toLex_le_toLex.mp hcolumn).imp_right fun h => ⟨h.1, ?_⟩
    apply cons_str_le hobserved hobserved'
    exact h.2.lt_or_eq.imp_right fun heq => ⟨heq, le_refl _⟩
  exact eq_sortedBy_of_perm hrows hascending (sortedBy_pairwise _ _)
    (nodup_marketStatusSortKey hvalid hprojection)

/-- The segments of an accepted projection have distinct sort keys: ranges of one series with
one start would overlap. -/
theorem nodup_coverageSortKey
    (hvalid : ∀ segment ∈ coverage, canonicalCoverageSegment segment = .ok segment)
    (hunit : ∀ segment ∈ coverage, segment.unit ≠ some "None")
    (hprojection : validateCoverageProjection (sortedBy coverageSortKey coverage) = .ok ()) :
    (coverage.map coverageSortKey).Nodup := by
  obtain ⟨-, -, hranges⟩ := validateProjection_eq_ok hprojection
  have hnonempty : ∀ segment ∈ sortedBy coverageSortKey coverage,
      segment.rangeStartAt.instant < segment.rangeEndAt.instant := fun segment hsegment =>
    (canonicalCoverageSegment_eq_ok (hvalid segment (mem_sortedBy.mp hsegment))).2.2.2
  rw [← nodup_map_sortedBy coverageSortKey]
  apply pairwise_map.mpr
  apply (hranges fun segment hsegment => (hnonempty segment hsegment).le).2.imp_of_mem
  intro a b ha hb hfollows heq
  obtain ⟨-, hutc, hhash, hrange⟩ := canonicalCoverageSegment_eq_ok (hvalid a (mem_sortedBy.mp ha))
  obtain ⟨-, hutc', hhash', -⟩ := canonicalCoverageSegment_eq_ok (hvalid b (mem_sortedBy.mp hb))
  simp only [coverageSortKey, List.cons.injEq] at heq
  obtain ⟨hkind, hexchange, hcode, hunitEq, hhashEq, hversion, htime, -⟩ := heq
  have hseries : coverageSeries a = coverageSeries b := by
    rw [coverageSeries, coverageSeries, hkind, hexchange, hcode, hversion,
      eq_of_strText_eq (hunit a (mem_sortedBy.mp ha)) (hunit b (mem_sortedBy.mp hb)) hunitEq,
      eq_of_strText_eq hhash hhash' hhashEq]
  have hstart := instant_eq_of_str_eq hutc hutc' htime
  exact absurd (hfollows hseries) (by rw [← hstart]; exact not_le.mpr hrange)

/-- The rows of the coverage cursor. -/
theorem coverageRows_eq {rows : List DatasetCoverageSegment}
    (hvalid : ∀ segment ∈ coverage, canonicalCoverageSegment segment = .ok segment)
    (hunit : ∀ segment ∈ coverage, segment.unit ≠ some "None")
    (hprojection : validateCoverageProjection (sortedBy coverageSortKey coverage) = .ok ())
    (hrows : rows.Perm coverage)
    (hcursor : rows.Pairwise fun a b => coverageCursorKey a ≤ coverageCursorKey b) :
    rows = sortedBy coverageSortKey coverage ∧
      rows.Pairwise fun a b => coverageSortKey a < coverageSortKey b := by
  have hascending : rows.Pairwise fun a b => coverageSortKey a ≤ coverageSortKey b := by
    apply hcursor.imp_of_mem
    intro a b ha hb hle
    obtain ⟨-, hutc, -⟩ := canonicalCoverageSegment_eq_ok (hvalid a (hrows.mem_iff.mp ha))
    obtain ⟨-, hutc', -⟩ := canonicalCoverageSegment_eq_ok (hvalid b (hrows.mem_iff.mp hb))
    apply le_of_cursorKey_le hle rfl
    intro hcolumn
    apply cons_str_le hutc hutc'
    exact hcolumn.lt_or_eq.imp_right fun heq => ⟨heq, le_refl _⟩
  exact eq_sortedBy_of_perm hrows hascending (sortedBy_pairwise _ _)
    (nodup_coverageSortKey hvalid hunit hprojection)

/-! ## Hashing row by row -/

/-- The digests that have been fed the rows of the member cursor. -/
def memberDigestsOf (seriesIds : List ℤ) (rows : List (ℤ × DatasetCanonicalMember)) :
    MemberDigests where
  manifest := digestOf memberPayload memberStreamKey (rows.map Prod.snd)
  bySeries := fun seriesId =>
    if seriesId ∈ seriesIds then
      some (digestOf memberPayload memberStreamKey
        ((rows.filter fun row => row.1 = seriesId).map Prod.snd))
    else none

theorem addCanonicalMember_digestOf {l : List DatasetCanonicalMember}
    {member : DatasetCanonicalMember} (hvalid : canonicalMember member = .ok member)
    (h : ∀ before ∈ l, memberStreamKey before < memberStreamKey member) :
    (digestOf memberPayload memberStreamKey l).addCanonicalMember member =
      .ok (canonicalJsonBytes (memberPayload member),
        digestOf memberPayload memberStreamKey (l ++ [member])) := by
  rw [CanonicalJsonArrayDigest.addCanonicalMember, hvalid, ok_bind]
  exact add_digestOf memberPayload memberStreamKey h

/-- The rows of the member cursor; those of one series ascend as all of them do. -/
theorem foldlM_streamMember {seriesIds : List ℤ} {rows : List (ℤ × DatasetCanonicalMember)}
    (hvalid : ∀ row ∈ rows, canonicalMember row.2 = .ok row.2)
    (hids : ∀ row ∈ rows, row.1 ∈ seriesIds)
    (h : rows.Pairwise fun a b => memberStreamKey a.2 < memberStreamKey b.2) :
    rows.foldlM streamMember (memberDigestsOf seriesIds []) =
      .ok (memberDigestsOf seriesIds rows) := by
  apply foldlM_eq_of_step (memberDigestsOf seriesIds)
  intro front row hbegins
  have hrow : row ∈ rows := hbegins.mem (by simp)
  have hbelow : ∀ before ∈ front, memberStreamKey before.2 < memberStreamKey row.2 :=
    fun before hbefore =>
      (pairwise_append.mp (h.sublist hbegins.sublist)).2.2 before hbefore row (by simp)
  have hmanifest : (memberDigestsOf seriesIds front).manifest.addCanonicalMember row.2 =
      .ok (canonicalJsonBytes (memberPayload row.2),
        (memberDigestsOf seriesIds (front ++ [row])).manifest) := by
    rw [memberDigestsOf, memberDigestsOf, map_append, map_singleton]
    apply addCanonicalMember_digestOf (hvalid row hrow)
    intro member hmember
    obtain ⟨before, hbefore, rfl⟩ := mem_map.mp hmember
    exact hbelow before hbefore
  have hfound : (memberDigestsOf seriesIds front).bySeries row.1 =
      some (digestOf memberPayload memberStreamKey
        ((front.filter fun before => before.1 = row.1).map Prod.snd)) := by
    rw [memberDigestsOf]
    exact if_pos (hids row hrow)
  have hseries := addCanonicalMember_digestOf
    (l := (front.filter fun before => before.1 = row.1).map Prod.snd) (hvalid row hrow) (by
      intro member hmember
      obtain ⟨before, hbefore, rfl⟩ := mem_map.mp hmember
      exact hbelow before (mem_of_mem_filter hbefore))
  have hupdate : Function.update (memberDigestsOf seriesIds front).bySeries row.1
      (some (digestOf memberPayload memberStreamKey
        ((front.filter fun before => before.1 = row.1).map Prod.snd ++ [row.2]))) =
      (memberDigestsOf seriesIds (front ++ [row])).bySeries := by
    funext seriesId
    by_cases hid : seriesId = row.1
    · subst hid
      rw [Function.update_self, memberDigestsOf]
      simp [hids row hrow, filter_append]
    · rw [Function.update_of_ne hid, memberDigestsOf, memberDigestsOf]
      simp [filter_append, Ne.symm hid]
  simp only [streamMember, hfound, hmanifest, ok_bind, hseries, hupdate]
  rfl

/-- What an accepted dataset has passed, and its hashes. -/
theorem canonicalDatasetHashes_eq_ok {sha256 : List ℕ → String}
    {specification : DatasetCanonicalSpecification} {hashes : DatasetHashes} :
    canonicalDatasetHashes sha256 specification members statuses coverage = .ok hashes ↔
      validateSpecification specification = .ok () ∧
      (∀ member ∈ members, canonicalMember member = .ok member) ∧
      (members.map memberNaturalKey).Nodup ∧
      (∀ status ∈ statuses, canonicalMarketStatus status = .ok status) ∧
      validateStatusProjection (sortedBy marketStatusSortKey statuses) = .ok () ∧
      (∀ segment ∈ coverage, canonicalCoverageSegment segment = .ok segment) ∧
      validateCoverageProjection (sortedBy coverageSortKey coverage) = .ok () ∧
      hashes = datasetHashes sha256
        (canonicalPayloadHash sha256 (canonicalSpecification specification))
        (canonicalPayloadHash sha256 (.list ((sortedBy memberSortKey members).map memberPayload)))
        (canonicalPayloadHash sha256
          (.list ((sortedBy marketStatusSortKey statuses).map marketStatusPayload)))
        (canonicalPayloadHash sha256
          (.list ((sortedBy coverageSortKey coverage).map coveragePayload))) := by
  have hperm := (sortedBy_perm memberSortKey members).map memberNaturalKey
  constructor
  · intro h
    obtain ⟨_, hspecification, h⟩ := bind_eq_ok.mp h
    obtain ⟨validated, hmembers, h⟩ := bind_eq_ok.mp h
    obtain ⟨_, hnodup, h⟩ := bind_eq_ok.mp h
    obtain ⟨validStatuses, hstatuses, h⟩ := bind_eq_ok.mp h
    obtain ⟨_, hstatusProjection, h⟩ := bind_eq_ok.mp h
    obtain ⟨segments, hcoverage, h⟩ := bind_eq_ok.mp h
    obtain ⟨_, hcoverageProjection, h⟩ := bind_eq_ok.mp h
    have hhashes := (pure_eq_ok.mp h).symm
    obtain ⟨rfl, hmembers⟩ := mapM_eq_self hmembers fun _ _ hb => (canonicalMember_eq_ok hb).1
    obtain ⟨rfl, hstatuses⟩ := mapM_eq_self hstatuses fun _ _ hb =>
      (canonicalMarketStatus_eq_ok hb).1
    obtain ⟨rfl, hcoverage⟩ := mapM_eq_self hcoverage fun _ _ hb =>
      (canonicalCoverageSegment_eq_ok hb).1
    have hnodup := of_decide_eq_true (requireValue_eq_ok.mp hnodup)
    exact ⟨hspecification, hmembers, hperm.nodup_iff.mp hnodup, hstatuses, hstatusProjection,
      hcoverage, hcoverageProjection, hhashes⟩
  · rintro ⟨hspecification, hmembers, hnodup, hstatuses, hstatusProjection, hcoverage,
      hcoverageProjection, rfl⟩
    have hnodup : ∀ message, requireValue
        (decide ((sortedBy memberSortKey members).map memberNaturalKey).Nodup) message = .ok () :=
      fun _ => requireValue_eq_ok.mpr (decide_eq_true (hperm.nodup_iff.mpr hnodup))
    unfold canonicalDatasetHashes
    simp only [hspecification, ok_bind, mapM_eq_ok_self hmembers, hnodup,
      mapM_eq_ok_self hstatuses, hstatusProjection, mapM_eq_ok_self hcoverage,
      hcoverageProjection]
    rfl

/-- The hashes of the specification alone. -/
theorem canonicalDatasetHashes_empty {sha256 : List ℕ → String}
    {specification : DatasetCanonicalSpecification}
    (h : validateSpecification specification = .ok ()) :
    ∃ selected, canonicalDatasetHashes sha256 specification [] [] [] = .ok selected ∧
      selected.selectionHash =
        canonicalPayloadHash sha256 (canonicalSpecification specification) := by
  refine ⟨_, canonicalDatasetHashes_eq_ok.mpr ⟨h, ?_, ?_, ?_, rfl, ?_, rfl, rfl⟩, rfl⟩ <;> simp

/-- Rows in the order of the cursors hash as the dataset they are the rows of.
SOURCE: dataset_versions.py:133-238, 324-334; dataset_version_store.py:1618-1719 -/
theorem streamPublicationHashes_eq (sha256 : List ℕ → String)
    (specification : DatasetCanonicalSpecification) (members : List DatasetCanonicalMember)
    (statuses : List DatasetMarketStatusSnapshot) (coverage : List DatasetCoverageSegment)
    (hashes : DatasetHashes) (seriesIds : List ℤ) (memberRows : List (ℤ × DatasetCanonicalMember))
    (statusRows : List DatasetMarketStatusSnapshot) (coverageRows : List DatasetCoverageSegment)
    (haccepted : canonicalDatasetHashes sha256 specification members statuses coverage = .ok hashes)
    (hmemberUnit : ∀ member ∈ members, member.unit ≠ some "None")
    (hcoverageUnit : ∀ segment ∈ coverage, segment.unit ≠ some "None")
    (hmemberRows : (memberRows.map Prod.snd).Perm members)
    (hmemberOrder : memberRows.Pairwise fun a b => memberCursorKey a.2 ≤ memberCursorKey b.2)
    (hseriesIds : ∀ row ∈ memberRows, row.1 ∈ seriesIds) (hstatusRows : statusRows.Perm statuses)
    (hstatusOrder :
      statusRows.Pairwise fun a b => marketStatusCursorKey a ≤ marketStatusCursorKey b)
    (hcoverageRows : coverageRows.Perm coverage)
    (hcoverageOrder : coverageRows.Pairwise fun a b => coverageCursorKey a ≤ coverageCursorKey b) :
    ∃ seriesDigests, streamPublicationHashes sha256 specification seriesIds memberRows statusRows
      coverageRows = .ok (hashes, seriesDigests) := by
  obtain ⟨hspecification, hmembers, hnodup, hstatuses, hstatusProjection, hcoverage,
    hcoverageProjection, rfl⟩ := canonicalDatasetHashes_eq_ok.mp haccepted
  obtain ⟨selected, hselected, hselection⟩ := canonicalDatasetHashes_empty hspecification
  obtain ⟨hmemberEq, hmemberKeys⟩ := memberRows_eq hmembers hmemberUnit hnodup hmemberRows
    (pairwise_map.mpr hmemberOrder)
  obtain ⟨hstatusEq, hstatusKeys⟩ := marketStatusRows_eq hstatuses hstatusProjection hstatusRows
    hstatusOrder
  obtain ⟨hcoverageEq, hcoverageKeys⟩ := coverageRows_eq hcoverage hcoverageUnit
    hcoverageProjection hcoverageRows hcoverageOrder
  rw [pairwise_map] at hmemberKeys
  have hmemberRun : memberRows.foldlM streamMember (memberDigestsOf seriesIds []) =
      .ok (memberDigestsOf seriesIds memberRows) := by
    apply foldlM_streamMember _ hseriesIds hmemberKeys
    intro row hrow
    exact hmembers _ (hmemberRows.mem_iff.mp (mem_map_of_mem hrow))
  have hstatusRun : statusRows.foldlM streamMarketStatus {} =
      .ok (digestOf marketStatusPayload marketStatusSortKey statusRows) := by
    apply foldlM_eq_digestOf _ _ _ hstatusKeys
    intro row hrow digest
    rw [streamMarketStatus, hstatuses row (hstatusRows.mem_iff.mp hrow), ok_bind]
  have hcoverageRun : coverageRows.foldlM streamCoverage {} =
      .ok (digestOf coveragePayload coverageSortKey coverageRows) := by
    apply foldlM_eq_digestOf _ _ _ hcoverageKeys
    intro row hrow digest
    rw [streamCoverage, hcoverage row (hcoverageRows.mem_iff.mp hrow), ok_bind]
  have hmanifest : (memberDigestsOf seriesIds memberRows).manifest.hexdigest sha256 =
      canonicalPayloadHash sha256
        (.list ((sortedBy memberSortKey members).map memberPayload)) := by
    rw [memberDigestsOf, hexdigest_digestOf, hmemberEq]
  refine ⟨fun seriesId => ((memberDigestsOf seriesIds memberRows).bySeries seriesId).map
    fun digest => (digest.count, digest.hexdigest sha256), ?_⟩
  rw [streamPublicationHashes, hselected, ok_bind]
  have hempty : (⟨{}, fun seriesId => if seriesId ∈ seriesIds then some {} else none⟩ :
      MemberDigests) = memberDigestsOf seriesIds [] := rfl
  rw [hempty, hmemberRun, ok_bind, hstatusRun, ok_bind, hcoverageRun, ok_bind, hselection,
    hmanifest, hexdigest_digestOf, hexdigest_digestOf, hstatusEq, hcoverageEq]
  rfl

/-- A time of January 2026. -/
def january (day : Fin 31) (time : Fin dayMicroseconds) : Datetime :=
  UtcTime.datetime ⟨(739616 + day) * dayMicroseconds + time, by
    have hday := day.isLt
    have htime := time.isLt
    unfold maxOrdinal dayMicroseconds at *
    omega⟩

/-- A hash. -/
def someHash : String := "0123456789abcdef0123456789abcdef0123456789abcdef0123456789abcdef"

/-- A dataset of one series. -/
def dayOfCandles : DatasetCanonicalSpecification where
  schemaVersion := "dataset-v1"
  asOf := january 2 0
  inputStartAt := january 0 0
  outputStartAt := january 0 0
  endAt := january 1 0
  series := [⟨1, "upbit", "KRW-BTC", "candle", some "1m", none, some "v1"⟩]
  fillPolicy := "none"
  missingPolicy := "fail"
  orderingPolicy := "natural-key"

/-- A member of the dataset. -/
def memberAt (time : Fin dayMicroseconds) : DatasetCanonicalMember :=
  ⟨"candle", "upbit", "KRW-BTC", some "1m", january 0 time, january 2 0, january 2 0, someHash,
    "available", "v1", none, 1⟩

/-- The market status of the dataset. -/
def activeStatus : DatasetMarketStatusSnapshot :=
  ⟨"upbit", "KRW-BTC", "active", "NONE", someHash, someHash, january 0 0, none, january 0 0,
    1⟩

/-- The coverage of the dataset. -/
def fullCoverage : DatasetCoverageSegment :=
  ⟨"candle", "upbit", "KRW-BTC", some "1m", none, "v1", january 0 0, january 1 0, january 2 0,
    "available", 2, 2, someHash, none⟩

/-- SHA-256 of the texts that are hashed of the dataset; they differ in their lengths, or in the
first digit of the coverage hash. -/
def sampleSha256 (bytes : List ℕ) : String :=
  match bytes.length, bytes[17]? with
  | 2, _ => "4f53cda18c2baa0c0354bb5f9a3ecbe5ed12ab4d8e11ba873c2f11161202b945"
  | 380, _ => "f5e9e8e4da1c09f19b04afc87f9a1ff4924622147e2edacf3727421a8133520c"
  | 680, _ => "5a31064678eca8b6c455814c6d515b31587a9d4182fb38cd703c6ac4168ce97f"
  | 349, _ => "e4be1aa6e8c4d16b223a8c3504bde6ca6ae6a435b7c3e728991e6ff920f058d4"
  | 378, _ => "87e83d5d9dad9bc9b2e4627f9f3f0f51b41ea04abca004f0c6ff35a752908e26"
  | 334, some 56 => "d0bd8049a058486e2d23acd8ea2ba85ec1f9b9089bba32caa61c0190fd547062"
  | 334, some 52 => "65401ba674e41bd04187bf0f29e6350ccd559b1d6a4cec880c42ec508189f641"
  | _, _ => ""

/-- Two candles, given in the wrong order, the later one half a second after the other. -/
theorem streamPublicationHashes_eq_one_day : ∃ hashes seriesDigests,
      canonicalDatasetHashes sampleSha256 dayOfCandles
        [memberAt 43200500000, memberAt 43200000000] [activeStatus] [fullCoverage] = .ok hashes ∧
      streamPublicationHashes sampleSha256 dayOfCandles [1]
        [(1, memberAt 43200000000), (1, memberAt 43200500000)] [activeStatus] [fullCoverage] =
          .ok (hashes, seriesDigests) := by
  have haccepted : (canonicalDatasetHashes sampleSha256 dayOfCandles
      [memberAt 43200500000, memberAt 43200000000] [activeStatus] [fullCoverage]).isOk = true := by
    decide +kernel
  obtain ⟨hashes, haccepted⟩ := exists_ok_of_isOk haccepted
  have hmemberUnit : ∀ member ∈ [memberAt 43200500000, memberAt 43200000000],
      member.unit ≠ some "None" := by
    simp [memberAt]
  have hcoverageUnit : ∀ segment ∈ [fullCoverage], segment.unit ≠ some "None" := by
    simp [fullCoverage]
  have hmemberOrder : [((1 : ℤ), memberAt 43200000000), (1, memberAt 43200500000)].Pairwise
      fun a b => memberCursorKey a.2 ≤ memberCursorKey b.2 := by
    decide +kernel
  obtain ⟨seriesDigests, hstream⟩ := streamPublicationHashes_eq sampleSha256 dayOfCandles
    [memberAt 43200500000, memberAt 43200000000] [activeStatus] [fullCoverage] hashes [1]
    [(1, memberAt 43200000000), (1, memberAt 43200500000)] [activeStatus] [fullCoverage] haccepted
    hmemberUnit hcoverageUnit (List.Perm.swap _ _ _) hmemberOrder (by simp) (List.Perm.refl _)
    (pairwise_singleton _ _) (List.Perm.refl _) (pairwise_singleton _ _)
  exact ⟨hashes, seriesDigests, haccepted, hstream⟩

end Goodmoneying.Analysis
