import Mathlib.Data.Int.Interval
import Mathlib.Order.Interval.Finset.Basic
import Goodmoneying.Program.Listings

/-!
# Listings miss nothing and repeat nothing

A cursor that a listing hands out reads back as what it was made of (`decodeRunListCursor_encode`,
`decodeResultCursor_encode`, `decodeDatasetCursor_encode`). So every page takes the keys after the
last key of the page before it, and the traversals of all five listings end with every key that was
there when the first page read its ceiling (`listings_readAll`).
-/

namespace Goodmoneying.Analysis

open List Library
open Program

variable {ceiling lastId runId pageSize : ℤ}
variable {envelope : JsonValue} {lastSequence id : ℤ} {n : ℕ}

theorem mem_b64digits {bytes : List ℕ} {c : Char} (hc : c ∈ b64digits bytes) :
    ∃ n, c = sextetChar n := by
  fun_induction b64digits bytes with
  | case1 => cases hc
  | case2 a =>
    simp only [mem_cons, not_mem_nil, or_false] at hc
    rcases hc with rfl | rfl <;> exact ⟨_, rfl⟩
  | case3 a b =>
    simp only [mem_cons, not_mem_nil, or_false] at hc
    rcases hc with rfl | rfl | rfl <;> exact ⟨_, rfl⟩
  | case4 a b c' bytes ih =>
    simp only [mem_cons] at hc
    rcases hc with rfl | rfl | rfl | rfl | hc
    · exact ⟨_, rfl⟩
    · exact ⟨_, rfl⟩
    · exact ⟨_, rfl⟩
    · exact ⟨_, rfl⟩
    · exact ih hc

/-- The characters of a cursor are ASCII, and none is a blank. -/
theorem sextetChar_plain (n : ℕ) : (sextetChar n).toNat < 128 ∧ isSpace (sextetChar n) = false := by
  have h : ∀ m : Fin 64, (sextetChar m).toNat < 128 ∧ isSpace (sextetChar m) = false := by decide
  by_cases hn : n < 64
  · exact h ⟨n, hn⟩
  · rw [sextetChar, if_neg (by omega), if_neg (by omega), if_neg (by omega), if_neg (by omega)]
    decide

theorem toList_cursorText (envelope : JsonValue) :
    (cursorText envelope).toList = b64digits (utf8Bytes envelope.dumps) := by
  rw [cursorText, String.toList_ofList, unpadded_b64encode]

/-- The text of a cursor reads back. -/
theorem readCursorText_cursorText (h : envelope.Canonical) :
    readCursorText (cursorText envelope) = some envelope := by
  rw [readCursorText, toList_cursorText, ← unpadded_b64encode, padded_unpadded,
    b64decode_b64encode (lt_of_mem_utf8Bytes _)]
  change (utf8Text _).bind _ = _
  rw [utf8Text_utf8Bytes]
  exact loads_dumps h

theorem cursorText_ascii (envelope : JsonValue) :
    ((cursorText envelope).toList.any fun c => 128 ≤ c.toNat) = false := by
  rw [toList_cursorText, any_eq_false]
  intro c hc
  obtain ⟨n, rfl⟩ := mem_b64digits hc
  have := (sextetChar_plain n).1
  simpa using this

/-- Texts without blanks are not stripped. -/
theorem strip_eq_self {value : String} (h : ∀ c ∈ value.toList, isSpace c = false) :
    strip value = value := by
  have hdrop : ∀ l : List Char, (∀ c ∈ l, isSpace c = false) → l.dropWhile isSpace = l := by
    intro l hl
    cases l with
    | nil => rfl
    | cons c l =>
      apply dropWhile_cons_of_neg
      rw [hl c mem_cons_self]
      exact Bool.false_ne_true
  rw [strip, hdrop _ h, hdrop _ fun c hc => h c (mem_reverse.mp hc), reverse_reverse,
    String.ofList_toList]

/-- The text of a cursor is not blank. -/
theorem strip_cursorText (envelope : JsonValue) : strip (cursorText envelope) ≠ "" := by
  rw [strip_eq_self]
  · intro hempty
    have htext := toList_cursorText envelope
    obtain ⟨c, rest, hchars, -⟩ := envelope.begins
    rw [hempty, utf8Bytes, show envelope.dumps.toList = c :: rest from hchars,
      flatMap_cons] at htext
    cases hcode : utf8Code c with
    | nil => exact utf8Code_ne_nil c hcode
    | cons a bytes =>
      rw [hcode, cons_append] at htext
      have hne : ∀ tail, b64digits (a :: tail) ≠ [] := by
        intro tail
        unfold b64digits
        split <;> simp_all
      exact hne _ htext.symm
  · intro c hc
    rw [toList_cursorText] at hc
    obtain ⟨n, rfl⟩ := mem_b64digits hc
    exact (sextetChar_plain n).2

theorem cursorText_congr {other : JsonValue} (h : envelope.dumps = other.dumps) :
    cursorText envelope = cursorText other := by
  rw [cursorText, cursorText, h]

section Backtest

variable (hmacSha256 : List ℕ → List (Fin 256))

theorem hexdigest_ascii (digest : List (Fin 256)) :
    ((hexdigest digest).toList.any fun c => 128 ≤ c.toNat) = false := by
  have hdigit : ∀ m : Fin 16, (Nat.digitChar m).toNat < 128 := by decide
  rw [hexdigest, String.toList_ofList, any_eq_false]
  intro c hc
  obtain ⟨byte, -, hc⟩ := mem_flatMap.mp hc
  simp only [mem_cons, not_mem_nil, or_false] at hc
  have hbyte := byte.isLt
  rcases hc with rfl | rfl
  · have := hdigit ⟨byte / 16, by omega⟩
    simpa using this
  · have := hdigit ⟨byte % 16, by omega⟩
    simpa using this

/-- A signed payload is accepted. -/
theorem signedPayload_cursorText (subject kind : String) {payload : List (String × JsonValue)}
    (h : (JsonValue.mapping payload).Canonical) : signedPayload hmacSha256 subject kind
      (cursorText (signedEnvelope hmacSha256 kind (.mapping payload))) = .ok payload := by
  have hsorted : (signedEnvelope hmacSha256 kind (.mapping payload)).dumps =
      (JsonValue.mapping [
        ("digest", .text (cursorDigest hmacSha256 (.mapping payload))), ("kind", .text kind),
        ("payload", .mapping payload)]).dumps := by
    apply dumps_mapping_of_perm
    · exact (perm_append_comm : ([_, _] ++ [_]).Perm ([_] ++ [_, _]))
    · exact (by decide : ["kind", "payload", "digest"].Nodup)
  have hcanonical : (JsonValue.mapping [
      ("digest", .text (cursorDigest hmacSha256 (.mapping payload))), ("kind", .text kind),
      ("payload", .mapping payload)]).Canonical := by
    apply JsonValue.Canonical.mapping
    · exact (by decide : ["digest", "kind", "payload"].Pairwise (· < ·))
    · intro entry hentry
      simp only [mem_cons, not_mem_nil, or_false] at hentry
      rcases hentry with rfl | rfl | rfl
      · exact .text _
      · exact .text _
      · exact h
  have hread := readCursorText_cursorText hcanonical
  rw [← cursorText_congr hsorted] at hread
  have hascii := hexdigest_ascii (hmacSha256 (utf8Bytes (JsonValue.mapping payload).dumps))
  rw [signedPayload, if_neg (strip_cursorText _), hread]
  simp [getKey, cursorDigest, hascii]

/-- A mapping of integers, its keys in order. -/
theorem canonical_ints (entries : List (String × ℤ))
    (hkeys : (entries.map Prod.fst).Pairwise (· < ·)) :
    (JsonValue.mapping (entries.map fun entry => (entry.1, .int entry.2))).Canonical := by
  apply JsonValue.Canonical.mapping
  · rw [map_map]
    exact hkeys
  · intro entry hentry
    obtain ⟨item, -, rfl⟩ := mem_map.mp hentry
    exact .int _

/-- The payload of a list cursor. -/
theorem canonical_ceiling (ceiling lastId : ℤ) :
    (JsonValue.mapping [("ceiling", .int ceiling), ("lastId", .int lastId)]).Canonical :=
  canonical_ints [("ceiling", ceiling), ("lastId", lastId)]
    (by decide : ["ceiling", "lastId"].Pairwise (· < ·))

/-- A cursor of the runs is accepted. -/
theorem decodeRunListCursor_encode (hlast : 1 ≤ lastId) (hceiling : lastId ≤ ceiling + 1) :
    decodeRunListCursor hmacSha256 (encodeRunListCursor hmacSha256 ceiling lastId) =
      .ok (ceiling, lastId) := by
  have hpayload := canonical_ceiling ceiling lastId
  have hrange : ¬ (ceiling < 0 ∨ lastId < 1 ∨ lastId > ceiling + 1) := by omega
  rw [decodeRunListCursor, encodeRunListCursor,
    signedPayload_cursorText hmacSha256 listCursorSubject listCursorKind hpayload]
  simp [intEntry, getKey, hrange]

/-- A cursor of the trades or the equity points of a run is accepted. -/
theorem decodeResultCursor_encode (kind : String) (hrun : 1 ≤ runId) (hlast : 0 ≤ lastSequence)
    (hceiling : lastSequence ≤ ceiling) : decodeResultCursor hmacSha256 kind
      (encodeResultCursor hmacSha256 kind runId ceiling lastSequence) =
        .ok (runId, ceiling, lastSequence) := by
  have hpayload : (JsonValue.mapping [("backtestRunId", .int runId), ("ceiling", .int ceiling),
      ("lastSequence", .int lastSequence)]).Canonical :=
    canonical_ints [("backtestRunId", runId), ("ceiling", ceiling),
      ("lastSequence", lastSequence)]
      (by decide : ["backtestRunId", "ceiling", "lastSequence"].Pairwise (· < ·))
  have hrange : ¬ (runId < 1 ∨ ceiling < 0 ∨ lastSequence < 0 ∨ lastSequence > ceiling) := by
    omega
  rw [decodeResultCursor, encodeResultCursor,
    signedPayload_cursorText hmacSha256 resultCursorSubject kind hpayload]
  simp [intEntry, getKey, hrange]

end Backtest

/-- A cursor of the datasets is accepted. -/
theorem decodeDatasetCursor_encode (sha256 : List ℕ → String) (hlast : 1 ≤ lastId)
    (hceiling : lastId ≤ ceiling) :
    decodeDatasetCursor sha256 (encodeDatasetCursor sha256 ceiling lastId) =
      .ok (ceiling, lastId) := by
  have hpayload := canonical_ceiling ceiling lastId
  have hrange : ¬ (ceiling < 0 ∨ lastId < 1 ∨ lastId > ceiling) := by omega
  generalize hhash : canonicalPayloadHash sha256
    (.mapping [("ceiling", .int ceiling), ("lastId", .int lastId)]) = hash
  have hsorted : (JsonValue.mapping [
      ("payload", .mapping [("ceiling", .int ceiling), ("lastId", .int lastId)]),
      ("hash", .text hash)]).dumps = (JsonValue.mapping [("hash", .text hash),
      ("payload", .mapping [("ceiling", .int ceiling), ("lastId", .int lastId)])]).dumps := by
    apply dumps_mapping_of_perm
    · exact List.Perm.swap _ _ _
    · exact (by decide : ["payload", "hash"].Nodup)
  have hcanonical : (JsonValue.mapping [("hash", .text hash),
      ("payload", .mapping [("ceiling", .int ceiling), ("lastId", .int lastId)])]).Canonical := by
    apply JsonValue.Canonical.mapping
    · exact (by decide : ["hash", "payload"].Pairwise (· < ·))
    · intro entry hentry
      simp only [mem_cons, not_mem_nil, or_false] at hentry
      rcases hentry with rfl | rfl
      · exact .text _
      · exact hpayload
  have hread := readCursorText_cursorText hcanonical
  rw [← cursorText_congr hsorted] at hread
  rw [decodeDatasetCursor, encodeDatasetCursor, hhash]
  simp only [cursorText_ascii, hread]
  simp [getKey, hhash, hrange]

/-- Following the cursors of a listing ends. Its items are in strict order, none is above the
ceiling of the first page, and every key visible there is the key of one item. -/
def ReadsAll {ι : Type} (fetch : ℕ → Option String → Except ListingError (Page ι String))
    (key : ι → ℤ) (before : ℤ → ℤ → Prop) (visible : List ℤ) : Prop :=
  ∃ items, (∃ pages, ∀ fuel ≥ pages, traverse fetch fuel 0 none = .ok (some items)) ∧
    (items.map key).Pairwise before ∧ (∀ k ∈ items.map key, k ≤ coalesceMax visible) ∧
    ∀ k ∈ visible, (items.map key).count k = 1

theorem le_coalesceMax {keys : List ℤ} {k : ℤ} (hk : k ∈ keys) : k ≤ coalesceMax keys := by
  obtain ⟨m, hm⟩ := Option.isSome_iff_exists.mp (isSome_max?_of_mem hk)
  rw [coalesceMax, hm, Option.getD_some]
  exact (List.max?_eq_some_iff.mp hm).2 k hk

section Order

variable {κ ι : Type} [LinearOrder κ] {toKey : ℤ → κ} {ofKey : κ → ℤ}
  {fetch : ℕ → Option String → Except ListingError (Page ι String)} {key : ι → ℤ}
  {pageSize : ℕ → ℕ} {keys : ℕ → List ℤ} {visible : List ℤ} {start : κ}

/-- A listing in an order of the integers whose pages are keyset pages below the ceiling. -/
theorem readsAll_of_pages (encode : ℤ → String) (hof : ∀ k, ofKey (toKey k) = k)
    (hsize : ∀ n, 0 < pageSize n) (hkeys : ∀ n, (keys n).Nodup) (hpos : ∀ n, ∀ k ∈ keys n, 0 < k)
    (hgrows : ∀ n, ∀ k ∈ keys n, k ∈ keys (n + 1)) (hvisible : ∀ k ∈ visible, k ∈ keys 0)
    (hstart : ∀ k, 1 ≤ k → k ≤ coalesceMax visible → start < toKey k)
    (hfirst : ∃ page, fetch 0 none = .ok page ∧
      TakesPage (fun k => ofKey k ≤ coalesceMax visible) (fun item => toKey (key item))
        (fun k => encode (ofKey k)) (pageSize 0) start ((keys 0).map toKey) page)
    (hnext : ∀ n lastKey, 1 ≤ lastKey → lastKey ≤ coalesceMax visible →
      ∃ page, fetch n (some (encode lastKey)) = .ok page ∧
        TakesPage (fun k => ofKey k ≤ coalesceMax visible) (fun item => toKey (key item))
          (fun k => encode (ofKey k)) (pageSize n) (toKey lastKey) ((keys n).map toKey) page) :
    ReadsAll fetch key (fun a b => toKey a < toKey b) visible := by
  have hinj : Function.Injective toKey := Function.LeftInverse.injective hof
  have hrange : ∀ n, ∀ k ∈ (keys n).map toKey, ofKey k ≤ coalesceMax visible →
      k ∈ (Finset.Icc 1 (coalesceMax visible)).image toKey := by
    intro n k hk hle
    obtain ⟨a, ha, rfl⟩ := mem_map.mp hk
    rw [hof] at hle
    exact Finset.mem_image_of_mem toKey (Finset.mem_Icc.mpr ⟨hpos n a ha, hle⟩)
  have hnodup : ∀ n, ((keys n).map toKey).Nodup := fun n => (hkeys n).map hinj
  have hgrowing : ∀ n, ∀ k ∈ (keys n).map toKey, k ∈ (keys (n + 1)).map toKey := by
    intro n k hk
    obtain ⟨a, ha, rfl⟩ := mem_map.mp hk
    exact mem_map_of_mem (hgrows n a ha)
  have hfetch : ∀ n, ∀ last ∈ (Finset.Icc 1 (coalesceMax visible)).image toKey,
      ∃ page, fetch n (some (encode (ofKey last))) = .ok page ∧
        TakesPage (fun k => ofKey k ≤ coalesceMax visible) (fun item => toKey (key item))
          (fun k => encode (ofKey k)) (pageSize n) last ((keys n).map toKey) page := by
    intro n last hlast
    obtain ⟨a, ha, rfl⟩ := Finset.mem_image.mp hlast
    rw [Finset.mem_Icc] at ha
    simpa only [hof] using hnext n a ha.1 ha.2
  obtain ⟨items, hends, hitems⟩ :=
    traverse_keyset _ hsize hnodup hgrowing hrange hfetch 0 start hfirst
  have hmap : items.map (fun item => toKey (key item)) = (items.map key).map toKey := by
    rw [map_map]
    rfl
  obtain ⟨hascending, hwithin, hcomplete⟩ := hitems
  rw [hmap] at hascending hwithin hcomplete
  rw [pairwise_map] at hascending
  refine ⟨items, hends, hascending, ?_, ?_⟩
  · intro k hk
    have := (hwithin (toKey k) (mem_map_of_mem hk)).1
    rwa [hof] at this
  · intro k hk
    have hmem := hcomplete (toKey k) (mem_map_of_mem (hvisible k hk))
      (by rw [hof]; exact le_coalesceMax hk)
      (hstart k (hpos 0 k (hvisible k hk)) (le_coalesceMax hk))
    obtain ⟨a, ha, heq⟩ := mem_map.mp hmem
    have hnodup : (items.map key).Nodup := hascending.imp fun hlt heq => by
      rw [heq] at hlt
      exact lt_irrefl _ hlt
    rw [hinj heq] at ha
    exact count_eq_one_of_mem hnodup ha

end Order

/-- `seen n k` is what query `k` of page `n` sees: no key disappears from one query to the next,
nor from one page to the next. -/
structure Growing {T κ : Type} (keys : T → List κ) (seen : ℕ → ℕ → T) : Prop where
  query : ∀ n k, ∀ key ∈ keys (seen n k), key ∈ keys (seen n (k + 1))
  page : ∀ n k, ∀ key ∈ keys (seen n k), key ∈ keys (seen (n + 1) 0)

section Growth

variable {T κ : Type} {keys : T → List κ} {seen : ℕ → ℕ → T}

theorem Growing.of_le (h : Growing keys seen) {k k' : ℕ} (hle : k ≤ k') :
    ∀ key ∈ keys (seen n k), key ∈ keys (seen n k') := by
  induction hle with
  | refl => exact fun _ hkey => hkey
  | step _ ih => exact fun key hkey => h.query n _ key (ih key hkey)

/-- A key that a query of a page sees is seen by the same query of the next page. -/
theorem Growing.next_page (h : Growing keys seen) (n k : ℕ) :
    ∀ key ∈ keys (seen n k), key ∈ keys (seen (n + 1) k) :=
  fun key hkey => h.of_le (Nat.zero_le k) key (h.page n k key hkey)

end Growth

/-- The ids of the runs. -/
def runIds (runs : RunTable) : List ℤ := runs.rows.map BacktestRun.id

section Runs

variable (hmacSha256 : List ℕ → List (Fin 256))

theorem runPage_takesPage (runs : RunTable) (size : ℕ) (ceiling lastId : ℤ) :
    TakesPage (fun k : ℤᵒᵈ => OrderDual.ofDual k ≤ ceiling)
      (fun item : RunSummaryResponse => OrderDual.toDual item.backtestRunId)
      (fun k => encodeRunListCursor hmacSha256 ceiling (OrderDual.ofDual k)) size
      (OrderDual.toDual lastId) ((runs.rows.map BacktestRun.id).map OrderDual.toDual)
      (runPage hmacSha256 runs size ceiling lastId) := by
  rw [map_map]
  refine takesPage_of_rows (fun run : BacktestRun => OrderDual.toDual run.id)
    (fun run => rfl) rfl ?_ rfl
  rw [runPage, map_map]
  rfl

/-- The first page of the runs. -/
theorem listRuns_first (seen : ℕ → RunTable) (hsize : 1 ≤ pageSize) :
    listRuns hmacSha256 seen pageSize none = .ok (runPage hmacSha256 (seen 1) pageSize.toNat
        (coalesceMax ((seen 0).rows.map BacktestRun.id))
        (coalesceMax ((seen 0).rows.map BacktestRun.id) + 1)) := by
  rw [listRuns, if_neg (by omega)]
  rfl

/-- A page of the runs after a cursor. -/
theorem listRuns_next (seen : ℕ → RunTable) (hsize : 1 ≤ pageSize) (hlast : 1 ≤ lastId)
    (hceiling : lastId ≤ ceiling) :
    listRuns hmacSha256 seen pageSize (some (encodeRunListCursor hmacSha256 ceiling lastId)) =
      .ok (runPage hmacSha256 (seen 1) pageSize.toNat ceiling lastId) := by
  rw [listRuns, if_neg (by omega)]
  simp only [decodeRunListCursor_encode hmacSha256 hlast (show lastId ≤ ceiling + 1 by omega)]
  rfl

/-- Following the cursors of `list_runs`. -/
theorem listRuns_readsAll {seen : ℕ → ℕ → RunTable} (hgrowing : Growing runIds seen)
    (hpos : ∀ n k, ∀ id ∈ runIds (seen n k), 0 < id) {pageSize : ℕ → ℤ}
    (hsize : ∀ n, 1 ≤ pageSize n) :
    ReadsAll (fun n => listRuns hmacSha256 (seen n) (pageSize n)) RunSummaryResponse.backtestRunId
      (· > ·) (runIds (seen 0 0)) := by
  have hsizes : ∀ n, 0 < (pageSize n).toNat := fun n => by
    have := hsize n
    omega
  have hstart : ∀ k : ℤ, 1 ≤ k → k ≤ coalesceMax (runIds (seen 0 0)) →
      OrderDual.toDual (coalesceMax (runIds (seen 0 0)) + 1) < OrderDual.toDual k :=
    fun k _ hk => OrderDual.toDual_lt_toDual.mpr (by omega)
  refine readsAll_of_pages (encodeRunListCursor hmacSha256 (coalesceMax (runIds (seen 0 0))))
    OrderDual.ofDual_toDual hsizes (fun n => (seen n 1).unique)
    (fun n => hpos n 1) (fun n => hgrowing.next_page n 1) (hgrowing.query 0 0) hstart ?_ ?_
  · exact ⟨_, listRuns_first hmacSha256 (seen 0) (hsize 0),
      runPage_takesPage hmacSha256 (seen 0 1) _ _ _⟩
  · intro n lastId hlast hceiling
    exact ⟨_, listRuns_next hmacSha256 (seen n) (hsize n) hlast hceiling,
      runPage_takesPage hmacSha256 (seen n 1) _ _ _⟩

end Runs

section Children

variable {α ι : Type} {sequence : α → ℤ} (rowMapper : α → ι)
  (hmacSha256 : List ℕ → List (Fin 256)) (cursorKind : String)
variable {seen : ℕ → RunResults sequence}

variable {key : ι → ℤ}

theorem runChildPage_takesPage (hkey : ∀ row, key (rowMapper row) = sequence row)
    (results : RunResults sequence) (runId : ℤ) (size : ℕ) (ceiling lastSequence : ℤ) :
    TakesPage (fun k : ℤ => k ≤ ceiling) key
      (encodeResultCursor hmacSha256 cursorKind runId ceiling) size lastSequence
      (sequencesOf results runId)
      (runChildPage hmacSha256 rowMapper results runId size cursorKind ceiling
        lastSequence).toPage := by
  have hfilter : (results.children.rows.filter fun child => child.runId = runId ∧
      sequence child.row ≤ ceiling ∧ sequence child.row > lastSequence) =
      ((results.children.rows.filter fun child => child.runId = runId).filter fun child =>
        sequence child.row ≤ ceiling ∧ sequence child.row > lastSequence) := by
    rw [filter_filter]
    apply filter_congr
    intro child _
    rw [Bool.eq_iff_iff]
    simp only [Bool.and_eq_true, decide_eq_true_iff]
    exact and_comm
  refine takesPage_of_rows (fun child : RunChild α => sequence child.row) (fun child => rfl)
    (congrArg (fun rows => (sortedBy (fun child => sequence child.row) rows).take (size + 1))
      hfilter) ?_ rfl
  rw [runChildPage, map_map]
  simp only [Function.comp_def, hkey]

theorem find_run {runs : RunTable} (hrun : runId ∈ runIds runs) :
    ∃ run, (runs.find fun run => run.id = runId) = some run := by
  obtain ⟨run, hmem, hid⟩ := mem_map.mp hrun
  cases hfind : runs.find fun run => run.id = runId with
  | some found => exact ⟨found, rfl⟩
  | none =>
    have hnone := KeyedTable.find_eq_none_iff.mp hfind run hmem
    exact absurd hid (of_decide_eq_false hnone)

/-- A run that exists has a first page. -/
theorem listRunChildRows_first (hrun : runId ∈ runIds (seen 0).runs) (hsize : 1 ≤ pageSize) :
    listRunChildRows hmacSha256 sequence rowMapper seen runId pageSize none cursorKind =
      .ok (some (runChildPage hmacSha256 rowMapper (seen 2) runId pageSize.toNat cursorKind
        (coalesceMax (sequencesOf (seen 1) runId)) 0)) := by
  obtain ⟨run, hfind⟩ := find_run hrun
  rw [listRunChildRows, if_neg (by omega)]
  simp only [hfind]
  rfl

/-- A page of the rows of a run after a cursor. -/
theorem listRunChildRows_next (hrun : runId ∈ runIds (seen 0).runs) (hpos : 1 ≤ runId)
    (hsize : 1 ≤ pageSize) (hlast : 0 ≤ lastSequence) (hceiling : lastSequence ≤ ceiling) :
    listRunChildRows hmacSha256 sequence rowMapper seen runId pageSize
        (some (encodeResultCursor hmacSha256 cursorKind runId ceiling lastSequence)) cursorKind =
      .ok (some (runChildPage hmacSha256 rowMapper (seen 2) runId pageSize.toNat cursorKind
        ceiling lastSequence)) := by
  obtain ⟨run, hfind⟩ := find_run hrun
  rw [listRunChildRows, if_neg (by omega)]
  simp only [hfind, decodeResultCursor_encode hmacSha256 cursorKind hpos hlast hceiling]
  simp

/-- The sequences of the rows of a run are distinct. -/
theorem nodup_sequencesOf (results : RunResults sequence) (runId : ℤ) :
    (sequencesOf results runId).Nodup := by
  have hkeys := results.children.unique
  rw [List.Nodup, pairwise_map] at hkeys
  rw [sequencesOf, List.Nodup, pairwise_map]
  refine (hkeys.filter _).imp_of_mem ?_
  intro child other hchild hother hne heq
  have hchild := of_decide_eq_true (mem_filter.mp hchild).2
  have hother := of_decide_eq_true (mem_filter.mp hother).2
  exact hne (Prod.ext (hchild.trans hother.symm) heq)

/-- Following the cursors of a listing of the rows of a run. -/
theorem listRunChildRows_readsAll (hkey : ∀ row, key (rowMapper row) = sequence row)
    {seen : ℕ → ℕ → RunResults sequence} (hruns : Growing (fun results => runIds results.runs) seen)
    (hgrowing : Growing (fun results => sequencesOf results runId) seen)
    (hrun : runId ∈ runIds (seen 0 0).runs) (hid : 1 ≤ runId)
    (hpos : ∀ n k, ∀ s ∈ sequencesOf (seen n k) runId, 0 < s) {pageSize : ℕ → ℤ}
    (hsize : ∀ n, 1 ≤ pageSize n) :
    ReadsAll (fun n cursor => orNotFound (listRunChildRows hmacSha256 sequence rowMapper (seen n)
        runId (pageSize n) cursor cursorKind)) key (· < ·) (sequencesOf (seen 0 1) runId) := by
  have hsizes : ∀ n, 0 < (pageSize n).toNat := fun n => by
    have := hsize n
    omega
  have hexists : ∀ n, runId ∈ runIds (seen n 0).runs := by
    intro n
    induction n with
    | zero => exact hrun
    | succ n ih => exact hruns.next_page n 0 runId ih
  refine readsAll_of_pages (encodeResultCursor hmacSha256 cursorKind runId
    (coalesceMax (sequencesOf (seen 0 1) runId))) (fun _ => rfl) hsizes
    (fun n => nodup_sequencesOf (seen n 2) runId)
    (fun n => hpos n 2) (fun n => hgrowing.next_page n 2) (hgrowing.query 0 1)
    (fun k hk _ => show 0 < k from hk) ?_ ?_
  · rw [map_id']
    refine ⟨_, ?_, runChildPage_takesPage rowMapper hmacSha256 cursorKind hkey (seen 0 2) runId
      _ _ _⟩
    rw [listRunChildRows_first rowMapper hmacSha256 cursorKind (hexists 0) (hsize 0)]
    rfl
  · intro n lastSequence hlast hceiling
    rw [map_id']
    refine ⟨_, ?_, runChildPage_takesPage rowMapper hmacSha256 cursorKind hkey (seen n 2) runId
      _ _ _⟩
    rw [listRunChildRows_next rowMapper hmacSha256 cursorKind (hexists n) hid (hsize n) (by omega)
      hceiling]
    rfl

end Children

section Datasets

variable (sha256 : List ℕ → String)

theorem idPage_takesPage (ids : List ℤ) (size : ℕ) (ceiling lastId : ℤ) :
    TakesPage (fun k : ℤᵒᵈ => OrderDual.ofDual k ≤ ceiling) OrderDual.toDual
      (fun k => encodeDatasetCursor sha256 ceiling (OrderDual.ofDual k)) size
      (OrderDual.toDual lastId) (ids.map OrderDual.toDual)
      (idPage sha256 ids size ceiling lastId) :=
  takesPage_of_rows (OrderDual.toDual : ℤ → ℤᵒᵈ) (fun _ => rfl) rfl rfl rfl

theorem listIds_next (atCeiling atRows : List ℤ) (limit : ℕ) (hlast : 1 ≤ lastId)
    (hceiling : lastId ≤ ceiling) :
    listIds sha256 atCeiling atRows limit (some (encodeDatasetCursor sha256 ceiling lastId)) =
      .ok (idPage sha256 atRows limit ceiling lastId) := by
  rw [listIds]
  simp only [decodeDatasetCursor_encode sha256 hlast hceiling]
  rfl

variable {ι : Type} {key : ι → ℤ}

/-- Ids that are found one by one. -/
theorem map_key_filterMap {find : ℤ × ℕ → Option ι} {ids : List ℤ}
    (hfind : ∀ item ∈ ids.zipIdx n, ∃ found, find item = some found ∧ key found = item.1) :
    ((ids.zipIdx n).filterMap find).map key = ids := by
  induction ids generalizing n with
  | nil => rfl
  | cons id ids ih =>
    rw [zipIdx_cons, forall_mem_cons] at hfind
    obtain ⟨⟨found, hfound, hkey⟩, hrest⟩ := hfind
    rw [zipIdx_cons, filterMap_cons_some hfound, map_cons, hkey, ih hrest]

/-- Following the cursors of a listing of datasets whose items are found by their ids. -/
theorem listIds_readsAll {T : Type} {idsOf : T → List ℤ} {seen : ℕ → ℕ → T}
    (hgrowing : Growing idsOf seen) (hnodup : ∀ n k, (idsOf (seen n k)).Nodup)
    (hpos : ∀ n k, ∀ id ∈ idsOf (seen n k), 0 < id) {pageSize : ℕ → ℕ}
    (hsize : ∀ n, 1 ≤ pageSize n) {find : ℕ → ℤ × ℕ → Option ι}
    (hfind : ∀ n, ∀ id ∈ idsOf (seen n 1), ∀ i, ∃ found, find n (id, i) = some found ∧
      key found = id) :
    ReadsAll (fun n cursor => do
      let page ← listIds sha256 (idsOf (seen n 0)) (idsOf (seen n 1)) (pageSize n) cursor
      pure { items := page.items.zipIdx.filterMap (find n), nextCursor := page.nextCursor })
      key (· > ·) (idsOf (seen 0 0)) := by
  have hstart : ∀ k : ℤ, 1 ≤ k → k ≤ coalesceMax (idsOf (seen 0 0)) →
      OrderDual.toDual (coalesceMax (idsOf (seen 0 0)) + 1) < OrderDual.toDual k :=
    fun k _ hk => OrderDual.toDual_lt_toDual.mpr (by omega)
  have hitems : ∀ n lastId, ((idPage sha256 (idsOf (seen n 1)) (pageSize n)
      (coalesceMax (idsOf (seen 0 0))) lastId).items.zipIdx.filterMap (find n)).map key =
        (idPage sha256 (idsOf (seen n 1)) (pageSize n)
          (coalesceMax (idsOf (seen 0 0))) lastId).items := by
    intro n lastId
    apply map_key_filterMap
    intro item hitem
    have hmem := mem_of_mem_take (mem_of_mem_take (fst_mem_of_mem_zipIdx hitem))
    rw [mem_sortedBy] at hmem
    exact hfind n item.1 (mem_of_mem_filter hmem) item.2
  have htakes : ∀ n lastId, TakesPage (fun k : ℤᵒᵈ =>
      OrderDual.ofDual k ≤ coalesceMax (idsOf (seen 0 0)))
      (fun item : ι => OrderDual.toDual (key item))
      (fun k => encodeDatasetCursor sha256 (coalesceMax (idsOf (seen 0 0))) (OrderDual.ofDual k))
      (pageSize n) (OrderDual.toDual lastId) ((idsOf (seen n 1)).map OrderDual.toDual)
      { items := (idPage sha256 (idsOf (seen n 1)) (pageSize n)
          (coalesceMax (idsOf (seen 0 0))) lastId).items.zipIdx.filterMap (find n)
        nextCursor := (idPage sha256 (idsOf (seen n 1)) (pageSize n)
          (coalesceMax (idsOf (seen 0 0))) lastId).nextCursor } := by
    intro n lastId
    obtain ⟨hkeys, hnext⟩ := idPage_takesPage sha256 (idsOf (seen n 1)) (pageSize n)
      (coalesceMax (idsOf (seen 0 0))) lastId
    refine ⟨?_, hnext⟩
    rw [← hkeys, ← hitems n lastId, map_map, hitems n lastId]
    rfl
  refine readsAll_of_pages (encodeDatasetCursor sha256 (coalesceMax (idsOf (seen 0 0))))
    OrderDual.ofDual_toDual hsize (fun n => hnodup n 1) (fun n => hpos n 1)
    (fun n => hgrowing.next_page n 1) (hgrowing.query 0 0) hstart ?_ ?_
  · exact ⟨_, rfl, htakes 0 _⟩
  · intro n lastId hlast hceiling
    refine ⟨_, ?_, htakes n lastId⟩
    rw [listIds_next sha256 _ _ _ hlast hceiling]
    rfl

end Datasets

/-- The ids of the builds. -/
def buildIds (builds : BuildTable) : List ℤ := builds.rows.map DatasetBuild.id

/-- A build that is there is found. -/
theorem getBuild_of_mem {builds : BuildTable} (h : id ∈ buildIds builds) :
    ∃ found, getBuild builds id = some found ∧ found.buildId = id := by
  obtain ⟨build, hmem, rfl⟩ := mem_map.mp h
  have hfind : (builds.find fun other => other.id = build.id) = some build :=
    (KeyedTable.find_eq_some_iff fun _ => of_decide_eq_true).mpr ⟨hmem, decide_eq_true rfl⟩
  exact ⟨buildResponse build, by rw [getBuild, hfind]; rfl, rfl⟩

/-- A sealed version that is there is found. -/
theorem getVersion_of_mem {atVersion : DatasetVersionTables} (atSeries : DatasetVersionTables)
    (h : id ∈ sealedIds atVersion) :
    ∃ found, getVersion atVersion atSeries id = some found ∧ found.datasetVersionId = id := by
  obtain ⟨version, hmem, rfl⟩ := mem_map.mp h
  obtain ⟨hrow, hsealed⟩ := mem_filter.mp hmem
  have hfind : sealedVersion atVersion version.id = some version := by
    refine (KeyedTable.find_eq_some_iff (k := version.id) fun row hrow => ?_).mpr ⟨hrow, ?_⟩
    · rw [Bool.and_eq_true] at hrow
      exact of_decide_eq_true hrow.1
    · rw [decide_eq_true rfl, Bool.true_and]
      exact hsealed
  unfold getVersion
  rw [hfind]
  exact ⟨_, rfl, rfl⟩

theorem nodup_sealedIds (tables : DatasetVersionTables) : (sealedIds tables).Nodup := by
  have hkeys := tables.versions.unique
  rw [List.Nodup, pairwise_map] at hkeys
  rw [sealedIds, List.Nodup, pairwise_map]
  exact hkeys.filter _

theorem positiveArgument_of_pos {value : ℤ} (h : 1 ≤ value) (field : String) :
    positiveArgument value field = .ok value :=
  if_neg (by omega)

/-- Following the cursors of a listing, whatever is committed between its queries: it ends, in
strict order, under the ceiling, with every row that was there at the ceiling.
SOURCE: backtest_store.py:595-733, 1142-1253; dataset_version_store.py:172-278, 2170-2207 -/
theorem listings_readAll (hmacSha256 : List ℕ → List (Fin 256)) (sha256 : List ℕ → String)
    {pageSize : ℕ → ℕ} (hsize : ∀ n, 1 ≤ pageSize n) :
    (∀ seen : ℕ → ℕ → RunTable, Growing runIds seen →
      (∀ n k, ∀ id ∈ runIds (seen n k), 0 < id) →
      ReadsAll (fun n => listRuns hmacSha256 (seen n) (pageSize n))
        RunSummaryResponse.backtestRunId (· > ·) (runIds (seen 0 0))) ∧
    (∀ (seen : ℕ → ℕ → RunResults BacktestTradeRow.tradeSequence) (runId : ℤ), 1 ≤ runId →
      runId ∈ runIds (seen 0 0).runs → Growing (fun results => runIds results.runs) seen →
      Growing (fun results => sequencesOf results runId) seen →
      (∀ n k, ∀ s ∈ sequencesOf (seen n k) runId, 0 < s) →
      ReadsAll (fun n cursor =>
          orNotFound (listRunTrades hmacSha256 (seen n) runId (pageSize n) cursor))
        BacktestTradeRow.tradeSequence (· < ·) (sequencesOf (seen 0 1) runId)) ∧
    (∀ (seen : ℕ → ℕ → RunResults BacktestEquityPointRow.pointSequence) (runId : ℤ), 1 ≤ runId →
      runId ∈ runIds (seen 0 0).runs → Growing (fun results => runIds results.runs) seen →
      Growing (fun results => sequencesOf results runId) seen →
      (∀ n k, ∀ s ∈ sequencesOf (seen n k) runId, 0 < s) →
      ReadsAll (fun n cursor =>
          orNotFound (listRunEquityPoints hmacSha256 (seen n) runId (pageSize n) cursor))
        BacktestEquityPointRow.pointSequence (· < ·) (sequencesOf (seen 0 1) runId)) ∧
    (∀ seen : ℕ → ℕ → BuildTable, Growing buildIds seen →
      (∀ n k, ∀ id ∈ buildIds (seen n k), 0 < id) →
      ReadsAll (fun n => listBuilds sha256 (seen n) (pageSize n)) BuildResponse.buildId (· > ·)
        (buildIds (seen 0 0))) ∧
    (∀ seen : ℕ → ℕ → DatasetVersionTables, Growing sealedIds seen →
      (∀ n k, ∀ id ∈ sealedIds (seen n k), 0 < id) →
      ReadsAll (fun n => listVersions sha256 (seen n) (pageSize n))
        VersionResponse.datasetVersionId (· > ·) (sealedIds (seen 0 0))) := by
  have hpages : ∀ n, 1 ≤ (pageSize n : ℤ) := fun n => by exact_mod_cast hsize n
  refine ⟨fun seen hgrowing hpos => listRuns_readsAll hmacSha256 hgrowing hpos hpages,
    ?_, ?_, ?_, ?_⟩
  · intro seen runId hid hrun hruns hgrowing hpos
    simp only [listRunTrades, positiveArgument_of_pos hid, positiveArgument_of_pos (hpages _),
      ok_bind]
    exact listRunChildRows_readsAll id hmacSha256 tradeCursorKind (fun _ => rfl) hruns hgrowing hrun
      hid hpos hpages
  · intro seen runId hid hrun hruns hgrowing hpos
    simp only [listRunEquityPoints, positiveArgument_of_pos hid,
      positiveArgument_of_pos (hpages _), ok_bind]
    exact listRunChildRows_readsAll id hmacSha256 equityCursorKind (fun _ => rfl) hruns hgrowing
      hrun hid hpos hpages
  · intro seen hgrowing hpos
    exact listIds_readsAll sha256 hgrowing (fun n k => (seen n k).unique) hpos hsize
      fun n id hid i => getBuild_of_mem (hgrowing.of_le (by omega) id hid)
  · intro seen hgrowing hpos
    exact listIds_readsAll sha256 hgrowing (fun n k => nodup_sealedIds (seen n k)) hpos hsize
      fun n id hid i => getVersion_of_mem _ (hgrowing.of_le (by omega) id hid)

/-- A pending build. -/
def pendingBuild (id : ℤ) : DatasetBuild where
  id := id
  idempotencyKey := "key"
  requestId := "request"
  actorId := "actor"
  requestedAt := 0
  reason := "reason"
  frozenAt := 0
  requestHash := "hash"
  schemaVersion := "dataset-v1"
  asOf := 0
  inputStartAt := 0
  outputStartAt := 0
  endAt := 0
  fillPolicy := "none"
  missingPolicy := "null"
  orderingPolicy := "market-kind-unit-time-v1"
  createdAt := 0

/-- The second of three builds is committed after the first page has been read. -/
def lateBuilds (n : ℕ) : BuildTable :=
  if n = 0 then ⟨[pendingBuild 1, pendingBuild 3], by decide⟩
  else ⟨[pendingBuild 1, pendingBuild 2, pendingBuild 3], by decide⟩

/-- The first and the third build are listed. -/
theorem listings_readAll_lateBuilds :
    ReadsAll (fun n => listBuilds (fun _ => "") (fun _ => lateBuilds n) 1) BuildResponse.buildId
      (· > ·) [1, 3] := by
  have h := (@listings_readAll (fun _ => []) (fun _ => "") (fun _ => 1)
    fun _ => le_refl 1).2.2.2.1 (fun n _ => lateBuilds n)
  refine h ⟨fun n _ id hid => hid, fun n _ id hid => ?_⟩ fun n _ id hid => ?_
  · by_cases hn : n = 0
    · subst hn
      revert id
      decide
    · rw [lateBuilds, if_neg hn] at hid
      exact hid
  · by_cases hn : n = 0
    · subst hn
      revert id
      decide
    · rw [lateBuilds, if_neg hn] at hid
      revert id
      decide

end Goodmoneying.Analysis
