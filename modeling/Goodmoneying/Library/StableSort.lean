import Mathlib.Data.List.Forall2
import Mathlib.Data.List.MinMax
import Mathlib.Data.List.Sort
import Mathlib.Data.Prod.Lex

/-!
# Stable sorting by a key

`sortedBy key l` lists `l` in ascending order of `key`, elements of equal key in their original
order: filtering commutes with it (`filter_sortedBy`), sorting on a key refined by the position is
sorting on the key (`map_fst_sortedBy_zipIdx`), and what holds on a lower set of keys holds on a
prefix (`filter_prefix_of_pairwise`). `maxBy key l` is the first element of `l` whose key is
largest, and `distinctOn group l` keeps the first element of every group.
-/

namespace Goodmoneying.Library

open List

variable {α κ : Type} [LinearOrder κ]
variable {key : α → κ} {l m : List α} {a : α} {β : Type} {f : α → β} {r : α → α → Prop}

/-- `l` in ascending order of `key`; elements of equal key keep their order. -/
def sortedBy (key : α → κ) (l : List α) : List α :=
  l.insertionSort (fun a b => key a ≤ key b)

/-- Sorting reorders. -/
theorem sortedBy_perm (key : α → κ) (l : List α) : (sortedBy key l).Perm l :=
  perm_insertionSort _ l

@[simp] theorem mem_sortedBy : a ∈ sortedBy key l ↔ a ∈ l :=
  (sortedBy_perm key l).mem_iff

@[simp] theorem nodup_map_sortedBy (key : α → κ) :
    ((sortedBy key l).map f).Nodup ↔ (l.map f).Nodup :=
  ((sortedBy_perm key l).map f).nodup_iff

/-- The sorted list ascends. -/
theorem sortedBy_pairwise (key : α → κ) (l : List α) :
    (sortedBy key l).Pairwise (fun a b => key a ≤ key b) :=
  haveI : Std.Total (fun a b : α => key a ≤ key b) := ⟨fun a b => le_total (key a) (key b)⟩
  haveI : IsTrans α (fun a b => key a ≤ key b) := ⟨fun _ _ _ => le_trans⟩
  pairwise_insertionSort _ l

/-- The first entry of a sorted list has the least key. -/
theorem head?_sortedBy (h : (sortedBy key l).head? = some a) : a ∈ l ∧ ∀ b ∈ l, key a ≤ key b := by
  have hmem : a ∈ l := mem_sortedBy.mp (mem_of_head? h)
  obtain ⟨rest, hrest⟩ := List.head?_eq_some_iff.mp h
  have hsorted := sortedBy_pairwise key l
  rw [hrest, pairwise_cons] at hsorted
  refine ⟨hmem, fun b hb => ?_⟩
  rcases mem_cons.mp (hrest ▸ mem_sortedBy.mpr hb) with rfl | hb
  · exact le_refl _
  · exact hsorted.1 b hb

/-- An ascending list is sorted already. -/
theorem sortedBy_eq_self (h : l.Pairwise (fun a b => key a ≤ key b)) : sortedBy key l = l :=
  h.insertionSort_eq

/-- Sorting commutes with a map. -/
theorem sortedBy_map (key : β → κ) (f : α → β) (l : List α) :
    sortedBy key (l.map f) = (sortedBy (fun a => key (f a)) l).map f :=
  (map_insertionSort (fun a b => key (f a) ≤ key (f b)) (fun a b => key a ≤ key b) f l
    fun _ _ _ _ => Iff.rfl).symm

/-- Distinct keys ascend strictly. -/
theorem pairwise_lt_of_nodup (h : l.Pairwise fun a b => key a ≤ key b)
    (hnodup : (l.map key).Nodup) : l.Pairwise fun a b => key a < key b :=
  (pairwise_and_iff.mpr ⟨h, pairwise_map.mp hnodup⟩).imp fun h =>
    lt_of_le_of_ne h.1 h.2

/-- Distinct keys ascend strictly when sorted. -/
theorem sortedBy_lt_of_nodup (h : (l.map key).Nodup) :
    (sortedBy key l).Pairwise fun a b => key a < key b :=
  pairwise_lt_of_nodup (sortedBy_pairwise key l) ((nodup_map_sortedBy _).mpr h)

/-- Lists in strictly ascending order with the same entries are equal. -/
theorem eq_of_pairwise_lt (key : α → κ) (hl : l.Pairwise fun a b => key a < key b)
    (hm : m.Pairwise fun a b => key a < key b) (h : ∀ a, a ∈ l ↔ a ∈ m) : l = m := by
  have hperm : l.Perm m :=
    (perm_ext_iff_of_nodup (hl.imp fun hlt heq => by simp [heq] at hlt)
      (hm.imp fun hlt heq => by simp [heq] at hlt)).mpr h
  exact hperm.eq_of_pairwise (fun a b _ _ hab hba => absurd hab hba.asymm) hl hm

/-- Lists in ascending order with the same entries, of distinct keys, are equal. -/
theorem eq_of_pairwise_le (h : l.Perm m) (hl : l.Pairwise fun a b => key a ≤ key b)
    (hm : m.Pairwise fun a b => key a ≤ key b) (hnodup : (m.map key).Nodup) : l = m :=
  eq_of_pairwise_lt key (pairwise_lt_of_nodup hl ((h.map key).nodup_iff.mpr hnodup))
    (pairwise_lt_of_nodup hm hnodup) fun _ => h.mem_iff

/-- A list is sorted if it ascends in a key with distinct values in which the sorted one ascends. -/
theorem eq_sortedBy_of_perm {τ : Type} [LinearOrder τ] {column : α → τ} (h : m.Perm l)
    (hm : m.Pairwise fun a b => column a ≤ column b)
    (hsorted : (sortedBy key l).Pairwise fun a b => column a ≤ column b)
    (hnodup : (l.map column).Nodup) :
    m = sortedBy key l ∧ m.Pairwise fun a b => column a < column b :=
  ⟨eq_of_pairwise_le (h.trans (sortedBy_perm key l).symm) hm hsorted
      ((nodup_map_sortedBy key).mpr hnodup),
    pairwise_lt_of_nodup hm ((h.map column).nodup_iff.mpr hnodup)⟩

/-- Lists with the same entries in the same order of distinct keys are equal. -/
theorem eq_of_perm_of_map_eq (h : l.Perm m) (hf : l.map f = m.map f) (hnodup : (l.map f).Nodup) :
    l = m := by
  induction l generalizing m with
  | nil => exact h.nil_eq
  | cons a l ih =>
    cases m with
    | nil => exact absurd hf (by simp)
    | cons b m =>
      obtain ⟨hhead, htail⟩ := List.cons.inj hf
      have hsame : a = b := by
        rcases mem_cons.mp (h.subset mem_cons_self) with hab | hmem
        · exact hab
        · -- the key of `a` is that of `b`, which no other entry has
          have hkey : f a ∈ m.map f := mem_map_of_mem hmem
          rw [← htail] at hkey
          exact absurd hkey (nodup_cons.mp hnodup).1
      subst hsame
      rw [ih (perm_cons a |>.mp h) htail (nodup_cons.mp hnodup).2]

/-- What a sorted list shows of its entries does not depend on the order of the list, if the
shown keys are distinct. -/
theorem map_sortedBy_eq_of_perm (key : β → κ) (h : (l.map f).Perm (m.map f))
    (hnodup : (l.map fun a => key (f a)).Nodup) :
    (sortedBy (fun a => key (f a)) l).map f = (sortedBy (fun a => key (f a)) m).map f := by
  rw [← sortedBy_map, ← sortedBy_map]
  have hperm := h.trans (sortedBy_perm key (m.map f)).symm
  have hkeys : ((l.map f).map key).Nodup := by
    rw [map_map]
    exact hnodup
  exact eq_of_pairwise_le ((sortedBy_perm key (l.map f)).trans hperm) (sortedBy_pairwise key _)
    (sortedBy_pairwise key _) ((hperm.map key).nodup_iff.mp hkeys)

/-- Inserting into a sorted list and then filtering is filtering and then inserting. -/
theorem filter_orderedInsert (key : α → κ) (p : α → Bool) (a : α) (l : List α)
    (hl : l.Pairwise (fun a b => key a ≤ key b)) :
    (l.orderedInsert (fun a b => key a ≤ key b) a).filter p =
      if p a then (l.filter p).orderedInsert (fun a b => key a ≤ key b) a else l.filter p := by
  induction l with
  | nil => cases hp : p a <;> simp [hp]
  | cons b l ih =>
    obtain ⟨hb, hl⟩ := pairwise_cons.mp hl
    rw [orderedInsert_cons]
    by_cases hab : key a ≤ key b
    · rw [if_pos hab]
      cases hp : p a
      · simp [hp]
      · -- `a` is not above anything left after filtering, so it is inserted in front
        have hfront : ∀ c ∈ (b :: l).filter p, key a ≤ key c := by
          intro c hc
          rcases mem_cons.mp (mem_of_mem_filter hc) with rfl | hc
          · exact hab
          · exact hab.trans (hb c hc)
        rw [filter_cons_of_pos hp, if_pos rfl]
        cases hf : (b :: l).filter p with
        | nil => rfl
        | cons c cs =>
          rw [orderedInsert_cons_of_le]
          exact hfront c (by simp [hf])
    · rw [if_neg hab, filter_cons, ih hl]
      cases hpb : p b <;> cases hpa : p a <;> simp [hpb, hab]

/-- Sorting and filtering commute. -/
theorem filter_sortedBy (key : α → κ) (p : α → Bool) (l : List α) :
    (sortedBy key l).filter p = sortedBy key (l.filter p) := by
  induction l with
  | nil => rfl
  | cons a l ih =>
    have hsorted := sortedBy_pairwise key l
    unfold sortedBy at hsorted ih ⊢
    rw [insertionSort_cons, filter_orderedInsert key p a _ hsorted, ih, filter_cons]
    cases hp : p a <;> simp

/-- Lists with the same keys have them in the same order. -/
theorem map_key_sortedBy_of_perm (h : (l.map key).Perm (m.map key)) :
    (sortedBy key l).map key = (sortedBy key m).map key := by
  refine List.Perm.eq_of_pairwise (fun a b _ _ hab hba => le_antisymm hab hba)
    (pairwise_map.mpr (sortedBy_pairwise key l))
    (pairwise_map.mpr (sortedBy_pairwise key m)) ?_
  exact ((sortedBy_perm key l).map key).trans (h.trans ((sortedBy_perm key m).map key).symm)

theorem forall₂_of_map_eq (h : l.map f = m.map f) (hr : ∀ a ∈ l, ∀ b ∈ m, f a = f b → r a b) :
    List.Forall₂ r l m := by
  induction l generalizing m with
  | nil => rw [map_nil, eq_comm, map_eq_nil_iff] at h; rw [h]; exact .nil
  | cons a l ih =>
    obtain ⟨b, m, rfl, hab, hlm⟩ := map_eq_cons_iff.mp h.symm
    refine .cons (hr a mem_cons_self b mem_cons_self hab.symm)
      (ih hlm.symm fun x hx y hy => hr x ?_ y ?_)
    · exact mem_cons_of_mem a hx
    · exact mem_cons_of_mem b hy

/-- Where entries of one key are related, the order of a list is lost when it is sorted. -/
theorem forall₂_sortedBy (h : (l.map key).Perm (m.map key))
    (hr : ∀ a ∈ l, ∀ b ∈ m, key a = key b → r a b) :
    List.Forall₂ r (sortedBy key l) (sortedBy key m) :=
  forall₂_of_map_eq (map_key_sortedBy_of_perm h) fun a ha b hb =>
    hr a (mem_sortedBy.mp ha) b (mem_sortedBy.mp hb)

/-- Where it is lost, the first entries are related if they have one key. -/
theorem rel_of_forall₂_sortedBy {b : α} (hr : ∀ x y, r x y → key x = key y) (hkey : key a = key b)
    (h : List.Forall₂ r (sortedBy key (a :: l)) (sortedBy key (b :: m))) : r a b := by
  have hone : ∀ (c : α) (n : List α), key c = key a →
      (sortedBy key (c :: n)).filter (fun x => key x = key a) =
        c :: n.filter (fun x => key x = key a) := by
    intro c n hc
    rw [filter_sortedBy, sortedBy_eq_self, filter_cons_of_pos (by simpa using hc)]
    refine pairwise_of_forall_mem_list fun x hx y hy => ?_
    have hx' : key x = key a := by simpa using (mem_filter.mp hx).2
    have hy' : key y = key a := by simpa using (mem_filter.mp hy).2
    rw [hx', hy']
  have hfilter := rel_filter (R := r) (p := fun x => decide (key x = key a))
    (q := fun x => decide (key x = key a)) (fun x y hxy => by simp [hr x y hxy]) h
  rw [hone a l rfl, hone b m hkey.symm, forall₂_cons] at hfilter
  exact hfilter.1

/-- Insertion only compares the new element with the others, so a map that keeps those
comparisons commutes with it. -/
theorem map_orderedInsert_of_iff {s : β → β → Prop} [DecidableRel r] [DecidableRel s] (f : α → β)
    (x : α) (l : List α) (h : ∀ a ∈ l, r x a ↔ s (f x) (f a)) :
    (l.orderedInsert r x).map f = (l.map f).orderedInsert s (f x) := by
  induction l with
  | nil => rfl
  | cons b l ih =>
    have hb := h b (by simp)
    rw [orderedInsert_cons, map_cons, orderedInsert_cons]
    by_cases hxb : r x b
    · rw [if_pos hxb, if_pos (hb.mp hxb), map_cons, map_cons]
    · rw [if_neg hxb, if_neg (fun hs => hxb (hb.mpr hs)), map_cons,
        ih (fun a ha => h a (mem_cons_of_mem b ha))]

/-- Sorting pairs on the key of the first component refined by an increasing second
component sorts the first components on their key. -/
theorem map_fst_sortedBy_zipIdx (key : α → κ) (l : List α) (n : ℕ) :
    (sortedBy (fun x : α × ℕ => toLex (key x.1, x.2)) (l.zipIdx n)).map Prod.fst =
      sortedBy key l := by
  induction l generalizing n with
  | nil => rfl
  | cons a l ih =>
    have hrest := ih (n + 1)
    unfold sortedBy at hrest ⊢
    rw [zipIdx_cons, insertionSort_cons, insertionSort_cons, ← hrest]
    apply map_orderedInsert_of_iff
    intro x hx
    -- every other index is above `n`, so the first components decide
    have hn : n ≤ x.2 := by
      have := le_snd_of_mem_zipIdx (mem_insertionSort _ |>.mp hx)
      omega
    simp only [Prod.Lex.toLex_le_toLex]
    constructor
    · rintro (h | h)
      · exact h.le
      · exact h.1.le
    · intro h
      rcases h.lt_or_eq with h | h
      · exact Or.inl h
      · exact Or.inr ⟨h, hn⟩

/-- If `p` holds of everything before an element of which it holds, the elements with
`p` form a prefix. -/
theorem filter_prefix_of_pairwise {p : α → Bool} (h : l.Pairwise (fun a b => p b → p a)) :
    l.filter p <+: l := by
  induction l with
  | nil => simp
  | cons a l ih =>
    obtain ⟨ha, hl⟩ := pairwise_cons.mp h
    cases hp : p a
    · have hnone : l.filter p = [] := by
        rw [filter_eq_nil_iff]
        intro b hb hpb
        simp [ha b hb hpb] at hp
      simp [hp, hnone]
    · rw [filter_cons_of_pos hp]
      exact (prefix_cons_inj a).mpr (ih hl)

/-- The first element of `l` with the largest key. -/
def maxBy (key : α → κ) (l : List α) : Option α :=
  l.argmax key

theorem maxBy_eq_none : maxBy key l = none ↔ l = [] :=
  argmax_eq_none

/-- The element found has the largest key. -/
theorem maxBy_spec (h : maxBy key l = some a) : a ∈ l ∧ ∀ b ∈ l, key b ≤ key a :=
  ⟨argmax_mem h, fun _ hb => le_of_mem_argmax hb h⟩

/-- A further element is the largest when its key is beyond that of the largest before. -/
theorem maxBy_concat (key : α → κ) (l : List α) (a : α) :
    maxBy key (l ++ [a]) =
      some ((maxBy key l).elim a fun b => if key b < key a then a else b) := by
  unfold maxBy
  rw [argmax_concat]
  cases List.argmax key l with
  | none => rfl
  | some b => exact (apply_ite some _ _ _).symm

/-! ## The first of every group -/

section DistinctOn

variable {γ : Type} [DecidableEq γ]
variable {group : α → γ}

/-- The first element of each group. -/
def distinctOn (group : α → γ) : List α → List α
  | [] => []
  | a :: l => a :: (distinctOn group l).filter fun b => group b ≠ group a

theorem mem_of_mem_distinctOn (h : a ∈ distinctOn group l) : a ∈ l := by
  induction l with
  | nil => cases h
  | cons b l ih =>
    rcases mem_cons.mp h with rfl | h
    · exact mem_cons_self
    · exact mem_cons_of_mem _ (ih (mem_of_mem_filter h))

theorem exists_mem_distinctOn (group : α → γ) (h : a ∈ l) :
    ∃ b ∈ distinctOn group l, group b = group a := by
  induction l with
  | nil => cases h
  | cons c l ih =>
    by_cases hgroup : group a = group c
    · exact ⟨c, mem_cons_self, hgroup.symm⟩
    · rcases mem_cons.mp h with rfl | h
      · exact absurd rfl hgroup
      · obtain ⟨b, hb, hba⟩ := ih h
        refine ⟨b, mem_cons_of_mem _ (mem_filter.mpr ⟨hb, ?_⟩), hba⟩
        rw [hba]
        exact decide_eq_true hgroup

theorem nodup_map_distinctOn (group : α → γ) (l : List α) :
    ((distinctOn group l).map group).Nodup := by
  induction l with
  | nil => exact nodup_nil
  | cons a l ih =>
    rw [distinctOn, map_cons, nodup_cons]
    constructor
    · intro hmem
      obtain ⟨b, hb, hgroup⟩ := mem_map.mp hmem
      exact absurd hgroup (of_decide_eq_true (mem_filter.mp hb).2)
    · exact ih.sublist (filter_sublist.map group)

/-- Whole groups may be left out before or after. -/
theorem filter_distinctOn (group : α → γ) (p : γ → Bool) (l : List α) :
    (distinctOn group l).filter (fun a => p (group a)) =
      distinctOn group (l.filter fun a => p (group a)) := by
  induction l with
  | nil => rfl
  | cons a l ih =>
    have hcomm : ((distinctOn group l).filter fun b => group b ≠ group a).filter
        (fun b => p (group b)) =
        ((distinctOn group l).filter fun b => p (group b)).filter fun b => group b ≠ group a := by
      rw [filter_filter, filter_filter]
      exact filter_congr fun b _ => Bool.and_comm _ _
    cases hp : p (group a) with
    | true =>
      rw [distinctOn, filter_cons, if_pos hp, filter_cons, if_pos hp, distinctOn, hcomm, ih]
    | false =>
      have hnone : ((distinctOn group l).filter fun b => p (group b)).filter
          (fun b => group b ≠ group a) = (distinctOn group l).filter fun b => p (group b) := by
        rw [filter_eq_self]
        intro b hb
        refine decide_eq_true fun hgroup => ?_
        have hpb := (mem_filter.mp hb).2
        simp [hgroup, hp] at hpb
      rw [distinctOn, filter_cons, if_neg (by simp [hp]), filter_cons,
        if_neg (by simp [hp]), hcomm, hnone, ih]

/-- Nothing of its group stands before an element that is kept. -/
theorem rel_of_mem_distinctOn (hl : l.Pairwise r) {b : α} (ha : a ∈ distinctOn group l) (hb : b ∈ l)
    (hgroup : group b = group a) : a = b ∨ r a b := by
  induction l with
  | nil => cases hb
  | cons c l ih =>
    obtain ⟨hc, hl⟩ := pairwise_cons.mp hl
    rcases mem_cons.mp ha with rfl | ha
    · rcases mem_cons.mp hb with rfl | hb
      · exact Or.inl rfl
      · exact Or.inr (hc b hb)
    · obtain ⟨ha, hne⟩ := mem_filter.mp ha
      rcases mem_cons.mp hb with rfl | hb
      · exact absurd hgroup.symm (of_decide_eq_true hne)
      · exact ih hl ha hb

/-- Of a sorted list, the least element of every group is kept. -/
theorem mem_distinctOn_sortedBy (hkey : a ∈ l → ∀ b ∈ l, key b = key a → b = a) :
    a ∈ distinctOn group (sortedBy key l) ↔ a ∈ l ∧ ∀ b ∈ l, group b = group a → key a ≤ key b := by
  constructor
  · intro h
    refine ⟨mem_sortedBy.mp (mem_of_mem_distinctOn h), fun b hb hgroup => ?_⟩
    rcases rel_of_mem_distinctOn (sortedBy_pairwise key l) h (mem_sortedBy.mpr hb) hgroup with
      rfl | hle
    · exact le_refl _
    · exact hle
  · rintro ⟨ha, hleast⟩
    obtain ⟨b, hb, hgroup⟩ := exists_mem_distinctOn group ((@mem_sortedBy _ _ _ key l a).mpr ha)
    have hbl := mem_sortedBy.mp (mem_of_mem_distinctOn hb)
    have hle : key b ≤ key a := by
      rcases rel_of_mem_distinctOn (sortedBy_pairwise key l) hb (mem_sortedBy.mpr ha)
        hgroup.symm with rfl | hle
      · exact le_refl _
      · exact hle
    rwa [← hkey ha b hbl (le_antisymm hle (hleast b hbl hgroup))]

end DistinctOn

end Goodmoneying.Library
