import Mathlib.Data.List.Nodup
import Mathlib.Logic.Relation
import Mathlib.Order.WellFoundedSet

/-!
# Peeling the nodes of a finite graph

A node may be peeled once every node before it has been (`Peels`). A peeled node has only
finitely many nodes before it, so it is on no cycle; when nothing more can be peeled, the nodes
that are left contain one. Hence all nodes can be peeled exactly when there is no cycle
(`length_ne_iff_cyclic`).

`pending` counts the nodes that a node still waits for; peeling a node takes one off the count
of each node behind it (`pending_concat`).
-/

namespace Goodmoneying.Library

open List

variable {α : Type} {r : α → α → Prop} {nodes done : List α}
variable {v : α}

/-- `done` lists nodes of `nodes`, each behind all nodes that are before it. -/
inductive Peels (r : α → α → Prop) (nodes : List α) : List α → Prop
  | nil : Peels r nodes []
  | concat {done : List α} {v : α} (h : Peels r nodes done) (hmem : v ∈ nodes) (hnew : v ∉ done)
      (hfree : ∀ u ∈ nodes, r u v → u ∈ done) : Peels r nodes (done ++ [v])

/-- What is peeled are nodes. -/
theorem Peels.subset (h : Peels r nodes done) : done ⊆ nodes := by
  induction h with
  | nil => exact nil_subset _
  | concat h hmem hnew hfree ih =>
    intro u hu
    rcases mem_append.mp hu with hu | hu
    · exact ih hu
    · exact mem_singleton.mp hu ▸ hmem

/-- No node is peeled twice. -/
theorem Peels.nodup (h : Peels r nodes done) : done.Nodup := by
  induction h with
  | nil => exact nodup_nil
  | concat h hmem hnew hfree ih =>
    apply ih.append (nodup_singleton _)
    intro u hu hv
    exact hnew (mem_singleton.mp hv ▸ hu)

/-- Before a peeled node every node is peeled. -/
theorem Peels.closed (h : Peels r nodes done) {u : α} (hv : v ∈ done) (hu : u ∈ nodes)
    (huv : r u v) : u ∈ done := by
  induction h with
  | nil => cases hv
  | concat h hmem hnew hfree ih =>
    rcases mem_append.mp hv with hv | hv
    · exact mem_append_left _ (ih hv)
    · rw [mem_singleton.mp hv] at huv
      exact mem_append_left _ (hfree u hu huv)

/-- Going back from a peeled node comes to an end. -/
theorem Peels.acc (h : Peels r nodes done) (hr : ∀ u v, r u v → u ∈ nodes) (hv : v ∈ done) :
    Acc r v := by
  induction h generalizing v with
  | nil => cases hv
  | concat h hmem hnew hfree ih =>
    rcases mem_append.mp hv with hv | hv
    · exact ih hv
    · rw [mem_singleton.mp hv]
      constructor
      intro u hu
      exact ih (hfree u (hr u _ hu) hu)

theorem Peels.not_cyclic (h : Peels r nodes done) (hr : ∀ u v, r u v → u ∈ nodes) (hv : v ∈ done) :
    ¬ Relation.TransGen r v v := by
  have hacc := (h.acc hr hv).transGen
  induction hacc with
  | intro v hback ih =>
    intro hcycle
    exact ih v hcycle hv hcycle

/-- If every node of a list has a node of the list before it, then there is a cycle. -/
theorem exists_cycle {l : List α} (hne : l ≠ []) (hback : ∀ v ∈ l, ∃ u ∈ l, r u v) :
    ∃ v, Relation.TransGen r v v := by
  by_contra hacyclic
  push Not at hacyclic
  have horder : IsStrictOrder α (Relation.TransGen r) :=
    { irrefl := hacyclic
      trans := fun _ _ _ => Relation.TransGen.trans }
  have hwf : {v | v ∈ l}.WellFoundedOn (Relation.TransGen r) := (finite_toSet l).wellFoundedOn
  obtain ⟨first, hfirst⟩ := exists_mem_of_ne_nil l hne
  have hmin := WellFounded.has_min hwf Set.univ ⟨⟨first, hfirst⟩, Set.mem_univ _⟩
  obtain ⟨⟨v, hv⟩, -, hleast⟩ := hmin
  obtain ⟨u, hu, huv⟩ := hback v hv
  exact hleast ⟨u, hu⟩ (Set.mem_univ _) (Relation.TransGen.single huv)

/-- When nothing more can be peeled, nodes are left exactly when there is a cycle. -/
theorem length_ne_iff_cyclic (h : Peels r nodes done) (hnodup : nodes.Nodup)
    (hr : ∀ u v, r u v → u ∈ nodes)
    (hstuck : ∀ v ∈ nodes, v ∉ done → ∃ u ∈ nodes, r u v ∧ u ∉ done) :
    done.length ≠ nodes.length ↔ ∃ v, Relation.TransGen r v v := by
  classical
  constructor
  · intro hlength
    have hleft : ∃ v ∈ nodes, v ∉ done := by
      by_contra hall
      push Not at hall
      exact hlength (h.nodup.subperm h.subset |>.length_le.antisymm
        (hnodup.subperm hall).length_le)
    obtain ⟨v, hv, hnot⟩ := hleft
    apply exists_cycle (l := nodes.filter fun v => v ∉ done)
    · exact ne_nil_of_mem (mem_filter.mpr ⟨hv, decide_eq_true hnot⟩)
    · intro v hv
      obtain ⟨hv, hnot⟩ := mem_filter.mp hv
      obtain ⟨u, hu, huv, hdone⟩ := hstuck v hv (of_decide_eq_true hnot)
      exact ⟨u, mem_filter.mpr ⟨hu, decide_eq_true hdone⟩, huv⟩
  · rintro ⟨v, hcycle⟩ hlength
    have hv : v ∈ nodes := by
      obtain ⟨w, hvw, -⟩ := Relation.TransGen.head'_iff.mp hcycle
      exact hr v w hvw
    have hdone : v ∈ done :=
      ((h.nodup.subperm h.subset).perm_of_length_le hlength.ge).mem_iff.mpr hv
    exact h.not_cyclic hr hdone hcycle

/-! ## Counting what a node waits for -/

/-- Counting after one more element of the list satisfies the predicate. -/
theorem countP_add_one {l : List α} (hnodup : l.Nodup) {a : α} (ha : a ∈ l) {p q : α → Bool}
    (hp : p a = false) (hq : q a = true) (hother : ∀ b ∈ l, b ≠ a → p b = q b) :
    l.countP q = l.countP p + 1 := by
  induction l with
  | nil => cases ha
  | cons b l ih =>
    obtain ⟨hb, hnodup⟩ := nodup_cons.mp hnodup
    cases mem_cons.mp ha with
    | inl heq =>
      subst heq
      have hrest : l.countP q = l.countP p := by
        apply countP_congr
        intro c hc
        have hne : c ≠ a := fun heq => hb (heq ▸ hc)
        rw [hother c (mem_cons_of_mem _ hc) hne]
      rw [countP_cons, countP_cons, hrest, hp, hq]
      rfl
    | inr hmem =>
      have hne : b ≠ a := fun heq => hb (heq ▸ hmem)
      have hrest := ih hnodup hmem fun c hc => hother c (mem_cons_of_mem _ hc)
      rw [countP_cons, countP_cons, hrest, hother b mem_cons_self hne]
      omega

variable [DecidableEq α] [DecidableRel r]

/-- The number of nodes before `v` that are not peeled yet. -/
def pending (r : α → α → Prop) [DecidableRel r] (nodes done : List α) (v : α) : ℕ :=
  nodes.countP fun u => u ∉ done ∧ r u v

theorem pending_eq_zero_iff : pending r nodes done v = 0 ↔ ∀ u ∈ nodes, r u v → u ∈ done := by
  rw [pending, countP_eq_zero]
  constructor
  · intro h u hu huv
    by_contra hnot
    exact h u hu (decide_eq_true ⟨hnot, huv⟩)
  · intro h u hu hcount
    obtain ⟨hnot, huv⟩ := of_decide_eq_true hcount
    exact hnot (h u hu huv)

/-- Peeling a node takes one off the count of each node behind it. -/
theorem pending_concat (hnodup : nodes.Nodup) {node : α} (hnode : node ∈ nodes)
    (hnew : node ∉ done) (v : α) :
    pending r nodes done v = pending r nodes (done ++ [node]) v + if r node v then 1 else 0 := by
  unfold pending
  by_cases hbefore : r node v
  · rw [if_pos hbefore]
    apply countP_add_one hnodup hnode
    · simp
    · simp [hnew, hbefore]
    · intro u hu hne
      simp [hne]
  · rw [if_neg hbefore, add_zero]
    apply countP_congr
    intro u hu
    by_cases hne : u = node
    · simp [hne, hbefore]
    · simp [hne]

end Goodmoneying.Library
