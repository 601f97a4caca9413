import Goodmoneying.Library.Peeling
import Goodmoneying.Program.StrategyGraph

/-!
# The search for cycles

The loop over the edges counts for every known node how many nodes lead to it (`counted_scanEdges`).
The rounds of the search peel the graph (`Scanned`), in whatever order a set is gone through, and
end when nothing more can be peeled (`ready_eq_nil`). So a cycle is reported exactly when there is
one (`hasCycle_iff`).
-/

namespace Goodmoneying.Analysis

open List Library Program

variable {scan : CycleScan} {known : List (String × GraphMapping)}
variable (py : Interpreter)

theorem keys_release (scan : CycleScan) (target : String) :
    (scan.release target).remaining.map Prod.fst = scan.remaining.map Prod.fst := by
  rw [CycleScan.release, map_map]
  apply map_congr_left
  intro entry _
  by_cases h : entry.1 = target
  · simp [h]
  · simp [h]

theorem lookup_release (scan : CycleScan) (target v : String) :
    (scan.release target).remaining.lookup v =
      (scan.remaining.lookup v).map fun count => if v = target then count - 1 else count := by
  have hmap : (scan.release target).remaining = scan.remaining.map fun entry =>
      (entry.1, if entry.1 = target then entry.2 - 1 else entry.2) := by
    apply map_congr_left
    intro entry _
    by_cases h : entry.1 = target
    · simp [h]
    · simp [h]
  rw [hmap]
  exact lookup_map_value (fun key count => if key = target then count - 1 else count) _ v

/-- What going through the targets of a node does. -/
theorem foldl_release {targets : List String} (hnodup : targets.Nodup) (scan : CycleScan) :
    (targets.foldl CycleScan.release scan).visited = scan.visited ∧
    (targets.foldl CycleScan.release scan).remaining.map Prod.fst =
      scan.remaining.map Prod.fst ∧
    (∀ v, (targets.foldl CycleScan.release scan).remaining.lookup v =
      (scan.remaining.lookup v).map fun count => if v ∈ targets then count - 1 else count) ∧
    (targets.foldl CycleScan.release scan).ready =
      scan.ready ++ targets.filter fun v => scan.remaining.lookup v = some 1 := by
  induction targets generalizing scan with
  | nil => simp
  | cons target targets ih =>
    obtain ⟨hnew, hnodup⟩ := nodup_cons.mp hnodup
    obtain ⟨hvisited, hkeys, hlookup, hready⟩ := ih hnodup (scan.release target)
    rw [foldl_cons]
    refine ⟨hvisited, hkeys.trans (keys_release scan target), ?_, ?_⟩
    · intro v
      rw [hlookup, lookup_release, Option.map_map]
      congr 1
      funext count
      by_cases hv : v = target
      · subst hv
        simp [hnew]
      · simp [hv]
    · rw [hready]
      have hrest : (targets.filter fun v => (scan.release target).remaining.lookup v = some 1) =
          targets.filter fun v => scan.remaining.lookup v = some 1 := by
        apply filter_congr
        intro v hv
        have hne : v ≠ target := fun heq => hnew (heq ▸ hv)
        simp [lookup_release, hne]
      have hfirst : (scan.release target).remaining.lookup target = some 0 ↔
          scan.remaining.lookup target = some 1 := by
        rw [lookup_release]
        cases scan.remaining.lookup target with
        | none => simp
        | some count =>
          simp only [if_true, Option.map_some, Option.some.injEq]
          omega
      have hpush : (scan.release target).ready =
          if (scan.release target).remaining.lookup target = some 0 then scan.ready ++ [target]
          else scan.ready := rfl
      rw [hrest, hpush, filter_cons]
      by_cases hone : scan.remaining.lookup target = some 1
      · rw [if_pos (hfirst.mpr hone), if_pos (decide_eq_true hone), append_assoc]
        rfl
      · rw [if_neg (mt hfirst.mp hone), if_neg (by simpa using hone)]

variable {targets : String → List String} {nodes done : List String}

/-- `u` leads to `v`. -/
abbrev Leads (targets : String → List String) (u v : String) : Prop := v ∈ targets u

/-- The variables of the loop when the nodes of `done` have been taken. -/
structure Scanned (targets : String → List String) (nodes done : List String)
    (scan : CycleScan) : Prop where
  peels : Peels (Leads targets) nodes done
  visited : scan.visited = done.length
  keys : scan.remaining.map Prod.fst = nodes
  remaining : ∀ v ∈ nodes,
    scan.remaining.lookup v = some (pending (Leads targets) nodes done v : ℤ)
  ready_nodup : scan.ready.Nodup
  mem_ready : ∀ v, v ∈ scan.ready ↔
    v ∈ nodes ∧ v ∉ done ∧ pending (Leads targets) nodes done v = 0

/-- Taking a ready node. -/
theorem Scanned.round {node : String} {ready : List String} (h : Scanned targets nodes done scan)
    (hready : scan.ready = node :: ready) (hnodes : nodes.Nodup) (hnodup : (targets node).Nodup)
    (hsub : targets node ⊆ nodes) :
    Scanned targets nodes (done ++ [node])
      ((py.setOrder (targets node)).foldl CycleScan.release
        { scan with ready := ready, visited := scan.visited + 1 }) := by
  have hperm := py.setOrder_perm (targets node)
  obtain ⟨hvisited, hkeys, hlookup, hpushed⟩ := foldl_release (hperm.nodup_iff.mpr hnodup)
    { scan with ready := ready, visited := scan.visited + 1 }
  have hnode := (h.mem_ready node).mp (hready ▸ mem_cons_self)
  obtain ⟨hnode, hnew, hzero⟩ := hnode
  have hcount := pending_concat (r := Leads targets) hnodes hnode hnew
  have hready_nodup := nodup_cons.mp (hready ▸ h.ready_nodup)
  -- a node that waits for nothing but `node` is not taken yet, nor is it ready
  have hwaiting : ∀ v, pending (Leads targets) nodes done v ≠ 0 → v ∉ done ++ [node] := by
    intro v hpending hmem
    apply hpending
    rcases mem_append.mp hmem with hdone | heq
    · exact pending_eq_zero_iff.mpr fun u hu huv => h.peels.closed hdone hu huv
    · rw [mem_singleton.mp heq]
      exact hzero
  have hlookup_one : ∀ v ∈ targets node,
      scan.remaining.lookup v = some 1 ↔ pending (Leads targets) nodes done v = 1 := by
    intro v hv
    rw [h.remaining v (hsub hv), Option.some.injEq]
    omega
  constructor
  case peels => exact h.peels.concat hnode hnew (pending_eq_zero_iff.mp hzero)
  case visited => rw [hvisited, h.visited, length_append, length_singleton]
  case keys => exact hkeys.trans h.keys
  case remaining =>
    intro v hv
    have hcount := hcount v
    rw [hlookup, h.remaining v hv, Option.map_some, Option.some.injEq]
    by_cases hlead : v ∈ targets node
    · rw [if_pos hlead] at hcount
      rw [if_pos (hperm.mem_iff.mpr hlead)]
      omega
    · rw [if_neg hlead] at hcount
      rw [if_neg (mt hperm.mem_iff.mp hlead)]
      omega
  case ready_nodup =>
    rw [hpushed]
    apply hready_nodup.2.append ((hperm.nodup_iff.mpr hnodup).filter _)
    intro v hv hpush
    obtain ⟨hmem, hone⟩ := mem_filter.mp hpush
    have hone := (hlookup_one v (hperm.mem_iff.mp hmem)).mp (of_decide_eq_true hone)
    have hzero := ((h.mem_ready v).mp (hready ▸ mem_cons_of_mem _ hv)).2.2
    omega
  case mem_ready =>
    intro v
    rw [hpushed, mem_append, mem_filter, hperm.mem_iff]
    constructor
    · rintro (hold | ⟨hlead, hone⟩)
      · obtain ⟨hv, hdone, hpending⟩ := (h.mem_ready v).mp (hready ▸ mem_cons_of_mem _ hold)
        have hne : v ≠ node := fun heq => hready_nodup.1 (heq ▸ hold)
        refine ⟨hv, by simp [hdone, hne], ?_⟩
        have hcount := hcount v
        omega
      · have hone := (hlookup_one v hlead).mp (of_decide_eq_true hone)
        refine ⟨hsub hlead, hwaiting v (by omega), ?_⟩
        have hcount := hcount v
        rw [if_pos hlead] at hcount
        omega
    · rintro ⟨hv, hdone, hpending⟩
      have hcount := hcount v
      rw [mem_append, not_or, mem_singleton] at hdone
      by_cases hlead : v ∈ targets node
      · rw [if_pos hlead] at hcount
        right
        exact ⟨hlead, decide_eq_true ((hlookup_one v hlead).mpr (by omega))⟩
      · rw [if_neg hlead] at hcount
        left
        have hmem := (h.mem_ready v).mpr ⟨hv, hdone.1, by omega⟩
        rw [hready] at hmem
        exact (mem_cons.mp hmem).resolve_left hdone.2

/-- Any number of rounds: nothing is ready any more, or each of them has taken a node. -/
theorem Scanned.rounds (hnodes : nodes.Nodup) (hnodup : ∀ u, (targets u).Nodup)
    (hsub : ∀ u, targets u ⊆ nodes) (count : ℕ) (h : Scanned targets nodes done scan) :
    ∃ taken, Scanned targets nodes taken (cycleRounds py targets count scan) ∧
      ((cycleRounds py targets count scan).ready = [] ∨ taken.length = done.length + count) := by
  induction count generalizing done scan with
  | zero => exact ⟨done, h, Or.inr rfl⟩
  | succ count ih =>
    cases hready : scan.ready with
    | nil =>
      rw [cycleRounds, hready]
      exact ⟨done, h, Or.inl hready⟩
    | cons node ready =>
      rw [cycleRounds, hready]
      obtain ⟨taken, htaken, hlast⟩ := ih (h.round py hready hnodes (hnodup node) (hsub node))
      refine ⟨taken, htaken, hlast.imp_right fun hlength => ?_⟩
      rw [hlength, length_append, length_singleton]
      omega

/-- As many rounds as there are nodes leave nothing ready. -/
theorem Scanned.ready_eq_nil (h : Scanned targets nodes done scan)
    (hlength : done.length = nodes.length) : scan.ready = [] := by
  apply eq_nil_iff_forall_not_mem.mpr
  intro v hv
  obtain ⟨hnode, hdone, -⟩ := (h.mem_ready v).mp hv
  have hperm := (h.peels.nodup.subperm h.peels.subset).perm_of_length_le hlength.ge
  exact hdone (hperm.mem_iff.mpr hnode)

/-- When nothing is ready, nodes are left exactly when there is a cycle. -/
theorem Scanned.visited_ne_iff (h : Scanned targets nodes done scan) (hready : scan.ready = [])
    (hnodes : nodes.Nodup) (hsource : ∀ u v, Leads targets u v → u ∈ nodes) :
    scan.visited ≠ scan.remaining.length ↔ ∃ v, Relation.TransGen (Leads targets) v v := by
  have hremaining := congrArg List.length h.keys
  rw [length_map] at hremaining
  rw [h.visited, hremaining]
  apply length_ne_iff_cyclic h.peels hnodes hsource
  intro v hv hnot
  by_contra hback
  push Not at hback
  have hmem := (h.mem_ready v).mpr ⟨hv, hnot, pending_eq_zero_iff.mpr hback⟩
  rw [hready] at hmem
  cases hmem

/-- The ids that an edge names. -/
def edgeEnds (edge : GraphMapping) : String × String :=
  (py.str (edge.getText "from_node"), py.str (edge.getText "to_node"))

/-- `graph_edges` and `indegree` after the edges of `seen`. -/
structure Counted (py : Interpreter) (nodes : List String) (seen : List GraphMapping)
    (scan : EdgeScan) : Prop where
  keys : scan.indegree.map Prod.fst = nodes
  nodup : ∀ u, (scan.targets u).Nodup
  mem_targets : ∀ u v, v ∈ scan.targets u ↔
    (∃ edge ∈ seen, edgeEnds py edge = (u, v)) ∧ u ∈ nodes ∧ v ∈ nodes
  indegree : ∀ v ∈ nodes,
    scan.indegree.lookup v = some (nodes.countP fun u => v ∈ scan.targets u : ℤ)

/-- An edge counts for the node that it leads to. -/
theorem Counted.addEdge {py : Interpreter} (hnodes : (known.map Prod.fst).Nodup)
    {seen : List GraphMapping} {scan : EdgeScan} (h : Counted py (known.map Prod.fst) seen scan)
    (edge : GraphMapping) :
    Counted py (known.map Prod.fst) (seen ++ [edge]) (scan.addEdge py known edge) := by
  obtain ⟨fromNode, toNode, hends⟩ : ∃ fromNode toNode, edgeEnds py edge = (fromNode, toNode) :=
    ⟨_, _, rfl⟩
  obtain ⟨hfrom, hto⟩ := Prod.mk.inj hends
  have hseen : ∀ u v, (∃ other ∈ seen ++ [edge], edgeEnds py other = (u, v)) ↔
      (∃ other ∈ seen, edgeEnds py other = (u, v)) ∨ (fromNode, toNode) = (u, v) := by
    intro u v
    simp [← hends, or_and_right, exists_or]
  rw [EdgeScan.addEdge, hfrom, hto]
  by_cases hadd : fromNode ∈ known.map Prod.fst ∧ toNode ∈ known.map Prod.fst ∧
      toNode ∉ scan.targets fromNode
  · obtain ⟨hfrom_mem, hto_mem, hnew⟩ := hadd
    rw [if_pos ⟨hfrom_mem, hto_mem, hnew⟩]
    have htargets : ∀ u, EdgeScan.targets ⟨setItem fromNode (scan.targets fromNode ++ [toNode])
        scan.graphEdges, setItem toNode ((scan.indegree.lookup toNode).getD 0 + 1)
          scan.indegree⟩ u =
        if u = fromNode then scan.targets fromNode ++ [toNode] else scan.targets u := by
      intro u
      rw [EdgeScan.targets, lookup_setItem]
      split_ifs
      · rfl
      · rfl
    constructor
    case keys =>
      rw [keys_setItem, if_pos (h.keys ▸ hto_mem), h.keys]
    case nodup =>
      intro u
      rw [htargets]
      split_ifs
      · exact (h.nodup fromNode).append (nodup_singleton _)
          (disjoint_singleton.mpr hnew)
      · exact h.nodup u
    case mem_targets =>
      intro u v
      rw [htargets, hseen]
      by_cases hu : u = fromNode
      · subst hu
        rw [if_pos rfl, mem_append, mem_singleton, h.mem_targets]
        constructor
        · rintro (⟨hedge, hmem⟩ | rfl)
          · exact ⟨Or.inl hedge, hmem⟩
          · exact ⟨Or.inr rfl, hfrom_mem, hto_mem⟩
        · rintro ⟨hedge | heq, hmem⟩
          · exact Or.inl ⟨hedge, hmem⟩
          · exact Or.inr (congrArg Prod.snd heq).symm
      · rw [if_neg hu, h.mem_targets]
        constructor
        · rintro ⟨hedge, hmem⟩
          exact ⟨Or.inl hedge, hmem⟩
        · rintro ⟨hedge | heq, hmem⟩
          · exact ⟨hedge, hmem⟩
          · exact absurd (congrArg Prod.fst heq).symm hu
    case indegree =>
      intro v hv
      rw [lookup_setItem]
      by_cases hvto : v = toNode
      · subst hvto
        have hcount : (known.map Prod.fst).countP (fun u => v ∈ EdgeScan.targets
            ⟨setItem fromNode (scan.targets fromNode ++ [v]) scan.graphEdges,
              setItem v ((scan.indegree.lookup v).getD 0 + 1) scan.indegree⟩ u) =
            (known.map Prod.fst).countP (fun u => v ∈ scan.targets u) + 1 := by
          apply countP_add_one hnodes hfrom_mem
          · exact decide_eq_false hnew
          · rw [htargets, if_pos rfl]
            simp
          · intro u _ hne
            rw [htargets, if_neg hne]
        rw [if_pos rfl, hcount, h.indegree v hv, Option.getD_some]
        push_cast
        rfl
      · rw [if_neg hvto, h.indegree v hv]
        congr 2
        apply countP_congr
        intro u _
        rw [htargets]
        by_cases hu : u = fromNode
        · subst hu
          rw [if_pos rfl]
          simp [hvto]
        · rw [if_neg hu]
  · rw [if_neg hadd]
    constructor
    case keys => exact h.keys
    case nodup => exact h.nodup
    case indegree => exact h.indegree
    case mem_targets =>
      intro u v
      rw [hseen, h.mem_targets]
      constructor
      · rintro ⟨hedge, hmem⟩
        exact ⟨Or.inl hedge, hmem⟩
      · rintro ⟨hedge | heq, hmem⟩
        · exact ⟨hedge, hmem⟩
        · obtain ⟨rfl, rfl⟩ := Prod.mk.inj heq
          -- the edge is there already, or else it would be added
          by_contra hnot
          exact hadd ⟨hmem.1, hmem.2, fun hlead => hnot ((h.mem_targets _ _).mp hlead)⟩

/-- The scan counts, for every node, the edges that lead to it. -/
theorem counted_scanEdges (hnodes : (known.map Prod.fst).Nodup) (edges : List GraphMapping) :
    Counted py (known.map Prod.fst) edges (scanEdges py known edges) := by
  unfold scanEdges
  induction edges using List.reverseRecOn with
  | nil =>
    constructor
    case keys => rw [foldl_nil, map_map]; rfl
    case nodup => exact fun u => nodup_nil
    case mem_targets => simp [EdgeScan.targets]
    case indegree =>
      intro v hv
      obtain ⟨entry, hentry, rfl⟩ := mem_map.mp hv
      have hkeys : ((known.map fun entry => (entry.1, (0 : ℤ))).map Prod.fst) =
          known.map Prod.fst := by
        rw [map_map]
        rfl
      rw [foldl_nil, lookup_eq_some_iff_mem (hkeys ▸ hnodes)]
      have hnone : (known.map Prod.fst).countP (fun u => entry.1 ∈ EdgeScan.targets
          ⟨[], known.map fun entry => (entry.1, 0)⟩ u) = 0 := by
        simp [EdgeScan.targets]
      rw [hnone]
      exact mem_map_of_mem hentry
  | append_singleton edges edge ih =>
    rw [foldl_append]
    exact ih.addEdge hnodes edge

/-- An edge leads from one known node to another. -/
def EdgeBetween (nodes : List String) (edges : List GraphMapping) (u v : String) : Prop :=
  (∃ edge ∈ edges, edgeEnds py edge = (u, v)) ∧ u ∈ nodes ∧ v ∈ nodes

/-- The variables before the first round. -/
theorem Counted.scanned {py : Interpreter} (hnodes : nodes.Nodup) {edges : List GraphMapping}
    {scan : EdgeScan} (h : Counted py nodes edges scan) :
    Scanned scan.targets nodes []
      { remaining := scan.indegree
        ready := (scan.indegree.filter fun entry => entry.2 = 0).map Prod.fst
        visited := 0 } := by
  have hkeys := h.keys
  have hnodup : (scan.indegree.map Prod.fst).Nodup := hkeys ▸ hnodes
  have hlookup : ∀ v ∈ nodes,
      scan.indegree.lookup v = some (pending (Leads scan.targets) nodes [] v : ℤ) := by
    intro v hv
    rw [h.indegree v hv, pending]
    simp [Leads]
  constructor
  case peels => exact .nil
  case visited => rfl
  case keys => exact hkeys
  case remaining => exact hlookup
  case ready_nodup => exact hnodup.sublist (filter_sublist.map _)
  case mem_ready =>
    intro v
    have hready : v ∈ (scan.indegree.filter fun entry => entry.2 = 0).map Prod.fst ↔
        scan.indegree.lookup v = some 0 := by
      rw [lookup_eq_some_iff_mem hnodup, mem_map]
      constructor
      · rintro ⟨entry, hentry, rfl⟩
        obtain ⟨hmem, hzero⟩ := mem_filter.mp hentry
        rw [← of_decide_eq_true hzero]
        exact hmem
      · intro hmem
        exact ⟨_, mem_filter.mpr ⟨hmem, decide_eq_true rfl⟩, rfl⟩
    rw [hready]
    constructor
    · intro hzero
      have hv : v ∈ nodes := by
        rw [← hkeys]
        exact mem_map_of_mem ((lookup_eq_some_iff_mem hnodup).mp hzero)
      rw [hlookup v hv, Option.some.injEq] at hzero
      exact ⟨hv, not_mem_nil, by omega⟩
    · rintro ⟨hv, -, hzero⟩
      rw [hlookup v hv, hzero]
      rfl

/-- Cycles are found exactly where they are. -/
theorem hasCycle_iff (hnodes : (known.map Prod.fst).Nodup) (edges : List GraphMapping) :
    hasCycle py (scanEdges py known edges) = true ↔
      ∃ v, Relation.TransGen (EdgeBetween py (known.map Prod.fst) edges) v v := by
  have hcounted := counted_scanEdges py hnodes edges
  have hleads : Leads (scanEdges py known edges).targets =
      EdgeBetween py (known.map Prod.fst) edges := by
    funext u v
    exact propext (hcounted.mem_targets u v)
  have hlength : (scanEdges py known edges).indegree.length = (known.map Prod.fst).length := by
    rw [← hcounted.keys, length_map]
  obtain ⟨taken, htaken, hlast⟩ := (hcounted.scanned hnodes).rounds py hnodes hcounted.nodup
    (fun u v hv => ((hcounted.mem_targets u v).mp hv).2.2)
    (scanEdges py known edges).indegree.length
  rw [hasCycle, decide_eq_true_iff, ← hleads]
  apply htaken.visited_ne_iff _ hnodes
  · intro u v huv
    exact ((hcounted.mem_targets u v).mp huv).2.1
  · cases hlast with
    | inl hempty => exact hempty
    | inr hall =>
      apply htaken.ready_eq_nil
      rw [hall, hlength, length_nil, Nat.zero_add]

end Goodmoneying.Analysis
