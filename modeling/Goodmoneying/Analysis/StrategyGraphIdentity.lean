import Goodmoneying.Analysis.StrategyGraphOrder

/-!
# When a strategy graph has one identity

Of nodes with one id the last one is looked up, and of ports with one name the first. A valid graph
is valid in every order exactly when its edges and outputs find what they need in every node and
port they may refer to (`passes_iff`). With `sameForm_iff` this says when reordering changes neither
the hash nor the result of the validation (`validateStrategyGraph_orderIndependent_iff`).
-/

namespace Goodmoneying.Analysis.StrategyGraphOrder

open List Library Program

variable {py : Interpreter}
variable {nodes : List GraphMapping} {nodeId side : String}
  {node graph port edge other : GraphMapping} {name : GraphValue}

/-! ## Nodes by their ids -/

/-- A node that may be looked up under an id. -/
def NamedNode (py : Interpreter) (graph : GraphMapping) (nodeId : String) (node : GraphMapping) :
    Prop :=
  node ∈ graphNodes graph ∧ node.get "id" ≠ .null ∧ py.str (node.get "id") = nodeId

theorem eq_null_eq_false {value : GraphValue} : value.eq .null = false ↔ value ≠ .null := by
  rw [← Bool.not_eq_true, eq_null_iff]

theorem mem_pairs :
    (nodeId, node) ∈ ((nodes.filter fun node => !(node.get "id").eq .null).map fun node =>
        (py.str (node.get "id"), node)) ↔
      node ∈ nodes ∧ node.get "id" ≠ .null ∧ py.str (node.get "id") = nodeId := by
  simp only [mem_map, mem_filter, Bool.not_eq_true', Prod.mk.injEq, eq_null_eq_false]
  constructor
  · rintro ⟨other, ⟨hmem, hnull⟩, hid, rfl⟩
    exact ⟨hmem, hnull, hid⟩
  · rintro ⟨hmem, hnull, hid⟩
    exact ⟨node, ⟨hmem, hnull⟩, hid, rfl⟩

theorem keys_nodesById_nodup' (nodes : List GraphMapping) :
    ((nodesById py nodes).map Prod.fst).Nodup := by
  apply nodup_keys_setItems
  exact nodup_nil

/-- The node that is looked up has the id. -/
theorem namedNode_of_lookup (h : (nodesById py (graphNodes graph)).lookup nodeId = some node) :
    NamedNode py graph nodeId node :=
  mem_pairs.mp (mem_of_lookup_setItems h)

theorem mem_keys_nodesById : nodeId ∈ (nodesById py (graphNodes graph)).map Prod.fst ↔
      ∃ node, NamedNode py graph nodeId node := by
  rw [nodesById, mem_keys_setItems, map_nil]
  constructor
  · rintro (h | h)
    · simp at h
    · obtain ⟨⟨other, node⟩, hmem, rfl⟩ := mem_map.mp h
      exact ⟨node, mem_pairs.mp hmem⟩
  · rintro ⟨node, hnode⟩
    exact .inr (mem_map.mpr ⟨(nodeId, node), mem_pairs.mpr hnode, rfl⟩)

/-- Some node is looked up where one has the id. -/
theorem exists_lookup (h : ∃ node, NamedNode py graph nodeId node) :
    ∃ node, (nodesById py (graphNodes graph)).lookup nodeId = some node := by
  have hkey := mem_keys_nodesById.mpr h
  obtain ⟨entry, hentry, hfst⟩ := mem_map.mp hkey
  exact Option.isSome_iff_exists.mp (lookup_isSome_iff.mpr ⟨entry, hentry, by simp [hfst]⟩)

/-- The last node with an id is looked up. -/
theorem lookup_nodesById_concat (hid : node.get "id" ≠ .null) (nodeId : String) :
    (nodesById py (nodes ++ [node])).lookup nodeId =
      if nodeId = py.str (node.get "id") then some node
      else (nodesById py nodes).lookup nodeId := by
  have hknown : [node].filter (fun node => !(node.get "id").eq .null) = [node] := by
    simp [eq_null_eq_false.mpr hid]
  rw [nodesById, filter_append, hknown, map_append, map_cons, map_nil,
    setItems_concat, lookup_setItem, ← nodesById]

/-! ## Ports by their names -/

/-- A port of that name on that side of a node. -/
def MatchesPort (node : GraphMapping) (side : String) (name : GraphValue) (port : GraphMapping) :
    Prop :=
  port ∈ mappingList (node.get side) ∧ (port.get "name").eq name = true

/-- The types are equal, and the timeframes are where both are given. -/
def CompatiblePorts (fromPort toPort : GraphMapping) : Prop :=
  (fromPort.get "dataType").eq (toPort.get "dataType") = true ∧
    (fromPort.get "timeframe" ≠ .null → toPort.get "timeframe" ≠ .null →
      (fromPort.get "timeframe").eq (toPort.get "timeframe") = true)

theorem matchesPort_of_findPort {node : Option GraphMapping}
    (h : findPort node side name = some port) :
    ∃ found, node = some found ∧ MatchesPort found side name port := by
  cases node with
  | none => simp [findPort] at h
  | some node =>
    rw [findPort] at h
    exact ⟨node, rfl, mem_of_find?_eq_some h,
      List.find?_some (p := fun port : GraphMapping => (port.get "name").eq name) h⟩

theorem exists_findPort (h : MatchesPort node side name port) :
    ∃ found, findPort (some node) side name = some found :=
  Option.isSome_iff_exists.mp (List.find?_isSome.mpr ⟨port, h.1, h.2⟩)

theorem edgeErrors_eq_nil_iff {known : List (String × GraphMapping)} {index : ℕ} :
    edgeErrors py known index edge = [] ↔ ∃ fromPort toPort,
      findPort (known.lookup (edgeEnds py edge).1) "output_ports" (edge.get "from_port") =
        some fromPort ∧
      findPort (known.lookup (edgeEnds py edge).2) "input_ports" (edge.get "to_port") =
        some toPort ∧ CompatiblePorts fromPort toPort := by
  rw [edgeErrors, edgeEnds]
  cases hfrom : findPort (known.lookup (py.str (edge.getText "from_node"))) "output_ports"
      (edge.get "from_port") with
  | none => simp
  | some fromPort =>
    cases hto : findPort (known.lookup (py.str (edge.getText "to_node"))) "input_ports"
        (edge.get "to_port") with
    | none => simp
    | some toPort =>
      simp only [append_eq_nil_iff, ite_singleton_eq_nil, not_not, eq_null_iff,
        Option.some.injEq, not_and]
      constructor
      · exact fun h => ⟨fromPort, toPort, rfl, rfl, h⟩
      · rintro ⟨_, _, rfl, rfl, h⟩
        exact h

theorem outputErrors_eq_nil_iff {known : List (String × GraphMapping)} {output : GraphMapping} :
    outputErrors py known output = [] ↔ ∃ port,
      findPort (known.lookup (py.str (output.getText "node"))) "output_ports"
        (output.get "port") = some port := by
  rw [outputErrors, ite_singleton_eq_nil, ← Option.ne_none_iff_exists']

/-! ## Valid graphs -/

/-- A graph in which the validation finds nothing. -/
structure Passes (py : Interpreter) (graph : GraphMapping) : Prop where
  has_output : graphOutputs graph ≠ []
  nodes : ∀ node ∈ graphNodes graph, nodeErrors py node = .ok []
  edges : ∀ edge ∈ graphEdges graph, ∀ index,
    edgeErrors py (nodesById py (graphNodes graph)) index edge = []
  acyclic : hasCycle py (scanEdges py (nodesById py (graphNodes graph)) (graphEdges graph)) = false
  outputs : ∀ output ∈ graphOutputs graph,
    outputErrors py (nodesById py (graphNodes graph)) output = []

theorem collectedErrors_eq_nil {ofNodes : List (List StrategyValidationError)}
    (hofNodes : (graphNodes graph).mapM (nodeErrors py) = .ok ofNodes) :
    collectedErrors py graph ofNodes = [] ↔ Passes py graph := by
  obtain ⟨hback, hforth⟩ := mem_of_mapM_eq_ok hofNodes
  simp only [collectedErrors, append_eq_nil_iff, ite_singleton_eq_nil, flatMap_eq_nil_iff,
    flatten_eq_nil_iff, Bool.not_eq_true]
  constructor
  · rintro ⟨⟨⟨⟨houtput, hnodes⟩, hedges⟩, hacyclic⟩, houtputs⟩
    refine ⟨houtput, fun node hnode => ?_, fun edge hedge index => ?_, hacyclic, houtputs⟩
    · obtain ⟨errors, herrors, hok⟩ := hforth node hnode
      rw [hok, hnodes errors herrors]
    · rw [← zipIdx_map_fst 0 (graphEdges graph)] at hedge
      obtain ⟨item, hitem, rfl⟩ := mem_map.mp hedge
      rw [edgeErrors_eq_nil_iff]
      exact edgeErrors_eq_nil_iff.mp (hedges item hitem)
  · intro h
    refine ⟨⟨⟨⟨h.has_output, fun errors herrors => ?_⟩, fun item hitem => ?_⟩, h.acyclic⟩,
      h.outputs⟩
    · obtain ⟨node, hnode, hok⟩ := hback errors herrors
      rw [h.nodes node hnode] at hok
      exact (Except.ok.inj hok).symm
    · exact h.edges item.1 (fst_mem_of_mem_zipIdx hitem) item.2

/-- The result where nothing is found. -/
def validResult (py : Interpreter) (graph : GraphMapping) : StrategyValidationResult where
  valid := true
  errors := []
  graphHash := canonicalStrategyGraphHash py graph

theorem validateStrategyGraph_eq_valid :
    validateStrategyGraph py graph = .ok (validResult py graph) ↔ Passes py graph := by
  rw [validateStrategyGraph_eq_ok]
  constructor
  · rintro ⟨ofNodes, hofNodes, hresult⟩
    have herrors := congrArg StrategyValidationResult.errors hresult
    exact (collectedErrors_eq_nil hofNodes).mp (deduplicateErrors_eq_nil_iff.mp herrors.symm)
  · intro h
    obtain ⟨ofNodes, hofNodes⟩ := mapM_isOk_iff.mpr fun node hnode =>
      ⟨[], h.nodes node hnode⟩
    have hempty := deduplicateErrors_eq_nil_iff.mpr ((collectedErrors_eq_nil hofNodes).mpr h)
    exact ⟨ofNodes, hofNodes, by rw [hempty]; rfl⟩

/-- A result that says valid is that one. -/
theorem eq_validResult {result : StrategyValidationResult}
    (h : validateStrategyGraph py graph = .ok result) (hvalid : result.valid = true) :
    result = validResult py graph := by
  obtain ⟨ofNodes, -, rfl⟩ := validateStrategyGraph_eq_ok.mp h
  have hempty : deduplicateErrors (collectedErrors py graph ofNodes) = [] := isEmpty_iff.mp hvalid
  rw [hempty]
  rfl

/-! ## Valid graphs in another order -/

/-- Edges and outputs find a port in every node that they may refer to, and all ports that an edge
may find are compatible. -/
structure ReferencesAgree (py : Interpreter) (graph : GraphMapping) : Prop where
  edges : ∀ edge ∈ graphEdges graph,
    ∀ fromNode, NamedNode py graph (edgeEnds py edge).1 fromNode →
    ∀ toNode, NamedNode py graph (edgeEnds py edge).2 toNode →
      (∃ port, MatchesPort fromNode "output_ports" (edge.get "from_port") port) ∧
      (∃ port, MatchesPort toNode "input_ports" (edge.get "to_port") port) ∧
      ∀ fromPort toPort, MatchesPort fromNode "output_ports" (edge.get "from_port") fromPort →
        MatchesPort toNode "input_ports" (edge.get "to_port") toPort →
          CompatiblePorts fromPort toPort
  outputs : ∀ output ∈ graphOutputs graph,
    ∀ node, NamedNode py graph (py.str (output.getText "node")) node →
      ∃ port, MatchesPort node "output_ports" (output.get "port") port

theorem ReorderedNode.get (h : ReorderedNode node other) {key : String} (hkey : key ∉ sides) :
    node.get key = other.get key := by
  rw [GraphMapping.get, GraphMapping.get, h.lookup hkey]

theorem ReorderedNode.nodeErrors (h : ReorderedNode node other) :
    nodeErrors py node = nodeErrors py other := by
  have hid : node.getText "id" = other.getText "id" := by
    rw [GraphMapping.getText, GraphMapping.getText, h.lookup (by decide)]
  have htype : nodeType py node = nodeType py other := by
    rw [nodeType, nodeType, GraphMapping.getText, GraphMapping.getText, h.lookup (by decide)]
  have hconfig : nodeConfig node = nodeConfig other := by
    rw [nodeConfig, nodeConfig, h.get (by decide)]
  unfold Program.nodeErrors policyAllowed
  rw [hid, htype, hconfig]

theorem ReorderedNode.matchesPort (h : ReorderedNode node other) (hside : side ∈ sides) :
    MatchesPort node side name port ↔ MatchesPort other side name port :=
  and_congr_left fun _ => (h.ports hside).mem_iff

section

variable {graph other : GraphMapping}

/-- A node of a reordering is a node of the graph with its ports in some order. -/
theorem Reordered.exists_node (h : Reordered graph other) {node' : GraphMapping}
    (hnode' : node' ∈ graphNodes other) : ∃ node ∈ graphNodes graph, ReorderedNode node node' := by
  obtain ⟨between, hperm, hnodes⟩ := h.exists_nodes
  obtain ⟨node, hnode, hreorder⟩ := exists_of_forall₂ hnodes node' hnode'
  exact ⟨node, hperm.mem_iff.mpr hnode, hreorder⟩

theorem Reordered.exists_node' (h : Reordered graph other) (hnode : node ∈ graphNodes graph) :
    ∃ node' ∈ graphNodes other, ReorderedNode node node' := by
  obtain ⟨between, hperm, hnodes⟩ := h.exists_nodes
  obtain ⟨node', hnode', hreorder⟩ := exists_of_forall₂ hnodes.flip node
    (hperm.mem_iff.mp hnode)
  exact ⟨node', hnode', hreorder⟩

theorem Reordered.exists_namedNode (h : Reordered graph other) {node' : GraphMapping}
    (hnode' : NamedNode py other nodeId node') :
    ∃ node, NamedNode py graph nodeId node ∧ ReorderedNode node node' := by
  obtain ⟨node, hnode, hreorder⟩ := h.exists_node hnode'.1
  have hid := hreorder.get (show "id" ∉ sides by decide)
  exact ⟨node, ⟨hnode, hid ▸ hnode'.2.1, hid ▸ hnode'.2.2⟩, hreorder⟩

theorem Reordered.exists_namedNode_iff (h : Reordered graph other) :
    (∃ node, NamedNode py graph nodeId node) ↔ ∃ node, NamedNode py other nodeId node := by
  constructor
  · rintro ⟨node, hnode⟩
    obtain ⟨node', hnode', hreorder⟩ := h.exists_node' hnode.1
    have hid := hreorder.get (show "id" ∉ sides by decide)
    exact ⟨node', hnode', hid ▸ hnode.2.1, hid ▸ hnode.2.2⟩
  · rintro ⟨node', hnode'⟩
    obtain ⟨node, hnode, -⟩ := h.exists_namedNode hnode'
    exact ⟨node, hnode⟩

/-- A cycle does not depend on the order. -/
theorem Reordered.hasCycle (h : Reordered graph other) :
    hasCycle py (scanEdges py (nodesById py (graphNodes graph)) (graphEdges graph)) =
      hasCycle py (scanEdges py (nodesById py (graphNodes other)) (graphEdges other)) := by
  have hbetween : EdgeBetween py ((nodesById py (graphNodes graph)).map Prod.fst)
        (graphEdges graph) =
      EdgeBetween py ((nodesById py (graphNodes other)).map Prod.fst) (graphEdges other) := by
    funext u v
    have hedges : ∀ edge, edge ∈ graphEdges graph ↔ edge ∈ graphEdges other := fun edge =>
      (perm_of_shuffled h.edges).mem_iff
    simp only [EdgeBetween, mem_keys_nodesById, h.exists_namedNode_iff, hedges]
  rw [Bool.eq_iff_iff, hasCycle_iff py (keys_nodesById_nodup' _),
    hasCycle_iff py (keys_nodesById_nodup' _), hbetween]

/-- Where edges and outputs find what they need in every node and port, a valid graph is valid in
every order. -/
theorem Passes.reordered (hpasses : Passes py graph) (hagree : ReferencesAgree py graph)
    (h : Reordered graph other) : Passes py other where
  has_output hempty := by
    have hperm := perm_of_shuffled h.outputs
    unfold graphOutputs at hempty
    rw [hempty, perm_nil] at hperm
    exact hpasses.has_output hperm
  nodes node' hnode' := by
    obtain ⟨node, hnode, hreorder⟩ := h.exists_node hnode'
    rw [← hreorder.nodeErrors]
    exact hpasses.nodes node hnode
  edges edge hedge index := by
    have hmem := (perm_of_shuffled h.edges).mem_iff.mpr hedge
    obtain ⟨_, _, hfrom, hto, -⟩ := edgeErrors_eq_nil_iff.mp (hpasses.edges edge hmem 0)
    obtain ⟨fromNode, hfromNode, -⟩ := matchesPort_of_findPort hfrom
    obtain ⟨toNode, htoNode, -⟩ := matchesPort_of_findPort hto
    obtain ⟨fromNode', hfrom'⟩ := exists_lookup
      (h.exists_namedNode_iff.mp ⟨fromNode, namedNode_of_lookup hfromNode⟩)
    obtain ⟨toNode', hto'⟩ := exists_lookup
      (h.exists_namedNode_iff.mp ⟨toNode, namedNode_of_lookup htoNode⟩)
    obtain ⟨source, hsource, hsource'⟩ := h.exists_namedNode (namedNode_of_lookup hfrom')
    obtain ⟨target, htarget, htarget'⟩ := h.exists_namedNode (namedNode_of_lookup hto')
    obtain ⟨⟨port, hport⟩, ⟨port', hport'⟩, hcompatible⟩ :=
      hagree.edges edge hmem source hsource target htarget
    obtain ⟨fromPort, hfromPort⟩ := exists_findPort
      ((hsource'.matchesPort (by decide)).mp hport)
    obtain ⟨toPort, htoPort⟩ := exists_findPort ((htarget'.matchesPort (by decide)).mp hport')
    refine edgeErrors_eq_nil_iff.mpr ⟨fromPort, toPort, hfrom' ▸ hfromPort, hto' ▸ htoPort,
      hcompatible fromPort toPort ?_ ?_⟩
    · obtain ⟨_, heq, hmatch⟩ := matchesPort_of_findPort hfromPort
      obtain rfl := Option.some.inj heq
      exact (hsource'.matchesPort (by decide)).mpr hmatch
    · obtain ⟨_, heq, hmatch⟩ := matchesPort_of_findPort htoPort
      obtain rfl := Option.some.inj heq
      exact (htarget'.matchesPort (by decide)).mpr hmatch
  acyclic := by rw [← h.hasCycle, hpasses.acyclic]
  outputs output houtput := by
    have hmem := (perm_of_shuffled h.outputs).mem_iff.mpr houtput
    obtain ⟨_, hfound⟩ := outputErrors_eq_nil_iff.mp (hpasses.outputs output hmem)
    obtain ⟨node, hnode, -⟩ := matchesPort_of_findPort hfound
    obtain ⟨node', hnode'⟩ := exists_lookup
      (h.exists_namedNode_iff.mp ⟨node, namedNode_of_lookup hnode⟩)
    obtain ⟨source, hsource, hsource'⟩ := h.exists_namedNode (namedNode_of_lookup hnode')
    obtain ⟨port, hport⟩ := hagree.outputs output hmem source hsource
    obtain ⟨found, hfound⟩ := exists_findPort ((hsource'.matchesPort (by decide)).mp hport)
    exact outputErrors_eq_nil_iff.mpr ⟨found, hnode' ▸ hfound⟩

/-- Two nodes can come last, with their ports in any order. -/
theorem exists_reordered_last {first second first' second' : GraphMapping}
    (hfirst : first ∈ graphNodes graph) (hsecond : second ∈ graphNodes graph)
    (hne : second ≠ first) (hfirst' : ReorderedNode first first')
    (hsecond' : ReorderedNode second second') :
    ∃ other rest, Reordered graph other ∧ graphNodes other = rest ++ [first'] ++ [second'] := by
  obtain ⟨before, after, hnodes⟩ := append_of_mem hfirst
  have hmem : second ∈ before ++ after := by
    rw [hnodes] at hsecond
    simpa [hne] using hsecond
  obtain ⟨front, back, hrest⟩ := append_of_mem hmem
  have hperm : (graphNodes graph).Perm (front ++ back ++ [first] ++ [second]) := by
    calc graphNodes graph
        = before ++ first :: after := hnodes
      _ |>.Perm (first :: (front ++ second :: back)) := hrest ▸ perm_middle
      _ |>.Perm ([first, second] ++ (front ++ back)) := perm_middle.cons first
      _ |>.Perm (front ++ back ++ [first, second]) := perm_append_comm
      _ = front ++ back ++ [first] ++ [second] := by simp
  obtain ⟨other, hother, hlist⟩ := exists_reordered hperm
    (rel_append (rel_append
      (forall₂_same.mpr fun node _ => ReorderedNode.refl node) (.cons hfirst' .nil))
      (.cons hsecond' .nil))
  exact ⟨other, _, hother, hlist⟩

/-- In a valid graph no edge leads from an id to itself. -/
theorem Passes.ends_ne (hpasses : Passes py graph) (hedge : edge ∈ graphEdges graph)
    (hnode : NamedNode py graph (edgeEnds py edge).1 node) :
    (edgeEnds py edge).1 ≠ (edgeEnds py edge).2 := by
  intro heq
  have hkey := mem_keys_nodesById.mpr ⟨node, hnode⟩
  have hcycle := (hasCycle_iff py (keys_nodesById_nodup' _) (graphEdges graph)).mpr
    ⟨(edgeEnds py edge).1, .single ⟨⟨edge, hedge, Prod.ext rfl heq.symm⟩, hkey, hkey⟩⟩
  rw [hpasses.acyclic] at hcycle
  cases hcycle

/-- Where a graph is valid in every order, an edge finds compatible ports in all nodes that it may
refer to, whatever order their ports are put into. -/
theorem Passes.edge_reordered (hpasses : Passes py graph)
    (h : ∀ other, Reordered graph other → Passes py other) (hedge : edge ∈ graphEdges graph)
    {fromNode toNode fromNode' toNode' : GraphMapping}
    (hfrom : NamedNode py graph (edgeEnds py edge).1 fromNode)
    (hto : NamedNode py graph (edgeEnds py edge).2 toNode)
    (hfrom' : ReorderedNode fromNode fromNode') (hto' : ReorderedNode toNode toNode') :
    ∃ fromPort toPort,
      findPort (some fromNode') "output_ports" (edge.get "from_port") = some fromPort ∧
      findPort (some toNode') "input_ports" (edge.get "to_port") = some toPort ∧
        CompatiblePorts fromPort toPort := by
  have hends := hpasses.ends_ne hedge hfrom
  have hne : toNode ≠ fromNode := by
    rintro rfl
    exact hends (hfrom.2.2.symm.trans hto.2.2)
  obtain ⟨other, rest, hother, hnodes⟩ := exists_reordered_last hfrom.1 hto.1 hne hfrom' hto'
  have hfromId := hfrom'.get (show "id" ∉ sides by decide)
  have htoId := hto'.get (show "id" ∉ sides by decide)
  have hedge' : edge ∈ graphEdges other := (perm_of_shuffled hother.edges).mem_iff.mp hedge
  have hfound := edgeErrors_eq_nil_iff.mp ((h other hother).edges edge hedge' 0)
  rw [hnodes, lookup_nodesById_concat (htoId ▸ hto.2.1),
    lookup_nodesById_concat (hfromId ▸ hfrom.2.1), lookup_nodesById_concat (htoId ▸ hto.2.1),
    ← htoId, hto.2.2, ← hfromId, hfrom.2.2, if_neg hends, if_pos rfl, if_pos rfl] at hfound
  exact hfound

/-- A port that comes first on its side is found. -/
theorem findPort_first {rest : List GraphMapping}
    (hports : mappingList (node.get side) = port :: rest)
    (hname : (port.get "name").eq name = true) : findPort (some node) side name = some port := by
  rw [findPort, hports]
  exact List.find?_cons_of_pos hname

/-- A valid graph is valid in every order exactly when its edges and outputs find what they need in
every node and port. -/
theorem passes_iff (hpasses : Passes py graph) :
    (∀ other, Reordered graph other → Passes py other) ↔ ReferencesAgree py graph := by
  refine ⟨fun h => ⟨fun edge hedge fromNode hfrom toNode hto => ?_, fun output houtput node hnode =>
    ?_⟩, fun hagree other hother => hpasses.reordered hagree hother⟩
  · obtain ⟨_, _, hfromPort, htoPort, -⟩ := hpasses.edge_reordered h hedge hfrom hto
      (ReorderedNode.refl fromNode) (ReorderedNode.refl toNode)
    obtain ⟨_, hfromNode, hmatch⟩ := matchesPort_of_findPort hfromPort
    obtain ⟨_, htoNode, hmatch'⟩ := matchesPort_of_findPort htoPort
    obtain rfl := Option.some.inj hfromNode
    obtain rfl := Option.some.inj htoNode
    refine ⟨⟨_, hmatch⟩, ⟨_, hmatch'⟩, fun fromPort toPort hfromMatch htoMatch => ?_⟩
    -- the nodes with these ports in front
    obtain ⟨source, _, hsource, hports⟩ := exists_reorderedNode_first
      (show "output_ports" ∈ sides by decide) hfromMatch.1
    obtain ⟨target, _, htarget, hports'⟩ := exists_reorderedNode_first
      (show "input_ports" ∈ sides by decide) htoMatch.1
    obtain ⟨first, second, hfirst, hsecond, hcompatible⟩ :=
      hpasses.edge_reordered h hedge hfrom hto hsource htarget
    rw [findPort_first hports hfromMatch.2, Option.some.injEq] at hfirst
    rw [findPort_first hports' htoMatch.2, Option.some.injEq] at hsecond
    rwa [hfirst, hsecond]
  · obtain ⟨before, after, hnodes⟩ := append_of_mem hnode.1
    have hperm : (graphNodes graph).Perm (before ++ after ++ [node]) := by
      rw [hnodes, append_assoc]
      have hswap : ([node] ++ after).Perm (after ++ [node]) := perm_append_comm
      exact hswap.append_left before
    obtain ⟨other, hother, hlist⟩ := exists_reordered hperm
      (forall₂_same.mpr fun node _ => ReorderedNode.refl node)
    have houtput' : output ∈ graphOutputs other :=
      (perm_of_shuffled hother.outputs).mem_iff.mp houtput
    obtain ⟨port, hport⟩ := outputErrors_eq_nil_iff.mp ((h other hother).outputs output houtput')
    rw [hlist, lookup_nodesById_concat hnode.2.1, if_pos hnode.2.2.symm] at hport
    obtain ⟨_, heq, hmatch⟩ := matchesPort_of_findPort hport
    obtain rfl := Option.some.inj heq
    exact ⟨port, hmatch⟩

end

/-! ## One identity -/

/-- Of the reorderings of a graph, those that are written like it have its digest, and no others. -/
def DigestTells (py : Interpreter) (graph : GraphMapping) : Prop :=
  ∀ other, Reordered graph other →
    (canonicalStrategyGraphHash py other = canonicalStrategyGraphHash py graph ↔
      SameForm py graph other)

/-- The hash and the result of a valid graph are those of all its reorderings if and only if ports
of one name are one port, nodes of one id and type are one node, and edges and outputs find what
they need in every node and port that they may refer to.
SOURCE: strategy_graph.py:66-210, 213-313 -/
theorem validateStrategyGraph_orderIndependent_iff {graph : GraphMapping}
    (hdigest : DigestTells py graph) {result : StrategyValidationResult}
    (hresult : validateStrategyGraph py graph = .ok result) (hvalid : result.valid = true) :
    (∀ other, Reordered graph other →
      canonicalStrategyGraphHash py other = canonicalStrategyGraphHash py graph ∧
        validateStrategyGraph py other = .ok result) ↔
      NamesDetermine py graph ∧ ReferencesAgree py graph := by
  obtain rfl := eq_validResult hresult hvalid
  have hpasses := validateStrategyGraph_eq_valid.mp hresult
  rw [← sameForm_iff, ← passes_iff hpasses]
  constructor
  · intro h
    refine ⟨fun other hother => (hdigest other hother).mp (h other hother).1,
      fun other hother => validateStrategyGraph_eq_valid.mp ?_⟩
    obtain ⟨hhash, hother⟩ := h other hother
    rw [hother, validResult, validResult, hhash]
  · rintro ⟨hforms, hpasses⟩ other hother
    have hhash := (hdigest other hother).mpr (hforms other hother)
    refine ⟨hhash, ?_⟩
    rw [validateStrategyGraph_eq_valid.mpr (hpasses other hother), validResult, validResult, hhash]

/-! ## Two nodes of one id -/

mutual

/-- The texts of a value, one after another. -/
def texts : GraphValue → String
  | .text value => value
  | .list items => textsOfItems items
  | .mapping entries => textsOfEntries entries
  | _ => ""

def textsOfItems : List GraphValue → String
  | [] => ""
  | item :: items => texts item ++ " " ++ textsOfItems items

def textsOfEntries : List (String × GraphValue) → String
  | [] => ""
  | (_, value) :: entries => texts value ++ " " ++ textsOfEntries entries

end

/-- An interpreter with the texts of a value as its digest. -/
def textInterpreter : Interpreter := { plainInterpreter with sha256 := texts }

/-- A constant with an output port. -/
def constantNode (value port : String) : GraphMapping :=
  [("id", .text "a"), ("type", .text "constant"), ("config", .mapping [("value", .text value)]),
    ("output_ports", .list [.mapping [("name", .text port)]])]

/-- A graph of constants with the port `out` of the node `a` as the output. -/
def constantGraph (nodes : List GraphMapping) : GraphMapping :=
  [("nodes", .list (nodes.map .mapping)), ("edges", .list []),
    ("outputs", .list [.mapping [("node", .text "a"), ("port", .text "out")]])]

theorem reordered_constantGraph {others : List GraphMapping} (h : nodes.Perm others) :
    Reordered (constantGraph nodes) (constantGraph others) where
  nodes := .some ⟨_, h.map _, forall₂_same.mpr fun item _ => ReorderedItem.refl item⟩
  edges := .some (List.Perm.refl _)
  outputs := .some (List.Perm.refl _)
  rest key hkey := by
    have hne : key ≠ "nodes" := by rintro rfl; simp at hkey
    simp only [constantGraph, lookup_cons, beq_false_of_ne hne]

/-- The same node twice: a valid graph, the same in every order. -/
theorem validateStrategyGraph_orderIndependent_twice :
    (∀ other, Reordered (constantGraph [constantNode "1" "out", constantNode "1" "out"]) other →
      canonicalStrategyGraphHash plainInterpreter other =
          canonicalStrategyGraphHash plainInterpreter
            (constantGraph [constantNode "1" "out", constantNode "1" "out"]) ∧
        validateStrategyGraph plainInterpreter other = .ok (validResult plainInterpreter
          (constantGraph [constantNode "1" "out", constantNode "1" "out"]))) ↔
      NamesDetermine plainInterpreter
          (constantGraph [constantNode "1" "out", constantNode "1" "out"]) ∧
        ReferencesAgree plainInterpreter
          (constantGraph [constantNode "1" "out", constantNode "1" "out"]) := by
  have hnode : ∀ node ∈ graphNodes (constantGraph [constantNode "1" "out",
      constantNode "1" "out"]), node = constantNode "1" "out" := by
    intro node hnode
    rcases mem_pair.mp hnode with h | h <;> exact h
  have hnames : NamesDetermine plainInterpreter
      (constantGraph [constantNode "1" "out", constantNode "1" "out"]) := by
    constructor
    case ports =>
      intro node hmem side hside port hport other hother _
      rw [hnode node hmem] at hport hother
      rcases mem_pair.mp hside with rfl | rfl
      · simp [constantNode, GraphMapping.get, mappingList, lookup_cons] at hport
      · rw [mem_singleton.mp hport, mem_singleton.mp hother]
    case nodes =>
      intro node hmem other hmem' _
      rw [hnode node hmem, hnode other hmem']
      exact ⟨rfl, fun side _ => List.Perm.refl _⟩
  have hany : (validateStrategyGraph plainInterpreter (constantGraph [constantNode "1" "out",
      constantNode "1" "out"])).toOption.any StrategyValidationResult.valid = true := by
    decide +kernel
  obtain ⟨result, hresult, hvalid⟩ := (Option.any_eq_true _ _).mp hany
  obtain rfl := eq_validResult (mem_toOption.mp hresult) hvalid
  exact validateStrategyGraph_orderIndependent_iff
    (fun other hother => iff_of_true rfl (sameForm_iff.mpr hnames other hother))
    (mem_toOption.mp hresult) hvalid

/-- Two nodes of one id make a valid graph that has another hash when they are exchanged, and one
that is not valid any more when they are. -/
theorem validateStrategyGraph_orderDependent :
    (Reordered (constantGraph [constantNode "1" "out", constantNode "2" "out"])
        (constantGraph [constantNode "2" "out", constantNode "1" "out"]) ∧
      (validateStrategyGraph textInterpreter
        (constantGraph [constantNode "1" "out", constantNode "2" "out"])).toOption.any
          StrategyValidationResult.valid = true ∧
      canonicalStrategyGraphHash textInterpreter
          (constantGraph [constantNode "1" "out", constantNode "2" "out"]) ≠
        canonicalStrategyGraphHash textInterpreter
          (constantGraph [constantNode "2" "out", constantNode "1" "out"])) ∧
    Reordered (constantGraph [constantNode "1" "in", constantNode "1" "out"])
        (constantGraph [constantNode "1" "out", constantNode "1" "in"]) ∧
      (validateStrategyGraph textInterpreter
        (constantGraph [constantNode "1" "in", constantNode "1" "out"])).toOption.any
          StrategyValidationResult.valid = true ∧
      (validateStrategyGraph textInterpreter
        (constantGraph [constantNode "1" "out", constantNode "1" "in"])).toOption.any
          StrategyValidationResult.valid = false := by
  refine ⟨⟨reordered_constantGraph (.swap _ _ _), ?_, ?_⟩, reordered_constantGraph (.swap _ _ _),
    ?_, ?_⟩
  all_goals decide +kernel

end Goodmoneying.Analysis.StrategyGraphOrder
