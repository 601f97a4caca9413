import Goodmoneying.Library.KeyedTable
import Goodmoneying.Analysis.StrategyValidation

/-!
# Strategy graphs in another order

`Reordered` graphs differ in the order of their nodes, edges and outputs and of the ports of their
nodes. `canonical_strategy_graph_hash` sorts nodes by their id and type only and ports by their name
only: it is the same for all reorderings of a graph exactly when ports of one name on one side of a
node are the same port, and nodes of one id and type the same node, up to the order of their ports
(`sameForm_iff`).
-/

namespace Goodmoneying.Analysis.StrategyGraphOrder

open List Library Program

variable {py : Interpreter}
variable {other node graph : GraphMapping} {side : String}
variable {items others : List GraphValue} {key : String} {port : GraphMapping}

/-! ## Reorderings -/

/-- The sides of a node. -/
def sides : List String := ["input_ports", "output_ports"]

/-- The items of a list in some order; a value that is not a list stays as it is. -/
def Shuffled : GraphValue → GraphValue → Prop
  | .list items, .list others => items.Perm others
  | value, other => value = other

/-- The same node, with the ports of each side in some order. -/
def ReorderedNode (node other : GraphMapping) : Prop :=
  ∀ key, if key ∈ sides then Option.Rel Shuffled (node.lookup key) (other.lookup key)
    else node.lookup key = other.lookup key

/-- The same item, with its ports in some order where it is a node. -/
def ReorderedItem : GraphValue → GraphValue → Prop
  | .mapping node, .mapping other => ReorderedNode node other
  | value, other => value = other

/-- The items of a list in some order, each with its ports in some order. -/
def ReorderedItems : GraphValue → GraphValue → Prop
  | .list items, .list others => ∃ between, items.Perm between ∧
      List.Forall₂ ReorderedItem between others
  | value, other => value = other

/-- The same graph, with nodes, edges, outputs and ports in some order. -/
structure Reordered (graph other : GraphMapping) : Prop where
  nodes : Option.Rel ReorderedItems (graph.lookup "nodes") (other.lookup "nodes")
  edges : Option.Rel Shuffled (graph.lookup "edges") (other.lookup "edges")
  outputs : Option.Rel Shuffled (graph.lookup "outputs") (other.lookup "outputs")
  rest : ∀ key, key ∉ ["nodes", "edges", "outputs"] → graph.lookup key = other.lookup key

theorem Shuffled.refl (value : GraphValue) : Shuffled value value := by
  cases value with
  | list items => exact List.Perm.refl items
  | _ => rfl

theorem relRefl {r : GraphValue → GraphValue → Prop} (hr : ∀ value, r value value)
    (value : Option GraphValue) : Option.Rel r value value := by
  cases value with
  | none => exact .none
  | some value => exact .some (hr value)

theorem ReorderedNode.refl (node : GraphMapping) : ReorderedNode node node := by
  intro key
  split_ifs
  · exact relRefl Shuffled.refl _
  · rfl

theorem ReorderedItem.refl (value : GraphValue) : ReorderedItem value value := by
  cases value with
  | mapping node => exact ReorderedNode.refl node
  | _ => rfl

/-- The mappings of a list are a part of its items. -/
theorem mappingList_perm (h : items.Perm others) :
    (mappingList (.list items)).Perm (mappingList (.list others)) :=
  h.filterMap _

theorem perm_of_shuffled {mapping : GraphMapping}
    (h : Option.Rel Shuffled (mapping.lookup key) (other.lookup key)) :
    (mappingList (mapping.get key)).Perm (mappingList (other.get key)) := by
  unfold GraphMapping.get
  generalize mapping.lookup key = first at h ⊢
  generalize other.lookup key = second at h ⊢
  cases h with
  | none => exact List.Perm.refl _
  | some hvalue =>
    rename_i value other
    cases value with
    | list items =>
      cases other with
      | list others => exact mappingList_perm hvalue
      | _ => simp [Shuffled] at hvalue
    | _ =>
      cases hvalue
      exact List.Perm.refl _

theorem ReorderedNode.lookup (h : ReorderedNode node other) (hkey : key ∉ sides) :
    node.lookup key = other.lookup key := by
  have := h key
  rwa [if_neg hkey] at this

theorem ReorderedNode.ports (h : ReorderedNode node other) (hside : side ∈ sides) :
    (mappingList (node.get side)).Perm (mappingList (other.get side)) := by
  have := h side
  rw [if_pos hside] at this
  exact perm_of_shuffled this

theorem forall₂_mappingList (h : List.Forall₂ ReorderedItem items others) :
    List.Forall₂ ReorderedNode (mappingList (.list items)) (mappingList (.list others)) := by
  induction h with
  | nil => exact .nil
  | @cons item other _ _ hitem _ ih =>
    cases item with
    | mapping node =>
      cases other with
      | mapping other => exact .cons hitem ih
      | _ => simp [ReorderedItem] at hitem
    | _ =>
      cases hitem
      exact ih

/-- The nodes of a reordering: first the nodes are reordered, then their ports. -/
theorem Reordered.exists_nodes (h : Reordered graph other) :
    ∃ between, (graphNodes graph).Perm between ∧
      List.Forall₂ ReorderedNode between (graphNodes other) := by
  have hnodes := h.nodes
  unfold graphNodes GraphMapping.get
  generalize graph.lookup "nodes" = first at hnodes ⊢
  generalize other.lookup "nodes" = second at hnodes ⊢
  cases hnodes with
  | none => exact ⟨[], List.Perm.refl _, .nil⟩
  | some hvalue =>
    rename_i value other
    cases value with
    | list items =>
      cases other with
      | list others =>
        obtain ⟨between, hperm, hitems⟩ := hvalue
        exact ⟨_, mappingList_perm hperm, forall₂_mappingList hitems⟩
      | _ => simp [ReorderedItems] at hvalue
    | _ =>
      cases hvalue
      exact ⟨[], List.Perm.refl _, .nil⟩

/-! ## Making reorderings -/

/-- The items of a list that are no mappings. -/
def otherItems (items : List GraphValue) : List GraphValue :=
  items.filter fun item =>
    match item with
    | .mapping _ => false
    | _ => true

theorem perm_mappingList (items : List GraphValue) :
    items.Perm ((mappingList (.list items)).map .mapping ++ otherItems items) := by
  induction items with
  | nil => exact List.Perm.refl _
  | cons item items ih =>
    cases item with
    | mapping node => exact ih.cons _
    | _ => exact (ih.cons _).trans perm_middle.symm

theorem mappingList_otherItems (mappings : List GraphMapping) (items : List GraphValue) :
    mappingList (.list (mappings.map .mapping ++ otherItems items)) = mappings := by
  have hnone : mappingList (.list (otherItems items)) = [] := by
    refine filterMap_eq_nil_iff.mpr fun item hitem => ?_
    cases item with
    | mapping node => simp [otherItems] at hitem
    | _ => rfl
  have hsome : mappingList (.list (mappings.map .mapping)) = mappings := by
    induction mappings with
    | nil => rfl
    | cons mapping mappings ih => exact congrArg (mapping :: ·) ih
  calc mappingList (.list (mappings.map .mapping ++ otherItems items))
      = mappingList (.list (mappings.map .mapping)) ++ mappingList (.list (otherItems items)) :=
        by simp only [mappingList, filterMap_append]
    _ = mappings := by rw [hnone, hsome, append_nil]

/-- Every order of the ports of a side is that of a reordering. -/
theorem exists_reorderedNode (hside : side ∈ sides) {ports : List GraphMapping}
    (h : (mappingList (node.get side)).Perm ports) :
    ∃ other, ReorderedNode node other ∧ mappingList (other.get side) = ports := by
  cases hlookup : node.lookup side with
  | none =>
    have hports : ports = [] := by
      rw [GraphMapping.get, hlookup] at h
      exact h.nil_eq.symm
    exact ⟨node, ReorderedNode.refl node, by rw [GraphMapping.get, hlookup, hports]; rfl⟩
  | some value =>
    rw [GraphMapping.get, hlookup, Option.getD_some] at h
    cases value with
    | list items =>
      refine ⟨(side, .list (ports.map .mapping ++ otherItems items)) :: node, fun key => ?_, ?_⟩
      · rw [lookup_cons]
        by_cases hkey : key = side
        · subst hkey
          rw [if_pos hside, hlookup, beq_self_eq_true]
          exact .some ((perm_mappingList items).trans ((h.map _).append_right _))
        · rw [beq_false_of_ne hkey]
          exact ReorderedNode.refl node key
      · rw [GraphMapping.get, lookup_cons, beq_self_eq_true]
        exact mappingList_otherItems ports items
    | _ =>
      have hports : ports = [] := h.nil_eq.symm
      exact ⟨node, ReorderedNode.refl node, by rw [GraphMapping.get, hlookup, hports]; rfl⟩

/-- Every order of the nodes is that of a reordering, whatever order their ports are put into. -/
theorem exists_reordered {between nodes : List GraphMapping} (h : (graphNodes graph).Perm between)
    (hnodes : List.Forall₂ ReorderedNode between nodes) :
    ∃ other, Reordered graph other ∧ graphNodes other = nodes := by
  have hsame : Reordered graph graph :=
    { nodes := relRefl (fun value => by
        cases value with
        | list items => exact ⟨items, List.Perm.refl _,
            forall₂_same.mpr fun item _ => ReorderedItem.refl item⟩
        | _ => rfl) _
      edges := relRefl Shuffled.refl _
      outputs := relRefl Shuffled.refl _
      rest := fun _ _ => rfl }
  have hempty : graphNodes graph = [] → graphNodes graph = nodes := by
    intro hnil
    rw [hnil] at h
    rw [← h.nil_eq, forall₂_nil_left_iff] at hnodes
    rw [hnil, hnodes]
  cases hlookup : graph.lookup "nodes" with
  | none => exact ⟨graph, hsame, hempty (by rw [graphNodes, GraphMapping.get, hlookup]; rfl)⟩
  | some value =>
    cases value with
    | list items =>
      have hlist : graphNodes graph = mappingList (.list items) := by
        rw [graphNodes, GraphMapping.get, hlookup]
        rfl
      refine ⟨("nodes", .list (nodes.map .mapping ++ otherItems items)) :: graph, ?_, ?_⟩
      · refine { nodes := ?_, edges := ?_, outputs := ?_, rest := fun key hkey => ?_ }
        · rw [lookup_cons, beq_self_eq_true, hlookup]
          refine .some ⟨between.map .mapping ++ otherItems items, ?_, ?_⟩
          · exact (perm_mappingList items).trans (((hlist ▸ h).map _).append_right _)
          · refine rel_append ?_ (forall₂_same.mpr fun item _ => ReorderedItem.refl item)
            exact forall₂_map_left_iff.mpr (forall₂_map_right_iff.mpr hnodes)
        · exact hsame.edges
        · exact hsame.outputs
        · have hne : key ≠ "nodes" := by rintro rfl; simp at hkey
          rw [lookup_cons, beq_false_of_ne hne]
      · rw [graphNodes, GraphMapping.get, lookup_cons, beq_self_eq_true]
        exact mappingList_otherItems nodes items
    | _ => exact ⟨graph, hsame, hempty (by rw [graphNodes, GraphMapping.get, hlookup]; rfl)⟩

/-! ## What is written -/

mutual

/-- A value with the entries of its mappings in the order of their keys. -/
def sortKeys : GraphValue → GraphValue
  | .mapping entries => .mapping (sortedBy Prod.fst (sortKeysEntries entries))
  | .list items => .list (sortKeysItems items)
  | value => value

def sortKeysItems : List GraphValue → List GraphValue
  | [] => []
  | item :: items => sortKeys item :: sortKeysItems items

def sortKeysEntries : List (String × GraphValue) → List (String × GraphValue)
  | [] => []
  | (key, value) :: entries => (key, sortKeys value) :: sortKeysEntries entries

end

/-- What `_canonical_json_bytes` writes, as a value: mappings with the same entries are the
same. -/
def jsonForm (py : Interpreter) (value : GraphValue) : GraphValue :=
  sortKeys (canonicalValue py value)

@[simp] theorem jsonForm_text (text : String) : jsonForm py (.text text) = .text text := rfl

@[simp] theorem jsonForm_null : jsonForm py .null = .null := rfl

theorem jsonForm_list (items : List GraphValue) :
    jsonForm py (.list items) = .list (items.map (jsonForm py)) := by
  show GraphValue.list (sortKeysItems (canonicalItems py items)) = _
  congr 1
  induction items with
  | nil => rfl
  | cons item items ih => exact congrArg (_ :: ·) ih

theorem jsonForm_mapping (entries : GraphMapping) : jsonForm py (.mapping entries) =
      .mapping (sortedBy Prod.fst (entries.map fun entry => (entry.1, jsonForm py entry.2))) := by
  show GraphValue.mapping (sortedBy Prod.fst (sortKeysEntries (canonicalEntries py entries))) = _
  congr 2
  induction entries with
  | nil => rfl
  | cons entry entries ih => exact congrArg (_ :: ·) ih

/-- Mappings with the same keys are written alike when their values are. -/
theorem jsonForm_mapping_inj {entries others : GraphMapping}
    (hkeys : entries.map Prod.fst = others.map Prod.fst) (hnodup : (entries.map Prod.fst).Nodup) :
    jsonForm py (.mapping entries) = jsonForm py (.mapping others) ↔
      entries.map (fun entry => jsonForm py entry.2) =
        others.map fun entry => jsonForm py entry.2 := by
  have hsplit : ∀ mapping : GraphMapping,
      (mapping.map fun entry => (entry.1, jsonForm py entry.2)) =
        (mapping.map Prod.fst).zip (mapping.map fun entry => jsonForm py entry.2) :=
    fun mapping => zip_map'.symm
  have hfst : ∀ mapping : GraphMapping,
      (mapping.map fun entry => (entry.1, jsonForm py entry.2)).map Prod.fst =
        mapping.map Prod.fst :=
    fun mapping => by rw [map_map]; rfl
  rw [jsonForm_mapping, jsonForm_mapping, GraphValue.mapping.injEq]
  constructor
  · intro h
    have hperm : (entries.map fun entry => (entry.1, jsonForm py entry.2)).Perm
        (others.map fun entry => (entry.1, jsonForm py entry.2)) :=
      (sortedBy_perm Prod.fst _).symm.trans (h ▸ sortedBy_perm Prod.fst _)
    have heq := eq_of_perm_of_map_eq hperm (by rw [hfst, hfst, hkeys]) (by rwa [hfst])
    have hsnd := congrArg (List.map Prod.snd) heq
    rwa [map_map, map_map] at hsnd
  · intro h
    rw [hsplit, hsplit, hkeys, h]

/-- Two lists that one function maps to the same list are mapped to the same list by a function
that tells less. -/
theorem map_eq_of_map_eq {α β γ : Type} {f : α → β} {g : α → γ}
    (hfg : ∀ a b, f a = f b → g a = g b) {l m : List α} (h : l.map f = m.map f) :
    l.map g = m.map g := by
  induction l generalizing m with
  | nil => rw [map_nil, eq_comm, map_eq_nil_iff] at h; rw [h]
  | cons a l ih =>
    obtain ⟨b, m, rfl, hab, hlm⟩ := map_eq_cons_iff.mp h.symm
    rw [map_cons, map_cons, hfg a b hab.symm, ih hlm.symm]

/-! ## Ports -/

/-- The name of a port, as ports are sorted by it. -/
def portName (py : Interpreter) (port : GraphMapping) : String := py.str (port.getText "name")

theorem canonicalPorts_eq (node : GraphMapping) (side : String) :
    canonicalPorts py node side =
      .list ((sortedBy (portName py) (mappingList (node.get side))).map fun port =>
        .mapping (canonicalPort py port)) := by
  rw [canonicalPorts, sortedBy_map, map_map]
  rfl

/-- Ports that are written alike are the same. -/
theorem jsonForm_canonicalPort : jsonForm py (.mapping (canonicalPort py port)) =
        jsonForm py (.mapping (canonicalPort py other)) ↔
      canonicalPort py port = canonicalPort py other := by
  refine ⟨fun h => ?_, fun h => by rw [h]⟩
  have hkeys : (canonicalPort py port).map Prod.fst = (canonicalPort py other).map Prod.fst := rfl
  rw [jsonForm_mapping_inj hkeys (by simp [canonicalPort])] at h
  simp only [canonicalPort, map_cons, map_nil, jsonForm_text, List.cons.injEq, and_true] at h
  obtain ⟨hname, htype, htimeframe⟩ := h
  have htimeframe' : ∀ port : GraphMapping,
      jsonForm py (if (port.get "timeframe").eq .null then .null
        else .text (py.str (port.get "timeframe"))) =
      if (port.get "timeframe").eq .null then .null
        else .text (py.str (port.get "timeframe")) := by
    intro port
    split_ifs <;> rfl
  rw [htimeframe', htimeframe'] at htimeframe
  rw [canonicalPort, canonicalPort, hname, htype, htimeframe]

/-- The ports of a side are written alike exactly when they are the same in their order. -/
theorem jsonForm_canonicalPorts :
    jsonForm py (canonicalPorts py node side) = jsonForm py (canonicalPorts py other side) ↔
      (sortedBy (portName py) (mappingList (node.get side))).map (canonicalPort py) =
        (sortedBy (portName py) (mappingList (other.get side))).map (canonicalPort py) := by
  rw [canonicalPorts_eq, canonicalPorts_eq, jsonForm_list, jsonForm_list, GraphValue.list.injEq,
    map_map, map_map]
  exact ⟨map_eq_of_map_eq fun a b h => jsonForm_canonicalPort.mp h,
    map_eq_of_map_eq fun a b h => jsonForm_canonicalPort.mpr h⟩

/-! ## Nodes -/

/-- What nodes are sorted by. -/
def nodeKey (py : Interpreter) (node : GraphMapping) : Lex (String × String) :=
  toLex (py.str (node.getText "id"), py.str (node.getText "type"))

/-- The settings of a node, as they are written. -/
def configForm (py : Interpreter) (node : GraphMapping) : GraphValue :=
  jsonForm py (canonicalValue py ((node.lookup "config").getD (.mapping [])))

/-- Nodes are written alike. -/
def SameNode (py : Interpreter) (node other : GraphMapping) : Prop :=
  jsonForm py (.mapping (canonicalNode py node)) = jsonForm py (.mapping (canonicalNode py other))

/-- Lists of ports in which ports of one name are the same are sorted alike when they have the
same ports. -/
theorem sorted_canonicalPorts {ports others : List GraphMapping}
    (hperm : (ports.map (canonicalPort py)).Perm (others.map (canonicalPort py)))
    (hports : ∀ port ∈ ports, ∀ other ∈ ports, portName py port = portName py other →
      canonicalPort py port = canonicalPort py other) :
    (sortedBy (portName py) ports).map (canonicalPort py) =
      (sortedBy (portName py) others).map (canonicalPort py) := by
  have hsorted : ∀ ports : List GraphMapping,
      (sortedBy (portName py) ports).map (canonicalPort py) =
        sortedBy (fun port => py.str (port.get "name")) (ports.map (canonicalPort py)) :=
    fun ports => (sortedBy_map (fun port : GraphMapping => py.str (port.get "name"))
      (canonicalPort py) ports).symm
  rw [hsorted, hsorted, ← forall₂_eq_eq_eq]
  refine forall₂_sortedBy (hperm.map _) fun first hfirst second hsecond hname => ?_
  obtain ⟨port, hport, rfl⟩ := mem_map.mp hfirst
  obtain ⟨other, hother, rfl⟩ := mem_map.mp (hperm.mem_iff.mpr hsecond)
  exact hports port hport other hother hname

theorem sameNode_iff : SameNode py node other ↔ nodeKey py node = nodeKey py other ∧
      configForm py node = configForm py other ∧ ∀ side ∈ sides,
        (sortedBy (portName py) (mappingList (node.get side))).map (canonicalPort py) =
          (sortedBy (portName py) (mappingList (other.get side))).map (canonicalPort py) := by
  have hkeys : (canonicalNode py node).map Prod.fst = (canonicalNode py other).map Prod.fst := rfl
  rw [SameNode, jsonForm_mapping_inj hkeys (by simp [canonicalNode])]
  simp only [canonicalNode, map_cons, map_nil, jsonForm_text, List.cons.injEq,
    and_true, configForm, jsonForm_canonicalPorts, GraphValue.text.injEq, nodeKey, toLex_inj,
    Prod.mk.injEq, sides, forall_mem_cons, not_mem_nil, false_imp_iff, implies_true]
  tauto

/-! ## Graphs -/

/-- Graphs are written alike. -/
def SameForm (py : Interpreter) (graph other : GraphMapping) : Prop :=
  jsonForm py (.mapping (canonicalGraph py graph)) =
    jsonForm py (.mapping (canonicalGraph py other))

/-- Ports of one name are one port, and nodes of one id and type are one node: in what is written
of them. -/
structure NamesDetermine (py : Interpreter) (graph : GraphMapping) : Prop where
  ports : ∀ node ∈ graphNodes graph, ∀ side ∈ sides, ∀ port ∈ mappingList (node.get side),
    ∀ other ∈ mappingList (node.get side), portName py port = portName py other →
      canonicalPort py port = canonicalPort py other
  nodes : ∀ node ∈ graphNodes graph, ∀ other ∈ graphNodes graph,
    nodeKey py node = nodeKey py other →
      configForm py node = configForm py other ∧ ∀ side ∈ sides,
        ((mappingList (node.get side)).map (canonicalPort py)).Perm
          ((mappingList (other.get side)).map (canonicalPort py))

/-- What edges are sorted by: all of it. -/
def edgeKey (py : Interpreter) (edge : GraphMapping) :
    Lex (String × Lex (String × Lex (String × String))) :=
  toLex (py.str (edge.getText "from_node"), toLex (py.str (edge.getText "from_port"),
    toLex (py.str (edge.getText "to_node"), py.str (edge.getText "to_port"))))

/-- What outputs are sorted by: all of it. -/
def outputKey (py : Interpreter) (output : GraphMapping) : Lex (String × String) :=
  toLex (py.str (output.getText "node"), py.str (output.getText "port"))

theorem canonicalEdge_of_edgeKey {edge : GraphMapping} (h : edgeKey py edge = edgeKey py other) :
    canonicalEdge py edge = canonicalEdge py other := by
  simp only [edgeKey, toLex_inj, Prod.mk.injEq] at h
  simp [canonicalEdge, h]

theorem canonicalOutput_of_outputKey {output : GraphMapping}
    (h : outputKey py output = outputKey py other) :
    canonicalOutput py output = canonicalOutput py other := by
  simp only [outputKey, toLex_inj, Prod.mk.injEq] at h
  simp [canonicalOutput, h]

/-- The canonical graph, sorted before it is made canonical. -/
theorem canonicalGraph_eq (graph : GraphMapping) : canonicalGraph py graph =
    [("schema_version", .text (py.str ((graph.lookup "schema_version").getD
        (graph.getText "schemaVersion")))),
      ("nodes", .list ((sortedBy (nodeKey py) (graphNodes graph)).map fun node =>
        .mapping (canonicalNode py node))),
      ("edges", .list ((sortedBy (edgeKey py) (graphEdges graph)).map fun edge =>
        .mapping (canonicalEdge py edge))),
      ("outputs", .list ((sortedBy (outputKey py) (graphOutputs graph)).map fun output =>
        .mapping (canonicalOutput py output)))] := by
  rw [canonicalGraph]
  simp only [sortedBy_map, map_map]
  rfl

/-- Graphs have one form exactly when their sorted parts do. -/
theorem sameForm_iff_lists : SameForm py graph other ↔
    py.str ((graph.lookup "schema_version").getD (graph.getText "schemaVersion")) =
        py.str ((other.lookup "schema_version").getD (other.getText "schemaVersion")) ∧
      List.Forall₂ (SameNode py) (sortedBy (nodeKey py) (graphNodes graph))
        (sortedBy (nodeKey py) (graphNodes other)) ∧
      (sortedBy (edgeKey py) (graphEdges graph)).map
          (fun edge => jsonForm py (.mapping (canonicalEdge py edge))) =
        (sortedBy (edgeKey py) (graphEdges other)).map
          (fun edge => jsonForm py (.mapping (canonicalEdge py edge))) ∧
      (sortedBy (outputKey py) (graphOutputs graph)).map
          (fun output => jsonForm py (.mapping (canonicalOutput py output))) =
        (sortedBy (outputKey py) (graphOutputs other)).map
          (fun output => jsonForm py (.mapping (canonicalOutput py output))) := by
  have hnodes : ∀ nodes others : List GraphMapping,
      List.Forall₂ (SameNode py) nodes others ↔
        nodes.map (fun node => jsonForm py (.mapping (canonicalNode py node))) =
          others.map fun node => jsonForm py (.mapping (canonicalNode py node)) := by
    intro nodes others
    rw [← forall₂_eq_eq_eq, forall₂_map_left_iff, forall₂_map_right_iff]
    rfl
  have hkeys : (canonicalGraph py graph).map Prod.fst = (canonicalGraph py other).map Prod.fst :=
    rfl
  rw [SameForm, jsonForm_mapping_inj hkeys (by simp [canonicalGraph]), canonicalGraph_eq,
    canonicalGraph_eq, hnodes]
  simp only [map_cons, map_nil, List.cons.injEq, jsonForm_text, jsonForm_list,
    map_map, GraphValue.text.injEq, GraphValue.list.injEq, and_true, Function.comp_def]

/-- The order of edges and outputs is lost, so reorderings are written alike exactly when their
nodes are. -/
theorem Reordered.sameForm_iff (h : Reordered graph other) : SameForm py graph other ↔
      List.Forall₂ (SameNode py) (sortedBy (nodeKey py) (graphNodes graph))
        (sortedBy (nodeKey py) (graphNodes other)) := by
  have hschema : (graph.lookup "schema_version").getD (graph.getText "schemaVersion") =
      (other.lookup "schema_version").getD (other.getText "schemaVersion") := by
    rw [GraphMapping.getText, GraphMapping.getText, h.rest _ (by simp), h.rest _ (by simp)]
  have hedges : (sortedBy (edgeKey py) (graphEdges graph)).map
        (fun edge => jsonForm py (.mapping (canonicalEdge py edge))) =
      (sortedBy (edgeKey py) (graphEdges other)).map
        (fun edge => jsonForm py (.mapping (canonicalEdge py edge))) := by
    refine map_eq_of_map_eq (fun a b hkey => ?_)
      (map_key_sortedBy_of_perm ((perm_of_shuffled h.edges).map _))
    rw [canonicalEdge_of_edgeKey hkey]
  have houtputs : (sortedBy (outputKey py) (graphOutputs graph)).map
        (fun output => jsonForm py (.mapping (canonicalOutput py output))) =
      (sortedBy (outputKey py) (graphOutputs other)).map
        (fun output => jsonForm py (.mapping (canonicalOutput py output))) := by
    refine map_eq_of_map_eq (fun a b hkey => ?_)
      (map_key_sortedBy_of_perm ((perm_of_shuffled h.outputs).map _))
    rw [canonicalOutput_of_outputKey hkey]
  rw [sameForm_iff_lists, hschema]
  exact ⟨fun hforms => hforms.2.1, fun hnodes => ⟨rfl, hnodes, hedges, houtputs⟩⟩

theorem ReorderedNode.nodeKey (h : ReorderedNode node other) :
    nodeKey py node = nodeKey py other := by
  rw [StrategyGraphOrder.nodeKey, StrategyGraphOrder.nodeKey, GraphMapping.getText,
    GraphMapping.getText, GraphMapping.getText, GraphMapping.getText,
    h.lookup (by simp [sides]), h.lookup (by simp [sides])]

theorem ReorderedNode.configForm (h : ReorderedNode node other) :
    configForm py node = configForm py other := by
  rw [StrategyGraphOrder.configForm, StrategyGraphOrder.configForm, h.lookup (by simp [sides])]

/-- A node can come first, with its ports in any order. -/
theorem exists_reordered_first {node' : GraphMapping} (hnode : node ∈ graphNodes graph)
    (h : ReorderedNode node node') :
    ∃ other rest, Reordered graph other ∧ graphNodes other = node' :: rest := by
  obtain ⟨before, after, hnodes⟩ := append_of_mem hnode
  obtain ⟨other, hother, hlist⟩ := exists_reordered
    (h := hnodes ▸ perm_middle)
    (List.Forall₂.cons h (forall₂_same.mpr fun node _ => ReorderedNode.refl node))
  exact ⟨other, _, hother, hlist⟩

/-- A port can come first on its side. -/
theorem exists_reorderedNode_first (hside : side ∈ sides)
    (hport : port ∈ mappingList (node.get side)) :
    ∃ other rest, ReorderedNode node other ∧ mappingList (other.get side) = port :: rest := by
  obtain ⟨before, after, hports⟩ := append_of_mem hport
  obtain ⟨other, hother, hlist⟩ := exists_reorderedNode hside (hports ▸ perm_middle)
  exact ⟨other, _, hother, hlist⟩

/-- Where a graph is written like all its reorderings, two nodes of one id and type are written
alike, whatever order their ports are put into. -/
theorem sameNode_of_sameForm (h : ∀ other, Reordered graph other → SameForm py graph other)
    {first second : GraphMapping} (hfirst : first ∈ graphNodes graph)
    (hsecond : second ∈ graphNodes graph) (hkey : nodeKey py first = nodeKey py second)
    {first' second' : GraphMapping} (hfirst' : ReorderedNode first first')
    (hsecond' : ReorderedNode second second') : SameNode py first' second' := by
  obtain ⟨graph₁, rest₁, hgraph₁, hnodes₁⟩ := exists_reordered_first hfirst hfirst'
  obtain ⟨graph₂, rest₂, hgraph₂, hnodes₂⟩ := exists_reordered_first hsecond hsecond'
  have hsame : SameForm py graph₁ graph₂ := (h graph₁ hgraph₁).symm.trans (h graph₂ hgraph₂)
  have hlists := (sameForm_iff_lists.mp hsame).2.1
  rw [hnodes₁, hnodes₂] at hlists
  refine rel_of_forall₂_sortedBy (fun node other hnode => (sameNode_iff.mp hnode).1) ?_ hlists
  rw [← hfirst'.nodeKey, ← hsecond'.nodeKey, hkey]

/-- Nodes with the same ports, of which those of one name are the same, have them sorted alike. -/
theorem sameNode_of_perm (hkey : nodeKey py node = nodeKey py other)
    (hconfig : configForm py node = configForm py other) (hperm : ∀ side ∈ sides, ((mappingList
      (node.get side)).map (canonicalPort py)).Perm ((mappingList (other.get side)).map
      (canonicalPort py))) (hports : ∀ side ∈ sides, ∀ port ∈ mappingList (node.get side), ∀ port' ∈
      mappingList (node.get side), portName py port = portName py port' → canonicalPort py port =
      canonicalPort py port') : SameNode py node other :=
  sameNode_iff.mpr ⟨hkey, hconfig, fun side hside =>
    sorted_canonicalPorts (hperm side hside) (hports side hside)⟩

/-- A graph is written like all its reorderings exactly when names determine what they name. -/
theorem sameForm_iff :
    (∀ other, Reordered graph other → SameForm py graph other) ↔ NamesDetermine py graph := by
  constructor
  · intro h
    refine ⟨fun node hnode side hside port hport other hother hname => ?_,
      fun node hnode other hother hkey => ?_⟩
    · -- the node with one port in front, and with the other
      obtain ⟨node₁, rest₁, hnode₁, hports₁⟩ := exists_reorderedNode_first hside hport
      obtain ⟨node₂, rest₂, hnode₂, hports₂⟩ := exists_reorderedNode_first hside hother
      have hsame := sameNode_of_sameForm h hnode hnode rfl hnode₁ hnode₂
      have hlists := (sameNode_iff.mp hsame).2.2 side hside
      rw [hports₁, hports₂, ← forall₂_eq_eq_eq, forall₂_map_left_iff,
        forall₂_map_right_iff] at hlists
      refine rel_of_forall₂_sortedBy
        (r := fun port other => canonicalPort py port = canonicalPort py other)
        (fun first second hsame => ?_) hname hlists
      exact congrArg (fun port : GraphMapping => py.str (port.get "name")) hsame
    · have hsame := sameNode_of_sameForm h hnode hother hkey (ReorderedNode.refl node)
        (ReorderedNode.refl other)
      obtain ⟨-, hconfig, hports⟩ := sameNode_iff.mp hsame
      refine ⟨hconfig, fun side hside => ?_⟩
      have hsorted : ∀ node : GraphMapping,
          ((sortedBy (portName py) (mappingList (node.get side))).map (canonicalPort py)).Perm
            ((mappingList (node.get side)).map (canonicalPort py)) :=
        fun node => (sortedBy_perm _ _).map _
      exact (hsorted node).symm.trans (hports side hside ▸ hsorted other)
  · intro h other hother
    obtain ⟨between, hperm, hnodes⟩ := hother.exists_nodes
    have hkeys : between.map (nodeKey py) = (graphNodes other).map (nodeKey py) := by
      rw [← forall₂_eq_eq_eq, forall₂_map_left_iff, forall₂_map_right_iff]
      exact hnodes.imp fun node other hnode => hnode.nodeKey
    refine hother.sameForm_iff.mpr
      (forall₂_sortedBy (hkeys ▸ hperm.map _) fun first hfirst second hsecond hkey => ?_)
    obtain ⟨third, hthird, hreorder⟩ := exists_of_forall₂ hnodes second hsecond
    have hmem := hperm.mem_iff.mpr hthird
    obtain ⟨hconfig, hports⟩ := h.nodes first hfirst third hmem (hkey.trans hreorder.nodeKey.symm)
    refine sameNode_of_perm hkey (hconfig.trans hreorder.configForm) (fun side hside => ?_)
      (h.ports first hfirst)
    exact (hports side hside).trans ((hreorder.ports hside).map _)

end Goodmoneying.Analysis.StrategyGraphOrder
