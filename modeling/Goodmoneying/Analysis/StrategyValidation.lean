import Goodmoneying.Library.ExceptRules
import Goodmoneying.Analysis.CycleDetection

/-!
# What a valid strategy graph is

The rules are stated on the graph itself: what an id and a port name stand for (`PortNamed`), where
an edge leads (`Follows`), which settings a node may have (`SettingsAllowed`). A graph is found
valid exactly when it keeps the rules that look at integers only (`valid_iff`), and a cycle is
reported exactly when there is one, unless a missing-data policy is a list or a mapping
(`cycleDetected_iff`).
-/

namespace Goodmoneying.Analysis

open List Library Program

variable {py : Interpreter} {node graph config : GraphMapping} {value : GraphValue}
  {nodeId : String}
variable {side key : String} {name : GraphValue} {errors : List StrategyValidationError}
  {allowed : Bool} {p : Prop} {error : StrategyValidationError}
  {ofNodes : List (List StrategyValidationError)}

/-! ## The graph -/

/-- The nodes of a graph. -/
abbrev graphNodes (graph : GraphMapping) : List GraphMapping := mappingList (graph.get "nodes")

/-- The edges of a graph. -/
abbrev graphEdges (graph : GraphMapping) : List GraphMapping := mappingList (graph.get "edges")

/-- The outputs of a graph. -/
abbrev graphOutputs (graph : GraphMapping) : List GraphMapping :=
  mappingList (graph.get "outputs")

/-- Ids are distinct texts, and so are the port names on each side of a node. -/
structure WellNamed (graph : GraphMapping) : Prop where
  ids : ∀ node ∈ graphNodes graph, ∃ id, node.get "id" = .text id
  ids_nodup : ((graphNodes graph).map fun node => node.get "id").Nodup
  names : ∀ node ∈ graphNodes graph, ∀ side ∈ ["input_ports", "output_ports"],
    ∀ port ∈ mappingList (node.get side), ∃ name, port.get "name" = .text name
  names_nodup : ∀ node ∈ graphNodes graph, ∀ side ∈ ["input_ports", "output_ports"],
    ((mappingList (node.get side)).map fun port => port.get "name").Nodup

/-- `port` is the port of that name on that side of the node of that id. -/
def PortNamed (graph : GraphMapping) (nodeId side : String) (name : GraphValue)
    (port : GraphMapping) : Prop :=
  ∃ node ∈ graphNodes graph, node.get "id" = .text nodeId ∧
    port ∈ mappingList (node.get side) ∧ port.get "name" = name

/-- An edge leads from the node `u` to the node `v`. -/
def Follows (py : Interpreter) (graph : GraphMapping) (u v : String) : Prop :=
  (∃ edge ∈ graphEdges graph, edgeEnds py edge = (u, v)) ∧
    (∃ node ∈ graphNodes graph, node.get "id" = .text u) ∧
    ∃ node ∈ graphNodes graph, node.get "id" = .text v

/-- The edges between known nodes have a cycle. -/
def Cyclic (py : Interpreter) (graph : GraphMapping) : Prop :=
  ∃ v, Relation.TransGen (Follows py graph) v v

/-! ## The rules -/

/-- A number above zero. -/
def Positive : GraphValue → Prop
  | .int value => 0 < value
  | .float (.finite value) => 0 < value
  | .float (.infinite negative) => negative = false
  | .decimal value => 0 < value
  | _ => False

/-- A number below zero. -/
def Negative : GraphValue → Prop
  | .int value => value < 0
  | .float (.finite value) => value < 0
  | .float (.infinite negative) => negative = true
  | .decimal value => value < 0
  | _ => False

/-- A threshold is absent, a number or a text that `Decimal` reads. -/
def ThresholdAllowed (py : Interpreter) : GraphValue → Prop
  | .null => True
  | .int _ => True
  | .float _ => True
  | .decimal _ => True
  | .text value => py.readsDecimal value = true
  | _ => False

/-- An edge joins an output port to an input port of the same type and timeframe. -/
def EdgeJoins (py : Interpreter) (graph edge : GraphMapping) : Prop :=
  ∃ fromPort toPort,
    PortNamed graph (edgeEnds py edge).1 "output_ports" (edge.get "from_port") fromPort ∧
    PortNamed graph (edgeEnds py edge).2 "input_ports" (edge.get "to_port") toPort ∧
    (fromPort.get "dataType").eq (toPort.get "dataType") = true ∧
    (fromPort.get "timeframe" = .null ∨ toPort.get "timeframe" = .null ∨
      (fromPort.get "timeframe").eq (toPort.get "timeframe") = true)

/-- The rules of a graph, but for those on look-ahead and on windows, which `settings` states. -/
structure PassesRules (py : Interpreter) (graph : GraphMapping) (settings : GraphMapping → Prop) :
    Prop where
  has_output : graphOutputs graph ≠ []
  outputs : ∀ output ∈ graphOutputs graph, ∃ port,
    PortNamed graph (py.str (output.getText "node")) "output_ports" (output.get "port") port
  edges : ∀ edge ∈ graphEdges graph, EdgeJoins py graph edge
  acyclic : ¬ Cyclic py graph
  policies : ∀ node ∈ graphNodes graph, (nodeType py node).startsWith "dataset." →
    ∃ policy ∈ ["fail", "null", "drop"], (nodeConfig node).get "missingDataPolicy" = .text policy
  thresholds : ∀ node ∈ graphNodes graph, nodeType py node = "condition.greater_than" →
    ThresholdAllowed py ((nodeConfig node).get "threshold")
  settings : ∀ node ∈ graphNodes graph, settings node

/-- No look-ahead, and an SMA has a window and at most a warm-up that covers it. -/
structure SettingsAllowed (py : Interpreter) (node : GraphMapping) : Prop where
  lookAhead : ∀ key ∈ ["lookAheadPeriods", "futureOffsetPeriods"],
    ¬ Positive ((nodeConfig node).get key)
  offset : ¬ Negative ((nodeConfig node).get "offsetPeriods")
  sma : nodeType py node = "indicator.sma" →
    ∃ window, (nodeConfig node).get "windowPeriods" = .int window ∧
      1 ≤ window ∧ window ≤ 10000 ∧
      ((nodeConfig node).get "warmupPeriods" = .null ∨
        ∃ warmup, (nodeConfig node).get "warmupPeriods" = .int warmup ∧ window ≤ warmup)

/-- The same of the settings that are integers. -/
structure IntegersAllowed (py : Interpreter) (node : GraphMapping) : Prop where
  lookAhead : ∀ key ∈ ["lookAheadPeriods", "futureOffsetPeriods"],
    ∀ value, (nodeConfig node).get key = .int value → ¬ 0 < value
  offset : ∀ value, (nodeConfig node).get "offsetPeriods" = .int value → ¬ value < 0
  sma : nodeType py node = "indicator.sma" →
    ∃ window, (nodeConfig node).get "windowPeriods" = .int window ∧
      1 ≤ window ∧ window ≤ 10000 ∧
      ∀ warmup, (nodeConfig node).get "warmupPeriods" = .int warmup → ¬ warmup < window

/-- The settings that matter are integers: a warm-up that is given, and what looks ahead. -/
structure SettingsRead (py : Interpreter) (node : GraphMapping) : Prop where
  lookAhead : ∀ key ∈ ["lookAheadPeriods", "futureOffsetPeriods"],
    Positive ((nodeConfig node).get key) → ∃ value, (nodeConfig node).get key = .int value
  offset : Negative ((nodeConfig node).get "offsetPeriods") →
    ∃ value, (nodeConfig node).get "offsetPeriods" = .int value
  warmup : nodeType py node = "indicator.sma" →
    (nodeConfig node).get "warmupPeriods" = .null ∨
      ∃ value, (nodeConfig node).get "warmupPeriods" = .int value

/-- Settings are allowed exactly when their integers are, and all that matter are read. -/
theorem settingsAllowed_iff :
    SettingsAllowed py node ↔ IntegersAllowed py node ∧ SettingsRead py node := by
  constructor
  · intro h
    constructor
    · constructor
      case lookAhead =>
        intro key hkey value hvalue hpos
        apply h.lookAhead key hkey
        rw [hvalue]
        exact hpos
      case offset =>
        intro value hvalue hneg
        apply h.offset
        rw [hvalue]
        exact hneg
      case sma =>
        intro htype
        obtain ⟨window, hwindow, hlow, hhigh, hwarmup⟩ := h.sma htype
        refine ⟨window, hwindow, hlow, hhigh, fun value hvalue => ?_⟩
        rcases hwarmup with hnull | ⟨warmup, hint, hle⟩
        · rw [hnull] at hvalue
          cases hvalue
        · rw [hint] at hvalue
          cases hvalue
          exact not_lt.mpr hle
    · constructor
      case lookAhead => exact fun key hkey hpos => absurd hpos (h.lookAhead key hkey)
      case offset => exact fun hneg => absurd hneg h.offset
      case warmup =>
        intro htype
        obtain ⟨window, -, -, -, hwarmup⟩ := h.sma htype
        exact hwarmup.imp_right fun hint => ⟨hint.choose, hint.choose_spec.1⟩
  · rintro ⟨h, hread⟩
    constructor
    case lookAhead =>
      intro key hkey hpos
      obtain ⟨value, hvalue⟩ := hread.lookAhead key hkey hpos
      rw [hvalue] at hpos
      exact h.lookAhead key hkey value hvalue hpos
    case offset =>
      intro hneg
      obtain ⟨value, hvalue⟩ := hread.offset hneg
      rw [hvalue] at hneg
      exact h.offset value hvalue hneg
    case sma =>
      intro htype
      obtain ⟨window, hwindow, hlow, hhigh, hwarmup⟩ := h.sma htype
      refine ⟨window, hwindow, hlow, hhigh, ?_⟩
      exact (hread.warmup htype).imp_right fun hint =>
        ⟨hint.choose, hint.choose_spec, not_lt.mp (hwarmup _ hint.choose_spec)⟩

/-! ## Looking up nodes and ports -/

theorem eq_null_iff : value.eq .null = true ↔ value = .null := by
  cases value <;> simp [GraphValue.eq, GraphValue.number?]

theorem text_eq_iff {text : String} :
    (GraphValue.text text).eq value = true ↔ GraphValue.text text = value := by
  cases value <;> simp [GraphValue.eq]

theorem str_ids_nodup (py : Interpreter) (h : WellNamed graph) :
    ((graphNodes graph).map fun node => py.str (node.get "id")).Nodup := by
  apply List.Nodup.map_on _ (List.Nodup.of_map _ h.ids_nodup)
  intro node hnode other hother heq
  obtain ⟨id, hid⟩ := h.ids node hnode
  obtain ⟨otherId, hother_id⟩ := h.ids other hother
  rw [hid, hother_id] at heq
  have htext : id = otherId := heq
  exact inj_on_of_nodup_map h.ids_nodup hnode hother (by rw [hid, hother_id, htext])

/-- Under distinct text ids `nodes_by_id` lists the nodes. -/
theorem nodesById_eq (py : Interpreter) (h : WellNamed graph) : nodesById py (graphNodes graph) =
      (graphNodes graph).map fun node => (py.str (node.get "id"), node) := by
  have hall : (graphNodes graph).filter (fun node => !(node.get "id").eq .null) =
      graphNodes graph := by
    rw [filter_eq_self]
    intro node hnode
    obtain ⟨id, hid⟩ := h.ids node hnode
    rw [hid]
    rfl
  rw [nodesById, hall]
  apply setItems_of_nodup
  rw [nil_append, map_map]
  exact str_ids_nodup py h

theorem mem_nodesById (h : WellNamed graph) : (nodeId, node) ∈ nodesById py (graphNodes graph) ↔
      node ∈ graphNodes graph ∧ node.get "id" = .text nodeId := by
  rw [nodesById_eq py h, mem_map]
  constructor
  · rintro ⟨other, hother, heq⟩
    obtain ⟨rfl, rfl⟩ := Prod.mk.inj heq
    obtain ⟨id, hid⟩ := h.ids other hother
    rw [hid]
    exact ⟨hother, rfl⟩
  · rintro ⟨hnode, hid⟩
    refine ⟨node, hnode, ?_⟩
    rw [hid]
    rfl

theorem keys_nodesById_nodup (py : Interpreter) (h : WellNamed graph) :
    ((nodesById py (graphNodes graph)).map Prod.fst).Nodup := by
  rw [nodesById_eq py h, map_map]
  exact str_ids_nodup py h

/-- The port that is found is the port of that name. -/
theorem findPort_eq_some_iff (py : Interpreter) (h : WellNamed graph)
    (hside : side ∈ ["input_ports", "output_ports"]) {port : GraphMapping} :
    findPort ((nodesById py (graphNodes graph)).lookup nodeId) side name = some port ↔
      PortNamed graph nodeId side name port := by
  have hnodup := keys_nodesById_nodup py h
  constructor
  · intro hfound
    cases hnode : (nodesById py (graphNodes graph)).lookup nodeId with
    | none =>
      rw [hnode] at hfound
      cases hfound
    | some node =>
      rw [hnode] at hfound
      obtain ⟨hmem, hid⟩ := (mem_nodesById h).mp ((lookup_eq_some_iff_mem hnodup).mp hnode)
      have hport := mem_of_find?_eq_some hfound
      obtain ⟨text, htext⟩ := h.names node hmem side hside port hport
      have hname := List.find?_some hfound
      rw [htext, text_eq_iff] at hname
      exact ⟨node, hmem, hid, hport, htext.trans hname⟩
  · rintro ⟨node, hmem, hid, hport, hname⟩
    rw [(lookup_eq_some_iff_mem hnodup).mpr ((mem_nodesById h).mpr ⟨hmem, hid⟩)]
    obtain ⟨text, htext⟩ := h.names node hmem side hside port hport
    have hself : (port.get "name").eq name = true := by
      rw [htext, text_eq_iff]
      exact htext.symm.trans hname
    cases hfound : findPort (some node) side name with
    | none => exact absurd hself (List.find?_eq_none.mp hfound port hport)
    | some found =>
      have hfound_port := mem_of_find?_eq_some hfound
      obtain ⟨other, hother⟩ := h.names node hmem side hside found hfound_port
      have hfound_name := List.find?_some hfound
      rw [hother, text_eq_iff] at hfound_name
      congr 1
      apply inj_on_of_nodup_map (h.names_nodup node hmem side hside) hfound_port hport
      exact (hother.trans hfound_name).trans hname.symm

theorem findPort_eq_none_iff (py : Interpreter) (h : WellNamed graph)
    (hside : side ∈ ["input_ports", "output_ports"]) :
    findPort ((nodesById py (graphNodes graph)).lookup nodeId) side name = none ↔
      ¬ ∃ port, PortNamed graph nodeId side name port := by
  rw [Option.eq_none_iff_forall_ne_some, not_exists]
  exact forall_congr' fun port => not_congr (findPort_eq_some_iff py h hside)

/-- The search for cycles is on the edges that lead somewhere. -/
theorem hasCycle_iff_cyclic (py : Interpreter) (h : WellNamed graph) :
    hasCycle py (scanEdges py (nodesById py (graphNodes graph)) (graphEdges graph)) = true ↔
      Cyclic py graph := by
  have hkey : ∀ u, u ∈ (nodesById py (graphNodes graph)).map Prod.fst ↔
      ∃ node ∈ graphNodes graph, node.get "id" = .text u := by
    intro u
    rw [mem_map]
    constructor
    · rintro ⟨entry, hentry, rfl⟩
      exact ⟨entry.2, (mem_nodesById h).mp hentry⟩
    · rintro ⟨node, hnode⟩
      exact ⟨(u, node), (mem_nodesById h).mpr hnode, rfl⟩
  have hfollows : EdgeBetween py ((nodesById py (graphNodes graph)).map Prod.fst)
      (graphEdges graph) = Follows py graph := by
    funext u v
    rw [EdgeBetween, hkey, hkey]
    rfl
  rw [hasCycle_iff py (keys_nodesById_nodup py h), hfollows]
  rfl

/-! ## Errors -/

/-- Of equal errors one is kept, so none is kept only if there is none, and no code is lost. -/
theorem code_mem_deduplicateErrors (errors : List StrategyValidationError)
    (code : StrategyValidationCode) :
    (∃ error ∈ deduplicateErrors errors, error.code = code) ↔
      ∃ error ∈ errors, error.code = code := by
  have hcode : ∀ code : StrategyValidationCode, code.text ∈ validationCodes := by
    intro code
    cases code <;> decide
  unfold deduplicateErrors
  induction errors using List.reverseRecOn with
  | nil => rfl
  | append_singleton errors error ih =>
    rw [foldl_append, foldl_cons, foldl_nil]
    split_ifs with hnew
    · simp only [mem_append, or_and_right, exists_or, ih]
    · -- the error is dropped, since one with its code is kept
      have hkept := not_and.mp hnew (hcode _)
      push Not at hkept
      obtain ⟨other, hother, heq⟩ := hkept
      have hsame : other.code = error.code := congrArg Prod.fst heq
      apply ih.trans
      constructor
      · rintro ⟨found, hfound, hcode⟩
        exact ⟨found, mem_append_left _ hfound, hcode⟩
      · rintro ⟨found, hfound, hcode⟩
        rcases mem_append.mp hfound with hfound | hfound
        · exact ⟨found, hfound, hcode⟩
        · apply ih.mp
          refine ⟨other, hother, ?_⟩
          rw [hsame, ← mem_singleton.mp hfound, hcode]

theorem deduplicateErrors_eq_nil_iff : deduplicateErrors errors = [] ↔ errors = [] := by
  constructor
  · intro h
    cases errors with
    | nil => rfl
    | cons error errors =>
      have hkept := (code_mem_deduplicateErrors (error :: errors) error.code).mpr
        ⟨error, mem_cons_self, rfl⟩
      rw [h] at hkept
      obtain ⟨kept, hmem, -⟩ := hkept
      cases hmem
  · intro h
    rw [h]
    rfl

theorem intConfig_eq_some_iff {value : ℤ} :
    intConfig config key = some value ↔ config.get key = .int value := by
  unfold intConfig
  split
  · rename_i heq
    rw [heq, Option.some.injEq, GraphValue.int.injEq]
  · rename_i hother
    exact iff_of_false (by simp) fun heq => hother value heq

/-- No integer setting satisfies a condition. -/
theorem any_intConfig_eq_false_iff {p : ℤ → Bool} : (intConfig config key).any p = false ↔
      ∀ value, config.get key = .int value → ¬ p value = true := by
  rw [Option.any_eq_false]
  apply forall_congr'
  intro value
  rw [intConfig_eq_some_iff, Bool.not_eq_true]

theorem hasPositiveLookahead_eq_false_iff : hasPositiveLookahead config = false ↔
      (∀ key ∈ ["lookAheadPeriods", "futureOffsetPeriods"],
        ∀ value, config.get key = .int value → ¬ 0 < value) ∧
      ∀ value, config.get "offsetPeriods" = .int value → ¬ value < 0 := by
  rw [hasPositiveLookahead, Bool.or_eq_false_iff, any_eq_false, any_intConfig_eq_false_iff]
  apply and_congr
  · apply forall₂_congr
    intro key _
    rw [Bool.not_eq_true, any_intConfig_eq_false_iff]
    simp only [decide_eq_true_iff]
  · simp only [decide_eq_true_iff]

/-- The settings of an average that no error is about. -/
theorem smaErrors_eq_nil_iff : smaErrors nodeId config = [] ↔
      ∃ window, config.get "windowPeriods" = .int window ∧ 1 ≤ window ∧ window ≤ 10000 ∧
        ∀ warmup, config.get "warmupPeriods" = .int warmup → ¬ warmup < window := by
  rw [smaErrors, append_eq_nil_iff]
  cases hwindow : intConfig config "windowPeriods" with
  | none =>
    apply iff_of_false
    · simp
    · rintro ⟨window, hint, -⟩
      rw [intConfig_eq_some_iff.mpr hint] at hwindow
      cases hwindow
  | some window =>
    have hint := intConfig_eq_some_iff.mp hwindow
    have hwarmup : ((some window).any fun window =>
        (intConfig config "warmupPeriods").any fun warmup => warmup < window) = false ↔
          ∀ warmup, config.get "warmupPeriods" = .int warmup → ¬ warmup < window := by
      rw [Option.any_some, any_intConfig_eq_false_iff]
      simp only [decide_eq_true_iff]
    have hrange : ((some window).all fun window => ¬ (1 ≤ window ∧ window ≤ 10000)) = false ↔
        1 ≤ window ∧ window ≤ 10000 := by
      rw [Option.all_some, decide_eq_false_iff_not, not_not]
    have hempty : ∀ (p : Bool) (error : StrategyValidationError),
        (if p then [error] else []) = [] ↔ p = false := by
      intro p error
      cases p <;> simp
    rw [hempty, hempty, hwarmup, hrange]
    constructor
    · rintro ⟨hin, hcovers⟩
      exact ⟨window, hint, hin.1, hin.2, hcovers⟩
    · rintro ⟨other, hother, hlow, hhigh, hcovers⟩
      rw [hint] at hother
      cases hother
      exact ⟨⟨hlow, hhigh⟩, hcovers⟩

/-- A node has no errors of look-ahead and of windows exactly when its integers allow it. -/
theorem integersAllowed_iff (nodeId : String) :
    IntegersAllowed py node ↔ hasPositiveLookahead (nodeConfig node) = false ∧
      (nodeType py node = "indicator.sma" → smaErrors nodeId (nodeConfig node) = []) := by
  rw [hasPositiveLookahead_eq_false_iff, smaErrors_eq_nil_iff]
  constructor
  · exact fun h => ⟨⟨h.lookAhead, h.offset⟩, h.sma⟩
  · exact fun h => ⟨h.1.1, h.1.2, h.2⟩

/-- A policy that can be looked up in a set. -/
def Hashable : GraphValue → Prop
  | .list _ => False
  | .mapping _ => False
  | _ => True

/-- The missing-data policies of dataset nodes can be looked up. -/
def PoliciesHashable (py : Interpreter) (graph : GraphMapping) : Prop :=
  ∀ node ∈ graphNodes graph, (nodeType py node).startsWith "dataset." →
    Hashable ((nodeConfig node).get "missingDataPolicy")

theorem inMissingDataPolicies_eq_ok (h : inMissingDataPolicies value = .ok allowed) :
    allowed = true ↔ ∃ policy ∈ ["fail", "null", "drop"], value = .text policy := by
  cases value with
  | text text =>
    obtain rfl := Except.ok.inj h
    simp
  | list items => cases h
  | mapping entries => cases h
  | _ =>
    obtain rfl := Except.ok.inj h
    simp

theorem inMissingDataPolicies_isOk_iff :
    (∃ allowed, inMissingDataPolicies value = .ok allowed) ↔ Hashable value := by
  cases value <;> simp [inMissingDataPolicies, Hashable]

theorem thresholdAllowed_iff :
    ThresholdAllowed py value ↔ ¬ (¬ value.eq .null ∧ ¬ isDecimalStringOrNumber py value) := by
  rw [eq_null_iff]
  cases value <;> simp [ThresholdAllowed, isDecimalStringOrNumber]

/-- The rules that the errors of a node are about. -/
structure NodeAllowed (py : Interpreter) (node : GraphMapping) : Prop where
  policy : (nodeType py node).startsWith "dataset." →
    ∃ policy ∈ ["fail", "null", "drop"], (nodeConfig node).get "missingDataPolicy" = .text policy
  threshold : nodeType py node = "condition.greater_than" →
    ThresholdAllowed py ((nodeConfig node).get "threshold")
  integers : IntegersAllowed py node

theorem policyAllowed_eq_ok (h : policyAllowed py node = .ok allowed) :
    allowed = true ↔ ((nodeType py node).startsWith "dataset." →
      ∃ policy ∈ ["fail", "null", "drop"],
        (nodeConfig node).get "missingDataPolicy" = .text policy) := by
  unfold policyAllowed at h
  split_ifs at h with hdataset
  · rw [inMissingDataPolicies_eq_ok h]
    exact (imp_iff_right hdataset).symm
  · obtain rfl := Except.ok.inj h
    exact iff_of_true rfl fun hother => absurd hother hdataset

theorem policyAllowed_isOk_iff : (∃ allowed, policyAllowed py node = .ok allowed) ↔
      ((nodeType py node).startsWith "dataset." →
        Hashable ((nodeConfig node).get "missingDataPolicy")) := by
  unfold policyAllowed
  split_ifs with hdataset
  · rw [inMissingDataPolicies_isOk_iff]
    exact (imp_iff_right hdataset).symm
  · exact iff_of_true ⟨_, rfl⟩ fun hother => absurd hother hdataset

theorem ite_singleton_eq_nil [Decidable p] : (if p then [error] else []) = [] ↔ ¬ p := by
  split_ifs with h
  · simp [h]
  · simp [h]

theorem eq_of_mem_ite_singleton [Decidable p] {found : StrategyValidationError}
    (h : found ∈ if p then [error] else []) : found = error := by
  split_ifs at h
  · exact mem_singleton.mp h
  · cases h

theorem code_smaErrors : ∀ error ∈ smaErrors nodeId config, error.code ≠ .cycleDetected := by
  intro error herror
  rw [smaErrors, mem_append] at herror
  rcases herror with herror | herror
  · rw [eq_of_mem_ite_singleton herror]
    simp
  · rw [eq_of_mem_ite_singleton herror]
    simp

/-- What the errors of a node tell. -/
theorem nodeErrors_eq_ok (h : nodeErrors py node = .ok errors) :
    (∀ error ∈ errors, error.code ≠ .cycleDetected) ∧ (errors = [] ↔ NodeAllowed py node) := by
  obtain ⟨allowed, hallowed, h⟩ := bind_eq_ok.mp h
  obtain rfl := pure_eq_ok.mp h
  constructor
  · intro error herror
    simp only [mem_append] at herror
    rcases herror with ((hpolicy | hlookAhead) | hsma) | hthreshold
    · cases allowed with
      | true => cases hpolicy
      | false =>
        rw [mem_singleton.mp hpolicy]
        simp
    · rw [eq_of_mem_ite_singleton hlookAhead]
      simp
    · split_ifs at hsma
      · exact code_smaErrors error hsma
      · cases hsma
    · rw [eq_of_mem_ite_singleton hthreshold]
      simp
  · have hpolicy : (if allowed then ([] : List StrategyValidationError) else
        [{ code := .missingDataPolicyRequired
           nodeId := some (py.str (node.getText "id"))
           message := "dataset 입력 노드는 결측 정책을 명시해야 한다." }]) = [] ↔ allowed = true := by
      cases allowed <;> simp
    have hsma : (if nodeType py node = "indicator.sma" then
        smaErrors (py.str (node.getText "id")) (nodeConfig node) else []) = [] ↔
          (nodeType py node = "indicator.sma" →
            smaErrors (py.str (node.getText "id")) (nodeConfig node) = []) := by
      split_ifs with htype
      · exact (imp_iff_right htype).symm
      · exact iff_of_true rfl fun hother => absurd hother htype
    simp only [append_eq_nil_iff, hpolicy, hsma, ite_singleton_eq_nil, Bool.not_eq_true]
    rw [policyAllowed_eq_ok hallowed]
    constructor
    · rintro ⟨⟨⟨hpolicy, hlookAhead⟩, hsma⟩, hthreshold⟩
      refine ⟨hpolicy, fun htype => ?_, (integersAllowed_iff _).mpr ⟨hlookAhead, hsma⟩⟩
      rw [thresholdAllowed_iff]
      simpa using fun hnull => hthreshold ⟨htype, hnull⟩
    · intro hallowed
      obtain ⟨hlookAhead, hsma⟩ := (integersAllowed_iff _).mp hallowed.integers
      refine ⟨⟨⟨hallowed.policy, hlookAhead⟩, hsma⟩, ?_⟩
      rintro ⟨htype, hthreshold⟩
      exact thresholdAllowed_iff.mp (hallowed.threshold htype) (by simpa using hthreshold)

theorem nodeErrors_isOk_iff : (∃ errors, nodeErrors py node = .ok errors) ↔
      ((nodeType py node).startsWith "dataset." →
        Hashable ((nodeConfig node).get "missingDataPolicy")) := by
  rw [← policyAllowed_isOk_iff]
  constructor
  · rintro ⟨errors, h⟩
    obtain ⟨allowed, hallowed, -⟩ := bind_eq_ok.mp h
    exact ⟨allowed, hallowed⟩
  · rintro ⟨allowed, hallowed⟩
    unfold nodeErrors
    rw [hallowed]
    exact ⟨_, rfl⟩

/-- An edge gives no cycle error, and no error exactly if it joins two ports. -/
theorem edgeErrors_spec (h : WellNamed graph) (index : ℕ) (edge : GraphMapping) :
    (∀ error ∈ edgeErrors py (nodesById py (graphNodes graph)) index edge,
      error.code ≠ .cycleDetected) ∧
    (edgeErrors py (nodesById py (graphNodes graph)) index edge = [] ↔
      EdgeJoins py graph edge) := by
  have hsides : "output_ports" ∈ ["input_ports", "output_ports"] ∧
      "input_ports" ∈ ["input_ports", "output_ports"] := by
    decide
  unfold edgeErrors
  cases hfrom : findPort ((nodesById py (graphNodes graph)).lookup
      (py.str (edge.getText "from_node"))) "output_ports" (edge.get "from_port") with
  | none =>
    constructor
    · intro error herror
      rw [mem_singleton.mp herror]
      simp
    · apply iff_of_false (cons_ne_nil _ _)
      rintro ⟨fromPort, -, hnamed, -⟩
      exact (findPort_eq_none_iff py h hsides.1).mp hfrom ⟨fromPort, hnamed⟩
  | some fromPort =>
    cases hto : findPort ((nodesById py (graphNodes graph)).lookup
        (py.str (edge.getText "to_node"))) "input_ports" (edge.get "to_port") with
    | none =>
      constructor
      · intro error herror
        rw [mem_singleton.mp herror]
        simp
      · apply iff_of_false (cons_ne_nil _ _)
        rintro ⟨-, toPort, -, hnamed, -⟩
        exact (findPort_eq_none_iff py h hsides.2).mp hto ⟨toPort, hnamed⟩
    | some toPort =>
      constructor
      · intro error herror
        rcases mem_append.mp herror with herror | herror
        · rw [eq_of_mem_ite_singleton herror]
          simp
        · rw [eq_of_mem_ite_singleton herror]
          simp
      · simp only [append_eq_nil_iff, ite_singleton_eq_nil, not_not, eq_null_iff]
        have hfrom := (findPort_eq_some_iff py h hsides.1).mp hfrom
        have hto := (findPort_eq_some_iff py h hsides.2).mp hto
        constructor
        · rintro ⟨htype, htimeframe⟩
          refine ⟨fromPort, toPort, hfrom, hto, htype, ?_⟩
          by_contra hnone
          push Not at hnone
          exact htimeframe hnone
        · rintro ⟨other, another, hother, hanother, htype, htimeframe⟩
          -- the ports are the only ones of their names
          obtain rfl := Option.some.inj (((findPort_eq_some_iff py h hsides.1).mpr
            hfrom).symm.trans ((findPort_eq_some_iff py h hsides.1).mpr hother))
          obtain rfl := Option.some.inj (((findPort_eq_some_iff py h hsides.2).mpr
            hto).symm.trans ((findPort_eq_some_iff py h hsides.2).mpr hanother))
          refine ⟨htype, ?_⟩
          rintro ⟨hfrom_given, hto_given, hdiffer⟩
          rcases htimeframe with hnull | hnull | hequal
          · exact hfrom_given hnull
          · exact hto_given hnull
          · exact hdiffer hequal

theorem outputErrors_spec (h : WellNamed graph) (output : GraphMapping) :
    (∀ error ∈ outputErrors py (nodesById py (graphNodes graph)) output,
      error.code ≠ .cycleDetected) ∧
    (outputErrors py (nodesById py (graphNodes graph)) output = [] ↔ ∃ port,
      PortNamed graph (py.str (output.getText "node")) "output_ports" (output.get "port") port) := by
  unfold outputErrors
  constructor
  · intro error herror
    rw [eq_of_mem_ite_singleton herror]
    simp
  · rw [ite_singleton_eq_nil, findPort_eq_none_iff py h (by decide), not_not]

/-! ## The result -/

/-- The errors of a graph before equal ones are dropped: `ofNodes` are those of its nodes. -/
def collectedErrors (py : Interpreter) (graph : GraphMapping)
    (ofNodes : List (List StrategyValidationError)) : List StrategyValidationError :=
  (if graphOutputs graph = [] then
    [{ code := .missingOutput
       message := "전략 그래프는 하나 이상의 실행 출력을 가져야 한다." }]
  else []) ++ ofNodes.flatten ++
  ((graphEdges graph).zipIdx.flatMap fun item =>
    edgeErrors py (nodesById py (graphNodes graph)) item.2 item.1) ++
  (if hasCycle py (scanEdges py (nodesById py (graphNodes graph)) (graphEdges graph)) then
    [{ code := .cycleDetected
       message := "전략 그래프는 순환을 가질 수 없다." }]
  else []) ++
  (graphOutputs graph).flatMap (outputErrors py (nodesById py (graphNodes graph)))

theorem validateStrategyGraph_eq_ok {result : StrategyValidationResult} :
    validateStrategyGraph py graph = .ok result ↔
      ∃ ofNodes, (graphNodes graph).mapM (nodeErrors py) = .ok ofNodes ∧
        result = {
          valid := (deduplicateErrors (collectedErrors py graph ofNodes)).isEmpty
          errors := deduplicateErrors (collectedErrors py graph ofNodes)
          graphHash := canonicalStrategyGraphHash py graph } := by
  unfold validateStrategyGraph
  dsimp only
  rw [bind_eq_ok]
  constructor
  · rintro ⟨ofNodes, hofNodes, h⟩
    exact ⟨ofNodes, hofNodes, (pure_eq_ok.mp h).symm⟩
  · rintro ⟨ofNodes, hofNodes, rfl⟩
    exact ⟨ofNodes, hofNodes, rfl⟩

/-- There are no errors exactly when the graph passes. -/
theorem collectedErrors_eq_nil_iff (h : WellNamed graph)
    (hofNodes : (graphNodes graph).mapM (nodeErrors py) = .ok ofNodes) :
    collectedErrors py graph ofNodes = [] ↔ PassesRules py graph (IntegersAllowed py) := by
  obtain ⟨hback, hforth⟩ := mem_of_mapM_eq_ok hofNodes
  have hnodes : ofNodes.flatten = [] ↔ ∀ node ∈ graphNodes graph, NodeAllowed py node := by
    rw [flatten_eq_nil_iff]
    constructor
    · intro hempty node hnode
      obtain ⟨errors, herrors, hok⟩ := hforth node hnode
      exact (nodeErrors_eq_ok hok).2.mp (hempty errors herrors)
    · intro hallowed errors herrors
      obtain ⟨node, hnode, hok⟩ := hback errors herrors
      exact (nodeErrors_eq_ok hok).2.mpr (hallowed node hnode)
  have hedges : ((graphEdges graph).zipIdx.flatMap fun item =>
      edgeErrors py (nodesById py (graphNodes graph)) item.2 item.1) = [] ↔
        ∀ edge ∈ graphEdges graph, EdgeJoins py graph edge := by
    rw [flatMap_eq_nil_iff]
    constructor
    · intro hempty edge hedge
      rw [← zipIdx_map_fst 0 (graphEdges graph)] at hedge
      obtain ⟨item, hitem, rfl⟩ := mem_map.mp hedge
      exact (edgeErrors_spec h item.2 item.1).2.mp (hempty item hitem)
    · intro hjoins item hitem
      exact (edgeErrors_spec h item.2 item.1).2.mpr
        (hjoins item.1 (fst_mem_of_mem_zipIdx hitem))
  have houtputs : (graphOutputs graph).flatMap
      (outputErrors py (nodesById py (graphNodes graph))) = [] ↔
        ∀ output ∈ graphOutputs graph, ∃ port, PortNamed graph (py.str (output.getText "node"))
          "output_ports" (output.get "port") port := by
    rw [flatMap_eq_nil_iff]
    exact forall₂_congr fun output _ => (outputErrors_spec h output).2
  simp only [collectedErrors, append_eq_nil_iff, ite_singleton_eq_nil, hnodes, hedges,
    houtputs, hasCycle_iff_cyclic py h]
  constructor
  · rintro ⟨⟨⟨⟨houtput, hnodes⟩, hedges⟩, hacyclic⟩, houtputs⟩
    exact ⟨houtput, houtputs, hedges, hacyclic, fun node hnode => (hnodes node hnode).policy,
      fun node hnode => (hnodes node hnode).threshold,
      fun node hnode => (hnodes node hnode).integers⟩
  · intro hpasses
    refine ⟨⟨⟨⟨hpasses.has_output, fun node hnode => ?_⟩, hpasses.edges⟩, hpasses.acyclic⟩,
      hpasses.outputs⟩
    exact ⟨hpasses.policies node hnode, hpasses.thresholds node hnode,
      hpasses.settings node hnode⟩

/-- The error of a cycle comes from the search for cycles only. -/
theorem cycle_mem_collectedErrors_iff (h : WellNamed graph)
    (hofNodes : (graphNodes graph).mapM (nodeErrors py) = .ok ofNodes) :
    (∃ error ∈ collectedErrors py graph ofNodes, error.code = .cycleDetected) ↔
      Cyclic py graph := by
  rw [← hasCycle_iff_cyclic py h]
  constructor
  · rintro ⟨error, herror, hcode⟩
    rcases mem_append.mp herror with herror | herror
    · rcases mem_append.mp herror with herror | herror
      · rcases mem_append.mp herror with herror | herror
        · rcases mem_append.mp herror with herror | herror
          · rw [eq_of_mem_ite_singleton herror] at hcode
            cases hcode
          · obtain ⟨errors, herrors, hmem⟩ := mem_flatten.mp herror
            obtain ⟨node, -, hok⟩ := (mem_of_mapM_eq_ok hofNodes).1 errors herrors
            exact absurd hcode ((nodeErrors_eq_ok hok).1 error hmem)
        · obtain ⟨item, -, hmem⟩ := mem_flatMap.mp herror
          exact absurd hcode ((edgeErrors_spec h item.2 item.1).1 error hmem)
      · by_contra hnone
        rw [if_neg hnone] at herror
        cases herror
    · obtain ⟨output, -, hmem⟩ := mem_flatMap.mp herror
      exact absurd hcode ((outputErrors_spec h output).1 error hmem)
  · intro hcycle
    rw [collectedErrors, if_pos hcycle]
    exact ⟨_, mem_append_left _ (mem_append_right _ (mem_singleton_self _)), rfl⟩

/-- A graph is found valid exactly when it keeps the rules with its integers. -/
theorem valid_iff (h : WellNamed graph) :
    (∃ result, validateStrategyGraph py graph = .ok result ∧ result.valid = true) ↔
      PassesRules py graph (IntegersAllowed py) := by
  simp only [validateStrategyGraph_eq_ok]
  constructor
  · rintro ⟨result, ⟨ofNodes, hofNodes, rfl⟩, hvalid⟩
    rw [List.isEmpty_iff, deduplicateErrors_eq_nil_iff] at hvalid
    exact (collectedErrors_eq_nil_iff h hofNodes).mp hvalid
  · intro hpasses
    have hok : ∃ ofNodes, (graphNodes graph).mapM (nodeErrors py) = .ok ofNodes := by
      rw [mapM_isOk_iff]
      intro node hnode
      apply nodeErrors_isOk_iff.mpr
      intro hdataset
      obtain ⟨policy, -, hpolicy⟩ := hpasses.policies node hnode hdataset
      rw [hpolicy]
      trivial
    obtain ⟨ofNodes, hofNodes⟩ := hok
    refine ⟨_, ⟨ofNodes, hofNodes, rfl⟩, ?_⟩
    rw [List.isEmpty_iff, deduplicateErrors_eq_nil_iff]
    exact (collectedErrors_eq_nil_iff h hofNodes).mpr hpasses

/-- A cycle is reported exactly when there is one and the policies can be looked up. -/
theorem cycleDetected_iff (h : WellNamed graph) :
    (∃ result, validateStrategyGraph py graph = .ok result ∧
      ∃ error ∈ result.errors, error.code = .cycleDetected) ↔
        PoliciesHashable py graph ∧ Cyclic py graph := by
  have hok : (∃ ofNodes, (graphNodes graph).mapM (nodeErrors py) = .ok ofNodes) ↔
      PoliciesHashable py graph := by
    rw [mapM_isOk_iff]
    exact forall₂_congr fun node _ => nodeErrors_isOk_iff
  simp only [validateStrategyGraph_eq_ok]
  rw [← hok]
  constructor
  · rintro ⟨result, ⟨ofNodes, hofNodes, rfl⟩, hcode⟩
    refine ⟨⟨ofNodes, hofNodes⟩, (cycle_mem_collectedErrors_iff h hofNodes).mp ?_⟩
    exact (code_mem_deduplicateErrors _ _).mp hcode
  · rintro ⟨⟨ofNodes, hofNodes⟩, hcyclic⟩
    refine ⟨_, ⟨ofNodes, hofNodes, rfl⟩, (code_mem_deduplicateErrors _ _).mpr ?_⟩
    exact (cycle_mem_collectedErrors_iff h hofNodes).mpr hcyclic

/-- The rules with the settings that are read keep the settings as they should be exactly when
every setting that matters is read. -/
theorem passesRules_iff :
    PassesRules py graph (SettingsAllowed py) ↔ PassesRules py graph (IntegersAllowed py) ∧
      ∀ node ∈ graphNodes graph, SettingsRead py node := by
  constructor
  · intro h
    constructor
    · exact { h with
        settings := fun node hnode => (settingsAllowed_iff.mp (h.settings node hnode)).1 }
    · exact fun node hnode => (settingsAllowed_iff.mp (h.settings node hnode)).2
  · rintro ⟨h, hread⟩
    exact { h with
      settings := fun node hnode =>
        settingsAllowed_iff.mpr ⟨h.settings node hnode, hread node hnode⟩ }

/-- A graph is found valid exactly when it keeps all rules, and a cycle is reported exactly when
there is one: if and only if no setting that matters is passed over in a graph that keeps the
rules otherwise, and no policy of a graph with a cycle stops the validation.
SOURCE: strategy_graph.py:70-210, 316-385 -/
theorem validateStrategyGraph_sound_iff (py : Interpreter) {graph : GraphMapping}
    (h : WellNamed graph) :
    (((∃ result, validateStrategyGraph py graph = .ok result ∧ result.valid = true) ↔
        PassesRules py graph (SettingsAllowed py)) ∧
      ((∃ result, validateStrategyGraph py graph = .ok result ∧
          ∃ error ∈ result.errors, error.code = .cycleDetected) ↔ Cyclic py graph)) ↔
      (PassesRules py graph (IntegersAllowed py) →
        ∀ node ∈ graphNodes graph, SettingsRead py node) ∧
      (Cyclic py graph → PoliciesHashable py graph) := by
  rw [valid_iff h, cycleDetected_iff h, passesRules_iff]
  apply and_congr
  · exact iff_self_and
  · exact and_iff_right_iff_imp

/-! ## Graphs of one node -/

/-- An interpreter for the runs below, which read no decimals and no floats. -/
def plainInterpreter : Interpreter where
  repr := fun _ => ""
  decimalText := fun _ => ""
  readsDecimal := fun _ => true
  sha256 := fun _ => "hash"
  setOrder := id
  setOrder_perm := List.Perm.refl

/-- The node `a` with the ports `in` and `out`. -/
def oneNode (type : String) (config : GraphMapping) : GraphMapping :=
  [("id", .text "a"), ("type", .text type), ("config", .mapping config),
    ("input_ports", .list [.mapping [("name", .text "in")]]),
    ("output_ports", .list [.mapping [("name", .text "out")]])]

/-- A graph of one node, its port as the output, and edges. -/
def oneNodeGraph (type : String) (config : GraphMapping) (edges : List GraphMapping) :
    GraphMapping :=
  [("nodes", .list [.mapping (oneNode type config)]),
    ("edges", .list (edges.map .mapping)),
    ("outputs", .list [.mapping [("node", .text "a"), ("port", .text "out")]])]

theorem wellNamed_oneNodeGraph (type : String) (config : GraphMapping)
    (edges : List GraphMapping) : WellNamed (oneNodeGraph type config edges) := by
  have hnode : ∀ node ∈ graphNodes (oneNodeGraph type config edges), node = oneNode type config :=
    fun node hnode => mem_singleton.mp hnode
  constructor
  case ids =>
    intro node hmem
    rw [hnode node hmem]
    exact ⟨"a", rfl⟩
  case ids_nodup => exact nodup_singleton _
  case names =>
    intro node hmem side hside port hport
    rw [hnode node hmem] at hport
    rcases mem_pair.mp hside with rfl | rfl
    · rw [mem_singleton.mp hport]
      exact ⟨"in", rfl⟩
    · rw [mem_singleton.mp hport]
      exact ⟨"out", rfl⟩
  case names_nodup =>
    intro node hmem side hside
    rw [hnode node hmem]
    rcases mem_pair.mp hside with rfl | rfl
    · exact nodup_singleton _
    · exact nodup_singleton _

/-- An average over three periods with a warm-up. -/
def smaGraph (warmup : GraphValue) : GraphMapping :=
  oneNodeGraph "indicator.sma" [("windowPeriods", .int 3), ("warmupPeriods", warmup)] []

/-- A dataset that leads to itself. -/
def loopGraph (policy : GraphValue) : GraphMapping :=
  oneNodeGraph "dataset.candle" [("missingDataPolicy", policy)]
    [[("from_node", .text "a"), ("to_node", .text "a")]]

/-- A graph of one moving average. -/
theorem validateStrategyGraph_sound_sma :
    ((∃ result, validateStrategyGraph plainInterpreter (smaGraph (.int 3)) = .ok result ∧
          result.valid = true) ↔
        PassesRules plainInterpreter (smaGraph (.int 3)) (SettingsAllowed plainInterpreter)) ∧
      ((∃ result, validateStrategyGraph plainInterpreter (smaGraph (.int 3)) = .ok result ∧
          ∃ error ∈ result.errors, error.code = .cycleDetected) ↔
        Cyclic plainInterpreter (smaGraph (.int 3))) := by
  apply (validateStrategyGraph_sound_iff plainInterpreter
    (wellNamed_oneNodeGraph "indicator.sma"
      [("windowPeriods", .int 3), ("warmupPeriods", .int 3)] [])).mpr
  constructor
  · intro _ node hnode
    rw [mem_singleton.mp hnode]
    constructor
    case lookAhead =>
      intro key hkey hpos
      rcases mem_pair.mp hkey with rfl | rfl
      · cases hpos
      · cases hpos
    case offset =>
      intro hneg
      cases hneg
    case warmup =>
      intro _
      exact Or.inr ⟨3, rfl⟩
  · intro _ node hnode _
    rw [mem_singleton.mp hnode]
    trivial

/-- A warm-up that is a text is passed over, and a policy that is a list stops the validation of a
graph with a cycle. -/
theorem validateStrategyGraph_not_sound : (WellNamed (smaGraph (.text "2")) ∧
      (∃ result, validateStrategyGraph plainInterpreter (smaGraph (.text "2")) = .ok result ∧
        result.valid = true) ∧
      ¬ PassesRules plainInterpreter (smaGraph (.text "2")) (SettingsAllowed plainInterpreter)) ∧
    WellNamed (loopGraph (.list [])) ∧ Cyclic plainInterpreter (loopGraph (.list [])) ∧
      ¬ ∃ result, validateStrategyGraph plainInterpreter (loopGraph (.list [])) = .ok result := by
  constructor
  · have hvalid : (validateStrategyGraph plainInterpreter (smaGraph (.text "2"))).toOption.any
        StrategyValidationResult.valid = true := by
      decide +kernel
    obtain ⟨result, hresult, hvalid⟩ := (Option.any_eq_true _ _).mp hvalid
    refine ⟨wellNamed_oneNodeGraph _ _ _, ⟨result, mem_toOption.mp hresult, hvalid⟩, ?_⟩
    intro hpasses
    obtain ⟨window, -, -, -, hwarmup⟩ := (hpasses.settings _ (mem_singleton_self _)).sma rfl
    rcases hwarmup with hnull | ⟨warmup, hint, -⟩
    · cases hnull
    · cases hint
  · have hraises : (validateStrategyGraph plainInterpreter (loopGraph (.list []))).isOk = false := by
      decide +kernel
    refine ⟨wellNamed_oneNodeGraph _ _ _, ⟨"a", .single ⟨⟨_, mem_singleton_self _, rfl⟩,
      ⟨_, mem_singleton_self _, rfl⟩, ⟨_, mem_singleton_self _, rfl⟩⟩⟩, ?_⟩
    rintro ⟨result, hresult⟩
    rw [hresult] at hraises
    cases hraises

end Goodmoneying.Analysis
