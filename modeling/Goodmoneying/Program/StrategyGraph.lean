import Mathlib.Algebra.Order.Ring.Rat
import Mathlib.Data.String.Basic
import Goodmoneying.Library.Grouping

/-!
# Validating a strategy graph

`strategy_graph.py`: a graph of nodes, edges and outputs, given as mappings of arbitrary values,
is checked rule by rule. The errors are collected in order, and of equal ones the first is kept;
the graph is valid when there are none. Cycles are looked for by taking away nodes that no edge
leads to.

A look-up with `in` of a list or a mapping in a set raises, and so does the validation then.
-/

namespace Goodmoneying.Program

open Library

/-! ## Values -/

/-- A `float`. -/
inductive FloatValue where
  | finite (value : ℚ)
  | infinite (negative : Bool)
  | nan
  deriving DecidableEq

/-- The values of a graph: those of a JSON document, and decimals. -/
inductive GraphValue where
  | null
  | bool (value : Bool)
  | int (value : ℤ)
  | float (value : FloatValue)
  | decimal (value : ℚ)
  | text (value : String)
  | list (items : List GraphValue)
  | mapping (entries : List (String × GraphValue))

/-- The entries of a mapping with keys of text. -/
abbrev GraphMapping := List (String × GraphValue)

/-- `mapping.get(key)`. -/
def GraphMapping.get (entries : GraphMapping) (key : String) : GraphValue :=
  (entries.lookup key).getD .null

/-- `mapping.get(key, "")`. -/
def GraphMapping.getText (entries : GraphMapping) (key : String) : GraphValue :=
  (entries.lookup key).getD (.text "")

namespace GraphValue

/-- The value of a number in comparisons; `True` and `False` are 1 and 0. -/
def number? : GraphValue → Option FloatValue
  | bool value => some (.finite (if value then 1 else 0))
  | int value => some (.finite value)
  | float value => some value
  | decimal value => some (.finite value)
  | _ => none

mutual

/-- `==`. -/
def eq : GraphValue → GraphValue → Bool
  | text first, other =>
    match other with
    | text second => first = second
    | _ => false
  | list first, other =>
    match other with
    | list second => eqItems first second
    | _ => false
  | mapping first, other =>
    match other with
    | mapping second => first.length = second.length && eqEntries first second
    | _ => false
  | null, other =>
    match other with
    | null => true
    | _ => false
  | first, other =>
    match first.number?, other.number? with
    | some first, some second => first ≠ .nan && first = second
    | _, _ => false

/-- `==` of lists. -/
def eqItems : List GraphValue → List GraphValue → Bool
  | [], second => second.isEmpty
  | first :: rest, second =>
    match second with
    | [] => false
    | item :: items => eq first item && eqItems rest items

/-- Every entry has an equal one under its key. -/
def eqEntries : List (String × GraphValue) → List (String × GraphValue) → Bool
  | [], _ => true
  | (key, value) :: rest, second =>
    (match second.lookup key with
    | some other => eq value other
    | none => false) && eqEntries rest second

end

end GraphValue

/-- What the interpreter adds: the text of values that are not simple, the text of a decimal in
digits, which texts `Decimal` reads, the digest of a canonical value, and the order in which a
set is gone through. -/
structure Interpreter where
  repr : GraphValue → String
  decimalText : ℚ → String
  readsDecimal : String → Bool
  sha256 : GraphValue → String
  setOrder : List String → List String
  setOrder_perm : ∀ items, (setOrder items).Perm items

namespace Interpreter

variable (py : Interpreter)

/-- `str`. -/
def str : GraphValue → String
  | .null => "None"
  | .bool value => if value then "True" else "False"
  | .int value => toString value
  | .text value => value
  | value => py.repr value

end Interpreter

/-! ## Errors -/

/-- `StrategyValidationCode`. -/
inductive StrategyValidationCode where
  | cycleDetected | portTypeMismatch | timeframeIncompatible | lookAheadDetected
  | parameterOutOfRange | missingDataPolicyRequired | insufficientWarmup | missingOutput
  deriving DecidableEq

/-- The text the code is written as. -/
def StrategyValidationCode.text : StrategyValidationCode → String
  | cycleDetected => "cycle_detected"
  | portTypeMismatch => "port_type_mismatch"
  | timeframeIncompatible => "timeframe_incompatible"
  | lookAheadDetected => "look_ahead_detected"
  | parameterOutOfRange => "parameter_out_of_range"
  | missingDataPolicyRequired => "missing_data_policy_required"
  | insufficientWarmup => "insufficient_warmup"
  | missingOutput => "missing_output"

/-- `_VALIDATION_CODES`. -/
def validationCodes : List String :=
  ["cycle_detected", "port_type_mismatch", "timeframe_incompatible", "look_ahead_detected",
    "parameter_out_of_range", "missing_data_policy_required", "insufficient_warmup",
    "missing_output"]

/-- `StrategyValidationError`. -/
structure StrategyValidationError where
  code : StrategyValidationCode
  nodeId : Option String := none
  edgeIndex : Option ℕ := none
  message : String
  deriving DecidableEq

/-- `StrategyValidationResult`. -/
structure StrategyValidationResult where
  valid : Bool
  errors : List StrategyValidationError
  graphHash : String

/-- `TypeError`: a list or a mapping is not hashable. -/
structure UnhashableError where
  typeName : String
  deriving DecidableEq

/-! ## Reading a graph -/

/-- `_mapping`. -/
def mappingOf : GraphValue → GraphMapping
  | .mapping entries => entries
  | _ => []

/-- `_mapping_list`. -/
def mappingList : GraphValue → List GraphMapping
  | .list items => items.filterMap fun item =>
    match item with
    | .mapping entries => some entries
    | _ => none
  | _ => []

/-- `nodes_by_id`. -/
def nodesById (py : Interpreter) (nodes : List GraphMapping) : List (String × GraphMapping) :=
  setItems [] ((nodes.filter fun node => !(node.get "id").eq .null).map fun node =>
    (py.str (node.get "id"), node))

/-- `_find_port`. -/
def findPort (node : Option GraphMapping) (portKey : String) (portName : GraphValue) :
    Option GraphMapping :=
  match node with
  | none => none
  | some node => (mappingList (node.get portKey)).find? fun port =>
    (port.get "name").eq portName

/-- `_int_config`. -/
def intConfig (config : GraphMapping) (key : String) : Option ℤ :=
  match config.get key with
  | .int value => some value
  | _ => none

/-- `_has_positive_lookahead`. -/
def hasPositiveLookahead (config : GraphMapping) : Bool :=
  ["lookAheadPeriods", "futureOffsetPeriods"].any (fun key =>
    (intConfig config key).any fun value => 0 < value) ||
  (intConfig config "offsetPeriods").any fun offset => offset < 0

/-- `_is_decimal_string_or_number`. -/
def isDecimalStringOrNumber (py : Interpreter) : GraphValue → Bool
  | .int _ => true
  | .float _ => true
  | .decimal _ => true
  | .text value => py.readsDecimal value
  | _ => false

/-- `value in _MISSING_DATA_POLICIES`. -/
def inMissingDataPolicies : GraphValue → Except UnhashableError Bool
  | .text value => .ok (value ∈ ["fail", "null", "drop"])
  | .list _ => .error ⟨"list"⟩
  | .mapping _ => .error ⟨"dict"⟩
  | _ => .ok false

/-! ## The rules -/

/-- The type of a node. -/
def nodeType (py : Interpreter) (node : GraphMapping) : String := py.str (node.getText "type")

/-- The settings of a node. -/
def nodeConfig (node : GraphMapping) : GraphMapping := mappingOf (node.get "config")

/-- The errors of the settings of an `indicator.sma` node. -/
def smaErrors (nodeId : String) (config : GraphMapping) : List StrategyValidationError :=
  let window := intConfig config "windowPeriods"
  let warmup := intConfig config "warmupPeriods"
  (if window.all fun window => ¬ (1 ≤ window ∧ window ≤ 10000) then
    [{ code := .parameterOutOfRange
       nodeId := some nodeId
       message := "SMA windowPeriods는 1 이상 10000 이하여야 한다." }]
  else []) ++
  (if window.any fun window => warmup.any fun warmup => warmup < window then
    [{ code := .insufficientWarmup
       nodeId := some nodeId
       message := "warmupPeriods는 windowPeriods 이상이어야 한다." }]
  else [])

/-- Whether the missing-data policy of a node is one that it may have. -/
def policyAllowed (py : Interpreter) (node : GraphMapping) : Except UnhashableError Bool :=
  if (nodeType py node).startsWith "dataset." then
    inMissingDataPolicies ((nodeConfig node).get "missingDataPolicy")
  else .ok true

/-- One round of the loop over the nodes. -/
def nodeErrors (py : Interpreter) (node : GraphMapping) :
    Except UnhashableError (List StrategyValidationError) := do
  let nodeId := py.str (node.getText "id")
  let config := nodeConfig node
  let allowed ← policyAllowed py node
  let policyErrors : List StrategyValidationError :=
    if allowed then []
    else
      [{ code := .missingDataPolicyRequired
         nodeId := some nodeId
         message := "dataset 입력 노드는 결측 정책을 명시해야 한다." }]
  let lookAheadErrors : List StrategyValidationError :=
    if hasPositiveLookahead config then
      [{ code := .lookAheadDetected
         nodeId := some nodeId
         message := "미래 값을 참조하는 look-ahead 설정은 허용하지 않는다." }]
    else []
  let threshold := config.get "threshold"
  let thresholdErrors : List StrategyValidationError :=
    if nodeType py node = "condition.greater_than" ∧ ¬ threshold.eq .null ∧
        ¬ isDecimalStringOrNumber py threshold then
      [{ code := .parameterOutOfRange
         nodeId := some nodeId
         message := "비교 임계값은 decimal 문자열 또는 숫자여야 한다." }]
    else []
  pure (policyErrors ++ lookAheadErrors ++
    (if nodeType py node = "indicator.sma" then smaErrors nodeId config else []) ++
    thresholdErrors)

/-- The errors of an edge. -/
def edgeErrors (py : Interpreter) (nodes : List (String × GraphMapping)) (index : ℕ)
    (edge : GraphMapping) : List StrategyValidationError :=
  let fromPort := findPort (nodes.lookup (py.str (edge.getText "from_node"))) "output_ports"
    (edge.get "from_port")
  let toPort := findPort (nodes.lookup (py.str (edge.getText "to_node"))) "input_ports"
    (edge.get "to_port")
  match fromPort, toPort with
  | some fromPort, some toPort =>
    (if ¬ (fromPort.get "dataType").eq (toPort.get "dataType") then
      [{ code := .portTypeMismatch
         edgeIndex := some index
         message := "edge 양끝의 자료형이 다르다." }]
    else []) ++
    (if ¬ (fromPort.get "timeframe").eq .null ∧ ¬ (toPort.get "timeframe").eq .null ∧
        ¬ (fromPort.get "timeframe").eq (toPort.get "timeframe") then
      [{ code := .timeframeIncompatible
         edgeIndex := some index
         message := "edge 양끝의 시간 주기가 다르다." }]
    else [])
  | _, _ =>
    [{ code := .portTypeMismatch
       edgeIndex := some index
       message := "edge가 존재하지 않는 port를 참조한다." }]

/-- `graph_edges` and `indegree`. -/
structure EdgeScan where
  graphEdges : List (String × List String)
  indegree : List (String × ℤ)

/-- `graph_edges.get(node, set())`. -/
def EdgeScan.targets (scan : EdgeScan) (node : String) : List String :=
  (scan.graphEdges.lookup node).getD []

/-- An edge between known nodes is counted, if there is none between them yet. -/
def EdgeScan.addEdge (py : Interpreter) (nodes : List (String × GraphMapping)) (scan : EdgeScan)
    (edge : GraphMapping) : EdgeScan :=
  let fromNode := py.str (edge.getText "from_node")
  let toNode := py.str (edge.getText "to_node")
  if fromNode ∈ nodes.map Prod.fst ∧ toNode ∈ nodes.map Prod.fst ∧
      toNode ∉ scan.targets fromNode then
    { graphEdges := setItem fromNode (scan.targets fromNode ++ [toNode]) scan.graphEdges
      indegree := setItem toNode ((scan.indegree.lookup toNode).getD 0 + 1) scan.indegree }
  else scan

/-- What the loop over the edges leaves of `graph_edges` and `indegree`. -/
def scanEdges (py : Interpreter) (nodes : List (String × GraphMapping))
    (edges : List GraphMapping) : EdgeScan :=
  edges.foldl (EdgeScan.addEdge py nodes)
    { graphEdges := [], indegree := nodes.map fun entry => (entry.1, 0) }

/-! ## Cycles -/

/-- The variables of the loop of `_has_cycle`. -/
structure CycleScan where
  remaining : List (String × ℤ)
  ready : List String
  visited : ℕ

/-- One round of the inner loop. -/
def CycleScan.release (scan : CycleScan) (target : String) : CycleScan :=
  let remaining := scan.remaining.map fun entry =>
    if entry.1 = target then (entry.1, entry.2 - 1) else entry
  { scan with
    remaining := remaining
    ready := if remaining.lookup target = some 0 then scan.ready ++ [target] else scan.ready }

/-- At most `rounds` rounds of the outer loop. -/
def cycleRounds (py : Interpreter) (targets : String → List String) :
    ℕ → CycleScan → CycleScan
  | 0, scan => scan
  | rounds + 1, scan =>
    match scan.ready with
    | [] => scan
    | node :: ready =>
      cycleRounds py targets rounds ((py.setOrder (targets node)).foldl CycleScan.release
        { scan with ready := ready, visited := scan.visited + 1 })

/-- `_has_cycle`: a node becomes ready once, so there are no more rounds than nodes. -/
def hasCycle (py : Interpreter) (scan : EdgeScan) : Bool :=
  let last := cycleRounds py scan.targets scan.indegree.length
    { remaining := scan.indegree
      ready := (scan.indegree.filter fun entry => entry.2 = 0).map Prod.fst
      visited := 0 }
  last.visited ≠ last.remaining.length

/-! ## Outputs and the result -/

/-- The error of an output. -/
def outputErrors (py : Interpreter) (nodes : List (String × GraphMapping))
    (output : GraphMapping) : List StrategyValidationError :=
  let nodeId := py.str (output.getText "node")
  if findPort (nodes.lookup nodeId) "output_ports" (output.get "port") = none then
    [{ code := .missingOutput
       nodeId := if nodeId = "" then none else some nodeId
       message := "출력이 존재하지 않는 node 또는 port를 참조한다." }]
  else []

/-- `_deduplicate_errors`. -/
def deduplicateErrors (errors : List StrategyValidationError) : List StrategyValidationError :=
  errors.foldl (fun stable error =>
    if error.code.text ∈ validationCodes ∧ ∀ other ∈ stable,
        (other.code, other.nodeId, other.edgeIndex) ≠ (error.code, error.nodeId, error.edgeIndex)
    then stable ++ [error] else stable) []

/-! ## The canonical graph -/

mutual

/-- `_canonical_value`. -/
def canonicalValue (py : Interpreter) : GraphValue → GraphValue
  | .mapping entries => .mapping (canonicalEntries py entries)
  | .list items => .list (canonicalItems py items)
  | .decimal value => .text (py.decimalText value)
  | value => value

/-- The canonical values of a list. -/
def canonicalItems (py : Interpreter) : List GraphValue → List GraphValue
  | [] => []
  | item :: items => canonicalValue py item :: canonicalItems py items

/-- The canonical values of the entries of a mapping. -/
def canonicalEntries (py : Interpreter) : List (String × GraphValue) → List (String × GraphValue)
  | [] => []
  | (key, value) :: entries => (key, canonicalValue py value) :: canonicalEntries py entries

end

/-- `_canonical_port`. -/
def canonicalPort (py : Interpreter) (port : GraphMapping) : GraphMapping :=
  [("name", .text (py.str (port.getText "name"))),
    ("dataType", .text (py.str (port.getText "dataType"))),
    ("timeframe", if (port.get "timeframe").eq .null then .null
      else .text (py.str (port.get "timeframe")))]

/-- The canonical ports of one side of a node. -/
def canonicalPorts (py : Interpreter) (node : GraphMapping) (portKey : String) : GraphValue :=
  .list ((sortedBy (fun port : GraphMapping => py.str (port.get "name"))
    ((mappingList (node.get portKey)).map (canonicalPort py))).map .mapping)

/-- `_canonical_node`. -/
def canonicalNode (py : Interpreter) (node : GraphMapping) : GraphMapping :=
  [("id", .text (py.str (node.getText "id"))),
    ("type", .text (py.str (node.getText "type"))),
    ("config", canonicalValue py ((node.lookup "config").getD (.mapping []))),
    ("input_ports", canonicalPorts py node "input_ports"),
    ("output_ports", canonicalPorts py node "output_ports")]

/-- `_canonical_edge`. -/
def canonicalEdge (py : Interpreter) (edge : GraphMapping) : GraphMapping :=
  ["from_node", "from_port", "to_node", "to_port"].map fun key =>
    (key, .text (py.str (edge.getText key)))

/-- `_canonical_output`. -/
def canonicalOutput (py : Interpreter) (output : GraphMapping) : GraphMapping :=
  ["node", "port"].map fun key => (key, .text (py.str (output.getText key)))

/-- `_canonical_graph`. -/
def canonicalGraph (py : Interpreter) (graph : GraphMapping) : GraphMapping :=
  let text (item : GraphMapping) (key : String) : String := py.str (item.get key)
  let nodes := sortedBy (fun node => toLex (text node "id", text node "type"))
    ((mappingList (graph.get "nodes")).map (canonicalNode py))
  let edges := sortedBy (fun edge => toLex (text edge "from_node", toLex (text edge "from_port",
      toLex (text edge "to_node", text edge "to_port"))))
    ((mappingList (graph.get "edges")).map (canonicalEdge py))
  let outputs := sortedBy (fun output => toLex (text output "node", text output "port"))
    ((mappingList (graph.get "outputs")).map (canonicalOutput py))
  [("schema_version", .text (py.str ((graph.lookup "schema_version").getD
      (graph.getText "schemaVersion")))),
    ("nodes", .list (nodes.map .mapping)),
    ("edges", .list (edges.map .mapping)),
    ("outputs", .list (outputs.map .mapping))]

/-- `canonical_strategy_graph_hash`. -/
def canonicalStrategyGraphHash (py : Interpreter) (graph : GraphMapping) : String :=
  py.sha256 (canonicalValue py (.mapping (canonicalGraph py graph)))

/-! ## The validation -/

/-- `validate_strategy_graph`. -/
def validateStrategyGraph (py : Interpreter) (graph : GraphMapping) :
    Except UnhashableError StrategyValidationResult := do
  let graphHash := canonicalStrategyGraphHash py graph
  let nodes := mappingList (graph.get "nodes")
  let edges := mappingList (graph.get "edges")
  let outputs := mappingList (graph.get "outputs")
  let known := nodesById py nodes
  let noOutputErrors : List StrategyValidationError :=
    if outputs = [] then
      [{ code := .missingOutput
         message := "전략 그래프는 하나 이상의 실행 출력을 가져야 한다." }]
    else []
  let ofNodes ← nodes.mapM (nodeErrors py)
  let ofEdges := edges.zipIdx.flatMap fun item => edgeErrors py known item.2 item.1
  let cycleErrors : List StrategyValidationError :=
    if hasCycle py (scanEdges py known edges) then
      [{ code := .cycleDetected
         message := "전략 그래프는 순환을 가질 수 없다." }]
    else []
  let ofOutputs := outputs.flatMap (outputErrors py known)
  let errors := deduplicateErrors
    (noOutputErrors ++ ofNodes.flatten ++ ofEdges ++ cycleErrors ++ ofOutputs)
  pure {
    valid := errors.isEmpty
    errors := errors
    graphHash := graphHash }

end Goodmoneying.Program
