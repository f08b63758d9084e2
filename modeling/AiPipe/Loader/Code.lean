import AiPipe.Graph
import AiPipe.Loader.Json

/-!
The loader of pipeline descriptions, from `graph_loader.cpp`, with what it calls of `graph.cpp`
and `node_registry.hpp`.  An exception of the JSON library passes through `Load`.
-/

namespace AiPipe.Loader

open Nlohmann

abbrev Load := ExceptT Error (Except Exception)

/-! `Graph`: the maps from names and nodes are searches here. -/

structure LogicNode extends NodeDecl where
  portPayloadType : String → Option Nat := fun _ => none

structure Graph where
  nodes : List LogicNode := []
  edges : List Edge := []
  edgeKeys : List String := []

namespace Graph

def getNode (graph : Graph) (name : String) : Option Nat :=
  graph.nodes.findIdx? fun node => node.name == name

/-- `false` is `none`; a null node and a name that is taken are refused. -/
def addNode (graph : Graph) : Option LogicNode → Option Graph
  | none => none
  | some node =>
    if (graph.getNode node.name).isSome then none
    else some { graph with nodes := graph.nodes ++ [node] }

def acceptsPort (declared : List String) (port : String) : Bool :=
  port = "" || declared.contains port

def payloadsAgree (source : LogicNode) (sourcePort : String) (dest : LogicNode)
    (destPort : String) : Bool :=
  sourcePort = "" || destPort = "" ||
    match source.portPayloadType sourcePort, dest.portPayloadType destPort with
    | some sourceType, some destType => sourceType == destType
    | _, _ => true

def edgeKey (sourceName sourcePort destName destPort : String) : String :=
  sourceName ++ "\x00" ++ sourcePort ++ "\x00" ++ destName ++ "\x00" ++ destPort

def addEdge (graph : Graph) (sourceName sourcePort destName destPort : String) : Option Graph := do
  let source ← graph.getNode sourceName
  let dest ← graph.getNode destName
  let sourceNode ← graph.nodes[source]?
  let destNode ← graph.nodes[dest]?
  guard (acceptsPort sourceNode.outputPorts sourcePort)
  guard (acceptsPort destNode.inputPorts destPort)
  guard (payloadsAgree sourceNode sourcePort destNode destPort)
  let key := edgeKey sourceName sourcePort destName destPort
  guard (key ∉ graph.edgeKeys)
  some { graph with
    edges := graph.edges ++ [⟨source, sourcePort, dest, destPort⟩]
    edgeKeys := graph.edgeKeys ++ [key] }

def declarations (graph : Graph) : List NodeDecl := graph.nodes.map LogicNode.toNodeDecl

def outEdges (graph : Graph) (node : Nat) : List OutEdge :=
  (graph.edges.filter fun edge => edge.sourceNode == node).map (Edge.toOutEdge graph.declarations)

def inDegree (graph : Graph) (node : Nat) : Nat :=
  graph.edges.countP fun edge => edge.destNode == node

/-- Kahn's algorithm peels the nodes without incoming edges; what is left is on a cycle. -/
def hasCycle (graph : Graph) : Bool :=
  let count := graph.nodes.length
  let ready := (List.range count).filter fun node => graph.inDegree node == 0
  (kahn graph.outEdges count (fun node => graph.inDegree node, ready) []).length != count

end Graph

/-! The parameters of a node, and the registry. -/

inductive Param where
  | bool (value : Bool)
  | int64 (value : Int)
  | double (value : Rat)
  | text (value : String)
  | texts (values : List String)
  | ints (values : List Int)
  | doubles (values : List Rat)
  deriving DecidableEq, Repr

abbrev Params := List (String × Param)

def setParam (key : String) (value : Param) : Params → Params
  | [] => [(key, value)]
  | entry :: rest =>
    if entry.1 = key then (key, value) :: rest else entry :: setParam key value rest

/-- A factory answers a `Result`, and its node may be null. -/
abbrev Factory := String → Params → Except Error (Option LogicNode)

abbrev NodeRegistry := String → Option Factory

def NodeRegistry.create (registry : NodeRegistry) (typeName nodeName : String) (config : Params) :
    Except Error (Option LogicNode) :=
  match registry typeName with
  | none => .error ⟨.invalidArgument, "Unknown node type: " ++ typeName, ""⟩
  | some factory => factory nodeName config

/-! The loader. -/

def err {α : Type} (message : String) : Load α := throw ⟨.invalidConfiguration, message, ""⟩

def checkKnownKeys (object : Json) (what : String) (allowed : List String) : Load Unit :=
  object.items.forM fun item =>
    if allowed.contains item.1 then pure ()
    else err ("Unknown key '" ++ item.1 ++ "' in " ++ what)

def int64Max : Nat := 2 ^ 63 - 1

def sizeMax : Nat := 2 ^ 64 - 1

def setArrayParam (config : Params) (fail : String → Load Params) (key : String) (value : Json) :
    Load Params := do
  let allString := value.elements.all Json.isString
  let allNumber := value.elements.all Json.isNumber
  let allInt := value.elements.all Json.isNumberInteger
  if value.empty then
    fail "empty arrays are ambiguous; omit the key or use a non-empty typed array"
  else if allString then
    return setParam key (.texts (← value.getVector Json.getString)) config
  else if allInt then
    return setParam key (.ints (← value.getVector Json.getInt64)) config
  else if allNumber then
    return setParam key (.doubles (← value.getVector Json.getDouble)) config
  else
    fail "arrays must be homogeneous numbers or strings"

def setConfigParam (config : Params) (nodeName key : String) (value : Json) : Load Params :=
  let fail (reason : String) : Load Params :=
    err ("Node '" ++ nodeName ++ "' config key '" ++ key ++ "': " ++ reason)
  match value with
  | .boolean _ => do return setParam key (.bool (← value.getBool)) config
  | .integer _ => do return setParam key (.int64 (← value.getInt64)) config
  | .unsigned _ => do
      if int64Max < (← value.getUint64) then
        fail "integer value exceeds int64 range"
      else
        return setParam key (.int64 (← value.getInt64)) config
  | .float _ => do return setParam key (.double (← value.getDouble)) config
  | .string _ => do return setParam key (.text (← value.getString)) config
  | .array _ => setArrayParam config fail key value
  | _ => fail ("unsupported value type (allowed: bool, integer, float, string, " ++
      "flat array of numbers or strings)")

def splitEndpoint (text : String) : Option (String × String) := do
  let characters := text.toList
  let dot ← characters.findIdx? (· == '.')
  let fromEnd ← characters.reverse.findIdx? (· == '.')
  guard (dot + fromEnd + 1 = characters.length ∧ dot ≠ 0 ∧ dot + 1 ≠ characters.length)
  some (String.ofList (characters.take dot), String.ofList (characters.drop (dot + 1)))

def parseEndpointObject (endpoint : Json) (place : String) : Load (String × String) := do
  checkKnownKeys endpoint place ["node", "port"]
  if !endpoint.contains "node" then
    err (place ++ ": object form requires a string 'node'")
  else
    let node ← endpoint.item "node"
    if !node.isString then
      err (place ++ ": object form requires a string 'node'")
    else
      let name ← node.getString
      -- the member is read as a text before its kind is tested
      let port ← endpoint.valueOr "port" ""
      if !endpoint.contains "port" then
        return (name, port)
      else if !(← endpoint.item "port").isString then
        err (place ++ ": 'port' must be a string")
      else
        return (name, port)

def parseEndpoint (endpoint : Json) (side : String) (index : Nat) : Load (String × String) :=
  let place := "edge #" ++ toString index ++ " '" ++ side ++ "'"
  if endpoint.isString then do
    let text ← endpoint.getString
    match splitEndpoint text with
    | none => err (place ++ ": expected \"node.port\" with exactly one '.' (got '" ++ text ++
        "'); use the object form for dotted names")
    | some parts => return parts
  else if endpoint.isObject then
    parseEndpointObject endpoint place
  else
    err (place ++ ": expected a \"node.port\" string or " ++
      "\x7b\"node\": ..., \"port\": ...\x7d object")

def parseUintOption (value : Json) (key : String) (min max : Nat) : Load Nat := do
  if !value.isNumberUnsigned && !value.isNumberInteger then
    err ("Option '" ++ key ++ "' must be an integer")
  else if value.isNumberInteger && (← value.getInt64) < 0 then
    err ("Option '" ++ key ++ "' must be non-negative")
  else
    let parsed ← value.getUint64
    if parsed < min || max < parsed then
      err ("Option '" ++ key ++ "' out of range [" ++ toString min ++ ", " ++ toString max ++ "]")
    else
      return parsed

inductive ExecutionMode where
  | batch
  | stream
  deriving DecidableEq, Repr

structure PipelineOptions where
  mode : ExecutionMode := .batch
  numWorkers : Nat := 4
  executionTimeout : Nat := 0
  queueCapacity : Nat := 0
  dropStrategy : String := "DropHead"
  enableSyncCoordination : Bool := false
  enableStatistics : Bool := true
  alignmentPolicy : AlignmentPolicy := .frameId
  alignmentTolerance : Nat := 33000
  joinWaitTimeout : Nat := 0
  joinTimeoutPolicy : JoinTimeoutPolicy := .partialInputs
  deriving DecidableEq, Repr

namespace PipelineOptions

def batch (workers : Nat := 4) : PipelineOptions := { mode := .batch, numWorkers := workers }

def stream (workers : Nat := 4) (queueCap : Nat := 16) : PipelineOptions :=
  { mode := .stream, numWorkers := workers, queueCapacity := queueCap
    enableSyncCoordination := true }

end PipelineOptions

def withOption (source : Json) (key : String) (options : PipelineOptions)
    (change : Json → Load PipelineOptions) : Load PipelineOptions := do
  if source.contains key then change (← source.item key) else return options

def stringOption (value : Json) (key : String) : Load String := do
  if !value.isString then err ("Option '" ++ key ++ "' must be a string") else value.getString

def booleanOption (value : Json) (key : String) : Load Bool := do
  if !value.isBoolean then err ("Option '" ++ key ++ "' must be a boolean") else value.getBool

def parseMode (mode : String) : Load PipelineOptions :=
  if mode = "batch" then return .batch
  else if mode = "stream" then return .stream
  else err ("Option 'mode' must be \"batch\" or \"stream\" (got '" ++ mode ++ "')")

def parseAlignmentPolicy (policy : String) : Load AlignmentPolicy :=
  if policy = "frame_id" then return .frameId
  else if policy = "stream_frame_id" then return .streamFrameId
  else if policy = "timestamp" then return .timestamp
  else err ("Option 'alignment_policy' must be \"frame_id\", \"stream_frame_id\" or " ++
    "\"timestamp\" (got '" ++ policy ++ "')")

def parseJoinTimeoutPolicy (policy : String) : Load JoinTimeoutPolicy :=
  if policy = "partial_inputs" then return .partialInputs
  else if policy = "skip_frame" then return .skipFrame
  else err ("Option 'join_timeout_policy' must be \"partial_inputs\" or \"skip_frame\" (got '" ++
    policy ++ "')")

def optionKeys : List String :=
  ["mode", "num_workers", "execution_timeout_ms", "queue_capacity", "drop_strategy",
    "enable_sync_coordination", "enable_statistics", "alignment_policy",
    "alignment_tolerance_us", "join_wait_timeout_ms", "join_timeout_policy"]

def overrideOptions (source : Json) (options : PipelineOptions) : Load PipelineOptions := do
  let options ← withOption source "num_workers" options fun value => do
    return { options with numWorkers := ← parseUintOption value "num_workers" 1 255 }
  let options ← withOption source "execution_timeout_ms" options fun value => do
    return { options with
      executionTimeout := ← parseUintOption value "execution_timeout_ms" 0 int64Max }
  let options ← withOption source "queue_capacity" options fun value => do
    return { options with queueCapacity := ← parseUintOption value "queue_capacity" 0 sizeMax }
  let options ← withOption source "drop_strategy" options fun value => do
    return { options with dropStrategy := ← stringOption value "drop_strategy" }
  let options ← withOption source "enable_sync_coordination" options fun value => do
    return { options with
      enableSyncCoordination := ← booleanOption value "enable_sync_coordination" }
  let options ← withOption source "enable_statistics" options fun value => do
    return { options with enableStatistics := ← booleanOption value "enable_statistics" }
  let options ← withOption source "alignment_policy" options fun value => do
    return { options with
      alignmentPolicy := ← parseAlignmentPolicy (← stringOption value "alignment_policy") }
  let options ← withOption source "alignment_tolerance_us" options fun value => do
    return { options with
      alignmentTolerance := ← parseUintOption value "alignment_tolerance_us" 0 int64Max }
  let options ← withOption source "join_wait_timeout_ms" options fun value => do
    return { options with
      joinWaitTimeout := ← parseUintOption value "join_wait_timeout_ms" 0 int64Max }
  withOption source "join_timeout_policy" options fun value => do
    return { options with
      joinTimeoutPolicy := ← parseJoinTimeoutPolicy (← stringOption value "join_timeout_policy") }

def parseOptions (document : Json) : Load PipelineOptions := do
  if !document.contains "options" then
    return {}
  else
    let source ← document.item "options"
    if !source.isObject then
      err "'options' must be an object"
    else
      checkKnownKeys source "'options'" optionKeys
      let options ← withOption source "mode" {} fun value => do
        parseMode (← stringOption value "mode")
      overrideOptions source options

def stringMember (entry : Json) (key : String) : Load (Option String) := do
  if !entry.contains key then
    return none
  else
    let value ← entry.item key
    if value.isString then return some (← value.getString) else return none

def parseConfig (name : String) (entry : Json) : Load Params := do
  if !entry.contains "config" then
    return []
  else
    let source ← entry.item "config"
    if !source.isObject then
      err ("Node '" ++ name ++ "': 'config' must be an object")
    else
      source.items.foldlM (fun config item => setConfigParam config name item.1 item.2) []

def createNode (registry : NodeRegistry) (graph : Graph) (typeName name : String)
    (config : Params) : Load Graph :=
  match registry.create typeName name config with
  | .error failure => err ("Node '" ++ name ++ "' (type '" ++ typeName ++
      "') could not be created: " ++ failure.toString)
  | .ok node =>
    match graph.addNode node with
    | none => err ("Duplicate node name: '" ++ name ++ "'")
    | some graph => return graph

def addNodeEntry (registry : NodeRegistry) (graph : Graph) (entry : Json) : Load Graph := do
  if !entry.isObject then
    err "Each 'nodes' entry must be an object"
  else
    checkKnownKeys entry "a 'nodes' entry" ["type", "name", "config"]
    match ← stringMember entry "type", ← stringMember entry "name" with
    | some typeName, some name =>
      if name = "" then
        err "Node names must be non-empty"
      else
        createNode registry graph typeName name (← parseConfig name entry)
    | _, _ => err "Each 'nodes' entry requires string 'type' and 'name'"

def addEdgeEntry (graph : Graph) (index : Nat) (entry : Json) : Load Graph :=
  let place := "edge #" ++ toString index
  if !entry.isObject then
    err (place ++ ": each entry must be an object")
  else do
    checkKnownKeys entry place ["from", "to"]
    if !entry.contains "from" || !entry.contains "to" then
      err (place ++ ": requires 'from' and 'to'")
    else
      let (fromNode, fromPort) ← parseEndpoint (← entry.item "from") "from" index
      let (toNode, toPort) ← parseEndpoint (← entry.item "to") "to" index
      match graph.addEdge fromNode fromPort toNode toPort with
      | none => err (place ++ " (" ++ fromNode ++ "." ++ fromPort ++ " -> " ++ toNode ++ "." ++
          toPort ++ ") was rejected: check node names, declared ports, payload types, and " ++
          "duplicates (see log for details)")
      | some graph => return graph

def addEdgeEntries (graph : Graph) (entries : List Json) : Load Graph :=
  entries.zipIdx.foldlM (fun graph (entry, index) => addEdgeEntry graph index entry) graph

def parseNodes (registry : NodeRegistry) (document : Json) : Load Graph := do
  if !document.contains "nodes" then
    err "'nodes' must be a non-empty array"
  else
    let nodes ← document.item "nodes"
    if !nodes.isArray || nodes.empty then
      err "'nodes' must be a non-empty array"
    else
      nodes.elements.foldlM (addNodeEntry registry) {}

def parseEdges (document : Json) (graph : Graph) : Load Graph := do
  if !document.contains "edges" then
    return graph
  else
    let edges ← document.item "edges"
    if !edges.isArray then
      err "'edges' must be an array"
    else
      addEdgeEntries graph edges.elements

def assembleGraph (document : Json) (registry : NodeRegistry) : Load Graph := do
  if !document.isObject then
    err "Top-level JSON value must be an object"
  else
    checkKnownKeys document "top-level document" ["nodes", "edges", "options"]
    let graph ← parseNodes registry document
    let graph ← parseEdges document graph
    if graph.hasCycle then
      throw ⟨.graphCycleDetected, "The described graph contains a cycle", ""⟩
    else
      return graph

def parseDocument (parser : Parser) (text : List UInt8) : Load Json :=
  match parser.parse text with
  | .ok document => return document
  | .error (.parseError what) => err ("JSON parse error: " ++ what)
  | .error exception => liftM (Except.error exception : Throws Json)

structure PipelineDescription where
  graph : Graph
  options : PipelineOptions

def loadGraphFromJson (parser : Parser) (registry : NodeRegistry) (text : List UInt8) :
    Load Graph := do
  let document ← parseDocument parser text
  assembleGraph document registry

def loadPipelineFromJson (parser : Parser) (registry : NodeRegistry) (text : List UInt8) :
    Load PipelineDescription := do
  let document ← parseDocument parser text
  let graph ← assembleGraph document registry
  let options ← parseOptions document
  return ⟨graph, options⟩

end AiPipe.Loader
