import AiPipe.Types
import Mathlib.Data.List.Nodup
import Mathlib.Data.List.Perm.Subperm
import Mathlib.Data.List.Count
import Mathlib.Logic.Function.Basic
import Mathlib.Tactic.Ring

/-!
Graphs and their compiled form.  A `Graph` carries what `addNode` and `addEdge`
guarantee; `compile` builds the routing tables in one pass over the edges and runs
Kahn's algorithm.
-/

namespace AiPipe

structure NodeDecl where
  name : String
  inputPorts : List String
  outputPorts : List String
  deriving DecidableEq, Repr

structure NodeEdge (Node : Type) where
  sourceNode : Node
  sourcePort : String
  destNode : Node
  destPort : String
  deriving DecidableEq, Repr

/-- An edge of a compiled graph, between the positions of two nodes. -/
abbrev Edge := NodeEdge Nat

/-- `addEdge` accepts an empty port name without looking at the declared ports. -/
def Edge.declared (nodes : List NodeDecl) (edge : Edge) : Prop :=
  ∃ source ∈ nodes[edge.sourceNode]?, ∃ dest ∈ nodes[edge.destNode]?,
    (edge.sourcePort = "" ∨ edge.sourcePort ∈ source.outputPorts) ∧
    (edge.destPort = "" ∨ edge.destPort ∈ dest.inputPorts)

/-- A node that declared one input port twice would leave the engine with a dangling
queue, so the declared ports of a node are taken to be distinct. -/
structure Graph where
  nodes : List NodeDecl
  edges : List Edge
  namesNodup : (nodes.map NodeDecl.name).Nodup
  portsNodup : ∀ node ∈ nodes, node.inputPorts.Nodup
  edgesNodup : edges.Nodup
  edgesDeclared : ∀ edge ∈ edges, edge.declared nodes

structure OutEdge where
  sourcePort : String
  destNode : Nat
  destPort : String
  destPortIndex : Option Nat
  deriving DecidableEq, Repr

def inputPortsOf (nodes : List NodeDecl) (index : Nat) : List String :=
  (nodes[index]?.map NodeDecl.inputPorts).getD []

structure RoutingTables where
  outEdges : Nat → List OutEdge := fun _ => []
  successors : Nat → List Nat := fun _ => []
  predecessors : Nat → List Nat := fun _ => []
  inDegree : Nat → Nat := fun _ => 0
  portCovered : Nat → Nat → Bool := fun _ _ => false

def pushUnique (value : Nat) (values : List Nat) : List Nat :=
  if value ∈ values then values else values ++ [value]

def Edge.toOutEdge (nodes : List NodeDecl) (edge : Edge) : OutEdge where
  sourcePort := edge.sourcePort
  destNode := edge.destNode
  destPort := edge.destPort
  destPortIndex := (inputPortsOf nodes edge.destNode).idxOf? edge.destPort

def RoutingTables.addEdge (nodes : List NodeDecl) (tables : RoutingTables) (edge : Edge) :
    RoutingTables :=
  let out := edge.toOutEdge nodes
  let covered := match out.destPortIndex with
    | some port => Function.update tables.portCovered edge.destNode
        (Function.update (tables.portCovered edge.destNode) port true)
    | none => tables.portCovered
  { outEdges := Function.update tables.outEdges edge.sourceNode
      (tables.outEdges edge.sourceNode ++ [out])
    successors := Function.update tables.successors edge.sourceNode
      (pushUnique edge.destNode (tables.successors edge.sourceNode))
    predecessors := Function.update tables.predecessors edge.destNode
      (pushUnique edge.sourceNode (tables.predecessors edge.destNode))
    inDegree := Function.update tables.inDegree edge.destNode (tables.inDegree edge.destNode + 1)
    portCovered := covered }

def relax (work : (Nat → Int) × List Nat) (out : OutEdge) : (Nat → Int) × List Nat :=
  let left := work.1 out.destNode - 1
  (Function.update work.1 out.destNode left,
    if left = 0 then work.2 ++ [out.destNode] else work.2)

/-- The loop of Kahn's algorithm.  Every pass appends one new node to the order, so the
number of nodes bounds the passes. -/
def kahn (outEdges : Nat → List OutEdge) : Nat → (Nat → Int) × List Nat → List Nat → List Nat
  | 0, _, order => order
  | passes + 1, work, order =>
    match work.2 with
    | [] => order
    | current :: ready =>
      kahn outEdges passes ((outEdges current).foldl relax (work.1, ready)) (order ++ [current])

structure CompiledGraph where
  nodes : List NodeDecl
  outEdges : Nat → List OutEdge
  successors : Nat → List Nat
  predecessors : Nat → List Nat
  inDegree : Nat → Nat
  topologicalOrder : List Nat
  sourceNodes : List Nat
  sinkNodes : List Nat

namespace CompiledGraph

def nodeCount (graph : CompiledGraph) : Nat := graph.nodes.length

def inputPorts (graph : CompiledGraph) (index : Nat) : List String :=
  inputPortsOf graph.nodes index

def outputPorts (graph : CompiledGraph) (index : Nat) : List String :=
  (graph.nodes[index]?.map NodeDecl.outputPorts).getD []

def name (graph : CompiledGraph) (index : Nat) : String :=
  (graph.nodes[index]?.map NodeDecl.name).getD ""

def isSource (graph : CompiledGraph) (index : Nat) : Bool := graph.inDegree index == 0

def isSink (graph : CompiledGraph) (index : Nat) : Bool := (graph.outEdges index).isEmpty

def indexOf (graph : CompiledGraph) (name : String) : Option Nat :=
  graph.nodes.findIdx? fun node => node.name == name

end CompiledGraph

def firstUncovered (nodes : List NodeDecl) (tables : RoutingTables) : Option (Nat × Nat) :=
  (List.range nodes.length).findSome? fun index =>
    if tables.inDegree index = 0 then none
    else ((List.range (inputPortsOf nodes index).length).find? fun port =>
      !tables.portCovered index port).map fun port => (index, port)

def compileParts (nodes : List NodeDecl) (edges : List Edge) : Except Error CompiledGraph :=
  if nodes = [] then
    .error ⟨.graphEmpty, "Graph has no nodes", ""⟩
  else
    let count := nodes.length
    let tables := edges.foldl (RoutingTables.addEdge nodes) {}
    let ready := (List.range count).filter fun index => tables.inDegree index = 0
    let order := kahn tables.outEdges count (fun index => tables.inDegree index, ready) []
    if order.length ≠ count then
      .error ⟨.graphCycleDetected, "Graph contains a cycle", ""⟩
    else
      match firstUncovered nodes tables with
      | some (index, port) =>
        let name := (nodes[index]?.map NodeDecl.name).getD ""
        .error ⟨.invalidConfiguration,
          "Input port '" ++ (inputPortsOf nodes index).getD port "" ++ "' of node '" ++
            name ++ "' has no incoming edge; the node could never execute", name⟩
      | none => .ok
          { nodes := nodes
            outEdges := tables.outEdges
            successors := tables.successors
            predecessors := tables.predecessors
            inDegree := tables.inDegree
            topologicalOrder := order
            sourceNodes := (List.range count).filter fun index => tables.inDegree index = 0
            sinkNodes := (List.range count).filter fun index => (tables.outEdges index).isEmpty }

def compile (graph : Graph) : Except Error CompiledGraph := compileParts graph.nodes graph.edges

variable {compiled : CompiledGraph}

theorem compileParts_ok {nodes : List NodeDecl} {edges : List Edge}
    (succeeded : compileParts nodes edges = .ok compiled) :
    let tables := edges.foldl (RoutingTables.addEdge nodes) {}
    let noInput := (List.range nodes.length).filter fun index => tables.inDegree index = 0
    let order := kahn tables.outEdges nodes.length
      (fun index => tables.inDegree index, noInput) []
    nodes ≠ [] ∧ order.length = nodes.length ∧ firstUncovered nodes tables = none ∧ compiled =
      { nodes := nodes
        outEdges := tables.outEdges
        successors := tables.successors
        predecessors := tables.predecessors
        inDegree := tables.inDegree
        topologicalOrder := order
        sourceNodes := noInput
        sinkNodes := (List.range nodes.length).filter fun index =>
          (tables.outEdges index).isEmpty } := by
  unfold compileParts at succeeded
  split at succeeded
  next => cases succeeded
  next some =>
    dsimp only at succeeded
    split at succeeded
    next => cases succeeded
    next complete =>
      split at succeeded
      next => cases succeeded
      next covered =>
        exact ⟨some, not_not.mp complete, covered, (Except.ok.inj succeeded).symm⟩

variable {graph : Graph}

theorem compile_sinkNodes (succeeded : compile graph = .ok compiled) :
    compiled.sinkNodes = (List.range compiled.nodeCount).filter compiled.isSink := by
  obtain ⟨-, -, -, rfl⟩ := compileParts_ok succeeded
  rfl

def Graph.passes (graph : Graph) (test : CompiledGraph → Bool) : Bool :=
  match compile graph with
  | .ok compiled => test compiled
  | .error _ => false

theorem Graph.compiled_of (graph : Graph) (test : CompiledGraph → Prop) [DecidablePred test]
    (passed : graph.passes (test ·)) : ∃ compiled, compile graph = .ok compiled ∧ test compiled := by
  unfold passes at passed
  split at passed
  next compiled compiles => exact ⟨compiled, compiles, of_decide_eq_true passed⟩
  next => cases passed

end AiPipe
