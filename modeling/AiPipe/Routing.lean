import AiPipe.Engine.Execution
import AiPipe.Loader.Building

/-!
What `compile` keeps of a graph, and which of its edges lead to a queue.  `addEdge` accepts an
empty destination port, and `propagateOutputs` gives up the packets of an edge that has no
index.
-/

namespace AiPipe

open List

theorem portIndex_of_mem {ports : List String} {name : String} (declared : name ∈ ports) :
    ∃ port, ports.idxOf? name = some port ∧ ports[port]? = some name := by
  cases found : ports.idxOf? name with
  | none => exact absurd declared (idxOf?_eq_none_iff.mp found)
  | some port =>
    obtain ⟨bound, equal, -⟩ := idxOf?_eq_some_iff.mp found
    exact ⟨port, rfl, List.getElem?_eq_some_iff.mpr ⟨bound, equal⟩⟩

section Tables

variable (nodes : List NodeDecl)

theorem addEdge_portCovered (tables : RoutingTables) (edge : Edge) (node port : Nat) :
    (tables.addEdge nodes edge).portCovered node port = true ↔
      tables.portCovered node port = true ∨ edge.destNode = node ∧
        (inputPortsOf nodes node).idxOf? edge.destPort = some port := by
  simp only [RoutingTables.addEdge, Edge.toOutEdge]
  by_cases same : edge.destNode = node
  · subst same
    cases found : (inputPortsOf nodes edge.destNode).idxOf? edge.destPort with
    | none => simp
    | some index =>
      by_cases here : index = port
      · subst here
        simp
      · simp [here, Ne.symm here]
  · cases (inputPortsOf nodes edge.destNode).idxOf? edge.destPort with
    | none => simp [same]
    | some index => simp [same, Ne.symm same]

theorem addEdges_portCovered (edges : List Edge) (tables : RoutingTables) (node port : Nat) :
    (edges.foldl (RoutingTables.addEdge nodes) tables).portCovered node port = true ↔
      tables.portCovered node port = true ∨ ∃ edge ∈ edges, edge.destNode = node ∧
        (inputPortsOf nodes node).idxOf? edge.destPort = some port := by
  induction edges generalizing tables with
  | nil => simp
  | cons edge rest ih =>
    rw [foldl_cons, ih, addEdge_portCovered]
    simp only [mem_cons, exists_eq_or_imp]
    tauto

theorem firstUncovered_none {tables : RoutingTables} (covered : firstUncovered nodes tables = none)
    {node port : Nat} (known : node < nodes.length) (fed : tables.inDegree node ≠ 0)
    (declared : port < (inputPortsOf nodes node).length) :
    tables.portCovered node port = true := by
  rw [firstUncovered, findSome?_eq_none_iff] at covered
  have all := covered node (mem_range.mpr known)
  rw [if_neg fed, Option.map_eq_none_iff, List.find?_eq_none] at all
  simpa using all port (mem_range.mpr declared)

end Tables

def CompiledGraph.hasQueue (graph : CompiledGraph) (out : OutEdge) : Bool :=
  decide (out.destNode < graph.nodeCount) &&
    out.destPortIndex.any fun port => decide (port < (graph.inputPorts out.destNode).length)

def Env.enqueue {π : Type} (env : Env) (node : Nat) (out : OutEdge) (port : Nat)
    (data : PortDataPtr π) : Code π Unit := do
  if ← env.push out.destNode port data (.edge node out) then
    env.tryScheduleNode out.destNode
  else env.recordQueueRejection out.destNode

theorem propagateEdge_of_hasQueue {π : Type} (env : Env) (node : Nat) {outputs : PortDataMap π}
    {out : OutEdge} {data : PortDataPtr π} (queue : env.graph.hasQueue out = true)
    (emitted : outputs.find out.sourcePort = some data) :
    ∃ port, out.destPortIndex = some port ∧
      env.propagateEdge node outputs out = env.enqueue node out port data := by
  simp only [CompiledGraph.hasQueue, Bool.and_eq_true, decide_eq_true_eq,
    Option.any_eq_true] at queue
  obtain ⟨known, port, index, declared⟩ := queue
  refine ⟨port, index, ?_⟩
  unfold Env.propagateEdge
  simp only [emitted, index]
  rw [if_neg (Nat.not_le.mpr known), if_neg]
  · rfl
  · exact Nat.not_le.mpr declared

/-- What compilation is to keep of a graph, and what it is to make of its edges. -/
structure RoutesAll (graph : Loader.Graph) (compiled : CompiledGraph) : Prop where
  grouped : ∀ node, ((compiled.outEdges node).map fun out =>
      (out.sourcePort, out.destNode, out.destPort)) =
    (graph.edges.filter fun edge => edge.sourceNode == node).map fun edge =>
      (edge.sourcePort, edge.destNode, edge.destPort)
  inDegree : ∀ node, compiled.inDegree node =
    graph.edges.countP fun edge => edge.destNode == node
  successors : ∀ node, (compiled.successors node).Nodup ∧ ∀ dest,
    dest ∈ compiled.successors node ↔
      ∃ edge ∈ graph.edges, edge.sourceNode = node ∧ edge.destNode = dest
  predecessors : ∀ node, (compiled.predecessors node).Nodup ∧ ∀ source,
    source ∈ compiled.predecessors node ↔
      ∃ edge ∈ graph.edges, edge.destNode = node ∧ edge.sourceNode = source
  covered : ∀ node, (∃ edge ∈ graph.edges, edge.destNode = node) →
    ∀ port ∈ compiled.inputPorts node, ∃ edge ∈ graph.edges,
      edge.destNode = node ∧ edge.destPort = port
  routable : ∀ node, ∀ out ∈ compiled.outEdges node, compiled.inputPorts out.destNode ≠ [] →
    ∃ port, out.destPortIndex = some port ∧
      (compiled.inputPorts out.destNode)[port]? = some out.destPort
  queued : ∀ node, ∀ out ∈ compiled.outEdges node, compiled.hasQueue out = true
  /-- `propagateOutputs` hands every packet that is emitted at the source port to a queue. -/
  pushed : ∀ (π : Type) (env : Env), env.graph = compiled → ∀ (node : Nat)
    (outputs : PortDataMap π) (data : PortDataPtr π), ∀ out ∈ compiled.outEdges node,
    outputs.find out.sourcePort = some data → ∃ port, out.destPortIndex = some port ∧
      env.propagateEdge node outputs out = env.enqueue node out port data

section Compiled

variable {graph : Loader.Graph} {compiled : CompiledGraph}
  (succeeded : compileParts graph.declarations graph.edges = .ok compiled)
include succeeded

theorem compiled_inputPorts (node : Nat) :
    compiled.inputPorts node = inputPortsOf graph.declarations node := by
  obtain ⟨-, -, -, rfl⟩ := compileParts_ok succeeded
  rfl

theorem compiled_grouped (node : Nat) : ((compiled.outEdges node).map fun out =>
      (out.sourcePort, out.destNode, out.destPort)) =
    (graph.edges.filter fun edge => edge.sourceNode == node).map fun edge =>
      (edge.sourcePort, edge.destNode, edge.destPort) := by
  rw [compileParts_outEdges succeeded, map_map]
  rfl

theorem compiled_covered (formed : graph.WellFormed) {node : Nat}
    (fed : ∃ edge ∈ graph.edges, edge.destNode = node) {port : String}
    (declared : port ∈ compiled.inputPorts node) :
    ∃ edge ∈ graph.edges, edge.destNode = node ∧ edge.destPort = port := by
  rw [compiled_inputPorts succeeded] at declared
  obtain ⟨edge, here, rfl⟩ := fed
  obtain ⟨index, bound, rfl⟩ := getElem_of_mem declared
  obtain ⟨-, -, all, -⟩ := compileParts_ok succeeded
  have entered : (graph.edges.foldl (RoutingTables.addEdge graph.declarations) {}).inDegree
      edge.destNode ≠ 0 := by
    rw [addEdges_inDegree, Nat.zero_add]
    exact Nat.pos_iff_ne_zero.mp (countP_pos_iff.mpr ⟨edge, here, by simp⟩)
  have known : edge.destNode < graph.declarations.length := by
    simpa [Loader.Graph.declarations] using formed.destNode_lt here
  have covered := firstUncovered_none graph.declarations all known entered bound
  rw [addEdges_portCovered] at covered
  obtain marked | ⟨other, there, same, found⟩ := covered
  · cases marked
  · refine ⟨other, there, same, ?_⟩
    obtain ⟨_, equal, -⟩ := idxOf?_eq_some_iff.mp found
    exact equal.symm

theorem compiled_hasQueue (formed : graph.WellFormed) {edge : Edge} (here : edge ∈ graph.edges) :
    compiled.hasQueue (edge.toOutEdge graph.declarations) = true ↔
      edge.destPort ∈ inputPortsOf graph.declarations edge.destNode := by
  have known : edge.destNode < compiled.nodeCount := by
    obtain ⟨-, -, -, rfl⟩ := compileParts_ok succeeded
    simpa [CompiledGraph.nodeCount, Loader.Graph.declarations] using formed.destNode_lt here
  simp only [CompiledGraph.hasQueue, Edge.toOutEdge, known, decide_true, Bool.true_and,
    Option.any_eq_true, decide_eq_true_eq, compiled_inputPorts succeeded]
  constructor
  · rintro ⟨port, found, -⟩
    obtain ⟨bound, equal, -⟩ := idxOf?_eq_some_iff.mp found
    rw [← equal]
    exact getElem_mem bound
  · intro declared
    obtain ⟨port, found, named⟩ := portIndex_of_mem declared
    exact ⟨port, found, (List.getElem?_eq_some_iff.mp named).1⟩

/-- Compilation routes every edge exactly when every edge names a port that its destination
declares. -/
theorem compile_routes (built : graph.Built) : RoutesAll graph compiled ↔
    ∀ edge ∈ graph.edges, edge.destPort ∈ inputPortsOf graph.declarations edge.destNode := by
  have formed := built.wellFormed
  constructor
  · intro routes edge here
    rw [← compiled_hasQueue succeeded formed here]
    apply routes.queued edge.sourceNode
    rw [compileParts_outEdges succeeded]
    exact mem_map_of_mem (mem_filter.mpr ⟨here, beq_self_eq_true _⟩)
  · intro named
    have origin {node : Nat} {out : OutEdge} (leaves : out ∈ compiled.outEdges node) :
        ∃ edge ∈ graph.edges, edge.toOutEdge graph.declarations = out := by
      rw [compileParts_outEdges succeeded] at leaves
      obtain ⟨edge, kept, same⟩ := mem_map.mp leaves
      exact ⟨edge, (mem_filter.mp kept).1, same⟩
    have queued (node : Nat) : ∀ out ∈ compiled.outEdges node, compiled.hasQueue out = true := by
      intro out leaves
      obtain ⟨edge, here, rfl⟩ := origin leaves
      exact (compiled_hasQueue succeeded formed here).mpr (named edge here)
    refine ⟨compiled_grouped succeeded, compileParts_inDegree succeeded,
      compileParts_successors succeeded, compileParts_predecessors succeeded, ?_, ?_, queued, ?_⟩
    · intro node fed port declared
      exact compiled_covered succeeded formed fed declared
    · intro node out leaves _
      obtain ⟨edge, here, rfl⟩ := origin leaves
      rw [compiled_inputPorts succeeded]
      exact portIndex_of_mem (named edge here)
    · rintro π env rfl node outputs data out leaves emitted
      exact propagateEdge_of_hasQueue env node (queued node out leaves) emitted

end Compiled

def Loader.Graph.assembled (nodes : List Loader.LogicNode)
    (edges : List (String × String × String × String)) : Option Loader.Graph := do
  let graph ← nodes.foldlM (fun graph node => graph.addNode (some node)) ({} : Loader.Graph)
  edges.foldlM (fun graph edge => graph.addEdge edge.1 edge.2.1 edge.2.2.1 edge.2.2.2) graph

theorem Loader.Graph.Built.foldlM {α : Type} {add : Loader.Graph → α → Option Loader.Graph}
    (keeps : ∀ graph item graph', graph.Built → add graph item = some graph' → graph'.Built)
    {items : List α} {graph graph' : Loader.Graph} (built : graph.Built)
    (added : items.foldlM add graph = some graph') : graph'.Built := by
  induction items generalizing graph with
  | nil =>
    obtain rfl : graph = graph' := Option.some.inj added
    exact built
  | cons item rest ih =>
    rw [foldlM_cons] at added
    obtain ⟨next, first, later⟩ := Option.bind_eq_some_iff.mp added
    exact ih (keeps graph item next built first) later

theorem Loader.Graph.assembled_built {nodes : List Loader.LogicNode}
    {edges : List (String × String × String × String)} {graph : Loader.Graph}
    (made : assembled nodes edges = some graph) : graph.Built := by
  obtain ⟨bare, nodesAdded, edgesAdded⟩ := Option.bind_eq_some_iff.mp made
  have start : bare.Built := Built.empty.foldlM (fun _ _ _ before added => before.addNode added)
    nodesAdded
  exact start.foldlM (fun _ _ _ before added => before.addEdge added) edgesAdded

def Loader.Graph.checked (graph : Option Loader.Graph)
    (test : Loader.Graph → CompiledGraph → Bool) : Bool :=
  graph.any fun graph =>
    match compileParts graph.declarations graph.edges with
    | .ok compiled => test graph compiled
    | .error _ => false

theorem Loader.Graph.checked_assembled (nodes : List Loader.LogicNode)
    (edges : List (String × String × String × String))
    (test : Loader.Graph → CompiledGraph → Bool)
    (passed : checked (assembled nodes edges) test = true) :
    ∃ graph compiled, graph.Built ∧ compileParts graph.declarations graph.edges = .ok compiled ∧
      test graph compiled = true := by
  rw [checked, Option.any_eq_true] at passed
  obtain ⟨graph, made, tested⟩ := passed
  split at tested
  next compiled succeeded => exact ⟨graph, compiled, assembled_built made, succeeded, tested⟩
  next => cases tested

def cameraNode : Loader.LogicNode := { name := "camera", inputPorts := [], outputPorts := ["image"] }

def detectorNode : Loader.LogicNode :=
  { name := "detector", inputPorts := ["image"], outputPorts := ["boxes"] }

theorem compile_routes_camera : ∃ graph compiled, graph.Built ∧
    compileParts graph.declarations graph.edges = .ok compiled ∧ graph.edges.length = 1 ∧
    RoutesAll graph compiled := by
  obtain ⟨graph, compiled, built, succeeded, tested⟩ := Loader.Graph.checked_assembled
    [cameraNode, detectorNode] [("camera", "image", "detector", "image")]
    (fun graph _ => graph.edges.length == 1 && graph.edges.all fun edge =>
      (inputPortsOf graph.declarations edge.destNode).contains edge.destPort) (by decide)
  simp only [Bool.and_eq_true, beq_iff_eq, all_eq_true, contains_iff_mem] at tested
  exact ⟨graph, compiled, built, succeeded, tested.1,
    (compile_routes succeeded built).mpr tested.2⟩

/-- An edge may skip the name of its destination port although the port is declared, and
covered by another edge: the graph compiles, and whatever the edge carries is lost. -/
theorem skipped_port_has_no_queue : ∃ graph compiled, graph.Built ∧
    compileParts graph.declarations graph.edges = .ok compiled ∧
    (∃ out ∈ compiled.outEdges 0, compiled.inputPorts out.destNode ≠ [] ∧
      out.destPortIndex = none) ∧ ¬ RoutesAll graph compiled := by
  obtain ⟨graph, compiled, built, succeeded, tested⟩ := Loader.Graph.checked_assembled
    [cameraNode, detectorNode]
    [("camera", "image", "detector", "image"), ("camera", "image", "detector", "")]
    (fun _ compiled => (compiled.outEdges 0).any fun out =>
      !(compiled.inputPorts out.destNode).isEmpty && out.destPortIndex.isNone) (by decide)
  simp only [any_eq_true, Bool.and_eq_true, Bool.not_eq_true', isEmpty_eq_false_iff,
    Option.isNone_iff_eq_none] at tested
  obtain ⟨out, leaves, declares, lost⟩ := tested
  refine ⟨graph, compiled, built, succeeded, ⟨out, leaves, declares, lost⟩, fun routes => ?_⟩
  obtain ⟨port, found, -⟩ := routes.routable 0 out leaves declares
  rw [lost] at found
  cases found

end AiPipe
