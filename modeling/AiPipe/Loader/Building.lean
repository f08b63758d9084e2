import AiPipe.GraphOrder
import AiPipe.Loader.Code

/-!
Graphs that calls of `addNode` and `addEdge` have built: their nodes have different names,
and their edges join nodes of the graph at ports that are declared or left empty.
-/

namespace AiPipe.Loader.Graph

open List

inductive Built : Graph → Prop where
  | empty : Built {}
  | addNode {graph graph' : Graph} {node : Option LogicNode} (before : Built graph)
      (added : graph.addNode node = some graph') : Built graph'
  | addEdge {graph graph' : Graph} {sourceName sourcePort destName destPort : String}
      (before : Built graph)
      (added : graph.addEdge sourceName sourcePort destName destPort = some graph') : Built graph'

variable {graph : Graph}

theorem getNode_isSome {name : String} :
    (graph.getNode name).isSome = true ↔ ∃ node ∈ graph.nodes, node.name = name := by
  simp [getNode]

variable {graph graph' : Graph} {node : Option LogicNode}

theorem addNode_some (added : graph.addNode node = some graph') :
    ∃ new, node = some new ∧ (∀ other ∈ graph.nodes, other.name ≠ new.name) ∧
      graph' = { graph with nodes := graph.nodes ++ [new] } := by
  cases node with
  | none => cases added
  | some new =>
    rw [Graph.addNode] at added
    split at added
    next => cases added
    next free =>
      refine ⟨new, rfl, fun other here same => free ?_, (Option.some.inj added).symm⟩
      exact getNode_isSome.mpr ⟨other, here, same⟩

variable {sourceName sourcePort destName destPort : String}

theorem addEdge_some (added : graph.addEdge sourceName sourcePort destName destPort = some graph') :
    ∃ source dest keys, graph.getNode sourceName = some source ∧
      graph.getNode destName = some dest ∧
      Edge.declared graph.declarations ⟨source, sourcePort, dest, destPort⟩ ∧
      graph' = { graph with
        edges := graph.edges ++ [⟨source, sourcePort, dest, destPort⟩], edgeKeys := keys } := by
  simp only [Graph.addEdge, Option.bind_eq_bind, Option.bind_eq_some_iff,
    Option.guard_eq_some'] at added
  obtain ⟨source, foundSource, dest, foundDest, sourceNode, atSource, destNode, atDest, -, leaves,
    -, enters, -, -, -, -, made⟩ := added
  refine ⟨source, dest, _, foundSource, foundDest, ?_, (Option.some.inj made).symm⟩
  refine ⟨sourceNode.toNodeDecl, ?_, destNode.toNodeDecl, ?_, ?_, ?_⟩
  · simp [declarations, atSource]
  · simp [declarations, atDest]
  · simpa [acceptsPort] using leaves
  · simpa [acceptsPort] using enters

theorem declared_append {nodes : List NodeDecl} {edge : Edge} (new : List NodeDecl)
    (declared : edge.declared nodes) : edge.declared (nodes ++ new) := by
  obtain ⟨source, atSource, dest, atDest, ports⟩ := declared
  have stays {index : Nat} {node : NodeDecl} (known : nodes[index]? = some node) :
      (nodes ++ new)[index]? = some node := by
    rwa [List.getElem?_append_left (List.getElem?_eq_some_iff.mp known).1]
  exact ⟨source, stays atSource, dest, stays atDest, ports⟩

structure WellFormed (graph : Graph) : Prop where
  names : (graph.nodes.map fun node => node.name).Nodup
  declared : ∀ edge ∈ graph.edges, edge.declared graph.declarations

theorem WellFormed.addNode (before : graph.WellFormed) (added : graph.addNode node = some graph') :
    graph'.WellFormed := by
  obtain ⟨new, -, free, rfl⟩ := addNode_some added
  constructor
  · rw [map_append, nodup_append]
    refine ⟨before.names, nodup_singleton _, ?_⟩
    rintro name here _ last rfl
    obtain ⟨other, member, rfl⟩ := mem_map.mp here
    exact free other member (mem_singleton.mp last)
  · intro edge here
    rw [declarations, map_append]
    exact declared_append _ (before.declared edge here)

theorem WellFormed.addEdge (before : graph.WellFormed)
    (added : graph.addEdge sourceName sourcePort destName destPort = some graph') :
    graph'.WellFormed := by
  obtain ⟨source, dest, keys, -, -, declared, rfl⟩ := addEdge_some added
  refine ⟨before.names, fun edge here => ?_⟩
  rcases mem_append.mp here with earlier | last
  · exact before.declared edge earlier
  · rw [mem_singleton.mp last]
    exact declared

theorem Built.wellFormed (built : graph.Built) : graph.WellFormed := by
  induction built with
  | empty => exact ⟨nodup_nil, fun _ here => absurd here (not_mem_nil)⟩
  | addNode _ added before => exact before.addNode added
  | addEdge _ added before => exact before.addEdge added

theorem WellFormed.destNode_lt (formed : graph.WellFormed) {edge : Edge}
    (here : edge ∈ graph.edges) : edge.destNode < graph.nodes.length := by
  obtain ⟨-, -, dest, known, -⟩ := formed.declared edge here
  simpa [declarations] using (List.getElem?_eq_some_iff.mp known).1

theorem outEdges_count (graph : Graph) (current node : Nat) :
    (graph.outEdges current).countP (enters node) =
      graph.edges.countP fun edge => edge.sourceNode == current && edge.destNode == node := by
  rw [outEdges, List.countP_map, List.countP_filter]
  refine List.countP_congr fun edge _ => ?_
  simp [enters, Edge.toOutEdge, and_comm]

end AiPipe.Loader.Graph
