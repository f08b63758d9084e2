import AiPipe.GraphObject
import Mathlib.Order.RelClasses
import Mathlib.Data.Fintype.Order
import Mathlib.Logic.Relation

/-!
Cycles.  `hasCycle()` peels nodes by their pointers and `compile` by their indices; the two loops
go step by step together, and both get through the graph exactly when it has no cycle.
-/

namespace AiPipe

open GraphObject

open Relation (TransGen)

def Covers (edges : List Edge) (count : Nat) (ready order : List Nat) : Prop :=
  ∀ node < count, pendingEdges edges order node = 0 → node ∈ ready ++ order

section Peeling

variable {edges : List Edge} {count : Nat} {outEdges : Nat → List OutEdge} {left : Nat → Int}
  {ready order : List Nat}

theorem Sorting.covers_step {current : Nat} {outs : List OutEdge}
    (known : ∀ node, outs.countP (enters node) =
      edges.countP fun edge => edge.sourceNode == current && edge.destNode == node)
    (before : Sorting edges count left (current :: ready) order)
    (covers : Covers edges count (current :: ready) order) :
    Covers edges count (outs.foldl relax (left, ready)).2 (order ++ [current]) := by
  obtain ⟨new, folded, -, members⟩ := relax_spec outs left ready
  have unplaced : current ∉ order := fun here =>
    (List.nodup_cons.mp before.distinct).1 (List.mem_append_right _ here)
  intro node inside none
  rw [folded]
  by_cases held : pendingEdges edges order node = 0
  · have placed := covers node inside held
    grind
  · -- the last edges into the node come from the one that is peeled
    have fewer := pendingEdges_append edges order unplaced node
    have remaining := before.left node
    have same := known node
    have made : node ∈ new := (members node).mpr ⟨by omega, by omega⟩
    simp [made]

theorem Sorting.kahn_ends (bounded : ∀ edge ∈ edges, edge.destNode < count)
    (known : ∀ current node, (outEdges current).countP (enters node) =
      edges.countP fun edge => edge.sourceNode == current && edge.destNode == node)
    {passes : Nat} (enough : count ≤ order.length + passes)
    (before : Sorting edges count left ready order) (covers : Covers edges count ready order) :
    (∃ left', Sorting edges count left' [] (AiPipe.kahn outEdges passes (left, ready) order)) ∧
      Covers edges count [] (AiPipe.kahn outEdges passes (left, ready) order) ∧
      ∀ more, AiPipe.kahn outEdges (passes + more) (left, ready) order =
        AiPipe.kahn outEdges passes (left, ready) order := by
  induction passes generalizing left ready order with
  | zero =>
    have few : (ready ++ order).length ≤ count := by
      have inside : ready ++ order ⊆ List.range count := fun node placed =>
        List.mem_range.mpr (before.inside node placed)
      simpa using (List.subperm_of_subset before.distinct inside).length_le
    have empty : ready = [] := by
      rw [List.length_append] at few
      exact List.length_eq_zero_iff.mp (by omega)
    subst empty
    exact ⟨⟨left, before⟩, covers, fun more => by cases more <;> rfl⟩
  | succ passes ih =>
    cases ready with
    | nil => exact ⟨⟨left, before⟩, covers, fun more => by rw [Nat.succ_add]; rfl⟩
    | cons current ready =>
      simp only [Nat.succ_add]
      refine ih ?_ (before.step bounded (known current)) (before.covers_step (known current) covers)
      rw [List.length_append, List.length_singleton]
      omega

variable {inDegree : Nat → Nat}

theorem covers_initial (count : Nat)
    (degrees : ∀ node, inDegree node = edges.countP fun edge => edge.destNode == node) :
    Covers edges count ((List.range count).filter fun node => inDegree node = 0) [] := by
  intro node inside none
  have degree : inDegree node = 0 := by
    rw [degrees]
    simpa [pendingEdges] using none
  simpa [degree] using inside

/-- Nodes that the loop has not come to lie behind one another without an end. -/
theorem exists_cycle (bounded : ∀ edge ∈ edges, edge.sourceNode < count)
    (covers : Covers edges count [] order) {node : Nat} (inside : node < count)
    (missing : node ∉ order) : ∃ node, TransGen (Adjacent edges) node node := by
  refine Classical.byContradiction fun acyclic => ?_
  let before (first second : Fin count) : Prop := TransGen (Adjacent edges) first second
  have : IsTrans (Fin count) before := ⟨fun _ _ _ one two => one.trans two⟩
  have : Std.Irrefl before := ⟨fun first circle => acyclic ⟨first, circle⟩⟩
  obtain ⟨⟨first, bound⟩, absent, least⟩ :=
    (Finite.wellFounded_of_trans_of_irrefl before).has_min {node | (node : Nat) ∉ order}
      ⟨⟨node, inside⟩, missing⟩
  have held : pendingEdges edges order first ≠ 0 := fun none => absent (covers first bound none)
  obtain ⟨edge, here, leads⟩ := List.countP_pos_iff.mp (Nat.pos_of_ne_zero held)
  simp only [Bool.and_eq_true, beq_iff_eq, Bool.not_eq_true', List.contains_eq_mem,
    decide_eq_false_iff_not] at leads
  exact least ⟨edge.sourceNode, bounded edge here⟩ leads.2 (.single ⟨edge, here, rfl, leads.1⟩)

theorem kahn_complete_iff
    (bounded : ∀ edge ∈ edges, edge.sourceNode < count ∧ edge.destNode < count)
    (known : ∀ current node, (outEdges current).countP (enters node) =
      edges.countP fun edge => edge.sourceNode == current && edge.destNode == node)
    (degrees : ∀ node, inDegree node = edges.countP fun edge => edge.destNode == node) :
    (kahn outEdges count (fun node => inDegree node,
        (List.range count).filter fun node => inDegree node = 0) []).length = count ↔
      ∀ node, ¬ TransGen (Adjacent edges) node node := by
  have into : ∀ edge ∈ edges, edge.destNode < count := fun edge here => (bounded edge here).2
  constructor
  · intro complete
    obtain ⟨perm, forward⟩ := kahn_order into known degrees complete
    exact acyclic_of_forward (idxOf_lt_of_forward into perm forward)
  · intro acyclic
    have covers := covers_initial count degrees
    have enough : count ≤ ([] : List Nat).length + count := Nat.le_add_left _ _
    obtain ⟨⟨left, sorted⟩, covered, -⟩ := (sorting_initial edges count degrees).kahn_ends into known
      enough covers
    have distinct := (List.nodup_append.mp sorted.distinct).2.1
    have all : List.range count ⊆ kahn outEdges count (fun node => inDegree node,
        (List.range count).filter fun node => inDegree node = 0) [] := by
      intro node inside
      refine Classical.byContradiction fun missing => ?_
      obtain ⟨first, circle⟩ := exists_cycle (fun edge here => (bounded edge here).1) covered
        (List.mem_range.mp inside) missing
      exact acyclic first circle
    have more := (List.subperm_of_subset List.nodup_range all).length_le
    have fewer := (List.subperm_of_subset distinct fun node here =>
      List.mem_range.mpr (sorted.inside node (List.mem_append_right _ here))).length_le
    rw [List.length_range] at more fewer
    omega

end Peeling

theorem compileParts_cycle {nodes : List NodeDecl} {edges : List Edge} (some : nodes ≠ [])
    (bounded : ∀ edge ∈ edges, edge.sourceNode < nodes.length ∧ edge.destNode < nodes.length) :
    (∃ error, compileParts nodes edges = .error error ∧ error.code = .graphCycleDetected) ↔
      ∃ node, TransGen (Adjacent edges) node node := by
  have degrees (node : Nat) := addEdges_inDegree nodes edges {} node
  simp only [Nat.zero_add] at degrees
  have complete := kahn_complete_iff bounded (tables_outEdges_count nodes edges) degrees
  rw [← not_iff_not, not_exists (p := fun node => TransGen (Adjacent edges) node node), ← complete]
  unfold compileParts
  rw [if_neg some]
  dsimp only
  split
  next short => simp [short]
  next whole =>
    refine ⟨fun _ => not_not.mp whole, fun _ => ?_⟩
    rintro ⟨error, failed, coded⟩
    split at failed
    next => cases failed; cases coded
    next => cases failed

namespace GraphObject

open Loader (LogicNode)
open Loader.Graph (acceptsPort payloadsAgree edgeKey)

variable {NodePtr : Type} [DecidableEq NodePtr] (object : GraphObject NodePtr)

def release (work : (NodePtr → Option Int) × List NodePtr) (neighbor : NodePtr) :
    (NodePtr → Option Int) × List NodePtr :=
  let left := (work.1 neighbor).getD 0 - 1
  (Function.update work.1 neighbor (some left),
    if left = 0 then work.2 ++ [neighbor] else work.2)

/-- The loop of `hasCycle()`; every pass takes one node from the queue. -/
def peel (adjListOut : NodePtr → Option (List NodePtr)) :
    Nat → (NodePtr → Option Int) × List NodePtr → Nat → Nat
  | 0, _, processed => processed
  | passes + 1, work, processed =>
    match work.2 with
    | [] => processed
    | current :: ready =>
      match adjListOut current with
      | none => peel adjListOut passes (work.1, ready) (processed + 1)
      | some neighbors =>
        peel adjListOut passes (neighbors.foldl release (work.1, ready)) (processed + 1)

def hasCycle : Bool :=
  let remaining := object.inDegree
  let ready := object.nodes.filter fun node =>
    match remaining node with
    | none => true
    | some degree => degree == 0
  peel object.adjListOut object.nodes.length (remaining, ready) 0 != object.nodes.length

def indexEdge (edge : NodeEdge NodePtr) : Option Edge := do
  let source ← object.nodes.idxOf? edge.sourceNode
  let dest ← object.nodes.idxOf? edge.destNode
  return ⟨source, edge.sourcePort, dest, edge.destPort⟩

def declarations (deref : NodePtr → LogicNode) : List NodeDecl :=
  object.nodes.map fun node => (deref node).toNodeDecl

def compile (deref : NodePtr → LogicNode) : Except Error CompiledGraph :=
  if object.nodes = [] then .error ⟨.graphEmpty, "Graph has no nodes", ""⟩
  else match object.edges.mapM object.indexEdge with
    | none => .error ⟨.internalError, "Edge references a node that is not in the graph", ""⟩
    | some edges => compileParts (object.declarations deref) edges

def indexedEdges : List Edge := object.edges.map fun edge =>
  ⟨object.nodes.idxOf edge.sourceNode, edge.sourcePort, object.nodes.idxOf edge.destNode,
    edge.destPort⟩

def Cyclic : Prop := ∃ node, TransGen (Adjacent object.edges) node node

structure Tracks (nodes : List NodePtr) (work : (NodePtr → Option Int) × List NodePtr)
    (indexed : (Nat → Int) × List Nat) : Prop where
  inside : ∀ node ∈ work.2, node ∈ nodes
  ready : indexed.2 = work.2.map nodes.idxOf
  left : ∀ node ∈ nodes, indexed.1 (nodes.idxOf node) = (work.1 node).getD 0

variable {object} {nodes : List NodePtr} {work : (NodePtr → Option Int) × List NodePtr}
  {indexed : (Nat → Int) × List Nat}

theorem Tracks.release (tracks : Tracks nodes work indexed) {neighbor : NodePtr} {out : OutEdge}
    (listed : neighbor ∈ nodes) (same : out.destNode = nodes.idxOf neighbor) :
    Tracks nodes (GraphObject.release work neighbor) (relax indexed out) := by
  have left := tracks.left neighbor listed
  unfold GraphObject.release relax
  rw [same, left]
  constructor
  · intro node there
    dsimp only at there
    split at there
    · rcases List.mem_append.mp there with old | new
      · exact tracks.inside node old
      · exact List.mem_singleton.mp new ▸ listed
    · exact tracks.inside node there
  · dsimp only
    split
    · rw [tracks.ready, List.map_append, List.map_singleton]
    · exact tracks.ready
  · intro node there
    by_cases own : node = neighbor
    · subst own
      simp
    · have apart : nodes.idxOf node ≠ nodes.idxOf neighbor := fun equal =>
        own ((List.idxOf_inj there).mp equal)
      simp [own, apart, tracks.left node there]

theorem Tracks.foldl (tracks : Tracks nodes work indexed) {neighbors : List NodePtr}
    {outs : List OutEdge} (listed : ∀ neighbor ∈ neighbors, neighbor ∈ nodes)
    (same : outs.map OutEdge.destNode = neighbors.map nodes.idxOf) :
    Tracks nodes (neighbors.foldl GraphObject.release work) (outs.foldl relax indexed) := by
  induction neighbors generalizing outs work indexed with
  | nil =>
    obtain rfl := List.map_eq_nil_iff.mp same
    exact tracks
  | cons neighbor rest ih =>
    obtain ⟨here, later⟩ := List.forall_mem_cons.mp listed
    obtain ⟨out, outs, rfl, first, others⟩ := List.map_eq_cons_iff.mp same
    exact ih (tracks.release here first) later others

theorem Tracks.peel {adjListOut : NodePtr → Option (List NodePtr)} {outEdges : Nat → List OutEdge}
    (inside : ∀ node ∈ nodes, ∀ neighbor ∈ (adjListOut node).getD [], neighbor ∈ nodes)
    (same : ∀ node ∈ nodes, (outEdges (nodes.idxOf node)).map OutEdge.destNode =
      ((adjListOut node).getD []).map nodes.idxOf)
    (passes : Nat) (tracks : Tracks nodes work indexed) (order : List Nat) :
    GraphObject.peel adjListOut passes work order.length =
      (kahn outEdges passes indexed order).length := by
  induction passes generalizing work indexed order with
  | zero => rfl
  | succ passes ih =>
    obtain ⟨remaining, ready⟩ := work
    obtain ⟨left, queue⟩ := indexed
    obtain rfl : queue = ready.map nodes.idxOf := tracks.ready
    cases ready with
    | nil => rfl
    | cons current ready =>
      have listed : current ∈ nodes := tracks.inside current List.mem_cons_self
      have rest : Tracks nodes (remaining, ready) (left, ready.map nodes.idxOf) :=
        ⟨fun node there => tracks.inside node (List.mem_cons_of_mem _ there), rfl, tracks.left⟩
      have next := ih (rest.foldl (inside current listed) (same current listed))
        (order ++ [nodes.idxOf current])
      rw [List.length_append, List.length_singleton] at next
      rw [List.map_cons, kahn, ← next, peel]
      dsimp only
      cases adjListOut current <;> rfl

variable {nodes : List NodePtr}

theorem map_idxOf (distinct : nodes.Nodup) : nodes.map nodes.idxOf = List.range nodes.length := by
  refine List.ext_getElem (by simp) fun index inside _ => ?_
  rw [List.length_map] at inside
  rw [List.getElem_map, List.getElem_range]
  exact distinct.idxOf_getElem index inside

theorem idxOf?_of_mem {node : NodePtr} (listed : node ∈ nodes) :
    nodes.idxOf? node = some (nodes.idxOf node) :=
  List.findIdx?_eq_some_of_exists ⟨node, listed, beq_self_eq_true node⟩

theorem idxOf_beq {node other : NodePtr} (listed : node ∈ nodes) :
    (nodes.idxOf node == nodes.idxOf other) = decide (node = other) := by
  rw [beq_eq_decide, decide_eq_decide, List.idxOf_inj listed]

section Represented

variable {deref : NodePtr → LogicNode} (represented : object.Represented deref)
include represented

theorem Represented.nodup : object.nodes.Nodup := represented.names.of_map

theorem Represented.indexed_bounds {edge : Edge} (listed : edge ∈ object.indexedEdges) :
    edge.sourceNode < object.nodes.length ∧ edge.destNode < object.nodes.length := by
  obtain ⟨stored, there, rfl⟩ := List.mem_map.mp listed
  have joins := represented.joins stored there
  exact ⟨List.idxOf_lt_length_of_mem joins.source, List.idxOf_lt_length_of_mem joins.dest⟩

theorem Represented.mapM_indexEdge :
    object.edges.mapM object.indexEdge = some object.indexedEdges := by
  have each : ∀ edge ∈ object.edges, object.indexEdge edge =
      some ⟨object.nodes.idxOf edge.sourceNode, edge.sourcePort, object.nodes.idxOf edge.destNode,
        edge.destPort⟩ := by
    intro edge listed
    have joins := represented.joins edge listed
    simp [indexEdge, idxOf?_of_mem joins.source, idxOf?_of_mem joins.dest]
  unfold indexedEdges
  generalize object.edges = edges at each
  induction edges with
  | nil => rfl
  | cons edge rest ih =>
    obtain ⟨here, later⟩ := List.forall_mem_cons.mp each
    rw [List.mapM_cons, here, ih later]
    rfl

variable (nodes : List NodeDecl)

theorem Represented.outEdges {node : NodePtr} (listed : node ∈ object.nodes) :
    ((object.indexedEdges.foldl (RoutingTables.addEdge nodes) {}).outEdges
        (object.nodes.idxOf node)).map OutEdge.destNode =
      ((object.adjListOut node).getD []).map object.nodes.idxOf := by
  rw [addEdges_outEdges, represented.adjListOut, if_pos listed]
  simp only [List.nil_append, Option.getD_some, indexedEdges, outNeighbors, List.filter_map,
    List.map_map]
  have same : object.edges.filter ((fun edge : Edge => edge.sourceNode == object.nodes.idxOf node) ∘
      fun edge => ⟨object.nodes.idxOf edge.sourceNode, edge.sourcePort,
        object.nodes.idxOf edge.destNode, edge.destPort⟩) =
      object.edges.filter fun edge => edge.sourceNode = node := by
    refine List.filter_congr fun edge there => ?_
    exact idxOf_beq (represented.joins edge there).source
  rw [same]
  rfl

theorem Represented.inDegree_indexed {node : NodePtr} (listed : node ∈ object.nodes) :
    ((object.indexedEdges.foldl (RoutingTables.addEdge nodes) {}).inDegree
        (object.nodes.idxOf node) : Int) = (object.inDegree node).getD 0 := by
  rw [addEdges_inDegree, represented.inDegree, if_pos listed]
  simp only [Nat.zero_add, Option.getD_some, indexedEdges, inNeighbors, List.countP_map,
    List.length_map, ← List.countP_eq_length_filter]
  refine congrArg Nat.cast (List.countP_congr fun edge there => ?_)
  rw [Function.comp_apply, idxOf_beq (represented.joins edge there).dest]

theorem Represented.tracks :
    let tables := object.indexedEdges.foldl (RoutingTables.addEdge nodes) {}
    Tracks object.nodes
      (object.inDegree, object.nodes.filter fun node =>
        match object.inDegree node with
        | none => true
        | some degree => degree == 0)
      (fun index => tables.inDegree index, (List.range object.nodes.length).filter fun index =>
        tables.inDegree index = 0) := by
  refine ⟨fun node there => List.mem_of_mem_filter there, ?_, fun node there => ?_⟩
  · rw [← map_idxOf represented.nodup, List.filter_map]
    refine congrArg (List.map _) (List.filter_congr fun node there => ?_)
    have degree := represented.inDegree_indexed nodes there
    rw [represented.inDegree, if_pos there, Option.getD_some] at degree
    rw [represented.inDegree, if_pos there]
    change decide _ = (((object.inNeighbors node).length : Int) == 0)
    rw [← degree, beq_eq_decide, decide_eq_decide]
    exact Int.natCast_eq_zero.symm
  · exact represented.inDegree_indexed nodes there

theorem Represented.peel (passes : Nat) :
    GraphObject.peel object.adjListOut passes (object.inDegree, object.nodes.filter fun node =>
        match object.inDegree node with
        | none => true
        | some degree => degree == 0) 0 =
      (kahn (object.indexedEdges.foldl (RoutingTables.addEdge nodes) {}).outEdges passes
        (fun index => (object.indexedEdges.foldl (RoutingTables.addEdge nodes) {}).inDegree index,
          (List.range object.nodes.length).filter fun index =>
            (object.indexedEdges.foldl (RoutingTables.addEdge nodes) {}).inDegree index = 0)
        []).length := by
  refine Tracks.peel (fun node listed neighbor there => ?_)
    (fun node listed => represented.outEdges nodes listed) passes (represented.tracks nodes) []
  rw [represented.adjListOut, if_pos listed, Option.getD_some] at there
  obtain ⟨edge, kept, rfl⟩ := List.mem_map.mp there
  exact (represented.joins edge (List.mem_of_mem_filter kept)).dest

theorem Represented.cyclic_iff :
    (∃ index, TransGen (Adjacent object.indexedEdges) index index) ↔ object.Cyclic := by
  constructor
  · have back {first last : Nat} (path : TransGen (Adjacent object.indexedEdges) first last) :
        ∃ source dest, source ∈ object.nodes ∧ object.nodes.idxOf source = first ∧
          object.nodes.idxOf dest = last ∧ TransGen (Adjacent object.edges) source dest := by
      induction path with
      | single leads =>
        obtain ⟨_, listed, rfl, rfl⟩ := leads
        obtain ⟨edge, there, rfl⟩ := List.mem_map.mp listed
        exact ⟨_, _, (represented.joins edge there).source, rfl, rfl, .single ⟨edge, there, rfl, rfl⟩⟩
      | tail _ leads ih =>
        obtain ⟨source, dest, known, first, last, path⟩ := ih
        obtain ⟨_, listed, onward, rfl⟩ := leads
        obtain ⟨edge, there, rfl⟩ := List.mem_map.mp listed
        have joins := represented.joins edge there
        obtain rfl : edge.sourceNode = dest :=
          (List.idxOf_inj joins.source).mp (onward.trans last.symm)
        exact ⟨source, _, known, first, rfl, path.tail ⟨edge, there, rfl, rfl⟩⟩
    rintro ⟨index, circle⟩
    obtain ⟨source, dest, known, first, last, path⟩ := back circle
    obtain rfl : source = dest := (List.idxOf_inj known).mp (first.trans last.symm)
    exact ⟨source, path⟩
  · rintro ⟨node, circle⟩
    refine ⟨object.nodes.idxOf node, circle.lift object.nodes.idxOf ?_⟩
    rintro _ _ ⟨edge, there, rfl, rfl⟩
    exact ⟨_, List.mem_map_of_mem there, rfl, rfl⟩

theorem Represented.kahn_complete :
    (kahn (object.indexedEdges.foldl (RoutingTables.addEdge nodes) {}).outEdges object.nodes.length
        (fun index => (object.indexedEdges.foldl (RoutingTables.addEdge nodes) {}).inDegree index,
          (List.range object.nodes.length).filter fun index =>
            (object.indexedEdges.foldl (RoutingTables.addEdge nodes) {}).inDegree index = 0)
        []).length = object.nodes.length ↔ ¬ object.Cyclic := by
  have degrees (index : Nat) := addEdges_inDegree nodes object.indexedEdges {} index
  simp only [Nat.zero_add] at degrees
  rw [kahn_complete_iff (fun edge listed => represented.indexed_bounds listed)
    (tables_outEdges_count nodes object.indexedEdges) degrees, ← represented.cyclic_iff, not_exists]

theorem Represented.hasCycle_iff : object.hasCycle = true ↔ object.Cyclic := by
  unfold hasCycle
  dsimp only
  rw [represented.peel [] object.nodes.length, bne_iff_ne, ne_eq, represented.kahn_complete,
    not_not]

/-- The queue is empty after as many passes as there are nodes: the loop ends with them. -/
theorem Represented.hasCycle_ends (more : Nat) :
    GraphObject.peel object.adjListOut (object.nodes.length + more)
        (object.inDegree, object.nodes.filter fun node =>
          match object.inDegree node with
          | none => true
          | some degree => degree == 0) 0 =
      GraphObject.peel object.adjListOut object.nodes.length
        (object.inDegree, object.nodes.filter fun node =>
          match object.inDegree node with
          | none => true
          | some degree => degree == 0) 0 := by
  have degrees (index : Nat) := addEdges_inDegree [] object.indexedEdges {} index
  simp only [Nat.zero_add] at degrees
  have enough : object.nodes.length ≤ ([] : List Nat).length + object.nodes.length :=
    Nat.le_add_left _ _
  obtain ⟨-, -, ends⟩ := (sorting_initial object.indexedEdges object.nodes.length degrees).kahn_ends
    (fun edge listed => (represented.indexed_bounds listed).2)
    (tables_outEdges_count [] object.indexedEdges) enough (covers_initial _ degrees)
  rw [represented.peel [], represented.peel [], ends more]

theorem Represented.compile_eq (some : object.nodes ≠ []) : object.compile deref =
    compileParts (object.declarations deref) object.indexedEdges := by
  unfold compile
  rw [if_neg some, represented.mapM_indexEdge]

theorem Represented.compile_cycle (some : object.nodes ≠ []) :
    (∃ error, object.compile deref = .error error ∧ error.code = .graphCycleDetected) ↔
      object.Cyclic := by
  rw [represented.compile_eq some, compileParts_cycle, represented.cyclic_iff]
  · simpa [declarations] using some
  · intro edge listed
    simpa [declarations] using represented.indexed_bounds listed

theorem Represented.compile_order {compiled : CompiledGraph}
    (succeeded : object.compile deref = .ok compiled) :
    compiled.topologicalOrder.Perm (List.range object.nodes.length) ∧
      ∀ edge ∈ object.edges,
        compiled.topologicalOrder.idxOf (object.nodes.idxOf edge.sourceNode) <
          compiled.topologicalOrder.idxOf (object.nodes.idxOf edge.destNode) := by
  have some : object.nodes ≠ [] := by
    rintro empty
    rw [compile, if_pos empty] at succeeded
    cases succeeded
  rw [represented.compile_eq some] at succeeded
  have length : (object.declarations deref).length = object.nodes.length := List.length_map _
  obtain ⟨perm, forward⟩ := compileParts_order succeeded fun edge listed =>
    length ▸ (represented.indexed_bounds listed).2
  exact ⟨length ▸ perm, fun edge there => forward _ (List.mem_map_of_mem there)⟩

/-- The graph as the loader sees it: nodes for pointers, and indices in the edges. -/
def loaded (object : GraphObject NodePtr) (deref : NodePtr → LogicNode) : Loader.Graph where
  nodes := object.nodes.map deref
  edges := object.indexedEdges
  edgeKeys := object.edgeKeys

omit represented in
theorem findIdx?_eq_map_find? (test : NodePtr → Bool) (nodes : List NodePtr) :
    nodes.findIdx? test = (nodes.find? test).map nodes.idxOf := by
  induction nodes with
  | nil => rfl
  | cons first rest ih =>
    rw [List.findIdx?_cons, List.find?_cons]
    cases holds : test first with
    | true => simp
    | false =>
      rw [ih]
      cases found : rest.find? test with
      | none => rfl
      | some node =>
        have apart : first ≠ node := by
          rintro rfl
          rw [List.find?_some found] at holds
          cases holds
        simp [List.idxOf_cons_ne _ apart]

theorem Represented.loaded_getNode (name : String) :
    (object.loaded deref).getNode name = (object.getNode name).map object.nodes.idxOf := by
  rw [GraphObject.getNode, represented.nodeMap, Loader.Graph.getNode, loaded, List.findIdx?_map,
    findIdx?_eq_map_find?]
  rfl

theorem Represented.loaded_addNode (node : Option NodePtr) :
    (object.loaded deref).addNode (node.map deref) =
      if (object.addNode deref node).1 then some ((object.addNode deref node).2.loaded deref)
      else none := by
  cases node with
  | none => rfl
  | some node =>
    have indices : ∀ edge ∈ object.edges,
        (⟨(object.nodes ++ [node]).idxOf edge.sourceNode, edge.sourcePort,
          (object.nodes ++ [node]).idxOf edge.destNode, edge.destPort⟩ : Edge) =
        ⟨object.nodes.idxOf edge.sourceNode, edge.sourcePort, object.nodes.idxOf edge.destNode,
          edge.destPort⟩ := fun edge listed => by
      have joins := represented.joins edge listed
      rw [List.idxOf_append_of_mem joins.source, List.idxOf_append_of_mem joins.dest]
    simp only [Option.map_some, Loader.Graph.addNode, GraphObject.addNode, represented.loaded_getNode,
      Option.isSome_map, GraphObject.getNode]
    by_cases taken : (object.nodeMap (deref node).name).isSome = true
    · simp [taken]
    · simp only [taken, Bool.false_eq_true, if_false, if_true, loaded, indexedEdges, List.map_append,
        List.map_singleton]
      rw [List.map_congr_left indices]

theorem Represented.loaded_addEdge (sourceName sourcePort destName destPort : String) :
    (object.loaded deref).addEdge sourceName sourcePort destName destPort =
      if (object.addEdge deref sourceName sourcePort destName destPort).1 then
        some ((object.addEdge deref sourceName sourcePort destName destPort).2.loaded deref)
      else none := by
  have found {name : String} {node : NodePtr} (known : object.getNode name = some node) :
      (object.loaded deref).getNode name = some (object.nodes.idxOf node) ∧
        (object.loaded deref).nodes[object.nodes.idxOf node]? = some (deref node) := by
    rw [represented.loaded_getNode, known]
    refine ⟨rfl, ?_⟩
    rw [loaded, List.getElem?_map, List.getElem?_idxOf (represented.getNode known).1]
    rfl
  have missing {name : String} (unknown : object.getNode name = none) :
      (object.loaded deref).getNode name = none := by
    rw [represented.loaded_getNode, unknown]
    rfl
  unfold Loader.Graph.addEdge GraphObject.addEdge
  cases first : object.getNode sourceName with
  | none => simp [missing first]
  | some source =>
    cases second : object.getNode destName with
    | none => simp [found first, missing second]
    | some dest =>
      simp only [found first, found second, Option.bind_eq_bind, Option.bind_some]
      by_cases leaves : acceptsPort (deref source).outputPorts sourcePort = true <;>
        by_cases arrives : acceptsPort (deref dest).inputPorts destPort = true <;>
        by_cases agree : payloadsAgree (deref source) sourcePort (deref dest) destPort = true <;>
        by_cases taken : edgeKey sourceName sourcePort destName destPort ∈ object.edgeKeys <;>
        simp [leaves, arrives, agree, taken, loaded, GraphObject.insertEdge, indexedEdges]

theorem Represented.loaded_hasCycle : (object.loaded deref).hasCycle = object.hasCycle := by
  rw [Bool.eq_iff_iff, represented.hasCycle_iff, ← represented.cyclic_iff]
  have complete := kahn_complete_iff (fun edge listed => represented.indexed_bounds listed)
    (object.loaded deref).outEdges_count fun _ => rfl
  have length : (object.loaded deref).nodes.length = object.nodes.length := List.length_map _
  rw [← not_iff_not, not_exists, ← complete]
  simp only [Loader.Graph.hasCycle, length, bne_iff_ne, ne_eq, not_not, beq_eq_decide]
  rfl

end Represented

/-- After any calls, the loader's model of `Graph` makes every next step as the object does, and
finds a cycle where the object does. -/
theorem loaded_refines (deref : NodePtr → LogicNode) (calls : List (Call NodePtr)) :
    let object := built deref calls
    (∀ node, (object.loaded deref).addNode (node.map deref) =
      if (object.addNode deref node).1 then some ((object.addNode deref node).2.loaded deref)
      else none) ∧
    (∀ sourceName sourcePort destName destPort,
      (object.loaded deref).addEdge sourceName sourcePort destName destPort =
        if (object.addEdge deref sourceName sourcePort destName destPort).1 then
          some ((object.addEdge deref sourceName sourcePort destName destPort).2.loaded deref)
        else none) ∧
    (object.loaded deref).hasCycle = object.hasCycle := by
  have represented : (built deref calls).Represented deref := built_represented calls
  exact ⟨represented.loaded_addNode, represented.loaded_addEdge, represented.loaded_hasCycle⟩

/-- Both loops find a cycle exactly where there is one, and where there is none the compiled graph
has all its nodes in an order that every edge follows. -/
theorem cycle_detection {NodePtr : Type} [DecidableEq NodePtr] (deref : NodePtr → LogicNode)
    (calls : List (Call NodePtr)) :
    ((built deref calls).hasCycle = true ↔ (built deref calls).Cyclic) ∧
      ((built deref calls).nodes ≠ [] →
        ((∃ error, (built deref calls).compile deref = .error error ∧
          error.code = .graphCycleDetected) ↔ (built deref calls).Cyclic)) ∧
      ∀ compiled, (built deref calls).compile deref = .ok compiled →
        compiled.topologicalOrder.Perm (List.range (built deref calls).nodes.length) ∧
          ∀ edge ∈ (built deref calls).edges,
            compiled.topologicalOrder.idxOf ((built deref calls).nodes.idxOf edge.sourceNode) <
              compiled.topologicalOrder.idxOf ((built deref calls).nodes.idxOf edge.destNode) := by
  have represented : (built deref calls).Represented deref := built_represented calls
  exact ⟨represented.hasCycle_iff, represented.compile_cycle,
    fun compiled succeeded => represented.compile_order succeeded⟩

end GraphObject

end AiPipe
