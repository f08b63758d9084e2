import AiPipe.Loader.Building

/-!
The members of `Graph` as `graph.cpp` keeps them.  A `Graph` that calls have built has in each
look-up container exactly what the node list and the edge list say.
-/

namespace AiPipe

open List

open Loader (LogicNode)
open Loader.Graph (acceptsPort payloadsAgree edgeKey)

structure GraphObject (NodePtr : Type) where
  nodes : List NodePtr := []
  edges : List (NodeEdge NodePtr) := []
  nodeMap : String → Option NodePtr := fun _ => none
  adjListOut : NodePtr → Option (List NodePtr) := fun _ => none
  adjListIn : NodePtr → Option (List NodePtr) := fun _ => none
  inDegree : NodePtr → Option Int := fun _ => none
  edgeKeys : List String := []

namespace GraphObject

variable {NodePtr : Type} [DecidableEq NodePtr] (deref : NodePtr → LogicNode)
  (object : GraphObject NodePtr)

/-- The answer of a call and the graph after it; a null pointer is `none`. -/
def addNode (node : Option NodePtr) : Bool × GraphObject NodePtr :=
  match node with
  | none => (false, object)
  | some node =>
    if (object.nodeMap (deref node).name).isSome then (false, object)
    else (true, { object with
      nodes := object.nodes ++ [node]
      nodeMap := Function.update object.nodeMap (deref node).name (some node)
      adjListOut := Function.update object.adjListOut node (some [])
      adjListIn := Function.update object.adjListIn node (some [])
      inDegree := Function.update object.inDegree node (some 0) })

def getNode (name : String) : Option NodePtr := object.nodeMap name

/-- The updates of `addEdge`, which start with the insertion of the key. -/
def insertEdge (key : String) (edge : NodeEdge NodePtr) : GraphObject NodePtr :=
  { object with
    edgeKeys := object.edgeKeys ++ [key]
    edges := object.edges ++ [edge]
    adjListOut := Function.update object.adjListOut edge.sourceNode
      (some ((object.adjListOut edge.sourceNode).getD [] ++ [edge.destNode]))
    adjListIn := Function.update object.adjListIn edge.destNode
      (some ((object.adjListIn edge.destNode).getD [] ++ [edge.sourceNode]))
    inDegree := Function.update object.inDegree edge.destNode
      (some ((object.inDegree edge.destNode).getD 0 + 1)) }

def addEdge (sourceName sourcePort destName destPort : String) : Bool × GraphObject NodePtr :=
  match object.getNode sourceName with
  | none => (false, object)
  | some source =>
    match object.getNode destName with
    | none => (false, object)
    | some dest =>
      if !acceptsPort (deref source).outputPorts sourcePort then (false, object)
      else if !acceptsPort (deref dest).inputPorts destPort then (false, object)
      else if !payloadsAgree (deref source) sourcePort (deref dest) destPort then (false, object)
      else if edgeKey sourceName sourcePort destName destPort ∈ object.edgeKeys then (false, object)
      else (true, object.insertEdge (edgeKey sourceName sourcePort destName destPort)
        ⟨source, sourcePort, dest, destPort⟩)

def clear : GraphObject NodePtr := {}

inductive Call (NodePtr : Type) where
  | addNode (node : Option NodePtr)
  | addEdge (sourceName sourcePort destName destPort : String)
  | clear

def call : Call NodePtr → Option Bool × GraphObject NodePtr
  | .addNode node => ((object.addNode deref node).1, (object.addNode deref node).2)
  | .addEdge sourceName sourcePort destName destPort =>
    ((object.addEdge deref sourceName sourcePort destName destPort).1,
      (object.addEdge deref sourceName sourcePort destName destPort).2)
  | .clear => (none, clear)

def built (calls : List (Call NodePtr)) : GraphObject NodePtr :=
  calls.foldl (fun object entry => (object.call deref entry).2) {}

/-- An edge of the graph: between nodes of it, at ports that are declared or left empty, and with
payloads that agree where both ends of a named connection have a type. -/
structure Joins (edge : NodeEdge NodePtr) : Prop where
  source : edge.sourceNode ∈ object.nodes
  dest : edge.destNode ∈ object.nodes
  sourcePort : edge.sourcePort = "" ∨ edge.sourcePort ∈ (deref edge.sourceNode).outputPorts
  destPort : edge.destPort = "" ∨ edge.destPort ∈ (deref edge.destNode).inputPorts
  payload : edge.sourcePort ≠ "" → edge.destPort ≠ "" →
    ∀ sourceType ∈ (deref edge.sourceNode).portPayloadType edge.sourcePort,
      ∀ destType ∈ (deref edge.destNode).portPayloadType edge.destPort, sourceType = destType

def outNeighbors (node : NodePtr) : List NodePtr :=
  (object.edges.filter fun edge => edge.sourceNode = node).map NodeEdge.destNode

def inNeighbors (node : NodePtr) : List NodePtr :=
  (object.edges.filter fun edge => edge.destNode = node).map NodeEdge.sourceNode

def keyOf (edge : NodeEdge NodePtr) : String :=
  edgeKey (deref edge.sourceNode).name edge.sourcePort (deref edge.destNode).name edge.destPort

structure Represented : Prop where
  names : (object.nodes.map fun node => (deref node).name).Nodup
  nodeMap : ∀ name, object.nodeMap name =
    object.nodes.find? fun node => (deref node).name = name
  adjListOut : ∀ node, object.adjListOut node =
    if node ∈ object.nodes then some (object.outNeighbors node) else none
  adjListIn : ∀ node, object.adjListIn node =
    if node ∈ object.nodes then some (object.inNeighbors node) else none
  inDegree : ∀ node, object.inDegree node =
    if node ∈ object.nodes then some ((object.inNeighbors node).length : Int) else none
  edgeKeys : object.edgeKeys = object.edges.map (keyOf deref)
  joins : ∀ edge ∈ object.edges, object.Joins deref edge

variable {deref object}

theorem represented_empty : ({} : GraphObject NodePtr).Represented deref :=
  ⟨nodup_nil, fun _ => rfl, fun _ => rfl, fun _ => rfl, fun _ => rfl, rfl,
    forall_mem_nil _⟩

variable {node : NodePtr}

theorem Represented.getNode (represented : object.Represented deref) {name : String}
    (found : object.getNode name = some node) : node ∈ object.nodes ∧ (deref node).name = name := by
  rw [GraphObject.getNode, represented.nodeMap] at found
  exact ⟨mem_of_find?_eq_some found, by simpa using List.find?_some found⟩

theorem Represented.not_mem (represented : object.Represented deref)
    (free : object.nodeMap (deref node).name = none) : node ∉ object.nodes := by
  intro listed
  rw [represented.nodeMap] at free
  simpa using List.find?_eq_none.mp free node listed

theorem Represented.neighbors_of_not_mem (represented : object.Represented deref)
    (absent : node ∉ object.nodes) : object.outNeighbors node = [] ∧ object.inNeighbors node = [] := by
  constructor
  · refine map_eq_nil_iff.mpr (filter_eq_nil_iff.mpr fun edge listed => ?_)
    have joins := represented.joins edge listed
    simpa using fun (same : edge.sourceNode = node) => absent (same ▸ joins.source)
  · refine map_eq_nil_iff.mpr (filter_eq_nil_iff.mpr fun edge listed => ?_)
    have joins := represented.joins edge listed
    simpa using fun (same : edge.destNode = node) => absent (same ▸ joins.dest)

omit [DecidableEq NodePtr] in
theorem Joins.mono {edge : NodeEdge NodePtr} {object' : GraphObject NodePtr}
    (joins : object.Joins deref edge) (more : object.nodes ⊆ object'.nodes) :
    object'.Joins deref edge :=
  ⟨more joins.source, more joins.dest, joins.sourcePort, joins.destPort, joins.payload⟩

theorem update_new_node {α : Type} {nodes : List NodePtr} {value : NodePtr → α}
    {map : NodePtr → Option α} (known : ∀ other, map other = if other ∈ nodes then some (value other)
      else none) (other : NodePtr) :
    Function.update map node (some (value node)) other =
      if other ∈ nodes ++ [node] then some (value other) else none := by
  by_cases same : other = node
  · subst same
    simp
  · simp [same, known]

theorem Represented.addNode (represented : object.Represented deref) (node : Option NodePtr) :
    (object.addNode deref node).2.Represented deref := by
  unfold GraphObject.addNode
  cases node with
  | none => exact represented
  | some node =>
    by_cases taken : (object.nodeMap (deref node).name).isSome = true
    · simpa [taken] using represented
    · have free : object.nodeMap (deref node).name = none := by simpa using taken
      have absent := represented.not_mem free
      obtain ⟨noOut, noIn⟩ := represented.neighbors_of_not_mem absent
      simp only [taken, Bool.false_eq_true, if_false]
      refine ⟨?_, fun name => ?_, fun other => ?_, fun other => ?_, fun other => ?_,
        represented.edgeKeys, fun edge listed => ?_⟩
      · rw [map_append, nodup_append]
        refine ⟨represented.names, nodup_singleton _, ?_⟩
        rintro name listed _ last rfl
        obtain ⟨other, there, named⟩ := mem_map.mp listed
        obtain rfl := mem_singleton.mp last
        rw [represented.nodeMap] at free
        have different := List.find?_eq_none.mp free other there
        exact different (by simpa using named)
      · by_cases same : name = (deref node).name
        · subst same
          rw [represented.nodeMap] at free
          simp [free]
        · have other : ¬ (deref node).name = name := fun named => same named.symm
          simp [same, other, represented.nodeMap]
      · rw [show some [] = some (object.outNeighbors node) by rw [noOut]]
        exact update_new_node represented.adjListOut other
      · rw [show some [] = some (object.inNeighbors node) by rw [noIn]]
        exact update_new_node represented.adjListIn other
      · rw [show some (0 : Int) = some ((object.inNeighbors node).length : Int) by rw [noIn]; rfl]
        exact update_new_node represented.inDegree other
      · exact (represented.joins edge listed).mono fun other there => mem_append_left _ there

theorem update_node {α : Type} {nodes : List NodePtr} {value value' : NodePtr → α}
    {map : NodePtr → Option α} {new : α}
    (known : ∀ other, map other = if other ∈ nodes then some (value other) else none)
    (listed : node ∈ nodes) (here : new = value' node)
    (same : ∀ other, other ≠ node → value' other = value other) (other : NodePtr) :
    Function.update map node (some new) other =
      if other ∈ nodes then some (value' other) else none := by
  by_cases own : other = node
  · subst own
    simp [listed, here]
  · simp [own, known, same other own]

theorem Represented.insertEdge (represented : object.Represented deref) {edge : NodeEdge NodePtr}
    (joins : object.Joins deref edge) : (object.insertEdge (keyOf deref edge) edge).Represented deref := by
  have out (node : NodePtr) : (object.insertEdge (keyOf deref edge) edge).outNeighbors node =
      object.outNeighbors node ++ if edge.sourceNode = node then [edge.destNode] else [] := by
    simp only [outNeighbors, GraphObject.insertEdge, filter_append, map_append]
    split <;> simp [*]
  have into (node : NodePtr) : (object.insertEdge (keyOf deref edge) edge).inNeighbors node =
      object.inNeighbors node ++ if edge.destNode = node then [edge.sourceNode] else [] := by
    simp only [inNeighbors, GraphObject.insertEdge, filter_append, map_append]
    split <;> simp [*]
  refine ⟨represented.names, represented.nodeMap, fun node => ?_, fun node => ?_, fun node => ?_, ?_,
    ?_⟩
  · refine update_node represented.adjListOut joins.source ?_ (fun other apart => ?_) node
    · simp [out, represented.adjListOut, joins.source]
    · simp [out, Ne.symm apart]
  · refine update_node represented.adjListIn joins.dest ?_ (fun other apart => ?_) node
    · simp [into, represented.adjListIn, joins.dest]
    · simp [into, Ne.symm apart]
  · let degree (node : NodePtr) : Int :=
      ((object.insertEdge (keyOf deref edge) edge).inNeighbors node).length
    have new : (object.inDegree edge.destNode).getD 0 + 1 = degree edge.destNode := by
      simp [degree, into, represented.inDegree, joins.dest]
    refine update_node represented.inDegree joins.dest new (fun other apart => ?_) node
    simp [degree, into, Ne.symm apart]
  · simp [GraphObject.insertEdge, represented.edgeKeys]
  · refine forall_mem_append.mpr ⟨fun other listed => ?_, ?_⟩
    · exact (represented.joins other listed).mono fun _ there => there
    · exact forall_mem_singleton.mpr (joins.mono fun _ there => there)

theorem Represented.addEdge (represented : object.Represented deref)
    (sourceName sourcePort destName destPort : String) :
    (object.addEdge deref sourceName sourcePort destName destPort).2.Represented deref := by
  unfold GraphObject.addEdge
  cases foundSource : object.getNode sourceName with
  | none => exact represented
  | some source =>
    cases foundDest : object.getNode destName with
    | none => exact represented
    | some dest =>
      dsimp only
      split
      next => exact represented
      next leaves =>
        split
        next => exact represented
        next arrives =>
          split
          next => exact represented
          next agree =>
            split
            next => exact represented
            next =>
              obtain ⟨atSource, rfl⟩ := represented.getNode foundSource
              obtain ⟨atDest, rfl⟩ := represented.getNode foundDest
              have joins : object.Joins deref ⟨source, sourcePort, dest, destPort⟩ := ?_
              · exact represented.insertEdge joins
              refine ⟨atSource, atDest, by simpa [acceptsPort, or_iff_not_imp_left] using leaves,
                by simpa [acceptsPort, or_iff_not_imp_left] using arrives, fun named named' => ?_⟩
              intro sourceType typed destType typed'
              simpa [payloadsAgree, named, named', Option.mem_def.mp typed,
                Option.mem_def.mp typed'] using agree

theorem Represented.call (represented : object.Represented deref) (entry : Call NodePtr) :
    (object.call deref entry).2.Represented deref := by
  cases entry with
  | addNode node => exact represented.addNode node
  | addEdge => exact represented.addEdge ..
  | clear => exact represented_empty

theorem built_represented (calls : List (Call NodePtr)) : (built deref calls).Represented deref := by
  unfold built
  generalize started : ({} : GraphObject NodePtr) = start
  have represented : start.Represented deref := started ▸ represented_empty
  clear started
  induction calls generalizing start with
  | nil => exact represented
  | cons entry calls ih => exact ih _ (represented.call entry)

theorem call_false {entry : Call NodePtr} (refused : (object.call deref entry).1 = some false) :
    (object.call deref entry).2 = object := by
  cases entry with
  | addNode node =>
    simp only [GraphObject.call, GraphObject.addNode] at refused ⊢
    split
    · rfl
    · split
      · rfl
      · simp_all
  | addEdge sourceName sourcePort destName destPort =>
    simp only [GraphObject.call, GraphObject.addEdge] at refused ⊢
    repeat' split
    all_goals first
      | rfl
      | simp_all
  | clear => cases refused

/-- After any calls the containers hold what the node and the edge list say, every edge joins
nodes of the graph, and a call that answers `false` changes nothing. -/
theorem graph_represented {NodePtr : Type} [DecidableEq NodePtr] (deref : NodePtr → LogicNode)
    (calls : List (Call NodePtr)) :
    (built deref calls).Represented deref ∧
      ∀ entry, ((built deref calls).call deref entry).1 = some false →
        ((built deref calls).call deref entry).2 = built deref calls :=
  ⟨built_represented calls, fun _ refused => call_false refused⟩

end GraphObject

end AiPipe
