import AiPipe.Graph
import Mathlib.Logic.Relation

/-!
Kahn's algorithm and the adjacency tables.  A graph that compiles comes with an order of all
its nodes in which every edge leads forward, and its successors and predecessors are those
of the edges.
-/

namespace AiPipe

open Function RoutingTables

section Tables

variable (nodes : List NodeDecl)

theorem addEdges_outEdges (edges : List Edge) (tables : RoutingTables) (node : Nat) :
    (edges.foldl (RoutingTables.addEdge nodes) tables).outEdges node = tables.outEdges node ++
      (edges.filter fun edge => edge.sourceNode == node).map (Edge.toOutEdge nodes) := by
  induction edges generalizing tables with
  | nil => simp
  | cons edge rest ih =>
    rw [List.foldl_cons, ih]
    by_cases same : edge.sourceNode = node
    · subst same
      simp [addEdge]
    · simp [addEdge, same, Ne.symm same]

theorem addEdges_inDegree (edges : List Edge) (tables : RoutingTables) (node : Nat) :
    (edges.foldl (RoutingTables.addEdge nodes) tables).inDegree node = tables.inDegree node +
      edges.countP fun edge => edge.destNode == node := by
  induction edges generalizing tables with
  | nil => simp
  | cons edge rest ih =>
    rw [List.foldl_cons, ih, List.countP_cons]
    by_cases same : edge.destNode = node
    · subst same
      simp [addEdge]
      omega
    · simp [addEdge, same, Ne.symm same]

end Tables

def enters (node : Nat) (out : OutEdge) : Bool := out.destNode == node

/-- One pass over the edges out of a node: every edge takes one from its destination, and
a destination becomes ready when it gets to zero. -/
theorem relax_spec (outs : List OutEdge) (left : Nat → Int) (ready : List Nat) :
    ∃ new : List Nat, outs.foldl relax (left, ready) =
        (fun node => left node - outs.countP (enters node), ready ++ new) ∧ new.Nodup ∧
      ∀ node, node ∈ new ↔ 0 < left node ∧ left node ≤ outs.countP (enters node) := by
  induction outs generalizing left ready with
  | nil => exact ⟨[], by simp, List.nodup_nil, fun node => by simp⟩
  | cons out rest ih =>
    obtain ⟨new, folded, distinct, members⟩ := ih
      (update left out.destNode (left out.destNode - 1))
      (if left out.destNode - 1 = 0 then ready ++ [out.destNode] else ready)
    have counts (node : Nat) : ((out :: rest).countP (enters node) : Int) =
        rest.countP (enters node) + if out.destNode = node then 1 else 0 := by
      rw [List.countP_cons]
      by_cases same : out.destNode = node <;> simp [enters, same]
    have remains : (fun node => update left out.destNode (left out.destNode - 1) node -
        rest.countP (enters node)) =
        fun node => left node - ((out :: rest).countP (enters node) : Int) := by
      funext node
      rw [counts]
      by_cases same : node = out.destNode
      · subst same
        simp
        omega
      · simp [same, Ne.symm same]
    refine ⟨(if left out.destNode - 1 = 0 then [out.destNode] else []) ++ new, ?_, ?_, ?_⟩
    · rw [List.foldl_cons, relax, folded, remains]
      split <;> simp
    · split
      next last =>
        refine List.nodup_cons.mpr ⟨fun again => ?_, distinct⟩
        have positive := ((members _).mp again).1
        simp only [update_self] at positive
        omega
      next => exact distinct
    · intro node
      rw [List.mem_append, members, counts]
      by_cases same : node = out.destNode
      · subst same
        by_cases last : left out.destNode - 1 = 0
        · simp [last]
          omega
        · simp [last]
          omega
      · have apart : node ∉ if left out.destNode - 1 = 0 then [out.destNode] else [] := by
          split <;> simp [same]
        simp [apart, same, Ne.symm same]

theorem tables_outEdges_count (nodes : List NodeDecl) (edges : List Edge) (current node : Nat) :
    ((edges.foldl (RoutingTables.addEdge nodes) {}).outEdges current).countP (enters node) =
      edges.countP fun edge => edge.sourceNode == current && edge.destNode == node := by
  rw [addEdges_outEdges, List.nil_append, List.countP_map, List.countP_filter]
  refine List.countP_congr fun edge _ => ?_
  simp [enters, Edge.toOutEdge, and_comm]

def pendingEdges (edges : List Edge) (order : List Nat) (node : Nat) : Nat :=
  edges.countP fun edge => edge.destNode == node && !order.contains edge.sourceNode

theorem pendingEdges_append (edges : List Edge) (order : List Nat) {current : Nat}
    (new : current ∉ order) (node : Nat) :
    pendingEdges edges order node = pendingEdges edges (order ++ [current]) node +
      edges.countP fun edge => edge.sourceNode == current && edge.destNode == node := by
  unfold pendingEdges
  induction edges with
  | nil => rfl
  | cons edge rest ih =>
    simp only [List.countP_cons, ih]
    by_cases here : edge.sourceNode = current
    · subst here
      by_cases same : edge.destNode = node
      · simp [same, new]
        omega
      · simp [same]
    · by_cases known : edge.sourceNode ∈ order
      · simp [here, known]
      · simp [here, known]
        omega

variable {edges : List Edge} {order : List Nat}

theorem pendingEdges_zero {node : Nat} (none : pendingEdges edges order node = 0) :
    ∀ edge ∈ edges, edge.destNode = node → edge.sourceNode ∈ order := by
  intro edge here into
  have absent := List.countP_eq_zero.mp none edge here
  simpa [into] using absent

structure Sorting (edges : List Edge) (count : Nat) (left : Nat → Int) (ready order : List Nat) :
    Prop where
  left : ∀ node, left node = pendingEdges edges order node
  distinct : (ready ++ order).Nodup
  inside : ∀ node ∈ ready ++ order, node < count
  settled : ∀ node ∈ ready ++ order, pendingEdges edges order node = 0
  forward : ∀ before node after, order = before ++ node :: after →
    ∀ edge ∈ edges, edge.destNode = node → edge.sourceNode ∈ before

theorem forward_append {current : Nat}
    (forward : ∀ before node after, order = before ++ node :: after →
      ∀ edge ∈ edges, edge.destNode = node → edge.sourceNode ∈ before)
    (last : ∀ edge ∈ edges, edge.destNode = current → edge.sourceNode ∈ order)
    (before : List Nat) (node : Nat) (after : List Nat)
    (split : order ++ [current] = before ++ node :: after) :
    ∀ edge ∈ edges, edge.destNode = node → edge.sourceNode ∈ before := by
  rcases List.eq_nil_or_concat after with rfl | ⟨inner, final, rfl⟩
  · obtain ⟨rfl, same⟩ := List.append_inj' split rfl
    obtain rfl : current = node := by simpa using same
    exact last
  · have shorter : order ++ [current] = (before ++ node :: inner) ++ [final] := by simpa using split
    exact forward before node inner (List.append_inj' shorter rfl).1

variable {ready order : List Nat}

theorem Sorting.step {count current : Nat} {left : Nat → Int} {outs : List OutEdge}
    (bounded : ∀ edge ∈ edges, edge.destNode < count)
    (known : ∀ node, outs.countP (enters node) =
      edges.countP fun edge => edge.sourceNode == current && edge.destNode == node)
    (before : Sorting edges count left (current :: ready) order) :
    Sorting edges count (outs.foldl relax (left, ready)).1 (outs.foldl relax (left, ready)).2
      (order ++ [current]) := by
  obtain ⟨remaining, distinct, inside, settled, forward⟩ := before
  obtain ⟨new, folded, fresh, members⟩ := relax_spec outs left ready
  have apart : current ∉ ready ++ order := (List.nodup_cons.mp distinct).1
  have unplaced : current ∉ order := fun here => apart (List.mem_append_right _ here)
  have fewer := pendingEdges_append edges order unplaced
  rw [folded]
  have unready : ∀ node ∈ new, node ∉ current :: ready ++ order := fun node here placed => by
    have positive := ((members node).mp here).1
    rw [remaining, settled node placed] at positive
    simp at positive
  have arrange : (ready ++ new ++ (order ++ [current])).Perm (new ++ (current :: ready ++ order)) := by
    grind
  refine ⟨fun node => ?_, ?_, fun node placed => ?_, fun node placed => ?_, ?_⟩
  · have less := fewer node
    have same := known node
    simp only [remaining]
    omega
  · rw [arrange.nodup_iff, List.nodup_append]
    refine ⟨fresh, distinct, ?_⟩
    rintro node here _ placed rfl
    exact unready node here placed
  · rcases List.mem_append.mp (arrange.mem_iff.mp placed) with made | earlier
    · have entered := ((members node).mp made)
      have some : 0 < edges.countP fun edge =>
          edge.sourceNode == current && edge.destNode == node := by
        rw [← known]
        omega
      obtain ⟨edge, here, matched⟩ := List.countP_pos_iff.mp some
      simp only [Bool.and_eq_true, beq_iff_eq] at matched
      exact matched.2 ▸ bounded edge here
    · exact inside node earlier
  · have less := fewer node
    have same := known node
    rcases List.mem_append.mp (arrange.mem_iff.mp placed) with made | earlier
    · have entered := (members node).mp made
      rw [remaining] at entered
      omega
    · have zero := settled node earlier
      omega
  · exact forward_append forward (pendingEdges_zero (settled current (by simp)))

variable {count : Nat} {outEdges : Nat → List OutEdge}

theorem Sorting.kahn (bounded : ∀ edge ∈ edges, edge.destNode < count)
    (known : ∀ current node, (outEdges current).countP (enters node) =
      edges.countP fun edge => edge.sourceNode == current && edge.destNode == node)
    (passes : Nat) {left : Nat → Int}
    (before : Sorting edges count left ready order) :
    ∃ left' ready', Sorting edges count left' ready'
      (AiPipe.kahn outEdges passes (left, ready) order) := by
  induction passes generalizing left ready order with
  | zero => exact ⟨left, ready, before⟩
  | succ passes ih =>
    cases ready with
    | nil => exact ⟨left, [], before⟩
    | cons current ready => exact ih (before.step bounded (known current))

variable {inDegree : Nat → Nat}

theorem sorting_initial (edges : List Edge) (count : Nat)
    (known : ∀ node, inDegree node = edges.countP fun edge => edge.destNode == node) :
    Sorting edges count (fun node => inDegree node)
      ((List.range count).filter fun node => inDegree node = 0) [] := by
  have pending (node : Nat) : pendingEdges edges [] node = inDegree node := by
    rw [known]
    simp [pendingEdges]
  refine ⟨fun node => by rw [pending], ?_, fun node here => ?_, fun node here => ?_, ?_⟩
  · rw [List.append_nil]
    exact List.nodup_range.filter _
  · simp only [List.append_nil, List.mem_filter, List.mem_range] at here
    exact here.1
  · simp only [List.append_nil, List.mem_filter, decide_eq_true_eq] at here
    rw [pending]
    exact here.2
  · intro before node after split
    simp at split

section

variable (bounded : ∀ edge ∈ edges, edge.destNode < count)
include bounded

/-- An order that reaches all the nodes holds each of them once, after the nodes that feed it. -/
theorem kahn_order (known : ∀ current node, (outEdges current).countP (enters node) =
      edges.countP fun edge => edge.sourceNode == current && edge.destNode == node)
    (degrees : ∀ node, inDegree node = edges.countP fun edge => edge.destNode == node)
    (complete : (kahn outEdges count (fun node => inDegree node,
      (List.range count).filter fun node => inDegree node = 0) []).length = count) :
    let order := kahn outEdges count (fun node => inDegree node,
      (List.range count).filter fun node => inDegree node = 0) []
    order.Perm (List.range count) ∧ ∀ before node after, order = before ++ node :: after →
      ∀ edge ∈ edges, edge.destNode = node → edge.sourceNode ∈ before := by
  intro order
  obtain ⟨left, ready, sorted⟩ := (sorting_initial edges count degrees).kahn bounded known count
  have placed := List.nodup_append.mp sorted.distinct
  refine ⟨?_, sorted.forward⟩
  apply (List.subperm_of_subset placed.2.1 fun node here => ?_).perm_of_length_le
  · rw [List.length_range]
    exact Nat.le_of_eq complete.symm
  · exact List.mem_range.mpr (sorted.inside node (List.mem_append_right _ here))

theorem idxOf_lt_of_forward (perm : order.Perm (List.range count))
    (forward : ∀ before node after, order = before ++ node :: after →
      ∀ edge ∈ edges, edge.destNode = node → edge.sourceNode ∈ before) :
    ∀ edge ∈ edges, order.idxOf edge.sourceNode < order.idxOf edge.destNode := by
  intro edge here
  have placed : edge.destNode ∈ order := by
    rw [perm.mem_iff, List.mem_range]
    exact bounded edge here
  obtain ⟨before, after, split⟩ := List.append_of_mem placed
  have earlier : edge.sourceNode ∈ before := forward before edge.destNode after split edge here rfl
  have distinct := perm.nodup_iff.mpr List.nodup_range
  rw [split] at distinct
  have apart : edge.destNode ∉ before := fun again =>
    (List.nodup_append.mp distinct).2.2 _ again _ List.mem_cons_self rfl
  simp only [split, List.idxOf_append_of_mem earlier, List.idxOf_append_of_notMem apart]
  have inside := List.idxOf_lt_length_of_mem earlier
  omega

end

/-! Edges as a relation on nodes. -/

def Adjacent {Node : Type} (edges : List (NodeEdge Node)) (source dest : Node) : Prop :=
  ∃ edge ∈ edges, edge.sourceNode = source ∧ edge.destNode = dest

theorem Adjacent.bounds {nodes : List NodeDecl} {source dest : Nat}
    (declared : ∀ edge ∈ edges, edge.declared nodes) (adjacent : Adjacent edges source dest) :
    source < nodes.length ∧ dest < nodes.length := by
  obtain ⟨edge, here, rfl, rfl⟩ := adjacent
  obtain ⟨_, known, _, known', -⟩ := declared edge here
  exact ⟨(List.getElem?_eq_some_iff.mp known).1, (List.getElem?_eq_some_iff.mp known').1⟩

theorem acyclic_of_forward
    (forward : ∀ edge ∈ edges, order.idxOf edge.sourceNode < order.idxOf edge.destNode) (node : Nat) :
    ¬ Relation.TransGen (Adjacent edges) node node := by
  intro circle
  have rises : Relation.TransGen (fun first second : Nat => first < second) (order.idxOf node)
      (order.idxOf node) := by
    refine circle.lift (fun node => order.idxOf node) ?_
    rintro _ _ ⟨edge, here, rfl, rfl⟩
    exact forward edge here
  rw [Relation.transGen_eq_self] at rises
  exact lt_irrefl _ rises

theorem mem_pushUnique {value other : Nat} {values : List Nat} :
    other ∈ pushUnique value values ↔ other ∈ values ∨ other = value := by
  unfold pushUnique
  split
  next known =>
    refine ⟨.inl, ?_⟩
    rintro (here | rfl)
    · exact here
    · exact known
  next => simp

theorem nodup_pushUnique {value : Nat} {values : List Nat} (distinct : values.Nodup) :
    (pushUnique value values).Nodup := by
  unfold pushUnique
  split
  next => exact distinct
  next new =>
    refine List.nodup_append.mpr ⟨distinct, List.nodup_singleton _, ?_⟩
    rintro other here _ last rfl
    exact new (List.mem_singleton.mp last ▸ here)

def fillTable (key value : Edge → Nat) (table : Nat → List Nat) (edges : List Edge) :
    Nat → List Nat :=
  edges.foldl (fun table edge =>
    Function.update table (key edge) (pushUnique (value edge) (table (key edge)))) table

theorem fillTable_spec (key value : Edge → Nat) (edges : List Edge) (table : Nat → List Nat)
    (index : Nat) (distinct : (table index).Nodup) :
    (fillTable key value table edges index).Nodup ∧
      ∀ other, other ∈ fillTable key value table edges index ↔
        other ∈ table index ∨ ∃ edge ∈ edges, key edge = index ∧ value edge = other := by
  unfold fillTable
  induction edges generalizing table with
  | nil => simp [distinct]
  | cons edge rest ih =>
    rw [List.foldl_cons]
    by_cases same : key edge = index
    · subst same
      obtain ⟨unique, members⟩ := ih (update table (key edge)
        (pushUnique (value edge) (table (key edge)))) (by simpa using nodup_pushUnique distinct)
      refine ⟨unique, fun other => ?_⟩
      rw [members, update_self, mem_pushUnique]
      simp [or_assoc, eq_comm]
    · obtain ⟨unique, members⟩ := ih (update table (key edge)
        (pushUnique (value edge) (table (key edge))))
        (by rwa [update_of_ne (Ne.symm same)])
      refine ⟨unique, fun other => ?_⟩
      rw [members, update_of_ne (Ne.symm same)]
      simp [same]

theorem addEdges_adjacency (nodes : List NodeDecl) (edges : List Edge) (tables : RoutingTables) :
    (edges.foldl (RoutingTables.addEdge nodes) tables).successors =
        fillTable NodeEdge.sourceNode NodeEdge.destNode tables.successors edges ∧
      (edges.foldl (RoutingTables.addEdge nodes) tables).predecessors =
        fillTable NodeEdge.destNode NodeEdge.sourceNode tables.predecessors edges := by
  induction edges generalizing tables with
  | nil => exact ⟨rfl, rfl⟩
  | cons edge rest ih => exact ih (tables.addEdge nodes edge)

section Parts

variable {nodes : List NodeDecl} {edges : List Edge} {compiled : CompiledGraph}
  (succeeded : compileParts nodes edges = .ok compiled)
include succeeded

theorem compileParts_outEdges (node : Nat) : compiled.outEdges node =
    (edges.filter fun edge => edge.sourceNode == node).map (Edge.toOutEdge nodes) := by
  obtain ⟨-, -, -, rfl⟩ := compileParts_ok succeeded
  simpa using addEdges_outEdges nodes edges {} node

theorem compileParts_inDegree (node : Nat) :
    compiled.inDegree node = edges.countP fun edge => edge.destNode == node := by
  obtain ⟨-, -, -, rfl⟩ := compileParts_ok succeeded
  simpa using addEdges_inDegree nodes edges {} node

theorem compileParts_successors (source : Nat) : (compiled.successors source).Nodup ∧
    ∀ dest, dest ∈ compiled.successors source ↔
      ∃ edge ∈ edges, edge.sourceNode = source ∧ edge.destNode = dest := by
  obtain ⟨-, -, -, rfl⟩ := compileParts_ok succeeded
  have filled := fillTable_spec NodeEdge.sourceNode NodeEdge.destNode edges (fun _ => []) source
    List.nodup_nil
  rw [← (addEdges_adjacency nodes edges {}).1] at filled
  simpa using filled

theorem compileParts_predecessors (dest : Nat) : (compiled.predecessors dest).Nodup ∧
    ∀ source, source ∈ compiled.predecessors dest ↔
      ∃ edge ∈ edges, edge.destNode = dest ∧ edge.sourceNode = source := by
  obtain ⟨-, -, -, rfl⟩ := compileParts_ok succeeded
  have filled := fillTable_spec NodeEdge.destNode NodeEdge.sourceNode edges (fun _ => []) dest
    List.nodup_nil
  rw [← (addEdges_adjacency nodes edges {}).2] at filled
  simpa using filled

theorem compileParts_nodes : compiled.nodes = nodes := by
  obtain ⟨-, -, -, rfl⟩ := compileParts_ok succeeded
  rfl

theorem compileParts_order (bounded : ∀ edge ∈ edges, edge.destNode < nodes.length) :
    compiled.topologicalOrder.Perm (List.range nodes.length) ∧
      ∀ edge ∈ edges, compiled.topologicalOrder.idxOf edge.sourceNode <
        compiled.topologicalOrder.idxOf edge.destNode := by
  obtain ⟨-, complete, -, made⟩ := compileParts_ok succeeded
  have degrees (node : Nat) := addEdges_inDegree nodes edges {} node
  simp only [Nat.zero_add] at degrees
  obtain ⟨perm, forward⟩ := kahn_order bounded (tables_outEdges_count nodes edges) degrees complete
  rw [made]
  exact ⟨perm, idxOf_lt_of_forward bounded perm forward⟩

end Parts

end AiPipe
