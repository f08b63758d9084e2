import AiPipe.GraphOrder
import AiPipe.Sync.JoinAware
import Mathlib.Data.List.Chain

/-!
The path enumeration of the strategy.  `pathsBelow` is what one call of the depth-first search
appends to its result; without cycles it finds exactly the paths.
-/

namespace AiPipe

open List CompiledGraph

/-- `inner` are the nodes strictly between `source` and `dest` on a path. -/
def Path (edges : List Edge) (source : Nat) (inner : List Nat) (dest : Nat) : Prop :=
  (source :: (inner ++ [dest])).IsChain (Adjacent edges)

namespace CompiledGraph

variable (graph : CompiledGraph)

def pathsBelow (dest : Nat) : Nat → Nat → List Nat → List Nat → List (List Nat)
  | 0, _, _, _ => []
  | depth + 1, current, path, visited =>
    if current = dest then
      if 2 ≤ (path ++ [current]).length then [((path ++ [current]).drop 1).dropLast] else []
    else (graph.successors current).flatMap fun next =>
      if next ∈ current :: visited then []
      else pathsBelow dest depth next (path ++ [current]) (current :: visited)

theorem findAllPathsDFS_eq (dest depth current : Nat) (search : PathSearch)
    (new : current ∉ search.visited) :
    graph.findAllPathsDFS dest depth current search =
      { search with
        allPaths := search.allPaths ++
          graph.pathsBelow dest depth current search.currentPath search.visited } := by
  induction depth generalizing current search with
  | zero => simp [findAllPathsDFS, pathsBelow]
  | succ depth ih =>
    have loop (nexts : List Nat) (inner : PathSearch) :
        nexts.foldl (fun search neighbor =>
          if neighbor ∈ search.visited then search
          else graph.findAllPathsDFS dest depth neighbor search) inner =
        { inner with
          allPaths := inner.allPaths ++ nexts.flatMap fun next =>
            if next ∈ inner.visited then []
            else graph.pathsBelow dest depth next inner.currentPath inner.visited } := by
      induction nexts generalizing inner with
      | nil => simp
      | cons next nexts later =>
        rw [foldl_cons, later, flatMap_cons]
        split
        · simp
        · rename_i fresh
          simp [ih next inner fresh]
    have entered : search.visited.insert current = current :: search.visited :=
      insert_of_not_mem new
    simp only [findAllPathsDFS, pathsBelow, entered]
    split
    · split <;> simp
    · rw [loop]
      simp

theorem mem_pathsBelow {dest : Nat} (rest path visited : List Nat) {current depth : Nat}
    (chain : (current :: rest).IsChain fun source next => next ∈ graph.successors source)
    (last : (current :: rest).getLast? = some dest) (distinct : (current :: rest).Nodup)
    (fresh : ∀ node ∈ current :: rest, node ∉ visited) (deep : rest.length < depth)
    (long : 2 ≤ (path ++ current :: rest).length) :
    ((path ++ current :: rest).drop 1).dropLast ∈
      graph.pathsBelow dest depth current path visited := by
  induction rest generalizing current depth path visited with
  | nil =>
    obtain ⟨depth, rfl⟩ : ∃ less, depth = less + 1 := ⟨depth - 1, by simp at deep; omega⟩
    obtain rfl : current = dest := by simpa using last
    rw [pathsBelow, if_pos rfl, if_pos long, mem_singleton]
  | cons next rest ih =>
    obtain ⟨depth, rfl⟩ : ∃ less, depth = less + 1 := ⟨depth - 1, by simp at deep; omega⟩
    obtain ⟨linked, chain⟩ := isChain_cons_cons.mp chain
    obtain ⟨apart, distinct⟩ := nodup_cons.mp distinct
    rw [getLast?_cons_cons] at last
    have further : current ≠ dest := by
      rintro rfl
      exact apart (mem_of_getLast? last)
    rw [pathsBelow, if_neg further, mem_flatMap]
    refine ⟨next, linked, ?_⟩
    have open_ : next ∉ current :: visited := by
      rw [mem_cons, not_or]
      refine ⟨?_, fresh next (by simp)⟩
      rintro rfl
      exact apart mem_cons_self
    rw [if_neg open_]
    have found := ih (path ++ [current]) (current :: visited) chain last distinct
      (fun node here => ?_) (by simp at deep; omega) (by simpa using long)
    · simpa using found
    · rw [mem_cons, not_or]
      refine ⟨?_, fresh node (mem_cons_of_mem _ here)⟩
      rintro rfl
      exact apart here

theorem of_mem_pathsBelow {dest depth current : Nat} {path visited found : List Nat}
    (here : found ∈ graph.pathsBelow dest depth current path visited) :
    ∃ rest, (current :: rest).IsChain (fun source next => next ∈ graph.successors source) ∧
      (current :: rest).getLast? = some dest ∧ 2 ≤ (path ++ current :: rest).length ∧
      found = ((path ++ current :: rest).drop 1).dropLast := by
  induction depth generalizing current path visited with
  | zero => simp [pathsBelow] at here
  | succ depth ih =>
    rw [pathsBelow] at here
    split at here
    next arrived =>
      subst arrived
      split at here
      next long => exact ⟨[], by simp, rfl, long, mem_singleton.mp here⟩
      next => simp at here
    next =>
      obtain ⟨next, linked, here⟩ := mem_flatMap.mp here
      split at here
      next => simp at here
      next =>
        obtain ⟨rest, chain, last, long, same⟩ := ih here
        refine ⟨next :: rest, isChain_cons_cons.mpr ⟨linked, chain⟩, ?_, ?_, ?_⟩
        · rw [getLast?_cons_cons]
          exact last
        · simpa using long
        · simpa using same

theorem head_of_inner {dest next other : Nat} {path rest rest' : List Nat} (begun : path ≠ [])
    (last : (next :: rest).getLast? = some dest) (last' : (other :: rest').getLast? = some dest)
    (same : ((path ++ next :: rest).drop 1).dropLast = ((path ++ other :: rest').drop 1).dropLast) :
    next = other := by
  have restore (node : Nat) (tail : List Nat) (last : (node :: tail).getLast? = some dest) :
      ((path ++ node :: tail).drop 1).dropLast ++ [dest] = path.drop 1 ++ node :: tail := by
    rw [drop_append_of_le_length (length_pos_iff.mpr begun),
      dropLast_append_of_ne_nil (cons_ne_nil node tail), append_assoc,
      dropLast_append_getLast? dest last]
  have whole := restore next rest last
  rw [same, restore other rest' last'] at whole
  exact (List.cons.inj (append_cancel_left whole)).1.symm

/-- Two paths that leave the current node by different successors differ. -/
theorem nodup_pathsBelow (distinct : ∀ node, (graph.successors node).Nodup)
    {dest depth current : Nat} {path visited : List Nat} :
    (graph.pathsBelow dest depth current path visited).Nodup := by
  induction depth generalizing current path visited with
  | zero => exact nodup_nil
  | succ depth ih =>
    rw [pathsBelow]
    split
    · split <;> simp
    · refine nodup_flatMap.mpr ⟨fun next _ => ?_, (distinct current).imp ?_⟩
      · split
        · exact nodup_nil
        · exact ih
      · intro next other apart found left right
        dsimp only at left right
        split at left
        next => exact not_mem_nil left
        split at right
        next => exact not_mem_nil right
        obtain ⟨rest, _, last, _, rfl⟩ := graph.of_mem_pathsBelow left
        obtain ⟨rest', _, last', _, same⟩ := graph.of_mem_pathsBelow right
        exact apart (head_of_inner (by simp) last last' same)

theorem nodup_findAllPaths (distinct : ∀ node, (graph.successors node).Nodup)
    (source dest : Nat) : (graph.findAllPaths source dest).Nodup := by
  rw [findAllPaths, graph.findAllPathsDFS_eq _ _ _ _ not_mem_nil]
  exact graph.nodup_pathsBelow distinct

/-- `findAllPathsDFS` that has no answer when a call lacks the depth it needs. -/
def searchWithin (dest : Nat) : Nat → Nat → PathSearch → Option PathSearch
  | 0, _, _ => none
  | depth + 1, current, search =>
    let entered := { search with
      visited := search.visited.insert current
      currentPath := search.currentPath ++ [current] }
    let searched :=
      if current = dest then
        if 2 ≤ entered.currentPath.length then
          some { entered with
            allPaths := entered.allPaths ++ [(entered.currentPath.drop 1).dropLast] }
        else some entered
      else (graph.successors current).foldlM (fun search neighbor =>
        if neighbor ∈ search.visited then some search
        else searchWithin dest depth neighbor search) entered
    searched.map fun searched => { searched with
      currentPath := searched.currentPath.dropLast
      visited := searched.visited.erase current }

theorem searchWithin_eq (dest : Nat)
    (bounded : ∀ node, ∀ next ∈ graph.successors node, next < graph.nodeCount)
    {depth current : Nat} {search : PathSearch} (new : current ∉ search.visited)
    (distinct : search.visited.Nodup)
    (nodes : current :: search.visited ⊆ List.range graph.nodeCount)
    (room : graph.nodeCount < depth + search.visited.length) :
    graph.searchWithin dest depth current search =
      some (graph.findAllPathsDFS dest depth current search) := by
  induction depth generalizing current search with
  | zero =>
    have few := (subperm_of_subset distinct (cons_subset.mp nodes).2).length_le
    rw [length_range] at few
    omega
  | succ depth ih =>
    have loop (nexts : List Nat) (inner : PathSearch)
        (here : inner.visited = current :: search.visited)
        (linked : ∀ next ∈ nexts, next < graph.nodeCount) :
        nexts.foldlM (fun search neighbor =>
          if neighbor ∈ search.visited then some search
          else graph.searchWithin dest depth neighbor search) inner =
        some (nexts.foldl (fun search neighbor =>
          if neighbor ∈ search.visited then search
          else graph.findAllPathsDFS dest depth neighbor search) inner) := by
      induction nexts generalizing inner with
      | nil => rfl
      | cons next nexts later =>
        obtain ⟨first, linked⟩ := forall_mem_cons.mp linked
        rw [foldlM_cons, foldl_cons]
        by_cases seen : next ∈ inner.visited
        · rw [if_pos seen, if_pos seen]
          exact later inner here linked
        · rw [if_neg seen, if_neg seen, ih seen (by simp [here, new, distinct])
            (by simpa [here, first] using nodes) (by simp [here]; omega)]
          refine later _ ?_ linked
          rw [graph.findAllPathsDFS_eq _ _ _ _ seen]
          exact here
    simp only [searchWithin, findAllPathsDFS, insert_of_not_mem new]
    split
    · split <;> rfl
    · rw [loop _ _ rfl (bounded current)]
      rfl

end CompiledGraph

section Compiled

variable {nodes : List NodeDecl} {edges : List Edge} {compiled : CompiledGraph}
  (succeeded : compileParts nodes edges = .ok compiled)
  (declared : ∀ edge ∈ edges, edge.declared nodes)
include succeeded declared

theorem compileParts_forward {source dest : Nat} (adjacent : Adjacent edges source dest) :
    compiled.topologicalOrder.idxOf source < compiled.topologicalOrder.idxOf dest := by
  obtain ⟨edge, here, rfl, rfl⟩ := adjacent
  exact (compileParts_order succeeded fun edge here =>
    (Adjacent.bounds declared ⟨edge, here, rfl, rfl⟩).2).2 edge here

theorem compileParts_chain_nodup {walk : List Nat} (chain : walk.IsChain (Adjacent edges)) :
    walk.Nodup := by
  have rising : (walk.map compiled.topologicalOrder.idxOf).IsChain (· < ·) :=
    (isChain_map _).mpr (chain.imp fun _ _ => compileParts_forward succeeded declared)
  exact Nodup.of_map _ (rising.pairwise.imp Nat.ne_of_lt)

theorem mem_findAllPaths {source dest : Nat} {inner : List Nat} :
    inner ∈ compiled.findAllPaths source dest ↔ Path edges source inner dest := by
  have same (source next : Nat) : next ∈ compiled.successors source ↔ Adjacent edges source next :=
    (compileParts_successors succeeded source).2 next
  rw [findAllPaths, findAllPathsDFS_eq _ _ _ _ _ not_mem_nil]
  constructor
  · intro here
    obtain ⟨rest, chain, last, long, rfl⟩ := compiled.of_mem_pathsBelow here
    cases rest using reverseRecOn with
    | nil => simp at long
    | append_singleton inner final =>
      obtain rfl : final = dest := by
        rw [← cons_append, getLast?_concat] at last
        exact Option.some.inj last
      simp only [same] at chain
      simpa [Path] using chain
  · intro path
    have distinct := compileParts_chain_nodup succeeded declared path
    have bounded : ∀ node ∈ inner ++ [dest], node ∈ List.range compiled.nodeCount := by
      intro node here
      obtain ⟨before, after, split⟩ := append_of_mem here
      rw [Path, split, ← cons_append] at path
      rw [mem_range, nodeCount, compileParts_nodes succeeded]
      obtain ⟨earlier, final, walked⟩ : ∃ earlier final, source :: before = earlier ++ [final] :=
        ⟨_, _, (dropLast_append_getLast (cons_ne_nil source before)).symm⟩
      rw [walked, append_assoc, singleton_append, isChain_append_cons_cons] at path
      exact (path.2.1.bounds declared).2
    have short : (inner ++ [dest]).length ≤ compiled.nodeCount := by
      have fits := (subperm_of_subset (nodup_cons.mp distinct).2 bounded).length_le
      rwa [length_range] at fits
    have walked : (source :: (inner ++ [dest])).IsChain
        fun source next => next ∈ compiled.successors source := by
      simp only [same]
      exact path
    have found := compiled.mem_pathsBelow (inner ++ [dest]) [] [] walked
      (by rw [← cons_append, getLast?_concat]) distinct (by simp)
      (Nat.lt_succ_of_le short) (by simp)
    simpa using found

theorem successors_lt (source : Nat) : ∀ next ∈ compiled.successors source, next < compiled.nodeCount := by
  intro next linked
  rw [nodeCount, compileParts_nodes succeeded]
  exact (Adjacent.bounds declared (((compileParts_successors succeeded source).2 next).mp linked)).2

/-- The search returns with its working state as it found it, and what it has found are the
interiors of the paths, each once. -/
theorem findAllPaths_enumerates {source : Nat} (node : source < compiled.nodeCount) (dest : Nat) :
    compiled.searchWithin dest (compiled.nodeCount + 1) source {} =
        some (compiled.findAllPathsDFS dest (compiled.nodeCount + 1) source {}) ∧
      compiled.findAllPathsDFS dest (compiled.nodeCount + 1) source {} =
        { currentPath := [], visited := [], allPaths := compiled.findAllPaths source dest } ∧
      (compiled.findAllPaths source dest).Nodup ∧
      ∀ inner, inner ∈ compiled.findAllPaths source dest ↔ Path edges source inner dest := by
  have searched := compiled.findAllPathsDFS_eq dest (compiled.nodeCount + 1) source {} not_mem_nil
  refine ⟨?_, ?_, ?_, fun inner => mem_findAllPaths succeeded declared⟩
  · exact compiled.searchWithin_eq dest (successors_lt succeeded declared) not_mem_nil nodup_nil
      (by simpa using node) (Nat.lt_succ_self _)
  · rw [findAllPaths, searched]
  · exact compiled.nodup_findAllPaths (fun source => (compileParts_successors succeeded source).1) _ _

end Compiled

def diamondGraph : Graph where
  nodes := [⟨"A", [], ["out"]⟩, ⟨"B", ["in"], ["out"]⟩, ⟨"C", ["in"], ["out"]⟩,
    ⟨"D", ["left", "right"], []⟩]
  edges := [⟨0, "out", 1, "in"⟩, ⟨0, "out", 2, "in"⟩, ⟨1, "out", 3, "left"⟩, ⟨2, "out", 3, "right"⟩]
  namesNodup := by decide
  portsNodup := by decide
  edgesNodup := by decide
  edgesDeclared := by simp [Edge.declared]

theorem findAllPaths_enumerates_diamond : ∃ compiled, compile diamondGraph = .ok compiled ∧
    compiled.findAllPaths 0 3 = [[1], [2]] ∧ (compiled.findAllPaths 0 3).Nodup ∧
    ∀ inner, inner ∈ [[1], [2]] ↔ Path diamondGraph.edges 0 inner 3 := by
  obtain ⟨compiled, succeeded, inside, found⟩ := diamondGraph.compiled_of (fun compiled =>
    0 < compiled.nodeCount ∧ compiled.findAllPaths 0 3 = [[1], [2]]) (by decide +kernel)
  obtain ⟨-, -, distinct, members⟩ := findAllPaths_enumerates succeeded diamondGraph.edgesDeclared inside 3
  exact ⟨compiled, succeeded, found, distinct, found ▸ members⟩

end AiPipe
