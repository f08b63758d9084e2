import AiPipe.Sync.DropPropagation
import AiPipe.Sync.ForkSearch

/-!
Which nodes share a sync group.  `Mapped` describes the node mapping in terms of the joins that
have a fork and the paths between the two.
-/

namespace AiPipe

open List CompiledGraph

namespace JoinAwareSyncStrategy

def Entry (graph : CompiledGraph) (found : List (Nat × CompiledGraph.ForkSearchResult))
    (name : String) (entry : String × String) : Prop :=
  ∃ number join result, found[number]? = some (join, result) ∧
    ∃ index path, result.paths[index]? = some path ∧ (∃ node ∈ path, graph.name node = name) ∧
      entry = (groupIdOf number (graph.name result.forkNode) (graph.name join), branchIdOf index)

structure Mapped (graph : CompiledGraph) (found : List (Nat × CompiledGraph.ForkSearchResult))
    (work : Nat × JoinAwareSyncStrategy) : Prop where
  counted : work.1 = found.length
  entries : ∀ name entry, entry ∈ work.2.nodeMultiMapping name ↔ Entry graph found name entry

def forkOf (graph : CompiledGraph) (hash : HashOrder) (join : Nat) :
    Option (Nat × CompiledGraph.ForkSearchResult) :=
  (graph.findLowestCommonFork hash join).map fun result => (join, result)

theorem Mapped.addJoin {graph : CompiledGraph} {hash : HashOrder}
    {found : List (Nat × CompiledGraph.ForkSearchResult)} {work : Nat × JoinAwareSyncStrategy}
    (mapped : Mapped graph found work) (join : Nat) :
    Mapped graph (found ++ (forkOf graph hash join).toList) (addJoin graph hash work join) := by
  unfold JoinAwareSyncStrategy.addJoin forkOf
  cases graph.findLowestCommonFork hash join with
  | none => simpa using mapped
  | some result =>
    have entries (name : String) (entry : String × String) :
        entry ∈ (mapPaths graph (groupIdOf work.1 (graph.name result.forkNode) (graph.name join))
          work.2 result.paths).nodeMultiMapping name ↔
        Entry graph (found ++ [(join, result)]) name entry := by
      rw [mem_mapPaths, mapped.entries, mapped.counted]
      constructor
      · rintro (⟨number, join', result', listed, rest⟩ | rest)
        · refine ⟨number, join', result', ?_, rest⟩
          rw [List.getElem?_append_left (List.getElem?_eq_some_iff.mp listed).1]
          exact listed
        · exact ⟨found.length, join, result, by simp, rest⟩
      · rintro ⟨number, join', result', listed, rest⟩
        rcases Nat.lt_or_ge number found.length with earlier | last
        · rw [getElem?_append_left earlier] at listed
          exact .inl ⟨number, join', result', listed, rest⟩
        · have bound := (List.getElem?_eq_some_iff.mp listed).1
          rw [length_append, length_singleton] at bound
          obtain rfl : number = found.length := by omega
          rw [getElem?_concat_length] at listed
          obtain ⟨rfl, rfl⟩ := Prod.mk.inj (Option.some.inj listed)
          exact .inr rest
    refine ⟨by simp [mapped.counted], fun name entry => ?_⟩
    dsimp only
    split
    · exact entries name entry
    · exact entries name entry

theorem mapped_initializeFrom (hash : HashOrder) (graph : CompiledGraph) (name : String)
    (entry : String × String) : entry ∈ (initializeFrom hash graph).nodeMultiMapping name ↔
      Entry graph (graph.joinPoints.filterMap (forkOf graph hash)) name entry := by
  suffices walk : ∀ (joins : List Nat) found work, Mapped graph found work →
      Mapped graph (found ++ joins.filterMap (forkOf graph hash))
        (joins.foldl (addJoin graph hash) work) by
    have empty : Mapped graph [] (0, {}) := ⟨rfl, fun _ _ => by simp [Entry]⟩
    exact (walk graph.joinPoints [] _ empty).entries name entry
  intro joins
  induction joins with
  | nil => exact fun found work mapped => by simpa using mapped
  | cons join joins ih =>
    intro found work mapped
    have later := ih _ _ (@Mapped.addJoin graph hash found work mapped join)
    rw [append_assoc] at later
    rw [foldl_cons, filterMap_cons]
    cases pair : forkOf graph hash join with
    | none => simpa [pair] using later
    | some => simpa [pair] using later

theorem branchIdOf_injective {left right : Nat} (same : branchIdOf left = branchIdOf right) :
    left = right := by
  have characters := congrArg String.toList same
  simp only [branchIdOf, String.toList_append, Nat.toString_eq_repr, Nat.toList_repr] at characters
  have digits := append_cancel_left characters
  rw [← Nat.ofDigitChars_toDigits (b := 10) (n := left) (by decide) (by decide), digits,
    Nat.ofDigitChars_toDigits (by decide) (by decide)]

theorem reportDrop_pending (hash : HashOrder) (graph : CompiledGraph)
    {node sibling groupId origin branchId : String}
    (mappedNode : (groupId, origin) ∈ (initializeFrom hash graph).nodeMultiMapping node)
    (mappedSibling : (groupId, branchId) ∈ (initializeFrom hash graph).nodeMultiMapping sibling)
    (other : origin ≠ branchId) (frame : Nat) (reason : String) :
    ((initializeFrom hash graph).reportDrop node frame reason).1.shouldDrop sibling frame = true := by
  obtain ⟨_, registered⟩ := registered_initializeFrom hash graph
  obtain ⟨branch, found, untouched⟩ := registered.mapped sibling groupId branchId mappedSibling
  obtain ⟨branch', found', _⟩ := registered.mapped node groupId origin mappedNode
  have behind : (initializeFrom hash graph).coordinator.Holds groupId branchId
      (BranchState.Behind frame) := ⟨branch, found, .inr untouched⟩
  have pending := behind.reported ⟨branch', found', trivial⟩ mappedNode other reason
  refine shouldDrop_of_pending ?_ pending
  have kept := (initializeFrom hash graph).call_nodeMultiMapping (.reportDrop node frame reason)
  exact (congrFun kept sibling).symm ▸ mappedSibling

end JoinAwareSyncStrategy

open JoinAwareSyncStrategy

/-- The nodes are on different branches of one group. -/
def JoinAwareSyncStrategy.Separates (strategy : JoinAwareSyncStrategy) (a b : String) : Prop :=
  ∃ groupId branchA branchB, branchA ≠ branchB ∧ (groupId, branchA) ∈ strategy.nodeMultiMapping a ∧
    (groupId, branchB) ∈ strategy.nodeMultiMapping b

section Paths

variable {edges : List Edge} {source dest node fork join a b : Nat} {inner rest : List Nat}

/-- The nodes lie strictly inside two paths that have only their ends in common. -/
def InDiamond (edges : List Edge) (a b : Nat) : Prop :=
  ∃ split join left right, Path edges split left join ∧ Path edges split right join ∧
    left.Disjoint right ∧ a ∈ left ∧ b ∈ right

/-- Two different paths lead from the fork to the join, one past each of the nodes. -/
def Parted (edges : List Edge) (fork join a b : Nat) : Prop :=
  ∃ left right, left ≠ right ∧ Path edges fork left join ∧ a ∈ left ∧ Path edges fork right join ∧
    b ∈ right

/-- At some join the search meets a fork, and every fork that it may meet parts the nodes. -/
def AlwaysParted (edges : List Edge) (a b : Nat) : Prop :=
  ∃ join, (∃ first second, first ≠ second ∧ Adjacent edges first join ∧ Adjacent edges second join) ∧
    (∃ fork, MetFirst edges join fork) ∧
      ∀ fork, MetFirst edges join fork → Parted edges fork join a b

theorem path_append : Path edges source (inner ++ node :: rest) dest ↔
    Path edges source inner node ∧ Path edges node rest dest := by
  unfold Path
  rw [append_assoc, cons_append, ← cons_append, isChain_split, cons_append]

theorem Path.leaves (path : Path edges source inner dest) : ∃ next, Adjacent edges source next := by
  unfold Path at path
  cases inner with
  | nil => exact ⟨_, (isChain_cons_cons.mp path).1⟩
  | cons => exact ⟨_, (isChain_cons_cons.mp path).1⟩

theorem not_parted : ¬ Parted edges fork join a b ↔ ∀ left right, Path edges fork left join →
    a ∈ left → Path edges fork right join → b ∈ right → left = right := by
  unfold Parted
  grind

def LeadsToBoth (edges : List Edge) (a b fork : Nat) : Prop :=
  (∃ inner, Path edges fork inner a) ∧ ∃ inner, Path edges fork inner b

def FailsToPart (edges : List Edge) (a b fork : Nat) : Prop :=
  ∃ join, (∃ inner, Path edges a inner join) ∧ (∃ inner, Path edges b inner join) ∧
    ¬ Parted edges fork join a b

theorem Parted.leads (parts : Parted edges fork join a b) : LeadsToBoth edges a b fork ∧
    (∃ inner, Path edges a inner join) ∧ ∃ inner, Path edges b inner join := by
  obtain ⟨left, right, -, leftPath, inLeft, rightPath, inRight⟩ := parts
  obtain ⟨before, after, rfl⟩ := append_of_mem inLeft
  obtain ⟨before', after', rfl⟩ := append_of_mem inRight
  rw [path_append] at leftPath rightPath
  exact ⟨⟨⟨_, leftPath.1⟩, ⟨_, rightPath.1⟩⟩, ⟨_, leftPath.2⟩, ⟨_, rightPath.2⟩⟩

variable (acyclic : ∀ node inner, ¬ Path edges node inner node) {fork' join' : Nat}
include acyclic

/-- Where two paths run together past both nodes, the first ends and the last ends of such paths
do so in every combination. -/
theorem merged_paths {before before' after after' mid last first first' : List Nat}
    (apart : before' = before ++ mid)
    (merged : ∀ before before', Path edges fork before a → Path edges fork before' b →
      before ++ a :: last = before' ++ b :: rest)
    (path : Path edges fork before a) (path' : Path edges fork before' b)
    (merged' : ∀ first first', Path edges fork' first a → Path edges fork' first' b →
      first ++ a :: after = first' ++ b :: after')
    (leads : Path edges fork' first a) (leads' : Path edges fork' first' b) :
    before ++ a :: after = before' ++ b :: after' := by
  have together := merged before before' path path'
  subst apart
  rw [append_assoc, append_cancel_left_eq] at together ⊢
  cases mid with
  | nil =>
    obtain ⟨rfl, rfl⟩ := List.cons.inj together
    exact append_cancel_left (merged' first first leads leads)
  | cons node mid =>
    obtain ⟨rfl, rfl⟩ := List.cons.inj together
    have between := (path_append.mp path').2
    rcases append_eq_append_iff.mp (merged' first first' leads leads') with
      ⟨more, rfl, tail⟩ | ⟨more, rfl, tail⟩
    · cases more with
      | nil =>
        obtain ⟨rfl, rfl⟩ := List.cons.inj tail
        exact absurd between (acyclic _ _)
      | cons other more =>
        obtain ⟨rfl, rfl⟩ := List.cons.inj tail
        -- both stretches between the nodes end the one way from the fork to the second node
        have again := merged before (before ++ a :: more) path
          (path_append.mpr ⟨path, (path_append.mp leads').2⟩)
        rw [append_assoc, append_cancel_left_eq] at again
        rw [append_cancel_right (List.cons.inj again).2]
        rfl
    · cases more with
      | nil =>
        obtain ⟨rfl, rfl⟩ := List.cons.inj tail
        exact absurd between (acyclic _ _)
      | cons other more =>
        obtain ⟨rfl, rfl⟩ := List.cons.inj tail
        exact absurd (path_append.mpr ⟨between, (path_append.mp leads).2⟩) (acyclic _ _)

/-- Forks that fail to part the nodes at some join fail wherever any fork that leads to both does. -/
theorem unparted_exchange (unparted : ¬ Parted edges fork join' a b)
    (behind : ∃ rest, Path edges a rest join') (behind' : ∃ rest, Path edges b rest join')
    (other : ¬ Parted edges fork' join a b)
    (leads : ∃ first, Path edges fork' first a) (leads' : ∃ first, Path edges fork' first b) :
    ¬ Parted edges fork join a b := by
  rw [not_parted] at unparted other ⊢
  obtain ⟨last, behind⟩ := behind
  obtain ⟨last', behind'⟩ := behind'
  obtain ⟨first, leads⟩ := leads
  obtain ⟨first', leads'⟩ := leads'
  intro left right path inside path' inside'
  obtain ⟨before, after, rfl⟩ := append_of_mem inside
  obtain ⟨before', after', rfl⟩ := append_of_mem inside'
  rw [path_append] at path path'
  have merged (before before' : List Nat) (path : Path edges fork before a)
      (path' : Path edges fork before' b) : before ++ a :: last = before' ++ b :: last' :=
    unparted _ _ (path_append.mpr ⟨path, behind⟩) (by simp) (path_append.mpr ⟨path', behind'⟩)
      (by simp)
  have merged' (first first' : List Nat) (leads : Path edges fork' first a)
      (leads' : Path edges fork' first' b) : first ++ a :: after = first' ++ b :: after' :=
    other _ _ (path_append.mpr ⟨leads, path.2⟩) (by simp) (path_append.mpr ⟨leads', path'.2⟩)
      (by simp)
  rcases append_eq_append_iff.mp (merged before before' path.1 path'.1) with
    ⟨mid, apart, -⟩ | ⟨mid, apart, -⟩
  · exact merged_paths acyclic apart merged path.1 path'.1 merged' leads leads'
  · exact (merged_paths acyclic apart (fun _ _ one two => (merged _ _ two one).symm) path'.1 path.1
      (fun _ _ one two => (merged' _ _ two one).symm) leads' leads).symm

end Paths

section Compiled

variable {nodes : List NodeDecl} {edges : List Edge} {compiled : CompiledGraph}
  (succeeded : compileParts nodes edges = .ok compiled)
  (declared : ∀ edge ∈ edges, edge.declared nodes)
include succeeded declared

theorem two_predecessors {join first second : Nat} (different : first ≠ second)
    (adjacent : Adjacent edges first join) (adjacent' : Adjacent edges second join) :
    2 ≤ (compiled.predecessors join).length ∧ join ∈ compiled.joinPoints := by
  refine ⟨(one_lt_length_iff (compileParts_predecessors succeeded join).1).mpr
    ⟨first, second, different, ?_, ?_⟩, ?_⟩
  · exact (mem_predecessors succeeded join first).mpr adjacent
  · exact (mem_predecessors succeeded join second).mpr adjacent'
  have bound := (adjacent.bounds declared).2
  obtain ⟨edge, here, rfl, into⟩ := adjacent
  obtain ⟨edge', here', rfl, into'⟩ := adjacent'
  have distinct : [edge, edge'].Nodup := by
    rw [nodup_cons, mem_singleton]
    exact ⟨fun same => different (congrArg NodeEdge.sourceNode same), nodup_singleton _⟩
  have entering : [edge, edge'] ⊆ edges.filter fun edge => edge.destNode == join := by
    simp [here, here', into, into']
  have several := (subperm_of_subset distinct entering).length_le
  rw [← countP_eq_length_filter] at several
  rw [joinPoints, mem_filter, mem_range, nodeCount, compileParts_nodes succeeded,
    compileParts_inDegree succeeded, decide_eq_true_eq]
  exact ⟨bound, several⟩

theorem inner_lt {source dest node : Nat} {inner : List Nat} (path : Path edges source inner dest)
    (inside : node ∈ inner) : node < compiled.nodeCount := by
  obtain ⟨before, after, rfl⟩ := append_of_mem inside
  obtain ⟨next, adjacent⟩ := (path_append.mp path).2.leaves
  rw [nodeCount, compileParts_nodes succeeded]
  exact (adjacent.bounds declared).1

theorem compileParts_acyclic (node : Nat) (inner : List Nat) : ¬ Path edges node inner node := by
  intro path
  have distinct := compileParts_chain_nodup succeeded declared path
  simp at distinct

variable (names : (nodes.map NodeDecl.name).Nodup)
include names

omit declared in
theorem name_injective {first second : Nat} (bound : first < compiled.nodeCount)
    (bound' : second < compiled.nodeCount) (same : compiled.name first = compiled.name second) :
    first = second := by
  rw [← compileParts_nodes succeeded] at names
  have known := getElem?_eq_getElem (show first < compiled.nodes.length from bound)
  have known' := getElem?_eq_getElem (show second < compiled.nodes.length from bound')
  have alike : (compiled.nodes.map NodeDecl.name)[first]? =
      (compiled.nodes.map NodeDecl.name)[second]? := by
    simpa [name, known, known'] using same
  exact (getElem?_inj (by rwa [length_map]) names).mp alike

theorem mapped_iff (hash : HashOrder) {node : Nat} (bound : node < compiled.nodeCount)
    (entry : String × String) :
    entry ∈ (initializeFrom hash compiled).nodeMultiMapping (compiled.name node) ↔
      ∃ number join result index inner,
        (compiled.joinPoints.filterMap (forkOf compiled hash))[number]? = some (join, result) ∧
        (compiled.findAllPaths result.forkNode join)[index]? = some inner ∧ node ∈ inner ∧
        entry = (groupIdOf number (compiled.name result.forkNode) (compiled.name join),
          branchIdOf index) := by
  have searched {number join : Nat} {result : ForkSearchResult} (numbered :
      (compiled.joinPoints.filterMap (forkOf compiled hash))[number]? = some (join, result)) :
      result.paths = compiled.findAllPaths result.forkNode join := by
    obtain ⟨_, _, paired⟩ := mem_filterMap.mp (mem_of_getElem? numbered)
    obtain ⟨_, found, same⟩ := Option.map_eq_some_iff.mp paired
    obtain ⟨rfl, rfl⟩ := Prod.mk.inj same
    exact (findLowestCommonFork_paths found).2
  rw [mapped_initializeFrom]
  constructor
  · rintro ⟨number, join, result, numbered, index, inner, indexed, ⟨other, inside, named⟩, same⟩
    rw [searched numbered] at indexed
    have path := (mem_findAllPaths succeeded declared).mp (mem_of_getElem? indexed)
    refine ⟨number, join, result, index, inner, numbered, indexed, ?_, same⟩
    exact name_injective succeeded names (inner_lt succeeded declared path inside) bound named ▸ inside
  · rintro ⟨number, join, result, index, inner, numbered, indexed, inside, same⟩
    rw [← searched numbered] at indexed
    exact ⟨number, join, result, numbered, index, inner, indexed, ⟨node, inside, rfl⟩, same⟩

theorem separates_iff (hash : HashOrder) {a b : Nat} (boundA : a < compiled.nodeCount)
    (boundB : b < compiled.nodeCount) :
    (initializeFrom hash compiled).Separates (compiled.name a) (compiled.name b) ↔
      ∃ join ∈ compiled.joinPoints, ∃ result,
        compiled.findLowestCommonFork hash join = some result ∧
          Parted edges result.forkNode join a b := by
  have distinct (source : Nat) := (compileParts_successors succeeded source).1
  constructor
  · rintro ⟨groupId, branchA, branchB, apart, mappedA, mappedB⟩
    obtain ⟨number, join, result, index, left, numbered, indexed, inLeft, named⟩ :=
      (mapped_iff succeeded declared names hash boundA _).mp mappedA
    obtain ⟨number', join', result', index', right, numbered', indexed', inRight, named'⟩ :=
      (mapped_iff succeeded declared names hash boundB _).mp mappedB
    obtain ⟨rfl, rfl⟩ := Prod.mk.inj named
    obtain ⟨sameGroup, rfl⟩ := Prod.mk.inj named'
    obtain rfl := groupIdOf_counter sameGroup
    rw [numbered] at numbered'
    obtain ⟨rfl, rfl⟩ := Prod.mk.inj (Option.some.inj numbered')
    obtain ⟨_, joins, paired⟩ := mem_filterMap.mp (mem_of_getElem? numbered)
    obtain ⟨_, found, same⟩ := Option.map_eq_some_iff.mp paired
    obtain ⟨rfl, rfl⟩ := Prod.mk.inj same
    refine ⟨_, joins, _, found, left, right, ?_, ?_, inLeft, ?_, inRight⟩
    · rintro rfl
      have bound := (List.getElem?_eq_some_iff.mp indexed).1
      exact apart (congrArg branchIdOf ((getElem?_inj bound
        (compiled.nodup_findAllPaths distinct _ _)).mp (indexed.trans indexed'.symm)))
    · exact (mem_findAllPaths succeeded declared).mp (mem_of_getElem? indexed)
    · exact (mem_findAllPaths succeeded declared).mp (mem_of_getElem? indexed')
  · rintro ⟨join, joins, result, found, left, right, apart, leftPath, inLeft, rightPath, inRight⟩
    have listed : (join, result) ∈ compiled.joinPoints.filterMap (forkOf compiled hash) :=
      mem_filterMap.mpr ⟨join, joins, by simp [forkOf, found]⟩
    obtain ⟨number, numbered⟩ := getElem?_of_mem listed
    obtain ⟨index, indexed⟩ := getElem?_of_mem ((mem_findAllPaths succeeded declared).mpr leftPath)
    obtain ⟨index', indexed'⟩ := getElem?_of_mem ((mem_findAllPaths succeeded declared).mpr rightPath)
    refine ⟨_, branchIdOf index, branchIdOf index', fun same => apart ?_,
      (mapped_iff succeeded declared names hash boundA _).mpr
        ⟨number, join, result, index, left, numbered, indexed, inLeft, rfl⟩,
      (mapped_iff succeeded declared names hash boundB _).mpr
        ⟨number, join, result, index', right, numbered, indexed', inRight, rfl⟩⟩
    obtain rfl := branchIdOf_injective same
    exact Option.some.inj (indexed.symm.trans indexed')

omit names in
/-- The search is run in an order that favors the forks that do not lead to both nodes, and after
them those that fail to part the nodes at some join behind both. -/
theorem alwaysParted_of_found {a b : Nat}
    (separated : ∀ hash, ∃ join ∈ compiled.joinPoints, ∃ result,
      compiled.findLowestCommonFork hash join = some result ∧
        Parted edges result.forkNode join a b) : AlwaysParted edges a b := by
  obtain ⟨hash, favorsFar, favorsBoth⟩ := HashOrder.exists_favors
    fun fork (away : ¬ LeadsToBoth edges a b fork) => Or.inl (b := FailsToPart edges a b fork) away
  obtain ⟨join, -, result, found, parts⟩ := separated hash
  have several := (findLowestCommonFork_paths found).1
  refine ⟨join, ?_, ⟨_, findLowestCommonFork_metFirst succeeded several found⟩, ?_⟩
  · obtain ⟨first, second, different, here, here'⟩ :=
      (one_lt_length_iff (compileParts_predecessors succeeded join).1).mp several
    exact ⟨first, second, different, (mem_predecessors succeeded join first).mp here,
      (mem_predecessors succeeded join second).mp here'⟩
  intro fork met
  by_contra unparted
  obtain ⟨near, behind⟩ := parts.leads
  have picked {kind : Nat → Prop} (favors : hash.Favors kind) (liked : kind fork) :
      kind result.forkNode := by
    obtain ⟨result', found', likes⟩ := findLowestCommonFork_favors succeeded several favors liked met
    obtain rfl := Option.some.inj (found.symm.trans found')
    exact likes
  obtain ⟨leads, leads'⟩ := not_not.mp fun away => picked favorsFar away near
  have failed := picked favorsBoth (.inr ⟨join, behind.1, behind.2, unparted⟩)
  obtain ⟨join', after, after', failed⟩ := failed.resolve_left (not_not.mpr near)
  exact unparted_exchange (compileParts_acyclic succeeded declared) failed after after' unparted
    leads leads' parts

theorem always_separates_iff {a b : Nat} (boundA : a < compiled.nodeCount)
    (boundB : b < compiled.nodeCount) :
    (∀ hash, (initializeFrom hash compiled).Separates (compiled.name a) (compiled.name b)) ↔
      AlwaysParted edges a b := by
  simp only [fun hash => separates_iff succeeded declared names hash boundA boundB]
  refine ⟨alwaysParted_of_found succeeded declared, ?_⟩
  rintro ⟨join, ⟨first, second, different, adjacent, adjacent'⟩, ⟨fork, met⟩, parts⟩ hash
  obtain ⟨several, joins⟩ := two_predecessors succeeded declared different adjacent adjacent'
  obtain ⟨result, found⟩ := Option.ne_none_iff_exists'.mp fun missed =>
    findLowestCommonFork_none succeeded several missed fork met
  exact ⟨join, joins, result, found,
    parts _ (findLowestCommonFork_metFirst succeeded several found)⟩

/-- The nodes of all diamonds are on different branches of one group, whatever the order of the
hash containers, exactly where the forks that the search may meet at some join part them.  A drop
is then pending for the other node, and nodes that share a group lie between one fork and one join. -/
theorem fork_join_covered :
    ((∀ hash a b, InDiamond edges a b →
        (initializeFrom hash compiled).Separates (compiled.name a) (compiled.name b)) ↔
      ∀ a b, InDiamond edges a b → AlwaysParted edges a b) ∧
    (∀ hash a b, (initializeFrom hash compiled).Separates a b → ∀ frame reason,
      ((initializeFrom hash compiled).reportDrop a frame reason).1.shouldDrop b frame = true) ∧
    ∀ hash a b groupId branchA branchB, a < compiled.nodeCount → b < compiled.nodeCount →
      (groupId, branchA) ∈ (initializeFrom hash compiled).nodeMultiMapping (compiled.name a) →
      (groupId, branchB) ∈ (initializeFrom hash compiled).nodeMultiMapping (compiled.name b) →
      ∃ fork join left right, Branches edges fork ∧ join ∈ compiled.joinPoints ∧
        Path edges fork left join ∧ a ∈ left ∧ Path edges fork right join ∧ b ∈ right := by
  refine ⟨?_, fun hash a b separated => ?_, ?_⟩
  · have bounds {a b : Nat} (inside : InDiamond edges a b) :
        a < compiled.nodeCount ∧ b < compiled.nodeCount := by
      obtain ⟨split, join, left, right, leftPath, rightPath, -, inLeft, inRight⟩ := inside
      exact ⟨inner_lt succeeded declared leftPath inLeft, inner_lt succeeded declared rightPath inRight⟩
    constructor
    · intro covered a b inside
      obtain ⟨boundA, boundB⟩ := bounds inside
      exact (always_separates_iff succeeded declared names boundA boundB).mp
        fun hash => covered hash a b inside
    · intro parted hash a b inside
      obtain ⟨boundA, boundB⟩ := bounds inside
      exact (always_separates_iff succeeded declared names boundA boundB).mpr (parted a b inside) hash
  · obtain ⟨groupId, branchA, branchB, apart, mappedA, mappedB⟩ := separated
    exact reportDrop_pending hash compiled mappedA mappedB apart
  · intro hash a b groupId branchA branchB boundA boundB mappedA mappedB
    obtain ⟨number, join, result, index, left, numbered, indexed, inLeft, named⟩ :=
      (mapped_iff succeeded declared names hash boundA _).mp mappedA
    obtain ⟨number', join', result', index', right, numbered', indexed', inRight, named'⟩ :=
      (mapped_iff succeeded declared names hash boundB _).mp mappedB
    obtain rfl := groupIdOf_counter
      ((Prod.mk.inj named).1.symm.trans (Prod.mk.inj named').1)
    rw [numbered] at numbered'
    obtain ⟨rfl, rfl⟩ := Prod.mk.inj (Option.some.inj numbered')
    obtain ⟨_, joins, paired⟩ := mem_filterMap.mp (mem_of_getElem? numbered)
    obtain ⟨_, found, same⟩ := Option.map_eq_some_iff.mp paired
    obtain ⟨rfl, rfl⟩ := Prod.mk.inj same
    have met := findLowestCommonFork_metFirst succeeded (findLowestCommonFork_paths found).1 found
    exact ⟨_, _, left, right, met.forkOf.branches, joins,
      (mem_findAllPaths succeeded declared).mp (mem_of_getElem? indexed), inLeft,
      (mem_findAllPaths succeeded declared).mp (mem_of_getElem? indexed'), inRight⟩

end Compiled

theorem deepGraph_adjacent {source dest : Nat} : Adjacent deepGraph.edges source dest ↔
    source = 0 ∧ dest = 1 ∨ source = 0 ∧ dest = 2 ∨ source = 1 ∧ dest = 3 ∨
      source = 2 ∧ dest = 4 ∨ source = 3 ∧ dest = 5 ∨ source = 4 ∧ dest = 5 := by
  simp [Adjacent, deepGraph, eq_comm]

theorem deepGraph_branches {fork : Nat} (branches : Branches deepGraph.edges fork) : fork = 0 := by
  obtain ⟨first, second, different, adjacent, adjacent'⟩ := branches
  rw [deepGraph_adjacent] at adjacent adjacent'
  omega

theorem deepGraph_metFirst : ∃ fork, MetFirst deepGraph.edges 5 fork := by
  have branches : Branches deepGraph.edges 0 := ⟨1, 2, by decide, by simp [deepGraph_adjacent]⟩
  have within : ForkWithin deepGraph.edges 5 2 0 := by
    refine ⟨branches, fun pred adjacent => ?_⟩
    obtain rfl | rfl : pred = 3 ∨ pred = 4 := by
      have listed := deepGraph_adjacent.mp adjacent
      omega
    · have first : Adjacent deepGraph.edges 0 1 := by simp [deepGraph_adjacent]
      exact .step first (.step (by simp [deepGraph_adjacent]) (.refl _ _))
    · have first : Adjacent deepGraph.edges 0 2 := by simp [deepGraph_adjacent]
      exact .step first (.step (by simp [deepGraph_adjacent]) (.refl _ _))
  exact exists_metFirst (by decide) within

/-- The two branches of a diamond leave the only fork and enter the only join. -/
theorem deepGraph_alwaysParted {a b : Nat} (inside : InDiamond deepGraph.edges a b) :
    AlwaysParted deepGraph.edges a b := by
  obtain ⟨split, join, left, right, leftPath, rightPath, disjoint, inLeft, inRight⟩ := inside
  obtain ⟨first, left', rfl⟩ := exists_cons_of_ne_nil (ne_nil_of_mem inLeft)
  obtain ⟨second, right', rfl⟩ := exists_cons_of_ne_nil (ne_nil_of_mem inRight)
  have apart : first ≠ second := by
    rintro rfl
    exact disjoint mem_cons_self mem_cons_self
  obtain rfl : split = 0 := deepGraph_branches
    ⟨first, second, apart, (isChain_cons_cons.mp leftPath).1, (isChain_cons_cons.mp rightPath).1⟩
  have ends {inner : List Nat} {node : Nat} (path : Path deepGraph.edges 0 (node :: inner) join) :
      ∃ last ∈ node :: inner, Adjacent deepGraph.edges last join := by
    rw [← dropLast_append_getLast (cons_ne_nil node inner), path_append] at path
    exact ⟨_, getLast_mem _, (isChain_cons_cons.mp path.2).1⟩
  obtain ⟨last, inFirst, adjacent⟩ := ends leftPath
  obtain ⟨last', inSecond, adjacent'⟩ := ends rightPath
  have apart' : last ≠ last' := by
    rintro rfl
    exact disjoint inFirst inSecond
  obtain rfl : join = 5 := by
    have entered := deepGraph_adjacent.mp adjacent
    have entered' := deepGraph_adjacent.mp adjacent'
    omega
  refine ⟨5, ⟨last, last', apart', adjacent, adjacent'⟩, deepGraph_metFirst, fun fork met => ?_⟩
  obtain rfl := deepGraph_branches met.forkOf.branches
  refine ⟨_, _, ?_, leftPath, inLeft, rightPath, inRight⟩
  rintro same
  exact disjoint inLeft (same ▸ inLeft)

theorem fork_join_covered_deep : ∃ compiled, compile deepGraph = .ok compiled ∧
    InDiamond deepGraph.edges 1 4 ∧ ∀ hash,
      (initializeFrom hash compiled).Separates (compiled.name 1) (compiled.name 4) ∧
        ∀ frame reason, ((initializeFrom hash compiled).reportDrop (compiled.name 1) frame
          reason).1.shouldDrop (compiled.name 4) frame = true := by
  obtain ⟨compiled, succeeded, -⟩ := deepGraph.compiled_of (fun _ => True) (by decide +kernel)
  have inside : InDiamond deepGraph.edges 1 4 :=
    ⟨0, 5, [1, 3], [2, 4], by simp [Path, deepGraph_adjacent], by simp [Path, deepGraph_adjacent],
      by simp, by simp, by simp⟩
  obtain ⟨covered, pending, -⟩ :=
    fork_join_covered succeeded deepGraph.edgesDeclared deepGraph.namesNodup
  have separated (hash : HashOrder) := covered.mpr (fun _ _ => deepGraph_alwaysParted) hash 1 4 inside
  exact ⟨compiled, succeeded, inside, fun hash =>
    ⟨separated hash, pending hash _ _ (separated hash)⟩⟩

def threeInputGraph : Graph where
  nodes := [⟨"A", [], ["out"]⟩, ⟨"B", ["in"], ["out"]⟩, ⟨"C", ["in"], ["out"]⟩,
    ⟨"X", [], ["out"]⟩, ⟨"D", ["left", "right", "extra"], []⟩]
  edges := [⟨0, "out", 1, "in"⟩, ⟨0, "out", 2, "in"⟩, ⟨1, "out", 4, "left"⟩,
    ⟨2, "out", 4, "right"⟩, ⟨3, "out", 4, "extra"⟩]
  namesNodup := by decide
  portsNodup := by decide
  edgesNodup := by decide
  edgesDeclared := by simp [Edge.declared]

/-- `B` and `C` run from one fork to one join; the input from `X` keeps them apart. -/
theorem third_input_uncovers : ∃ compiled, compile threeInputGraph = .ok compiled ∧
    Path threeInputGraph.edges 0 [1] 4 ∧ Path threeInputGraph.edges 0 [2] 4 ∧
    (initializeFrom .insertion compiled).nodeMultiMapping (compiled.name 1) = [] ∧
    (initializeFrom .insertion compiled).nodeMultiMapping (compiled.name 2) = [] ∧
    ((initializeFrom .insertion compiled).reportDrop (compiled.name 1) 7 "late").1.shouldDrop
      (compiled.name 2) 7 = false := by
  refine (threeInputGraph.compiled_of _ (by decide +kernel)).imp fun compiled facts =>
    ⟨facts.1, ?_, ?_, facts.2⟩
  · simp [Path, Adjacent, threeInputGraph]
  · simp [Path, Adjacent, threeInputGraph]

end AiPipe
