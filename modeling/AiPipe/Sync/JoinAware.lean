import AiPipe.Graph
import AiPipe.Sync.Coordinator

/-!
The join-aware sync strategy: the paths between a join and its fork become the branches of a
sync group.  `HashOrder` is the order in which a hash container lists what was inserted, any
permutation whatever.
-/

namespace AiPipe

structure HashOrder where
  order : List Nat → List Nat
  perm : ∀ inserted, (order inserted).Perm inserted

def HashOrder.insertion : HashOrder := ⟨id, fun _ => .refl _⟩

/-- The arguments that `findAllPathsDFS` takes by reference. -/
structure PathSearch where
  currentPath : List Nat := []
  visited : List Nat := []
  allPaths : List (List Nat) := []

namespace CompiledGraph

/-- The path never meets a node twice, so the number of nodes bounds the depth. -/
def findAllPathsDFS (graph : CompiledGraph) (dest : Nat) : Nat → Nat → PathSearch → PathSearch
  | 0, _, search => search
  | depth + 1, current, search =>
    let entered := { search with
      visited := search.visited.insert current
      currentPath := search.currentPath ++ [current] }
    let searched :=
      if current = dest then
        if 2 ≤ entered.currentPath.length then
          { entered with
            allPaths := entered.allPaths ++ [(entered.currentPath.drop 1).dropLast] }
        else entered
      else (graph.successors current).foldl (fun search neighbor =>
        if neighbor ∈ search.visited then search
        else findAllPathsDFS graph dest depth neighbor search) entered
    { searched with
      currentPath := searched.currentPath.dropLast
      visited := searched.visited.erase current }

def findAllPaths (graph : CompiledGraph) (source dest : Nat) : List (List Nat) :=
  (findAllPathsDFS graph dest (graph.nodeCount + 1) source {}).allPaths

def isFork (graph : CompiledGraph) (index : Nat) : Bool := 1 < (graph.successors index).length

structure BackwardSearch where
  reached : List Nat
  queue : List Nat

def BackwardSearch.expand (graph : CompiledGraph) (search : BackwardSearch) : BackwardSearch :=
  search.queue.foldl (fun search current =>
    (graph.predecessors current).foldl (fun search pred =>
      if pred ∈ search.reached then search
      else { reached := search.reached ++ [pred], queue := search.queue ++ [pred] }) search)
    { search with queue := [] }

def commonFork (graph : CompiledGraph) (hash : HashOrder) : List BackwardSearch → Option Nat
  | [] => none
  | first :: rest => (hash.order first.reached).find? fun candidate =>
    rest.all (fun search => candidate ∈ search.reached) && graph.isFork candidate

def searchFork (graph : CompiledGraph) (hash : HashOrder) : Nat → List BackwardSearch → Option Nat
  | 0, _ => none
  | iterations + 1, searches =>
    match graph.commonFork hash searches with
    | some fork => some fork
    | none =>
      if searches.all fun search => search.queue.isEmpty then none
      else searchFork graph hash iterations (searches.map (BackwardSearch.expand graph))

structure ForkSearchResult where
  forkNode : Nat
  paths : List (List Nat)
  deriving DecidableEq, Repr

/-- `none` is a result that is not `valid`. -/
def findLowestCommonFork (graph : CompiledGraph) (hash : HashOrder) (joinIndex : Nat) :
    Option ForkSearchResult :=
  let predecessors := graph.predecessors joinIndex
  if predecessors.length < 2 then none
  else
    let grandparents := predecessors.flatMap graph.predecessors
    let parents := grandparents.foldl (fun parents parent => pushUnique parent parents) []
    let simple := (hash.order parents).find? fun parent =>
      grandparents.count parent == predecessors.length && graph.isFork parent
    let fork := match simple with
      | some parent => some parent
      | none => graph.searchFork hash 1000
          (predecessors.map fun pred => { reached := [pred], queue := [pred] })
    fork.map fun fork => { forkNode := fork, paths := graph.findAllPaths fork joinIndex }

def joinPoints (graph : CompiledGraph) : List Nat :=
  (List.range graph.nodeCount).filter fun index => 1 < graph.inDegree index

end CompiledGraph

structure JoinAwareSyncStrategy where
  coordinator : SyncCoordinator := {}
  /-- `m_nodeMultiMapping`, empty for a node that it has no entry for. -/
  nodeMultiMapping : String → List (String × String) := fun _ => []

namespace JoinAwareSyncStrategy

def addNodeMapping (strategy : JoinAwareSyncStrategy) (nodeName groupId branchId : String) :
    JoinAwareSyncStrategy :=
  { strategy with
    nodeMultiMapping := Function.update strategy.nodeMultiMapping nodeName
      (strategy.nodeMultiMapping nodeName ++ [(groupId, branchId)]) }

def groupIdOf (counter : Nat) (forkName joinName : String) : String :=
  "sync_group_" ++ toString counter ++ "_" ++ forkName ++ "_to_" ++ joinName

def branchIdOf (counter : Nat) : String := "branch_" ++ toString counter

def mapPaths (graph : CompiledGraph) (groupId : String) (strategy : JoinAwareSyncStrategy)
    (paths : List (List Nat)) : JoinAwareSyncStrategy :=
  paths.zipIdx.foldl (fun strategy path => path.1.foldl (fun strategy node =>
    strategy.addNodeMapping (graph.name node) groupId (branchIdOf path.2)) strategy) strategy

/-- The group counter moves on only behind a join that has a fork. -/
def addJoin (graph : CompiledGraph) (hash : HashOrder) (work : Nat × JoinAwareSyncStrategy)
    (joinIndex : Nat) : Nat × JoinAwareSyncStrategy :=
  match graph.findLowestCommonFork hash joinIndex with
  | none => work
  | some result =>
    let groupId := groupIdOf work.1 (graph.name result.forkNode) (graph.name joinIndex)
    let mapped := mapPaths graph groupId work.2 result.paths
    let branchIds := (List.range result.paths.length).map branchIdOf
    (work.1 + 1,
      if branchIds.isEmpty then mapped
      else { mapped with coordinator := mapped.coordinator.createSyncGroup groupId branchIds })

def initializeFrom (hash : HashOrder) (graph : CompiledGraph) : JoinAwareSyncStrategy :=
  (graph.joinPoints.foldl (addJoin graph hash) (0, {})).2

def registerSyncGroup (strategy : JoinAwareSyncStrategy) (groupId : String)
    (branchIds : List String) : JoinAwareSyncStrategy :=
  { strategy with coordinator := strategy.coordinator.createSyncGroup groupId branchIds }

def mapNodeToGroup (strategy : JoinAwareSyncStrategy) (nodeName groupId branchId : String) :
    JoinAwareSyncStrategy :=
  strategy.addNodeMapping nodeName groupId branchId

def reportEntry (frame : Nat) (reason : String) (work : JoinAwareSyncStrategy × List String)
    (entry : String × String) : JoinAwareSyncStrategy × List String :=
  let coordinator := work.1.coordinator.reportDrop entry.1 entry.2 frame reason
  let affected := match coordinator.getSyncGroup entry.1 with
    | none => work.2
    | some group => group.branchIds.foldl (fun affected branchId =>
      if branchId ≠ entry.2 ∧ branchId ∉ affected then affected ++ [branchId] else affected)
      work.2
  ({ work.1 with coordinator := coordinator }, affected)

/-- The strategy after the report, and the branches that the caller is told of. -/
def reportDrop (strategy : JoinAwareSyncStrategy) (nodeName : String) (frame : Nat)
    (reason : String) : JoinAwareSyncStrategy × List String :=
  (strategy.nodeMultiMapping nodeName).foldl (reportEntry frame reason) (strategy, [])

def shouldDrop (strategy : JoinAwareSyncStrategy) (nodeName : String) (frame : Nat) : Bool :=
  (strategy.nodeMultiMapping nodeName).any fun entry =>
    frame ∈ strategy.coordinator.getPendingSyncDrops entry.1 entry.2

def markProcessed (strategy : JoinAwareSyncStrategy) (nodeName : String) (frame : Nat) :
    JoinAwareSyncStrategy :=
  { strategy with
    coordinator := (strategy.nodeMultiMapping nodeName).foldl (fun coordinator entry =>
      coordinator.reportFrameProcessed entry.1 entry.2 frame) strategy.coordinator }

def getWatermark (strategy : JoinAwareSyncStrategy) (groupId : String) : Nat :=
  match strategy.coordinator.getSyncGroup groupId with
  | none => 0
  | some group => group.watermark

def reset (strategy : JoinAwareSyncStrategy) : JoinAwareSyncStrategy :=
  { strategy with coordinator := strategy.coordinator.reset }

def tracksNode (strategy : JoinAwareSyncStrategy) (nodeName : String) : Bool :=
  !(strategy.nodeMultiMapping nodeName).isEmpty

end JoinAwareSyncStrategy

end AiPipe
