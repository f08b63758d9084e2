import AiPipe.Sync.Affected
import AiPipe.Sync.Reset
import AiPipe.Sync.Watermark

/-!
`clone()` of the strategy, on a heap of coordinators.  The clone gets the mappings and an empty
coordinator of its own, so it has none of the groups that its nodes are mapped to.
-/

namespace AiPipe

open List SyncGroup

namespace JoinAwareSyncStrategy

inductive SetupCall where
  | initializeFrom (hash : HashOrder) (graph : CompiledGraph)
  | registerSyncGroup (groupId : String) (branchIds : List String)
  | mapNodeToGroup (nodeName groupId branchId : String)

def setUp (strategy : JoinAwareSyncStrategy) : SetupCall → JoinAwareSyncStrategy
  | .initializeFrom hash graph => .initializeFrom hash graph
  | .registerSyncGroup groupId branchIds => strategy.registerSyncGroup groupId branchIds
  | .mapNodeToGroup nodeName groupId branchId => strategy.mapNodeToGroup nodeName groupId branchId

inductive Query where
  | tracksNode (nodeName : String)
  | request (request : SyncRequest)
  deriving DecidableEq, Repr

def ask (strategy : JoinAwareSyncStrategy) : Query → JoinAwareSyncStrategy × SyncAnswer
  | .tracksNode nodeName => (strategy, .flag (strategy.tracksNode nodeName))
  | .request request => strategy.serve request

def replies : JoinAwareSyncStrategy → List Query → List SyncAnswer
  | _, [] => []
  | strategy, query :: rest => (strategy.ask query).2 :: (strategy.ask query).1.replies rest

end JoinAwareSyncStrategy

open JoinAwareSyncStrategy

/-- A strategy as it lies in memory; the coordinator is behind `m_coordinator`. -/
structure StrategyObject where
  coordinator : Nat
  nodeMultiMapping : String → List (String × String) := fun _ => []

abbrev CoordinatorHeap := List SyncCoordinator

namespace StrategyObject

def load (object : StrategyObject) (heap : CoordinatorHeap) : JoinAwareSyncStrategy where
  coordinator := heap.getD object.coordinator {}
  nodeMultiMapping := object.nodeMultiMapping

def store (object : StrategyObject) (heap : CoordinatorHeap) (strategy : JoinAwareSyncStrategy) :
    StrategyObject × CoordinatorHeap :=
  ({ object with nodeMultiMapping := strategy.nodeMultiMapping },
    heap.set object.coordinator strategy.coordinator)

def create (heap : CoordinatorHeap) : StrategyObject × CoordinatorHeap :=
  ({ coordinator := heap.length }, heap ++ [({} : SyncCoordinator)])

def clone (object : StrategyObject) (heap : CoordinatorHeap) : StrategyObject × CoordinatorHeap :=
  let cloned := create heap
  ({ cloned.1 with nodeMultiMapping := object.nodeMultiMapping }, cloned.2)

end StrategyObject

inductive Side where
  | original
  | cloned
  deriving DecidableEq, Repr

structure StrategyPair where
  heap : CoordinatorHeap
  object : Side → StrategyObject
  inside : ∀ side, (object side).coordinator < heap.length
  apart : (object .original).coordinator ≠ (object .cloned).coordinator

namespace StrategyPair

variable (pair : StrategyPair)

def load (side : Side) : JoinAwareSyncStrategy := (pair.object side).load pair.heap

theorem apart_of_ne {side other : Side} (different : side ≠ other) :
    (pair.object side).coordinator ≠ (pair.object other).coordinator := by
  cases side <;> cases other
  · exact absurd rfl different
  · exact pair.apart
  · exact pair.apart.symm
  · exact absurd rfl different

def store (side : Side) (strategy : JoinAwareSyncStrategy) : StrategyPair where
  heap := ((pair.object side).store pair.heap strategy).2
  object := Function.update pair.object side ((pair.object side).store pair.heap strategy).1
  inside other := by
    by_cases same : other = side
    · subst same
      simpa [StrategyObject.store] using pair.inside other
    · simpa [StrategyObject.store, same] using pair.inside other
  apart := by
    cases side <;> simpa [StrategyObject.store] using pair.apart

theorem load_store (side : Side) (strategy : JoinAwareSyncStrategy) :
    (pair.store side strategy).load side = strategy := by
  simp [load, store, StrategyObject.load, StrategyObject.store, pair.inside side]

theorem load_store_of_ne {side other : Side} (different : other ≠ side)
    (strategy : JoinAwareSyncStrategy) : (pair.store side strategy).load other = pair.load other := by
  have apart := pair.apart_of_ne different.symm
  simp [load, store, StrategyObject.load, StrategyObject.store, different, getElem?_set_ne apart]

def ask (side : Side) (query : Query) : StrategyPair × SyncAnswer :=
  let asked := (pair.load side).ask query
  (pair.store side asked.1, asked.2)

def replies : StrategyPair → List (Side × Query) → List (Side × SyncAnswer)
  | _, [] => []
  | pair, (side, query) :: rest =>
    (side, (pair.ask side query).2) :: (pair.ask side query).1.replies rest

end StrategyPair

def heard {α : Type} (side : Side) (talk : List (Side × α)) : List α :=
  (talk.filter fun entry => entry.1 = side).map Prod.snd

theorem StrategyPair.heard_replies (pair : StrategyPair) (side : Side) (talk : List (Side × Query)) :
    heard side (pair.replies talk) = (pair.load side).replies (heard side talk) := by
  induction talk generalizing pair with
  | nil => rfl
  | cons first rest ih =>
    obtain ⟨speaker, query⟩ := first
    by_cases own : speaker = side
    · subst own
      have next : (pair.ask speaker query).1.load speaker = ((pair.load speaker).ask query).1 :=
        pair.load_store speaker _
      have later := ih (pair.ask speaker query).1
      rw [next] at later
      simp only [heard, StrategyPair.replies, decide_true, filter_cons_of_pos, map_cons,
        JoinAwareSyncStrategy.replies] at later ⊢
      rw [later]
      rfl
    · have next : (pair.ask speaker query).1.load side = pair.load side :=
        pair.load_store_of_ne (Ne.symm own) _
      have later := ih (pair.ask speaker query).1
      rw [next] at later
      simpa [heard, StrategyPair.replies, own] using later

namespace StrategyObject

def configure (created : StrategyObject × CoordinatorHeap) (calls : List SetupCall) :
    StrategyObject × CoordinatorHeap :=
  calls.foldl (fun object call => object.1.store object.2 ((object.1.load object.2).setUp call))
    created

theorem configure_load {created : StrategyObject × CoordinatorHeap} (calls : List SetupCall)
    (inside : created.1.coordinator < created.2.length) :
    (configure created calls).1.coordinator = created.1.coordinator ∧
      (configure created calls).2.length = created.2.length ∧
      (configure created calls).1.load (configure created calls).2 =
        calls.foldl setUp (created.1.load created.2) := by
  induction calls generalizing created with
  | nil => exact ⟨rfl, rfl, rfl⟩
  | cons call calls ih =>
    have stored : created.2.length =
        (created.1.store created.2 ((created.1.load created.2).setUp call)).2.length := by
      simp [store]
    have loaded : (created.1.store created.2 ((created.1.load created.2).setUp call)).1.load
        (created.1.store created.2 ((created.1.load created.2).setUp call)).2 =
          (created.1.load created.2).setUp call := by
      simp [load, store, inside]
    rw [foldl_cons, ← loaded, stored]
    exact ih (stored ▸ inside)

def configured (heap : CoordinatorHeap) (calls : List SetupCall) : StrategyObject × CoordinatorHeap :=
  configure (create heap) calls

theorem configured_load (heap : CoordinatorHeap) (calls : List SetupCall) :
    (configured heap calls).1.coordinator < (configured heap calls).2.length ∧
      (configured heap calls).1.load (configured heap calls).2 = calls.foldl setUp {} := by
  have inside : (create heap).1.coordinator < (create heap).2.length := by simp [create]
  have fresh : (create heap).1.load (create heap).2 = {} := by simp [create, load]
  obtain ⟨pointer, length, loaded⟩ := configure_load calls inside
  exact ⟨by unfold configured; omega, fresh ▸ loaded⟩

theorem load_clone {object : StrategyObject} {heap : CoordinatorHeap}
    (inside : object.coordinator < heap.length) :
    object.load (object.clone heap).2 = object.load heap := by
  simp [load, clone, create, getElem?_append_left inside]

end StrategyObject

def StrategyPair.cloneAfter (heap : CoordinatorHeap) (calls : List SetupCall) : StrategyPair where
  heap := ((StrategyObject.configured heap calls).1.clone
    (StrategyObject.configured heap calls).2).2
  object
    | .original => (StrategyObject.configured heap calls).1
    | .cloned => ((StrategyObject.configured heap calls).1.clone
        (StrategyObject.configured heap calls).2).1
  inside side := by
    have inside := (StrategyObject.configured_load heap calls).1
    cases side
    · simp only [StrategyObject.clone, StrategyObject.create, List.length_append]
      omega
    · simp [StrategyObject.clone, StrategyObject.create]
  apart := (StrategyObject.configured_load heap calls).1.ne

section Cloned

variable (heap : CoordinatorHeap) (calls : List SetupCall)

theorem cloneAfter_original :
    (StrategyPair.cloneAfter heap calls).load .original = calls.foldl setUp {} := by
  obtain ⟨inside, loaded⟩ := StrategyObject.configured_load heap calls
  exact (StrategyObject.load_clone inside).trans loaded

theorem cloneAfter_cloned : (StrategyPair.cloneAfter heap calls).load .cloned =
    { nodeMultiMapping := (calls.foldl setUp {}).nodeMultiMapping } := by
  rw [← (StrategyObject.configured_load heap calls).2]
  simp [StrategyPair.load, StrategyPair.cloneAfter, StrategyObject.load, StrategyObject.clone,
    StrategyObject.create]

end Cloned

theorem SyncCoordinator.getSyncGroup_foldl_updateGroup {coordinator : SyncCoordinator}
    {entries : List (String × String)} (change : String × String → SyncGroup → SyncGroup)
    (keeps : ∀ entry group, (change entry group).groupId = group.groupId)
    (idle : ∀ entry ∈ entries, ∀ group, coordinator.getSyncGroup entry.1 = some group →
      change entry group = group) (groupId : String) :
    (entries.foldl (fun coordinator entry => coordinator.updateGroup entry.1 (change entry))
      coordinator).getSyncGroup groupId = coordinator.getSyncGroup groupId := by
  induction entries generalizing coordinator with
  | nil => rfl
  | cons entry rest ih =>
    obtain ⟨here, later⟩ := forall_mem_cons.mp idle
    have same (groupId : String) :
        (coordinator.updateGroup entry.1 (change entry)).getSyncGroup groupId =
          coordinator.getSyncGroup groupId := by
      rw [getSyncGroup_updateGroup _ _ _ _ (keeps entry)]
      cases found : coordinator.getSyncGroup groupId with
      | none => rfl
      | some group =>
        by_cases own : entry.1 = groupId
        · subst own
          simp [here group found]
        · simp [own]
    rw [foldl_cons, ih (fun entry listed group found => later entry listed group
      (same _ ▸ found)), same]

theorem SyncGroup.findBranch_of_empty {group : SyncGroup} (empty : group.branches = [])
    (branchId : String) : group.findBranch branchId = none := by
  simp [findBranch, empty]

namespace JoinAwareSyncStrategy

/-- No node is mapped to a group that exists and has a branch. -/
def Unjoined (strategy : JoinAwareSyncStrategy) : Prop :=
  ∀ nodeName, ∀ entry ∈ strategy.nodeMultiMapping nodeName, ∀ group,
    strategy.coordinator.getSyncGroup entry.1 = some group → group.branches = []

/-- Nothing has been reported, and nothing that is reported has an effect. -/
structure Idle (strategy : JoinAwareSyncStrategy) : Prop where
  silent : ∀ groupId group, strategy.coordinator.getSyncGroup groupId = some group →
    group.watermark = 0 ∧ ∀ branch ∈ group.branches, branch.pendingSyncDrops = []
  unjoined : strategy.Unjoined

def idleAnswer (mapping : String → List (String × String)) : Query → SyncAnswer
  | .tracksNode nodeName => .flag (!(mapping nodeName).isEmpty)
  | .request (.reportDrop _ _ _) => .branches []
  | .request (.shouldDrop _ _) => .flag false
  | .request (.markProcessed _ _) => .done
  | .request (.getWatermark _) => .frame 0

variable {strategy : JoinAwareSyncStrategy}

theorem Idle.congr (idle : strategy.Idle) {other : JoinAwareSyncStrategy}
    (mapping : other.nodeMultiMapping = strategy.nodeMultiMapping)
    (groups : ∀ groupId,
      other.coordinator.getSyncGroup groupId = strategy.coordinator.getSyncGroup groupId) :
    other.Idle := by
  constructor
  · intro groupId group found
    exact idle.silent groupId group (groups groupId ▸ found)
  · intro nodeName entry mapped group found
    rw [mapping] at mapped
    exact idle.unjoined nodeName entry mapped group (groups entry.1 ▸ found)

theorem idle_without_groups (mapping : String → List (String × String)) :
    ({ nodeMultiMapping := mapping } : JoinAwareSyncStrategy).Idle :=
  ⟨fun _ _ found => absurd found.symm (Option.some_ne_none _),
    fun _ _ _ _ found => absurd found.symm (Option.some_ne_none _)⟩

section

variable (idle : strategy.Idle)
include idle

variable (nodeName : String) (frame : Nat)

theorem Idle.reportDrop (reason : String) :
    (strategy.reportDrop nodeName frame reason).1.Idle ∧
      (strategy.reportDrop nodeName frame reason).2 = [] := by
  constructor
  · rw [reportDrop_strategy]
    refine idle.congr rfl fun groupId => ?_
    refine SyncCoordinator.getSyncGroup_foldl_updateGroup
      (fun entry group => (group.reportFrameDropped entry.2 frame reason).1)
      (fun entry group => group.reportFrameDropped_groupId ..) (fun entry mapped group found => ?_) _
    simp [reportFrameDropped, findBranch_of_empty (idle.unjoined nodeName entry mapped group found)]
  · refine eq_nil_iff_forall_not_mem.mpr fun branchId named => ?_
    obtain ⟨groupId, origin, mapped, group, found, listed, -⟩ := mem_reportDrop.mp named
    rw [branchIds, idle.unjoined nodeName _ mapped group found] at listed
    exact not_mem_nil listed

theorem Idle.markProcessed : (strategy.markProcessed nodeName frame).Idle := by
  refine idle.congr rfl fun groupId => ?_
  refine SyncCoordinator.getSyncGroup_foldl_updateGroup
    (fun entry group => group.reportFrameProcessed entry.2 frame)
    (fun entry group => group.reportFrameProcessed_groupId ..) (fun entry mapped group found => ?_) _
  simp [reportFrameProcessed, findBranch_of_empty (idle.unjoined nodeName entry mapped group found)]

theorem Idle.shouldDrop : strategy.shouldDrop nodeName frame = false := by
  refine any_eq_false.mpr fun entry mapped => ?_
  unfold SyncCoordinator.getPendingSyncDrops
  cases found : strategy.coordinator.getSyncGroup entry.1 with
  | none => simp
  | some group =>
    simp [getPendingSyncDrops,
      findBranch_of_empty (idle.unjoined nodeName entry mapped group found)]

theorem Idle.getWatermark (groupId : String) : strategy.getWatermark groupId = 0 := by
  unfold JoinAwareSyncStrategy.getWatermark
  cases found : strategy.coordinator.getSyncGroup groupId with
  | none => rfl
  | some group => exact (idle.silent groupId group found).1

theorem Idle.ask (query : Query) :
    (strategy.ask query).1.Idle ∧
      (strategy.ask query).1.nodeMultiMapping = strategy.nodeMultiMapping ∧
      (strategy.ask query).2 = idleAnswer strategy.nodeMultiMapping query := by
  rcases query with nodeName | ⟨nodeName, frame, reason⟩ | ⟨nodeName, frame⟩ |
    ⟨nodeName, frame⟩ | groupId
  · exact ⟨idle, rfl, rfl⟩
  · obtain ⟨still, none⟩ := idle.reportDrop nodeName frame reason
    exact ⟨still, by simp only [JoinAwareSyncStrategy.ask, serve, reportDrop_strategy],
      congrArg SyncAnswer.branches none⟩
  · exact ⟨idle, rfl, congrArg SyncAnswer.flag (idle.shouldDrop nodeName frame)⟩
  · exact ⟨idle.markProcessed nodeName frame, rfl, rfl⟩
  · exact ⟨idle, rfl, congrArg SyncAnswer.frame (idle.getWatermark groupId)⟩

theorem Idle.replies (queries : List Query) :
    strategy.replies queries = queries.map (idleAnswer strategy.nodeMultiMapping) := by
  induction queries generalizing strategy with
  | nil => rfl
  | cons query rest ih =>
    obtain ⟨still, mapping, answer⟩ := idle.ask query
    rw [JoinAwareSyncStrategy.replies, ih still, mapping, answer, map_cons]

end

theorem created_setUp {calls : List SetupCall} {group : SyncGroup}
    (listed : group ∈ (calls.foldl setUp {}).coordinator.groups) : group.Created := by
  suffices walk : ∀ start : JoinAwareSyncStrategy,
      (∀ group ∈ start.coordinator.groups, group.Created) →
        ∀ group ∈ (calls.foldl setUp start).coordinator.groups, group.Created from
    walk {} (forall_mem_nil _) group listed
  clear listed
  induction calls with
  | nil => exact fun _ created => created
  | cons call calls ih =>
    intro start created
    refine ih _ fun group there => ?_
    cases call with
    | initializeFrom hash graph => exact created_initializeFrom there
    | registerSyncGroup groupId branchIds =>
      exact (mem_createSyncGroup there).elim (created group) id
    | mapNodeToGroup nodeName groupId branchId => exact created group there

end JoinAwareSyncStrategy

namespace SyncGroup

variable {group : SyncGroup}

theorem lowestProgress_level {branches : List BranchState} {frame lowest : Nat}
    (some : frame ≠ kInvalidFrameId) (bounded : frame < kEndOfStreamFrameId)
    (level : ∀ branch ∈ branches, branch.active = true ∧ branch.effectiveProcessed = frame)
    (start : lowest = frame ∨ lowest = kEndOfStreamFrameId ∧ branches ≠ []) :
    lowestProgress branches lowest = frame := by
  induction branches generalizing lowest with
  | nil => exact start.resolve_right fun impossible => impossible.2 rfl
  | cons branch rest ih =>
    obtain ⟨here, later⟩ := forall_mem_cons.mp level
    rw [lowestProgress, foldl_cons, ← lowestProgress]
    refine ih later (.inl ?_)
    rcases start with rfl | ⟨rfl, -⟩
    · simp [here]
    · simp [here, some]

theorem Created.reportFrameProcessed (created : group.Created) (present : group.branches ≠ [])
    {origin : String} (own : ∀ branch ∈ group.branches, branch.branchId = origin) :
    (group.reportFrameProcessed origin 1).watermark = 1 := by
  obtain ⟨first, listed⟩ := exists_mem_of_ne_nil _ present
  have known : (group.findBranch origin).isNone = false := by
    have there : origin ∈ group.branchIds := own first listed ▸ mem_map_of_mem listed
    simpa [Option.isSome_iff_ne_none] using mem_branchIds.mp there
  have level : ∀ branch ∈ (group.updateBranch origin (BranchState.advance 1)).branches,
      branch.active = true ∧ branch.effectiveProcessed = 1 := by
    intro branch moved
    obtain ⟨earlier, there, rfl⟩ := mem_map.mp moved
    rw [if_pos (own earlier there), created.branches earlier there]
    exact ⟨rfl, rfl⟩
  have found : lowestProgress (group.updateBranch origin (BranchState.advance 1)).branches
      kEndOfStreamFrameId = 1 :=
    lowestProgress_level (by decide) (by decide) level
      (.inr ⟨rfl, by simpa [updateBranch] using present⟩)
  have rises : (group.updateBranch origin (BranchState.advance 1)).watermark < 1 := by
    change group.watermark < 1
    rw [created.watermark]
    decide
  unfold SyncGroup.reportFrameProcessed updateWatermarkLocked
  rw [known, if_neg Bool.false_ne_true]
  unfold lowestProgress at found
  dsimp only
  rw [found, if_pos ⟨by decide, rises⟩]

end SyncGroup

namespace SyncCoordinator

variable {coordinator : SyncCoordinator} {entries : List (String × String)}

theorem getSyncGroup_reportFrameProcessed (coordinator : SyncCoordinator)
    (entry : String × String) (frame : Nat) (groupId : String) :
    (coordinator.reportFrameProcessed entry.1 entry.2 frame).getSyncGroup groupId =
      (coordinator.getSyncGroup groupId).map fun group =>
        if entry.1 = groupId then group.reportFrameProcessed entry.2 frame else group :=
  coordinator.getSyncGroup_updateGroup _ _ _ fun group => group.reportFrameProcessed_groupId ..

theorem watermark_foldl (entries : List (String × String)) {groupId : String} {group : SyncGroup}
    (found : coordinator.getSyncGroup groupId = some group) : ∃ later,
      (entries.foldl (fun coordinator entry => coordinator.reportFrameProcessed entry.1 entry.2 1)
        coordinator).getSyncGroup groupId = some later ∧ group.watermark ≤ later.watermark := by
  induction entries generalizing coordinator group with
  | nil => exact ⟨group, found, le_rfl⟩
  | cons entry rest ih =>
    have next := coordinator.getSyncGroup_reportFrameProcessed entry 1 groupId
    rw [found] at next
    obtain ⟨later, there, higher⟩ := ih next
    refine ⟨later, there, le_trans ?_ higher⟩
    split
    · exact group.watermark_after (.reportFrameProcessed entry.2 1)
    · exact le_rfl

theorem progress_shows
    (created : ∀ groupId group, coordinator.getSyncGroup groupId = some group → group.Created)
    (own : ∀ entry ∈ entries, ∀ group, coordinator.getSyncGroup entry.1 = some group →
      ∀ branch ∈ group.branches, branch.branchId = entry.2)
    (joined : ∃ entry ∈ entries, ∃ group, coordinator.getSyncGroup entry.1 = some group ∧
      group.branches ≠ []) :
    ∃ groupId group, (entries.foldl (fun coordinator entry =>
      coordinator.reportFrameProcessed entry.1 entry.2 1) coordinator).getSyncGroup groupId =
        some group ∧ group.watermark ≠ 0 := by
  induction entries generalizing coordinator with
  | nil => simp at joined
  | cons entry rest ih =>
    obtain ⟨ownHere, ownLater⟩ := List.forall_mem_cons.mp own
    rw [List.foldl_cons]
    by_cases here : ∃ group, coordinator.getSyncGroup entry.1 = some group ∧ group.branches ≠ []
    · obtain ⟨group, found, present⟩ := here
      have next := coordinator.getSyncGroup_reportFrameProcessed entry 1 entry.1
      rw [found, Option.map_some, if_pos rfl] at next
      obtain ⟨later, there, higher⟩ := watermark_foldl rest next
      have moved := (created _ _ found).reportFrameProcessed present (ownHere group found)
      exact ⟨entry.1, later, there, by omega⟩
    · -- the group is missing or has no branch, and nothing has moved
      have same (groupId : String) :
          (coordinator.reportFrameProcessed entry.1 entry.2 1).getSyncGroup groupId =
            coordinator.getSyncGroup groupId := by
        rw [getSyncGroup_reportFrameProcessed]
        cases found : coordinator.getSyncGroup groupId with
        | none => rfl
        | some group =>
          by_cases target : entry.1 = groupId
          · subst target
            have empty : group.branches = [] :=
              not_not.mp fun present => here ⟨group, found, present⟩
            simp [SyncGroup.reportFrameProcessed, SyncGroup.findBranch_of_empty empty]
          · simp [target]
      refine ih (fun groupId group found => created groupId group (same groupId ▸ found))
        (fun entry listed group found => ownLater entry listed group (same _ ▸ found)) ?_
      obtain ⟨other, listed, group, found, present⟩ := joined
      rcases List.mem_cons.mp listed with rfl | later
      · exact absurd ⟨group, found, present⟩ here
      · exact ⟨other, later, group, same _ ▸ found, present⟩

end SyncCoordinator

namespace JoinAwareSyncStrategy

variable {strategy : JoinAwareSyncStrategy}

theorem unjoined_of_replies (created : ∀ group ∈ strategy.coordinator.groups, group.Created)
    (same : ∀ queries, ({ nodeMultiMapping := strategy.nodeMultiMapping } :
      JoinAwareSyncStrategy).replies queries = strategy.replies queries) : strategy.Unjoined := by
  intro nodeName entry mapped group found
  simp only [(idle_without_groups strategy.nodeMultiMapping).replies] at same
  have alone (groupId branchId : String) : ¬ strategy.Sibling nodeName groupId branchId := by
    intro sibling
    have answer := same [.request (.reportDrop nodeName 0 "")]
    have none : (strategy.reportDrop nodeName 0 "").2 = [] := by
      simpa [idleAnswer, replies, ask, serve] using answer.symm
    have named : branchId ∈ (strategy.reportDrop nodeName 0 "").2 :=
      mem_reportDrop.mpr ⟨groupId, sibling⟩
    rw [none] at named
    exact not_mem_nil named
  refine not_not.mp fun present => ?_
  obtain ⟨groupId, later, moved, ahead⟩ := SyncCoordinator.progress_shows
    (fun groupId group found => created group (mem_of_find?_eq_some found))
    (fun entry mapped group found branch listed => not_not.mp fun other => alone entry.1
      branch.branchId ⟨entry.2, mapped, group, found, mem_map_of_mem listed, other⟩)
    ⟨entry, mapped, group, found, present⟩
  have answer := same [.request (.markProcessed nodeName 1), .request (.getWatermark groupId)]
  have still : (strategy.markProcessed nodeName 1).getWatermark groupId = 0 := by
    simpa [idleAnswer, replies, ask, serve] using answer.symm
  simp only [getWatermark, markProcessed, moved] at still
  exact ahead still

end JoinAwareSyncStrategy

/-- The clone of a strategy that has just been set up answers as the original would, and neither
is affected by the other, exactly where no node is on a branch of a group. -/
theorem clone_answers_alike (heap : CoordinatorHeap) (calls : List SetupCall) :
    ((∀ queries : List Query, heard .cloned ((StrategyPair.cloneAfter heap calls).replies
          (queries.map (Prod.mk .cloned))) =
        heard .original ((StrategyPair.cloneAfter heap calls).replies
          (queries.map (Prod.mk .original)))) ∧
      ∀ (side : Side) (talk : List (Side × Query)),
        heard side ((StrategyPair.cloneAfter heap calls).replies talk) =
          heard side ((StrategyPair.cloneAfter heap calls).replies
            ((heard side talk).map (Prod.mk side)))) ↔
      (calls.foldl setUp {}).Unjoined := by
  have only (side : Side) (queries : List Query) : heard side (queries.map (Prod.mk side)) = queries := by
    simp [heard, filter_map, Function.comp_def]
  simp only [StrategyPair.heard_replies, only, cloneAfter_original, cloneAfter_cloned, implies_true,
    and_true]
  have created (group : SyncGroup) (listed : group ∈ (calls.foldl setUp {}).coordinator.groups) :
      group.Created := created_setUp listed
  constructor
  · exact unjoined_of_replies created
  · intro unjoined queries
    have idle : (calls.foldl setUp {}).Idle := by
      refine ⟨fun groupId group found => ?_, unjoined⟩
      have new := created group (mem_of_find?_eq_some found)
      refine ⟨new.watermark, fun branch listed => ?_⟩
      rw [new.branches branch listed]
    rw [(idle_without_groups _).replies, idle.replies]

/-- Two nodes on the two branches of a group: the clone names no branch. -/
theorem clone_has_no_groups :
    let pair := StrategyPair.cloneAfter [] [.registerSyncGroup "g" ["a", "b"],
      .mapNodeToGroup "m" "g" "a", .mapNodeToGroup "n" "g" "b"]
    pair.replies [(.cloned, .request (.reportDrop "m" 5 "late"))] = [(.cloned, .branches [])] ∧
      pair.replies [(.original, .request (.reportDrop "m" 5 "late"))] =
        [(.original, .branches ["b"])] := by
  decide

end AiPipe
