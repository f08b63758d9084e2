import AiPipe.Sync.DropPropagation

/-!
The strategy after `reset()`.  The groups are gone while the nodes stay mapped to them, so it
answers like a fresh one as long as no mapped node reports anything.
-/

namespace AiPipe

open JoinAwareSyncStrategy List

def SyncGroup.Created (group : SyncGroup) : Prop :=
  ∃ (groupId : String) (branchIds : List String),
    group = branchIds.foldl SyncGroup.addBranch { groupId := groupId }

theorem SyncGroup.foldl_addBranch (ids : List String) (group : SyncGroup)
    (new : ∀ branch ∈ group.branches, branch = { branchId := branch.branchId }) :
    (ids.foldl addBranch group).watermark = group.watermark ∧
      ∀ branch ∈ (ids.foldl addBranch group).branches, branch = { branchId := branch.branchId } := by
  induction ids generalizing group with
  | nil => exact ⟨rfl, new⟩
  | cons id ids ih =>
    have added : (group.addBranch id).watermark = group.watermark ∧
        ∀ branch ∈ (group.addBranch id).branches, branch = { branchId := branch.branchId } := by
      unfold addBranch
      split
      · exact ⟨rfl, new⟩
      · exact ⟨rfl, forall_mem_append.mpr ⟨new, forall_mem_singleton.mpr rfl⟩⟩
    rw [foldl_cons, ← added.1]
    exact ih _ added.2

theorem SyncGroup.Created.watermark {group : SyncGroup} (created : group.Created) :
    group.watermark = kInvalidFrameId := by
  obtain ⟨groupId, branchIds, rfl⟩ := created
  exact (foldl_addBranch branchIds { groupId := groupId } (forall_mem_nil _)).1

theorem SyncGroup.Created.branches {group : SyncGroup} (created : group.Created) :
    ∀ branch ∈ group.branches, branch = { branchId := branch.branchId } := by
  obtain ⟨groupId, branchIds, rfl⟩ := created
  exact (foldl_addBranch branchIds { groupId := groupId } (forall_mem_nil _)).2

namespace JoinAwareSyncStrategy

inductive SyncRequest where
  | reportDrop (node : String) (frame : Nat) (reason : String)
  | shouldDrop (node : String) (frame : Nat)
  | markProcessed (node : String) (frame : Nat)
  | getWatermark (groupId : String)
  deriving DecidableEq, Repr

inductive SyncAnswer where
  | branches (ids : List String)
  | flag (value : Bool)
  | done
  | frame (id : Nat)
  deriving DecidableEq, Repr

def serve (strategy : JoinAwareSyncStrategy) : SyncRequest → JoinAwareSyncStrategy × SyncAnswer
  | .reportDrop node frame reason =>
    let (strategy, affected) := strategy.reportDrop node frame reason
    (strategy, .branches affected)
  | .shouldDrop node frame => (strategy, .flag (strategy.shouldDrop node frame))
  | .markProcessed node frame => (strategy.markProcessed node frame, .done)
  | .getWatermark groupId => (strategy, .frame (strategy.getWatermark groupId))

def answers : JoinAwareSyncStrategy → List SyncRequest → List SyncAnswer
  | _, [] => []
  | strategy, request :: rest =>
    let (strategy, answer) := strategy.serve request
    answer :: strategy.answers rest

def SyncRequest.reporter : SyncRequest → Option String
  | .reportDrop node _ _ | .markProcessed node _ => some node
  | .shouldDrop _ _ | .getWatermark _ => none

def Silent (strategy : JoinAwareSyncStrategy) : Prop :=
  ∀ group ∈ strategy.coordinator.groups,
    group.watermark = kInvalidFrameId ∧ ∀ branch ∈ group.branches, branch.pendingSyncDrops = []

variable {strategy : JoinAwareSyncStrategy}

theorem Silent.shouldDrop (silent : strategy.Silent)
    (node : String) (frame : Nat) : strategy.shouldDrop node frame = false := by
  have none_pending : ∀ groupId branchId,
      strategy.coordinator.getPendingSyncDrops groupId branchId = [] := by
    intro groupId branchId
    unfold SyncCoordinator.getPendingSyncDrops
    cases found : strategy.coordinator.getSyncGroup groupId with
    | none => rfl
    | some group =>
      have quiet := (silent group (mem_of_find?_eq_some found)).2
      simp only [SyncGroup.getPendingSyncDrops]
      cases branchFound : group.findBranch branchId with
      | none => rfl
      | some branch => exact quiet branch (mem_of_find?_eq_some branchFound)
  simp [JoinAwareSyncStrategy.shouldDrop, none_pending]

theorem Silent.getWatermark (silent : strategy.Silent)
    (groupId : String) : strategy.getWatermark groupId = 0 := by
  unfold JoinAwareSyncStrategy.getWatermark
  cases found : strategy.coordinator.getSyncGroup groupId with
  | none => rfl
  | some group => exact (silent group (mem_of_find?_eq_some found)).1

theorem serve_unmapped {request : SyncRequest}
    (unmapped : ∀ node, request.reporter = some node → strategy.nodeMultiMapping node = []) :
    (strategy.serve request).1 = strategy := by
  cases request with
  | reportDrop node frame reason =>
    simp [serve, reportDrop, unmapped node rfl]
  | markProcessed node frame =>
    simp [serve, markProcessed, unmapped node rfl]
  | shouldDrop | getWatermark => rfl

theorem Silent.answers_eq {first second : JoinAwareSyncStrategy} (silentFirst : first.Silent)
    (silentSecond : second.Silent) (same : first.nodeMultiMapping = second.nodeMultiMapping)
    (requests : List SyncRequest)
    (unmapped : ∀ request ∈ requests, ∀ node, request.reporter = some node →
      second.nodeMultiMapping node = []) :
    first.answers requests = second.answers requests := by
  induction requests with
  | nil => rfl
  | cons request rest ih =>
    have here := unmapped request mem_cons_self
    have answer : (first.serve request).2 = (second.serve request).2 := by
      cases request with
      | reportDrop node frame reason =>
        have none : second.nodeMultiMapping node = [] := here node rfl
        simp [serve, reportDrop, same, none]
      | shouldDrop node frame =>
        simp only [serve, silentFirst.shouldDrop, silentSecond.shouldDrop]
      | markProcessed => rfl
      | getWatermark groupId =>
        simp only [serve, silentFirst.getWatermark, silentSecond.getWatermark]
    change (first.serve request).2 :: (first.serve request).1.answers rest =
      (second.serve request).2 :: (second.serve request).1.answers rest
    rw [answer, serve_unmapped (by rw [same]; exact here), serve_unmapped here]
    rw [ih fun later listed => unmapped later (mem_cons_of_mem _ listed)]

theorem silent_reset (strategy : JoinAwareSyncStrategy) : strategy.reset.Silent :=
  fun _ listed => absurd listed not_mem_nil

variable {group : SyncGroup}

theorem mem_createSyncGroup {coordinator : SyncCoordinator} {groupId : String}
    {branchIds : List String}
    (listed : group ∈ (coordinator.createSyncGroup groupId branchIds).groups) :
    group ∈ coordinator.groups ∨ group.Created := by
  unfold SyncCoordinator.createSyncGroup at listed
  split at listed
  · exact .inl listed
  · rcases mem_append.mp listed with known | new
    · exact .inl known
    · exact .inr ⟨groupId, branchIds, mem_singleton.mp new⟩

theorem mem_addJoin {graph : CompiledGraph} {hash : HashOrder} {work : Nat × JoinAwareSyncStrategy}
    {joinIndex : Nat}
    (listed : group ∈ (addJoin graph hash work joinIndex).2.coordinator.groups) :
    group ∈ work.2.coordinator.groups ∨ group.Created := by
  unfold addJoin at listed
  cases found : graph.findLowestCommonFork hash joinIndex with
  | none => exact .inl (by simpa [found] using listed)
  | some result =>
    simp only [found] at listed
    split at listed
    · rw [mapPaths_coordinator] at listed
      exact .inl listed
    · simp only [mapPaths_coordinator] at listed
      exact mem_createSyncGroup listed

theorem created_initializeFrom {hash : HashOrder} {graph : CompiledGraph}
    (listed : group ∈ (initializeFrom hash graph).coordinator.groups) : group.Created := by
  unfold initializeFrom at listed
  suffices walk : ∀ (joins : List Nat) (work : Nat × JoinAwareSyncStrategy),
      group ∈ (joins.foldl (addJoin graph hash) work).2.coordinator.groups →
        group ∈ work.2.coordinator.groups ∨ group.Created from
    (walk _ _ listed).resolve_left not_mem_nil
  intro joins
  induction joins with
  | nil => exact fun _ there => .inl there
  | cons join joins ih =>
    intro work later
    rcases ih _ later with added | created
    · exact mem_addJoin added
    · exact .inr created

theorem silent_initializeFrom (hash : HashOrder) (graph : CompiledGraph) :
    (initializeFrom hash graph).Silent := by
  intro group listed
  have created := created_initializeFrom listed
  refine ⟨created.watermark, fun branch present => ?_⟩
  rw [created.branches branch present]

/-- After any history and a `reset()`, requests in which only unmapped nodes report are
answered as by a strategy that was just initialized. -/
theorem reset_like_fresh (hash : HashOrder) (graph : CompiledGraph) (history : List SyncCall)
    (requests : List SyncRequest)
    (unmapped : ∀ request ∈ requests, ∀ node, request.reporter = some node →
      (initializeFrom hash graph).nodeMultiMapping node = []) :
    ((initializeFrom hash graph).run history).reset.answers requests =
      (initializeFrom hash graph).answers requests := by
  refine (silent_reset _).answers_eq (silent_initializeFrom hash graph) ?_ requests unmapped
  exact run_nodeMultiMapping _ history

theorem reset_like_fresh_deep : ∃ compiled, compile deepGraph = .ok compiled ∧
    ((initializeFrom .insertion compiled).run
      [.markProcessed "C" 6, .reportDrop "B" 7 "late"]).shouldDrop "E" 7 = true ∧
    ((initializeFrom .insertion compiled).run
      [.markProcessed "C" 6, .reportDrop "B" 7 "late"]).reset.answers
        [.shouldDrop "E" 7, .reportDrop "A" 8 "late", .getWatermark "sync_group_0_A_to_F"] =
      (initializeFrom .insertion compiled).answers
        [.shouldDrop "E" 7, .reportDrop "A" 8 "late", .getWatermark "sync_group_0_A_to_F"] := by
  obtain ⟨compiled, compiles, outside, pending⟩ := deepGraph.compiled_of (fun compiled =>
    (initializeFrom .insertion compiled).nodeMultiMapping "A" = [] ∧
    ((initializeFrom .insertion compiled).run
      [.markProcessed "C" 6, .reportDrop "B" 7 "late"]).shouldDrop "E" 7 = true) (by decide +kernel)
  refine ⟨compiled, compiles, pending, reset_like_fresh .insertion compiled _ _ ?_⟩
  simp [SyncRequest.reporter, outside]

/-- The drop that `B` reports after the reset never reaches `E`. -/
theorem reset_loses_groups : ∃ compiled, compile deepGraph = .ok compiled ∧
    (initializeFrom .insertion compiled).reset.answers
        [.reportDrop "B" 7 "late", .shouldDrop "E" 7] = [.branches [], .flag false] ∧
    (initializeFrom .insertion compiled).answers
        [.reportDrop "B" 7 "late", .shouldDrop "E" 7] = [.branches ["branch_1"], .flag true] :=
  deepGraph.compiled_of _ (by decide +kernel)

end JoinAwareSyncStrategy

end AiPipe
