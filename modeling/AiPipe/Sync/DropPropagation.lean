import AiPipe.Sync.JoinAware

/-!
How far a reported drop reaches.  A sequence of calls is followed through the state of one branch
of one group: `Holds` says that the branch exists and what is true of it.
-/

namespace AiPipe

open List SyncCoordinator SyncGroup BranchState

namespace SyncGroup

variable (group : SyncGroup)

theorem findBranch_id {branchId : String} {branch : BranchState}
    (found : group.findBranch branchId = some branch) : branch.branchId = branchId := by
  simpa using List.find?_some found

theorem find?_map_branches (change : BranchState → BranchState)
    (keeps : ∀ branch, (change branch).branchId = branch.branchId) (branchId : String) :
    (group.branches.map change).find? (fun branch => branch.branchId == branchId) =
      (group.findBranch branchId).map change := by
  simp only [List.find?_map, Function.comp_def, keeps, findBranch]

@[simp] theorem updateWatermarkLocked_branches :
    group.updateWatermarkLocked.branches = group.branches := by
  unfold updateWatermarkLocked
  dsimp only
  split <;> rfl

@[simp] theorem updateWatermarkLocked_groupId :
    group.updateWatermarkLocked.groupId = group.groupId := by
  unfold updateWatermarkLocked
  dsimp only
  split <;> rfl

@[simp] theorem reportFrameProcessed_groupId (branchId : String) (frame : Nat) :
    (group.reportFrameProcessed branchId frame).groupId = group.groupId := by
  unfold reportFrameProcessed
  split <;> simp [updateBranch]

@[simp] theorem reportFrameDropped_groupId (branchId : String) (frame : Nat) (reason : String) :
    (group.reportFrameDropped branchId frame reason).1.groupId = group.groupId := by
  unfold reportFrameDropped
  split <;> rfl

end SyncGroup

@[simp] theorem BranchState.advance_branchId (frame : Nat) (branch : BranchState) :
    (branch.advance frame).branchId = branch.branchId := by
  unfold advance
  split <;> rfl

@[simp] theorem BranchState.noteDrop_branchId (origin : String) (frame : Nat)
    (branch : BranchState) : (branch.noteDrop origin frame).branchId = branch.branchId := by
  unfold noteDrop
  split
  · rfl
  · split <;> rfl

theorem SyncGroup.findBranch_reportFrameProcessed (group : SyncGroup) (origin branchId : String)
    (frame : Nat) :
    (group.reportFrameProcessed origin frame).findBranch branchId =
      (group.findBranch branchId).map fun branch =>
        if origin = branchId then branch.advance frame else branch := by
  have mapped := group.find?_map_branches
    (fun branch => if branch.branchId = origin then branch.advance frame else branch)
    (fun branch => by split <;> simp) branchId
  unfold reportFrameProcessed
  cases present : group.findBranch origin with
  | none =>
    cases found : group.findBranch branchId with
    | none => simpa using found
    | some branch =>
      have distinct : origin ≠ branchId := fun same => by simp [same, found] at present
      simpa [distinct] using found
  | some _ =>
    simp only [Option.isNone_some, Bool.false_eq_true, if_false, findBranch,
      updateWatermarkLocked_branches, updateBranch] at mapped ⊢
    rw [mapped]
    cases found : group.branches.find? (fun branch => branch.branchId == branchId) with
    | none => rfl
    | some branch =>
      have id := group.findBranch_id found
      simp [id, eq_comm]

theorem SyncGroup.findBranch_reportFrameDropped (group : SyncGroup) (origin branchId : String)
    (frame : Nat) (reason : String) :
    (group.reportFrameDropped origin frame reason).1.findBranch branchId =
      (group.findBranch branchId).map fun branch =>
        if (group.findBranch origin).isSome then branch.noteDrop origin frame else branch := by
  unfold reportFrameDropped
  cases present : group.findBranch origin with
  | none => simp
  | some _ =>
    simp [findBranch, group.find?_map_branches (noteDrop origin frame) (noteDrop_branchId origin frame)]

namespace SyncCoordinator

variable (coordinator : SyncCoordinator)

def branch (groupId branchId : String) : Option BranchState :=
  (coordinator.getSyncGroup groupId).bind fun group => group.findBranch branchId

theorem getSyncGroup_updateGroup (target groupId : String) (change : SyncGroup → SyncGroup)
    (keeps : ∀ group, (change group).groupId = group.groupId) :
    (coordinator.updateGroup target change).getSyncGroup groupId =
      (coordinator.getSyncGroup groupId).map fun group =>
        if target = groupId then change group else group := by
  have ids : ∀ group : SyncGroup,
      (if group.groupId = target then change group else group).groupId = group.groupId := by
    intro group
    split
    · exact keeps group
    · rfl
  simp only [updateGroup, getSyncGroup, List.find?_map, Function.comp_def, ids]
  cases found : coordinator.groups.find? (fun group => group.groupId == groupId) with
  | none => rfl
  | some group =>
    have id : group.groupId = groupId := by simpa using List.find?_some found
    simp [id, eq_comm]

variable (target origin groupId branchId : String)

theorem branch_reportFrameProcessed (frame : Nat) :
    (coordinator.reportFrameProcessed target origin frame).branch groupId branchId =
      (coordinator.branch groupId branchId).map fun branch =>
        if target = groupId ∧ origin = branchId then branch.advance frame else branch := by
  rw [branch, reportFrameProcessed,
    getSyncGroup_updateGroup _ _ _ _ fun group => group.reportFrameProcessed_groupId origin frame,
    branch]
  cases coordinator.getSyncGroup groupId with
  | none => rfl
  | some group =>
    by_cases same : target = groupId
    · simp [same, findBranch_reportFrameProcessed]
    · simp [same]

theorem branch_reportDrop (frame : Nat) (reason : String) :
    (coordinator.reportDrop target origin frame reason).branch groupId branchId =
      (coordinator.branch groupId branchId).map fun branch =>
        if target = groupId ∧ (coordinator.branch target origin).isSome then
          branch.noteDrop origin frame
        else branch := by
  rw [branch, reportDrop, getSyncGroup_updateGroup _ _ _ _ fun group =>
    group.reportFrameDropped_groupId origin frame reason]
  cases found : coordinator.getSyncGroup groupId with
  | none => simp [branch, found]
  | some group =>
    by_cases same : target = groupId
    · subst same
      simp [branch, found, findBranch_reportFrameDropped]
    · simp [same, branch, found]

variable {groupId branchId : String}

theorem getPendingSyncDrops_eq {branch : BranchState}
    (found : coordinator.branch groupId branchId = some branch) :
    coordinator.getPendingSyncDrops groupId branchId = branch.pendingSyncDrops := by
  unfold SyncCoordinator.branch at found
  unfold getPendingSyncDrops SyncGroup.getPendingSyncDrops
  cases present : coordinator.getSyncGroup groupId with
  | none => simp [present] at found
  | some group =>
    rw [present, Option.bind_some] at found
    simp [found]

theorem branch_branchId {coordinator : SyncCoordinator}
    {branch : BranchState} (found : coordinator.branch groupId branchId = some branch) :
    branch.branchId = branchId := by
  obtain ⟨group, _, inside⟩ := Option.bind_eq_some_iff.mp found
  exact findBranch_id _ inside

def Holds (groupId branchId : String) (fact : BranchState → Prop) : Prop :=
  ∃ branch, coordinator.branch groupId branchId = some branch ∧ fact branch

variable {coordinator} {groupId branchId : String} {fact : BranchState → Prop}

section

variable (holds : coordinator.Holds groupId branchId fact)
include holds

variable {frame : Nat} {target origin : String}

theorem Holds.reportFrameProcessed (advances : target = groupId → origin = branchId →
      ∀ branch, fact branch → fact (branch.advance frame)) :
    (coordinator.reportFrameProcessed target origin frame).Holds groupId branchId fact := by
  obtain ⟨branch, found, known⟩ := holds
  refine ⟨_, by rw [branch_reportFrameProcessed, found]; rfl, ?_⟩
  split
  case isTrue same => exact advances same.1 same.2 branch known
  case isFalse => exact known

theorem Holds.reportDrop {reason : String}
    (notes : ∀ branch, fact branch → fact (branch.noteDrop origin frame)) :
    (coordinator.reportDrop target origin frame reason).Holds groupId branchId fact := by
  obtain ⟨branch, found, known⟩ := holds
  refine ⟨_, by rw [branch_reportDrop, found]; rfl, ?_⟩
  split
  · exact notes branch known
  · exact known

theorem Holds.foldl_reportFrameProcessed {entries : List (String × String)}
    (advances : (groupId, branchId) ∈ entries →
      ∀ branch, fact branch → fact (branch.advance frame)) :
    (entries.foldl (fun coordinator entry =>
      coordinator.reportFrameProcessed entry.1 entry.2 frame) coordinator).Holds
      groupId branchId fact := by
  induction entries generalizing coordinator with
  | nil => exact holds
  | cons entry entries hypothesis =>
    refine hypothesis (holds.reportFrameProcessed ?_) fun listed =>
      advances (mem_cons_of_mem _ listed)
    rintro rfl rfl
    exact advances mem_cons_self

theorem Holds.foldl_reportDrop (frame : Nat) (reason : String) (entries : List (String × String))
    (notes : ∀ origin branch, fact branch → fact (branch.noteDrop origin frame)) :
    (entries.foldl (fun coordinator entry =>
      coordinator.reportDrop entry.1 entry.2 frame reason) coordinator).Holds
      groupId branchId fact := by
  induction entries generalizing coordinator with
  | nil => exact holds
  | cons entry entries hypothesis => exact hypothesis (holds.reportDrop (notes entry.2))

end

end SyncCoordinator

namespace BranchState

def Behind (frame : Nat) (branch : BranchState) : Prop :=
  branch.processedFrame < frame ∨ branch.processedFrame = kInvalidFrameId

variable {branch : BranchState}

theorem Behind.advance {frame seen : Nat} (behind : branch.Behind frame)
    (below : seen < frame ∨ seen = kInvalidFrameId) : (branch.advance seen).Behind frame := by
  unfold BranchState.advance
  split
  · exact below
  · exact behind

variable {frame : Nat}

theorem Behind.noteDrop (behind : branch.Behind frame)
    (origin : String) (dropped : Nat) : (branch.noteDrop origin dropped).Behind frame := by
  unfold BranchState.noteDrop
  split
  · exact behind
  · split <;> exact behind

def Pending (frame : Nat) (branch : BranchState) : Prop := frame ∈ branch.pendingSyncDrops

theorem Pending.advance (pending : branch.Pending frame)
    (seen : Nat) : (branch.advance seen).Pending frame := by
  unfold BranchState.advance
  split <;> exact pending

theorem Pending.noteDrop (pending : branch.Pending frame)
    (origin : String) (dropped : Nat) : (branch.noteDrop origin dropped).Pending frame := by
  unfold BranchState.noteDrop
  split
  · exact pending
  · split
    · exact mem_insert_of_mem pending
    · exact pending

theorem Behind.pending {origin : String}
    (behind : branch.Behind frame) (other : branch.branchId ≠ origin) :
    (branch.noteDrop origin frame).Pending frame := by
  have awaited : branch.awaits frame = true := by simpa [awaits, Behind] using behind
  simp [BranchState.noteDrop, other, awaited, Pending]

end BranchState

namespace JoinAwareSyncStrategy

inductive SyncCall where
  | markProcessed (nodeName : String) (frame : Nat)
  | reportDrop (nodeName : String) (frame : Nat) (reason : String)
  deriving DecidableEq, Repr

def call (strategy : JoinAwareSyncStrategy) : SyncCall → JoinAwareSyncStrategy
  | .markProcessed nodeName frame => strategy.markProcessed nodeName frame
  | .reportDrop nodeName frame reason => (strategy.reportDrop nodeName frame reason).1

def run (strategy : JoinAwareSyncStrategy) (calls : List SyncCall) : JoinAwareSyncStrategy :=
  calls.foldl call strategy

variable (strategy : JoinAwareSyncStrategy)

theorem reportDrop_strategy (nodeName : String) (frame : Nat) (reason : String) :
    (strategy.reportDrop nodeName frame reason).1 =
      { strategy with
        coordinator := (strategy.nodeMultiMapping nodeName).foldl (fun coordinator entry =>
          coordinator.reportDrop entry.1 entry.2 frame reason) strategy.coordinator } := by
  unfold reportDrop
  generalize strategy.nodeMultiMapping nodeName = entries
  generalize ([] : List String) = affected
  induction entries generalizing strategy affected with
  | nil => rfl
  | cons entry entries hypothesis => exact hypothesis _ _

@[simp] theorem call_nodeMultiMapping (entry : SyncCall) :
    (strategy.call entry).nodeMultiMapping = strategy.nodeMultiMapping := by
  cases entry with
  | markProcessed => rfl
  | reportDrop nodeName frame reason =>
    simp only [call, reportDrop_strategy]

@[simp] theorem run_nodeMultiMapping (calls : List SyncCall) :
    (strategy.run calls).nodeMultiMapping = strategy.nodeMultiMapping := by
  induction calls generalizing strategy with
  | nil => rfl
  | cons entry calls hypothesis =>
    exact (hypothesis (strategy.call entry)).trans (strategy.call_nodeMultiMapping entry)

end JoinAwareSyncStrategy

section Calls

open JoinAwareSyncStrategy

variable {strategy : JoinAwareSyncStrategy} {groupId branchId : String} {fact : BranchState → Prop}

theorem SyncCoordinator.Holds.call {entry : SyncCall}
    (holds : strategy.coordinator.Holds groupId branchId fact)
    (advances : ∀ node frame, entry = .markProcessed node frame →
      (groupId, branchId) ∈ strategy.nodeMultiMapping node →
      ∀ branch, fact branch → fact (branch.advance frame))
    (notes : ∀ origin frame branch, fact branch → fact (branch.noteDrop origin frame)) :
    (strategy.call entry).coordinator.Holds groupId branchId fact := by
  cases entry with
  | markProcessed node frame =>
    exact holds.foldl_reportFrameProcessed (advances node frame rfl)
  | reportDrop node frame reason =>
    rw [JoinAwareSyncStrategy.call, reportDrop_strategy]
    exact holds.foldl_reportDrop frame reason _ fun origin => notes origin frame

theorem SyncCoordinator.Holds.run (holds : strategy.coordinator.Holds groupId branchId fact)
    (calls : List SyncCall)
    (advances : ∀ node frame, .markProcessed node frame ∈ calls →
      (groupId, branchId) ∈ strategy.nodeMultiMapping node →
      ∀ branch, fact branch → fact (branch.advance frame))
    (notes : ∀ origin frame branch, fact branch → fact (branch.noteDrop origin frame)) :
    (strategy.run calls).coordinator.Holds groupId branchId fact := by
  induction calls generalizing strategy with
  | nil => exact holds
  | cons entry calls hypothesis =>
    refine hypothesis (holds.call ?_ notes) fun node frame listed mapped => ?_
    · rintro node frame rfl mapped
      exact advances node frame mem_cons_self mapped
    · rw [call_nodeMultiMapping] at mapped
      exact advances node frame (mem_cons_of_mem _ listed) mapped

theorem SyncCoordinator.Holds.reported {node origin : String} {frame : Nat}
    (behind : strategy.coordinator.Holds groupId branchId (BranchState.Behind frame))
    (present : strategy.coordinator.Holds groupId origin fun _ => True)
    (mapped : (groupId, origin) ∈ strategy.nodeMultiMapping node) (other : origin ≠ branchId)
    (reason : String) :
    (strategy.call (.reportDrop node frame reason)).coordinator.Holds groupId branchId
      (BranchState.Pending frame) := by
  obtain ⟨front, back, split⟩ := append_of_mem mapped
  rw [JoinAwareSyncStrategy.call, reportDrop_strategy, split, foldl_append, foldl_cons]
  refine Holds.foldl_reportDrop ?_ frame reason back
    fun origin branch pending => pending.noteDrop origin frame
  obtain ⟨branch, found, behindHere⟩ := behind.foldl_reportDrop frame reason front
    fun origin branch behind => behind.noteDrop origin frame
  obtain ⟨_, foundOrigin, _⟩ := present.foldl_reportDrop frame reason front
    fun _ _ _ => trivial
  refine ⟨branch.noteDrop origin frame, ?_, behindHere.pending ?_⟩
  · simp [branch_reportDrop, found, foundOrigin]
  · rw [branch_branchId found]
    exact other.symm

end Calls

/-! Registration: every entry of the node mapping names a branch of a registered group. -/

namespace SyncGroup

def Untouched (branch : BranchState) : Prop := branch.processedFrame = kInvalidFrameId

@[simp] theorem addBranch_groupId (group : SyncGroup) (branchId : String) :
    (group.addBranch branchId).groupId = group.groupId := by
  unfold addBranch
  split <;> rfl

theorem addBranch_untouched {group : SyncGroup} (untouched : ∀ branch ∈ group.branches, Untouched branch)
    (branchId : String) : ∀ branch ∈ (group.addBranch branchId).branches, Untouched branch := by
  unfold addBranch
  split
  · exact untouched
  · simp only [forall_mem_append, forall_mem_singleton]
    exact ⟨untouched, rfl⟩

theorem addBranch_branchIds (group : SyncGroup) (branchId : String) :
    (group.addBranch branchId).branchIds = 
      if branchId ∈ group.branchIds then group.branchIds else group.branchIds ++ [branchId] := by
  have present : (group.findBranch branchId).isSome = true ↔ branchId ∈ group.branchIds := by
    simp [findBranch, branchIds, List.find?_isSome]
  unfold addBranch
  simp only [present]
  split <;> simp [branchIds]

variable (ids : List String)

theorem foldl_addBranch_groupId (group : SyncGroup) :
    (ids.foldl addBranch group).groupId = group.groupId := by
  induction ids generalizing group with
  | nil => rfl
  | cons id ids hypothesis => exact (hypothesis _).trans (group.addBranch_groupId id)

theorem foldl_addBranch_untouched (group : SyncGroup)
    (untouched : ∀ branch ∈ group.branches, Untouched branch) :
    ∀ branch ∈ (ids.foldl addBranch group).branches, Untouched branch := by
  induction ids generalizing group with
  | nil => exact untouched
  | cons id ids hypothesis => exact hypothesis _ (addBranch_untouched untouched id)

theorem mem_foldl_addBranch (group : SyncGroup) {id : String}
    (listed : id ∈ ids ∨ id ∈ group.branchIds) : id ∈ (ids.foldl addBranch group).branchIds := by
  induction ids generalizing group with
  | nil => simpa using listed
  | cons first ids hypothesis =>
    refine hypothesis _ ?_
    rw [addBranch_branchIds]
    rcases listed with listed | known
    · rcases mem_cons.mp listed with rfl | later
      · right
        split
        case isTrue known => exact known
        case isFalse => simp
      · exact .inl later
    · right
      split
      · exact known
      · exact mem_append_left _ known

end SyncGroup

open SyncGroup (Untouched)

namespace SyncCoordinator

variable {coordinator : SyncCoordinator} {groupId branchId : String} {fact : BranchState → Prop}

theorem createSyncGroup_groups (absent : coordinator.getSyncGroup groupId = none)
    (ids : List String) :
    (coordinator.createSyncGroup groupId ids).groups =
      coordinator.groups ++ [ids.foldl SyncGroup.addBranch { groupId := groupId }] := by
  simp [createSyncGroup, absent]

theorem Holds.createSyncGroup (holds : coordinator.Holds groupId branchId fact)
    {created : String} (absent : coordinator.getSyncGroup created = none) (ids : List String) :
    (coordinator.createSyncGroup created ids).Holds groupId branchId fact := by
  obtain ⟨branch, found, known⟩ := holds
  obtain ⟨group, present, inside⟩ := Option.bind_eq_some_iff.mp found
  refine ⟨branch, Option.bind_eq_some_iff.mpr ⟨group, ?_, inside⟩, known⟩
  unfold getSyncGroup at present ⊢
  rw [createSyncGroup_groups absent, List.find?_append, present, Option.some_or]

theorem holds_createSyncGroup (absent : coordinator.getSyncGroup groupId = none)
    {ids : List String} (listed : branchId ∈ ids) :
    (coordinator.createSyncGroup groupId ids).Holds groupId branchId Untouched := by
  have member := mem_foldl_addBranch ids { groupId := groupId } (.inl listed)
  obtain ⟨branch, found⟩ : ∃ branch, (ids.foldl addBranch
      { groupId := groupId }).findBranch branchId = some branch := by
    rw [← Option.isSome_iff_exists]
    simpa [findBranch, branchIds, List.find?_isSome] using member
  refine ⟨branch, Option.bind_eq_some_iff.mpr ⟨_, ?_, found⟩,
    foldl_addBranch_untouched ids { groupId := groupId } (by simp) branch
      (mem_of_find?_eq_some found)⟩
  unfold getSyncGroup at absent ⊢
  rw [createSyncGroup_groups absent, List.find?_append, absent, Option.none_or]
  simp [foldl_addBranch_groupId]

end SyncCoordinator

namespace JoinAwareSyncStrategy

theorem toDigits_of_underscore {left right : Nat} {leftRest rightRest : List Char}
    (same : Nat.toDigits 10 left ++ '_' :: leftRest = Nat.toDigits 10 right ++ '_' :: rightRest) :
    left = right := by
  have digits : ∀ number rest, (Nat.toDigits 10 number ++ '_' :: rest).takeWhile Char.isDigit =
      Nat.toDigits 10 number := by
    intro number rest
    rw [takeWhile_append_of_pos fun digit listed =>
      Nat.isDigit_of_mem_toDigits (by decide) (by decide) listed]
    simp
  have equal := congrArg (takeWhile Char.isDigit) same
  rw [digits, digits] at equal
  rw [← Nat.ofDigitChars_toDigits (b := 10) (n := left) (by decide) (by decide), equal,
    Nat.ofDigitChars_toDigits (by decide) (by decide)]

theorem groupIdOf_counter {left right : Nat} {leftFork leftJoin rightFork rightJoin : String}
    (same : groupIdOf left leftFork leftJoin = groupIdOf right rightFork rightJoin) :
    left = right := by
  have characters := congrArg String.toList same
  simp only [groupIdOf, String.toList_append, Nat.toString_eq_repr, Nat.toList_repr,
    append_assoc] at characters
  exact toDigits_of_underscore (append_cancel_left characters)

variable {strategy : JoinAwareSyncStrategy} {entry : String × String}

theorem mem_addNodeMapping {node groupId branchId name : String} :
    entry ∈ (strategy.addNodeMapping node groupId branchId).nodeMultiMapping name ↔
      entry ∈ strategy.nodeMultiMapping name ∨ node = name ∧ entry = (groupId, branchId) := by
  unfold addNodeMapping
  by_cases same : node = name
  · subst same
    simp
  · simp [same, Ne.symm same]

variable (graph : CompiledGraph)

theorem mem_foldl_addNodeMapping (groupId branchId : String) (path : List Nat) {name : String} :
    entry ∈ (path.foldl (fun strategy node =>
        strategy.addNodeMapping (graph.name node) groupId branchId) strategy).nodeMultiMapping name ↔
      entry ∈ strategy.nodeMultiMapping name ∨
        (∃ node ∈ path, graph.name node = name) ∧ entry = (groupId, branchId) := by
  induction path generalizing strategy with
  | nil => simp
  | cons node path hypothesis =>
    rw [foldl_cons, hypothesis, mem_addNodeMapping, exists_mem_cons_iff]
    tauto

theorem mem_mapPaths (groupId : String) (paths : List (List Nat)) {name : String} :
    entry ∈ (mapPaths graph groupId strategy paths).nodeMultiMapping name ↔
      entry ∈ strategy.nodeMultiMapping name ∨
        ∃ index path, paths[index]? = some path ∧ (∃ node ∈ path, graph.name node = name) ∧
          entry = (groupId, branchIdOf index) := by
  have numbered (index : Nat) (path : List Nat) :
      paths[index]? = some path ↔ (path, index) ∈ paths.zipIdx := by
    rw [mk_mem_zipIdx_iff_getElem?]
  simp only [numbered, mapPaths]
  generalize paths.zipIdx = indexed
  induction indexed generalizing strategy with
  | nil => simp
  | cons first indexed hypothesis =>
    obtain ⟨path, index⟩ := first
    rw [foldl_cons]
    refine hypothesis.trans ?_
    rw [mem_foldl_addNodeMapping, or_assoc]
    refine or_congr_right ⟨?_, ?_⟩
    · rintro (⟨named, rfl⟩ | ⟨later, walk, listed, rest⟩)
      · exact ⟨index, path, mem_cons_self, named, rfl⟩
      · exact ⟨later, walk, mem_cons_of_mem _ listed, rest⟩
    · rintro ⟨later, walk, listed, named, rfl⟩
      rcases mem_cons.mp listed with here | listed
      · obtain ⟨rfl, rfl⟩ := Prod.mk.inj here
        exact .inl ⟨named, rfl⟩
      · exact .inr ⟨later, walk, listed, named, rfl⟩

@[simp] theorem mapPaths_coordinator (groupId : String)
    (paths : List (List Nat)) (strategy : JoinAwareSyncStrategy) :
    (mapPaths graph groupId strategy paths).coordinator = strategy.coordinator := by
  have inner : ∀ (path : List Nat) (branchId : String) (strategy : JoinAwareSyncStrategy),
      (path.foldl (fun strategy node => strategy.addNodeMapping (graph.name node) groupId branchId)
        strategy).coordinator = strategy.coordinator := by
    intro path branchId
    induction path with
    | nil => exact fun _ => rfl
    | cons node path hypothesis => exact fun strategy => hypothesis _
  unfold mapPaths
  generalize paths.zipIdx = indexed
  induction indexed generalizing strategy with
  | nil => rfl
  | cons path indexed hypothesis => exact (hypothesis _).trans (inner _ _ _)

/-- What the loop over the joins keeps: the groups made so far have smaller numbers, and
every entry of the mapping names one of their branches. -/
structure Registered (counter : Nat) (strategy : JoinAwareSyncStrategy) : Prop where
  numbered : ∀ group ∈ strategy.coordinator.groups, ∃ index < counter, ∃ forkName joinName,
    group.groupId = groupIdOf index forkName joinName
  mapped : ∀ name groupId branchId, (groupId, branchId) ∈ strategy.nodeMultiMapping name →
    strategy.coordinator.Holds groupId branchId Untouched

theorem Registered.absent {counter : Nat}
    (registered : Registered counter strategy) (forkName joinName : String) :
    strategy.coordinator.getSyncGroup (groupIdOf counter forkName joinName) = none := by
  refine List.find?_eq_none.mpr fun group listed same => ?_
  obtain ⟨index, below, _, _, named⟩ := registered.numbered group listed
  have equal : group.groupId = groupIdOf counter forkName joinName := by simpa using same
  exact below.ne (groupIdOf_counter (named.symm.trans equal))

theorem Registered.addJoin {graph : CompiledGraph} {hash : HashOrder}
    {work : Nat × JoinAwareSyncStrategy} (registered : Registered work.1 work.2)
    (joinIndex : Nat) :
    Registered (addJoin graph hash work joinIndex).1 (addJoin graph hash work joinIndex).2 := by
  unfold JoinAwareSyncStrategy.addJoin
  cases graph.findLowestCommonFork hash joinIndex with
  | none => exact registered
  | some result =>
    have absent := registered.absent (graph.name result.forkNode) (graph.name joinIndex)
    have earlier : ∀ group ∈ work.2.coordinator.groups, ∃ index < work.1 + 1,
        ∃ forkName joinName, group.groupId = groupIdOf index forkName joinName := by
      intro group listed
      obtain ⟨index, below, named⟩ := registered.numbered group listed
      exact ⟨index, by omega, named⟩
    dsimp only
    split
    case isTrue empty =>
      have pathless : result.paths = [] := by simpa using empty
      exact ⟨by simpa using earlier, by simpa [pathless, mapPaths] using registered.mapped⟩
    case isFalse =>
      constructor
      · dsimp only
        rw [mapPaths_coordinator, createSyncGroup_groups absent]
        simp only [forall_mem_append, forall_mem_singleton]
        exact ⟨earlier, work.1, by omega, _, _, foldl_addBranch_groupId _ _⟩
      · intro name groupId branchId mapped
        dsimp only
        rw [mapPaths_coordinator]
        rcases (mem_mapPaths graph _ result.paths).mp mapped with
          known | ⟨index, path, listed, -, named⟩
        · exact (registered.mapped name groupId branchId known).createSyncGroup absent _
        · obtain ⟨rfl, rfl⟩ := Prod.mk.inj named
          exact holds_createSyncGroup absent
            (List.mem_map_of_mem (List.mem_range.mpr (List.getElem?_eq_some_iff.mp listed).1))

theorem registered_initializeFrom (hash : HashOrder) (graph : CompiledGraph) :
    ∃ counter, Registered counter (initializeFrom hash graph) := by
  unfold initializeFrom
  have start : Registered 0 ({} : JoinAwareSyncStrategy) := ⟨by simp, by simp⟩
  suffices walk : ∀ (joins : List Nat) (work : Nat × JoinAwareSyncStrategy), Registered work.1 work.2 →
      Registered (joins.foldl (JoinAwareSyncStrategy.addJoin graph hash) work).1
        (joins.foldl (JoinAwareSyncStrategy.addJoin graph hash) work).2 from
    ⟨_, walk _ _ start⟩
  intro joins
  induction joins with
  | nil => exact fun _ registered => registered
  | cons join joins hypothesis => exact fun work registered => hypothesis _ (registered.addJoin join)

theorem shouldDrop_of_pending {node groupId branchId : String}
    {frame : Nat} (mapped : (groupId, branchId) ∈ strategy.nodeMultiMapping node)
    (pending : strategy.coordinator.Holds groupId branchId (BranchState.Pending frame)) :
    strategy.shouldDrop node frame = true := by
  obtain ⟨branch, found, listed⟩ := pending
  refine any_eq_true.mpr ⟨_, mapped, ?_⟩
  rw [getPendingSyncDrops_eq _ found]
  exact decide_eq_true listed

/-- A report of `node` reaches `sibling` on another branch of the group, for good, if
neither `sibling` nor another node of its branch was marked with the frame or a later one
before the report. -/
theorem drop_reaches_sibling (hash : HashOrder) (graph : CompiledGraph)
    {node sibling groupId origin branchId : String} {frame : Nat} {reason : String}
    (before after : List SyncCall)
    (mappedNode : (groupId, origin) ∈ (initializeFrom hash graph).nodeMultiMapping node)
    (mappedSibling : (groupId, branchId) ∈ (initializeFrom hash graph).nodeMultiMapping sibling)
    (other : origin ≠ branchId)
    (unmarked : ∀ seen, .markProcessed sibling seen ∈ before → seen < frame)
    (branchUnmarked : ∀ neighbor seen, neighbor ≠ sibling →
      (groupId, branchId) ∈ (initializeFrom hash graph).nodeMultiMapping neighbor →
      .markProcessed neighbor seen ∈ before → seen < frame ∨ seen = kInvalidFrameId) :
    ((initializeFrom hash graph).run (before ++ .reportDrop node frame reason :: after)).shouldDrop
      sibling frame = true := by
  obtain ⟨_, registered⟩ := registered_initializeFrom hash graph
  have behind : ((initializeFrom hash graph).run before).coordinator.Holds groupId branchId
      (Behind frame) := by
    obtain ⟨branch, found, untouched⟩ := registered.mapped sibling groupId branchId mappedSibling
    refine Holds.run ⟨branch, found, .inr untouched⟩ before ?_
      fun dropOrigin dropped branch behind => behind.noteDrop dropOrigin dropped
    intro neighbor seen listed mapped branch behind
    by_cases same : neighbor = sibling
    · subst same
      exact behind.advance (.inl (unmarked seen listed))
    · exact behind.advance (branchUnmarked neighbor seen same mapped listed)
  have present : ((initializeFrom hash graph).run before).coordinator.Holds groupId origin
      fun _ => True := by
    obtain ⟨branch, found, _⟩ := registered.mapped node groupId origin mappedNode
    exact Holds.run ⟨branch, found, trivial⟩ before (fun _ _ _ _ _ _ => trivial)
      fun _ _ _ _ => trivial
  have reported := behind.reported present (by simpa using mappedNode) other reason
  have kept := reported.run after (fun _ seen _ _ _ pending => pending.advance seen)
    fun dropOrigin dropped _ pending => pending.noteDrop dropOrigin dropped
  have mapped : (groupId, branchId) ∈ ((initializeFrom hash graph).run
      (before ++ .reportDrop node frame reason :: after)).nodeMultiMapping sibling := by
    simpa using mappedSibling
  refine shouldDrop_of_pending mapped ?_
  simpa [run, foldl_append] using kept

def deepGraph : Graph where
  nodes := [⟨"A", [], ["out"]⟩, ⟨"B", ["in"], ["out"]⟩, ⟨"C", ["in"], ["out"]⟩,
    ⟨"D", ["in"], ["out"]⟩, ⟨"E", ["in"], ["out"]⟩, ⟨"F", ["left", "right"], []⟩]
  edges := [⟨0, "out", 1, "in"⟩, ⟨0, "out", 2, "in"⟩, ⟨1, "out", 3, "in"⟩, ⟨2, "out", 4, "in"⟩,
    ⟨3, "out", 5, "left"⟩, ⟨4, "out", 5, "right"⟩]
  namesNodup := by decide
  portsNodup := by decide
  edgesNodup := by decide
  edgesDeclared := by simp [Edge.declared]

theorem drop_reaches_sibling_deep : ∃ compiled, compile deepGraph = .ok compiled ∧
    ((initializeFrom .insertion compiled).run
      [.markProcessed "C" 6, .reportDrop "B" 7 "late", .markProcessed "C" 8]).shouldDrop "E" 7 =
        true := by
  obtain ⟨compiled, compiles, mappedNode, mappedSibling⟩ := deepGraph.compiled_of (fun compiled =>
    ("sync_group_0_A_to_F", "branch_0") ∈ (initializeFrom .insertion compiled).nodeMultiMapping "B" ∧
    ("sync_group_0_A_to_F", "branch_1") ∈ (initializeFrom .insertion compiled).nodeMultiMapping "E")
    (by decide +kernel)
  refine ⟨compiled, compiles, drop_reaches_sibling .insertion compiled
    [.markProcessed "C" 6] _ mappedNode mappedSibling (by decide) (by simp) ?_⟩
  intro neighbor seen _ _ listed
  left
  simp only [mem_singleton, SyncCall.markProcessed.injEq] at listed
  omega

/-- `C` comes before `E` on the same branch: its progress hides the drop from `E`, which
has seen nothing yet. -/
theorem marked_predecessor_hides_drop : ∃ compiled, compile deepGraph = .ok compiled ∧
    ("sync_group_0_A_to_F", "branch_0") ∈
      (initializeFrom .insertion compiled).nodeMultiMapping "B" ∧
    ("sync_group_0_A_to_F", "branch_1") ∈
      (initializeFrom .insertion compiled).nodeMultiMapping "E" ∧
    ((initializeFrom .insertion compiled).run
      [.markProcessed "C" 7, .reportDrop "B" 7 "late"]).shouldDrop "E" 7 = false :=
  deepGraph.compiled_of _ (by decide +kernel)

end JoinAwareSyncStrategy

end AiPipe
