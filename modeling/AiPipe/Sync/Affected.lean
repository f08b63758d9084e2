import Mathlib.Data.List.Dedup
import AiPipe.Sync.DropPropagation

/-!
The branches that `reportDrop` names.  The coordinator's answer is thrown away: the strategy names
every other branch of the groups, whether or not it has come past the frame.
-/

namespace AiPipe

open List SyncCoordinator

section Collecting

variable {α : Type} [DecidableEq α]

def collectNew (test : α → Prop) [DecidablePred test] (seen values : List α) : List α :=
  values.foldl (fun seen value => if test value ∧ value ∉ seen then seen ++ [value] else seen) seen

variable {test : α → Prop} [DecidablePred test]

theorem mem_collectNew {seen values : List α} {value : α} :
    value ∈ collectNew test seen values ↔ value ∈ seen ∨ value ∈ values ∧ test value := by
  induction values generalizing seen with
  | nil => simp [collectNew]
  | cons first rest ih =>
    rw [collectNew, foldl_cons, ← collectNew, ih, mem_cons]
    by_cases new : test first ∧ first ∉ seen
    · rw [if_pos new, mem_append, mem_singleton]
      constructor
      · rintro ((old | rfl) | later)
        · exact .inl old
        · exact .inr ⟨.inl rfl, new.1⟩
        · exact .inr ⟨.inr later.1, later.2⟩
      · rintro (old | ⟨rfl | later, passed⟩)
        · exact .inl (.inl old)
        · exact .inl (.inr rfl)
        · exact .inr ⟨later, passed⟩
    · rw [if_neg new]
      constructor
      · rintro (old | later)
        · exact .inl old
        · exact .inr ⟨.inr later.1, later.2⟩
      · rintro (old | ⟨rfl | later, passed⟩)
        · exact .inl old
        · exact .inl (Classical.byContradiction fun fresh => new ⟨passed, fresh⟩)
        · exact .inr ⟨later, passed⟩

theorem nodup_collectNew {seen : List α} (distinct : seen.Nodup) (values : List α) :
    (collectNew test seen values).Nodup := by
  induction values generalizing seen with
  | nil => exact distinct
  | cons first rest ih =>
    rw [collectNew, foldl_cons, ← collectNew]
    apply ih
    split
    next new => exact nodup_append.mpr ⟨distinct, nodup_singleton _, by grind⟩
    next => exact distinct

end Collecting

@[simp] theorem BranchState.awaits_noteDrop (origin : String) (frame frame' : Nat)
    (branch : BranchState) : (branch.noteDrop origin frame').awaits frame = branch.awaits frame := by
  unfold noteDrop
  split
  · rfl
  · split <;> rfl

namespace SyncGroup

variable (group : SyncGroup)

theorem branchIds_reportFrameDropped (origin : String) (frame : Nat) (reason : String) :
    (group.reportFrameDropped origin frame reason).1.branchIds = group.branchIds := by
  unfold reportFrameDropped
  split
  · rfl
  · simp [branchIds, Function.comp_def]

theorem mem_repeat {origin branchId reason : String} {frame : Nat} :
    branchId ∈ (group.reportFrameDropped origin frame reason).2 ↔ origin ∈ group.branchIds ∧
      ∃ branch ∈ group.branches, branch.branchId = branchId ∧ branchId ≠ origin ∧
        branch.awaits frame = true := by
  unfold reportFrameDropped
  have known : (group.findBranch origin).isNone = true ↔ origin ∉ group.branchIds := by
    simp [findBranch, branchIds]
  split
  next unknown => simp [known.mp unknown]
  next registered =>
    have there : origin ∈ group.branchIds := not_not.mp fun absent => registered (known.mpr absent)
    simp only [mem_map, mem_filter, Bool.and_eq_true, bne_iff_ne, there, true_and]
    constructor
    · rintro ⟨branch, ⟨listed, other, awaits⟩, rfl⟩
      exact ⟨branch, listed, rfl, other, awaits⟩
    · rintro ⟨branch, listed, rfl, other, awaits⟩
      exact ⟨branch, ⟨listed, other, awaits⟩, rfl⟩

theorem mem_repeat_reportFrameDropped {origin origin' branchId reason reason' : String}
    {frame frame' : Nat} :
    branchId ∈ ((group.reportFrameDropped origin' frame' reason').1.reportFrameDropped origin frame
        reason).2 ↔ branchId ∈ (group.reportFrameDropped origin frame reason).2 := by
  have branches : (∃ branch ∈ (group.reportFrameDropped origin' frame' reason').1.branches,
      branch.branchId = branchId ∧ branchId ≠ origin ∧ branch.awaits frame = true) ↔
      ∃ branch ∈ group.branches,
        branch.branchId = branchId ∧ branchId ≠ origin ∧ branch.awaits frame = true := by
    unfold reportFrameDropped
    split
    · exact Iff.rfl
    · simp
  rw [mem_repeat, mem_repeat, branchIds_reportFrameDropped, branches]

end SyncGroup

namespace SyncCoordinator

variable (coordinator : SyncCoordinator)

def branchIdsOf (groupId : String) : Option (List String) :=
  (coordinator.getSyncGroup groupId).map SyncGroup.branchIds

def repeaters (frame : Nat) (reason : String) (entry : String × String) : List (String × String) :=
  match coordinator.getSyncGroup entry.1 with
  | none => []
  | some group => (group.reportFrameDropped entry.2 frame reason).2.map (Prod.mk entry.1)

def recorded (frame : Nat) (reason : String) :
    SyncCoordinator → List (String × String) → List (String × String)
  | _, [] => []
  | coordinator, entry :: rest => coordinator.repeaters frame reason entry ++
      recorded frame reason (coordinator.reportDrop entry.1 entry.2 frame reason) rest

variable (origin : String × String)

theorem getSyncGroup_reportDrop (frame : Nat) (reason groupId : String) :
    (coordinator.reportDrop origin.1 origin.2 frame reason).getSyncGroup groupId =
      (coordinator.getSyncGroup groupId).map fun group =>
        if origin.1 = groupId then (group.reportFrameDropped origin.2 frame reason).1 else group :=
  coordinator.getSyncGroup_updateGroup _ _ _ fun group => group.reportFrameDropped_groupId ..

theorem branchIdsOf_reportDrop (frame : Nat) (reason groupId : String) :
    (coordinator.reportDrop origin.1 origin.2 frame reason).branchIdsOf groupId =
      coordinator.branchIdsOf groupId := by
  unfold branchIdsOf
  rw [getSyncGroup_reportDrop, Option.map_map]
  congr 1
  funext group
  simp only [Function.comp_apply]
  split
  · exact group.branchIds_reportFrameDropped ..
  · rfl

theorem mem_repeaters_reportDrop {origin entry pair : String × String} {frame : Nat}
    {reason : String} :
    pair ∈ (coordinator.reportDrop origin.1 origin.2 frame reason).repeaters frame reason entry ↔
      pair ∈ coordinator.repeaters frame reason entry := by
  unfold repeaters
  rw [getSyncGroup_reportDrop]
  cases coordinator.getSyncGroup entry.1 with
  | none => exact Iff.rfl
  | some group =>
    simp only [Option.map_some, mem_map]
    split
    · simp only [group.mem_repeat_reportFrameDropped]
    · exact Iff.rfl

theorem mem_recorded {frame : Nat} {reason : String} {pair : String × String}
    {entries : List (String × String)} :
    pair ∈ coordinator.recorded frame reason entries ↔
      ∃ entry ∈ entries, pair ∈ coordinator.repeaters frame reason entry := by
  induction entries generalizing coordinator with
  | nil => simp [recorded]
  | cons entry rest ih => simp [recorded, ih, mem_repeaters_reportDrop]

end SyncCoordinator

namespace JoinAwareSyncStrategy

variable (strategy : JoinAwareSyncStrategy)

/-- The branches for which a report of the node records the frame as a pending drop, each with
its group. -/
def recordedDrops (nodeName : String) (frame : Nat) (reason : String) : List (String × String) :=
  (strategy.coordinator.recorded frame reason (strategy.nodeMultiMapping nodeName)).dedup

def Sibling (nodeName groupId branchId : String) : Prop :=
  ∃ origin, (groupId, origin) ∈ strategy.nodeMultiMapping nodeName ∧
    ∃ group, strategy.coordinator.getSyncGroup groupId = some group ∧
      branchId ∈ group.branchIds ∧ branchId ≠ origin

def Awaiting (nodeName : String) (frame : Nat) (groupId branchId : String) : Prop :=
  ∃ origin, (groupId, origin) ∈ strategy.nodeMultiMapping nodeName ∧
    ∃ group, strategy.coordinator.getSyncGroup groupId = some group ∧ origin ∈ group.branchIds ∧
      ∃ branch ∈ group.branches, branch.branchId = branchId ∧ branchId ≠ origin ∧
        branch.awaits frame = true

variable {strategy} {nodeName groupId branchId reason : String} {frame : Nat}

theorem Awaiting.sibling (awaiting : strategy.Awaiting nodeName frame groupId branchId) :
    strategy.Sibling nodeName groupId branchId := by
  obtain ⟨origin, mapped, group, found, -, branch, listed, rfl, other, -⟩ := awaiting
  exact ⟨origin, mapped, group, found, mem_map_of_mem listed, other⟩

theorem mem_recordedDrops : (groupId, branchId) ∈ strategy.recordedDrops nodeName frame reason ↔
    strategy.Awaiting nodeName frame groupId branchId := by
  have repeats (entry : String × String) :
      (groupId, branchId) ∈ strategy.coordinator.repeaters frame reason entry ↔
        entry.1 = groupId ∧ ∃ group, strategy.coordinator.getSyncGroup groupId = some group ∧
          branchId ∈ (group.reportFrameDropped entry.2 frame reason).2 := by
    unfold repeaters
    by_cases own : entry.1 = groupId
    · rw [own]
      cases strategy.coordinator.getSyncGroup groupId <;> simp
    · cases strategy.coordinator.getSyncGroup entry.1 <;> simp [own]
  simp only [recordedDrops, mem_dedup, mem_recorded, repeats, SyncGroup.mem_repeat, Awaiting]
  constructor
  · rintro ⟨⟨_, origin⟩, mapped, rfl, found⟩
    exact ⟨origin, mapped, found⟩
  · rintro ⟨origin, mapped, found⟩
    exact ⟨(groupId, origin), mapped, rfl, found⟩

theorem mem_reportDrop : branchId ∈ (strategy.reportDrop nodeName frame reason).2 ↔
    ∃ groupId, strategy.Sibling nodeName groupId branchId := by
  have walk (entries : List (String × String)) (work : JoinAwareSyncStrategy × List String) :
      branchId ∈ (entries.foldl (reportEntry frame reason) work).2 ↔ branchId ∈ work.2 ∨
        ∃ entry ∈ entries, ∃ ids, work.1.coordinator.branchIdsOf entry.1 = some ids ∧
          branchId ∈ ids ∧ branchId ≠ entry.2 := by
    induction entries generalizing work with
    | nil => simp
    | cons entry rest ih =>
      have here : branchId ∈ (reportEntry frame reason work entry).2 ↔ branchId ∈ work.2 ∨
          ∃ ids, work.1.coordinator.branchIdsOf entry.1 = some ids ∧
            branchId ∈ ids ∧ branchId ≠ entry.2 := by
        rw [← work.1.coordinator.branchIdsOf_reportDrop entry frame reason]
        unfold reportEntry branchIdsOf
        dsimp only
        cases (work.1.coordinator.reportDrop entry.1 entry.2 frame reason).getSyncGroup entry.1 with
        | none => simp
        | some group => exact mem_collectNew.trans (by simp)
      rw [foldl_cons, ih, here, exists_mem_cons_iff, or_assoc]
      simp only [reportEntry, branchIdsOf_reportDrop]
  unfold reportDrop
  simp only [walk, not_mem_nil, false_or, Sibling, branchIdsOf, Option.map_eq_some_iff]
  constructor
  · rintro ⟨⟨groupId, origin⟩, mapped, _, ⟨group, found, rfl⟩, listed, other⟩
    exact ⟨groupId, origin, mapped, group, found, listed, other⟩
  · rintro ⟨groupId, origin, mapped, group, found, listed, other⟩
    exact ⟨(groupId, origin), mapped, _, ⟨group, found, rfl⟩, listed, other⟩

theorem nodup_reportDrop : (strategy.reportDrop nodeName frame reason).2.Nodup := by
  unfold reportDrop
  generalize strategy.nodeMultiMapping nodeName = entries
  suffices walk : ∀ work : JoinAwareSyncStrategy × List String, work.2.Nodup →
      (entries.foldl (reportEntry frame reason) work).2.Nodup from walk _ nodup_nil
  induction entries with
  | nil => exact fun _ distinct => distinct
  | cons entry rest ih =>
    intro work distinct
    apply ih
    unfold reportEntry
    dsimp only
    split
    · exact distinct
    · exact nodup_collectNew distinct _

/-- The branches named are those that have the drop recorded, each group's its own, exactly where
every other branch of the node's groups awaits the frame and no id is of two such groups. -/
theorem reportDrop_names_recorded (strategy : JoinAwareSyncStrategy) (nodeName : String)
    (frame : Nat) (reason : String) :
    (strategy.reportDrop nodeName frame reason).2.Perm
        ((strategy.recordedDrops nodeName frame reason).map Prod.snd) ↔
      (∀ groupId branchId, strategy.Sibling nodeName groupId branchId →
        ∃ groupId, strategy.Awaiting nodeName frame groupId branchId) ∧
      ∀ branchId groupId groupId', strategy.Awaiting nodeName frame groupId branchId →
        strategy.Awaiting nodeName frame groupId' branchId → groupId = groupId' := by
  have recorded (branchId : String) :
      branchId ∈ (strategy.recordedDrops nodeName frame reason).map Prod.snd ↔
        ∃ groupId, strategy.Awaiting nodeName frame groupId branchId := by
    rw [mem_map]
    constructor
    · rintro ⟨⟨groupId, _⟩, listed, rfl⟩
      exact ⟨groupId, mem_recordedDrops.mp listed⟩
    · rintro ⟨groupId, awaiting⟩
      exact ⟨(groupId, branchId), mem_recordedDrops.mpr awaiting, rfl⟩
  have apart : ((strategy.recordedDrops nodeName frame reason).map Prod.snd).Nodup ↔
      ∀ branchId groupId groupId', strategy.Awaiting nodeName frame groupId branchId →
        strategy.Awaiting nodeName frame groupId' branchId → groupId = groupId' := by
    have distinct : (strategy.recordedDrops nodeName frame reason).Nodup := nodup_dedup _
    rw [nodup_map_iff_inj_on distinct]
    constructor
    · intro injective branchId groupId groupId' one other
      have same := injective _ (mem_recordedDrops.mpr one) _ (mem_recordedDrops.mpr other) rfl
      exact congrArg Prod.fst same
    · rintro distinct ⟨groupId, branchId⟩ one ⟨groupId', _⟩ other rfl
      rw [distinct branchId groupId groupId' (mem_recordedDrops.mp one) (mem_recordedDrops.mp other)]
  rw [← apart]
  constructor
  · intro permuted
    refine ⟨fun groupId branchId sibling => ?_, permuted.nodup_iff.mp nodup_reportDrop⟩
    exact (recorded branchId).mp (permuted.mem_iff.mp (mem_reportDrop.mpr ⟨groupId, sibling⟩))
  · rintro ⟨await, distinct⟩
    refine (perm_ext_iff_of_nodup nodup_reportDrop distinct).mpr fun branchId => ?_
    rw [mem_reportDrop, recorded]
    constructor
    · rintro ⟨groupId, sibling⟩
      exact await groupId branchId sibling
    · rintro ⟨groupId, awaiting⟩
      exact ⟨groupId, awaiting.sibling⟩

/-- A group of two branches, the second of which has already come past frame 5. -/
theorem reportDrop_names_finished_branch :
    let strategy := (((({} : JoinAwareSyncStrategy).registerSyncGroup "g" ["a", "b"]).mapNodeToGroup
      "m" "g" "a").mapNodeToGroup "n" "g" "b").markProcessed "n" 10
    (strategy.reportDrop "m" 5 "late").2 = ["b"] ∧ strategy.recordedDrops "m" 5 "late" = [] := by
  decide

end JoinAwareSyncStrategy

end AiPipe
