import AiPipe.Sync.Watermark

/-!
`cleanup()` of a sync group forgets the drops behind its watermark, but not the drops that a
branch has still to make.
-/

namespace AiPipe

open List

namespace SyncGroup

variable {group : SyncGroup}

structure Pruned (group : SyncGroup) : Prop where
  globalDrops : ∀ frame ∈ group.globalDrops, group.watermark ≤ frame
  dropReasons : ∀ entry ∈ group.dropReasons, group.watermark ≤ entry.1
  droppedFrames : ∀ branch ∈ group.branches, ∀ frame ∈ branch.droppedFrames, group.watermark ≤ frame
  pendingSyncDrops : ∀ branch ∈ group.branches, ∀ frame ∈ branch.pendingSyncDrops,
    group.watermark ≤ frame

def AnswersAs (group before : SyncGroup) : Prop :=
  ∀ branchId frame, before.watermark ≤ frame →
    group.shouldDropFrame branchId frame = before.shouldDropFrame branchId frame ∧
      (frame ∈ group.getPendingSyncDrops branchId ↔ frame ∈ before.getPendingSyncDrops branchId)

def Explained (group : SyncGroup) : Prop := ∀ entry ∈ group.dropReasons, entry.1 ∈ group.globalDrops

theorem Explained.after (explained : group.Explained) (call : GroupCall) :
    (group.after call).Explained := by
  cases call with
  | addBranch branchId =>
    unfold SyncGroup.after SyncGroup.addBranch
    dsimp only
    split
    · exact explained
    · exact explained
  | reportFrameProcessed branchId frame =>
    unfold SyncGroup.after SyncGroup.reportFrameProcessed updateWatermarkLocked
    dsimp only
    split
    · exact explained
    · split
      · exact explained
      · exact explained
  | reportFrameDropped branchId frame reason =>
    unfold SyncGroup.after SyncGroup.reportFrameDropped
    dsimp only
    split
    · exact explained
    · intro entry listed
      rcases mem_cons.mp listed with rfl | old
      · exact mem_insert_self
      · exact mem_insert_of_mem (explained entry (mem_of_mem_filter old))
  | cleanup =>
    intro entry listed
    obtain ⟨there, kept⟩ := mem_filter.mp listed
    have known := explained entry there
    refine mem_filter.mpr ⟨known, ?_⟩
    simpa [known] using kept
  | _ =>
    exact explained

theorem explained_of_run {groupId : String} (run : GroupRun (fun _ _ => True) groupId group) :
    group.Explained := by
  induction run with
  | start => exact fun _ listed => absurd listed not_mem_nil
  | call _ _ ih => exact ih.after _

theorem findBranch_cleanup (branchId : String) :
    group.cleanup.findBranch branchId = (group.findBranch branchId).map fun branch =>
      { branch with
        droppedFrames := branch.droppedFrames.filter fun frame => !decide (frame < group.watermark) } :=
  List.find?_map ..

theorem getPendingSyncDrops_cleanup (branchId : String) :
    group.cleanup.getPendingSyncDrops branchId = group.getPendingSyncDrops branchId := by
  unfold getPendingSyncDrops
  rw [findBranch_cleanup]
  cases group.findBranch branchId <;> rfl

theorem cleanup_answersAs : group.cleanup.AnswersAs group := by
  intro branchId frame ahead
  have still : frame ∈ group.cleanup.globalDrops ↔ frame ∈ group.globalDrops := by
    simp [cleanup, ahead]
  refine ⟨?_, by rw [getPendingSyncDrops_cleanup]⟩
  unfold shouldDropFrame
  rw [findBranch_cleanup]
  simp only [still]
  split
  · rfl
  · cases group.findBranch branchId <;> rfl

end SyncGroup

open SyncGroup in
/-- `cleanup()` leaves no frame behind the watermark exactly where no drop of one is pending. -/
theorem cleanup_prunes (groupId : String) (group : SyncGroup)
    (run : GroupRun (fun _ _ => True) groupId group) :
    group.cleanup.Pruned ∧ group.cleanup.AnswersAs group ↔
      ∀ branch ∈ group.branches, ∀ frame ∈ branch.pendingSyncDrops, group.watermark ≤ frame := by
  constructor
  · rintro ⟨pruned, -⟩ branch listed frame pending
    exact pruned.pendingSyncDrops _ (mem_map_of_mem listed) frame pending
  · intro ahead
    refine ⟨⟨?_, ?_, ?_, ?_⟩, cleanup_answersAs⟩
    · intro frame listed
      change group.watermark ≤ frame
      simpa using (mem_filter.mp listed).2
    · intro entry listed
      obtain ⟨there, kept⟩ := mem_filter.mp listed
      change group.watermark ≤ entry.1
      simpa [explained_of_run run entry there] using kept
    · intro branch listed frame dropped
      obtain ⟨earlier, -, rfl⟩ := mem_map.mp listed
      change group.watermark ≤ frame
      simpa using (mem_filter.mp dropped).2
    · intro branch listed frame pending
      obtain ⟨earlier, there, rfl⟩ := mem_map.mp listed
      exact ahead earlier there frame pending

def passedDrop : SyncGroup :=
  ((((SyncGroup.after { groupId := "g" } (.addBranch "a")).after (.addBranch "b")).after
    (.reportFrameDropped "a" 3 "full")).after (.reportFrameProcessed "a" 10)).after
      (.reportFrameProcessed "b" 10)

theorem passedDrop_run : GroupRun (fun _ _ => True) "g" passedDrop :=
  .call (.call (.call (.call (.call .start trivial) trivial) trivial) trivial) trivial

theorem cleanup_prunes_settled :
    (passedDrop.after (.clearPendingSyncDrop "b" 3)).watermark = 10 ∧
      (passedDrop.after (.clearPendingSyncDrop "b" 3)).cleanup.Pruned := by
  have run : GroupRun (fun _ _ => True) "g" (passedDrop.after (.clearPendingSyncDrop "b" 3)) :=
    .call passedDrop_run trivial
  exact ⟨by decide, ((cleanup_prunes "g" _ run).mpr (by decide)).1⟩

/-- The second branch is past the frame and has never dropped it. -/
theorem pending_drop_survives_cleanup : GroupRun (fun _ _ => True) "g" passedDrop ∧
    passedDrop.watermark = 10 ∧ ∃ branch ∈ passedDrop.cleanup.branches, 3 ∈ branch.pendingSyncDrops := by
  exact ⟨passedDrop_run, by decide, by decide⟩

end AiPipe
