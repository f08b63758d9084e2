import AiPipe.Sync.Coordinator

/-!
Runs of one sync group.  The watermark only rises; it is the least progress of the branches that
have made any, so it may be ahead of one that has made none.
-/

namespace AiPipe

open SyncGroup BranchState List

abbrev FrameId := Fin (2 ^ 64)

theorem FrameId.le_end (frame : FrameId) : (frame : Nat) ≤ kEndOfStreamFrameId := by
  have := frame.isLt
  unfold kEndOfStreamFrameId
  omega

inductive GroupCall where
  | addBranch (branchId : String)
  | removeBranch (branchId : String)
  | reportFrameReceived (branchId : String) (frame : FrameId)
  | reportFrameProcessed (branchId : String) (frame : FrameId)
  | reportFrameDropped (branchId : String) (frame : FrameId) (reason : String)
  | clearPendingSyncDrop (branchId : String) (frame : FrameId)
  | clearPendingSyncDropsBefore (branchId : String) (frame : FrameId)
  | cleanup
  deriving DecidableEq, Repr

def GroupCall.reports : GroupCall → Bool
  | .addBranch _ => true
  | .reportFrameReceived _ _ => true
  | .reportFrameProcessed _ _ => true
  | .reportFrameDropped _ _ _ => true
  | _ => false

def SyncGroup.after (group : SyncGroup) : GroupCall → SyncGroup
  | .addBranch branchId => group.addBranch branchId
  | .removeBranch branchId => group.removeBranch branchId
  | .reportFrameReceived branchId frame => (group.reportFrameReceived branchId frame).1
  | .reportFrameProcessed branchId frame => group.reportFrameProcessed branchId frame
  | .reportFrameDropped branchId frame reason => (group.reportFrameDropped branchId frame reason).1
  | .clearPendingSyncDrop branchId frame => group.clearPendingSyncDrop branchId frame
  | .clearPendingSyncDropsBefore branchId frame => group.clearPendingSyncDropsBefore branchId frame
  | .cleanup => group.cleanup

inductive GroupRun (meets : SyncGroup → GroupCall → Prop) (groupId : String) : SyncGroup → Prop
  | start : GroupRun meets groupId { groupId }
  | call {group : SyncGroup} {call : GroupCall} : GroupRun meets groupId group →
      meets group call → GroupRun meets groupId (group.after call)

namespace BranchState

variable {branch : BranchState} {bound : Nat}

def highest (branch : BranchState) : Nat := branch.droppedFrames.foldl max branch.processedFrame

theorem highest_le : branch.highest ≤ bound ↔
    branch.processedFrame ≤ bound ∧ ∀ frame ∈ branch.droppedFrames, frame ≤ bound := by
  unfold highest
  generalize branch.processedFrame = processed
  induction branch.droppedFrames generalizing processed with
  | nil => simp
  | cons frame rest ih =>
    rw [foldl_cons, ih, Nat.max_le, forall_mem_cons]
    exact and_assoc

variable (branch : BranchState)

theorem effectiveProcessed_eq : branch.effectiveProcessed = branch.highest := by
  have larger (effective dropped : Nat) :
      (if effective < dropped ∨ effective = kInvalidFrameId then max effective dropped
        else effective) = max effective dropped := by
    by_cases grows : effective < dropped ∨ effective = kInvalidFrameId
    · rw [if_pos grows]
    · rw [if_neg grows]
      omega
  unfold effectiveProcessed highest
  simp only [larger]

theorem highest_advance (frame : Nat) :
    (branch.advance frame).highest = max branch.highest frame := by
  have processed : (branch.advance frame).processedFrame = max branch.processedFrame frame ∧
      (branch.advance frame).droppedFrames = branch.droppedFrames := by
    unfold advance
    split
    · rename_i later
      exact ⟨(Nat.max_eq_right later.le).symm, rfl⟩
    · rename_i early
      exact ⟨(Nat.max_eq_left (Nat.not_lt.mp early)).symm, rfl⟩
  refine eq_of_forall_ge_iff fun bound => ?_
  rw [highest_le, processed.1, processed.2, Nat.max_le, Nat.max_le, highest_le]
  exact and_right_comm

theorem highest_insert (frame : Nat) :
    { branch with droppedFrames := branch.droppedFrames.insert frame }.highest =
      max branch.highest frame := by
  refine eq_of_forall_ge_iff fun bound => ?_
  rw [Nat.max_le, highest_le, highest_le]
  simp only [mem_insert_iff, forall_eq_or_imp]
  exact ⟨fun ⟨processed, new, old⟩ => ⟨⟨processed, old⟩, new⟩,
    fun ⟨⟨processed, old⟩, new⟩ => ⟨processed, new, old⟩⟩

theorem highest_noteDrop (origin : String) (frame : Nat) :
    branch.highest ≤ (branch.noteDrop origin frame).highest ∧
      (branch.noteDrop origin frame).highest ≤ max branch.highest frame := by
  unfold noteDrop
  split
  · rw [highest_insert]
    exact ⟨Nat.le_max_left _ _, le_rfl⟩
  · split
    · exact ⟨le_rfl, Nat.le_max_left _ _⟩
    · exact ⟨le_rfl, Nat.le_max_left _ _⟩

theorem highest_receive (drops : List Nat) (frame : Nat) :
    (branch.receive drops frame).highest = branch.highest := by
  unfold receive
  dsimp only
  split <;> split <;> rfl

end BranchState

namespace SyncGroup

variable {group : SyncGroup}

def lowestProgress (branches : List BranchState) (lowest : Nat) : Nat :=
  branches.foldl (fun lowest branch =>
    if !branch.active then lowest
    else if branch.effectiveProcessed ≠ kInvalidFrameId ∧
        (lowest = kEndOfStreamFrameId ∨ branch.effectiveProcessed < lowest) then
      branch.effectiveProcessed
    else lowest) lowest

theorem lowestProgress_le {branches : List BranchState} {lowest : Nat}
    (within : lowest ≤ kEndOfStreamFrameId)
    (bounded : ∀ branch ∈ branches, branch.highest ≤ kEndOfStreamFrameId) :
    lowestProgress branches lowest ≤ lowest ∧
      ∀ branch ∈ branches, branch.active = true → branch.highest ≠ kInvalidFrameId →
        lowestProgress branches lowest ≤ branch.highest := by
  induction branches generalizing lowest with
  | nil => exact ⟨le_rfl, fun _ listed => absurd listed not_mem_nil⟩
  | cons branch rest ih =>
    obtain ⟨first, others⟩ := forall_mem_cons.mp bounded
    simp only [lowestProgress, foldl_cons, forall_mem_cons]
    by_cases active : branch.active = true
    · rw [if_neg (by simp [active])]
      by_cases less : branch.effectiveProcessed ≠ kInvalidFrameId ∧
          (lowest = kEndOfStreamFrameId ∨ branch.effectiveProcessed < lowest)
      · rw [if_pos less]
        rw [effectiveProcessed_eq] at less ⊢
        obtain ⟨below, each⟩ := ih first others
        have down : branch.highest ≤ lowest := by omega
        exact ⟨below.trans down, fun _ _ => below, each⟩
      · rw [if_neg less]
        rw [effectiveProcessed_eq] at less
        obtain ⟨below, each⟩ := ih within others
        refine ⟨below, fun _ progress => below.trans ?_, each⟩
        rw [not_and_or, not_or] at less
        rcases less with none | ⟨-, least⟩
        · exact absurd progress none
        · omega
    · rw [if_pos (by simpa using active)]
      obtain ⟨below, each⟩ := ih within others
      exact ⟨below, fun here => absurd here active, each⟩

theorem watermark_updateWatermarkLocked : group.watermark ≤ group.updateWatermarkLocked.watermark := by
  unfold updateWatermarkLocked
  dsimp only
  split
  · rename_i rises
    exact rises.2.le
  · exact le_rfl

theorem watermark_after (group : SyncGroup) (call : GroupCall) :
    group.watermark ≤ (group.after call).watermark := by
  cases call with
  | reportFrameProcessed branchId frame =>
    simp only [after, reportFrameProcessed]
    split
    · exact le_rfl
    · change (group.updateBranch branchId (advance frame)).watermark ≤ _
      exact watermark_updateWatermarkLocked
  | addBranch branchId =>
    simp only [after, addBranch]
    split <;> exact le_rfl
  | reportFrameDropped branchId frame reason =>
    simp only [after, reportFrameDropped]
    split <;> exact le_rfl
  | _ => exact le_rfl

structure Behind (group : SyncGroup) : Prop where
  behind : ∀ branch ∈ group.branches, branch.active = true → group.watermark ≤ branch.highest
  bounded : ∀ branch ∈ group.branches, branch.highest ≤ kEndOfStreamFrameId

/-- A branch is added before the watermark has left zero; and when a branch reports its progress,
every branch has some, the one that reports at the latest with this frame. -/
def Prepared (group : SyncGroup) : GroupCall → Prop
  | .addBranch branchId => branchId ∈ group.branchIds ∨ group.watermark = kInvalidFrameId
  | .reportFrameProcessed branchId frame => branchId ∈ group.branchIds →
      ∀ branch ∈ group.branches, branch.highest ≠ kInvalidFrameId ∨
        branch.branchId = branchId ∧ (frame : Nat) ≠ kInvalidFrameId
  | _ => True

instance : DecidablePred group.Prepared
  | .addBranch _ => inferInstanceAs (Decidable (_ ∨ _))
  | .reportFrameProcessed _ _ => inferInstanceAs (Decidable (_ → ∀ branch ∈ group.branches, _))
  | .removeBranch _ | .reportFrameReceived _ _ | .reportFrameDropped _ _ _
  | .clearPendingSyncDrop _ _ | .clearPendingSyncDropsBefore _ _ | .cleanup => .isTrue trivial

theorem mem_branchIds {branchId : String} :
    branchId ∈ group.branchIds ↔ (group.findBranch branchId).isSome = true := by
  simp [branchIds, findBranch, List.find?_isSome]

section

variable (behind : group.Behind)
include behind

theorem Behind.addBranch {branchId : String}
    (prepared : group.Prepared (.addBranch branchId)) : (group.addBranch branchId).Behind := by
  unfold SyncGroup.addBranch
  split
  · exact behind
  next absent =>
    have untouched : group.watermark = kInvalidFrameId :=
      prepared.resolve_left fun known => absent (mem_branchIds.mp known)
    constructor
    · intro branch listed active
      change group.watermark ≤ _
      rw [untouched]
      exact Nat.zero_le _
    · intro branch listed
      rcases mem_append.mp listed with old | new
      · exact behind.bounded branch old
      · obtain rfl := mem_singleton.mp new
        exact Nat.zero_le _

theorem Behind.mapBranches {change : BranchState → BranchState}
    {group' : SyncGroup} (branches : group'.branches = group.branches.map change)
    (same : group'.watermark = group.watermark)
    (active : ∀ branch, (change branch).active = branch.active)
    (higher : ∀ branch, branch.highest ≤ (change branch).highest)
    (bounded : ∀ branch ∈ group.branches, (change branch).highest ≤ kEndOfStreamFrameId) :
    group'.Behind := by
  constructor
  · intro branch listed alive
    rw [branches] at listed
    obtain ⟨earlier, there, rfl⟩ := mem_map.mp listed
    rw [same]
    exact (behind.behind earlier there (active earlier ▸ alive)).trans (higher earlier)
  · intro branch listed
    rw [branches] at listed
    obtain ⟨earlier, there, rfl⟩ := mem_map.mp listed
    exact bounded earlier there

theorem Behind.updateWatermarkLocked
    (progress : ∀ branch ∈ group.branches, branch.highest ≠ kInvalidFrameId) :
    group.updateWatermarkLocked.Behind := by
  obtain ⟨-, least⟩ := lowestProgress_le (Nat.le_refl kEndOfStreamFrameId) behind.bounded
  unfold SyncGroup.updateWatermarkLocked
  dsimp only
  split
  · exact ⟨fun branch listed active => least branch listed active (progress branch listed),
      behind.bounded⟩
  · exact behind

theorem Behind.reportFrameProcessed {branchId : String} {frame : FrameId}
    (prepared : group.Prepared (.reportFrameProcessed branchId frame)) :
    (group.reportFrameProcessed branchId frame).Behind := by
  unfold SyncGroup.reportFrameProcessed
  split
  · exact behind
  next known =>
    have prepared := prepared (mem_branchIds.mpr (by simpa [Option.isSome_iff_ne_none] using known))
    have progress (branch : BranchState) : (if branch.branchId = branchId then branch.advance frame
        else branch).highest = if branch.branchId = branchId then max branch.highest frame
        else branch.highest := by
      split
      · exact branch.highest_advance frame
      · rfl
    have advanced : (group.updateBranch branchId (advance frame)).Behind := by
      refine behind.mapBranches rfl rfl (fun branch => ?_) (fun branch => ?_) fun branch listed => ?_
      · unfold advance
        split
        · split <;> rfl
        · rfl
      · rw [progress]
        split
        · exact Nat.le_max_left _ _
        · exact le_rfl
      · rw [progress]
        split
        · exact Nat.max_le.mpr ⟨behind.bounded branch listed, FrameId.le_end frame⟩
        · exact behind.bounded branch listed
    refine advanced.updateWatermarkLocked fun branch listed => ?_
    obtain ⟨earlier, there, rfl⟩ := mem_map.mp listed
    rw [progress]
    unfold kInvalidFrameId at prepared ⊢
    rcases prepared earlier there with some | ⟨own, some⟩
    · split
      · omega
      · exact some
    · rw [if_pos own]
      omega

theorem Behind.after {call : GroupCall} (reports : call.reports = true)
    (prepared : group.Prepared call) : (group.after call).Behind := by
  cases call with
  | addBranch branchId => exact behind.addBranch prepared
  | reportFrameProcessed branchId frame => exact behind.reportFrameProcessed prepared
  | reportFrameReceived branchId frame =>
    refine behind.mapBranches rfl rfl (fun branch => ?_) (fun branch => ?_) fun branch listed => ?_
    · split
      · unfold receive
        dsimp only
        split <;> split <;> rfl
      · rfl
    · split
      · rw [highest_receive]
      · exact le_rfl
    · split
      · rw [highest_receive]
        exact behind.bounded branch listed
      · exact behind.bounded branch listed
  | reportFrameDropped branchId frame reason =>
    unfold SyncGroup.after SyncGroup.reportFrameDropped
    dsimp only
    split
    · exact behind
    · refine behind.mapBranches rfl rfl (fun branch => ?_) (fun branch => ?_)
        fun branch listed => ?_
      · unfold noteDrop
        split
        · rfl
        · split <;> rfl
      · exact (branch.highest_noteDrop branchId frame).1
      · refine (branch.highest_noteDrop branchId frame).2.trans ?_
        exact Nat.max_le.mpr ⟨behind.bounded branch listed, FrameId.le_end frame⟩
  | _ => cases reports

end

end SyncGroup

/-- The watermark never falls, and where no branch is passed over it stays behind all of them. -/
theorem watermark_behind_branches (groupId : String) (group : SyncGroup) :
    (∀ call : GroupCall, group.watermark ≤ (group.after call).watermark) ∧
      (GroupRun (fun group call => call.reports = true ∧ group.Prepared call) groupId group →
        ∀ branch ∈ group.branches, branch.active = true → group.watermark ≤ branch.highest) := by
  refine ⟨group.watermark_after, fun run => ?_⟩
  have behind : group.Behind := by
    induction run with
    | start =>
      exact ⟨fun _ listed => absurd listed not_mem_nil,
        fun _ listed => absurd listed not_mem_nil⟩
    | call _ met ih => exact ih.after met.1 met.2
  exact behind.behind

theorem watermark_behind_branches_pair :
    ∃ group, GroupRun (fun group call => call.reports = true ∧ group.Prepared call) "g" group ∧
      group.watermark = 3 ∧
      ∀ branch ∈ group.branches, branch.active = true → group.watermark ≤ branch.highest := by
  have added : GroupRun (fun group call => call.reports = true ∧ group.Prepared call) "g"
      (after (after { groupId := "g" } (.addBranch "a")) (.addBranch "b")) :=
    .call (.call .start (by decide)) (by decide)
  have run : GroupRun (fun group call => call.reports = true ∧ group.Prepared call) "g"
      (after (after _ (.reportFrameDropped "b" 5 "full"))
        (.reportFrameProcessed "a" 3)) :=
    .call (.call added (by decide)) (by decide)
  exact ⟨_, run, rfl, (watermark_behind_branches "g" _).2 run⟩

/-- The second branch has not begun when the watermark follows the first one. -/
theorem watermark_passes_idle_branch :
    ∃ group, GroupRun (fun _ call => call.reports = true) "g" group ∧
      ∃ branch ∈ group.branches, branch.active = true ∧ branch.highest = 0 ∧ group.watermark = 5 := by
  have added : GroupRun (fun _ call => call.reports = true) "g"
      (after (after { groupId := "g" } (.addBranch "a")) (.addBranch "b")) :=
    .call (.call .start rfl) rfl
  have run : GroupRun (fun _ call => call.reports = true) "g"
      (after _ (.reportFrameProcessed "a" 5)) := .call added rfl
  exact ⟨_, run, { branchId := "b" }, by decide, rfl, rfl, rfl⟩

end AiPipe
