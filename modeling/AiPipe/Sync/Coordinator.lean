import AiPipe.Types
import Mathlib.Algebra.Group.Nat.Defs

/-!
Sync groups and their coordinator.  The hash maps of the source are lists in the order of
insertion; no answer depends on their order.
-/

namespace AiPipe

def kEndOfStreamFrameId : Nat := 2 ^ 64 - 1

structure BranchState where
  branchId : String
  latestFrame : Nat := kInvalidFrameId
  processedFrame : Nat := kInvalidFrameId
  droppedFrames : List Nat := []
  pendingSyncDrops : List Nat := []
  active : Bool := true
  deriving DecidableEq, Repr

namespace BranchState

def advance (frame : Nat) (branch : BranchState) : BranchState :=
  if branch.processedFrame < frame then { branch with processedFrame := frame } else branch

def awaits (frame : Nat) (branch : BranchState) : Bool :=
  branch.processedFrame < frame || branch.processedFrame == kInvalidFrameId

def noteDrop (origin : String) (frame : Nat) (branch : BranchState) : BranchState :=
  if branch.branchId = origin then
    { branch with droppedFrames := branch.droppedFrames.insert frame }
  else if branch.awaits frame then
    { branch with pendingSyncDrops := branch.pendingSyncDrops.insert frame }
  else branch

def receive (globalDrops : List Nat) (frame : Nat) (branch : BranchState) : BranchState :=
  let seen := if branch.latestFrame < frame then { branch with latestFrame := frame } else branch
  if frame ∈ globalDrops then
    { seen with pendingSyncDrops := seen.pendingSyncDrops.insert frame }
  else seen

def settle (frames : Nat → Bool) (branch : BranchState) : BranchState :=
  { branch with
    pendingSyncDrops := branch.pendingSyncDrops.filter fun frame => !frames frame
    droppedFrames := (branch.pendingSyncDrops.filter frames).foldl (fun dropped frame =>
      dropped.insert frame) branch.droppedFrames }

def effectiveProcessed (branch : BranchState) : Nat :=
  branch.droppedFrames.foldl (fun effective dropped =>
    if effective < dropped ∨ effective = kInvalidFrameId then max effective dropped
    else effective) branch.processedFrame

end BranchState

structure SyncGroup where
  groupId : String
  branches : List BranchState := []
  globalDrops : List Nat := []
  dropReasons : List (Nat × String) := []
  watermark : Nat := kInvalidFrameId
  deriving DecidableEq, Repr

namespace SyncGroup

def findBranch (group : SyncGroup) (branchId : String) : Option BranchState :=
  group.branches.find? fun branch => branch.branchId == branchId

def addBranch (group : SyncGroup) (branchId : String) : SyncGroup :=
  if (group.findBranch branchId).isSome then group
  else { group with branches := group.branches ++ [{ branchId := branchId }] }

def removeBranch (group : SyncGroup) (branchId : String) : SyncGroup :=
  { group with branches := group.branches.filter fun branch => branch.branchId != branchId }

def branchIds (group : SyncGroup) : List String := group.branches.map BranchState.branchId

def updateBranch (group : SyncGroup) (branchId : String) (change : BranchState → BranchState) :
    SyncGroup :=
  { group with
    branches := group.branches.map fun branch =>
      if branch.branchId = branchId then change branch else branch }

def reportFrameReceived (group : SyncGroup) (branchId : String) (frame : Nat) : SyncGroup × Nat :=
  (group.updateBranch branchId (BranchState.receive group.globalDrops frame), group.watermark)

def updateWatermarkLocked (group : SyncGroup) : SyncGroup :=
  let found := group.branches.foldl (fun lowest branch =>
    if !branch.active then lowest
    else if branch.effectiveProcessed ≠ kInvalidFrameId ∧
        (lowest = kEndOfStreamFrameId ∨ branch.effectiveProcessed < lowest) then
      branch.effectiveProcessed
    else lowest) kEndOfStreamFrameId
  if found ≠ kEndOfStreamFrameId ∧ group.watermark < found then { group with watermark := found }
  else group

def reportFrameProcessed (group : SyncGroup) (branchId : String) (frame : Nat) : SyncGroup :=
  if (group.findBranch branchId).isNone then group
  else (group.updateBranch branchId (BranchState.advance frame)).updateWatermarkLocked

def reportFrameDropped (group : SyncGroup) (branchId : String) (frame : Nat) (reason : String) :
    SyncGroup × List String :=
  if (group.findBranch branchId).isNone then (group, [])
  else
    ({ group with
        branches := group.branches.map (BranchState.noteDrop branchId frame)
        globalDrops := group.globalDrops.insert frame
        dropReasons := (frame, reason) :: group.dropReasons.filter fun entry => entry.1 != frame },
      (group.branches.filter fun branch =>
        branch.branchId != branchId && branch.awaits frame).map BranchState.branchId)

def shouldDropFrame (group : SyncGroup) (branchId : String) (frame : Nat) : Bool :=
  if frame ∈ group.globalDrops then true
  else match group.findBranch branchId with
    | none => false
    | some branch => frame ∈ branch.pendingSyncDrops

def getPendingSyncDrops (group : SyncGroup) (branchId : String) : List Nat :=
  match group.findBranch branchId with
  | none => []
  | some branch => branch.pendingSyncDrops

/-- The frame is noted as dropped even if no drop of it was pending. -/
def clearPendingSyncDrop (group : SyncGroup) (branchId : String) (frame : Nat) : SyncGroup :=
  group.updateBranch branchId fun branch => { branch with
    pendingSyncDrops := branch.pendingSyncDrops.filter fun pending => pending != frame
    droppedFrames := branch.droppedFrames.insert frame }

def clearPendingSyncDropsBefore (group : SyncGroup) (branchId : String) (frame : Nat) : SyncGroup :=
  group.updateBranch branchId (BranchState.settle fun pending => decide (pending < frame))

/-- Forget the drops behind the watermark; those that are pending stay. -/
def cleanup (group : SyncGroup) : SyncGroup :=
  let behind (frame : Nat) : Bool := decide (frame < group.watermark)
  { group with
    globalDrops := group.globalDrops.filter fun frame => !behind frame
    dropReasons := group.dropReasons.filter fun entry =>
      !(behind entry.1 && group.globalDrops.contains entry.1)
    branches := group.branches.map fun branch => { branch with
      droppedFrames := branch.droppedFrames.filter fun frame => !behind frame } }

end SyncGroup

structure SyncCoordinator where
  groups : List SyncGroup := []
  deriving DecidableEq, Repr

namespace SyncCoordinator

def getSyncGroup (coordinator : SyncCoordinator) (groupId : String) : Option SyncGroup :=
  coordinator.groups.find? fun group => group.groupId == groupId

def createSyncGroup (coordinator : SyncCoordinator) (groupId : String) (branchIds : List String) :
    SyncCoordinator :=
  if (coordinator.getSyncGroup groupId).isSome then coordinator
  else { groups := coordinator.groups ++
    [branchIds.foldl SyncGroup.addBranch { groupId := groupId }] }

def updateGroup (coordinator : SyncCoordinator) (groupId : String)
    (change : SyncGroup → SyncGroup) : SyncCoordinator :=
  { groups := coordinator.groups.map fun group =>
      if group.groupId = groupId then change group else group }

def reportFrameProcessed (coordinator : SyncCoordinator) (groupId branchId : String)
    (frame : Nat) : SyncCoordinator :=
  coordinator.updateGroup groupId fun group => group.reportFrameProcessed branchId frame

def reportDrop (coordinator : SyncCoordinator) (groupId branchId : String) (frame : Nat)
    (reason : String) : SyncCoordinator :=
  coordinator.updateGroup groupId fun group => (group.reportFrameDropped branchId frame reason).1

def getPendingSyncDrops (coordinator : SyncCoordinator) (groupId branchId : String) : List Nat :=
  match coordinator.getSyncGroup groupId with
  | none => []
  | some group => group.getPendingSyncDrops branchId

def reset (_ : SyncCoordinator) : SyncCoordinator := {}

end SyncCoordinator

end AiPipe
