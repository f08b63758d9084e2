import AiPipe.Concurrency.Threads
import AiPipe.Alignment
import AiPipe.Graph
import AiPipe.Scheduler

/-!
The state of `ExecutionEngine::Impl` and the vocabulary of its programs.  Beside the source's
fields it records history, which the programs only ever add to.
-/

namespace AiPipe

variable {π : Type}

/-- An input queue: every packet accepted so far and the position of the next pop.  The
items still queued are those from `dequeuePos` on. -/
structure PortQueue (π : Type) where
  pushed : List (PortDataPtr π) := []
  dequeuePos : Nat := 0
  bounded : dequeuePos ≤ pushed.length := by simp

namespace PortQueue

def size (queue : PortQueue π) : Nat := queue.pushed.length - queue.dequeuePos

def empty (queue : PortQueue π) : Bool := queue.size == 0

def items (queue : PortQueue π) : List (PortDataPtr π) := queue.pushed.drop queue.dequeuePos

def head? (queue : PortQueue π) : Option (PortDataPtr π) := queue.pushed[queue.dequeuePos]?

def push (queue : PortQueue π) (data : PortDataPtr π) : PortQueue π where
  pushed := queue.pushed ++ [data]
  dequeuePos := queue.dequeuePos
  bounded := by
    have bounded := queue.bounded
    rw [List.length_append]
    omega

def pop (queue : PortQueue π) : PortQueue π where
  pushed := queue.pushed
  dequeuePos := min (queue.dequeuePos + 1) queue.pushed.length
  bounded := Nat.min_le_right _ _

def clear (queue : PortQueue π) : PortQueue π where
  pushed := queue.pushed
  dequeuePos := queue.pushed.length
  bounded := Nat.le_refl _

end PortQueue

/-- A packet that a gather popped: its port, its position among all packets that the
port accepted, and its data. -/
structure Taken (π : Type) where
  port : Nat
  position : Nat
  data : PortDataPtr π
  deriving DecidableEq

structure Place where
  node : Nat
  port : Nat
  position : Nat
  deriving DecidableEq, Repr

structure NodeState (π : Type) where
  execState : NodeExecutionState := .waiting
  executionCount : Nat := 0
  lastExecutionTicks : Int := 0
  joinWaitSinceTicks : Int := 0
  degradePending : Bool := false
  deferPending : Bool := false
  eosMask : Nat → Bool := fun _ => false
  eosPropagated : Bool := false
  queues : Nat → PortQueue π := fun _ => {}
  /-- The inputs of every call of `process()`, in the order of the calls. -/
  calls : List (List (Taken π)) := []
  processing : Nat := 0
  flushes : Nat := 0
  flushing : Nat := 0
  /-- `onEndOfStream()` has returned since `eos_propagated` was last cleared. -/
  flushed : Bool := false
  /-- How many end-of-stream handlings have claimed the node and are not over. -/
  finishing : Nat := 0

structure Statistics where
  totalExecutions : Nat := 0
  successfulExecutions : Nat := 0
  failedExecutions : Nat := 0
  totalInputFrames : Nat := 0
  totalOutputFrames : Nat := 0
  totalDroppedFrames : Nat := 0
  totalQueuePushes : Nat := 0
  totalQueuePops : Nat := 0
  queueFullEvents : Nat := 0
  totalJoinTimeouts : Nat := 0
  deriving DecidableEq, Repr

/-- What a sync strategy has been told so far; its answers are functions of this. -/
inductive SyncEvent where
  | dropped (node : String) (frame : Nat) (reason : String)
  | processed (node : String) (frame : Nat)
  | reset
  deriving DecidableEq, Repr

structure SyncStrategy where
  isEnabled : Bool
  tracksNode : String → Bool
  shouldDrop : List SyncEvent → String → Nat → Bool

def noSyncStrategy : SyncStrategy where
  isEnabled := false
  tracksNode _ := false
  shouldDrop _ _ _ := false

/-- One entry of `m_activeTasks`: the node and the run that the task was announced in. -/
structure TaskRecord where
  node : Nat
  run : Nat
  deriving DecidableEq, Repr

/-- One call of the drop callback, with the packet that it is about; there is none where
a push was rejected. -/
structure DropReport where
  node : String
  frame : Nat
  reason : String
  place : Option Place
  deriving DecidableEq, Repr

inductive LifeEvent where
  | setup (node : Nat)
  | setupFailed (node : Nat)
  | teardown (node : Nat)
  deriving DecidableEq, Repr

structure History (π : Type) where
  /-- Every task counted into `m_activeTasks`; a task's number is its position here. -/
  tasks : List TaskRecord := []
  /-- The tasks that were counted out again, and those that the pool is done with. -/
  decremented : List Nat := []
  ended : List Nat := []
  /-- How many times `execute()` has reset the engine for a new run. -/
  run : Nat := 0
  /-- The packet behind each increment of `total_dropped_frames`. -/
  dropCounts : List (Option Place) := []
  dropCallbacks : List DropReport := []
  /-- The runs and results of the calls of the result callback. -/
  published : List (Nat × PortDataMap π) := []
  collected : List (Nat × PortDataMap π) := []
  endOfStreamCallbacks : Nat := 0
  /-- The calls of that callback since `m_endOfStreamReached` was last cleared. -/
  runEndCallbacks : Nat := 0
  errorCallbacks : List (String × String) := []
  distributed : Bool := false
  called : Nat := 0
  returned : Nat := 0
  returns : List (Except Error Unit) := []
  stopping : Nat := 0
  clearing : Nat := 0
  lifecycle : List LifeEvent := []

structure State (π : Type) where
  node : Nat → NodeState π := fun _ => {}
  stopFlag : Bool := false
  activeTasks : Int := 0
  completionReported : Bool := false
  streamingMode : Bool := false
  engineState : EngineState := .idle
  engineMutex : Bool := false
  currentContext : Option Nat := none
  /-- The cancellation token of every context. -/
  cancelled : Nat → Bool := fun _ => false
  nextFrameId : Nat := 1
  nextStreamFrameId : Nat → Nat := fun _ => 0
  accumulatedResults : PortDataMap π := []
  sinksAtEos : Nat := 0
  endOfStreamReached : Bool := false
  setUpNodes : List Nat := []
  /-- The armed retries; a timer thread is known by its number. -/
  deferQueue : List (Int × Nat) := []
  deferRunning : Bool := false
  deferStop : Bool := false
  deferTimer : Option Nat := none
  deferTimersStarted : Nat := 0
  deferTimersEnded : List Nat := []
  watchdogMutex : Bool := false
  watchdogStop : Bool := false
  joinWatchdog : Option Nat := none
  watchdogsStarted : Nat := 0
  watchdogsEnded : List Nat := []
  statistics : Statistics := {}
  syncEvents : List SyncEvent := []
  history : History π := {}

end AiPipe
