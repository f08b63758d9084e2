import AiPipe.Engine.State

/-!
The vocabulary of the engine's programs: what an access is called, what the environment
chooses, the named procedures, and the primitive accesses.
-/

namespace AiPipe

open Concurrency

variable {π : Type}

inductive Route where
  | input
  | routed
  | initial
  | edge (source : Nat) (out : OutEdge)
  deriving DecidableEq

/-- Accesses that a run condition can speak about; all others are `internal`. -/
inductive Label (π : Type) where
  | internal
  /-- A call of a trace sink or of a strategy, which may throw. -/
  | external
  | post (node : Nat)
  /-- The return of `process()` on the given inputs. -/
  | process (node : Nat) (inputs : List (Taken π))
  | flush (node : Nat)
  | setup (node : Nat)
  | enqueue (node port : Nat) (route : Route)
  | evict (node port : Nat)
  /-- A pop of a gather that already holds `held` packets. -/
  | gatherPop (node port held : Nat)
  /-- A pop that discards a head which was peeked before. -/
  | discardPop (node port : Nat)
  /-- The question whether a frame has to be dropped, put to the sync strategy. -/
  | askDrop (node frame : Nat)
  | signalLatch (node port : Nat)
  | cascadeLatch (node port : Nat)
  | beginRun
  | resetCounter
  | resetNode (node : Nat)
  | clearQueue (node port : Nat)
  | clearResults
  | enterCall
  | claimCompletion
  | waiterTest
  | cancel (context : Nat)
  /-- The stores of the stop flag by `stopStreaming`, and those that clear it. -/
  | stopStreaming
  | clearStop
  | beginClear
  | teardown (node : Nat)
  /-- The claim of a node for a task, or for its end of stream. -/
  | claimTask (node : Nat)
  | claimEos (node : Nat)

/-- `refuses`: the ring turns the call away although it has a packet, or room; the cell is claimed
and not yet published, or popped and not yet released. -/
structure Choice (π : Type) where
  throws : Bool := false
  refuses : Bool := false
  posted : Bool := true
  outcome : Except String (PortDataMap π) := .ok []
  now : Int := 0
  expires : Bool := false

inductive Proc (π : Type) where
  | checkNodeEndOfStream (node : Nat) (context : Option Nat)
  | pushFallback (node port : Nat) (data : PortDataPtr π) (route : Route) (reason : String)
  | evictToWindow (node port keep : Nat)
  | gatherPort (node port held : Nat)
  | peekAlignmentHead (node port : Nat)
  | gatherAligned (node : Nat)
  | runTask (task node : Nat) (context : Option Nat)
  | joinTimeoutWatchdogLoop (watchdog : Nat)
  | deferTimerLoop (timer : Nat)
  | execute (inputs : PortDataMap π) (wait : Bool) (context : Option Nat) (timeout : Option Nat)
  | startStreaming (context : Option Nat)
  | stopStreaming (waitForDrain : Bool)
  | releaseGraph
  | destroy
  | stopExecutionAsync
  | stopExecutionSync
  | reset
  | pushInput (node port : String) (data : PortDataPtr π)
  | signalEndOfStream (node port : String)
  | requestCancellation (context : Nat)

inductive Answer (π : Type) where
  | done
  | flag (value : Bool)
  | taken (packet : Option (Taken π))
  | head (packet : Option (PortDataPtr π))
  | gathered (complete : Bool) (inputs : List (Taken π))

abbrev Code (π : Type) := Prog (State π) (Label π) (Proc π) (Choice π) (Answer π)

/-- What is fixed once an engine is initialized.  A trace sink may be installed. -/
structure Env where
  source : Graph
  graph : CompiledGraph
  compiled : compile source = .ok graph
  config : EngineConfig
  queueConfig : Nat → QueueConfig
  scheduler : SchedulerStrategy
  sync : SyncStrategy
  traceSink : Bool

namespace Env

def portCount (env : Env) (node : Nat) : Nat := (env.graph.inputPorts node).length

def ports (env : Env) (node : Nat) : List Nat := List.range (env.portCount node)

def syncTracked (env : Env) (node : Nat) : Bool :=
  env.sync.isEnabled && env.sync.tracksNode (env.graph.name node)

def multiInputIndices (env : Env) : List Nat :=
  (List.range env.graph.nodeCount).filter fun node => decide (1 < env.portCount node)

end Env

namespace State

def updateNode (state : State π) (node : Nat) (change : NodeState π → NodeState π) : State π :=
  { state with node := Function.update state.node node (change (state.node node)) }

def setExec (state : State π) (node : Nat) (value : NodeExecutionState) : State π :=
  state.updateNode node fun entry => { entry with execState := value }

def updateQueue (state : State π) (node port : Nat) (change : PortQueue π → PortQueue π) :
    State π :=
  state.updateNode node fun entry =>
    { entry with queues := Function.update entry.queues port (change (entry.queues port)) }

def queue (state : State π) (node port : Nat) : PortQueue π := (state.node node).queues port

def exec (state : State π) (node : Nat) : NodeExecutionState := (state.node node).execState

def latched (state : State π) (node port : Nat) : Bool :=
  decide (port < kMaxEosPorts) && (state.node node).eosMask port

def updateHistory (state : State π) (change : History π → History π) : State π :=
  { state with history := change state.history }

end State

/-- The stores that `resetInternalState` and `reset` make, one by one. -/
inductive Wipe where
  | beginClear
  | beginRun
  | counter
  | completionReported
  | frameIds
  | sinksAtEos
  | endOfStream
  | streamFrameIds
  | results
  | exec (node : Nat)
  | executionCount (node : Nat)
  | joinWait (node : Nat)
  | degradePending (node : Nat)
  | eosMask (node : Nat)
  | eosPropagated (node : Nat)
  | queue (node port : Nat)
  | stopFlag
  | streamingMode
  | engineState
  | endClear
  deriving DecidableEq

namespace Wipe

def label : Wipe → Label π
  | .beginClear => .beginClear
  | .stopFlag => .clearStop
  | .beginRun => .beginRun
  | .counter => .resetCounter
  | .results => .clearResults
  | .exec node => .resetNode node
  | .executionCount node => .resetNode node
  | .eosMask node => .resetNode node
  | .eosPropagated node => .resetNode node
  | .queue node port => .clearQueue node port
  | _ => .internal

/-- `m_stopFlag = false` is the first store of a run and carries the history's run number;
`beginClear` and `endClear` only note in the history that the stores have begun and ended. -/
def apply (state : State π) : Wipe → State π
  | .beginClear => state.updateHistory fun history =>
    { history with clearing := history.clearing + 1 }
  | .beginRun => { state with
      stopFlag := false
      history := { state.history with run := state.history.run + 1, distributed := false } }
  | .counter => { state with activeTasks := 0 }
  | .completionReported => { state with completionReported := false }
  | .frameIds => { state with nextFrameId := 1 }
  | .sinksAtEos => { state with sinksAtEos := 0 }
  | .endOfStream => { state with
      endOfStreamReached := false
      history := { state.history with runEndCallbacks := 0 } }
  | .streamFrameIds => { state with nextStreamFrameId := fun _ => 0 }
  | .results => { state with accumulatedResults := [] }
  | .exec node => state.setExec node .waiting
  | .executionCount node => state.updateNode node fun entry => { entry with executionCount := 0 }
  | .joinWait node => state.updateNode node fun entry => { entry with joinWaitSinceTicks := 0 }
  | .degradePending node =>
    state.updateNode node fun entry => { entry with degradePending := false }
  | .eosMask node => state.updateNode node fun entry => { entry with eosMask := fun _ => false }
  | .eosPropagated node =>
    state.updateNode node fun entry => { entry with eosPropagated := false, flushed := false }
  | .queue node port => state.updateQueue node port PortQueue.clear
  | .stopFlag => { state with stopFlag := false }
  | .streamingMode => { state with streamingMode := false }
  | .engineState => { state with engineState := .idle }
  | .endClear => state.updateHistory fun history =>
    { history with clearing := history.clearing - 1 }

end Wipe

def read {β : Type} (field : State π → β) : Code π β :=
  .act .internal (fun _ state => some (field state, state)) .ret

def readAs {β : Type} (label : Label π) (field : State π → β) : Code π β :=
  .act label (fun _ state => some (field state, state)) .ret

def store (change : State π → State π) : Code π Unit :=
  .act .internal (fun _ state => some ((), change state)) .ret

def storeAs (label : Label π) (change : State π → State π) : Code π Unit :=
  .act label (fun _ state => some ((), change state)) .ret

def wipe (target : Wipe) : Code π Unit := storeAs target.label fun state => target.apply state

def await (label : Label π) (condition : State π → Bool) : Code π Unit :=
  .act label (fun _ state => if condition state then some ((), state) else none) .ret

def awaitOrExpire (label : Label π) (condition : State π → Bool) : Code π Bool :=
  .act label (fun choice state =>
    if condition state then some (true, state)
    else if choice.expires then some (false, state)
    else none) .ret

def clock : Code π Int :=
  .act .internal (fun choice state => some (choice.now, state)) .ret

/-- A call of foreign code that is not guarded against exceptions. -/
def external : Code π Unit :=
  .act .external (fun choice state => some (choice.throws, state)) fun
    | true => .throw
    | false => .ret ()

def lockEngine : Code π Unit :=
  .act .internal (fun _ state =>
    if state.engineMutex then none else some ((), { state with engineMutex := true })) .ret

def unlockEngine : Code π Unit := store fun state => { state with engineMutex := false }

def withEngineLock {α : Type} (body : Code π α) : Code π α := do
  lockEngine
  body.onExit fun
    | some value => do
        unlockEngine
        .ret value
    | none => do
        unlockEngine
        .throw

def casExecAs (label : Label π) (node : Nat) (expected desired : NodeExecutionState) :
    Code π Bool :=
  .act label (fun _ state =>
    if state.exec node = expected then some (true, state.setExec node desired)
    else some (false, state)) .ret

def casExec (node : Nat) (expected desired : NodeExecutionState) : Code π Bool :=
  casExecAs .internal node expected desired

def setExec (node : Nat) (value : NodeExecutionState) : Code π Unit :=
  store fun state => state.setExec node value

def count (change : Statistics → Statistics) : Code π Unit :=
  store fun state => { state with statistics := change state.statistics }

namespace Env

def emitTrace (env : Env) : Code π Unit := if env.traceSink then external else .ret ()

end Env

end AiPipe
