import AiPipe.Concurrency.Adequacy
import AiPipe.Engine.Runs

/-!
The engine as a protocol, part one: the view of the shared state that the protocol
speaks about, and the frames, which say what a thread is in the middle of.
-/

namespace AiPipe

variable {π : Type}

structure View (π : Type) where
  exec : Nat → NodeExecutionState
  executions : Nat → Nat
  latched : Nat → Nat → Bool
  propagated : Nat → Bool
  degrade : Nat → Bool
  queue : Nat → Nat → PortQueue π
  calls : Nat → List (List (Taken π))
  processing : Nat → Nat
  flushes : Nat → Nat
  flushing : Nat → Nat
  flushed : Nat → Bool
  finishing : Nat → Nat
  stop : Bool
  streaming : Bool
  reported : Bool
  endReached : Bool
  sinksAtEos : Nat
  active : Int
  results : PortDataMap π
  cancelled : Nat → Bool
  watching : Bool
  tasks : List TaskRecord
  decremented : List Nat
  ended : List Nat
  run : Nat
  dropCounts : List (Option Place)
  dropCallbacks : List DropReport
  published : List (Nat × PortDataMap π)
  collected : List (Nat × PortDataMap π)
  distributed : Bool
  called : Nat
  returned : Nat
  returns : List (Except Error Unit)
  syncEvents : List SyncEvent
  endCallbacks : Nat
  runEnds : Nat
  stopping : Nat
  clearing : Nat
  locked : Bool
  running : Bool
  setUp : List Nat
  life : List LifeEvent

def view (state : State π) : View π where
  exec node := (state.node node).execState
  executions node := (state.node node).executionCount
  latched node port := state.latched node port
  propagated node := (state.node node).eosPropagated
  degrade node := (state.node node).degradePending
  queue node port := (state.node node).queues port
  calls node := (state.node node).calls
  processing node := (state.node node).processing
  flushes node := (state.node node).flushes
  flushing node := (state.node node).flushing
  flushed node := (state.node node).flushed
  finishing node := (state.node node).finishing
  stop := state.stopFlag
  streaming := state.streamingMode
  reported := state.completionReported
  endReached := state.endOfStreamReached
  sinksAtEos := state.sinksAtEos
  active := state.activeTasks
  results := state.accumulatedResults
  cancelled := state.cancelled
  watching := state.watchdogMutex
  tasks := state.history.tasks
  decremented := state.history.decremented
  ended := state.history.ended
  run := state.history.run
  dropCounts := state.history.dropCounts
  dropCallbacks := state.history.dropCallbacks
  published := state.history.published
  collected := state.history.collected
  distributed := state.history.distributed
  called := state.history.called
  returned := state.history.returned
  returns := state.history.returns
  syncEvents := state.syncEvents
  endCallbacks := state.history.endOfStreamCallbacks
  runEnds := state.history.runEndCallbacks
  stopping := state.history.stopping
  clearing := state.history.clearing
  locked := state.engineMutex
  running := state.engineState == .running
  setUp := state.setUpNodes
  life := state.history.lifecycle

namespace View

variable (seen : View π)

def setExec (node : Nat) (value : NodeExecutionState) : View π :=
  { seen with exec := Function.update seen.exec node value }

def setQueue (node port : Nat) (queue : PortQueue π) : View π :=
  { seen with
    queue := Function.update seen.queue node (Function.update (seen.queue node) port queue) }

def pop (node port : Nat) : View π := seen.setQueue node port (seen.queue node port).pop

def push (node port : Nat) (data : PortDataPtr π) : View π :=
  seen.setQueue node port ((seen.queue node port).push data)

def latch (node port : Nat) : View π :=
  { seen with
    latched := Function.update seen.latched node (Function.update (seen.latched node) port true) }

def wipe : Wipe → View π
  | .beginClear => { seen with clearing := seen.clearing + 1 }
  | .beginRun => { seen with stop := false, run := seen.run + 1, distributed := false }
  | .counter => { seen with active := 0 }
  | .completionReported => { seen with reported := false }
  | .frameIds => seen
  | .sinksAtEos => { seen with sinksAtEos := 0 }
  | .endOfStream => { seen with endReached := false, runEnds := 0 }
  | .streamFrameIds => seen
  | .results => { seen with results := [] }
  | .exec node => seen.setExec node .waiting
  | .executionCount node => { seen with executions := Function.update seen.executions node 0 }
  | .joinWait _ => seen
  | .degradePending node => { seen with degrade := Function.update seen.degrade node false }
  | .eosMask node => { seen with latched := Function.update seen.latched node fun _ => false }
  | .eosPropagated node =>
    { seen with
      propagated := Function.update seen.propagated node false
      flushed := Function.update seen.flushed node false }
  | .queue node port => seen.setQueue node port (seen.queue node port).clear
  | .stopFlag => { seen with stop := false }
  | .streamingMode => { seen with streaming := false }
  | .engineState => { seen with running := false }
  | .endClear => { seen with clearing := seen.clearing - 1 }

end View

inductive Obs where
  | latched (port : Nat) (value : Bool)
  | dry (port : Nat) (value : Bool)
  | busy
  deriving DecidableEq

def Obs.Holds (seen : View π) (node : Nat) : Obs → Prop
  | .latched port value => seen.latched node port = value
  | .dry port value => (seen.queue node port).empty = value
  | .busy => seen.exec node ≠ .waiting

def NotDrained (port : Nat) (early : List Obs) : Prop :=
  early = [.latched port false] ∨ early = [.dry port false, .latched port true]

inductive Tally : List Nat → List Obs → SchedulingContext → Prop
  | nil : Tally [] [] {}
  | drained {ports : List Nat} {port : Nat} {observed : List Obs} {context : SchedulingContext} :
      Tally ports observed context →
      Tally (ports ++ [port]) (.dry port true :: .latched port true :: observed) context
  | dry {ports : List Nat} {port : Nat} {early observed : List Obs}
      {context : SchedulingContext} :
      NotDrained port early → Tally ports observed context →
      Tally (ports ++ [port]) (.dry port true :: (early ++ observed))
        { context with expectedInputCount := context.expectedInputCount + 1 }
  | ready {ports : List Nat} {port : Nat} {early observed : List Obs}
      {context : SchedulingContext} :
      NotDrained port early → Tally ports observed context →
      Tally (ports ++ [port]) (.dry port false :: (early ++ observed))
        { context with
          expectedInputCount := context.expectedInputCount + 1
          readyInputCount := context.readyInputCount + 1
          readyPortMask := if port < 64 then context.readyPortMask ++ [port]
            else context.readyPortMask }

def Env.complete (env : Env) (node executions : Nat) (last : Int) (context : SchedulingContext) :
    SchedulingContext :=
  { context with
    executionCount := executions
    lastExecutionTime := last
    isSourceNode := env.graph.isSource node
    isSinkNode := env.graph.isSink node
    hasInitialInput := decide (0 < context.readyInputCount) }

def Env.Decides (env : Env) (node : Nat) (observed : List Obs) (decision : ScheduleDecision) :
    Prop :=
  ∃ tallied earlier context executions last now, observed = tallied ++ earlier ∧
    Tally (env.ports node) tallied context ∧
    (env.scheduler.shouldSchedule now (env.complete node executions last context)).decision =
      decision

def Env.AllDrained (env : Env) (node : Nat) (observed : List Obs) : Prop :=
  env.portCount node ≠ 0 ∧
    ∀ port < env.portCount node, [.dry port true, .latched port true].Sublist observed

def Env.SomeOpen (env : Env) (node : Nat) (observed : List Obs) : Prop :=
  env.portCount node = 0 ∨
    ∃ port < env.portCount node, .latched port false ∈ observed ∨ .dry port false ∈ observed

/-- How far a gather is: what it holds, what it saw latched and peeked, what it means to deliver,
and whether that may be less than a full set. -/
structure Gathering (π : Type) where
  held : List (Taken π) := []
  skipped : List Nat := []
  dry : Bool := false
  degraded : Bool := false
  peeked : Nat → Option (Taken π) := fun _ => none
  plan : List (Taken π) := []

/-- Inputs are matched by their heads and not just popped. -/
def Env.Matches (env : Env) (gathering : Gathering π) : Prop :=
  env.config.alignmentPolicy ≠ .frameId ∨ env.sync.isEnabled = true ∨ gathering.degraded = true

def Env.FindsNothing (env : Env) (node : Nat) (gathering : Gathering π) : Prop :=
  env.Matches gathering ∨
    env.portCount node ≠ 0 ∧ ∀ port < env.portCount node, port ∈ gathering.skipped

def Gathering.keep (gathering : Gathering π) (packet : Taken π) : Gathering π :=
  { gathering with held := gathering.held ++ [packet], dry := false }

def Gathering.peek (gathering : Gathering π) (head : Taken π) : Gathering π :=
  { gathering with peeked := Function.update gathering.peeked head.port (some head) }

def Gathering.unpeek (gathering : Gathering π) (port : Nat) : Gathering π :=
  { gathering with peeked := Function.update gathering.peeked port none }

def Gathering.Peeks (gathering : Gathering π) (port : Nat) (peeked : Nat → Option (Taken π))
    (found : Option (PortDataPtr π)) : Prop :=
  (∀ other, other ≠ port → peeked other = gathering.peeked other) ∧
    ∀ data, found = some data → ∃ head : Taken π,
      peeked port = some head ∧ head.port = port ∧ head.data = data

/-- The node's gathers look at the heads of all ports before they pop any of them. -/
def Env.Aligns (env : Env) (node : Nat) : Prop :=
  1 < env.portCount node ∧
    (env.config.alignmentPolicy ≠ .frameId ∨ env.sync.isEnabled = true)

def Env.Planned (env : Env) (node port : Nat) (gathering : Gathering π) : Prop :=
  env.Aligns node → ∃ head ∈ gathering.plan, gathering.peeked port = some head

def Env.Covers (env : Env) (node : Nat) (gathering : Gathering π) : Prop :=
  gathering.degraded = true ∨
    (gathering.held.map Taken.port).Pairwise (· < ·) ∧
      ∀ port < env.portCount node,
        port ∈ gathering.skipped ∨ port ∈ gathering.held.map Taken.port

/-- A packet that is being dropped, or a push that is being rejected: what the reports of it
will say, and whether the sync strategy is told. -/
structure Discard where
  node : Nat
  place : Option Place
  frame : Nat
  reason : String
  tells : Bool
  deriving DecidableEq

inductive Pressure where
  | calm
  | crowded
  | full
  deriving DecidableEq

inductive Stage (π : Type) where
  | announced
  | refused
  | rolledBack
  | posted
  /-- The task has seen that it need not stop. -/
  | admitted
  | gathering (progress : Gathering π)
  | calling (held : List (Taken π))
  | called (held : List (Taken π)) (outcome : Except String (PortDataMap π))
  | emitting
  | retrying
  | failing (quit : Bool)
  | restoring (quit : Bool)
  | released

inductive EosStage (π : Type) where
  | claimed (observed : List Obs)
  | losing
  | winning
  | flushing
  | flushed (outputs : PortDataMap π)
  | emitting
  | cascading (rest : List OutEdge)
  | counted (reached : Nat)
  | ending
  | over

inductive CallStage where
  | entered
  | batch
  | distributing (rest : List Nat)
  | launched
  | passed
  | sawStop (stop : Bool)
  | sawActive (stop : Bool) (active : Int)
  | expired
  | answer (result : Except Error Unit)

inductive Emission where
  | collecting
  | departing
  | routing (rest : List OutEdge)

inductive LifePhase where
  | plain
  /-- It has seen that no node is set up. -/
  | down
  | settingUp (rest : List Nat)
  | up
  | failed
  | tearing (rest : List Nat)
  deriving DecidableEq

/-- The held `m_engineMutex`; a reset has the stores of `wipes` still to make. -/
structure Lock where
  life : LifePhase := .plain
  wipes : Option (List Wipe) := none

inductive Frame (π : Type) where
  | crashed
  /-- The thread has seen the stop flag, or that the engine does not stream. -/
  | halted
  | batched
  /-- The thread is about to set the stop flag. -/
  | stopping
  | api (procedure : Proc π)
  /-- The thread is inside `reset()`. -/
  | resetting
  | deferring
  | watching
  | eval (node : Nat) (observed : List Obs)
  | check (node : Nat) (observed : List Obs)
  | flushed (node : Nat)
  | decided (node : Nat) (reason : Option (List Obs))
  | claimed (node : Nat) (reason : Option (List Obs))
  | task (id node : Nat) (stage : Stage π)
  | worker (id : Nat)
  | eos (node : Nat) (stage : EosStage π)
  | emit (node : Nat) (outputs : PortDataMap π) (stage : Emission)
  | pushing (node port : Nat) (data : PortDataPtr π) (route : Route) (pressure : Pressure)
  | loose (node : Nat) (packet : Taken π) (plan : List (Taken π))
  /-- The sync strategy has asked for the drop of a frame. -/
  | asked (node frame : Nat)
  | condemned (discard : Discard)
  | counted (discard : Discard)
  | owing (discard : Discard)
  | settling (id : Nat) (readings : Option (List (Nat × Nat)))
  | reporting (id run : Nat) (results : Option (PortDataMap π))
  | engineLock (lock : Lock)
  | call (wait : Bool) (inputs : PortDataMap π) (stage : CallStage)
  | feed (inputs : PortDataMap π)

/-- A packet is dropped without a pause: counted, called back about, told to the strategy. -/
abbrev Frame.urgent : Frame π → Bool
  | .condemned _ => true
  | .counted _ => true
  | .owing _ => true
  | _ => false

end AiPipe
