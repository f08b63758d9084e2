import AiPipe.Engine.Gather

/-!
Scheduling attempts, posted tasks, output propagation and end-of-stream handling.
-/

namespace AiPipe

open Concurrency

variable {π : Type}

def stopIfRunning : Code π Unit := do
  if (← read State.engineState) = .running then
    store fun state => { state with engineState := .stopped }
  else .ret ()

def stopExecutionAsync : Code π Unit := do
  let first ← (.act .internal (fun _ state =>
    some (!state.stopFlag, { state with stopFlag := true })) .ret : Code π Bool)
  if first then withEngineLock stopIfRunning else .ret ()

def isStopRequested : Code π Bool := do
  if ← read State.stopFlag then .ret true
  else do
    match ← read State.currentContext with
    | none => .ret false
    | some context => do
        if ← read fun state => state.cancelled context then do
          stopExecutionAsync
          .ret true
        else .ret false

def invokeErrorCallback (message node : String) : Code π Unit :=
  store fun state => state.updateHistory fun history =>
    { history with errorCallbacks := history.errorCallbacks ++ [(message, node)] }

/-- `m_activeTasks.fetch_add(1)`; the task is known by its number from here on. -/
def announceTask (node : Nat) : Code π Nat :=
  .act .internal (fun _ state => some (state.history.tasks.length,
    { state with
      activeTasks := state.activeTasks + 1
      history := { state.history with
        tasks := state.history.tasks ++ [⟨node, state.history.run⟩] } })) .ret

def decrementTask (task : Nat) : Code π Unit :=
  store fun state =>
    { state with
      activeTasks := state.activeTasks - 1
      history := { state.history with decremented := state.history.decremented ++ [task] } }

def endTask (task : Nat) : Code π Unit :=
  store fun state => state.updateHistory fun history =>
    { history with ended := history.ended ++ [task] }

/-- `m_threadPool->post`: the answer says whether the pool accepted the task. -/
def postTask (node : Nat) : Code π Bool :=
  .act (.post node) (fun choice state => some (choice.posted, state)) .ret

def countInputs (node : Nat) : List Nat → SchedulingContext → Code π SchedulingContext
  | [], context => .ret context
  | port :: rest, context => do
      if ← portDrained node port then countInputs node rest context
      else do
        let expected := context.expectedInputCount + 1
        if ← portEmpty node port then
          countInputs node rest { context with expectedInputCount := expected }
        else
          countInputs node rest { context with
            expectedInputCount := expected
            readyInputCount := context.readyInputCount + 1
            readyPortMask := if port < 64 then context.readyPortMask ++ [port]
              else context.readyPortMask }

def collectSinkCounts (name : Nat → String) : List Nat → Code π (List (String × Nat))
  | [] => .ret []
  | sink :: rest => do
      let executions ← read fun state => (state.node sink).executionCount
      let counts ← collectSinkCounts name rest
      .ret ((name sink, executions) :: counts)

/-- The identity of the first identified input is given to outputs that have none. -/
def inheritFrameIdentity (inputs outputs : PortDataMap π) : PortDataMap π :=
  match inputs.findSome? fun entry => identified entry.2 with
  | none => outputs
  | some primary => outputs.map fun entry => (entry.1, entry.2.map fun packet =>
    if packet.hasFrameId then packet
    else { packet with
      id := primary.id
      streamId := primary.streamId
      timestamp := if packet.timestamp = 0 then primary.timestamp else packet.timestamp })

namespace Env

variable (env : Env)

def checkCompletionAndNotify : Code π Unit := do
  if ← read State.streamingMode then .ret ()
  else do
    let active ← read State.activeTasks
    if active ≠ 0 then .ret ()
    else do
      let counts ← collectSinkCounts env.graph.name env.graph.sinkNodes
      external
      if (env.scheduler.checkCompletion active 0 counts).isComplete then do
        let claimed ← (.act .claimCompletion (fun _ state => some (
          if state.completionReported then none else some state.history.run,
          { state with completionReported := true })) .ret : Code π (Option Nat))
        match claimed with
        | none => .ret ()
        | some run => do
            store fun state => if state.engineState = .running
              then { state with engineState := .idle } else state
            let results ← read State.accumulatedResults
            store fun state => state.updateHistory fun history =>
              { history with published := history.published ++ [(run, results)] }
      else .ret ()

def scheduleNodeExecution (node : Nat) : Code π Unit := do
  if ← casExecAs (.claimTask node) node .waiting .ready then do
    let task ← announceTask node
    let context ← read State.currentContext
    if ← postTask node then .spawn (.runTask task node context) (.ret ())
    else do
      setExec node .waiting
      decrementTask task
      env.checkCompletionAndNotify
      endTask task
  else .ret ()

def scheduleDeferredRetry (node : Nat) (delay : Int) : Code π Unit := do
  if ← read State.stopFlag then .ret ()
  else do
    let armed ← (.act .internal (fun _ state => some ((state.node node).deferPending,
      state.updateNode node fun entry => { entry with deferPending := true })) .ret : Code π Bool)
    if armed then .ret ()
    else do
      let now ← clock
      let timer ← (.act .internal (fun _ state =>
        let queued := { state with
          deferQueue := state.deferQueue ++ [(now + max 1 delay * nanosPerMilli, node)] }
        if state.deferRunning then some (none, queued)
        else some (some state.deferTimersStarted, { queued with
          deferStop := false
          deferRunning := true
          deferTimer := some state.deferTimersStarted
          deferTimersStarted := state.deferTimersStarted + 1 })) .ret : Code π (Option Nat))
      match timer with
      | none => .ret ()
      | some number => .spawn (.deferTimerLoop number) (.ret ())

def tryScheduleNode (node : Nat) : Code π Unit := do
  if ← isStopRequested then .ret ()
  else if env.graph.nodeCount ≤ node then .ret ()
  else if (← read fun state => state.exec node) ≠ .waiting then .ret ()
  else if ← env.allInputPortsDrained node then do
    let context ← read State.currentContext
    let _ ← Prog.invoke (.checkNodeEndOfStream node context)
    .ret ()
  else do
    let counted ← countInputs node (env.ports node) {}
    let executionCount ← read fun state => (state.node node).executionCount
    let lastExecutionTime ← read fun state => (state.node node).lastExecutionTicks
    external
    let now ← clock
    let result := env.scheduler.shouldSchedule now { counted with
      executionCount
      lastExecutionTime
      isSourceNode := env.graph.isSource node
      isSinkNode := env.graph.isSink node
      hasInitialInput := decide (0 < counted.readyInputCount) }
    match result.decision with
    | .scheduleNow => env.scheduleNodeExecution node
    | .deferToNextCycle => scheduleDeferredRetry node (result.retryDelay.getD 1)
    | _ => .ret ()

def propagateEdge (node : Nat) (outputs : PortDataMap π) (edge : OutEdge) : Code π Unit :=
  match outputs.find edge.sourcePort with
  | none => .ret ()
  | some data =>
    if env.graph.nodeCount ≤ edge.destNode then .ret ()
    else match edge.destPortIndex with
      | none => .ret ()
      | some port =>
        if env.portCount edge.destNode ≤ port then .ret ()
        else do
          if ← env.push edge.destNode port data (.edge node edge) then
            env.tryScheduleNode edge.destNode
          else env.recordQueueRejection edge.destNode

def propagateOutputs (node : Nat) (outputs : PortDataMap π) : Code π Unit := do
  if ← read State.stopFlag then .ret ()
  else Prog.forEach (env.propagateEdge node outputs) (env.graph.outEdges node)

def collectResults (node : Nat) (outputs : PortDataMap π) : Code π Unit :=
  let entries := outputs.map fun entry => (env.graph.name node ++ ":" ++ entry.1, entry.2)
  store fun state =>
    { state with
      accumulatedResults := entries.foldl (fun results entry =>
        PortDataMap.insert entry.1 entry.2 results) state.accumulatedResults
      history := { state.history with
        collected := state.history.collected ++ [(state.history.run, entries)] } }

def collectSink (node : Nat) (outputs : PortDataMap π) : Code π Unit :=
  if env.graph.isSink node then do
    count fun statistics =>
      { statistics with totalOutputFrames := statistics.totalOutputFrames + 1 }
    env.collectResults node outputs
  else .ret ()

def recordSinkEndOfStream : Code π Unit := do
  let reached ← (.act .internal (fun _ state => some (state.sinksAtEos + 1,
    { state with sinksAtEos := state.sinksAtEos + 1 })) .ret : Code π Nat)
  let sinkCount := env.graph.sinkNodes.length
  if sinkCount = 0 ∨ reached < sinkCount then .ret ()
  else do
    let before ← (.act .internal (fun _ state => some (state.endOfStreamReached,
      { state with endOfStreamReached := true })) .ret : Code π Bool)
    if before then .ret ()
    else store fun state => state.updateHistory fun history =>
      { history with
        endOfStreamCallbacks := history.endOfStreamCallbacks + 1
        runEndCallbacks := history.runEndCallbacks + 1 }

def latchPortEos (node : Nat) (port : Option Nat) (context : Option Nat) : Code π Unit :=
  match port with
  | none => .ret ()
  | some index =>
    if kMaxEosPorts ≤ index then .ret ()
    else do
      storeAs (.cascadeLatch node index) fun state => state.updateNode node fun entry =>
        { entry with eosMask := Function.update entry.eosMask index true }
      let _ ← Prog.invoke (.checkNodeEndOfStream node context)
      .ret ()

/-- `onEndOfStream()`; a hook that throws is reported and emits nothing. -/
def flushNode (node : Nat) : Code π (PortDataMap π) := do
  store fun state => state.updateNode node fun entry =>
    { entry with flushes := entry.flushes + 1, flushing := entry.flushing + 1 }
  let outcome ← (.act (.flush node) (fun choice state => some (choice.outcome,
    state.updateNode node fun entry =>
      { entry with flushing := entry.flushing - 1, flushed := true })) .ret :
    Code π (Except String (PortDataMap π)))
  match outcome with
  | .ok outputs => .ret outputs
  | .error message => do
      count fun statistics =>
        { statistics with failedExecutions := statistics.failedExecutions + 1 }
      invokeErrorCallback ("onEndOfStream: " ++ message) (env.graph.name node)
      .ret []

def casFlush (node : Nat) (expected : NodeExecutionState) : Code π Bool :=
  .act (.claimEos node) (fun _ state =>
    if state.exec node = expected then some (true, state.updateNode node fun entry =>
      { entry with execState := .executing, finishing := entry.finishing + 1 })
    else some (false, state)) .ret

def claimForFlush (node : Nat) : Code π Bool := do
  if ← casFlush node .waiting then .ret true else casFlush node .completed

def cascadeEdge (context : Option Nat) (edge : OutEdge) : Code π Unit :=
  if env.graph.nodeCount ≤ edge.destNode then .ret ()
  else latchPortEos edge.destNode edge.destPortIndex context

def finishEndOfStream (node : Nat) (context : Option Nat) : Code π Unit := do
  let outputs ← env.flushNode node
  env.emitTrace
  if outputs.isEmpty then .ret ()
  else do
    env.collectSink node outputs
    env.propagateOutputs node outputs
  setExec node .completed
  Prog.forEach (env.cascadeEdge context) (env.graph.outEdges node)
  if env.graph.isSink node then env.recordSinkEndOfStream else .ret ()
  store fun state => state.updateNode node fun entry =>
    { entry with finishing := entry.finishing - 1 }

def checkNodeEndOfStream (node : Nat) (context : Option Nat) : Code π (Answer π) := do
  if !(← read State.streamingMode) then .ret (.flag false)
  else if ← read State.stopFlag then .ret (.flag false)
  else if ← read fun state => (state.node node).eosPropagated then .ret (.flag false)
  else if !(← env.allInputPortsDrained node) then .ret (.flag false)
  else if !(← claimForFlush node) then .ret (.flag false)
  else do
    let before ← (.act .internal (fun _ state => some ((state.node node).eosPropagated,
      state.updateNode node fun entry => { entry with eosPropagated := true })) .ret :
      Code π Bool)
    if before then do
      store fun state => state.updateNode node fun entry =>
        { entry with execState := .waiting, finishing := entry.finishing - 1 }
      .ret (.flag false)
    else do
      env.finishEndOfStream node context
      .ret (.flag true)

/-- `process()`; a node that throws is reported. -/
def processNode (node : Nat) (taken : List (Taken π)) :
    Code π (Except String (PortDataMap π)) := do
  store fun state => state.updateNode node fun entry =>
    { entry with calls := entry.calls ++ [taken], processing := entry.processing + 1 }
  let outcome ← (.act (.process node taken) (fun choice state => some (choice.outcome,
    state.updateNode node fun entry => { entry with processing := entry.processing - 1 })) .ret :
    Code π (Except String (PortDataMap π)))
  match outcome with
  | .ok outputs => .ret (.ok outputs)
  | .error message => do
      invokeErrorCallback message (env.graph.name node)
      .ret (.error message)

def markProcessed (node : Nat) (inputs : PortDataMap π) : Code π Unit :=
  if env.syncTracked node then
    match inputs.findSome? fun entry => identified entry.2 with
    | none => .ret ()
    | some packet => do
        external
        store fun state => { state with
          syncEvents := state.syncEvents ++ [.processed (env.graph.name node) packet.id] }
  else .ret ()

def handleNodeSuccess (node : Nat) (outputs : PortDataMap π) : Code π Unit := do
  store fun state => state.updateNode node fun entry =>
    { entry with executionCount := entry.executionCount + 1 }
  let now ← clock
  store fun state => state.updateNode node fun entry => { entry with lastExecutionTicks := now }
  count fun statistics =>
    { statistics with successfulExecutions := statistics.successfulExecutions + 1 }
  env.collectSink node outputs
  env.propagateOutputs node outputs
  if outputs.isEmpty then .ret () else env.emitTrace
  external
  if env.scheduler.onNodeComplete node true then do
    setExec node .waiting
    env.tryScheduleNode node
  else setExec node .completed

def handleNodeFailure (node : Nat) : Code π Unit := do
  count fun statistics =>
    { statistics with failedExecutions := statistics.failedExecutions + 1 }
  if ← read State.streamingMode then do
    setExec node .waiting
    env.tryScheduleNode node
  else do
    setExec node .failed
    stopExecutionAsync

def finishExecution (node : Nat) (taken : List (Taken π))
    (outcome : Except String (PortDataMap π)) : Code π Unit := do
  if ← read State.stopFlag then setExec node .waiting
  else match outcome with
    | .ok outputs => do
        let inputs := inputsOf (env.graph.inputPorts node) taken
        env.markProcessed node inputs
        env.handleNodeSuccess node (inheritFrameIdentity inputs outputs)
    | .error _ => env.handleNodeFailure node

def retryOrFail (node : Nat) (context : Option Nat) : Code π Unit := do
  let transient ← (do
    if ← read State.streamingMode then .ret (!(← read State.stopFlag)) else .ret false :
    Code π Bool)
  if transient then do
    setExec node .waiting
    if (← Prog.invoke (.checkNodeEndOfStream node context)).isTrue then .ret ()
    else env.tryScheduleNode node
  else env.handleNodeFailure node

def executeNode (node : Nat) (context : Option Nat) : Code π Unit := do
  match ← env.gatherNodeInputs node with
  | none => env.retryOrFail node context
  | some taken => do
      count fun statistics =>
        { statistics with totalExecutions := statistics.totalExecutions + 1 }
      let outcome ← env.processNode node taken
      env.emitTrace
      env.finishExecution node taken outcome
      let _ ← Prog.invoke (.checkNodeEndOfStream node context)
      .ret ()

def executeNodeTask (task node : Nat) (context : Option Nat) : Code π Unit := do
  if env.graph.nodeCount ≤ node then .ret ()
  else if ← isStopRequested then setExec node .waiting
  else if ← casExec node .ready .executing then env.executeNode node context
  else .ret ()
  decrementTask task
  env.checkCompletionAndNotify

def runTask (task node : Nat) (context : Option Nat) : Code π (Answer π) :=
  (do
    if env.graph.nodeCount ≤ node then .ret () else env.emitTrace
    env.executeNodeTask task node context : Code π Unit).onExit fun _ => do
  endTask task
  .ret .done

end Env

end AiPipe
