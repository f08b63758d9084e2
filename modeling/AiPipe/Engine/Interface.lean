import AiPipe.Engine.Execution

/-!
The calls that clients make, the timer threads, and the table of all procedures.
-/

namespace AiPipe

open Concurrency

variable {π : Type}

def note (change : History π → History π) : Code π Unit :=
  store fun state => state.updateHistory change

def completionReached (state : State π) : Bool := state.activeTasks == 0 || state.stopFlag

def EngineState.toString : EngineState → String
  | .idle => "IDLE"
  | .running => "RUNNING"
  | .stopped => "STOPPED"
  | .error => "ERROR"

def stopExecutionSync : Code π Unit := do
  stopExecutionAsync
  await .internal fun state => state.activeTasks == 0
  withEngineLock stopIfRunning

def stopDeferTimer (nodeCount : Nat) : Code π Unit := do
  let running ← (.act .internal (fun _ state =>
    if state.deferRunning then some (some state.deferTimer, { state with
      deferStop := true, deferQueue := [], deferTimer := none, deferRunning := false })
    else some (none, state)) .ret : Code π (Option (Option Nat)))
  match running with
  | none => .ret ()
  | some timer => do
      await .internal fun state => timer.all fun number => number ∈ state.deferTimersEnded
      Prog.forEach (fun node => store fun state => state.updateNode node fun entry =>
        { entry with deferPending := false }) (List.range nodeCount)

def stopJoinTimeoutWatchdog : Code π Unit := do
  let watchdog ← (.act .internal (fun _ state =>
    if state.watchdogMutex then none
    else some (state.joinWatchdog, { state with watchdogStop := true })) .ret :
    Code π (Option Nat))
  await .internal fun state => watchdog.all fun number => number ∈ state.watchdogsEnded

def startJoinTimeoutWatchdog : Code π Unit := do
  stopJoinTimeoutWatchdog
  store fun state => { state with watchdogStop := false }
  let watchdog ← (.act .internal (fun _ state => some (state.watchdogsStarted, { state with
    joinWatchdog := some state.watchdogsStarted
    watchdogsStarted := state.watchdogsStarted + 1 })) .ret : Code π Nat)
  .spawn (.joinTimeoutWatchdogLoop watchdog) (.ret ())

def earliestDue (queue : List (Int × Nat)) : Option (Int × Nat) :=
  queue.foldl (fun earliest entry => match earliest with
    | none => some entry
    | some best => if entry.1 < best.1 then some entry else some best) none

namespace Env

variable (env : Env)

def deferTimerLoop (timer : Nat) : Code π (Answer π) := do
  let due ← (.act .internal (fun choice state =>
    if state.deferStop then some (none, state)
    else match earliestDue state.deferQueue with
      | none => none
      | some entry =>
        if choice.now < entry.1 then none
        else some (some entry.2, { state with deferQueue := state.deferQueue.erase entry })) .ret :
    Code π (Option Nat))
  match due with
  | none => do
      store fun state => { state with deferTimersEnded := state.deferTimersEnded ++ [timer] }
      .ret .done
  | some node => do
      store fun state => state.updateNode node fun entry => { entry with deferPending := false }
      env.tryScheduleNode node
      Prog.invoke (.deferTimerLoop timer)

def countReadyPorts (node : Nat) : List Nat → Nat → Code π Nat
  | [], ready => .ret ready
  | port :: rest, ready => do
      if ← portEmpty node port then countReadyPorts node rest ready
      else countReadyPorts node rest (ready + 1)

def watchJoin (now : Int) (node : Nat) : Code π Unit := do
  let ready ← countReadyPorts node (env.ports node) 0
  if ready = 0 ∨ ready = env.portCount node then
    store fun state => state.updateNode node fun entry => { entry with joinWaitSinceTicks := 0 }
  else do
    let since ← read fun state => (state.node node).joinWaitSinceTicks
    if since = 0 then
      store fun state => state.updateNode node fun entry =>
        { entry with joinWaitSinceTicks := now }
    else if now - since < env.config.joinWaitTimeout * nanosPerMilli then .ret ()
    else do
      store fun state => state.updateNode node fun entry =>
        { entry with joinWaitSinceTicks := now }
      store fun state => state.updateNode node fun entry => { entry with degradePending := true }
      env.scheduleNodeExecution node

def joinTimeoutWatchdogLoop (watchdog : Nat) : Code π (Answer π) := do
  let ticked ← (.act .internal (fun _ state =>
    if state.watchdogMutex then none
    else if state.watchdogStop then some (false, state)
    else some (true, { state with watchdogMutex := true })) .ret : Code π Bool)
  if ticked then do
    if ← read State.stopFlag then .ret ()
    else do
      let now ← clock
      Prog.forEach (env.watchJoin now) env.multiInputIndices
    store fun state => { state with watchdogMutex := false }
    Prog.invoke (.joinTimeoutWatchdogLoop watchdog)
  else do
    store fun state => { state with watchdogsEnded := state.watchdogsEnded ++ [watchdog] }
    .ret .done

def distributeTo (inputs : PortDataMap π) (node : Nat) : Code π (Option Bool) :=
  match inputs.find (env.graph.name node) with
  | some data => do
      let stamped ← env.stampIncomingFrame data
      match env.graph.inputPorts node with
      | [] => do
          env.tryScheduleNode node
          .ret (some true)
      | port :: _ => do
          if ← env.pushToQueue node port stamped .initial then do
            count fun statistics =>
              { statistics with totalInputFrames := statistics.totalInputFrames + 1 }
            env.tryScheduleNode node
            .ret (some true)
          else .ret none
  | none =>
    if env.portCount node = 0 then do
      env.tryScheduleNode node
      .ret (some true)
    else .ret (some false)

def distributeLoop (inputs : PortDataMap π) : List Nat → Bool → Code π Bool
  | [], hasScheduled => .ret (hasScheduled || inputs.isEmpty)
  | node :: rest, hasScheduled => do
      match ← env.distributeTo inputs node with
      | none => .ret false
      | some scheduled => distributeLoop inputs rest (hasScheduled || scheduled)

def distributeInitialInputs (inputs : PortDataMap π) : Code π Bool :=
  env.distributeLoop inputs env.graph.sourceNodes false

def settleCompletion (wasStopped : Bool) (activeTasks : Int) (current : EngineState) :
    Code π (Except Error Unit) :=
  if wasStopped && current != .stopped then do
    store fun state => { state with engineState := .stopped }
    store fun state => { state with currentContext := none }
    .ret (.error ⟨.executionStopped, "Execution was stopped externally", ""⟩)
  else if activeTasks == 0 && (current == .running || current == .idle) then do
    store fun state => { state with engineState := .idle }
    store fun state => { state with currentContext := none }
    .ret (.ok ())
  else if current != .error && current != .stopped then do
    store fun state => { state with engineState := .error }
    store fun state => { state with currentContext := none }
    .ret (.error ⟨.executionFailed, "Execution finished abnormally", ""⟩)
  else do
    store fun state => { state with currentContext := none }
    .ret (.error ⟨.executionFailed, "Execution ended in " ++ current.toString ++ " state", ""⟩)

def finishWait : Code π (Except Error Unit) := do
  let wasStopped ← read State.stopFlag
  let activeTasks ← read State.activeTasks
  let current ← read State.engineState
  withEngineLock (settleCompletion wasStopped activeTasks current)

def waitForCompletion : Option Nat → Code π (Except Error Unit)
  | none => do
      await .waiterTest completionReached
      finishWait
  | some timeout => do
      if ← awaitOrExpire .waiterTest completionReached then finishWait
      else do
        match ← read State.currentContext with
        | some context => storeAs (.cancel context) fun state => { state with
            cancelled := Function.update state.cancelled context true }
        | none => .ret ()
        stopExecutionAsync
        store fun state => { state with currentContext := none }
        .ret (.error ⟨.executionTimeout,
          "Execution timed out after " ++ toString timeout ++ "ms", ""⟩)

def launch (inputs : PortDataMap π) (wait : Bool) (timeout : Option Nat) :
    Code π (Except Error Unit) := do
  if ← env.distributeInitialInputs inputs then do
    note fun history => { history with distributed := true }
    if wait then waitForCompletion timeout else .ret (.ok ())
  else do
    withEngineLock (do
      store fun state => { state with engineState := .error }
      store fun state => { state with currentContext := none })
    .ret (.error ⟨.executionFailed, "Failed to distribute initial inputs to source nodes", ""⟩)

/-- `teardown()` of the nodes that are set up, the last one first; what it throws is only
logged. -/
def teardownNodes : Code π Unit := do
  let nodes ← read State.setUpNodes
  Prog.forEach (fun node => storeAs (.teardown node) fun state =>
    state.updateHistory fun history =>
      { history with lifecycle := history.lifecycle ++ [.teardown node] }) nodes.reverse
  store fun state => { state with setUpNodes := [] }

/-- `setup()` of one node: nothing, or the error of a node that answers one or throws. -/
def setupNode (node : Nat) : Code π (Option Error) :=
  .act (.setup node) (fun choice state =>
    match choice.outcome with
    | .ok _ => some (none, { state with
        setUpNodes := state.setUpNodes ++ [node]
        history := { state.history with
          lifecycle := state.history.lifecycle ++ [.setup node] } })
    | .error message => some (
        some ⟨.nodeException, if choice.throws then "setup threw: " ++ message else message,
          env.graph.name node⟩,
        state.updateHistory fun history =>
          { history with lifecycle := history.lifecycle ++ [.setupFailed node] })) .ret

def setupEach : List Nat → Code π (Except Error Unit)
  | [] => .ret (.ok ())
  | node :: rest => do
      match ← env.setupNode node with
      | none => setupEach rest
      | some error => do
          teardownNodes
          .ret (.error error)

def setupNodes : Code π (Except Error Unit) := do
  if (← read State.setUpNodes) = [] then env.setupEach env.graph.topologicalOrder
  else .ret (.ok ())

def clearQueues (node : Nat) : Code π Unit :=
  Prog.forEach (fun port => wipe (.queue node port)) (env.ports node)

def resetNodeState (node : Nat) : Code π Unit := do
  wipe (.exec node)
  wipe (.executionCount node)
  wipe (.joinWait node)
  wipe (.degradePending node)
  wipe (.eosMask node)
  wipe (.eosPropagated node)
  env.clearQueues node

def resetInternalState : Code π Unit := do
  wipe .beginClear
  wipe .beginRun
  wipe .counter
  wipe .completionReported
  wipe .frameIds
  wipe .sinksAtEos
  wipe .endOfStream
  wipe .streamFrameIds
  wipe .results
  Prog.forEach env.resetNodeState (List.range env.graph.nodeCount)
  wipe .endClear

def beginExecution (context : Option Nat) : Code π (Except Error Unit) := do
  if (← read State.engineState) = .running then
    .ret (.error ⟨.alreadyRunning, "Engine is already running", ""⟩)
  else do
    store fun state => { state with currentContext := context }
    match ← env.setupNodes with
    | .error error => do
        store fun state => { state with engineState := .error }
        store fun state => { state with currentContext := none }
        .ret (.error error)
    | .ok () => do
        env.resetInternalState
        match ← read State.currentContext with
        | some active => store fun state => { state with
            cancelled := Function.update state.cancelled active false }
        | none => .ret ()
        store fun state => { state with engineState := .running }
        .ret (.ok ())

def nodeNotFound (node : String) : Error := ⟨.nodeNotFound, "Unknown node: " ++ node, node⟩

def portNotFound (port node : String) : Error :=
  ⟨.portNotFound, "Port '" ++ port ++ "' not found on node: " ++ node, node⟩

structure RouteCounts where
  routed : Nat := 0
  rejected : Nat := 0
  queueSize : Nat := 0

def routeEdges (data : PortDataPtr π) : List OutEdge → RouteCounts → Code π RouteCounts
  | [], counts => .ret counts
  | edge :: rest, counts => do
      if ← env.pushToQueue edge.destNode edge.destPort data .routed then do
        count fun statistics =>
          { statistics with totalQueuePushes := statistics.totalQueuePushes + 1 }
        count fun statistics =>
          { statistics with totalInputFrames := statistics.totalInputFrames + 1 }
        env.tryScheduleNode edge.destNode
        let size ← env.getQueueSize edge.destNode edge.destPort
        routeEdges data rest { counts with
          routed := counts.routed + 1
          queueSize := counts.queueSize + size }
      else routeEdges data rest { counts with rejected := counts.rejected + 1 }

def routeToDownstream (node : Nat) (port : String) (data : PortDataPtr π) :
    Code π (Except Error PushStatus) := do
  let edges := (env.graph.outEdges node).filter fun edge => edge.sourcePort == port
  let counts ← env.routeEdges data edges {}
  let name := env.graph.name node
  if counts.routed = 0 then
    if 0 < counts.rejected then
      .ret (.error ⟨.queueRejected,
        "All downstream queues rejected data for port: " ++ port, name⟩)
    else .ret (.error ⟨.noDownstreamConnection,
        "No downstream connections for port: " ++ port, name⟩)
  else if 0 < counts.rejected then
    .ret (.ok (.dropped ("rejected on " ++ toString counts.rejected ++ " of " ++
      toString (counts.routed + counts.rejected) ++ " downstream branches") counts.queueSize))
  else .ret (.ok (.enqueued counts.queueSize))

def actualPort (node : Nat) (port : String) : String :=
  if port != "" then port
  else
    let first := (env.graph.inputPorts node).headD ""
    if first != "" then first else (env.graph.outputPorts node).headD ""

def pushToPort (node index : Nat) (port : String) (data : PortDataPtr π) :
    Code π (Except Error PushStatus) := do
  let name := env.graph.name node
  if ← portEosLatched node index then
    .ret (.error ⟨.endOfStreamSignaled, "Port is at end of stream: " ++ port, name⟩)
  else do
    let stamped ← env.stampIncomingFrame data
    if ← env.pushToQueue node port stamped .input then do
      count fun statistics =>
        { statistics with totalQueuePushes := statistics.totalQueuePushes + 1 }
      count fun statistics =>
        { statistics with totalInputFrames := statistics.totalInputFrames + 1 }
      env.tryScheduleNode node
      let size ← env.getQueueSize node port
      .ret (.ok (.enqueued size))
    else .ret (.error ⟨.queueRejected, "Queue full (DropTail) on port: " ++ port, name⟩)

def pushInput (name port : String) (data : PortDataPtr π) :
    Code π (Except Error PushStatus) := do
  let accepting ← (do
    if ← read State.streamingMode then .ret true
    else .ret ((← read State.engineState) == .running) : Code π Bool)
  if !accepting then .ret (.error ⟨.notStreaming, "Not in streaming/running mode", ""⟩)
  else match env.graph.indexOf name with
    | none => .ret (.error (nodeNotFound name))
    | some node =>
      let actual := env.actualPort node port
      if actual = "" then .ret (.error ⟨.portNotFound, "No ports for node: " ++ name, name⟩)
      else match env.portIndex node actual with
        | some index => env.pushToPort node index actual data
        | none =>
          if actual ∈ env.graph.outputPorts node then
            env.routeToDownstream node actual data
          else .ret (.error (portNotFound actual name))

def pushEach : PortDataMap π → Code π (Except Error Unit)
  | [] => .ret (.ok ())
  | entry :: rest => do
      match ← env.pushInput entry.1 "" entry.2 with
      | .error error => .ret (.error error)
      | .ok _ => pushEach rest

def executeStreaming (inputs : PortDataMap π) (wait : Bool) : Code π (Except Error Unit) := do
  match ← env.pushEach inputs with
  | .error error => .ret (.error error)
  | .ok () => do
      if wait then await .internal completionReached else .ret ()
      .ret (.ok ())

def execute (inputs : PortDataMap π) (wait : Bool) (context timeout : Option Nat) :
    Code π (Except Error Unit) := do
  if ← read State.streamingMode then env.executeStreaming inputs wait
  else do
    match ← withEngineLock (env.beginExecution context) with
    | .error error => .ret (.error error)
    | .ok () => env.launch inputs wait timeout

def startStreaming (context : Option Nat) : Code π (Except Error Unit) :=
  withEngineLock (do
    if (← read State.engineState) ≠ .idle then
      .ret (.error ⟨.invalidState, "Cannot start streaming - engine is not idle", ""⟩)
    else if !env.scheduler.supportsStreaming then
      .ret (.error ⟨.streamingNotSupported,
        "Current scheduler strategy does not support streaming mode", ""⟩)
    else do
      match ← env.setupNodes with
      | .error error => .ret (.error error)
      | .ok () => do
          match context with
          | some active => store fun state => { state with
              cancelled := Function.update state.cancelled active false }
          | none => .ret ()
          store fun state => { state with currentContext := context }
          store fun state => { state with completionReported := false }
          store fun state => { state with streamingMode := true }
          storeAs .clearStop fun state => { state with stopFlag := false }
          store fun state => { state with engineState := .running }
          count fun _ => {}
          if 0 < env.config.joinWaitTimeout ∧ env.multiInputIndices ≠ [] then
            startJoinTimeoutWatchdog
          else .ret ()
          .ret (.ok ()))

def allQueuesDrained (maxDepth : Nat) (state : State π) : Bool :=
  (List.range env.graph.nodeCount).all fun node => (env.ports node).all fun port =>
    decide ((state.queue node port).size ≤ maxDepth)

def waitForDrain (maxDepth timeout : Nat) : Code π (Except Error Unit) := do
  if ← awaitOrExpire .internal fun state =>
      state.stopFlag || state.activeTasks == 0 && env.allQueuesDrained maxDepth state then
    .ret (.ok ())
  else .ret (.error ⟨.executionTimeout,
    "waitForDrain timed out after " ++ toString timeout ++ "ms", ""⟩)

def stopStreaming (drain : Bool) : Code π Unit := do
  let streaming ← withEngineLock (do
    if ← read State.streamingMode then do
      storeAs .stopStreaming fun state =>
        { state with
          stopFlag := true
          history := { state.history with stopping := state.history.stopping + 1 } }
      .ret true
    else .ret false)
  if streaming then do
    stopJoinTimeoutWatchdog
    if drain then do
      let _ ← env.waitForDrain 0 5000
      .ret ()
    else .ret ()
    await .internal fun state => state.activeTasks == 0
    withEngineLock (do
      store fun state => { state with streamingMode := false }
      store fun state => { state with engineState := .idle })
    note fun history => { history with stopping := history.stopping - 1 }
  else .ret ()

def clearNodeState (node : Nat) : Code π Unit := do
  wipe (.exec node)
  wipe (.executionCount node)
  wipe (.eosMask node)
  wipe (.eosPropagated node)
  env.clearQueues node

def reset : Code π Unit := do
  stopExecutionSync
  stopDeferTimer env.graph.nodeCount
  withEngineLock (do
    wipe .beginClear
    Prog.forEach env.clearNodeState (List.range env.graph.nodeCount)
    external
    external
    store fun state => { state with syncEvents := state.syncEvents ++ [.reset] }
    teardownNodes
    wipe .results
    wipe .counter
    wipe .completionReported
    wipe .stopFlag
    wipe .streamingMode
    wipe .sinksAtEos
    wipe .endOfStream
    wipe .engineState
    wipe .endClear
    count fun _ => {})

/-- The first half of `initialize()`, which gives up the nodes of the graph that the engine
has; with a graph that does not compile there is no second half. -/
def releaseGraph : Code π Unit :=
  withEngineLock (do
    stopJoinTimeoutWatchdog
    stopDeferTimer env.graph.nodeCount
    teardownNodes)

/-- The destructor; that no other call overlaps it stands for a lock. -/
def destroy : Code π Unit := do
  stopJoinTimeoutWatchdog
  stopDeferTimer env.graph.nodeCount
  await .internal fun state =>
    (List.range state.history.tasks.length).all fun task => state.history.ended.contains task
  withEngineLock teardownNodes

def signalEndOfStream (name port : String) : Code π (Except Error Unit) := do
  if !(← read State.streamingMode) then
    .ret (.error ⟨.notStreaming, "signalEndOfStream requires streaming mode", ""⟩)
  else match env.graph.indexOf name with
    | none => .ret (.error (nodeNotFound name))
    | some node =>
      if env.portCount node = 0 then
        .ret (.error ⟨.portNotFound, "Node has no input port to close: " ++ name, name⟩)
      else
        let actual := if port != "" then port else (env.graph.inputPorts node).headD ""
        match env.portIndex node actual with
        | none => .ret (.error (portNotFound actual name))
        | some index =>
          if kMaxEosPorts ≤ index then
            .ret (.error ⟨.invalidArgument,
              "Port index beyond the end-of-stream limit on: " ++ name, name⟩)
          else do
            let before ← (.act (.signalLatch node index) (fun _ state => some (
              (state.node node).eosMask index, state.updateNode node fun entry =>
                { entry with eosMask := Function.update entry.eosMask index true })) .ret :
              Code π Bool)
            if before then
              .ret (.error ⟨.endOfStreamSignaled,
                "Port already at end of stream: " ++ actual, name⟩)
            else do
              let context ← read State.currentContext
              if (← Prog.invoke (.checkNodeEndOfStream node context)).isTrue then .ret ()
              else env.tryScheduleNode node
              .ret (.ok ())

def noteCall : Code π Unit :=
  storeAs .enterCall fun state => state.updateHistory fun history =>
    { history with called := history.called + 1 }

def noteReturn (call : Code π (Except Error Unit)) : Code π (Answer π) := do
  noteCall
  let result ← call
  note fun history =>
    { history with
      returned := history.returned + 1
      returns := history.returns ++ [result] }
  .ret .done

def noteReset (call : Code π Unit) : Code π (Answer π) := do
  noteCall
  call
  note fun history => { history with returned := history.returned + 1 }
  .ret .done

def ignoring {α : Type} (call : Code π α) : Code π (Answer π) := do
  let _ ← call
  .ret .done

def body : Proc π → Code π (Answer π)
  | .checkNodeEndOfStream node context => env.checkNodeEndOfStream node context
  | .pushFallback node port data route reason => env.pushFallback node port data route reason
  | .evictToWindow node port keep => env.evictToWindow node port keep
  | .gatherPort node port held => env.gatherPort node port held
  | .peekAlignmentHead node port => env.peekAlignmentHead node port
  | .gatherAligned node => env.gatherAligned node
  | .runTask task node context => env.runTask task node context
  | .joinTimeoutWatchdogLoop watchdog => env.joinTimeoutWatchdogLoop watchdog
  | .deferTimerLoop timer => env.deferTimerLoop timer
  | .execute inputs wait context timeout => noteReturn (env.execute inputs wait context timeout)
  | .startStreaming context => ignoring (env.startStreaming context)
  | .stopStreaming drain => ignoring (env.stopStreaming drain)
  | .releaseGraph => ignoring env.releaseGraph
  | .destroy => ignoring env.destroy
  | .stopExecutionAsync => ignoring stopExecutionAsync
  | .stopExecutionSync => ignoring stopExecutionSync
  | .reset => noteReset env.reset
  | .pushInput node port data => ignoring (env.pushInput node port data)
  | .signalEndOfStream node port => ignoring (env.signalEndOfStream node port)
  | .requestCancellation context => ignoring (storeAs (.cancel context) fun state =>
    { state with cancelled := Function.update state.cancelled context true })

end Env

end AiPipe
