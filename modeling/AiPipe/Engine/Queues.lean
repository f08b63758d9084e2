import AiPipe.Engine.Code

/-!
The input queues: the operations of the ring, which may refuse, the three drop policies of
`LockFreeNodeQueue`, and the accounting of dropped frames.
-/

namespace AiPipe

open Concurrency

variable {π : Type}

def frameIdOf : PortDataPtr π → Nat
  | some packet => packet.id
  | none => kInvalidFrameId

def Choice.offered (choice : Choice π) (queue : PortQueue π) : Option (PortDataPtr π) :=
  if choice.refuses then none else queue.head?

theorem Choice.head?_of_offered {choice : Choice π} {queue : PortQueue π} {data : PortDataPtr π}
    (offered : choice.offered queue = some data) : queue.head? = some data := by
  unfold Choice.offered at offered
  split at offered
  · cases offered
  · exact offered

namespace Env

variable (env : Env)

def tryPush (node port : Nat) (data : PortDataPtr π) (route : Route) : Code π Bool :=
  .act (.enqueue node port route) (fun choice state =>
    if choice.refuses ∨ (env.queueConfig node).capacity ≤ (state.queue node port).size then
      some (false, state)
    else some (true, state.updateQueue node port fun queue => queue.push data)) .ret

def tryPop (label : Label π) (node port : Nat) : Code π (Option (Taken π)) :=
  .act label (fun choice state =>
    match choice.offered (state.queue node port) with
    | none => some (none, state)
    | some data => some (some ⟨port, (state.queue node port).dequeuePos, data⟩,
        state.updateQueue node port PortQueue.pop)) .ret

def tryPeek (node port : Nat) : Code π (Option (PortDataPtr π)) :=
  .act .internal (fun choice state => some (choice.offered (state.queue node port), state)) .ret

def invokeDropCallback (report : DropReport) : Code π Unit :=
  store fun state => state.updateHistory fun history =>
    { history with dropCallbacks := history.dropCallbacks ++ [report] }

def countDrop (place : Option Place) : Code π Unit :=
  store fun state =>
    { state with
      statistics := { state.statistics with
        totalDroppedFrames := state.statistics.totalDroppedFrames + 1 }
      history := { state.history with dropCounts := state.history.dropCounts ++ [place] } }

/-- The strategy's own `reportDrop`, which may throw and is then taken not to have heard. -/
def reportDrop (node frame : Nat) (reason : String) : Code π Unit :=
  .act .external (fun choice state => some (choice.throws,
    if choice.throws then state else { state with
      syncEvents := state.syncEvents ++ [.dropped (env.graph.name node) frame reason] })) fun
    | true => .throw
    | false => .ret ()

/-- The drop callback that `setupDropCallbacks` installs on every queue. -/
def notifyDrop (node : Nat) (dropped : Taken π) (reason : String) : Code π Unit := do
  let place := some ⟨node, dropped.port, dropped.position⟩
  countDrop place
  invokeDropCallback ⟨env.graph.name node, frameIdOf dropped.data, reason, place⟩
  if env.sync.isEnabled && frameIdOf dropped.data != kInvalidFrameId then
    env.reportDrop node (frameIdOf dropped.data) reason
  else .ret ()

def evictAndNotify (node port : Nat) (reason : String) : Code π Bool := do
  match ← tryPop (.evict node port) node port with
  | none => .ret false
  | some dropped => do
      env.notifyDrop node dropped reason
      .ret true

def spinPush (node port : Nat) (data : PortDataPtr π) (route : Route) : Nat → Code π Bool
  | 0 => .ret false
  | spins + 1 => do
      if ← env.tryPush node port data route then .ret true
      else spinPush node port data route spins

def pushFallback (node port : Nat) (data : PortDataPtr π) (route : Route) (reason : String) :
    Code π (Answer π) := do
  if ← env.tryPush node port data route then .ret (.flag true)
  else do
    let _ ← env.evictAndNotify node port reason
    Prog.invoke (.pushFallback node port data route reason)

def evictionRounds (node port : Nat) (data : PortDataPtr π) (route : Route) : Nat → Code π Bool
  | 0 => do
      let _ ← Prog.invoke (.pushFallback node port data route "DropHead overflow (fallback)")
      .ret true
  | rounds + 1 => do
      let _ ← env.evictAndNotify node port "DropHead overflow"
      if ← env.spinPush node port data route 128 then .ret true
      else evictionRounds node port data route rounds

def pushDropTail (node port : Nat) (data : PortDataPtr π) (route : Route) : Code π Bool :=
  env.tryPush node port data route

def pushDropHead (node port : Nat) (data : PortDataPtr π) (route : Route) : Code π Bool := do
  if ← env.tryPush node port data route then .ret true
  else env.evictionRounds node port data route 4

def evictToWindow (node port keep : Nat) : Code π (Answer π) := do
  let size ← read fun state => (state.queue node port).size
  if keep ≤ size then
    if ← env.evictAndNotify node port "KeepLatest overflow" then
      Prog.invoke (.evictToWindow node port keep)
    else .ret .done
  else .ret .done

def pushKeepLatest (node port : Nat) (data : PortDataPtr π) (route : Route) : Code π Bool := do
  let _ ← Prog.invoke (.evictToWindow node port (max (env.queueConfig node).keepLatestN 1))
  if ← env.tryPush node port data route then .ret true
  else do
    let _ ← env.evictAndNotify node port "KeepLatest force overflow"
    if ← env.spinPush node port data route 128 then .ret true
    else do
      let _ ← Prog.invoke (.pushFallback node port data route "KeepLatest overflow (fallback)")
      .ret true

def push (node port : Nat) (data : PortDataPtr π) (route : Route) : Code π Bool :=
  match (env.queueConfig node).dropPolicy with
  | .dropTail => env.pushDropTail node port data route
  | .dropHead => env.pushDropHead node port data route
  | .keepLatest => env.pushKeepLatest node port data route

def recordQueueRejection (node : Nat) : Code π Unit := do
  count fun statistics => { statistics with queueFullEvents := statistics.queueFullEvents + 1 }
  countDrop none
  invokeDropCallback ⟨env.graph.name node, kInvalidFrameId, "DropTail queue full", none⟩

/-- The position of the queue that `lock_free_queues` holds under a port name. -/
def portIndex (node : Nat) (port : String) : Option Nat :=
  (env.graph.inputPorts node).idxOf? port

def pushToQueue (node : Nat) (port : String) (data : PortDataPtr π) (route : Route) : Code π Bool :=
  match env.portIndex node port with
  | none => .ret false
  | some index => do
      if ← env.push node index data route then do
        env.emitTrace
        .ret true
      else do
        env.recordQueueRejection node
        .ret false

/-- The next id: counted per stream under `StreamFrameId`, globally otherwise. -/
def takeFrameId (streamId : Nat) : Code π Nat :=
  .act .internal (fun _ state =>
    if env.config.alignmentPolicy = .streamFrameId then
      let next := state.nextStreamFrameId streamId + 1
      some (next, { state with
        nextStreamFrameId := Function.update state.nextStreamFrameId streamId next })
    else some (state.nextFrameId, { state with nextFrameId := state.nextFrameId + 1 })) .ret

def stampIncomingFrame : PortDataPtr π → Code π (PortDataPtr π)
  | none => .ret none
  | some packet =>
    if packet.hasFrameId then .ret (some packet)
    else do
      let id ← env.takeFrameId packet.streamId
      let now ← clock
      let timestamp := if packet.timestamp = 0 then now else packet.timestamp
      .ret (some { packet with id, timestamp })

def getQueueSize (node : Nat) (port : String) : Code π Nat :=
  match env.portIndex node port with
  | none => .ret 0
  | some index => read fun state => (state.queue node index).size

end Env

end AiPipe
