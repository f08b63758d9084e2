import AiPipe.Engine.Queues

/-!
How a task gathers the inputs of its node: the plain gather, the aligned gather of
`frame_alignment.hpp`, and the degraded gather after a join timeout.
-/

namespace AiPipe

open Concurrency

variable {π : Type}

def inputsOf (names : List String) (taken : List (Taken π)) : PortDataMap π :=
  taken.foldl (fun inputs packet =>
    PortDataMap.insert (names.getD packet.port "") packet.data inputs) []

def Answer.isTrue : Answer π → Bool
  | .flag value => value
  | _ => false

def Answer.packet : Answer π → Option (Taken π)
  | .taken packet => packet
  | _ => none

def Answer.headPacket : Answer π → Option (PortDataPtr π)
  | .head packet => packet
  | _ => none

def Answer.inputs : Answer π → Bool × List (Taken π)
  | .gathered complete inputs => (complete, inputs)
  | _ => (false, [])

def portEosLatched (node port : Nat) : Code π Bool := read fun state => state.latched node port

def portEmpty (node port : Nat) : Code π Bool := read fun state => (state.queue node port).empty

def portDrained (node port : Nat) : Code π Bool := do
  if ← portEosLatched node port then portEmpty node port else .ret false

def portsDrained (node : Nat) : List Nat → Code π Bool
  | [] => .ret true
  | port :: rest => do
      if ← portDrained node port then portsDrained node rest else .ret false

namespace Env

variable (env : Env)

def allInputPortsDrained (node : Nat) : Code π Bool :=
  if env.portCount node = 0 then .ret false else portsDrained node (env.ports node)

def recordDequeue : Code π Unit :=
  if env.config.enableStatistics then
    count fun statistics => { statistics with totalQueuePops := statistics.totalQueuePops + 1 }
  else .ret ()

def recordSyncDrop (node : Nat) (place : Option Place) (frame : Nat) (reason : String) :
    Code π Unit := do
  countDrop place
  invokeDropCallback ⟨env.graph.name node, frame, reason, place⟩

def shouldDrop (node frame : Nat) : Code π Bool :=
  if env.syncTracked node && frame != kInvalidFrameId then do
    external
    readAs (.askDrop node frame) fun state =>
      env.sync.shouldDrop state.syncEvents (env.graph.name node) frame
  else .ret false

def gatherPort (node port held : Nat) : Code π (Answer π) := do
  match ← tryPop (.gatherPop node port held) node port with
  | none => .ret (.taken none)
  | some packet => do
      if ← env.shouldDrop node (frameIdOf packet.data) then do
        env.recordSyncDrop node (some ⟨node, port, packet.position⟩) (frameIdOf packet.data)
          "coordinated sync drop"
        Prog.invoke (.gatherPort node port held)
      else do
        env.recordDequeue
        .ret (.taken (some packet))

def gatherPorts (node : Nat) : List Nat → Bool → List (Taken π) →
    Code π (Option (List (Taken π)))
  | [], anyOpen, taken => .ret (if anyOpen then some taken else none)
  | port :: rest, anyOpen, taken => do
      if ← portDrained node port then gatherPorts node rest anyOpen taken
      else do
        match (← Prog.invoke (.gatherPort node port taken.length)).packet with
        | none => .ret none
        | some packet => gatherPorts node rest true (taken ++ [packet])

def peekAlignmentHead (node port : Nat) : Code π (Answer π) := do
  match ← tryPeek node port with
  | none => .ret (.head none)
  | some head => do
      if ← env.shouldDrop node (frameIdOf head) then do
        let popped ← tryPop (.discardPop node port) node port
        env.recordSyncDrop node (popped.map fun packet => ⟨node, port, packet.position⟩)
          (frameIdOf head) "coordinated sync drop"
        Prog.invoke (.peekAlignmentHead node port)
      else .ret (.head (some head))

def dropStaleHead (node port : Nat) (head : PortDataPtr π) (reason : String) :
    Code π Unit := do
  let popped ← tryPop (.discardPop node port) node port
  env.recordSyncDrop node (popped.map fun packet => ⟨node, port, packet.position⟩)
    (frameIdOf head) reason
  if env.syncTracked node && frameIdOf head != kInvalidFrameId then
    env.reportDrop node (frameIdOf head) reason
  else .ret ()

def popAndDeliver (node port held : Nat) : Code π (Option (Taken π)) := do
  match ← tryPop (.gatherPop node port held) node port with
  | none => .ret none
  | some packet => do
      env.recordDequeue
      .ret (some packet)

def collectHeads (node : Nat) : List Nat → List (Bool × PortDataPtr π) →
    Code π (Option (List (Bool × PortDataPtr π)))
  | [], heads => .ret (some heads)
  | port :: rest, heads => do
      if ← portDrained node port then collectHeads node rest (heads ++ [(true, none)])
      else do
        match (← Prog.invoke (.peekAlignmentHead node port)).headPacket with
        | none => .ret none
        | some head => collectHeads node rest (heads ++ [(false, head)])

def popAligned (node : Nat) : List Nat → List (Taken π) → Code π (Answer π)
  | [], taken => .ret (.gathered true taken)
  | port :: rest, taken => do
      match ← env.popAndDeliver node port taken.length with
      | none => .ret (.gathered false taken)
      | some packet => popAligned node rest (taken ++ [packet])

def framePolicy : FramePolicy π :=
  match env.config.alignmentPolicy with
  | .frameId => frameIdPolicy
  | .streamFrameId => streamFrameIdPolicy
  | .timestamp => timestampPolicy env.config.alignmentTolerance

def gatherAligned (node : Nat) : Code π (Answer π) := do
  match ← collectHeads node (env.ports node) [] with
  | none => .ret (.gathered false [])
  | some heads =>
    let policy := env.framePolicy (π := π)
    let packets := heads.map Prod.snd
    if heads.all Prod.fst then .ret (.gathered false [])
    else if policy.aligned packets then do
      let openPorts := (env.ports node).filter fun port => !(heads.getD port (true, none)).1
      env.popAligned node openPorts []
    else if (policy.stale packets).isEmpty then .ret (.gathered false [])
    else do
      Prog.forEach (fun port => env.dropStaleHead node port (packets.getD port none)
        policy.dropReason) (policy.stale packets)
      Prog.invoke (.gatherAligned node)

/-- The oldest available head; heads without an id only count under `Timestamp`. -/
def degradeReference (heads : List (Option (PortDataPtr π))) : Option (PortData π) :=
  (heads.filterMap fun head => head.join).foldl (fun reference head =>
    if env.config.alignmentPolicy != .timestamp && !head.hasFrameId then reference
    else match reference with
      | none => some head
      | some best => if head.timestamp < best.timestamp then some head else some best) none

def pairsWithReference (reference : Option (PortData π)) : PortDataPtr π → Bool
  | none => true
  | some head => match reference with
      | none => true
      | some best => (env.framePolicy (π := π)).pairsWith head best

def peekPorts (node : Nat) : List Nat → List (Option (PortDataPtr π)) →
    Code π (List (Option (PortDataPtr π)))
  | [], heads => .ret heads
  | port :: rest, heads => do
      let head ← Prog.invoke (.peekAlignmentHead node port)
      peekPorts node rest (heads ++ [head.headPacket])

/-- Deliver or skip the heads that pair with the reference; the answer says whether
something was delivered, and holds the inputs of the gather so far. -/
def degradePorts (node : Nat) (heads : List (Option (PortDataPtr π)))
    (reference : Option (PortData π)) :
    List Nat → Bool → List (Taken π) → Code π (Bool × List (Taken π))
  | [], delivered, taken => .ret (delivered, taken)
  | port :: rest, delivered, taken =>
    match heads.getD port none with
    | none => degradePorts node heads reference rest delivered taken
    | some head =>
      if !env.pairsWithReference reference head then
        degradePorts node heads reference rest delivered taken
      else if env.config.joinTimeoutPolicy = .partialInputs then do
        match ← env.popAndDeliver node port taken.length with
        | none => degradePorts node heads reference rest delivered taken
        | some packet => degradePorts node heads reference rest true (taken ++ [packet])
      else do
        env.dropStaleHead node port head "join wait timeout - frame skipped"
        degradePorts node heads reference rest delivered taken

/-- The inputs that a failed aligned gather has already popped stay in the map. -/
def degradeJoinGather (node : Nat) (taken : List (Taken π)) :
    Code π (Option (List (Taken π))) := do
  let heads ← peekPorts node (env.ports node) []
  let available := heads.countP Option.isSome
  if available = 0 ∨ available = env.portCount node then .ret none
  else do
    count fun statistics =>
      { statistics with totalJoinTimeouts := statistics.totalJoinTimeouts + 1 }
    let (delivered, inputs) ←
      env.degradePorts node heads (env.degradeReference heads) (env.ports node) false taken
    .ret (if delivered then some inputs else none)

/-- `degrade_pending.exchange(false)`, made only when join timeouts are configured. -/
def takeDegradeRequest (node : Nat) : Code π Bool :=
  if env.config.joinWaitTimeout = 0 then .ret false
  else .act .internal (fun _ state => some ((state.node node).degradePending,
    state.updateNode node fun entry => { entry with degradePending := false })) .ret

def anyPortDry (node : Nat) : List Nat → Code π Bool
  | [] => .ret false
  | port :: rest => do
      if ← portEmpty node port then .ret true else anyPortDry node rest

def plainGather (node : Nat) : Code π (Option (List (Taken π))) :=
  gatherPorts node (env.ports node) (env.portCount node == 0) []

def gatherNodeInputs (node : Nat) : Code π (Option (List (Taken π))) :=
  if 1 < env.portCount node then do
    let degradeRequested ← env.takeDegradeRequest node
    if env.config.alignmentPolicy != .frameId || env.sync.isEnabled then do
      let (complete, taken) := (← Prog.invoke (.gatherAligned node)).inputs
      if complete then .ret (some taken)
      else if degradeRequested then env.degradeJoinGather node taken
      else .ret none
    else if degradeRequested then do
      if ← anyPortDry node (env.ports node) then env.degradeJoinGather node []
      else env.plainGather node
    else env.plainGather node
  else env.plainGather node

end Env

end AiPipe
