import AiPipe.Protocol.Moves

/-!
The engine as a protocol, part three: the rewrites between accesses, the threads that a
thread splits off, and what every procedure does to the stack it is called with.
-/

namespace AiPipe

open Concurrency

variable {π : Type}

def Stamps : PortDataPtr π → PortDataPtr π → Prop
  | none, stamped => stamped = none
  | some packet, stamped => if packet.hasFrameId then stamped = some packet
      else ∃ id now, stamped = some { packet with
        id := id, timestamp := if packet.timestamp = 0 then now else packet.timestamp }

def Env.wipes (env : Env) : List Wipe :=
  [.beginClear, .beginRun, .counter, .completionReported, .frameIds, .sinksAtEos, .endOfStream,
    .streamFrameIds, .results] ++
  ((List.range env.graph.nodeCount).flatMap fun node =>
    [.exec node, .executionCount node, .joinWait node, .degradePending node, .eosMask node,
      .eosPropagated node] ++ (env.ports node).map fun port => .queue node port) ++ [.endClear]

def Env.clears (env : Env) : List Wipe :=
  .beginClear :: ((List.range env.graph.nodeCount).flatMap fun node =>
    [.exec node, .executionCount node, .eosMask node, .eosPropagated node] ++
      (env.ports node).map fun port => .queue node port) ++
  [.results, .counter, .completionReported, .stopFlag, .streamingMode, .sinksAtEos, .endOfStream,
    .engineState, .endClear]

def Frame.Stops : Frame π → Prop
  | .api .stopExecutionAsync => True
  | .api .stopExecutionSync => True
  | .resetting => True
  | _ => False

def Env.Unrouted (env : Env) (outputs : PortDataMap π) (edge : OutEdge) : Prop :=
  outputs.find edge.sourcePort = none ∨ env.graph.nodeCount ≤ edge.destNode ∨
    ∀ port, edge.destPortIndex = some port → env.portCount edge.destNode ≤ port

def Env.Unlatched (env : Env) (edge : OutEdge) : Prop :=
  env.graph.nodeCount ≤ edge.destNode ∨
    ∀ port, edge.destPortIndex = some port → kMaxEosPorts ≤ port

inductive Ghost (env : Env) : List (Frame π) → List (Frame π) → Prop
  | dropHalted : Ghost env [.halted] []
  | dropBatched : Ghost env [.batched] []
  | dropFlushed {node} : Ghost env [.flushed node] []
  | dropDeferring : Ghost env [.deferring] []
  | unwind {frame} : Ghost env [.crashed, frame] [.crashed]
  | stopped {node observed} : Ghost env [.halted, .eval node observed] []
  | outOfRange {node observed} : env.graph.nodeCount ≤ node →
      Ghost env [.eval node observed] []
  | drained {node observed} : env.AllDrained node observed →
      Ghost env [.eval node observed] [.check node []]
  | decide {node observed} : node < env.graph.nodeCount →
      env.Decides node observed .scheduleNow →
      Ghost env [.eval node observed] [.decided node (some observed)]
  | defer {node observed} : env.Decides node observed .deferToNextCycle →
      Ghost env [.eval node observed] [.deferring]
  | decline {node observed decision} : decision ≠ .scheduleNow →
      env.Decides node observed decision → Ghost env [.eval node observed] []
  | flushedNow {node observed} : Ghost env [.flushed node, .eval node observed] []
  | missing {id node} : env.graph.nodeCount ≤ node →
      Ghost env [.task id node .posted] [.task id node .released]
  | dryHands {id node} (progress : Gathering π) : progress.held = [] →
      env.FindsNothing node progress →
      Ghost env [.task id node (.gathering progress)]
        [.task id node (.gathering { progress with dry := true })]
  | turnBack {id node} :
      Ghost env [.halted, .task id node .admitted] [.halted, .task id node .posted]
  | align {id node} (progress : Gathering π) (plan : List (Taken π)) :
      progress.held = [] ∨ progress.dry = true →
      (∀ head ∈ plan, progress.peeked head.port = some head) →
      (env.framePolicy.aligned (plan.map Taken.data)) = true →
      Ghost env [.task id node (.gathering progress)]
        [.task id node (.gathering { progress with plan })]
  | keep {id node packet} (progress : Gathering π) :
      Ghost env [.loose node packet progress.plan, .task id node (.gathering progress)]
        [.task id node (.gathering (progress.keep packet))]
  | condemn {node plan} {packet : Taken π} : env.sync.isEnabled = true →
      Ghost env [.asked node (frameIdOf packet.data), .loose node packet plan]
        [.condemned (askedDiscard node (some ⟨node, packet.port, packet.position⟩) packet.data)]
  | failed {id node held message} :
      Ghost env [.task id node (.called held (.error message))] [.task id node (.failing false)]
  | quitBatch {id node} {progress : Gathering π} : progress.dry = true →
      Ghost env [.batched, .task id node (.gathering progress)] [.task id node (.failing true)]
  | quitHalted {id node} :
      Ghost env [.halted, .task id node .retrying] [.task id node (.failing true)]
  | skipCollect {node outputs} : env.graph.isSink node = false →
      Ghost env [.emit node outputs .collecting] [.emit node outputs .departing]
  | stopEmission {node outputs} : Ghost env [.halted, .emit node outputs .departing] []
  | skipEdge {node outputs edge rest} : env.Unrouted outputs edge →
      Ghost env [.emit node outputs (.routing (edge :: rest))] [.emit node outputs (.routing rest)]
  | pushEdge {node outputs edge rest data port} : outputs.find edge.sourcePort = some data →
      edge.destNode < env.graph.nodeCount → edge.destPortIndex = some port →
      port < env.portCount edge.destNode →
      Ghost env [.emit node outputs (.routing (edge :: rest))]
        [.pushing edge.destNode port data (.edge node edge) .calm, .emit node outputs (.routing rest)]
  | emitted {node outputs} : Ghost env [.emit node outputs (.routing [])] []
  | reject {node port data route} : (env.queueConfig node).dropPolicy = .dropTail →
      Ghost env [.pushing node port data route .full] [.condemned (rejection node)]
  | giveUp {id readings} : env.NotComplete readings →
      Ghost env [.settling id (some readings)] [.settling id none]
  | someOpen {node observed} : env.SomeOpen node observed → Ghost env [.check node observed] []
  | emitFlush {node outputs} : outputs ≠ [] →
      Ghost env [.eos node (.flushed outputs)] [.emit node outputs .collecting, .eos node .emitting]
  | silentFlush {node} : Ghost env [.eos node (.flushed [])] [.eos node .emitting]
  | skipLatch {node edge rest} : env.Unlatched edge →
      Ghost env [.eos node (.cascading (edge :: rest))] [.eos node (.cascading rest)]
  | notSink {node} : env.graph.isSink node = false →
      Ghost env [.eos node (.cascading [])] [.eos node .over]
  | notLast {node reached} :
      env.graph.sinkNodes.length = 0 ∨ reached < env.graph.sinkNodes.length →
      Ghost env [.eos node (.counted reached)] [.eos node .over]
  | leave {procedure} : Ghost env [.api procedure] []
  | stopping {frame} : frame.Stops → Ghost env [frame] [.stopping, frame]
  | pushInput {name port data stamped node index} : env.graph.indexOf name = some node →
      env.portIndex node (env.actualPort node port) = some index → Stamps data stamped →
      Ghost env [.api (.pushInput name port data)]
        [.pushing node index stamped .input .calm, .api (.pushInput name port data)]
  | routeInput {name port data node edge index} : env.graph.indexOf name = some node →
      env.portIndex node (env.actualPort node port) = none →
      edge ∈ env.graph.outEdges node → edge.sourcePort = env.actualPort node port →
      env.portIndex edge.destNode edge.destPort = some index →
      Ghost env [.api (.pushInput name port data)]
        [.pushing edge.destNode index data .routed .calm, .api (.pushInput name port data)]
  | timer {number} (node : Nat) :
      Ghost env [.api (.deferTimerLoop number)] [.eval node [], .api (.deferTimerLoop number)]
  | watch {node} : node < env.graph.nodeCount →
      Ghost env [.watching] [.decided node none, .watching]
  | beginSetup {wipes} :
      Ghost env [.engineLock ⟨.down, wipes⟩]
        [.engineLock ⟨.settingUp env.graph.topologicalOrder, wipes⟩]
  | allUp {wipes} : Ghost env [.engineLock ⟨.settingUp [], wipes⟩] [.engineLock ⟨.up, wipes⟩]
  | beginWipe {wait inputs} :
      Ghost env [.engineLock ⟨.up, none⟩, .call wait inputs .batch]
        [.engineLock ⟨.up, some env.wipes⟩, .call wait inputs .batch]
  | wiped {wait inputs life} :
      Ghost env [.engineLock ⟨life, some []⟩, .call wait inputs .batch]
        [.engineLock ⟨life, none⟩, .call wait inputs (.distributing env.graph.sourceNodes)]
  | beginClear {life} :
      Ghost env [.engineLock ⟨life, none⟩, .resetting] [.engineLock ⟨life, some env.clears⟩, .resetting]
  | cleared {life} :
      Ghost env [.engineLock ⟨life, some []⟩, .resetting] [.engineLock ⟨life, none⟩, .resetting]
  | error {wait inputs stage} (error : Error) :
      Ghost env [.call wait inputs stage] [.call wait inputs (.answer (.error error))]
  | distributePush {wait inputs node rest data stamped} :
      PortDataMap.find (env.graph.name node) inputs = some data → env.portCount node ≠ 0 →
      Stamps data stamped →
      Ghost env [.call wait inputs (.distributing (node :: rest))]
        [.pushing node 0 stamped .initial .calm, .call wait inputs (.distributing rest)]
  | distributeEval {wait inputs node rest} : env.portCount node = 0 →
      Ghost env [.call wait inputs (.distributing (node :: rest))]
        [.eval node [], .call wait inputs (.distributing rest)]
  | distributeSkip {wait inputs node rest} :
      PortDataMap.find (env.graph.name node) inputs = none → env.portCount node ≠ 0 →
      Ghost env [.call wait inputs (.distributing (node :: rest))]
        [.call wait inputs (.distributing rest)]
  | fireAndForget {inputs} :
      Ghost env [.call false inputs .launched] [.call false inputs (.answer (.ok ()))]
  | expired {wait inputs} (error : Error) :
      Ghost env [.call wait inputs .expired] [.stopping, .call wait inputs (.answer (.error error))]
  | succeeded {wait inputs} :
      Ghost env [.call wait inputs (.sawActive false 0)] [.call wait inputs (.answer (.ok ()))]
  | feedNext {name data rest} :
      Ghost env [.feed ((name, data) :: rest)] [.api (.pushInput name "" data), .feed rest]
  | feedEnd {inputs} (wait : Bool) (result : Except Error Unit) :
      Ghost env [.feed inputs] [.call wait inputs (.answer result)]

inductive Fork : Proc π → List (Frame π) → List (Frame π) → List (Frame π) → Prop
  | post {id node context} :
      Fork (.runTask id node context) [.task id node .announced] []
        [.task id node .posted, .worker id]
  | timer {number} :
      Fork (.deferTimerLoop number) [.deferring] [] [.api (.deferTimerLoop number)]
  | watchdog {watchdog context lock} :
      Fork (.joinTimeoutWatchdogLoop watchdog) [.engineLock lock, .api (.startStreaming context)]
        [.engineLock lock, .api (.startStreaming context)] [.api (.joinTimeoutWatchdogLoop watchdog)]

inductive Entry : Proc π → List (Frame π) → Prop
  | api {procedure} : procedure.standsAlone = true → Entry procedure [.api procedure]

def Env.protocol (env : Env) : Protocol (View π) (Label π) (Proc π) (Choice π) (Frame π) where
  move := Move env
  ghost := Ghost env
  fork := Fork
  entry := Entry
  crashed := .crashed
  urgent := Frame.urgent

instance Frame.calm : Fact (false = false) := ⟨rfl⟩

/-- The frame on top decides, as `Frame.urgent` evaluates at its constructor. -/
instance Frame.free {env : Env} {frame : Frame π} {stack : List (Frame π)}
    [calm : Fact (frame.urgent = false)] : env.protocol.Free (frame :: stack) :=
  .cons calm.out

inductive Env.Keeps (env : Env) : Contract (Proc π) (Answer π) (Frame π)
  | check {node context} :
      env.Keeps (.checkNodeEndOfStream node context) [.check node []] fun answer stack =>
        if answer.isTrue then stack = [.flushed node] else stack = []
  | pushFallback {node port data route reason pressure} :
      (env.queueConfig node).dropPolicy ≠ .dropTail →
      env.Keeps (.pushFallback node port data route reason)
        [.pushing node port data route pressure] fun _ stack => stack = [.eval node []]
  | evictToWindow {node port keep data route pressure} : 0 < keep →
      (env.queueConfig node).dropPolicy ≠ .dropTail →
      env.Keeps (.evictToWindow node port keep) [.pushing node port data route pressure]
        fun _ stack => ∃ pressure', stack = [.pushing node port data route pressure']
  | gatherPort {node port id} (progress : Gathering π) : port < env.portCount node →
      ¬ env.Aligns node →
      env.Keeps (.gatherPort node port progress.held.length)
        [.task id node (.gathering progress)] fun answer stack =>
        match answer.packet with
        | some packet => packet.port = port ∧
            stack = [.task id node (.gathering ((progress.unpeek port).keep packet))]
        | none => ∃ progress', progress'.dry = true ∧
            stack = [.task id node (.gathering progress')]
  | peekHead {node port id} (progress : Gathering π) : env.Matches progress →
      1 < env.portCount node →
      env.Keeps (.peekAlignmentHead node port) [.task id node (.gathering progress)]
        fun answer stack => ∃ peeked, progress.Peeks port peeked answer.headPacket ∧
          stack = [.task id node (.gathering { progress with peeked })]
  | gatherAligned {node id} (progress : Gathering π) : progress.held = [] →
      env.Matches progress → 1 < env.portCount node →
      env.Keeps (.gatherAligned node) [.task id node (.gathering progress)] fun answer stack =>
        ∃ progress', stack = [.task id node (.gathering progress')] ∧
          progress'.held = answer.inputs.2 ∧ progress'.degraded = progress.degraded ∧
          if answer.inputs.1 then env.Covers node progress' else progress'.dry = true
  | runTask {id node context} :
      env.Keeps (.runTask id node context) [.task id node .posted, .worker id]
        fun _ stack => stack = []
  | watchdog {watchdog} :
      env.Keeps (.joinTimeoutWatchdogLoop watchdog) [.api (.joinTimeoutWatchdogLoop watchdog)]
        fun _ stack => stack = []
  | timer {number} :
      env.Keeps (.deferTimerLoop number) [.api (.deferTimerLoop number)] fun _ stack => stack = []
  | client {procedure} : procedure.isInterface = true →
      env.Keeps procedure [.api procedure] fun _ stack => stack = []

end AiPipe
