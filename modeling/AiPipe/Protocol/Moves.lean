import AiPipe.Protocol.Frames

/-!
The engine as a protocol, part two: what one access may do to the view and to the top of
a stack.  The moves are grouped by what the engine is busy with.
-/

namespace AiPipe

open Concurrency

variable {π : Type}

abbrev MoveRelation (π : Type) :=
  Label π → Choice π → View π → List (Frame π) → View π → List (Frame π) → Prop

/-- Reads without consequence, exceptions, stop requests, and what is done under the engine
lock: the mode flags, the set-up of the nodes and the stores of a reset. -/
inductive ControlMove : MoveRelation π
  | idle {label choice seen} : ControlMove label choice seen [] seen []
  | throws {choice seen} : choice.throws = true →
      ControlMove .external choice seen [] seen [.crashed]
  | sawStop {label choice seen} : seen.stop = true →
      ControlMove label choice seen [] seen [.halted]
  | sawBatch {label choice seen} : seen.streaming = false →
      ControlMove label choice seen [] seen [.batched]
  | sawCancelled {label choice seen context} : seen.cancelled context = true →
      ControlMove label choice seen [] seen [.stopping, .halted]
  | halt {label choice seen} :
      ControlMove label choice seen [.stopping] { seen with stop := true } []
  | cancel {choice seen context} :
      ControlMove (.cancel context) choice seen []
        { seen with cancelled := Function.update seen.cancelled context true } []
  | uncancel {label choice seen context} :
      ControlMove label choice seen []
        { seen with cancelled := Function.update seen.cancelled context false } []
  /-- Everything but a drop that the sync strategy is told. -/
  | mark {label choice seen} {event : SyncEvent} : (∀ node frame reason,
      event ≠ .dropped node frame reason) →
      ControlMove label choice seen [] { seen with syncEvents := seen.syncEvents ++ [event] } []
  | lock {label choice seen} : seen.locked = false →
      ControlMove label choice seen [] { seen with locked := true } [.engineLock {}]
  | unlock {label choice seen} {lock : Lock} : lock.wipes = none →
      lock.life = .plain ∨ lock.life = .up →
      ControlMove label choice seen [.engineLock lock] { seen with locked := false } []
  | unlockCrashed {label choice seen} :
      ControlMove label choice seen [.crashed] { seen with locked := false } [.crashed]
  | rest {label choice seen} : ControlMove label choice seen [] { seen with running := false } []
  | run {label choice seen} :
      ControlMove label choice seen [.engineLock ⟨.up, none⟩] { seen with running := true }
        [.engineLock ⟨.up, none⟩]
  | report {label choice seen lock context} :
      ControlMove label choice seen [.engineLock lock, .api (.startStreaming context)]
        { seen with reported := false } [.engineLock lock, .api (.startStreaming context)]
  | stream {label choice seen context} :
      ControlMove label choice seen [.engineLock ⟨.up, none⟩, .api (.startStreaming context)]
        { seen with streaming := true }
        [.engineLock ⟨.up, none⟩, .api (.startStreaming context)]
  | unstop {choice seen lock context} :
      ControlMove .clearStop choice seen [.engineLock lock, .api (.startStreaming context)]
        { seen with stop := false } [.engineLock lock, .api (.startStreaming context)]
  | beginStop {choice seen lock drain} :
      ControlMove .stopStreaming choice seen [.engineLock lock, .api (.stopStreaming drain)]
        { seen with stop := true, stopping := seen.stopping + 1 }
        [.engineLock lock, .api (.stopStreaming drain)]
  | unstream {label choice seen lock drain} :
      ControlMove label choice seen [.engineLock lock, .api (.stopStreaming drain)]
        { seen with streaming := false } [.engineLock lock, .api (.stopStreaming drain)]
  | endStop {label choice seen drain} :
      ControlMove label choice seen [.api (.stopStreaming drain)]
        { seen with stopping := seen.stopping - 1 } [.api (.stopStreaming drain)]
  | sawDown {label choice seen wipes} : seen.setUp = [] →
      ControlMove label choice seen [.engineLock ⟨.plain, wipes⟩] seen [.engineLock ⟨.down, wipes⟩]
  | sawUp {label choice seen wipes} : seen.setUp ≠ [] →
      ControlMove label choice seen [.engineLock ⟨.plain, wipes⟩] seen [.engineLock ⟨.up, wipes⟩]
  | setUp {choice seen node rest wipes} :
      ControlMove (.setup node) choice seen [.engineLock ⟨.settingUp (node :: rest), wipes⟩]
        { seen with setUp := seen.setUp ++ [node], life := seen.life ++ [.setup node] }
        [.engineLock ⟨.settingUp rest, wipes⟩]
  | setupFails {choice seen node rest wipes} :
      ControlMove (.setup node) choice seen [.engineLock ⟨.settingUp (node :: rest), wipes⟩]
        { seen with life := seen.life ++ [.setupFailed node] } [.engineLock ⟨.failed, wipes⟩]
  | beginTeardown {label choice seen phase wipes} : phase = .plain ∨ phase = .failed →
      ControlMove label choice seen [.engineLock ⟨phase, wipes⟩] seen
        [.engineLock ⟨.tearing seen.setUp.reverse, wipes⟩]
  | tear {choice seen node rest wipes} :
      ControlMove (.teardown node) choice seen [.engineLock ⟨.tearing (node :: rest), wipes⟩]
        { seen with life := seen.life ++ [.teardown node] } [.engineLock ⟨.tearing rest, wipes⟩]
  | torn {label choice seen wipes} :
      ControlMove label choice seen [.engineLock ⟨.tearing [], wipes⟩] { seen with setUp := [] }
        [.engineLock ⟨.plain, wipes⟩]
  | wipe {choice seen life target rest} :
      ControlMove (Wipe.label target) choice seen [.engineLock ⟨life, some (target :: rest)⟩]
        (seen.wipe target) [.engineLock ⟨life, some rest⟩]
  | enterReset {choice seen} :
      ControlMove .enterCall choice seen [.api .reset] { seen with called := seen.called + 1 }
        [.resetting]
  | leaveReset {label choice seen} :
      ControlMove label choice seen [.resetting] { seen with returned := seen.returned + 1 } []
  | tick {label choice seen watchdog} : seen.watching = false →
      ControlMove label choice seen [.api (.joinTimeoutWatchdogLoop watchdog)]
        { seen with watching := true } [.watching, .api (.joinTimeoutWatchdogLoop watchdog)]
  | untick {label choice seen} :
      ControlMove label choice seen [.watching] { seen with watching := false } []
  | request {label choice seen node} :
      ControlMove label choice seen [.watching]
        { seen with degrade := Function.update seen.degrade node true } [.watching]

inductive ScheduleMove : MoveRelation π
  | observe {label choice seen node observed} {observation : Obs} :
      observation.Holds seen node →
      ScheduleMove label choice seen [.eval node observed] seen
        [.eval node (observation :: observed)]
  | notWaiting {label choice seen node observed} : seen.exec node ≠ .waiting →
      ScheduleMove label choice seen [.eval node observed] seen []
  | claim {choice seen node reason} : seen.exec node = .waiting →
      ScheduleMove (.claimTask node) choice seen [.decided node reason] (seen.setExec node .ready)
        [.claimed node reason]
  | claimLost {label choice seen node reason} : seen.exec node ≠ .waiting →
      ScheduleMove label choice seen [.decided node reason] seen []
  | announce {label choice seen node reason} :
      ScheduleMove label choice seen [.claimed node reason]
        { seen with
          active := seen.active + 1
          tasks := seen.tasks ++ [⟨node, seen.run⟩] }
        [.task seen.tasks.length node .announced]
  | refuse {choice seen id node} : choice.posted = false →
      ScheduleMove (.post node) choice seen [.task id node .announced] seen
        [.task id node .refused, .worker id]
  | rollBack {label choice seen id node} :
      ScheduleMove label choice seen [.task id node .refused] (seen.setExec node .waiting)
        [.task id node .rolledBack]
  | abort {label choice seen id node} :
      ScheduleMove label choice seen [.halted, .task id node .posted]
        (seen.setExec node .waiting) [.task id node .released]
  | proceed {label choice seen id node} : seen.stop = false →
      ScheduleMove label choice seen [.task id node .posted] seen [.task id node .admitted]
  | begin {label choice seen id node} : seen.exec node = .ready →
      ScheduleMove label choice seen [.task id node .admitted] (seen.setExec node .executing)
        [.task id node (.gathering {})]
  | displaced {label choice seen id node} : seen.exec node ≠ .ready →
      ScheduleMove label choice seen [.task id node .admitted] seen [.task id node .released]

def View.headTaken (seen : View π) (node port : Nat) (data : PortDataPtr π) : Taken π :=
  ⟨port, (seen.queue node port).dequeuePos, data⟩

def View.headPlace (seen : View π) (node port : Nat) : Place :=
  ⟨node, port, (seen.queue node port).dequeuePos⟩

def Env.dropReport (env : Env) (discard : Discard) : DropReport :=
  ⟨env.graph.name discard.node, discard.frame, discard.reason, discard.place⟩

def Env.staleDiscard (env : Env) (node : Nat) (place : Option Place) (head : PortDataPtr π)
    (reason : String) : Discard :=
  ⟨node, place, frameIdOf head, reason,
    env.syncTracked node && frameIdOf head != kInvalidFrameId⟩

def askedDiscard (node : Nat) (place : Option Place) (data : PortDataPtr π) : Discard :=
  ⟨node, place, frameIdOf data, "coordinated sync drop", false⟩

def Env.evictedDiscard (env : Env) (node : Nat) (place : Place) (data : PortDataPtr π)
    (reason : String) : Discard :=
  ⟨node, some place, frameIdOf data, reason,
    env.sync.isEnabled && frameIdOf data != kInvalidFrameId⟩

def rejection (node : Nat) : Discard :=
  ⟨node, none, kInvalidFrameId, "DropTail queue full", false⟩

inductive GatherMove (env : Env) : MoveRelation π
  | takeDegrade {label choice seen id node progress} : seen.degrade node = true →
      GatherMove env label choice seen [.task id node (.gathering progress)]
        { seen with degrade := Function.update seen.degrade node false }
        [.task id node (.gathering { progress with degraded := true })]
  | keepDegrade {label choice seen id node progress} : seen.degrade node = false →
      GatherMove env label choice seen [.task id node (.gathering progress)]
        { seen with degrade := Function.update seen.degrade node false }
        [.task id node (.gathering progress)]
  | skip {label choice seen id node port progress} :
      seen.latched node port = true →
      GatherMove env label choice seen [.task id node (.gathering progress)] seen
        [.task id node (.gathering { progress with skipped := progress.skipped ++ [port] })]
  | peek {label choice seen id node port progress data} : 1 < env.portCount node →
      (seen.queue node port).head? = some data →
      GatherMove env label choice seen [.task id node (.gathering progress)] seen
        [.task id node (.gathering (progress.peek (seen.headTaken node port data)))]
  | pop {choice seen id node port progress data} : port < env.portCount node →
      env.Planned node port progress → (seen.queue node port).head? = some data →
      GatherMove env (.gatherPop node port progress.held.length) choice seen
        [.task id node (.gathering progress)] (seen.pop node port)
        [.loose node (seen.headTaken node port data) progress.plan,
          .task id node (.gathering { progress.unpeek port with dry := false })]
  | popDry {choice seen id node port progress} : env.Planned node port progress →
      choice.offered (seen.queue node port) = none →
      GatherMove env (.gatherPop node port progress.held.length) choice seen
        [.task id node (.gathering progress)] seen
        [.task id node (.gathering { progress with dry := true })]
  | ask {choice seen node frame} : env.syncTracked node = true →
      env.sync.shouldDrop seen.syncEvents (env.graph.name node) frame = true →
      GatherMove env (.askDrop node frame) choice seen [] seen [.asked node frame]
  | discard {choice seen id node port progress data} {head : Taken π} (reason : String) :
      env.Matches progress → (seen.queue node port).head? = some data →
      progress.peeked port = some head →
      GatherMove env (.discardPop node port) choice seen [.task id node (.gathering progress)]
        (seen.pop node port)
        [.condemned (env.staleDiscard node (some (seen.headPlace node port)) head.data reason),
          .task id node (.gathering (progress.unpeek port))]
  | discardDry {choice seen id node port progress} {head : Taken π} (reason : String) :
      env.Matches progress → choice.offered (seen.queue node port) = none →
      progress.peeked port = some head →
      GatherMove env (.discardPop node port) choice seen [.task id node (.gathering progress)] seen
        [.condemned (env.staleDiscard node none head.data reason),
          .task id node (.gathering (progress.unpeek port))]
  | discardAsked {choice seen id node port progress data} {head : Taken π} :
      env.Matches progress → (seen.queue node port).head? = some data →
      progress.peeked port = some head →
      GatherMove env (.discardPop node port) choice seen
        [.asked node (frameIdOf head.data), .task id node (.gathering progress)]
        (seen.pop node port)
        [.condemned (askedDiscard node (some (seen.headPlace node port)) head.data),
          .task id node (.gathering (progress.unpeek port))]
  | discardAskedDry {choice seen id node port progress} {head : Taken π} :
      env.Matches progress → choice.offered (seen.queue node port) = none →
      progress.peeked port = some head →
      GatherMove env (.discardPop node port) choice seen
        [.asked node (frameIdOf head.data), .task id node (.gathering progress)] seen
        [.condemned (askedDiscard node none head.data),
          .task id node (.gathering (progress.unpeek port))]
  | countDrop {label choice seen discard} :
      GatherMove env label choice seen [.condemned discard]
        { seen with dropCounts := seen.dropCounts ++ [discard.place] } [.counted discard]
  | callBack {label choice seen discard} : discard.tells = false →
      GatherMove env label choice seen [.counted discard]
        { seen with dropCallbacks := seen.dropCallbacks ++ [env.dropReport discard] } []
  | callBackOwing {label choice seen discard} : discard.tells = true →
      GatherMove env label choice seen [.counted discard]
        { seen with dropCallbacks := seen.dropCallbacks ++ [env.dropReport discard] }
        [.owing discard]
  | tell {label choice seen discard} :
      GatherMove env label choice seen [.owing discard]
        { seen with syncEvents := seen.syncEvents ++
          [.dropped (env.graph.name discard.node) discard.frame discard.reason] } []
  | tellThrows {choice seen discard} : choice.throws = true →
      GatherMove env .external choice seen [.owing discard] seen [.crashed]

inductive PushMove (env : Env) : MoveRelation π
  | crowd {label choice seen node port data route pressure} :
      (seen.queue node port).empty = false →
      PushMove env label choice seen [.pushing node port data route pressure] seen
        [.pushing node port data route .crowded]
  | full {choice seen node port data route pressure} :
      choice.refuses = true ∨ (env.queueConfig node).capacity ≤ (seen.queue node port).size →
      PushMove env (.enqueue node port route) choice seen
        [.pushing node port data route pressure] seen [.pushing node port data route .full]
  | enqueue {choice seen node port data route pressure} :
      (seen.queue node port).size < (env.queueConfig node).capacity →
      PushMove env (.enqueue node port route) choice seen
        [.pushing node port data route pressure] (seen.push node port data) [.eval node []]
  | evict {choice seen node port data route pressure head} (reason : String) :
      pressure ≠ .calm → (env.queueConfig node).dropPolicy ≠ .dropTail →
      (seen.queue node port).head? = some head →
      PushMove env (.evict node port) choice seen [.pushing node port data route pressure]
        (seen.pop node port)
        [.condemned (env.evictedDiscard node (seen.headPlace node port) head reason),
          .pushing node port data route pressure]

def Env.resultEntries (env : Env) (node : Nat) (outputs : PortDataMap π) : PortDataMap π :=
  outputs.map fun entry => (env.graph.name node ++ ":" ++ entry.1, entry.2)

def mergeResults (results entries : PortDataMap π) : PortDataMap π :=
  entries.foldl (fun merged entry => PortDataMap.insert entry.1 entry.2 merged) results

def afterFailure (node : Nat) (quit : Bool) : List (Frame π) :=
  if quit then [] else [.check node []]

inductive ProcessMove (env : Env) : MoveRelation π
  | callBegin {label choice seen id node progress} : env.Covers node progress →
      ProcessMove env label choice seen [.task id node (.gathering progress)]
        { seen with
          calls := Function.update seen.calls node (seen.calls node ++ [progress.held])
          processing := Function.update seen.processing node (seen.processing node + 1) }
        [.task id node (.calling progress.held)]
  | callEnd {choice seen id node held} :
      ProcessMove env (.process node held) choice seen [.task id node (.calling held)]
        { seen with processing := Function.update seen.processing node (seen.processing node - 1) }
        [.task id node (.called held choice.outcome)]
  | discardOutcome {label choice seen id node held outcome} :
      ProcessMove env label choice seen [.halted, .task id node (.called held outcome)]
        (seen.setExec node .waiting) [.check node [], .task id node .released]
  | succeed {label choice seen id node held outputs} :
      ProcessMove env label choice seen [.task id node (.called held (.ok outputs))]
        { seen with executions := Function.update seen.executions node (seen.executions node + 1) }
        [.emit node (inheritFrameIdentity (inputsOf (env.graph.inputPorts node) held) outputs)
            .collecting,
          .task id node .emitting]
  | collect {label choice seen node outputs} : env.graph.isSink node = true →
      ProcessMove env label choice seen [.emit node outputs .collecting]
        { seen with
          results := mergeResults seen.results (env.resultEntries node outputs)
          collected := seen.collected ++ [(seen.run, env.resultEntries node outputs)] }
        [.emit node outputs .departing]
  | depart {label choice seen node outputs} : seen.stop = false →
      ProcessMove env label choice seen [.emit node outputs .departing] seen
        [.emit node outputs (.routing (env.graph.outEdges node))]
  | restore {label choice seen id node} : env.scheduler.onNodeComplete node true = true →
      ProcessMove env label choice seen [.task id node .emitting] (seen.setExec node .waiting)
        [.eval node [], .check node [], .task id node .released]
  | complete {label choice seen id node} : env.scheduler.onNodeComplete node true = false →
      ProcessMove env label choice seen [.task id node .emitting] (seen.setExec node .completed)
        [.check node [], .task id node .released]
  | mayRetry {label choice seen id node progress} : progress.dry = true →
      seen.streaming = true →
      ProcessMove env label choice seen [.task id node (.gathering progress)] seen
        [.task id node .retrying]
  | retry {label choice seen id node} :
      ProcessMove env label choice seen [.task id node .retrying]
        (seen.setExec node .waiting) [.check node [], .eval node [], .task id node .released]
  | mayRestore {label choice seen id node quit} : seen.streaming = true →
      ProcessMove env label choice seen [.task id node (.failing quit)] seen
        [.task id node (.restoring quit)]
  | restoreFailed {label choice seen id node quit} :
      ProcessMove env label choice seen [.task id node (.restoring quit)]
        (seen.setExec node .waiting)
        (.eval node [] :: (afterFailure node quit ++ [.task id node .released]))
  | fail {label choice seen id node quit} :
      ProcessMove env label choice seen [.batched, .task id node (.failing quit)]
        (seen.setExec node .failed)
        (.stopping :: (afterFailure node quit ++ [.task id node .released]))

def Env.IsComplete (env : Env) (readings : List (Nat × Nat)) : Prop :=
  readings.map Prod.fst = env.graph.sinkNodes ∧
    (env.scheduler.checkCompletion 0 0
      (readings.map fun reading => (env.graph.name reading.1, reading.2))).isComplete = true

def Env.NotComplete (env : Env) (readings : List (Nat × Nat)) : Prop :=
  readings.map Prod.fst = env.graph.sinkNodes ∧
    (env.scheduler.checkCompletion 0 0
      (readings.map fun reading => (env.graph.name reading.1, reading.2))).isComplete = false

inductive SettleMove (env : Env) : MoveRelation π
  | decrement {label choice seen id node} :
      SettleMove env label choice seen [.task id node .released]
        { seen with active := seen.active - 1, decremented := seen.decremented ++ [id] }
        [.settling id (some [])]
  | decrementRefused {label choice seen id node} :
      SettleMove env label choice seen [.task id node .rolledBack]
        { seen with active := seen.active - 1, decremented := seen.decremented ++ [id] }
        [.settling id (some [])]
  | finish {label choice seen id} :
      SettleMove env label choice seen [.settling id none, .worker id]
        { seen with ended := seen.ended ++ [id] } []
  | finishCrashed {label choice seen id} :
      SettleMove env label choice seen [.crashed, .worker id]
        { seen with ended := seen.ended ++ [id] } []
  | sawActive {label choice seen id readings} : seen.active ≠ 0 →
      SettleMove env label choice seen [.settling id (some readings)] seen [.settling id none]
  | sawStreaming {label choice seen id readings} : seen.streaming = true →
      SettleMove env label choice seen [.settling id (some readings)] seen [.settling id none]
  | readSink {label choice seen id readings sink} :
      SettleMove env label choice seen [.settling id (some readings)] seen
        [.settling id (some (readings ++ [(sink, seen.executions sink)]))]
  | claimReport {choice seen id readings} : seen.reported = false → env.IsComplete readings →
      SettleMove env .claimCompletion choice seen [.settling id (some readings)]
        { seen with reported := true } [.reporting id seen.run none]
  | claimLate {choice seen id readings} : seen.reported = true →
      SettleMove env .claimCompletion choice seen [.settling id (some readings)]
        { seen with reported := true } [.settling id none]
  | readResults {label choice seen id run} :
      SettleMove env label choice seen [.reporting id run none] seen
        [.reporting id run (some seen.results)]
  | publish {label choice seen id run results} :
      SettleMove env label choice seen [.reporting id run (some results)]
        { seen with published := seen.published ++ [(run, results)] } [.settling id none]

def Env.Signals (env : Env) (procedure : Proc π) (node port : Nat) : Prop :=
  ∃ name portName, procedure = .signalEndOfStream name portName ∧
    env.graph.indexOf name = some node ∧ port < kMaxEosPorts ∧ port < env.portCount node

inductive EosMove (env : Env) : MoveRelation π
  | observe {label choice seen node observed} {observation : Obs} :
      observation.Holds seen node →
      EosMove env label choice seen [.check node observed] seen
        [.check node (observation :: observed)]
  | off {label choice seen node observed} : seen.streaming = false ∨ seen.stop = true →
      EosMove env label choice seen [.check node observed] seen []
  | done {label choice seen node observed} : seen.propagated node = true →
      EosMove env label choice seen [.check node observed] seen []
  | busy {label choice seen node observed} : .busy ∈ observed →
      seen.exec node ≠ .completed →
      EosMove env label choice seen [.check node observed] seen []
  | claim {choice seen node observed} :
      seen.exec node = .waiting ∨ seen.exec node = .completed → env.AllDrained node observed →
      EosMove env (.claimEos node) choice seen [.check node observed]
        { seen.setExec node .executing with
          finishing := Function.update seen.finishing node (seen.finishing node + 1) }
        [.eos node (.claimed observed)]
  | win {label choice seen node observed} : seen.propagated node = false →
      EosMove env label choice seen [.eos node (.claimed observed)]
        { seen with propagated := Function.update seen.propagated node true }
        [.eos node .winning]
  | lose {label choice seen node observed} : seen.propagated node = true →
      EosMove env label choice seen [.eos node (.claimed observed)]
        { seen with propagated := Function.update seen.propagated node true }
        [.eos node .losing]
  | yield {label choice seen node} :
      EosMove env label choice seen [.eos node .losing]
        { seen.setExec node .waiting with
          finishing := Function.update seen.finishing node (seen.finishing node - 1) } []
  | flushBegin {label choice seen node} :
      EosMove env label choice seen [.eos node .winning]
        { seen with
          flushes := Function.update seen.flushes node (seen.flushes node + 1)
          flushing := Function.update seen.flushing node (seen.flushing node + 1) }
        [.eos node .flushing]
  | flushEnd {choice seen node} :
      EosMove env (.flush node) choice seen [.eos node .flushing]
        { seen with
          flushing := Function.update seen.flushing node (seen.flushing node - 1)
          flushed := Function.update seen.flushed node true }
        [.eos node (.flushed (choice.outcome.toOption.getD []))]
  | complete {label choice seen node} :
      EosMove env label choice seen [.eos node .emitting] (seen.setExec node .completed)
        [.eos node (.cascading (env.graph.outEdges node))]
  | latch {choice seen node edge rest port} : edge.destNode < env.graph.nodeCount →
      edge.destPortIndex = some port → port < kMaxEosPorts →
      EosMove env (.cascadeLatch edge.destNode port) choice seen
        [.eos node (.cascading (edge :: rest))] (seen.latch edge.destNode port)
        [.check edge.destNode [], .eos node (.cascading rest)]
  | countSink {label choice seen node} : env.graph.isSink node = true →
      EosMove env label choice seen [.eos node (.cascading [])]
        { seen with sinksAtEos := seen.sinksAtEos + 1 }
        [.eos node (.counted (seen.sinksAtEos + 1))]
  | reach {label choice seen node reached} :
      env.graph.sinkNodes.length ≠ 0 → env.graph.sinkNodes.length ≤ reached →
      seen.endReached = false →
      EosMove env label choice seen [.eos node (.counted reached)]
        { seen with endReached := true } [.eos node .ending]
  | reachAgain {label choice seen node reached} :
      env.graph.sinkNodes.length ≠ 0 → env.graph.sinkNodes.length ≤ reached →
      seen.endReached = true →
      EosMove env label choice seen [.eos node (.counted reached)]
        { seen with endReached := true } [.eos node .over]
  | announceEnd {label choice seen node} :
      EosMove env label choice seen [.eos node .ending]
        { seen with endCallbacks := seen.endCallbacks + 1, runEnds := seen.runEnds + 1 }
        [.eos node .over]
  | finish {label choice seen node} :
      EosMove env label choice seen [.eos node .over]
        { seen with finishing := Function.update seen.finishing node (seen.finishing node - 1) }
        [.flushed node]
  | signal {choice seen procedure node port} : env.Signals procedure node port →
      seen.latched node port = false →
      EosMove env (.signalLatch node port) choice seen [.api procedure] (seen.latch node port)
        [.check node [], .eval node [], .api procedure]
  | signalAgain {choice seen procedure node port} : env.Signals procedure node port →
      seen.latched node port = true →
      EosMove env (.signalLatch node port) choice seen [.api procedure] (seen.latch node port)
        [.api procedure]

inductive CallMove : MoveRelation π
  | enter {choice seen inputs wait context timeout} :
      CallMove .enterCall choice seen [.api (.execute inputs wait context timeout)]
        { seen with called := seen.called + 1 } [.call wait inputs .entered]
  | feed {label choice seen inputs wait} : seen.streaming = true →
      CallMove label choice seen [.call wait inputs .entered] seen [.feed inputs]
  | batch {label choice seen inputs wait} : seen.streaming = false →
      CallMove label choice seen [.call wait inputs .entered] seen [.call wait inputs .batch]
  | distributed {label choice seen wait inputs} :
      CallMove label choice seen [.call wait inputs (.distributing [])]
        { seen with distributed := true } [.call wait inputs .launched]
  | pass {choice seen wait inputs} : seen.active = 0 ∨ seen.stop = true →
      CallMove .waiterTest choice seen [.call wait inputs .launched] seen
        [.call wait inputs .passed]
  | expire {choice seen wait inputs} : choice.expires = true →
      CallMove .waiterTest choice seen [.call wait inputs .launched] seen
        [.call wait inputs .expired]
  | readStop {label choice seen wait inputs} :
      CallMove label choice seen [.call wait inputs .passed] seen
        [.call wait inputs (.sawStop seen.stop)]
  | readActive {label choice seen wait inputs stop} :
      CallMove label choice seen [.call wait inputs (.sawStop stop)] seen
        [.call wait inputs (.sawActive stop seen.active)]
  | answer {label choice seen wait inputs result} :
      CallMove label choice seen [.call wait inputs (.answer result)]
        { seen with
          returned := seen.returned + 1
          returns := seen.returns ++ [result] } []

inductive Move (env : Env) : MoveRelation π
  | control {label choice seen seen' top top'} :
      ControlMove label choice seen top seen' top' → Move env label choice seen top seen' top'
  | schedule {label choice seen seen' top top'} :
      ScheduleMove label choice seen top seen' top' → Move env label choice seen top seen' top'
  | gather {label choice seen seen' top top'} :
      GatherMove env label choice seen top seen' top' → Move env label choice seen top seen' top'
  | push {label choice seen seen' top top'} :
      PushMove env label choice seen top seen' top' → Move env label choice seen top seen' top'
  | process {label choice seen seen' top top'} :
      ProcessMove env label choice seen top seen' top' → Move env label choice seen top seen' top'
  | settle {label choice seen seen' top top'} :
      SettleMove env label choice seen top seen' top' → Move env label choice seen top seen' top'
  | eos {label choice seen seen' top top'} :
      EosMove env label choice seen top seen' top' → Move env label choice seen top seen' top'
  | call {label choice seen seen' top top'} :
      CallMove label choice seen top seen' top' → Move env label choice seen top seen' top'

end AiPipe
