import AiPipe.Engine.Alone

/-!
The engine's inner code.  None of its accesses is ever blocked, apart from the locked scope of
`stopExecutionAsync`; it takes no frame number, and puts packets into queues only under labels
that say so.
-/

namespace AiPipe

open Concurrency Env State

variable {π : Type}

/-- What an access of the inner code may leave behind.  Without `input` it puts nothing into
the queue that a client feeds. -/
inductive Ordinary (input : Bool) (label : Label π) (state : State π) : State π → Prop
  | still {after : State π} : after.tracked = state.tracked →
      after.watchdogMutex = state.watchdogMutex → Ordinary input label state after
  | pop {node port : Nat} : Ordinary input label state (state.updateQueue node port PortQueue.pop)
  | push {node port : Nat} {data : PortDataPtr π} {route : Route} :
      label = .enqueue node port route → (route = .input → input = true) →
      Ordinary input label state (state.updateQueue node port fun queue => queue.push data)

def Plain (input : Bool) (label : Label π) {β : Type}
    (effect : Choice π → State π → Option (β × State π)) : Prop :=
  ∀ choice state, ∃ answer after, effect choice state = some (answer, after) ∧
    Ordinary input label state after

def Proc.isInner (input : Bool) : Proc π → Prop
  | .checkNodeEndOfStream _ _ => True
  | .pushFallback _ _ _ route _ => route = .input → input = true
  | .evictToWindow _ _ _ => True
  | .gatherPort _ _ _ => True
  | .peekAlignmentHead _ _ => True
  | .gatherAligned _ => True
  | _ => False

def Proc.isSpawned : Proc π → Prop
  | .runTask _ _ _ => True
  | .deferTimerLoop _ => True
  | _ => False

inductive Routine (input : Bool) {α : Type} : Code π α → Prop
  | ret {value : α} : Routine input (.ret value)
  | throw : Routine input .throw
  | act {β : Type} {label : Label π} {effect : Choice π → State π → Option (β × State π)}
      {next : β → Code π α} : Plain input label effect → (∀ answer, Routine input (next answer)) →
      Routine input (.act label effect next)
  | stop {next : Option Unit → Code π α} : (∀ exit, Routine input (next exit)) →
      Routine input ((withEngineLock stopIfRunning).onExit next)
  | call {procedure : Proc π} {next : Option (Answer π) → Code π α} : procedure.isInner input →
      (∀ exit, Routine input (next exit)) → Routine input (.call procedure next)
  | spawn {procedure : Proc π} {next : Code π α} : procedure.isSpawned →
      Routine input next → Routine input (.spawn procedure next)

namespace Routine

variable {input : Bool} {α β γ : Type}

theorem onExit {first : Code π α} {next : Option α → Code π β} (routine : Routine input first)
    (rest : ∀ exit, Routine input (next exit)) : Routine input (first.onExit next) := by
  induction routine with
  | ret => exact rest _
  | throw => exact rest _
  | act plain _ ih => exact .act plain ih
  | stop _ ih =>
    rw [Prog.onExit_onExit]
    exact .stop ih
  | call inner _ ih => exact .call inner ih
  | spawn spawned _ ih => exact .spawn spawned ih

theorem bind {first : Code π α} {next : α → Code π β} (routine : Routine input first)
    (rest : ∀ value, Routine input (next value)) : Routine input (first >>= next) := by
  refine routine.onExit fun exit => ?_
  cases exit with
  | none => exact .throw
  | some value => exact rest value

theorem invoke {procedure : Proc π} (inner : procedure.isInner input) :
    Routine input (Prog.invoke procedure : Code π (Answer π)) := by
  refine .call inner fun exit => ?_
  cases exit with
  | none => exact .throw
  | some answer => exact .ret

theorem forEach {each : γ → Code π Unit} (routine : ∀ item, Routine input (each item))
    (items : List γ) : Routine input (Prog.forEach each items) := by
  induction items with
  | nil => exact .ret
  | cons item rest ih => exact .bind (routine item) fun _ => ih

variable {label : Label π}

theorem access {effect : Choice π → State π → Option (β × State π)}
    (still : ∀ choice state, ∃ answer after, effect choice state = some (answer, after) ∧
      after.tracked = state.tracked ∧ after.watchdogMutex = state.watchdogMutex) :
    Routine input (.act label effect .ret) := by
  refine .act (fun choice state => ?_) fun _ => .ret
  obtain ⟨answer, after, made, same, watched⟩ := still choice state
  exact ⟨answer, after, made, .still same watched⟩

variable {field : State π → β}

theorem readAs : Routine input (AiPipe.readAs label field) :=
  .access fun _ state => ⟨field state, state, rfl, rfl, rfl⟩

theorem read : Routine input (AiPipe.read field) := .readAs

variable {change : State π → State π}

theorem storeAs (same : ∀ state, (change state).tracked = state.tracked)
    (watched : ∀ state, (change state).watchdogMutex = state.watchdogMutex) :
    Routine input (AiPipe.storeAs label change) :=
  .access fun _ state => ⟨(), change state, rfl, same state, watched state⟩

theorem store (same : ∀ state, (change state).tracked = state.tracked)
    (watched : ∀ state, (change state).watchdogMutex = state.watchdogMutex) :
    Routine input (AiPipe.store change) := .storeAs same watched

theorem note {change : History π → History π} :
    Routine input (AiPipe.store fun state => state.updateHistory change) :=
  .store (fun _ => rfl) fun _ => rfl

variable {change : NodeState π → NodeState π} {node : Nat}

theorem updateNodeAs (same : ∀ entry, (change entry).queues = entry.queues) :
    Routine input (AiPipe.storeAs label fun state => state.updateNode node change) :=
  .storeAs (fun _ => tracked_updateNode (same _)) fun _ => rfl

theorem updateNode (same : ∀ entry, (change entry).queues = entry.queues) :
    Routine input (AiPipe.store fun state => state.updateNode node change) := .updateNodeAs same

theorem count {change : Statistics → Statistics} : Routine input (π := π) (AiPipe.count change) :=
  .store (fun _ => rfl) fun _ => rfl

theorem setExec {value : NodeExecutionState} :
    Routine input (π := π) (AiPipe.setExec node value) := .updateNode fun _ => rfl

theorem clock : Routine input (π := π) AiPipe.clock :=
  .access fun choice state => ⟨choice.now, state, rfl, rfl, rfl⟩

theorem external : Routine input (π := π) AiPipe.external := by
  refine .act (fun choice state => ⟨choice.throws, state, rfl, .still rfl rfl⟩) fun throws => ?_
  cases throws with
  | true => exact .throw
  | false => exact .ret

theorem casExecAs {expected desired : NodeExecutionState} :
    Routine input (AiPipe.casExecAs label node expected desired) := by
  refine .access fun _ state => ?_
  split
  · exact ⟨true, _, rfl, tracked_updateNode rfl, rfl⟩
  · exact ⟨false, state, rfl, rfl, rfl⟩

theorem emitTrace {env : Env} : Routine input (π := π) env.emitTrace := by
  unfold Env.emitTrace
  split
  · exact .external
  · exact .ret

end Routine

section Queues

variable {input : Bool} {env : Env} {node port : Nat} {data : PortDataPtr π} {route : Route}

theorem routine_tryPop {label : Label π} : Routine input (Env.tryPop label node port) := by
  refine .act (fun choice state => ?_) fun _ => .ret
  cases choice.offered (state.queue node port) with
  | none => exact ⟨none, state, rfl, .still rfl rfl⟩
  | some data => exact ⟨_, _, rfl, .pop⟩

theorem routine_tryPush (fed : route = .input → input = true) :
    Routine input (env.tryPush node port data route) := by
  refine .act (fun _ state => ?_) fun _ => .ret
  split
  · exact ⟨false, state, rfl, .still rfl rfl⟩
  · exact ⟨true, _, rfl, .push rfl fed⟩

theorem routine_countDrop (place : Option Place) : Routine input (π := π) (countDrop place) :=
  .store (fun _ => rfl) fun _ => rfl

theorem routine_invokeDropCallback (report : DropReport) :
    Routine input (π := π) (invokeDropCallback report) := .note

theorem routine_reportDrop (frame : Nat) (reason : String) :
    Routine input (π := π) (env.reportDrop node frame reason) := by
  refine .act (fun choice state => ⟨_, _, rfl, ?_⟩) fun throws => ?_
  · split <;> exact .still rfl rfl
  · cases throws with
    | true => exact .throw
    | false => exact .ret

theorem routine_notifyDrop (dropped : Taken π) (reason : String) :
    Routine input (env.notifyDrop node dropped reason) := by
  refine .bind (routine_countDrop _) fun _ => .bind (routine_invokeDropCallback _) fun _ => ?_
  split
  · exact routine_reportDrop _ _
  · exact .ret

theorem routine_evictAndNotify (reason : String) :
    Routine input (π := π) (env.evictAndNotify node port reason) := by
  refine .bind routine_tryPop fun taken => ?_
  cases taken with
  | none => exact .ret
  | some dropped => exact .bind (routine_notifyDrop dropped reason) fun _ => .ret

theorem routine_evictToWindow (keep : Nat) :
    Routine input (π := π) (env.evictToWindow node port keep) := by
  refine .bind .read fun size => ?_
  split
  · refine .bind (routine_evictAndNotify _) fun evicted => ?_
    split
    · exact .invoke trivial
    · exact .ret
  · exact .ret

theorem routine_recordQueueRejection : Routine input (π := π) (env.recordQueueRejection node) :=
  .bind .count fun _ => .bind (routine_countDrop _) fun _ => routine_invokeDropCallback _

variable (fed : route = .input → input = true)
include fed

theorem routine_spinPush (spins : Nat) : Routine input (env.spinPush node port data route spins) := by
  induction spins with
  | zero => exact .ret
  | succ spins ih =>
    refine .bind (routine_tryPush fed) fun accepted => ?_
    split
    · exact .ret
    · exact ih

theorem routine_pushFallback (reason : String) :
    Routine input (env.pushFallback node port data route reason) := by
  refine .bind (routine_tryPush fed) fun accepted => ?_
  split
  · exact .ret
  · exact .bind (routine_evictAndNotify reason) fun _ => .invoke fed

theorem routine_evictionRounds (rounds : Nat) :
    Routine input (env.evictionRounds node port data route rounds) := by
  induction rounds with
  | zero => exact .bind (.invoke fed) fun _ => .ret
  | succ rounds ih =>
    refine .bind (routine_evictAndNotify _) fun _ => .bind (routine_spinPush fed _) fun accepted => ?_
    split
    · exact .ret
    · exact ih

theorem routine_push : Routine input (env.push node port data route) := by
  unfold Env.push
  split
  · exact routine_tryPush fed
  · refine .bind (routine_tryPush fed) fun accepted => ?_
    split
    · exact .ret
    · exact routine_evictionRounds fed 4
  · refine .bind (.invoke trivial) fun _ => .bind (routine_tryPush fed) fun accepted => ?_
    split
    · exact .ret
    · refine .bind (routine_evictAndNotify _) fun _ => .bind (routine_spinPush fed _) fun pushed => ?_
      split
      · exact .ret
      · exact .bind (.invoke fed) fun _ => .ret

theorem routine_pushToQueue (name : String) :
    Routine input (env.pushToQueue node name data route) := by
  unfold pushToQueue
  split
  · exact .ret
  · refine .bind (routine_push fed) fun accepted => ?_
    split
    · exact .bind .emitTrace fun _ => .ret
    · exact .bind routine_recordQueueRejection fun _ => .ret

end Queues

section Gathers

variable {input : Bool} {env : Env} {node port : Nat}

theorem routine_portDrained : Routine input (π := π) (portDrained node port) := by
  refine .bind .read fun latched => ?_
  split
  · exact .read
  · exact .ret

variable (ports : List Nat)

theorem routine_portsDrained : Routine input (π := π) (portsDrained node ports) := by
  induction ports with
  | nil => exact .ret
  | cons port rest ih =>
    refine .bind routine_portDrained fun drained => ?_
    split
    · exact ih
    · exact .ret

theorem routine_allInputPortsDrained : Routine input (π := π) (env.allInputPortsDrained node) := by
  unfold allInputPortsDrained
  split
  · exact .ret
  · exact routine_portsDrained _

theorem routine_recordDequeue : Routine input (π := π) env.recordDequeue := by
  unfold recordDequeue
  split
  · exact .count
  · exact .ret

theorem routine_recordSyncDrop (place : Option Place) (frame : Nat) (reason : String) :
    Routine input (π := π) (env.recordSyncDrop node place frame reason) :=
  .bind (routine_countDrop _) fun _ => routine_invokeDropCallback _

theorem routine_shouldDrop (frame : Nat) : Routine input (π := π) (env.shouldDrop node frame) := by
  unfold shouldDrop
  split
  · exact .bind .external fun _ => .readAs
  · exact .ret

theorem routine_gatherPort (held : Nat) : Routine input (π := π) (env.gatherPort node port held) := by
  refine .bind routine_tryPop fun taken => ?_
  cases taken with
  | none => exact .ret
  | some packet =>
    refine .bind (routine_shouldDrop _) fun drop => ?_
    split
    · exact .bind (routine_recordSyncDrop _ _ _) fun _ => .invoke trivial
    · exact .bind routine_recordDequeue fun _ => .ret

theorem routine_gatherPorts (anyOpen : Bool) (taken : List (Taken π)) :
    Routine input (Env.gatherPorts node ports anyOpen taken) := by
  induction ports generalizing anyOpen taken with
  | nil => exact .ret
  | cons port rest ih =>
    refine .bind routine_portDrained fun drained => ?_
    split
    · exact ih _ _
    · refine .bind (.invoke trivial) fun answer => ?_
      split
      · exact .ret
      · exact ih _ _

theorem routine_peekAlignmentHead : Routine input (π := π) (env.peekAlignmentHead node port) := by
  refine .bind (.access fun _ state => ⟨_, state, rfl, rfl, rfl⟩) fun head => ?_
  cases head with
  | none => exact .ret
  | some head =>
    refine .bind (routine_shouldDrop _) fun drop => ?_
    split
    · exact .bind routine_tryPop fun _ => .bind (routine_recordSyncDrop _ _ _) fun _ => .invoke trivial
    · exact .ret

theorem routine_dropStaleHead (head : PortDataPtr π) (reason : String) :
    Routine input (env.dropStaleHead node port head reason) := by
  refine .bind routine_tryPop fun _ => .bind (routine_recordSyncDrop _ _ _) fun _ => ?_
  split
  · exact routine_reportDrop _ _
  · exact .ret

theorem routine_popAndDeliver (held : Nat) :
    Routine input (π := π) (env.popAndDeliver node port held) := by
  refine .bind routine_tryPop fun taken => ?_
  cases taken with
  | none => exact .ret
  | some packet => exact .bind routine_recordDequeue fun _ => .ret

theorem routine_collectHeads (heads : List (Bool × PortDataPtr π)) :
    Routine input (Env.collectHeads node ports heads) := by
  induction ports generalizing heads with
  | nil => exact .ret
  | cons port rest ih =>
    refine .bind routine_portDrained fun drained => ?_
    split
    · exact ih _
    · refine .bind (.invoke trivial) fun answer => ?_
      split
      · exact .ret
      · exact ih _

variable (taken : List (Taken π))

theorem routine_popAligned : Routine input (env.popAligned node ports taken) := by
  induction ports generalizing taken with
  | nil => exact .ret
  | cons port rest ih =>
    refine .bind (routine_popAndDeliver _) fun popped => ?_
    cases popped with
    | none => exact .ret
    | some packet => exact ih _

theorem routine_gatherAligned : Routine input (π := π) (env.gatherAligned node) := by
  refine .bind (routine_collectHeads _ _) fun heads => ?_
  cases heads with
  | none => exact .ret
  | some heads =>
    dsimp only
    split
    · exact .ret
    · split
      · exact routine_popAligned _ _
      · split
        · exact .ret
        · exact .bind (.forEach (fun _ => routine_dropStaleHead _ _) _) fun _ => .invoke trivial

variable (heads : List (Option (PortDataPtr π)))

theorem routine_peekPorts : Routine input (Env.peekPorts node ports heads) := by
  induction ports generalizing heads with
  | nil => exact .ret
  | cons port rest ih => exact .bind (.invoke trivial) fun _ => ih _

theorem routine_degradePorts
    (reference : Option (PortData π)) (ports : List Nat) (delivered : Bool) (taken : List (Taken π)) :
    Routine input (env.degradePorts node heads reference ports delivered taken) := by
  induction ports generalizing delivered taken with
  | nil => exact .ret
  | cons port rest ih =>
    unfold degradePorts
    split
    · exact ih _ _
    · split
      · exact ih _ _
      · split
        · refine .bind (routine_popAndDeliver _) fun popped => ?_
          cases popped with
          | none => exact ih _ _
          | some packet => exact ih _ _
        · exact .bind (routine_dropStaleHead _ _) fun _ => ih _ _

theorem routine_degradeJoinGather : Routine input (env.degradeJoinGather node taken) := by
  refine .bind (routine_peekPorts _ _) fun heads => ?_
  dsimp only
  split
  · exact .ret
  · exact .bind .count fun _ => .bind (routine_degradePorts _ _ _ _ _) fun _ => .ret

theorem routine_takeDegradeRequest : Routine input (π := π) (env.takeDegradeRequest node) := by
  unfold takeDegradeRequest
  split
  · exact .ret
  · exact .access fun _ state => ⟨_, _, rfl, tracked_updateNode rfl, rfl⟩

theorem routine_anyPortDry : Routine input (π := π) (anyPortDry node ports) := by
  induction ports with
  | nil => exact .ret
  | cons port rest ih =>
    refine .bind .read fun dry => ?_
    split
    · exact .ret
    · exact ih

theorem routine_plainGather : Routine input (π := π) (env.plainGather node) :=
  routine_gatherPorts _ _ _

theorem routine_gatherNodeInputs : Routine input (π := π) (env.gatherNodeInputs node) := by
  unfold gatherNodeInputs
  split
  · refine .bind routine_takeDegradeRequest fun requested => ?_
    split
    · refine .bind (.invoke trivial) fun answer => ?_
      dsimp only
      split
      · exact .ret
      · split
        · exact routine_degradeJoinGather _
        · exact .ret
    · split
      · refine .bind (routine_anyPortDry _) fun dry => ?_
        split
        · exact routine_degradeJoinGather _
        · exact routine_plainGather
      · exact routine_plainGather
  · exact routine_plainGather

end Gathers

section Tasks

variable {input : Bool} {env : Env} {node : Nat} {context : Option Nat}

theorem routine_stopExecutionAsync : Routine input (π := π) stopExecutionAsync := by
  refine .bind (.access fun _ _ => ⟨_, _, rfl, rfl, rfl⟩) fun first => ?_
  split
  · rw [← Prog.bind_ret (withEngineLock stopIfRunning)]
    refine .stop fun exit => ?_
    cases exit with
    | none => exact .throw
    | some value => exact .ret
  · exact .ret

theorem routine_isStopRequested : Routine input (π := π) isStopRequested := by
  refine .bind .read fun stopped => ?_
  split
  · exact .ret
  · refine .bind .read fun context => ?_
    cases context with
    | none => exact .ret
    | some context =>
      refine .bind .read fun cancelled => ?_
      split
      · exact .bind routine_stopExecutionAsync fun _ => .ret
      · exact .ret

theorem routine_invokeErrorCallback (message name : String) :
    Routine input (π := π) (invokeErrorCallback message name) := .note

theorem routine_announceTask : Routine input (π := π) (announceTask node) :=
  .access fun _ _ => ⟨_, _, rfl, rfl, rfl⟩

variable (task : Nat)

theorem routine_decrementTask : Routine input (π := π) (decrementTask task) :=
  .store (fun _ => rfl) fun _ => rfl

theorem routine_endTask : Routine input (π := π) (endTask task) := .note

theorem routine_postTask : Routine input (π := π) (postTask node) :=
  .access fun choice state => ⟨choice.posted, state, rfl, rfl, rfl⟩

theorem routine_countInputs (ports : List Nat) (counted : SchedulingContext) :
    Routine input (π := π) (countInputs node ports counted) := by
  induction ports generalizing counted with
  | nil => exact .ret
  | cons port rest ih =>
    refine .bind routine_portDrained fun drained => ?_
    split
    · exact ih _
    · refine .bind .read fun dry => ?_
      split
      · exact ih _
      · exact ih _

theorem routine_collectSinkCounts (name : Nat → String) (sinks : List Nat) :
    Routine input (π := π) (collectSinkCounts name sinks) := by
  induction sinks with
  | nil => exact .ret
  | cons sink rest ih => exact .bind .read fun _ => .bind ih fun _ => .ret

theorem routine_checkCompletionAndNotify : Routine input (π := π) env.checkCompletionAndNotify := by
  refine .bind .read fun streaming => ?_
  split
  · exact .ret
  · refine .bind .read fun active => ?_
    split
    · exact .ret
    · refine .bind (routine_collectSinkCounts _ _) fun counts => .bind .external fun _ => ?_
      split
      · refine .bind (.access fun _ state => ⟨_, _, rfl, rfl, rfl⟩) fun claimed => ?_
        cases claimed with
        | none => exact .ret
        | some run =>
          refine .bind (.store (fun state => ?_) fun state => ?_) fun _ =>
            .bind .read fun _ => .note
          · split <;> rfl
          · split <;> rfl
      · exact .ret

theorem routine_scheduleNodeExecution : Routine input (π := π) (env.scheduleNodeExecution node) := by
  refine .bind .casExecAs fun claimed => ?_
  split
  · refine .bind routine_announceTask fun task => .bind .read fun context =>
      .bind routine_postTask fun posted => ?_
    split
    · exact .spawn trivial .ret
    · exact .bind .setExec fun _ => .bind (routine_decrementTask _) fun _ =>
        .bind routine_checkCompletionAndNotify fun _ => routine_endTask _
  · exact .ret

theorem routine_scheduleDeferredRetry (delay : Int) :
    Routine input (π := π) (scheduleDeferredRetry node delay) := by
  refine .bind .read fun stopped => ?_
  split
  · exact .ret
  · refine .bind (.access fun _ state => ⟨_, _, rfl, tracked_updateNode rfl, rfl⟩) fun armed => ?_
    split
    · exact .ret
    · refine .bind .clock fun now => .bind (.access fun _ state => ?_) fun timer => ?_
      · dsimp only
        split
        · exact ⟨_, _, rfl, rfl, rfl⟩
        · exact ⟨_, _, rfl, rfl, rfl⟩
      · cases timer with
        | none => exact .ret
        | some number => exact .spawn trivial .ret

theorem routine_tryScheduleNode : Routine input (π := π) (env.tryScheduleNode node) := by
  refine .bind routine_isStopRequested fun stopped => ?_
  split
  · exact .ret
  · split
    · exact .ret
    · refine .bind .read fun current => ?_
      split
      · exact .ret
      · refine .bind routine_allInputPortsDrained fun drained => ?_
        split
        · exact .bind .read fun _ => .bind (.invoke trivial) fun _ => .ret
        · refine .bind (routine_countInputs _ _) fun counted => .bind .read fun executions =>
            .bind .read fun last => .bind .external fun _ => .bind .clock fun now => ?_
          dsimp only
          split
          · exact routine_scheduleNodeExecution
          · exact routine_scheduleDeferredRetry _
          · exact .ret

variable (outputs : PortDataMap π)

theorem routine_propagateEdge (edge : OutEdge) :
    Routine input (env.propagateEdge node outputs edge) := by
  unfold propagateEdge
  split
  · exact .ret
  · split
    · exact .ret
    · split
      · exact .ret
      · split
        · exact .ret
        · refine .bind (routine_push nofun) fun accepted => ?_
          split
          · exact routine_tryScheduleNode
          · exact routine_recordQueueRejection

theorem routine_propagateOutputs : Routine input (env.propagateOutputs node outputs) := by
  refine .bind .read fun stopped => ?_
  split
  · exact .ret
  · exact .forEach (fun _ => routine_propagateEdge _ _) _

theorem routine_collectSink : Routine input (env.collectSink node outputs) := by
  unfold collectSink
  split
  · exact .bind .count fun _ => .store (fun _ => rfl) fun _ => rfl
  · exact .ret

theorem routine_recordSinkEndOfStream : Routine input (π := π) env.recordSinkEndOfStream := by
  refine .bind (.access fun _ state => ⟨_, _, rfl, rfl, rfl⟩) fun reached => ?_
  dsimp only
  split
  · exact .ret
  · refine .bind (.access fun _ state => ⟨_, _, rfl, rfl, rfl⟩) fun before => ?_
    split
    · exact .ret
    · exact .note

theorem routine_latchPortEos (port : Option Nat) :
    Routine input (π := π) (latchPortEos node port context) := by
  unfold latchPortEos
  split
  · exact .ret
  · split
    · exact .ret
    · exact .bind (.updateNodeAs fun _ => rfl) fun _ => .bind (.invoke trivial) fun _ => .ret

theorem routine_flushNode : Routine input (π := π) (env.flushNode node) := by
  refine .bind (.updateNode fun _ => rfl) fun _ => .bind (.access fun choice state =>
    ⟨choice.outcome, _, rfl, tracked_updateNode rfl, rfl⟩) fun outcome => ?_
  cases outcome with
  | ok outputs => exact .ret
  | error message =>
    exact .bind .count fun _ => .bind (routine_invokeErrorCallback _ _) fun _ => .ret

theorem routine_casFlush (expected : NodeExecutionState) :
    Routine input (π := π) (casFlush node expected) := by
  refine .access fun _ state => ?_
  split
  · exact ⟨true, _, rfl, tracked_updateNode rfl, rfl⟩
  · exact ⟨false, state, rfl, rfl, rfl⟩

theorem routine_claimForFlush : Routine input (π := π) (claimForFlush node) := by
  refine .bind (routine_casFlush _) fun claimed => ?_
  split
  · exact .ret
  · exact routine_casFlush _

theorem routine_cascadeEdge (edge : OutEdge) :
    Routine input (π := π) (env.cascadeEdge context edge) := by
  unfold cascadeEdge
  split
  · exact .ret
  · exact routine_latchPortEos _

theorem routine_finishEndOfStream : Routine input (π := π) (env.finishEndOfStream node context) := by
  refine .bind routine_flushNode fun outputs => .bind .emitTrace fun _ => ?_
  have rest : Routine input (π := π) (do
      setExec node .completed
      Prog.forEach (env.cascadeEdge context) (env.graph.outEdges node)
      if env.graph.isSink node then env.recordSinkEndOfStream else .ret ()
      store fun state => state.updateNode node fun entry =>
        { entry with finishing := entry.finishing - 1 }) := by
    refine .bind .setExec fun _ => .bind (.forEach (fun _ => routine_cascadeEdge _) _) fun _ => ?_
    split
    · exact .bind routine_recordSinkEndOfStream fun _ => .updateNode fun _ => rfl
    · exact .bind .ret fun _ => .updateNode fun _ => rfl
  by_cases silent : outputs.isEmpty = true
  · rw [if_pos silent]
    exact .bind .ret fun _ => rest
  · rw [if_neg silent]
    exact .bind (routine_collectSink _) fun _ => .bind (routine_propagateOutputs _) fun _ => rest

theorem routine_checkNodeEndOfStream :
    Routine input (π := π) (env.checkNodeEndOfStream node context) := by
  refine .bind .read fun streaming => ?_
  split
  · exact .ret
  · refine .bind .read fun stopped => ?_
    split
    · exact .ret
    · refine .bind .read fun propagated => ?_
      split
      · exact .ret
      · refine .bind routine_allInputPortsDrained fun drained => ?_
        split
        · exact .ret
        · refine .bind routine_claimForFlush fun claimed => ?_
          split
          · exact .ret
          · refine .bind (.access fun _ state => ⟨_, _, rfl, tracked_updateNode rfl, rfl⟩)
              fun before => ?_
            split
            · exact .bind (.updateNode fun _ => rfl) fun _ => .ret
            · exact .bind routine_finishEndOfStream fun _ => .ret

variable (taken : List (Taken π))

theorem routine_processNode : Routine input (env.processNode node taken) := by
  refine .bind (.updateNode fun _ => rfl) fun _ => .bind (.access fun choice state =>
    ⟨choice.outcome, _, rfl, tracked_updateNode rfl, rfl⟩) fun outcome => ?_
  cases outcome with
  | ok outputs => exact .ret
  | error message => exact .bind (routine_invokeErrorCallback _ _) fun _ => .ret

theorem routine_markProcessed (inputs : PortDataMap π) :
    Routine input (env.markProcessed node inputs) := by
  unfold markProcessed
  split
  · split
    · exact .ret
    · exact .bind .external fun _ => .store (fun _ => rfl) fun _ => rfl
  · exact .ret

theorem routine_handleNodeSuccess : Routine input (env.handleNodeSuccess node outputs) := by
  refine .bind (.updateNode fun _ => rfl) fun _ => .bind .clock fun now =>
    .bind (.updateNode fun _ => rfl) fun _ => .bind .count fun _ =>
    .bind (routine_collectSink _) fun _ => .bind (routine_propagateOutputs _) fun _ => ?_
  have rest : Routine input (π := π) (do
      external
      if env.scheduler.onNodeComplete node true then do
        setExec node .waiting
        env.tryScheduleNode node
      else setExec node .completed) := by
    refine .bind .external fun _ => ?_
    split
    · exact .bind .setExec fun _ => routine_tryScheduleNode
    · exact .setExec
  by_cases silent : outputs.isEmpty = true
  · rw [if_pos silent]
    exact .bind .ret fun _ => rest
  · rw [if_neg silent]
    exact .bind .emitTrace fun _ => rest

theorem routine_handleNodeFailure : Routine input (π := π) (env.handleNodeFailure node) := by
  refine .bind .count fun _ => .bind .read fun streaming => ?_
  split
  · exact .bind .setExec fun _ => routine_tryScheduleNode
  · exact .bind .setExec fun _ => routine_stopExecutionAsync

theorem routine_finishExecution (outcome : Except String (PortDataMap π)) :
    Routine input (env.finishExecution node taken outcome) := by
  refine .bind .read fun stopped => ?_
  split
  · exact .setExec
  · cases outcome with
    | ok outputs => exact .bind (routine_markProcessed _) fun _ => routine_handleNodeSuccess _
    | error message => exact routine_handleNodeFailure

theorem routine_retryOrFail : Routine input (π := π) (env.retryOrFail node context) := by
  have look : Routine input (π := π) (do
      if ← read streamingMode then .ret (!(← read stopFlag)) else .ret false :
      Code π Bool) := by
    refine .bind .read fun streaming => ?_
    split
    · exact .bind .read fun _ => .ret
    · exact .ret
  refine .bind look fun transient => ?_
  split
  · refine .bind .setExec fun _ => .bind (.invoke trivial) fun answer => ?_
    split
    · exact .ret
    · exact routine_tryScheduleNode
  · exact routine_handleNodeFailure

theorem routine_executeNode : Routine input (π := π) (env.executeNode node context) := by
  refine .bind routine_gatherNodeInputs fun gathered => ?_
  cases gathered with
  | none => exact routine_retryOrFail
  | some taken =>
    exact .bind .count fun _ => .bind (routine_processNode _) fun _ => .bind .emitTrace fun _ =>
      .bind (routine_finishExecution _ _) fun _ => .bind (.invoke trivial) fun _ => .ret

theorem routine_executeNodeTask :
    Routine input (π := π) (env.executeNodeTask task node context) := by
  have rest : Routine input (π := π) (do
      decrementTask task
      env.checkCompletionAndNotify) :=
    .bind (routine_decrementTask _) fun _ => routine_checkCompletionAndNotify
  unfold executeNodeTask
  split
  · exact .bind .ret fun _ => rest
  · refine .bind routine_isStopRequested fun stopped => ?_
    split
    · exact .bind .setExec fun _ => rest
    · refine .bind .casExecAs fun begun => ?_
      split
      · exact .bind routine_executeNode fun _ => rest
      · exact .bind .ret fun _ => rest

theorem routine_runTask : Routine input (env.runTask (π := π) task node context) := by
  refine .onExit ?_ fun _ => .bind (routine_endTask _) fun _ => .ret
  split
  · exact .bind .ret fun _ => routine_executeNodeTask _
  · exact .bind .emitTrace fun _ => routine_executeNodeTask _

theorem routine_countReadyPorts (ports : List Nat) (ready : Nat) :
    Routine input (π := π) (countReadyPorts node ports ready) := by
  induction ports generalizing ready with
  | nil => exact .ret
  | cons port rest ih =>
    refine .bind .read fun dry => ?_
    split
    · exact ih _
    · exact ih _

theorem routine_watchJoin (now : Int) : Routine input (π := π) (env.watchJoin now node) := by
  refine .bind (routine_countReadyPorts _ _) fun ready => ?_
  split
  · exact .updateNode fun _ => rfl
  · refine .bind .read fun since => ?_
    split
    · exact .updateNode fun _ => rfl
    · split
      · exact .ret
      · exact .bind (.updateNode fun _ => rfl) fun _ => .bind (.updateNode fun _ => rfl) fun _ =>
          routine_scheduleNodeExecution

theorem routine_body {procedure : Proc π} (inner : procedure.isInner input) :
    Routine input (env.body procedure) := by
  cases procedure with
  | checkNodeEndOfStream => exact routine_checkNodeEndOfStream
  | pushFallback => exact routine_pushFallback inner _
  | evictToWindow => exact routine_evictToWindow _
  | gatherPort => exact routine_gatherPort _
  | peekAlignmentHead => exact routine_peekAlignmentHead
  | gatherAligned => exact routine_gatherAligned
  | _ => exact inner.elim

end Tasks

end AiPipe
