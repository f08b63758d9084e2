import AiPipe.Protocol.Emission

/-!
The timer threads and the calls of clients follow the protocol, and with them every
procedure of the engine.
-/

namespace AiPipe

open Concurrency Move Env State List

variable {π : Type} {env : Env} {node : Nat}

section Timers

theorem silent_storeNode {change : NodeState π → NodeState π}
    (unseen : ∀ state : State π, view (state.updateNode node change) = view state) :
    env.Silent (store fun state => state.updateNode node change) :=
  silent_store unseen

theorem view_deferPending (state : State π) (value : Bool) :
    view (state.updateNode node fun entry => { entry with deferPending := value }) =
      view state := by
  rw [view_updateNode state node _ _ rfl]
  simp [view, latched]

theorem view_joinWait (state : State π) (value : Int) :
    view (state.updateNode node fun entry => { entry with joinWaitSinceTicks := value }) =
      view state := by
  rw [view_updateNode state node _ _ rfl]
  simp [view, latched]

theorem silent_stopDeferTimer (nodeCount : Nat) : env.Silent (π := π) (stopDeferTimer nodeCount) := by
  refine Silent.bind (silent_access fun choice state answer state' made => ?_) fun running => ?_
  · split at made <;>
      · cases made
        rfl
  · cases running with
    | none => exact silent_ret ()
    | some timer =>
      refine silent_await.bind fun _ => ?_
      exact silent_forEach fun node _ => silent_storeNode fun state => view_deferPending state false

theorem silent_stopJoinTimeoutWatchdog : env.Silent (π := π) stopJoinTimeoutWatchdog := by
  refine Silent.bind (silent_access fun choice state answer state' made => ?_)
    fun _ => silent_await
  split at made
  · simp at made
  · cases made
    rfl

theorem follows_startJoinTimeoutWatchdog (context : Option Nat) (lock : Lock) :
    env.Follows (π := π) startJoinTimeoutWatchdog [.engineLock lock, .api (.startStreaming context)]
      fun _ left => left = [.engineLock lock, .api (.startStreaming context)] := by
  refine silent_stopJoinTimeoutWatchdog.andThen fun _ => ?_
  refine Silent.andThen (silent_store fun _ => rfl) fun _ => ?_
  refine Silent.andThen (silent_access fun choice state answer state' made => ?_)
    fun number => ?_
  · cases made
    rfl
  · refine ⟨[.engineLock lock, .api (.startStreaming context)], [], _, _, _, .refl, Fork.watchdog,
      .watchdog, ?_, ?_⟩
    · intro answer left ends
      exact ends
    · exact .ret rfl

theorem follows_deferTimerLoop (number : Nat) :
    env.Follows (π := π) (env.deferTimerLoop number) [.api (.deferTimerLoop number)]
      fun _ left => left = [] := by
  refine Silent.andThen (silent_access fun choice state answer state' made => ?_)
    fun due => ?_
  · split_ifs at made
    · cases made
      rfl
    split at made
    · simp at made
    split_ifs at made
    cases made
    rfl
  cases due with
  | none =>
    refine Silent.andThen (silent_store fun _ => rfl) fun _ => ?_
    exact follows_ghost [] .leave (.ret rfl)
  | some node =>
    refine (silent_storeNode fun state => view_deferPending state false).andThen fun _ => ?_
    refine follows_ghost [] (.timer node) ?_
    refine .seqFrame [.api (.deferTimerLoop number)] follows_tryScheduleNode fun _ => ?_
    exact .invoke .timer

theorem silent_countReadyPorts (ports : List Nat) (ready : Nat) :
    env.Silent (π := π) (countReadyPorts node ports ready) := by
  induction ports generalizing ready with
  | nil => exact silent_ret ready
  | cons port rest ih =>
    refine (silent_portEmpty port).bind fun empty => ?_
    split
    · exact ih _
    · exact ih _

theorem follows_watchJoin (now : Int) (inside : node < env.graph.nodeCount) :
    env.Follows (π := π) (env.watchJoin now node) [.watching] fun _ left => left = [.watching] := by
  have marks (value : Int) : env.Silent (π := π) (store fun state =>
      state.updateNode node fun entry => { entry with joinWaitSinceTicks := value }) :=
    silent_storeNode fun state => view_joinWait state value
  refine (silent_countReadyPorts _ _).andThen fun ready => ?_
  split
  · exact (marks 0).under _
  refine (silent_read _).andThen fun since => ?_
  split
  · exact (marks now).under _
  split
  · exact .ret rfl
  refine (marks now).andThen fun _ => ?_
  refine .via (fun _ => [.watching]) (follows_store fun choice state => ?_) fun _ => ?_
  · rw [view_updateNode state node _ _ rfl]
    simp only [view, latched, Function.update_eq_self]
    exact .control .request
  refine follows_ghost [] (.watch inside) ?_
  exact (follows_scheduleNodeExecution none).above [.watching]

theorem follows_joinTimeoutWatchdogLoop (watchdog : Nat) :
    env.Follows (π := π) (env.joinTimeoutWatchdogLoop watchdog)
      [.api (.joinTimeoutWatchdogLoop watchdog)] fun _ left => left = [] := by
  refine .via (fun ticked =>
      if ticked then [.watching, .api (.joinTimeoutWatchdogLoop watchdog)]
      else [.api (.joinTimeoutWatchdogLoop watchdog)]) ?_ fun ticked => ?_
  · refine follows_access fun choice state answer state' made => ?_
    split_ifs at made with locked
    · cases made
      exact ⟨_, .idle, rfl⟩
    · cases made
      have unlocked : state.watchdogMutex = false := by simpa using locked
      exact ⟨_, advance (.control (.tick unlocked)), rfl⟩
  cases ticked with
  | false =>
    refine Silent.andThen (silent_store fun _ => rfl) fun _ => ?_
    exact follows_ghost [] .leave (.ret rfl)
  | true =>
    have rests : env.Follows (π := π) (do
        store fun state => { state with watchdogMutex := false }
        Prog.invoke (.joinTimeoutWatchdogLoop watchdog))
        [.watching, .api (.joinTimeoutWatchdogLoop watchdog)] fun _ left => left = [] :=
      follows_storeOn [.watching] [.api (.joinTimeoutWatchdogLoop watchdog)]
        (fun _ _ => .control .untick) (.invoke .watchdog)
    have looks (now : Int) : env.Follows (π := π)
        (Prog.forEach (env.watchJoin now) env.multiInputIndices) [.watching]
        fun _ left => left = [.watching] := by
      refine .forEach (fun _ (left : List (Frame π)) => left = [.watching]) rfl ?_
      rintro node rest left member rfl
      exact follows_watchJoin now (mem_range.mp (mem_filter.mp member).1)
    refine (silent_read _).andThen fun stop => ?_
    dsimp only
    split
    · exact rests
    · refine silent_clock.andThen fun now => ?_
      exact .seqFrame [.api (.joinTimeoutWatchdogLoop watchdog)] (looks now) fun _ => rests

end Timers

section Batch

variable {wait : Bool} {inputs : PortDataMap π}

abbrev callStack (wait : Bool) (inputs : PortDataMap π) (stage : CallStage) : List (Frame π) :=
  [.call wait inputs stage]

theorem follows_distributeTo (node : Nat) (rest : List Nat) :
    env.Follows (env.distributeTo inputs node)
      (callStack wait inputs (.distributing (node :: rest))) fun _ left =>
        left = callStack wait inputs (.distributing rest) := by
  have schedules : env.Follows (π := π) (do
      env.tryScheduleNode node
      .ret (some true)) (.eval node [] :: callStack wait inputs (.distributing rest))
      fun _ left => left = callStack wait inputs (.distributing rest) :=
    .seqFrame _ follows_tryScheduleNode fun _ => .ret rfl
  unfold distributeTo
  split
  next data given =>
    refine .bindFrame (callStack wait inputs _) (follows_stampIncomingFrame data)
      fun stamped own stamping => ?_
    obtain ⟨stamps, rfl⟩ := stamping
    split
    next none =>
      exact follows_ghost [] (.distributeEval (by simp [portCount, none])) schedules
    next port others ports =>
      refine follows_ghost [] (.distributePush given (by simp [portCount, ports]) stamps) ?_
      have found : env.portIndex node port = some 0 := by
        simp [portIndex, ports, idxOf?_cons]
      refine .seqFrame (callStack wait inputs (.distributing rest))
        (follows_pushToQueue found) fun accepted => ?_
      cases accepted with
      | false => exact .ret rfl
      | true => exact (silent_count _).andThen fun _ => schedules
  next missing =>
    split
    next none => exact follows_ghost [] (.distributeEval none) schedules
    next declared => exact follows_ghost [] (.distributeSkip missing declared) (.ret rfl)

theorem follows_distributeLoop (nodes : List Nat) (hasScheduled : Bool) :
    env.Follows (env.distributeLoop inputs nodes hasScheduled)
      (callStack wait inputs (.distributing nodes)) fun success left =>
        if success then left = callStack wait inputs (.distributing [])
        else ∃ stage, left = callStack wait inputs stage := by
  induction nodes generalizing hasScheduled with
  | nil =>
    refine .ret ?_
    split
    · rfl
    · exact ⟨_, rfl⟩
  | cons node rest ih =>
    refine .seq (follows_distributeTo node rest) fun scheduled => ?_
    cases scheduled with
    | none => exact .ret ⟨_, rfl⟩
    | some scheduled => exact ih _

theorem follows_error {error : Error} {stage : CallStage} :
    env.Follows (π := π) (.ret (.error error)) (callStack wait inputs stage) fun result left =>
      left = callStack wait inputs (.answer result) :=
  follows_ghost [] (.error error) (.ret rfl)

theorem silent_storeContext (value : Option Nat) :
    env.Silent (π := π) (store fun state => { state with currentContext := value }) :=
  silent_store fun _ => rfl

/-- The locked end of a wait succeeds only if nothing was stopped and no task is left. -/
theorem follows_settleCompletion (wasStopped : Bool) (active : Int) (current : EngineState) :
    env.Follows (π := π) (settleCompletion wasStopped active current) [.engineLock {}]
      fun result left => left = [.engineLock {}] ∧
        (result = .ok () → wasStopped = false ∧ active = 0) := by
  unfold settleCompletion
  split
  · refine (silent_storeEngineState rfl).andThen fun _ => ?_
    exact (silent_storeContext _).andThen fun _ => .ret ⟨rfl, by simp⟩
  split
  next unstopped settled =>
    refine (silent_storeEngineState rfl).andThen fun _ => ?_
    refine (silent_storeContext _).andThen fun _ => .ret ⟨rfl, fun _ => ⟨?_, by simp_all⟩⟩
    cases wasStopped <;> cases current <;> simp_all
  split
  · refine (silent_storeEngineState rfl).andThen fun _ => ?_
    exact (silent_storeContext _).andThen fun _ => .ret ⟨rfl, by simp⟩
  · exact (silent_storeContext _).andThen fun _ => .ret ⟨rfl, by simp⟩

theorem follows_finishWait :
    env.Follows (π := π) finishWait (callStack wait inputs .passed) fun result left =>
      left = callStack wait inputs (.answer result) := by
  refine .via (fun stop => callStack wait inputs (.sawStop stop))
    (follows_read fun _ _ => ⟨_, advance (.call .readStop), rfl⟩) fun stop => ?_
  refine .via (fun active => callStack wait inputs (.sawActive stop active))
    (follows_read fun _ _ => ⟨_, advance (.call .readActive), rfl⟩) fun active => ?_
  refine (silent_read _).andThen fun current => ?_
  have settles : env.Follows (π := π) (withEngineLock (settleCompletion stop active current)) []
      fun result left => left = [] ∧ (result = .ok () → stop = false ∧ active = 0) := by
    refine follows_withEngineLock ((follows_settleCompletion stop active current).mono ?_)
    rintro result left ⟨rfl, succeeds⟩
    exact ⟨.plain, [], rfl, .inl rfl, rfl, succeeds⟩
  rw [← Prog.bind_ret (withEngineLock _)]
  refine .bindFrame (callStack wait inputs (.sawActive stop active)) settles
    fun result left settled => ?_
  obtain ⟨rfl, succeeds⟩ := settled
  cases result with
  | error error => exact follows_error
  | ok =>
    obtain ⟨rfl, rfl⟩ := succeeds rfl
    exact follows_ghost [] .succeeded (.ret rfl)

theorem completionReached_iff {state : State π} (reached : completionReached state = true) :
    (view state).active = 0 ∨ (view state).stop = true := by
  simpa [completionReached, view] using reached

variable (timeout : Option Nat)

theorem follows_waitForCompletion :
    env.Follows (π := π) (waitForCompletion timeout) (callStack wait inputs .launched)
      fun result left => left = callStack wait inputs (.answer result) := by
  cases timeout with
  | none =>
    refine .via (fun _ => callStack wait inputs .passed)
      (follows_access fun choice state answer state' made => ?_) fun _ => follows_finishWait
    split_ifs at made with reached
    cases made
    exact ⟨_, advance (.call (.pass (completionReached_iff reached))), rfl⟩
  | some timeout =>
    refine .via
      (fun reached => callStack wait inputs (if reached then .passed else .expired)) ?_
      fun reached => ?_
    · refine follows_access fun choice state answer state' made => ?_
      split_ifs at made with reached expires
      · cases made
        exact ⟨_, advance (.call (.pass (completionReached_iff reached))), rfl⟩
      · cases made
        exact ⟨_, advance (.call (.expire expires)), rfl⟩
    cases reached with
    | true => exact follows_finishWait
    | false =>
      have gives : env.Follows (π := π) (do
          stopExecutionAsync
          store fun state => { state with currentContext := none }
          .ret (.error ⟨.executionTimeout,
            "Execution timed out after " ++ toString timeout ++ "ms", ""⟩))
          (callStack wait inputs .expired) fun result left =>
            left = callStack wait inputs (.answer result) := by
        refine follows_ghost [] (.expired ⟨.executionTimeout,
          "Execution timed out after " ++ toString timeout ++ "ms", ""⟩) ?_
        refine .seqFrame (callStack wait inputs _) follows_stopExecutionAsync
          fun _ => ?_
        exact (silent_storeContext _).andThen fun _ => .ret rfl
      refine (silent_read _).andThen fun current => ?_
      cases current with
      | none => exact gives
      | some context =>
        exact .store [] (callStack wait inputs .expired) (fun _ => inferInstance)
          (fun _ _ => .control .cancel) gives

theorem follows_launch :
    env.Follows (env.launch inputs wait timeout)
      (callStack wait inputs (.distributing env.graph.sourceNodes)) fun result left =>
        left = callStack wait inputs (.answer result) := by
  refine .bind (follows_distributeLoop _ false) fun success left distributed => ?_
  cases success with
  | false =>
    obtain ⟨stage, rfl⟩ := distributed
    refine Silent.andThen (Silent.withEngineLock ?_) fun _ => follows_error
    exact (silent_storeEngineState rfl).bind fun _ => silent_storeContext _
  | true =>
    obtain rfl := distributed
    refine follows_storeOn (callStack wait inputs _) [] (fun _ _ => .call .distributed) ?_
    cases wait with
    | true => exact follows_waitForCompletion timeout
    | false => exact follows_ghost [] .fireAndForget (.ret rfl)

abbrev lockStack (life : LifePhase) (wipes : Option (List Wipe)) : List (Frame π) :=
  [.engineLock ⟨life, wipes⟩]

theorem follows_teardownNodes {phase : LifePhase} {wipes : Option (List Wipe)}
    (begins : phase = .plain ∨ phase = .failed) :
    env.Follows (π := π) teardownNodes (lockStack phase wipes) fun _ left =>
      left = lockStack .plain wipes := by
  refine .via (fun nodes => lockStack (.tearing nodes.reverse) wipes)
    (follows_read fun _ _ => ⟨_, advance (.control (.beginTeardown begins)), rfl⟩)
    fun nodes => ?_
  refine .via (fun _ => lockStack (.tearing []) wipes) ?_
    fun _ => follows_store fun _ _ => .control .torn
  refine .forEach
    (fun rest (left : List (Frame π)) => left = lockStack (.tearing rest) wipes) rfl ?_
  rintro node rest left - rfl
  exact follows_storeAs fun _ _ => .control .tear

theorem follows_setupEach (nodes : List Nat) (wipes : Option (List Wipe)) :
    env.Follows (π := π) (env.setupEach nodes) (lockStack (.settingUp nodes) wipes)
      fun result left => left = lockStack (if result.isOk then .up else .plain) wipes := by
  induction nodes with
  | nil => exact follows_ghost [] .allUp (.ret rfl)
  | cons node rest ih =>
    refine .via
      (fun outcome => lockStack (if outcome.isNone then .settingUp rest else .failed) wipes) ?_
      fun outcome => ?_
    · refine follows_access fun choice state answer state' made => ?_
      split at made <;> cases made
      · exact ⟨_, advance (.control .setUp), rfl⟩
      · exact ⟨_, advance (.control .setupFails), rfl⟩
    cases outcome with
    | none => exact ih
    | some error => exact .seq (follows_teardownNodes (.inr rfl)) fun _ => .ret rfl

theorem follows_setupNodes (wipes : Option (List Wipe)) :
    env.Follows (π := π) env.setupNodes (lockStack .plain wipes)
      fun result left => left = lockStack (if result.isOk then .up else .plain) wipes := by
  refine .via (fun nodes => lockStack (if nodes = [] then .down else .up) wipes) ?_
    fun nodes => ?_
  · refine follows_read fun choice state => ?_
    by_cases none : state.setUpNodes = []
    · exact ⟨_, advance (.control (.sawDown none)), by rw [if_pos none]⟩
    · exact ⟨_, advance (.control (.sawUp none)), by rw [if_neg none]⟩
  by_cases none : nodes = []
  · rw [if_pos none, if_pos none]
    exact follows_ghost [] .beginSetup (follows_setupEach _ wipes)
  · rw [if_neg none, if_neg none]
    exact .ret rfl

def Wipes (env : Env) (program : Code π Unit) (targets : List Wipe) : Prop :=
  ∀ life rest, env.Follows program (lockStack life (some (targets ++ rest))) fun _ left =>
    left = lockStack life (some rest)

theorem wipes_one (target : Wipe) : Wipes env (π := π) (wipe target) [target] :=
  fun _ _ => follows_wipe fun _ _ => .control .wipe

theorem Wipes.bind {first next : Code π Unit} {early late : List Wipe}
    (before : Wipes env first early) (after : Wipes env next late) :
    Wipes env (first >>= fun _ => next) (early ++ late) := by
  intro life rest
  rw [append_assoc]
  exact .seq (before life _) fun _ => after life rest

theorem Wipes.forEach {body : Nat → Code π Unit} {targets : Nat → List Wipe} (items : List Nat)
    (each : ∀ item, Wipes env (body item) (targets item)) :
    Wipes env (Prog.forEach body items) (items.flatMap targets) := by
  induction items with
  | nil => exact fun _ _ => .ret rfl
  | cons item rest ih => exact (each item).bind ih

theorem wipes_clearQueues (node : Nat) : Wipes env (π := π) (env.clearQueues node)
    ((env.ports node).map fun port => .queue node port) := by
  rw [map_eq_flatMap]
  exact Wipes.forEach _ fun port => wipes_one (.queue node port)

theorem wipes_resetInternalState : Wipes env (π := π) env.resetInternalState env.wipes := by
  have nodes (node : Nat) : Wipes env (π := π) (env.resetNodeState node)
      ([.exec node, .executionCount node, .joinWait node, .degradePending node, .eosMask node,
        .eosPropagated node] ++ (env.ports node).map fun port => .queue node port) :=
    (wipes_one _).bind ((wipes_one _).bind ((wipes_one _).bind ((wipes_one _).bind
      ((wipes_one _).bind ((wipes_one _).bind (wipes_clearQueues node))))))
  exact (wipes_one _).bind ((wipes_one _).bind ((wipes_one _).bind ((wipes_one _).bind
    ((wipes_one _).bind ((wipes_one _).bind ((wipes_one _).bind ((wipes_one _).bind
      ((wipes_one _).bind ((Wipes.forEach _ nodes).bind (wipes_one _))))))))))

theorem follows_uncancel (context : Nat) (stack : List (Frame π))
    [free : env.protocol.Free stack] :
    env.Follows (π := π) (store fun state =>
      { state with cancelled := Function.update state.cancelled context false }) stack
      fun _ left => left = stack :=
  follows_access fun choice state answer state' made => by
    cases made
    exact ⟨_, above stack (.control .uncancel), rfl⟩

def Env.begunStage (env : Env) : Except Error Unit → CallStage
  | .ok _ => .distributing env.graph.sourceNodes
  | .error _ => .batch

theorem follows_beginExecution (context : Option Nat) :
    env.Follows (withEngineLock (env.beginExecution context)) (callStack wait inputs .batch)
      fun result left => left = callStack wait inputs (env.begunStage result) := by
  refine follows_withEngineLock ?_
  refine (silent_read _).andThen fun current => ?_
  split
  · exact .ret ⟨.plain, _, rfl, .inl rfl, rfl⟩
  refine (silent_storeContext _).andThen fun _ => ?_
  refine .seqFrame (callStack wait inputs .batch) (follows_setupNodes none)
    fun ready => ?_
  cases ready with
  | error error =>
    refine (silent_storeEngineState rfl).andThen fun _ => ?_
    exact (silent_storeContext _).andThen fun _ => .ret ⟨.plain, _, rfl, .inl rfl, rfl⟩
  | ok =>
    refine follows_ghost [] .beginWipe ?_
    have wipes : env.Follows (π := π) env.resetInternalState (lockStack .up (some env.wipes))
        fun _ left => left = lockStack .up (some []) := by
      have all : Wipes env (π := π) env.resetInternalState env.wipes := wipes_resetInternalState
      simpa only [append_nil] using all .up []
    refine .seqFrame (callStack wait inputs .batch) wipes fun _ => ?_
    refine follows_ghost [] .wiped ?_
    have starts : env.Follows (π := π) (do
        store fun state => { state with engineState := .running }
        .ret (.ok ()))
        (lockStack .up none ++ callStack wait inputs (.distributing env.graph.sourceNodes))
        fun (result : Except Error Unit) left => ∃ life rest,
          left = .engineLock ⟨life, none⟩ :: rest ∧ (life = .plain ∨ life = .up) ∧
            rest = callStack wait inputs (env.begunStage result) :=
      follows_storeOn (lockStack .up none) _ (fun _ _ => .control .run)
        (.ret ⟨.up, _, rfl, .inr rfl, rfl⟩)
    refine (silent_read _).andThen fun active => ?_
    cases active with
    | none => exact starts
    | some active => exact .seq (follows_uncancel active _) fun _ => starts

end Batch

section Inputs

variable {name port : String} {data : PortDataPtr π}

abbrev inputStack (name port : String) (data : PortDataPtr π) : List (Frame π) :=
  [.api (.pushInput name port data)]

theorem follows_routeEdges {source : Nat} (known : env.graph.indexOf name = some source)
    (output : env.portIndex source (env.actualPort source port) = none) (edges : List OutEdge)
    (leaving : ∀ edge ∈ edges, edge ∈ env.graph.outEdges source ∧
      edge.sourcePort = env.actualPort source port) (counts : Env.RouteCounts) :
    env.Follows (env.routeEdges data edges counts) (inputStack name port data)
      fun _ left => left = inputStack name port data := by
  induction edges generalizing counts with
  | nil => exact .ret rfl
  | cons edge rest ih =>
    have continued := ih fun other member => leaving other (.tail _ member)
    have pushes : env.Follows (env.pushToQueue edge.destNode edge.destPort data .routed)
        (inputStack name port data) fun accepted left => left =
          (if accepted then [.eval edge.destNode []] else []) ++ inputStack name port data := by
      cases found : env.portIndex edge.destNode edge.destPort with
      | none =>
        rw [pushToQueue, found]
        exact .ret rfl
      | some index =>
        have leaves := leaving edge (by simp)
        refine follows_ghost [] (.routeInput known output leaves.1 leaves.2 found) ?_
        exact (follows_pushToQueue found).above _
    refine .seq pushes fun accepted => ?_
    cases accepted with
    | false => exact continued _
    | true =>
      refine (silent_count _).andThen fun _ => ?_
      refine (silent_count _).andThen fun _ => ?_
      refine .seqFrame (inputStack name port data) follows_tryScheduleNode fun _ => ?_
      exact (silent_getQueueSize _ _).andThen fun size => continued _

theorem follows_pushInput :
    env.Follows (env.pushInput name port data) (inputStack name port data)
      fun _ left => left = inputStack name port data := by
  have asks : env.Silent (π := π) (do
      if ← read streamingMode then .ret true
      else .ret ((← read engineState) == .running)) := by
    refine (silent_read _).bind fun streaming => ?_
    split
    · exact silent_ret _
    · exact (silent_read _).bind fun _ => silent_ret _
  refine asks.andThen fun accepting => ?_
  split
  · exact .ret rfl
  split
  · exact .ret rfl
  next source known =>
  dsimp only
  split
  · exact .ret rfl
  split
  next index found =>
    refine (silent_read _).andThen fun latched => ?_
    split
    · exact .ret rfl
    refine .bindFrame (inputStack name port data) (follows_stampIncomingFrame data)
      fun stamped own stamping => ?_
    obtain ⟨stamps, rfl⟩ := stamping
    refine follows_ghost [] (.pushInput known found stamps) ?_
    refine .seqFrame (inputStack name port data) (follows_pushToQueue found)
      fun accepted => ?_
    cases accepted with
    | false => exact .ret rfl
    | true =>
      refine (silent_count _).andThen fun _ => ?_
      refine (silent_count _).andThen fun _ => ?_
      refine .seqFrame (inputStack name port data) follows_tryScheduleNode fun _ => ?_
      exact (silent_getQueueSize _ _).andThen fun size => .ret rfl
  next output =>
    split
    · have leaving : ∀ edge ∈ (env.graph.outEdges source).filter fun edge =>
          edge.sourcePort == env.actualPort source port, edge ∈ env.graph.outEdges source ∧
            edge.sourcePort = env.actualPort source port := by
        intro edge member
        simpa using mem_filter.mp member
      refine .seq (follows_routeEdges known output _ leaving _) fun counts => ?_
      dsimp only
      split_ifs <;> exact .ret rfl
    · exact .ret rfl

theorem follows_pushEach (entries : PortDataMap π) :
    env.Follows (env.pushEach entries) [.feed entries] fun _ left =>
      ∃ rest, left = [.feed rest] := by
  induction entries with
  | nil => exact .ret ⟨_, rfl⟩
  | cons entry rest ih =>
    refine follows_ghost [] .feedNext ?_
    refine .seqFrame [.feed rest] follows_pushInput fun result => ?_
    refine follows_ghost [.feed rest] .leave ?_
    cases result with
    | error error => exact .ret ⟨_, rfl⟩
    | ok status => exact ih

theorem follows_execute (inputs : PortDataMap π) (wait : Bool) (context timeout : Option Nat) :
    env.Follows (env.execute inputs wait context timeout)
      (callStack wait inputs .entered) fun result left =>
        ∃ wait' inputs', left = callStack wait' inputs' (.answer result) := by
  refine .via
    (fun streaming => if streaming then [.feed inputs] else callStack wait inputs .batch) ?_
    fun streaming => ?_
  · refine follows_read fun choice state => ?_
    cases streaming : state.streamingMode with
    | true => exact ⟨_, advance (.call (.feed streaming)), rfl⟩
    | false => exact ⟨_, advance (.call (.batch streaming)), rfl⟩
  cases streaming with
  | true =>
    refine .bind (follows_pushEach inputs) fun result left fed => ?_
    obtain ⟨rest, rfl⟩ := fed
    cases result with
    | error error => exact follows_ghost [] (.feedEnd wait (.error error)) (.ret ⟨_, _, rfl⟩)
    | ok =>
      have ends : env.Follows (π := π) (.ret (.ok ())) [.feed rest] fun result left =>
          ∃ wait' inputs', left = callStack wait' inputs' (.answer result) :=
        follows_ghost [] (.feedEnd wait (.ok ())) (.ret ⟨_, _, rfl⟩)
      dsimp only
      split
      · exact silent_await.andThen fun _ => ends
      · exact ends
  | false =>
    refine .seq (follows_beginExecution context)
      fun result => ?_
    cases result with
    | error error => exact follows_error.mono fun _ _ same => ⟨_, _, same⟩
    | ok => exact (follows_launch timeout).mono fun _ _ same => ⟨_, _, same⟩

end Inputs

section Modes

theorem follows_startStreaming (context : Option Nat) :
    env.Follows (π := π) (env.startStreaming context) [.api (.startStreaming context)]
      fun _ left => left = [.api (.startStreaming context)] := by
  refine follows_withEngineLock ?_
  refine (silent_read _).andThen fun current => ?_
  split
  · exact .ret ⟨.plain, _, rfl, .inl rfl, rfl⟩
  split
  · exact .ret ⟨.plain, _, rfl, .inl rfl, rfl⟩
  refine .seqFrame [.api (.startStreaming context)] (follows_setupNodes none)
    fun ready => ?_
  cases ready with
  | error error => exact .ret ⟨.plain, _, rfl, .inl rfl, rfl⟩
  | ok =>
    have starts : env.Follows (π := π) (do
        store fun state => { state with currentContext := context }
        store fun state => { state with completionReported := false }
        store fun state => { state with streamingMode := true }
        storeAs .clearStop fun state => { state with stopFlag := false }
        store fun state => { state with engineState := .running }
        count fun _ => {}
        if 0 < env.config.joinWaitTimeout ∧ env.multiInputIndices ≠ [] then
          startJoinTimeoutWatchdog
        else .ret ()
        .ret (.ok ())) (lockStack .up none ++ [.api (.startStreaming context)])
        fun (_ : Except Error Unit) left => ∃ life rest,
          left = .engineLock ⟨life, none⟩ :: rest ∧ (life = .plain ∨ life = .up) ∧
            rest = [.api (.startStreaming context)] := by
      refine (silent_storeContext _).andThen fun _ => ?_
      refine .seq (follows_store fun _ _ => .control .report) fun _ => ?_
      refine .seq (follows_store fun _ _ => .control .stream) fun _ => ?_
      refine .seq (follows_storeAs fun _ _ => .control .unstop) fun _ => ?_
      refine follows_storeOn (lockStack .up none) _ (fun _ _ => .control .run) ?_
      refine (silent_count _).andThen fun _ => ?_
      dsimp only
      split
      · exact .seq (follows_startJoinTimeoutWatchdog context _)
          fun _ => .ret ⟨.up, _, rfl, .inr rfl, rfl⟩
      · exact .ret ⟨.up, _, rfl, .inr rfl, rfl⟩
    cases context with
    | none => exact starts
    | some active => exact .seq (follows_uncancel active _) fun _ => starts

theorem follows_stopStreaming (drain : Bool) :
    env.Follows (π := π) (env.stopStreaming drain) [.api (.stopStreaming drain)]
      fun _ left => left = [.api (.stopStreaming drain)] := by
  have asks : env.Follows (π := π) (withEngineLock (do
      if ← read streamingMode then do
        storeAs .stopStreaming fun state =>
          { state with
            stopFlag := true
            history := { state.history with stopping := state.history.stopping + 1 } }
        .ret true
      else .ret false)) [.api (.stopStreaming drain)]
      fun _ left => left = [.api (.stopStreaming drain)] := by
    refine follows_withEngineLock ((silent_read _).andThen fun streaming => ?_)
    split
    · exact .seq (follows_storeAs fun _ _ => .control .beginStop)
        fun _ => .ret ⟨.plain, _, rfl, .inl rfl, rfl⟩
    · exact .ret ⟨.plain, _, rfl, .inl rfl, rfl⟩
  refine .seq asks fun streaming => ?_
  split
  · refine silent_stopJoinTimeoutWatchdog.andThen fun _ => ?_
    have rests : env.Follows (π := π) (withEngineLock (do
        store fun state => { state with streamingMode := false }
        store fun state => { state with engineState := .idle })) [.api (.stopStreaming drain)]
        fun _ left => left = [.api (.stopStreaming drain)] := by
      refine follows_withEngineLock (.seq (follows_store fun _ _ => .control .unstream)
        fun _ => ?_)
      refine ((silent_storeEngineState rfl).under _).mono ?_
      rintro - left rfl
      exact ⟨.plain, _, rfl, .inl rfl, rfl⟩
    have ends : env.Follows (π := π)
        (note fun history => { history with stopping := history.stopping - 1 })
        [.api (.stopStreaming drain)] fun _ left => left = [.api (.stopStreaming drain)] :=
      follows_store fun _ _ => .control .endStop
    have waits : env.Silent (π := π) (env.waitForDrain 0 5000) := by
      refine silent_awaitOrExpire.bind fun drained => ?_
      split <;> exact silent_ret _
    dsimp only
    split
    · exact waits.andThen fun _ => silent_await.andThen fun _ =>
        .seq rests fun _ => ends
    · exact silent_await.andThen fun _ => .seq rests fun _ => ends
  · exact .ret rfl

theorem follows_stopExecutionSync (frame : Frame π) (stops : frame.Stops) :
    env.Follows (π := π) stopExecutionSync [frame] fun _ left => left = [frame] := by
  have free : env.protocol.Free [frame] := .cons (by cases frame <;> first | rfl | cases stops)
  refine follows_ghost [] (.stopping stops) ?_
  refine .seqFrame [frame] follows_stopExecutionAsync fun _ => ?_
  refine silent_await.andThen fun _ => ?_
  exact silent_stopIfRunning.withEngineLock.under _

theorem wipes_clearNodeState (node : Nat) : Wipes env (π := π) (env.clearNodeState node)
    ([.exec node, .executionCount node, .eosMask node, .eosPropagated node] ++
      (env.ports node).map fun port => .queue node port) :=
  (wipes_one _).bind ((wipes_one _).bind ((wipes_one _).bind ((wipes_one _).bind
    (wipes_clearQueues node))))

theorem follows_reset :
    env.Follows (π := π) env.reset [.resetting] fun _ left => left = [.resetting] := by
  refine .seq (follows_stopExecutionSync .resetting trivial) fun _ => ?_
  refine (silent_stopDeferTimer _).andThen fun _ => ?_
  refine follows_withEngineLock ?_
  refine follows_ghost [] .beginClear ?_
  have one (target : Wipe) (rest : List Wipe) : env.Follows (π := π) (wipe target)
      (lockStack .plain (some (target :: rest))) fun _ left => left = lockStack .plain (some rest) :=
    wipes_one target .plain rest
  have cleared (node : Nat) : Wipes env (π := π) (env.clearNodeState node) _ :=
    wipes_clearNodeState node
  have nodes (rest : List Wipe) :=
    Wipes.forEach (List.range env.graph.nodeCount) cleared .plain rest
  have marks : env.Silent (π := π) (store fun state =>
      { state with syncEvents := state.syncEvents ++ [.reset] }) :=
    follows_store fun _ _ => .control (.mark (by simp))
  refine .seqFrame [.resetting] (one _ _) fun _ => ?_
  refine .seqFrame [.resetting] (nodes _) fun _ => ?_
  refine silent_external.andThen fun _ => ?_
  refine silent_external.andThen fun _ => ?_
  refine marks.andThen fun _ => ?_
  refine .seqFrame [.resetting] (follows_teardownNodes (.inl rfl)) fun _ => ?_
  refine .seqFrame [.resetting] (one _ _) fun _ => ?_
  refine .seqFrame [.resetting] (one _ _) fun _ => ?_
  refine .seqFrame [.resetting] (one _ _) fun _ => ?_
  refine .seqFrame [.resetting] (one _ _) fun _ => ?_
  refine .seqFrame [.resetting] (one _ _) fun _ => ?_
  refine .seqFrame [.resetting] (one _ _) fun _ => ?_
  refine .seqFrame [.resetting] (one _ _) fun _ => ?_
  refine .seqFrame [.resetting] (one _ _) fun _ => ?_
  refine .seqFrame [.resetting] (one _ _) fun _ => ?_
  refine follows_ghost [] .cleared ?_
  refine ((silent_count _).under _).mono ?_
  rintro - left rfl
  exact ⟨.plain, _, rfl, .inl rfl, rfl⟩

theorem silent_releases {body : Code π Unit}
    (releases : env.Follows body (lockStack .plain none) fun _ left => left = lockStack .plain none) :
    env.Silent (withEngineLock body) := by
  refine follows_withEngineLock (releases.mono ?_)
  rintro - left rfl
  exact ⟨.plain, [], rfl, .inl rfl, rfl⟩

theorem silent_releaseGraph : env.Silent (π := π) env.releaseGraph := by
  refine silent_releases ?_
  refine silent_stopJoinTimeoutWatchdog.andThen fun _ => ?_
  exact (silent_stopDeferTimer _).andThen fun _ => follows_teardownNodes (.inl rfl)

theorem silent_destroy : env.Silent (π := π) env.destroy := by
  refine silent_stopJoinTimeoutWatchdog.bind fun _ => ?_
  refine (silent_stopDeferTimer _).bind fun _ => ?_
  exact silent_await.bind fun _ => silent_releases (follows_teardownNodes (.inl rfl))

theorem portIndex_lt {name : String} {index : Nat}
    (found : env.portIndex node name = some index) : index < env.portCount node := by
  exact (idxOf?_eq_some_iff.mp found).1

theorem follows_signalEndOfStream (name port : String) :
    env.Follows (π := π) (env.signalEndOfStream name port) [.api (.signalEndOfStream name port)]
      fun _ left => left = [.api (.signalEndOfStream name port)] := by
  refine (silent_read _).andThen fun streaming => ?_
  split
  · exact .ret rfl
  split
  · exact .ret rfl
  next node known =>
  split
  · exact .ret rfl
  dsimp only
  split
  · exact .ret rfl
  next index found =>
  split
  · exact .ret rfl
  next beyond =>
  have bounded := Nat.lt_of_not_le beyond
  have signals : env.Signals (.signalEndOfStream (π := π) name port) node index :=
    ⟨name, port, rfl, known, bounded, portIndex_lt found⟩
  refine .via (fun before => if before then [.api (.signalEndOfStream name port)]
      else [.check node [], .eval node [], .api (.signalEndOfStream name port)]) ?_ fun before => ?_
  · refine follows_access fun choice state answer state' made => ?_
    cases made
    rw [view_latch _ _ _ bounded]
    by_cases before : (state.node node).eosMask index = true
    · refine ⟨_, advance (.eos (.signalAgain signals ?_)), by rw [if_pos before]⟩
      simp [view, latched, bounded, before]
    · refine ⟨_, advance (.eos (.signal signals ?_)), by rw [if_neg before]⟩
      simp [view, latched, before]
  cases before with
  | true => exact .ret rfl
  | false =>
    refine (silent_read _).andThen fun context => ?_
    refine follows_check context [.eval node [], .api (.signalEndOfStream name port)]
      (fun answer flushed => ?_) fun answer unfinished => ?_
    · rw [if_pos flushed]
      exact follows_ghost [.api (.signalEndOfStream name port)] .flushedNow (.ret rfl)
    · rw [if_neg unfinished]
      refine .seqFrame [.api (.signalEndOfStream name port)] follows_tryScheduleNode
        fun _ => ?_
      exact .ret rfl

end Modes

section Table

theorem follows_noteReturn {inputs : PortDataMap π} {wait : Bool} {context timeout : Option Nat}
    {call : Code π (Except Error Unit)}
    (calls : env.Follows call (callStack wait inputs .entered) fun result left =>
      ∃ wait inputs, left = callStack wait inputs (.answer result)) :
    env.Follows (Env.noteReturn call) [.api (.execute inputs wait context timeout)]
      fun _ left => left = [] := by
  refine .seq (follows_storeAs fun _ _ => .call .enter) fun _ => ?_
  refine .bind calls fun result left answered => ?_
  obtain ⟨wait, inputs, rfl⟩ := answered
  exact .seq (follows_store fun _ _ => .call .answer) fun _ => .ret rfl

theorem follows_noteReset {call : Code π Unit}
    (calls : env.Follows call [.resetting] fun _ left => left = [.resetting]) :
    env.Follows (Env.noteReset call) [.api .reset] fun _ left => left = [] := by
  refine .seq (follows_storeAs fun _ _ => .control .enterReset) fun _ => ?_
  refine .seq calls fun _ => ?_
  exact .seq (follows_store fun _ _ => .control .leaveReset) fun _ => .ret rfl

theorem follows_ignoring {α : Type} {call : Code π α} {procedure : Proc π}
    (calls : env.Follows call [.api procedure] fun _ left => left = [.api procedure]) :
    env.Follows (Env.ignoring call) [.api procedure] fun _ left => left = [] := by
  refine .seq calls fun _ => ?_
  exact follows_ghost [] .leave (.ret rfl)

theorem follows_client (procedure : Proc π) (client : procedure.isInterface = true) :
    env.Follows (env.body procedure) [.api procedure] fun _ left => left = [] := by
  cases procedure with
  | execute inputs wait context timeout =>
    exact follows_noteReturn (follows_execute inputs wait context timeout)
  | startStreaming context => exact follows_ignoring (follows_startStreaming context)
  | stopStreaming drain => exact follows_ignoring (follows_stopStreaming drain)
  | releaseGraph => exact follows_ignoring (silent_releaseGraph.under _)
  | destroy => exact follows_ignoring (silent_destroy.under _)
  | stopExecutionAsync =>
    have stops : (.api .stopExecutionAsync : Frame π).Stops := trivial
    refine follows_ignoring (follows_ghost [] (.stopping stops) ?_)
    exact follows_stopExecutionAsync.above [.api .stopExecutionAsync]
  | stopExecutionSync => exact follows_ignoring (follows_stopExecutionSync _ trivial)
  | reset => exact follows_noteReset follows_reset
  | pushInput name port data => exact follows_ignoring follows_pushInput
  | signalEndOfStream name port => exact follows_ignoring (follows_signalEndOfStream name port)
  | requestCancellation context =>
    have cancels : env.Silent (π := π) (storeAs (.cancel context) fun state =>
        { state with cancelled := Function.update state.cancelled context true }) :=
      follows_storeAs fun _ _ => .control .cancel
    exact follows_ignoring (cancels.under _)
  | _ => cases client

theorem follows_body (procedure : Proc π) (top : List (Frame π))
    (leaves : Answer π → List (Frame π) → Prop) (called : env.Keeps procedure top leaves) :
    env.Follows (env.body procedure) top leaves := by
  cases called with
  | check => exact follows_checkNodeEndOfStream _
  | pushFallback evicts => exact follows_pushFallback _ evicts
  | evictToWindow positive evicts => exact follows_evictToWindow positive evicts
  | gatherPort progress declared plain => exact follows_gatherPort declared plain progress
  | peekHead progress joins several => exact follows_peekAlignmentHead progress joins several
  | gatherAligned progress empty joins several =>
    exact follows_gatherAligned progress empty joins several
  | runTask => exact follows_runTask _
  | watchdog => exact follows_joinTimeoutWatchdogLoop _
  | timer => exact follows_deferTimerLoop _
  | client interface => exact follows_client _ interface

/-- The engine follows its protocol, whatever the environment does, as long as it starts
nothing but the calls of clients. -/
theorem engine_verified (rules : EngineRules π)
    (clients : ∀ procedure state, rules.starts procedure state → procedure.standsAlone = true) :
    Verified env.protocol view env.Keeps env.body rules where
  keeps := follows_body
  starts procedure state allowed := by
    have alone := clients procedure state allowed
    have called : env.Keeps procedure [.api procedure] fun _ left => left = [] := by
      cases procedure with
      | joinTimeoutWatchdogLoop => exact .watchdog
      | _ => exact .client alone
    exact ⟨[.api procedure], _, .api alone, called, fun _ _ left => left⟩

theorem engine_invariant {rules : EngineRules π} {origin : State π} {config : EngineThreads π}
    {holds : State π → Multiset (Frame π) → Prop}
    (clients : ∀ procedure state, rules.starts procedure state → procedure.standsAlone = true)
    (run : env.RunsTo rules origin config) (initial : holds origin 0)
    (step : ∀ state state' (others : Multiset (Frame π)) (top top' : List (Frame π)),
      Rewrites env.protocol view rules state top state' top' →
      holds state (others + top) → holds state' (others + top')) :
    ∃ frames, holds config.shared frames := by
  obtain ⟨entries, reached, -⟩ := (engine_verified rules clients).runFrom .nil run
  have additive : Additive fun _ : Multiset (Frame π) => True := ⟨trivial, fun _ _ _ _ => trivial⟩
  exact ⟨allFrames entries, reached.invariant additive
    (fun state state' others top top' _ _ => step state state' others top top')
    (fun _ _ _ _ _ _ _ => trivial) initial⟩

section Sound

variable {rules : EngineRules π}

def NoThrows (rules : EngineRules π) : Prop :=
  ∀ choice state, rules.allows .external choice state → choice.throws = false

variable {top top' : List (Frame π)}

theorem Move.sound {label : Label π} {choice : Choice π} {seen seen' : View π}
    (moved : Move env label choice seen top seen' top')
    (calm : label = .external → choice.throws = false) (before : .crashed ∉ top) :
    .crashed ∉ top' := by
  cases moved with
  | control moved =>
    cases moved
    case throws thrown => simp [calm rfl] at thrown
    case unlockCrashed => exact absurd (mem_singleton_self _) before
    all_goals simp
  | gather moved =>
    cases moved
    case tellThrows thrown => simp [calm rfl] at thrown
    all_goals simp
  | process moved =>
    cases moved
    case restoreFailed quit => cases quit <;> simp [afterFailure]
    case fail quit => cases quit <;> simp [afterFailure]
    all_goals simp
  | _ moved => cases moved <;> simp

theorem Ghost.sound (rewritten : Ghost env top top')
    (before : .crashed ∉ top) : .crashed ∉ top' := by
  cases rewritten
  case unwind => simp at before
  case stopping => simpa using before
  all_goals simp

theorem sound_step (calm : NoThrows rules) {state state' : State π}
    (rewritten : Rewrites env.protocol view rules state top state' top')
    (before : .crashed ∉ top) : .crashed ∉ top' := by
  cases rewritten with
  | move allowed moved =>
    exact sound moved (fun same => calm _ _ (same ▸ allowed)) before
  | ghost shifted => exact Ghost.sound shifted before
  | fork forked => cases forked <;> simp
  | start allowed entered => cases entered; simp

end Sound

end Table

def Frame.resets : Frame π → Bool
  | .resetting => true
  | .engineLock lock => lock.wipes.isSome
  | _ => false

end AiPipe
