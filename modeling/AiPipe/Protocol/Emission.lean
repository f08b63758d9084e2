import AiPipe.Protocol.Scheduling

/-! Outputs, end-of-stream handling and the tasks of the pool follow the protocol. -/

namespace AiPipe

open Concurrency Function Move State Env

variable {π : Type} {env : Env} {node : Nat} {outputs : PortDataMap π}

section Outputs

theorem follows_propagateEdge (edge : OutEdge) (rest : List OutEdge) :
    env.Follows (env.propagateEdge node outputs edge)
      [.emit node outputs (.routing (edge :: rest))] fun _ left =>
        left = [.emit node outputs (.routing rest)] := by
  unfold propagateEdge
  split
  next nothing => exact follows_ghost [] (.skipEdge (.inl nothing)) (.ret rfl)
  next data emitted =>
  split
  next outside => exact follows_ghost [] (.skipEdge (.inr (.inl outside))) (.ret rfl)
  next inside =>
  split
  next undeclared =>
    exact follows_ghost [] (.skipEdge (.inr (.inr (by simp [undeclared])))) (.ret rfl)
  next port index =>
  split
  next beyond =>
    exact follows_ghost [] (.skipEdge (.inr (.inr (by simpa [index] using beyond)))) (.ret rfl)
  next declared =>
    refine follows_ghost [] (.pushEdge emitted (Nat.lt_of_not_le inside) index
      (Nat.lt_of_not_le declared)) ?_
    refine .bindFrame [.emit node outputs (.routing rest)] follows_push
      fun accepted left pushed => ?_
    obtain ⟨rfl, rejects⟩ := pushed
    cases accepted with
    | true => exact follows_tryScheduleNode.above _
    | false => exact (follows_recordQueueRejection (rejects rfl)).above _

theorem follows_departure :
    env.Follows (π := π) (read stopFlag) [.emit node outputs .departing] fun stop left =>
      left = if stop then [.halted, .emit node outputs .departing]
        else [.emit node outputs (.routing (env.graph.outEdges node))] := by
  refine follows_read fun choice state => ?_
  cases stop : state.stopFlag with
  | true => exact ⟨_, above [.emit node outputs .departing] (.control (.sawStop stop)), rfl⟩
  | false => exact ⟨_, advance (.process (.depart stop)), rfl⟩

theorem follows_propagateOutputs :
    env.Follows (env.propagateOutputs node outputs) [.emit node outputs .departing]
      fun _ left => left = [] := by
  refine .seq follows_departure fun stop => ?_
  cases stop with
  | true => exact follows_ghost [] .stopEmission (.ret rfl)
  | false =>
    rw [← Prog.bind_ret (Prog.forEach _ _)]
    refine .via (fun _ => [.emit node outputs (.routing [])]) ?_ fun _ => ?_
    · refine .forEach
        (fun rest (left : List (Frame π)) => left = [.emit node outputs (.routing rest)]) rfl ?_
      rintro edge rest left - rfl
      exact follows_propagateEdge edge rest
    · exact follows_ghost [] .emitted (.ret rfl)

theorem follows_collectSink :
    env.Follows (env.collectSink node outputs) [.emit node outputs .collecting] fun _ left =>
      left = [.emit node outputs .departing] := by
  unfold collectSink
  split
  next sink =>
    refine (silent_count _).andThen fun _ => ?_
    exact follows_store fun choice state => .process (.collect sink)
  next inner => exact follows_ghost [] (.skipCollect (Bool.eq_false_iff.mpr inner)) (.ret rfl)

end Outputs

section EndOfStream

theorem follows_recordSinkEndOfStream (sink : env.graph.isSink node = true) :
    env.Follows (π := π) env.recordSinkEndOfStream [.eos node (.cascading [])]
      fun _ left => left = [.eos node .over] := by
  refine .via (fun reached => [.eos node (.counted reached)]) ?_ fun reached => ?_
  · refine follows_access fun choice state answer state' made => ?_
    cases made
    exact ⟨_, advance (.eos (.countSink sink)), rfl⟩
  dsimp only
  split
  next early => exact follows_ghost [] (.notLast early) (.ret rfl)
  next last =>
    obtain ⟨nonzero, all⟩ := not_or.mp last
    have enough := Nat.le_of_not_lt all
    refine .via (fun before => if before then [.eos node .over] else [.eos node .ending]) ?_
      fun before => ?_
    · refine follows_access fun choice state answer state' made => ?_
      cases made
      cases before : state.endOfStreamReached with
      | true => exact ⟨_, advance (.eos (.reachAgain nonzero enough before)), rfl⟩
      | false => exact ⟨_, advance (.eos (.reach nonzero enough before)), rfl⟩
    cases before with
    | true => exact .ret rfl
    | false => exact follows_store fun _ _ => .eos .announceEnd

variable (context : Option Nat)

theorem follows_cascadeEdge (edge : OutEdge) (rest : List OutEdge) :
    env.Follows (π := π) (env.cascadeEdge context edge) [.eos node (.cascading (edge :: rest))]
      fun _ left => left = [.eos node (.cascading rest)] := by
  unfold cascadeEdge latchPortEos
  split
  next outside => exact follows_ghost [] (.skipLatch (.inl outside)) (.ret rfl)
  next inside =>
  split
  next undeclared => exact follows_ghost [] (.skipLatch (.inr (by simp [undeclared]))) (.ret rfl)
  next port index =>
  split
  next beyond =>
    exact follows_ghost [] (.skipLatch (.inr (by simpa [index] using beyond))) (.ret rfl)
  next bounded =>
    refine .via (fun _ => [.check edge.destNode [], .eos node (.cascading rest)])
      (follows_storeAs fun choice state => ?_) fun _ => follows_endOfStreamCheck context _
    rw [view_latch _ _ _ (Nat.lt_of_not_le bounded)]
    exact .eos (.latch (Nat.lt_of_not_le inside) index (Nat.lt_of_not_le bounded))

theorem silent_invokeErrorCallback (message name : String) :
    env.Silent (π := π) (invokeErrorCallback message name) :=
  silent_store fun _ => rfl

theorem follows_flushNode :
    env.Follows (π := π) (env.flushNode node) [.eos node .winning] fun outputs left =>
      left = [.eos node (.flushed outputs)] := by
  refine .via (fun _ => [.eos node .flushing]) (follows_store fun choice state => ?_)
    fun _ => ?_
  · rw [view_updateNode state node _ _ rfl]
    simp only [view, latched, update_eq_self]
    exact .eos .flushBegin
  refine .via (fun outcome => [.eos node (.flushed (outcome.toOption.getD []))])
    (follows_access fun choice state answer state' made => ?_) fun outcome => ?_
  · cases made
    rw [view_updateNode state node _ _ rfl]
    simp only [view, latched, update_eq_self]
    exact ⟨_, advance (.eos .flushEnd), rfl⟩
  cases outcome with
  | ok outputs => exact .ret rfl
  | error message =>
    refine (silent_count _).andThen fun _ => ?_
    exact (silent_invokeErrorCallback _ _).andThen fun _ => .ret rfl

theorem follows_casFlush {expected : NodeExecutionState} {stack : List (Frame π)}
    {post : Bool → List (Frame π) → Prop}
    (won : ∀ choice (seen : View π), seen.exec node = expected →
      ∃ left, env.Advance (.claimEos node) choice seen stack
        { seen.setExec node .executing with
          finishing := update seen.finishing node (seen.finishing node + 1) } left ∧
        post true left)
    (lost : ∀ choice (seen : View π), seen.exec node ≠ expected →
      ∃ left, env.Advance (.claimEos node) choice seen stack seen left ∧ post false left) :
    env.Follows (casFlush node expected) stack post := by
  refine follows_access fun choice state answer state' made => ?_
  by_cases same : state.exec node = expected
  · rw [if_pos same] at made
    cases made
    rw [view_updateNode state node _ _ rfl]
    simp only [view, latched, update_eq_self]
    exact won choice (view state) same
  · rw [if_neg same] at made
    cases made
    exact lost choice (view state) same

theorem follows_claimForFlush {observed : List Obs} (drained : env.AllDrained node observed) :
    env.Follows (π := π) (claimForFlush node) [.check node observed] fun won left =>
      if won then ∃ observed', left = [.eos node (.claimed observed')] else left = [] := by
  have still : env.AllDrained node (.busy :: observed) :=
    ⟨drained.1, fun port bound => (drained.2 port bound).cons _⟩
  refine .via (fun won =>
      if won then [.eos node (.claimed observed)] else [.check node (.busy :: observed)])
    (follows_casFlush
      (fun choice seen waiting => ⟨_, advance (.eos (.claim (.inl waiting) drained)), rfl⟩)
      (fun choice seen busy => ⟨_, advance (.eos (@EosMove.observe _ _ _ _ _ _ _ .busy busy)),
        rfl⟩)) fun won => ?_
  cases won with
  | true => exact .ret ⟨observed, rfl⟩
  | false =>
    refine follows_casFlush (fun choice seen completed => ?_) fun choice seen busy => ?_
    · exact ⟨_, advance (.eos (.claim (.inr completed) still)), _, rfl⟩
    · exact ⟨_, advance (.eos (.busy (by simp) busy)), rfl⟩

theorem follows_cascade :
    env.Follows (π := π) (do
        setExec node .completed
        Prog.forEach (env.cascadeEdge context) (env.graph.outEdges node)
        if env.graph.isSink node then env.recordSinkEndOfStream else .ret ()
        store fun state => state.updateNode node fun entry =>
          { entry with finishing := entry.finishing - 1 })
      [.eos node .emitting] fun _ left => left = [.flushed node] := by
  refine .seq (follows_setExec fun _ _ => .eos .complete) fun _ => ?_
  refine .via (fun _ => [.eos node (.cascading [])]) ?_ fun _ => ?_
  · refine .forEach
      (fun rest (left : List (Frame π)) => left = [.eos node (.cascading rest)]) rfl ?_
    rintro edge rest left - rfl
    exact follows_cascadeEdge context edge rest
  have ends : env.Follows (π := π) (store fun state => state.updateNode node fun entry =>
      { entry with finishing := entry.finishing - 1 }) [.eos node .over]
      fun _ left => left = [.flushed node] := by
    refine follows_store fun choice state => ?_
    rw [view_updateNode state node _ _ rfl]
    simp only [view, latched, update_eq_self]
    exact .eos .finish
  dsimp only
  split
  next sink => exact .seq (follows_recordSinkEndOfStream sink) fun _ => ends
  next inner => exact follows_ghost [] (.notSink (Bool.eq_false_iff.mpr inner)) ends

theorem follows_finishEndOfStream :
    env.Follows (π := π) (env.finishEndOfStream node context) [.eos node .winning]
      fun _ left => left = [.flushed node] := by
  refine .seq follows_flushNode fun outputs => ?_
  refine silent_emitTrace.andThen fun _ => ?_
  cases outputs with
  | nil => exact follows_ghost [] .silentFlush (follows_cascade context)
  | cons entry rest =>
    refine follows_ghost [] (.emitFlush (by simp)) ?_
    refine .seqFrame [.eos node .emitting] follows_collectSink fun _ => ?_
    refine .seqFrame [.eos node .emitting] follows_propagateOutputs fun _ => ?_
    exact follows_cascade context

theorem follows_checkNodeEndOfStream :
    env.Follows (π := π) (env.checkNodeEndOfStream node context) [.check node []]
      fun answer left => if answer.isTrue then left = [.flushed node] else left = [] := by
  refine .seq (follows_test (fun streaming => streaming = false)
    fun _ _ off => .eos (.off (.inl off))) fun streaming => ?_
  cases streaming with
  | false => exact .ret rfl
  | true =>
  refine .seq (follows_test (fun stop => stop = true)
    fun _ _ stop => .eos (.off (.inr stop))) fun stop => ?_
  cases stop with
  | true => exact .ret rfl
  | false =>
  refine .seq (follows_test (fun propagated => propagated = true)
    fun _ _ done => .eos (.done done)) fun propagated => ?_
  cases propagated with
  | true => exact .ret rfl
  | false =>
  refine .bind (observes_check.allInputPortsDrained []) fun drained left seen => ?_
  obtain ⟨new, rfl, found⟩ := seen
  cases drained with
  | false => exact follows_ghost [] (.someOpen found) (.ret rfl)
  | true =>
  refine .bind (follows_claimForFlush found) fun won left claimed => ?_
  cases won with
  | false =>
    obtain rfl := claimed
    exact .ret rfl
  | true =>
  obtain ⟨observed, rfl⟩ := claimed
  refine .via (fun before => [.eos node (if before then .losing else .winning)]) ?_
    fun before => ?_
  · refine follows_access fun choice state answer state' made => ?_
    cases made
    rw [view_updateNode state node _ _ rfl]
    simp only [view, latched, update_eq_self]
    by_cases before : (state.node node).eosPropagated = true
    · exact ⟨_, advance (.eos (.lose before)), by rw [if_pos before]⟩
    · exact ⟨_, advance (.eos (.win (Bool.eq_false_iff.mpr before))), by rw [if_neg before]⟩
  cases before with
  | true =>
    refine .via (fun _ => []) (follows_store fun choice state => ?_) fun _ => .ret rfl
    rw [view_updateNode state node _ _ rfl]
    simp only [view, latched, update_eq_self]
    exact .eos .yield
  | false => exact .seq (follows_finishEndOfStream context) fun _ => .ret rfl

end EndOfStream

section Tasks

variable {id : Nat} {progress : Gathering π}

theorem follows_processNode (covers : env.Covers node progress) :
    env.Follows (env.processNode node progress.held) (gatherStack id node progress)
      fun outcome left => left = [.task id node (.called progress.held outcome)] := by
  refine .via (fun _ => [.task id node (.calling progress.held)])
    (follows_store fun choice state => ?_) fun _ => ?_
  · rw [view_updateNode state node _ _ rfl]
    simp only [view, latched, update_eq_self]
    exact .process (.callBegin covers)
  refine .via (fun outcome => [.task id node (.called progress.held outcome)])
    (follows_access fun choice state answer state' made => ?_) fun outcome => ?_
  · cases made
    rw [view_updateNode state node _ _ rfl]
    simp only [view, latched, update_eq_self]
    exact ⟨_, advance (.process .callEnd), rfl⟩
  cases outcome with
  | ok outputs => exact .ret rfl
  | error message => exact (silent_invokeErrorCallback _ _).andThen fun _ => .ret rfl

theorem silent_markProcessed (inputs : PortDataMap π) :
    env.Silent (env.markProcessed node inputs) := by
  unfold markProcessed
  split
  · split
    · exact silent_ret ()
    · refine silent_external.bind fun _ => ?_
      exact follows_store fun _ _ => .control (.mark (by simp))
  · exact silent_ret ()

abbrev releasedStack (id node : Nat) : List (Frame π) := [.check node [], .task id node .released]

variable (held : List (Taken π))

theorem follows_handleNodeSuccess (outputs : PortDataMap π) :
    env.Follows (env.handleNodeSuccess node (inheritFrameIdentity
        (inputsOf (env.graph.inputPorts node) held) outputs))
      [.task id node (.called held (.ok outputs))] fun _ left => left = releasedStack id node := by
  have ticks (now : Int) : env.Silent (π := π) (store fun state =>
      state.updateNode node fun entry => { entry with lastExecutionTicks := now }) := by
    refine silent_store fun state => ?_
    rw [view_updateNode state node _ _ rfl]
    simp [view, latched]
  refine .via (fun _ => [.emit node (inheritFrameIdentity
      (inputsOf (env.graph.inputPorts node) held) outputs) .collecting, .task id node .emitting])
    (follows_store fun choice state => ?_) fun _ => ?_
  · rw [view_updateNode state node _ _ rfl]
    simp only [view, latched, update_eq_self]
    exact .process .succeed
  refine silent_clock.andThen fun now => ?_
  refine (ticks now).andThen fun _ => ?_
  refine (silent_count _).andThen fun _ => ?_
  refine .seqFrame [.task id node .emitting] follows_collectSink fun _ => ?_
  refine .seqFrame [.task id node .emitting] follows_propagateOutputs fun _ => ?_
  have releases : env.Follows (π := π) (do
      external
      if env.scheduler.onNodeComplete node true then do
        setExec node .waiting
        env.tryScheduleNode node
      else setExec node .completed) [.task id node .emitting]
      fun _ left => left = releasedStack id node := by
    refine silent_external.andThen fun _ => ?_
    split
    next again =>
      exact .seq (follows_setExec fun _ _ => .process (.restore again))
        fun _ => follows_tryScheduleNode.above _
    next once =>
      exact follows_setExec fun _ _ => .process (.complete (Bool.eq_false_iff.mpr once))
  dsimp only
  split
  · exact releases
  · exact silent_emitTrace.andThen fun _ => releases

theorem follows_readMode {stage stage' : Stage π} (streams : ∀ choice seen, seen.streaming = true →
      ProcessMove env .internal choice seen [.task id node stage] seen [.task id node stage']) :
    env.Follows (π := π) (read streamingMode) [.task id node stage] fun streaming left =>
      left = if streaming then [.task id node stage'] else [.batched, .task id node stage] := by
  refine follows_read fun choice state => ?_
  cases streaming : state.streamingMode with
  | true => exact ⟨_, advance (.process (streams choice _ streaming)), rfl⟩
  | false => exact ⟨_, above [.task id node stage] (.control (.sawBatch streaming)), rfl⟩

instance free_afterFailure (quit : Bool) :
    env.protocol.Free (afterFailure (π := π) node quit ++ [.task id node .released]) := by
  cases quit <;> exact .cons rfl

theorem follows_handleNodeFailure (quit : Bool) :
    env.Follows (π := π) (env.handleNodeFailure node) [.task id node (.failing quit)]
      fun _ left => left = afterFailure node quit ++ [.task id node .released] := by
  refine (silent_count _).andThen fun _ => ?_
  refine .seq (follows_readMode fun _ _ => .mayRestore) fun streaming => ?_
  cases streaming with
  | true =>
    exact .seq (follows_setExec fun _ _ => .process .restoreFailed)
      fun _ => follows_tryScheduleNode.above (afterFailure node quit ++ [.task id node .released])
  | false =>
    exact .seq (follows_setExec fun _ _ => .process .fail)
      fun _ => follows_stopExecutionAsync.above (afterFailure node quit ++ [.task id node .released])

theorem follows_finishExecution (outcome : Except String (PortDataMap π)) :
    env.Follows (env.finishExecution node held outcome) [.task id node (.called held outcome)]
      fun _ left => left = releasedStack id node := by
  refine .seqFrame [.task id node (.called held outcome)] follows_readStop fun stop => ?_
  cases stop with
  | true => exact follows_setExec fun _ _ => .process .discardOutcome
  | false =>
    cases outcome with
    | ok outputs =>
      exact (silent_markProcessed _).andThen fun _ => follows_handleNodeSuccess held outputs
    | error message => exact follows_ghost [] .failed (follows_handleNodeFailure false)

variable (context : Option Nat)

theorem follows_retryOrFail (dry : progress.dry = true) :
    env.Follows (env.retryOrFail node context) (gatherStack id node progress)
      fun _ left => left = [.task id node .released] := by
  refine .via
    (fun transient => [.task id node (if transient then .retrying else .failing true)]) ?_
    fun transient => ?_
  · refine .seq (follows_readMode fun _ _ => .mayRetry dry) fun streaming => ?_
    cases streaming with
    | false => exact follows_ghost [] (.quitBatch dry) (.ret rfl)
    | true =>
      refine .seqFrame [.task id node .retrying] follows_readStop fun stop => ?_
      cases stop with
      | true => exact follows_ghost [] .quitHalted (.ret rfl)
      | false => exact .ret rfl
  cases transient with
  | false => exact follows_handleNodeFailure true
  | true =>
    refine .seq (follows_setExec fun _ _ => .process .retry) fun _ => ?_
    refine follows_check context [.eval node [], .task id node .released]
      (fun answer flushed => ?_) fun answer unfinished => ?_
    · rw [if_pos flushed]
      exact follows_ghost [.task id node .released] .flushedNow (.ret rfl)
    · rw [if_neg unfinished]
      exact follows_tryScheduleNode.above [.task id node .released]

theorem follows_executeNode :
    env.Follows (π := π) (env.executeNode node context) (gatherStack id node {})
      fun _ left => left = [.task id node .released] := by
  refine .bind follows_gatherNodeInputs fun result left gathered => ?_
  obtain ⟨progress, rfl, outcome⟩ := gathered
  cases result with
  | none => exact follows_retryOrFail context outcome
  | some taken =>
    obtain ⟨rfl, covers⟩ := outcome
    refine (silent_count _).andThen fun _ => ?_
    refine .seq (follows_processNode covers) fun outcome => ?_
    refine silent_emitTrace.andThen fun _ => ?_
    refine .seq (follows_finishExecution progress.held outcome) fun _ => ?_
    exact follows_endOfStreamCheck context _

theorem follows_executeNodeTask :
    env.Follows (π := π) (env.executeNodeTask id node context) [.task id node .posted]
      fun _ left => left = [.settling id none] := by
  have settles : env.Follows (π := π) (do
      decrementTask id
      env.checkCompletionAndNotify) [.task id node .released]
      fun _ left => left = [.settling id none] :=
    .seq (follows_store fun _ _ => .settle .decrement)
      fun _ => follows_checkCompletionAndNotify
  unfold executeNodeTask
  dsimp only
  split
  next outside => exact follows_ghost [] (.missing outside) settles
  refine .seq follows_admission fun stop => ?_
  cases stop with
  | true =>
    exact .seq (follows_setExec fun _ _ => .schedule .abort) fun _ => settles
  | false =>
    refine .via
      (fun won => if won then gatherStack id node {} else [.task id node .released])
      (follows_casExec
        (fun choice seen ready => ⟨_, advance (.schedule (.begin ready)), rfl⟩)
        (fun choice seen other => ⟨_, advance (.schedule (.displaced other)), rfl⟩))
      fun won => ?_
    cases won with
    | true => exact .seq (follows_executeNode context) fun _ => settles
    | false => exact settles

theorem follows_unwind {program : Code π α} {tail : List (Frame π)}
    {post : α → List (Frame π) → Prop} (rest : List (Frame π))
    (conforms : env.Follows program (.crashed :: tail) post) :
    env.Follows program (.crashed :: rest ++ tail) post := by
  induction rest with
  | nil => exact conforms
  | cons frame rest ih => exact follows_ghost (rest ++ tail) .unwind ih

theorem follows_runTask :
    env.Follows (π := π) (env.runTask id node context) [.task id node .posted, .worker id]
      fun _ left => left = [] := by
  have runs : env.Follows (π := π) (do
      if env.graph.nodeCount ≤ node then .ret () else env.emitTrace
      env.executeNodeTask id node context) [.task id node .posted]
      fun _ left => left = [.settling id none] := by
    dsimp only
    split
    · exact follows_executeNodeTask context
    · exact silent_emitTrace.andThen fun _ => follows_executeNodeTask context
  refine .onExit [.worker id] runs (fun _ left same => ?_) fun rest => ?_
  · subst same
    exact .seq (follows_endTask id) fun _ => .ret rfl
  · refine follows_unwind rest ?_
    exact .seq (follows_store fun _ _ => .settle .finishCrashed) fun _ => .ret rfl

end Tasks

end AiPipe
