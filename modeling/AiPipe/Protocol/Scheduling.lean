import AiPipe.Protocol.Gathering

/-!
Scheduling attempts, the posting of tasks, completion checks and the propagation of
outputs follow the protocol.
-/

namespace AiPipe

open Concurrency List Move

variable {π : Type} {env : Env} {node : Nat}

section Stop

theorem silent_storeEngineState {value : EngineState} (rests : (value == .running) = false) :
    env.Silent (π := π) (store fun state => { state with engineState := value }) := by
  refine follows_store fun choice state => ?_
  have same : view { state with engineState := value } = { view state with running := false } := by
    rw [view, rests]
    rfl
  rw [same]
  exact .control .rest

theorem silent_stopIfRunning : env.Silent (π := π) stopIfRunning := by
  refine (silent_read _).bind fun current => ?_
  split
  · exact silent_storeEngineState rfl
  · exact silent_ret ()

theorem follows_stopExecutionAsync :
    env.Follows (π := π) stopExecutionAsync [.stopping] fun _ left => left = [] := by
  refine .via (fun _ => []) ?_ fun first => ?_
  · refine follows_access fun choice state answer state' made => ?_
    cases made
    exact ⟨_, advance (.control .halt), rfl⟩
  split
  · exact silent_stopIfRunning.withEngineLock
  · exact silent_ret ()

theorem follows_readStop :
    env.Follows (π := π) (read State.stopFlag) [] fun stop left =>
      left = if stop then [.halted] else [] :=
  follows_test _ fun _ _ stop => .control (.sawStop stop)

theorem follows_cancellation :
    env.Follows (π := π) (do
      match ← read State.currentContext with
      | none => .ret false
      | some context => do
          if ← read fun state => state.cancelled context then do
            stopExecutionAsync
            .ret true
          else .ret false) [] fun stop left => left = if stop then [.halted] else [] := by
  refine (silent_read _).andThen fun current => ?_
  cases current with
  | none => exact .ret rfl
  | some context =>
    refine .seq (follows_test (fun cancelled => cancelled = true)
      fun _ _ cancelled => .control (.sawCancelled cancelled)) fun cancelled => ?_
    cases cancelled with
    | true =>
      refine .seqFrame [.halted] follows_stopExecutionAsync fun _ => ?_
      exact .ret rfl
    | false => exact .ret rfl

theorem follows_isStopRequested :
    env.Follows (π := π) isStopRequested [] fun stop left =>
      left = if stop then [.halted] else [] := by
  refine .seq follows_readStop fun stop => ?_
  cases stop with
  | true => exact .ret rfl
  | false => exact follows_cancellation

theorem follows_admission {id node : Nat} :
    env.Follows (π := π) isStopRequested [.task id node .posted] fun stop left =>
      left = if stop then [.halted, .task id node .posted] else [.task id node .admitted] := by
  refine .via (fun stop =>
      if stop then [.halted, .task id node .posted] else [.task id node .admitted]) ?_ fun stop => ?_
  · refine follows_read fun choice state => ?_
    cases stop : state.stopFlag with
    | true => exact ⟨_, above [.task id node .posted] (.control (.sawStop stop)), rfl⟩
    | false => exact ⟨_, advance (.schedule (.proceed stop)), rfl⟩
  cases stop with
  | true => exact .ret rfl
  | false =>
    simp only [Bool.false_eq_true, if_false]
    rw [← Prog.bind_ret (Bind.bind _ _)]
    refine .seqFrame [.task id node .admitted] follows_cancellation fun stop => ?_
    cases stop with
    | true => exact follows_ghost [] .turnBack (.ret rfl)
    | false => exact .ret rfl

end Stop

section Completion

variable {id : Nat}

theorem follows_collectSinkCounts (name : Nat → String) (sinks : List Nat)
    (readings : List (Nat × Nat)) :
    env.Follows (π := π) (collectSinkCounts name sinks) [.settling id (some readings)]
      fun counts left => ∃ new, left = [.settling id (some (readings ++ new))] ∧
        new.map Prod.fst = sinks ∧
        counts = new.map fun reading => (name reading.1, reading.2) := by
  induction sinks generalizing readings with
  | nil => exact .ret ⟨[], by simp, rfl, rfl⟩
  | cons sink rest ih =>
    refine .via (fun executions => [.settling id (some (readings ++ [(sink, executions)]))])
      (follows_read fun _ _ => ⟨_, advance (.settle .readSink), rfl⟩) fun executions => ?_
    refine .bind (ih _) fun counts left later => ?_
    obtain ⟨new, rfl, sinks, rfl⟩ := later
    exact .ret ⟨(sink, executions) :: new, by simp, by simp [sinks], rfl⟩

theorem follows_claimCompletion {readings : List (Nat × Nat)} (complete : env.IsComplete readings) :
    env.Follows (π := π) (do
        let claimed ← (.act .claimCompletion (fun _ state => some (
          if state.completionReported then none else some state.history.run,
          { state with completionReported := true })) .ret : Code π (Option Nat))
        match claimed with
        | none => .ret ()
        | some run => do
            store fun state => if state.engineState = .running
              then { state with engineState := .idle } else state
            let results ← read State.accumulatedResults
            store fun state => state.updateHistory fun history =>
              { history with published := history.published ++ [(run, results)] })
      [.settling id (some readings)] fun _ left => left = [.settling id none] := by
  refine .via (fun claimed => match claimed with
      | none => [.settling id none]
      | some run => [.reporting id run none]) ?_ fun claimed => ?_
  · refine follows_access fun choice state answer state' made => ?_
    cases made
    by_cases reported : state.completionReported = true
    · refine ⟨_, advance (.settle (.claimLate reported)), ?_⟩
      rw [if_pos reported]
    · refine ⟨_, advance (.settle
        (.claimReport (Bool.eq_false_iff.mpr reported) complete)), ?_⟩
      rw [if_neg reported]
      rfl
  cases claimed with
  | none => exact .ret rfl
  | some run =>
    have idles : env.Silent (π := π) (store fun state => if state.engineState = .running
        then { state with engineState := .idle } else state) := by
      refine follows_store fun choice state => ?_
      split
      · exact .control .rest
      · exact .control .idle
    refine idles.andThen fun _ => ?_
    exact .via (fun results => [.reporting id run (some results)])
      (follows_read fun _ _ => ⟨_, advance (.settle .readResults), rfl⟩)
      fun results => follows_store fun choice state => .settle .publish

theorem follows_checkCompletionAndNotify :
    env.Follows (π := π) env.checkCompletionAndNotify [.settling id (some [])]
      fun _ left => left = [.settling id none] := by
  refine .seq (follows_test (fun streaming => streaming = true)
    fun _ _ streaming => .settle (.sawStreaming streaming)) fun streaming => ?_
  cases streaming with
  | true => exact .ret rfl
  | false =>
    refine .seq (follows_test (fun active => active ≠ 0)
      fun _ _ active => .settle (.sawActive active)) fun active => ?_
    by_cases nonzero : active ≠ 0
    · rw [if_pos nonzero, if_pos nonzero]
      exact .ret rfl
    · rw [if_neg nonzero, if_neg nonzero]
      obtain rfl := not_not.mp nonzero
      refine .bind (follows_collectSinkCounts _ _ []) fun counts left later => ?_
      obtain ⟨new, rfl, sinks, rfl⟩ := later
      refine silent_external.andThen fun _ => ?_
      split
      next complete => exact follows_claimCompletion ⟨sinks, complete⟩
      next incomplete =>
        exact follows_ghost [] (.giveUp ⟨sinks, Bool.eq_false_iff.mpr incomplete⟩) (.ret rfl)

end Completion

section Posting

variable (reason : Option (List Obs))

theorem follows_announceTask :
    env.Follows (π := π) (announceTask node) [.claimed node reason]
      fun id left => left = [.task id node .announced] := by
  refine follows_access fun choice state answer state' made => ?_
  cases made
  exact ⟨_, advance (.schedule .announce), rfl⟩

theorem follows_postTask (id : Nat) :
    env.Follows (π := π) (postTask node) [.task id node .announced] fun posted left =>
      left = if posted then [.task id node .announced]
        else [.task id node .refused, .worker id] := by
  refine follows_access fun choice state answer state' made => ?_
  cases made
  by_cases posted : choice.posted = true
  · exact ⟨_, .idle, by rw [if_pos posted]⟩
  · refine ⟨_, advance (.schedule (.refuse (Bool.eq_false_iff.mpr posted))), ?_⟩
    rw [if_neg posted]

theorem follows_endTask (id : Nat) :
    env.Follows (π := π) (endTask id) [.settling id none, .worker id] fun _ left => left = [] :=
  follows_store fun _ _ => .settle .finish

theorem follows_scheduleNodeExecution :
    env.Follows (π := π) (env.scheduleNodeExecution node) [.decided node reason]
      fun _ left => left = [] := by
  refine .via (fun won => if won then [.claimed node reason] else [])
    (follows_casExec
      (fun choice seen waiting => ⟨_, advance (.schedule (.claim waiting)), rfl⟩)
      (fun choice seen busy => ⟨_, advance (.schedule (.claimLost busy)), rfl⟩)) fun won => ?_
  cases won with
  | false => exact .ret rfl
  | true =>
    refine .seq (follows_announceTask reason) fun id => ?_
    refine (silent_read _).andThen fun context => ?_
    refine .seq (follows_postTask id) fun posted => ?_
    cases posted with
    | true =>
      refine ⟨[.task id node .announced], [], [], _, _, .refl, Fork.post, .runTask, ?_, ?_⟩
      · intro answer left ends
        exact ends
      · exact .ret rfl
    | false =>
      have rolls : env.Follows (π := π) (setExec node .waiting) [.task id node .refused]
          fun _ left => left = [.task id node .rolledBack] :=
        follows_setExec fun _ _ => .schedule .rollBack
      refine .seqFrame [.worker id] rolls fun _ => ?_
      refine follows_storeOn [.task id node .rolledBack] [.worker id]
        (fun _ _ => .settle .decrementRefused) ?_
      refine .seqFrame [.worker id] follows_checkCompletionAndNotify fun _ => ?_
      exact follows_endTask id

theorem follows_scheduleDeferredRetry (delay : Int) :
    env.Follows (π := π) (Env.scheduleDeferredRetry node delay) [.deferring]
      fun _ left => left = [] := by
  have given : env.Follows (π := π) (.ret ()) [.deferring] fun _ left => left = [] :=
    follows_ghost [] .dropDeferring (.ret rfl)
  refine (silent_read _).andThen fun stop => ?_
  split
  · exact given
  have arms : env.Silent (π := π) (.act .internal (fun _ state => some (
      (state.node node).deferPending,
      state.updateNode node fun entry => { entry with deferPending := true })) .ret) := by
    refine silent_access fun choice state answer state' made => ?_
    cases made
    rw [view_updateNode state node _ _ rfl]
    simp [view, State.latched]
  refine arms.andThen fun armed => ?_
  split
  · exact given
  refine silent_clock.andThen fun now => ?_
  refine Env.Silent.andThen (silent_access fun choice state answer state' made => ?_)
    fun timer => ?_
  · dsimp only at made
    split at made <;>
      · cases made
        rfl
  · cases timer with
    | none => exact given
    | some number =>
      refine ⟨[.deferring], [], [], _, _, .refl, Fork.timer, .timer, ?_, ?_⟩
      · intro answer left ends
        exact ends
      · exact .ret rfl

end Posting

section Observations

def Env.Observes (env : Env) (node : Nat) (frame : List Obs → Frame π) : Prop :=
  ∀ choice (seen : View π) observed (observation : Obs), observation.Holds seen node →
    Move env .internal choice seen [frame observed] seen [frame (observation :: observed)]

theorem observes_eval : env.Observes (π := π) node (.eval node) :=
  fun _ _ _ _ holds => .schedule (.observe holds)

theorem observes_check : env.Observes (π := π) node (.check node) :=
  fun _ _ _ _ holds => .eos (.observe holds)

variable {frame : List Obs → Frame π}

theorem Env.Observes.portEosLatched (observes : env.Observes node frame) (port : Nat)
    (observed : List Obs) :
    env.Follows (AiPipe.portEosLatched node port) [frame observed] fun latched left =>
      left = [frame (.latched port latched :: observed)] :=
  follows_read fun choice _ => ⟨_, (observes choice _ observed (.latched port _) rfl).advance, rfl⟩

theorem Env.Observes.portEmpty (observes : env.Observes node frame) (port : Nat)
    (observed : List Obs) :
    env.Follows (AiPipe.portEmpty node port) [frame observed] fun empty left =>
      left = [frame (.dry port empty :: observed)] :=
  follows_read fun choice _ => ⟨_, (observes choice _ observed (.dry port _) rfl).advance, rfl⟩

theorem Env.Observes.portDrained (observes : env.Observes node frame) (port : Nat)
    (observed : List Obs) :
    env.Follows (AiPipe.portDrained node port) [frame observed] fun drained left =>
      ∃ new, left = [frame (new ++ observed)] ∧
        if drained then new = [.dry port true, .latched port true] else NotDrained port new := by
  refine .seq (observes.portEosLatched port observed) fun latched => ?_
  cases latched with
  | true =>
    refine (observes.portEmpty port _).mono fun empty left same => ?_
    refine ⟨[.dry port empty, .latched port true], same, ?_⟩
    cases empty with
    | true => rfl
    | false => exact .inr rfl
  | false => exact .ret ⟨[.latched port false], rfl, .inl rfl⟩

theorem NotDrained.open {port : Nat} {early : List Obs} (opened : NotDrained port early) :
    .latched port false ∈ early ∨ .dry port false ∈ early := by
  rcases opened with rfl | rfl
  · exact .inl (by simp)
  · exact .inr (by simp)

theorem Env.Observes.portsDrained (observes : env.Observes node frame) (ports : List Nat)
    (observed : List Obs) :
    env.Follows (AiPipe.portsDrained node ports) [frame observed] fun drained left =>
      ∃ new, left = [frame (new ++ observed)] ∧
        if drained then ∀ port ∈ ports, [.dry port true, .latched port true].Sublist new
        else ∃ port ∈ ports, .latched port false ∈ new ∨ .dry port false ∈ new := by
  induction ports generalizing observed with
  | nil => exact .ret ⟨[], rfl, by simp⟩
  | cons port rest ih =>
    refine .bind (observes.portDrained port observed) fun drained left seen => ?_
    obtain ⟨early, rfl, here⟩ := seen
    cases drained with
    | true =>
      refine (ih _).mono fun drained left later => ?_
      obtain ⟨new, rfl, there⟩ := later
      refine ⟨new ++ early, by simp, ?_⟩
      simp only [if_true] at here
      cases drained with
      | true =>
        intro other member
        rcases mem_cons.mp member with rfl | member
        · rw [here]
          exact sublist_append_right _ _
        · exact (there other member).trans (sublist_append_left _ _)
      | false =>
        obtain ⟨other, member, found⟩ := there
        exact ⟨other, .tail _ member,
          found.imp (mem_append_left _) (mem_append_left _)⟩
    | false => exact .ret ⟨early, rfl, port, by simp, here.open⟩

theorem Env.Observes.allInputPortsDrained (observes : env.Observes node frame)
    (observed : List Obs) :
    env.Follows (env.allInputPortsDrained node) [frame observed] fun drained left =>
      ∃ new, left = [frame (new ++ observed)] ∧
        if drained then env.AllDrained node (new ++ observed)
        else env.SomeOpen node (new ++ observed) := by
  unfold Env.allInputPortsDrained
  split
  next none => exact .ret ⟨[], rfl, .inl none⟩
  next some =>
    refine (observes.portsDrained _ observed).mono fun drained left seen => ?_
    obtain ⟨new, rfl, found⟩ := seen
    refine ⟨new, rfl, ?_⟩
    cases drained with
    | true =>
      refine ⟨some, fun port bound => ?_⟩
      exact (found port (mem_range.mpr bound)).trans (sublist_append_left _ _)
    | false =>
      obtain ⟨port, member, opened⟩ := found
      exact .inr ⟨port, mem_range.mp member,
        opened.imp (mem_append_left _) (mem_append_left _)⟩

theorem follows_countInputs (done ports : List Nat) (tallied earlier : List Obs)
    (context : SchedulingContext) (tally : Tally done tallied context) :
    env.Follows (π := π) (countInputs node ports context) [.eval node (tallied ++ earlier)]
      fun counted left => ∃ tallied', left = [.eval node (tallied' ++ earlier)] ∧
        Tally (done ++ ports) tallied' counted := by
  induction ports generalizing done tallied context with
  | nil => exact .ret ⟨tallied, rfl, by simpa using tally⟩
  | cons port rest ih =>
    have shift (context : SchedulingContext) (tallied : List Obs)
        (tally : Tally (done ++ [port]) tallied context) :
        env.Follows (π := π) (countInputs node rest context) [.eval node (tallied ++ earlier)]
          fun counted left => ∃ tallied', left = [.eval node (tallied' ++ earlier)] ∧
            Tally (done ++ port :: rest) tallied' counted := by
      have continued := ih (done ++ [port]) tallied context tally
      rwa [append_assoc] at continued
    refine .bind (observes_eval.portDrained port _) fun drained left seen => ?_
    obtain ⟨early, rfl, here⟩ := seen
    cases drained with
    | true =>
      simp only [if_true] at here
      subst here
      exact shift context (.dry port true :: .latched port true :: tallied) (.drained tally)
    | false =>
      refine .seq (observes_eval.portEmpty port _) fun empty => ?_
      rw [← append_assoc]
      cases empty with
      | true => exact shift _ (.dry port true :: (early ++ tallied)) (.dry here tally)
      | false => exact shift _ (.dry port false :: (early ++ tallied)) (.ready here tally)

end Observations

theorem follows_check {α : Type} {next : Answer π → Code π α} {post : α → List (Frame π) → Prop}
    (context : Option Nat) (tail : List (Frame π)) [free : env.protocol.Free tail]
    (flushed : ∀ answer, answer.isTrue = true →
      env.Follows (next answer) (.flushed node :: tail) post)
    (unfinished : ∀ answer, ¬ answer.isTrue = true → env.Follows (next answer) tail post) :
    env.Follows (Prog.invoke (.checkNodeEndOfStream node context) >>= next)
      (.check node [] :: tail) post := by
  refine .bindFrame tail (.invoke Env.Keeps.check) fun answer left checked => ?_
  split at checked
  next done =>
    subst checked
    exact flushed answer done
  next goesOn =>
    subst checked
    exact unfinished answer goesOn

theorem follows_endOfStreamCheck (context : Option Nat) (tail : List (Frame π))
    [free : env.protocol.Free tail] :
    env.Follows (π := π) (do
        let _ ← Prog.invoke (.checkNodeEndOfStream node context)
        .ret ()) (.check node [] :: tail) fun _ left => left = tail :=
  follows_check context tail (fun _ _ => follows_ghost tail .dropFlushed (.ret rfl))
    fun _ _ => .ret rfl

theorem follows_tryScheduleNode :
    env.Follows (π := π) (env.tryScheduleNode node) [.eval node []] fun _ left => left = [] := by
  refine .seqFrame [.eval node []] follows_isStopRequested fun stop => ?_
  cases stop with
  | true => exact follows_ghost [] .stopped (.ret rfl)
  | false =>
  simp only [Bool.false_eq_true, if_false, nil_append]
  split
  next outside => exact follows_ghost [] (.outOfRange outside) (.ret rfl)
  refine .seq (follows_test (fun exec => exec ≠ NodeExecutionState.waiting)
    fun _ _ busy => .schedule (.notWaiting busy)) fun exec => ?_
  split
  · exact .ret rfl
  refine .bind (observes_eval.allInputPortsDrained []) fun drained left seen => ?_
  obtain ⟨earlier, rfl, found⟩ := seen
  cases drained with
  | true =>
    refine follows_ghost [] (.drained found) ?_
    exact (silent_read _).andThen fun context => follows_endOfStreamCheck context []
  | false =>
    refine .bind (follows_countInputs [] _ [] _ {} .nil) fun counted left seen => ?_
    obtain ⟨tallied, rfl, tally⟩ := seen
    refine (silent_read _).andThen fun executions => ?_
    refine (silent_read _).andThen fun last => ?_
    refine silent_external.andThen fun _ => ?_
    refine silent_clock.andThen fun now => ?_
    split
    next decided =>
      refine follows_ghost [] (.decide (by omega)
        ⟨tallied, _, counted, executions, last, now, rfl, tally, decided⟩) ?_
      exact follows_scheduleNodeExecution _
    next deferred =>
      refine follows_ghost [] (.defer
        ⟨tallied, _, counted, executions, last, now, rfl, tally, deferred⟩) ?_
      exact follows_scheduleDeferredRetry _
    next notNow _ =>
      exact follows_ghost [] (.decline notNow
        ⟨tallied, _, counted, executions, last, now, rfl, tally, rfl⟩) (.ret rfl)

end AiPipe
