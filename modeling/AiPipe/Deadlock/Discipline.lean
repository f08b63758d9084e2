import AiPipe.Engine.Overlap
import AiPipe.Engine.Routine

/-!
What the engine's threads wait for: timers and tasks for `m_engineMutex`, the watchdog for its
own mutex, and a client that holds `m_engineMutex` for the watchdog, unless its call is
`initialize()`.
-/

namespace AiPipe

open Concurrency Option Env

variable {π : Type}

inductive Role where
  | inner
  | watchdog
  | caller
  | replacer
  deriving DecidableEq

/-- The role of a thread, and whether it holds its mutex: the watchdog's own, `m_engineMutex`
for all others. -/
structure Duty where
  role : Role
  locked : Bool
  deriving DecidableEq

def Proc.role : Proc π → Role
  | .runTask _ _ _ => .inner
  | .deferTimerLoop _ => .inner
  | .joinTimeoutWatchdogLoop _ => .watchdog
  | .releaseGraph => .replacer
  | _ => .caller

def Duty.holds (duty : Duty) : Mutex → Prop
  | .engine => duty.role ≠ .watchdog ∧ duty.locked = true
  | .watchdog => duty.role = .watchdog ∧ duty.locked = true

def Duty.awaits (duty : Duty) : Mutex → Prop
  | .engine => duty.role ≠ .watchdog ∧ duty.locked = false
  | .watchdog => duty.role = .caller ∨ duty.role = .replacer ∨ duty = ⟨.watchdog, false⟩

def Duty.joins (duty : Duty) : Role → Prop
  | .watchdog => duty.role = .caller ∨ duty.role = .replacer
  | .inner => duty = ⟨.replacer, true⟩ ∨ duty = ⟨.caller, false⟩
  | _ => False

def engineDiscipline : Discipline (Proc π) Mutex Duty Role where
  role := Duty.role
  holds := Duty.holds
  awaits := Duty.awaits
  joins duty procedure := duty.joins procedure.role

def DutyStarts (procedure : Proc π) (duty : Duty) : Prop := duty = ⟨procedure.role, false⟩

inductive DutyTerms : Terms (Proc π) (Answer π) Duty
  | own {procedure : Proc π} : procedure.role ≠ .watchdog →
      DutyTerms procedure ⟨procedure.role, false⟩ fun _ duty' => duty' = ⟨procedure.role, false⟩
  | inner {procedure : Proc π} {role : Role} : procedure.isInner true → role ≠ .watchdog →
      DutyTerms procedure ⟨role, false⟩ fun _ duty' => duty' = ⟨role, false⟩
  | watchdog {number : Nat} :
      DutyTerms (.joinTimeoutWatchdogLoop number) ⟨.watchdog, false⟩ fun _ _ => True

abbrev DutyLaw : Law (State π) (Label π) (Choice π) Duty := WaitLaw engineLocks engineDiscipline

abbrev Stays {α : Type} (program : Code π α) (duty : Duty) : Prop :=
  Obeys DutyLaw DutyTerms DutyStarts program duty fun _ duty' => duty' = duty

def State.bare (state : State π) : State π :=
  { state with
    engineMutex := false
    watchdogMutex := false
    deferTimersEnded := []
    watchdogsEnded := []
    history := { state.history with ended := [] } }

section Law

variable {duty : Duty} {label : Label π} {β : Type}
  {effect : Choice π → State π → Option (β × State π)}

theorem bare_free (mutex : Mutex) (state : State π) :
    (engineLocks.free mutex state).bare = state.bare := by
  cases mutex <;> rfl

theorem bare_finish (procedure : Proc π) (state : State π) :
    (engineLocks.finish procedure state).bare = state.bare := by
  cases procedure <;> rfl

theorem taken_finish (mutex : Mutex) (procedure : Proc π) (state : State π) :
    engineLocks.taken mutex (engineLocks.finish procedure state) =
      engineLocks.taken mutex state := by
  cases mutex <;> cases procedure <;> rfl

def Effortless (effect : Choice π → State π → Option (β × State π)) : Prop :=
  ∀ choice state answer after, effect choice state = some (answer, after) →
    after.engineMutex = state.engineMutex ∧ after.watchdogMutex = state.watchdogMutex

theorem Effortless.keeps (effortless : Effortless effect) (mutex : Mutex) (choice : Choice π)
    (state : State π) (answer : β) (after : State π)
    (made : effect choice state = some (answer, after))
    (taken : engineLocks.taken mutex state = true) : engineLocks.taken mutex after = true := by
  obtain ⟨engine, watchdog⟩ := effortless choice state answer after made
  cases mutex with
  | engine => exact engine.trans taken
  | watchdog => exact watchdog.trans taken

theorem dutyLaw_bare (effortless : Effortless effect)
    (bare : ∀ choice state, (effect choice state).isSome = (effect choice state.bare).isSome) :
    DutyLaw duty label β effect fun _ => duty where
  role _ := rfl
  awaits mutex choice state blocked passed := by
    rw [bare, bare_free, ← bare, blocked] at passed
    cases passed
  joins procedure choice state blocked passed := by
    rw [bare, bare_finish, ← bare, blocked] at passed
    cases passed
  keeps mutex choice state answer after made taken outside :=
    ⟨effortless.keeps mutex choice state answer after made taken, outside⟩

theorem dutyLaw_steady (steady : ∀ choice state, ∃ answer after,
    effect choice state = some (answer, after) ∧
      after.engineMutex = state.engineMutex ∧ after.watchdogMutex = state.watchdogMutex) :
    DutyLaw duty label β effect fun _ => duty := by
  refine dutyLaw_bare (fun choice state answer after made => ?_) fun choice state => ?_
  · obtain ⟨answer', after', made', same⟩ := steady choice state
    obtain ⟨rfl, rfl⟩ := Prod.mk.inj (Option.some.inj (made.symm.trans made'))
    exact same
  · obtain ⟨_, _, made, -⟩ := steady choice state
    obtain ⟨_, _, made', -⟩ := steady choice state.bare
    rw [made, made']
    rfl

theorem dutyLaw_lock {role : Role} (other : role ≠ .watchdog) :
    DutyLaw ⟨role, false⟩ label Unit (fun (_ : Choice π) (state : State π) =>
      if state.engineMutex then none else some ((), { state with engineMutex := true }))
      fun _ => ⟨role, true⟩ := by
  have blocked_iff (state : State π) : (if state.engineMutex = true then none
      else some ((), { state with engineMutex := true })) = none ↔ state.engineMutex = true := by
    cases state.engineMutex <;> simp
  have passed_iff (state : State π) : (if state.engineMutex = true then none
      else some ((), { state with engineMutex := true })).isSome = true ↔
        state.engineMutex = false := by
    cases state.engineMutex <;> simp
  refine ⟨fun _ => rfl, ?_, ?_, ?_⟩
  · intro mutex choice state blocked passed
    cases mutex with
    | engine => exact ⟨other, rfl⟩
    | watchdog =>
      have taken := (blocked_iff state).mp blocked
      have free := (passed_iff (engineLocks.free .watchdog state)).mp passed
      cases taken.symm.trans free
  · intro procedure choice state blocked passed
    have taken := (blocked_iff state).mp blocked
    have free := (taken_finish .engine procedure state).symm.trans ((passed_iff _).mp passed)
    cases free.symm.trans taken
  · intro mutex choice state answer after made taken outside
    split at made
    · cases made
    next free =>
      cases made
      cases mutex with
      | engine => exact absurd taken free
      | watchdog => exact ⟨taken, fun holds => other holds.1⟩

theorem dutyLaw_unlock {role : Role} (other : role ≠ .watchdog) :
    DutyLaw ⟨role, true⟩ label Unit (fun (_ : Choice π) (state : State π) =>
      some ((), { state with engineMutex := false })) fun _ => ⟨role, false⟩ := by
  refine ⟨fun _ => rfl, ?_, ?_, ?_⟩
  · exact fun _ _ _ blocked => absurd blocked (some_ne_none _)
  · exact fun _ _ _ blocked => absurd blocked (some_ne_none _)
  · intro mutex choice state answer after made taken outside
    cases made
    cases mutex with
    | engine => exact absurd ⟨other, rfl⟩ outside
    | watchdog => exact ⟨taken, fun holds => other holds.1⟩

end Law

namespace Stays

variable {α β γ : Type} {duty : Duty}

theorem ret {value : α} : Stays (π := π) (.ret value) duty := rfl

theorem throw : Stays (π := π) (α := α) .throw duty := rfl

theorem onExit {first : Code π α} {next : Option α → Code π β} (stays : Stays first duty)
    (rest : ∀ exit, Stays (next exit) duty) : Stays (first.onExit next) duty :=
  Obeys.onExit stays fun exit _ same => same ▸ rest exit

theorem bind {first : Code π α} {next : α → Code π β} (stays : Stays first duty)
    (rest : ∀ value, Stays (next value) duty) : Stays (first >>= next) duty :=
  Obeys.bind stays (fun value _ same => same ▸ rest value) fun _ same => same

theorem forEach {each : γ → Code π Unit} (stays : ∀ item, Stays (each item) duty)
    (items : List γ) : Stays (Prog.forEach each items) duty := by
  induction items with
  | nil => exact .ret
  | cons item rest ih => exact .bind (stays item) fun _ => ih

variable {label : Label π} {effect : Choice π → State π → Option (β × State π)}

theorem act {next : β → Code π α} (lawful : DutyLaw duty label β effect fun _ => duty)
    (rest : ∀ answer, Stays (next answer) duty) : Stays (.act label effect next) duty :=
  ⟨_, lawful, rest⟩

theorem steady
    (steady : ∀ choice state, ∃ answer after, effect choice state = some (answer, after) ∧
      after.engineMutex = state.engineMutex ∧ after.watchdogMutex = state.watchdogMutex) :
    Stays (.act label effect .ret) duty :=
  .act (dutyLaw_steady steady) fun _ => .ret

theorem read {field : State π → β} : Stays (AiPipe.read field) duty :=
  .steady fun _ state => ⟨_, state, rfl, rfl, rfl⟩

variable {change : State π → State π}

section

variable (same : ∀ state, (change state).engineMutex = state.engineMutex ∧ (change
  state).watchdogMutex = state.watchdogMutex)
include same

theorem storeAs : Stays (AiPipe.storeAs label change) duty :=
  .steady fun _ state => ⟨(), change state, rfl, same state⟩

theorem store :
    Stays (AiPipe.store change) duty := .storeAs same

end

theorem count {change : Statistics → Statistics} : Stays (π := π) (AiPipe.count change) duty :=
  .store fun _ => ⟨rfl, rfl⟩

theorem clock : Stays (π := π) AiPipe.clock duty :=
  .steady fun choice state => ⟨choice.now, state, rfl, rfl, rfl⟩

theorem external : Stays (π := π) AiPipe.external duty := by
  refine .act (dutyLaw_steady fun choice state => ⟨choice.throws, state, rfl, rfl, rfl⟩) fun throws => ?_
  cases throws with
  | true => exact .throw
  | false => exact .ret

theorem wipe {target : Wipe} : Stays (π := π) (AiPipe.wipe target) duty := by
  refine .storeAs fun state => ?_
  cases target <;> exact ⟨rfl, rfl⟩

theorem casExecAs {node : Nat} {expected desired : NodeExecutionState} :
    Stays (AiPipe.casExecAs label node expected desired) duty := by
  refine .steady fun _ state => ?_
  split
  · exact ⟨true, _, rfl, rfl, rfl⟩
  · exact ⟨false, state, rfl, rfl, rfl⟩

variable {condition : State π → Bool}

theorem await (bare : ∀ state, condition state.bare = condition state) :
    Stays (AiPipe.await label condition) duty := by
  refine .act (dutyLaw_bare (fun choice state answer after made => ?_) fun choice state => ?_)
    fun _ => .ret
  · split at made
    · cases made
      exact ⟨rfl, rfl⟩
    · cases made
  · rw [bare]
    split <;> rfl

theorem awaitOrExpire (bare : ∀ state, condition state.bare = condition state) :
    Stays (AiPipe.awaitOrExpire label condition) duty := by
  refine .act (dutyLaw_bare (fun choice state answer after made => ?_) fun choice state => ?_)
    fun _ => .ret
  · split at made
    · cases made
      exact ⟨rfl, rfl⟩
    · split at made
      · cases made
        exact ⟨rfl, rfl⟩
      · cases made
  · rw [bare]
    split
    · rfl
    · split <;> rfl

theorem join (mutexes : ∀ mutex state, condition (engineLocks.free mutex state) = condition state)
    (threads : ∀ procedure state, condition state = false →
      condition (engineLocks.finish procedure state) = true → duty.joins procedure.role) :
    Stays (AiPipe.await .internal condition) duty := by
  have blocked_iff (state : State π) :
      (if condition state = true then some ((), state) else none) = none ↔
        condition state = false := by
    cases condition state <;> simp
  have passed_iff (state : State π) :
      (if condition state = true then some ((), state) else none).isSome = true ↔
        condition state = true := by
    cases condition state <;> simp
  refine .act ⟨fun _ => rfl, ?_, ?_, ?_⟩ fun _ => .ret
  · intro mutex choice state blocked passed
    rw [passed_iff, mutexes, (blocked_iff state).mp blocked] at passed
    cases passed
  · intro procedure choice state blocked passed
    exact threads procedure state ((blocked_iff state).mp blocked) ((passed_iff _).mp passed)
  · intro mutex choice state answer after made taken outside
    split at made
    · cases made
      exact ⟨taken, outside⟩
    · cases made

theorem withEngineLock {role : Role} (other : role ≠ .watchdog) {inner : Code π α}
    (stays : Stays inner ⟨role, true⟩) : Stays (AiPipe.withEngineLock inner) ⟨role, false⟩ := by
  refine ⟨fun _ => ⟨role, true⟩, dutyLaw_lock other, fun _ => ?_⟩
  change Obeys DutyLaw DutyTerms DutyStarts (inner.onExit _) (⟨role, true⟩ : Duty) _
  refine Obeys.onExit stays fun exit duty' same => ?_
  subst same
  cases exit with
  | none => exact ⟨fun _ => ⟨role, false⟩, dutyLaw_unlock other, fun _ => rfl⟩
  | some value => exact ⟨fun _ => ⟨role, false⟩, dutyLaw_unlock other, fun _ => rfl⟩

theorem invoke {procedure : Proc π} {duty : Duty}
    (called : DutyTerms procedure duty fun _ duty' => duty' = duty) :
    Stays (Prog.invoke procedure : Code π (Answer π)) duty :=
  Obeys.invoke called

end Stays

section Inner

variable {α : Type} {role : Role} {duty : Duty}

theorem stays_stopIfRunning : Stays (π := π) stopIfRunning duty := by
  refine .bind .read fun current => ?_
  split
  · exact .store fun _ => ⟨rfl, rfl⟩
  · exact .ret

theorem Routine.stays {program : Code π α} (routine : Routine true program)
    (other : role ≠ .watchdog) : Stays program ⟨role, false⟩ := by
  induction routine with
  | ret => exact .ret
  | throw => exact .throw
  | act plain _ ih =>
    refine .act (dutyLaw_steady fun choice state => ?_) ih
    obtain ⟨answer, after, made, ordinary⟩ := plain choice state
    refine ⟨answer, after, made, ?_⟩
    cases ordinary with
    | still same watched => exact ⟨congrArg Tracked.engineMutex same, watched⟩
    | pop => exact ⟨rfl, rfl⟩
    | push => exact ⟨rfl, rfl⟩
  | stop _ ih => exact .onExit (.withEngineLock other stays_stopIfRunning) ih
  | call inner _ ih => exact ⟨_, .inner inner other, fun exit _ same => same ▸ ih exit⟩
  | spawn _ _ ih => exact ⟨⟨_, rfl⟩, ih⟩

end Inner

section Locked

variable {env : Env} {duty : Duty}

theorem stays_note {change : History π → History π} : Stays (note change) duty :=
  .store fun _ => ⟨rfl, rfl⟩

theorem stays_teardownNodes : Stays (π := π) teardownNodes duty := by
  refine .bind .read fun _ => .bind (.forEach (fun node => ?_) _) fun _ =>
    .store fun _ => ⟨rfl, rfl⟩
  exact .storeAs fun _ => ⟨rfl, rfl⟩

variable (node : Nat)

theorem stays_setupNode : Stays (π := π) (env.setupNode node) duty := by
  refine .steady fun choice state => ?_
  cases choice.outcome with
  | ok _ => exact ⟨_, _, rfl, rfl, rfl⟩
  | error message => exact ⟨_, _, rfl, rfl, rfl⟩

theorem stays_setupEach (nodes : List Nat) : Stays (π := π) (env.setupEach nodes) duty := by
  induction nodes with
  | nil => exact .ret
  | cons node rest ih =>
    refine .bind (stays_setupNode node) fun failed => ?_
    cases failed with
    | none => exact ih
    | some error => exact .bind stays_teardownNodes fun _ => .ret

theorem stays_setupNodes : Stays (π := π) env.setupNodes duty := by
  refine .bind .read fun nodes => ?_
  split
  · exact stays_setupEach _
  · exact .ret

theorem stays_clearQueues : Stays (π := π) (env.clearQueues node) duty :=
  .forEach (fun _ => .wipe) _

theorem stays_resetNodeState : Stays (π := π) (env.resetNodeState node) duty :=
  .bind .wipe fun _ => .bind .wipe fun _ => .bind .wipe fun _ => .bind .wipe fun _ =>
    .bind .wipe fun _ => .bind .wipe fun _ => stays_clearQueues node

theorem stays_resetInternalState : Stays (π := π) env.resetInternalState duty :=
  .bind .wipe fun _ => .bind .wipe fun _ => .bind .wipe fun _ => .bind .wipe fun _ =>
    .bind .wipe fun _ => .bind .wipe fun _ => .bind .wipe fun _ => .bind .wipe fun _ =>
    .bind .wipe fun _ => .bind (.forEach stays_resetNodeState _) fun _ => .wipe

theorem stays_beginExecution (context : Option Nat) :
    Stays (π := π) (env.beginExecution context) duty := by
  refine .bind .read fun current => ?_
  split
  · exact .ret
  · refine .bind (.store fun _ => ⟨rfl, rfl⟩) fun _ => .bind stays_setupNodes fun result => ?_
    cases result with
    | error error =>
      exact .bind (.store fun _ => ⟨rfl, rfl⟩) fun _ => .bind (.store fun _ => ⟨rfl, rfl⟩)
        fun _ => .ret
    | ok _ =>
      have rest : Stays (π := π) (do
          store fun state => { state with engineState := .running }
          .ret (.ok () : Except Error Unit)) duty :=
        .bind (.store fun _ => ⟨rfl, rfl⟩) fun _ => .ret
      refine .bind stays_resetInternalState fun _ => .bind .read fun active => ?_
      cases active with
      | none => exact .bind .ret fun _ => rest
      | some active => exact .bind (.store fun _ => ⟨rfl, rfl⟩) fun _ => rest

theorem stays_settleCompletion (wasStopped : Bool) (activeTasks : Int) (current : EngineState) :
    Stays (π := π) (settleCompletion wasStopped activeTasks current) duty := by
  have settle (value : EngineState) (result : Except Error Unit) : Stays (π := π) (do
      store fun state => { state with engineState := value }
      store fun state => { state with currentContext := none }
      .ret result) duty :=
    .bind (.store fun _ => ⟨rfl, rfl⟩) fun _ => .bind (.store fun _ => ⟨rfl, rfl⟩) fun _ => .ret
  unfold settleCompletion
  split
  · exact settle _ _
  · split
    · exact settle _ _
    · split
      · exact settle _ _
      · exact .bind (.store fun _ => ⟨rfl, rfl⟩) fun _ => .ret

theorem stays_clearNodeState : Stays (π := π) (env.clearNodeState node) duty :=
  .bind .wipe fun _ => .bind .wipe fun _ => .bind .wipe fun _ => .bind .wipe fun _ =>
    stays_clearQueues node

end Locked

section Joins

variable {duty : Duty}

theorem stays_stopJoinTimeoutWatchdog (client : duty.role = .caller ∨ duty.role = .replacer) :
    Stays (π := π) stopJoinTimeoutWatchdog duty := by
  have blocked_iff (state : State π) : (if state.watchdogMutex = true then none
      else some (state.joinWatchdog, { state with watchdogStop := true })) = none ↔
        state.watchdogMutex = true := by
    cases state.watchdogMutex <;> simp
  have passed_iff (state : State π) : (if state.watchdogMutex = true then none
      else some (state.joinWatchdog, { state with watchdogStop := true })).isSome = true ↔
        state.watchdogMutex = false := by
    cases state.watchdogMutex <;> simp
  refine .bind (.act ⟨fun _ => rfl, ?_, ?_, ?_⟩ fun _ => .ret) fun watchdog => .join ?_ ?_
  · intro mutex choice state blocked passed
    cases mutex with
    | engine =>
      have free := (passed_iff (engineLocks.free .engine state)).mp passed
      cases ((blocked_iff state).mp blocked).symm.trans free
    | watchdog =>
      rcases client with caller | replacer
      · exact .inl caller
      · exact .inr (.inl replacer)
  · intro procedure choice state blocked passed
    have free := (taken_finish .watchdog procedure state).symm.trans ((passed_iff _).mp passed)
    cases free.symm.trans ((blocked_iff state).mp blocked)
  · intro mutex choice state answer after made taken outside
    split at made
    · cases made
    · cases made
      cases mutex with
      | engine => exact ⟨taken, outside⟩
      | watchdog => exact ⟨taken, outside⟩
  · intro mutex state
    cases mutex <;> rfl
  · intro procedure state blocked passed
    cases procedure with
    | joinTimeoutWatchdogLoop number => exact client
    | _ => cases blocked.symm.trans passed

theorem stays_stopDeferTimer (client : duty = ⟨.replacer, true⟩ ∨ duty = ⟨.caller, false⟩)
    (nodeCount : Nat) : Stays (π := π) (stopDeferTimer nodeCount) duty := by
  refine .bind (.steady fun _ state => ?_) fun running => ?_
  · split
    · exact ⟨_, _, rfl, rfl, rfl⟩
    · exact ⟨_, _, rfl, rfl, rfl⟩
  · cases running with
    | none => exact .ret
    | some timer =>
      refine .bind (.join ?_ ?_) fun _ => .forEach (fun node => ?_) _
      · intro mutex state
        cases mutex <;> rfl
      · intro procedure state blocked passed
        cases procedure with
        | deferTimerLoop number => exact client
        | _ => cases blocked.symm.trans passed
      · exact .store fun _ => ⟨rfl, rfl⟩

theorem stays_joinWorkers (client : duty = ⟨.replacer, true⟩ ∨ duty = ⟨.caller, false⟩) :
    Stays (π := π) joinWorkers duty := by
  refine .join ?_ ?_
  · intro mutex state
    cases mutex <;> rfl
  · intro procedure state blocked passed
    cases procedure with
    | runTask task node context => exact client
    | _ => cases blocked.symm.trans passed

theorem stays_startJoinTimeoutWatchdog (client : duty.role = .caller ∨ duty.role = .replacer) :
    Stays (π := π) startJoinTimeoutWatchdog duty := by
  refine .bind (stays_stopJoinTimeoutWatchdog client) fun _ =>
    .bind (.store fun _ => ⟨rfl, rfl⟩) fun _ =>
    .bind (.steady fun _ state => ⟨_, _, rfl, rfl, rfl⟩) fun watchdog => ?_
  exact ⟨⟨_, rfl⟩, rfl⟩

end Joins

section Threads

variable {env : Env} {duty : Duty}

theorem passes_deferTimerLoop (env : Env) (timer : Nat) (choice : Choice π) (state : State π) :
    (env.deferTimerLoop timer).passes choice state =
      (env.deferTimerLoop timer).passes choice state.bare := by
  change isSome (if state.deferStop = true then _ else _) =
    isSome (if state.deferStop = true then _ else _)
  split
  · rfl
  · have same : state.bare.deferQueue = state.deferQueue := rfl
    rw [same]
    cases earliestDue state.deferQueue with
    | none => rfl
    | some entry =>
      dsimp only
      split <;> rfl

theorem stays_deferTimerLoop (timer : Nat) :
    Stays (π := π) (env.deferTimerLoop timer) ⟨.inner, false⟩ := by
  refine .bind (.act (dutyLaw_bare (fun choice state answer after made => ?_)
    (passes_deferTimerLoop env timer)) fun _ => .ret) fun due => ?_
  · split at made
    · cases made
      exact ⟨rfl, rfl⟩
    · split at made
      · cases made
      · split at made
        · cases made
        · cases made
          exact ⟨rfl, rfl⟩
  · cases due with
    | none => exact .bind (.store fun _ => ⟨rfl, rfl⟩) fun _ => .ret
    | some node =>
      exact .bind (.store fun _ => ⟨rfl, rfl⟩) fun _ =>
        .bind (routine_tryScheduleNode.stays (by decide)) fun _ => .invoke (.own nofun)

theorem stays_collectSinkCounts (name : Nat → String) (sinks : List Nat) :
    Stays (π := π) (collectSinkCounts name sinks) duty := by
  induction sinks with
  | nil => exact .ret
  | cons sink rest ih => exact .bind .read fun _ => .bind ih fun _ => .ret

theorem stays_checkCompletionAndNotify : Stays (π := π) env.checkCompletionAndNotify duty := by
  refine .bind .read fun streaming => ?_
  split
  · exact .ret
  · refine .bind .read fun active => ?_
    split
    · exact .ret
    · refine .bind (stays_collectSinkCounts _ _) fun counts => .bind .external fun _ => ?_
      split
      · refine .bind (.steady fun _ state => ⟨_, _, rfl, rfl, rfl⟩) fun claimed => ?_
        cases claimed with
        | none => exact .ret
        | some run =>
          refine .bind (.store fun state => ?_) fun _ => .bind .read fun _ =>
            .store fun _ => ⟨rfl, rfl⟩
          split <;> exact ⟨rfl, rfl⟩
      · exact .ret

theorem stays_scheduleNodeExecution (node : Nat) :
    Stays (π := π) (env.scheduleNodeExecution node) duty := by
  refine .bind .casExecAs fun claimed => ?_
  split
  · refine .bind (.steady fun _ state => ⟨_, _, rfl, rfl, rfl⟩) fun task => .bind .read fun context =>
      .bind (.steady fun choice state => ⟨choice.posted, state, rfl, rfl, rfl⟩) fun posted => ?_
    split
    · exact ⟨⟨_, rfl⟩, rfl⟩
    · exact .bind (.store fun _ => ⟨rfl, rfl⟩) fun _ => .bind (.store fun _ => ⟨rfl, rfl⟩) fun _ =>
        .bind stays_checkCompletionAndNotify fun _ => .store fun _ => ⟨rfl, rfl⟩
  · exact .ret

theorem stays_countReadyPorts (node : Nat) (ports : List Nat) (ready : Nat) :
    Stays (π := π) (countReadyPorts node ports ready) duty := by
  induction ports generalizing ready with
  | nil => exact .ret
  | cons port rest ih =>
    refine .bind .read fun dry => ?_
    split
    · exact ih _
    · exact ih _

theorem stays_watchJoin (now : Int) (node : Nat) : Stays (π := π) (env.watchJoin now node) duty := by
  refine .bind (stays_countReadyPorts _ _ _) fun ready => ?_
  split
  · exact .store fun _ => ⟨rfl, rfl⟩
  · refine .bind .read fun since => ?_
    split
    · exact .store fun _ => ⟨rfl, rfl⟩
    · split
      · exact .ret
      · exact .bind (.store fun _ => ⟨rfl, rfl⟩) fun _ => .bind (.store fun _ => ⟨rfl, rfl⟩) fun _ =>
          stays_scheduleNodeExecution node

theorem obeys_nextTick (watchdog : Nat) : Obeys DutyLaw DutyTerms DutyStarts (do
      store fun state : State π => { state with watchdogMutex := false }
      Prog.invoke (.joinTimeoutWatchdogLoop watchdog)) (⟨.watchdog, true⟩ : Duty)
        fun _ _ => True := by
  refine ⟨fun _ => ⟨.watchdog, false⟩, ⟨fun _ => rfl, ?_, ?_, ?_⟩, fun _ => .invoke .watchdog⟩
  · exact fun _ _ _ blocked => absurd blocked (some_ne_none _)
  · exact fun _ _ _ blocked => absurd blocked (some_ne_none _)
  · intro mutex choice state answer after made taken outside
    cases made
    cases mutex with
    | engine => exact ⟨taken, fun holds => holds.1 rfl⟩
    | watchdog => exact absurd ⟨rfl, rfl⟩ outside

theorem stays_joinTimeoutWatchdogLoop (watchdog : Nat) :
    Obeys DutyLaw DutyTerms DutyStarts (env.joinTimeoutWatchdogLoop (π := π) watchdog)
      ⟨.watchdog, false⟩ fun _ _ => True := by
  refine ⟨fun ticked => ⟨.watchdog, ticked⟩, ⟨fun _ => rfl, ?_, ?_, ?_⟩, fun ticked => ?_⟩
  · intro mutex choice state blocked passed
    cases mutex with
    | watchdog => exact .inr (.inr rfl)
    | engine =>
      change isSome (if state.watchdogMutex = true then _ else _) = true at passed
      split at blocked
      next taken =>
        rw [if_pos taken] at passed
        cases passed
      next => split at blocked <;> cases blocked
  · intro procedure choice state blocked passed
    split at blocked
    next taken =>
      have still : (engineLocks.finish procedure state).watchdogMutex = true :=
        (taken_finish .watchdog procedure state).trans taken
      rw [if_pos still] at passed
      cases passed
    next => split at blocked <;> cases blocked
  · intro mutex choice state ticked after made taken outside
    split at made
    · cases made
    next free =>
      cases mutex with
      | watchdog => exact absurd taken free
      | engine =>
        split at made
        · cases made
          exact ⟨taken, fun holds => holds.1 rfl⟩
        · cases made
          exact ⟨taken, fun holds => holds.1 rfl⟩
  · cases ticked with
    | false =>
      exact Obeys.mono (Stays.bind (.store fun _ => ⟨rfl, rfl⟩) fun _ => .ret) fun _ _ _ => trivial
    | true =>
      have onward {α : Type} {first : Code π α} {next : α → Code π (Answer π)}
          (stays : Stays first ⟨.watchdog, true⟩)
          (rest : ∀ value, Obeys DutyLaw DutyTerms DutyStarts (next value)
            (⟨.watchdog, true⟩ : Duty) fun _ _ => True) :
          Obeys DutyLaw DutyTerms DutyStarts (first >>= next) (⟨.watchdog, true⟩ : Duty)
            fun _ _ => True :=
        .bind stays (fun value _ same => same ▸ rest value) fun _ _ => trivial
      refine onward .read fun stopped => ?_
      cases stopped with
      | true => exact onward .ret fun _ => obeys_nextTick watchdog
      | false =>
        exact onward .clock fun now => onward (.forEach (stays_watchJoin now) _) fun _ =>
          obeys_nextTick watchdog

end Threads

section Clients

variable {env : Env} {α : Type} (data : PortDataPtr π)

theorem stays_stampIncomingFrame (duty : Duty) : Stays (env.stampIncomingFrame data) duty := by
  cases data with
  | none => exact .ret
  | some packet =>
    unfold stampIncomingFrame
    dsimp only
    split
    · exact .ret
    · refine .bind (.steady fun _ state => ?_) fun _ => .bind .clock fun _ => .ret
      refine ⟨_, _, env.takeFrameId_eq state packet.streamId, ?_⟩
      unfold numbered
      split <;> exact ⟨rfl, rfl⟩

abbrev Asks (program : Code π α) : Prop := Stays program ⟨.caller, false⟩

theorem Routine.asks {program : Code π α} (routine : Routine true program) : Asks program :=
  routine.stays (by decide)

theorem asks_stopExecutionSync : Asks (π := π) stopExecutionSync :=
  .bind routine_stopExecutionAsync.asks fun _ => .bind (.await fun _ => rfl) fun _ =>
    .withEngineLock (by decide) stays_stopIfRunning

theorem asks_getQueueSize (node : Nat) (port : String) :
    Asks (π := π) (env.getQueueSize node port) := by
  unfold getQueueSize
  split
  · exact .ret
  · exact .read

theorem asks_pushToQueue (node : Nat) (port : String) (data : PortDataPtr π) (route : Route) :
    Asks (env.pushToQueue node port data route) :=
  (routine_pushToQueue (fun _ => rfl) port).asks

variable (inputs : PortDataMap π)

theorem asks_distributeTo (node : Nat) : Asks (env.distributeTo inputs node) := by
  unfold distributeTo
  split
  · refine .bind (stays_stampIncomingFrame _ _) fun stamped => ?_
    split
    · exact .bind routine_tryScheduleNode.asks fun _ => .ret
    · refine .bind (asks_pushToQueue _ _ _ _) fun pushed => ?_
      split
      · exact .bind .count fun _ => .bind routine_tryScheduleNode.asks fun _ => .ret
      · exact .ret
  · split
    · exact .bind routine_tryScheduleNode.asks fun _ => .ret
    · exact .ret

theorem asks_distributeLoop (nodes : List Nat) (scheduled : Bool) :
    Asks (env.distributeLoop inputs nodes scheduled) := by
  induction nodes generalizing scheduled with
  | nil => exact .ret
  | cons node rest ih =>
    refine .bind (asks_distributeTo inputs node) fun result => ?_
    cases result with
    | none => exact .ret
    | some _ => exact ih _

theorem asks_finishWait : Asks (π := π) finishWait :=
  .bind .read fun _ => .bind .read fun _ => .bind .read fun _ =>
    .withEngineLock (by decide) (stays_settleCompletion _ _ _)

theorem asks_waitForCompletion (timeout : Option Nat) :
    Asks (π := π) (waitForCompletion timeout) := by
  cases timeout with
  | none => exact .bind (.await fun _ => rfl) fun _ => asks_finishWait
  | some limit =>
    refine .bind (.awaitOrExpire fun _ => rfl) fun reached => ?_
    split
    · exact asks_finishWait
    · have rest : Asks (π := π) (do
          stopExecutionAsync
          store fun state => { state with currentContext := none }
          .ret (.error ⟨.executionTimeout,
            "Execution timed out after " ++ toString limit ++ "ms", ""⟩ : Except Error Unit)) :=
        .bind routine_stopExecutionAsync.asks fun _ => .bind (.store fun _ => ⟨rfl, rfl⟩)
          fun _ => .ret
      refine .bind .read fun context => ?_
      cases context with
      | none => exact .bind .ret fun _ => rest
      | some active => exact .bind (.storeAs fun _ => ⟨rfl, rfl⟩) fun _ => rest

theorem asks_launch (wait : Bool) (timeout : Option Nat) :
    Asks (env.launch inputs wait timeout) := by
  refine .bind (asks_distributeLoop _ _ _) fun distributed => ?_
  split
  · refine .bind stays_note fun _ => ?_
    split
    · exact asks_waitForCompletion timeout
    · exact .ret
  · refine .bind (.withEngineLock (by decide) ?_) fun _ => .ret
    exact .bind (.store fun _ => ⟨rfl, rfl⟩) fun _ => .store fun _ => ⟨rfl, rfl⟩

theorem asks_routeEdges (edges : List OutEdge) (counts : Env.RouteCounts) :
    Asks (env.routeEdges data edges counts) := by
  induction edges generalizing counts with
  | nil => exact .ret
  | cons edge rest ih =>
    refine .bind (asks_pushToQueue _ _ _ _) fun pushed => ?_
    split
    · exact .bind .count fun _ => .bind .count fun _ => .bind routine_tryScheduleNode.asks fun _ =>
        .bind (asks_getQueueSize _ _) fun _ => ih _
    · exact ih _

theorem asks_routeToDownstream (node : Nat) (port : String) (data : PortDataPtr π) :
    Asks (env.routeToDownstream node port data) := by
  refine .bind (asks_routeEdges _ _ _) fun counts => ?_
  dsimp only
  split
  · split
    · exact .ret
    · exact .ret
  · split
    · exact .ret
    · exact .ret

theorem asks_pushToPort (node index : Nat) (port : String) (data : PortDataPtr π) :
    Asks (env.pushToPort node index port data) := by
  refine .bind .read fun latched => ?_
  split
  · exact .ret
  · refine .bind (stays_stampIncomingFrame _ _) fun stamped =>
      .bind (asks_pushToQueue _ _ _ _) fun pushed => ?_
    split
    · exact .bind .count fun _ => .bind .count fun _ => .bind routine_tryScheduleNode.asks fun _ =>
        .bind (asks_getQueueSize _ _) fun _ => .ret
    · exact .ret

theorem asks_pushInput (name port : String) (data : PortDataPtr π) :
    Asks (env.pushInput name port data) := by
  have look : Asks (π := π) (do
      if ← read State.streamingMode then .ret true
      else .ret ((← read State.engineState) == .running) : Code π Bool) := by
    refine .bind .read fun streaming => ?_
    split
    · exact .ret
    · exact .bind .read fun _ => .ret
  refine .bind look fun accepting => ?_
  split
  · exact .ret
  · split
    · exact .ret
    · dsimp only
      split
      · exact .ret
      · split
        · exact asks_pushToPort _ _ _ _
        · split
          · exact asks_routeToDownstream _ _ _
          · exact .ret

theorem asks_pushEach : Asks (env.pushEach inputs) := by
  induction inputs with
  | nil => exact .ret
  | cons entry rest ih =>
    refine .bind (asks_pushInput _ _ _) fun result => ?_
    cases result with
    | error _ => exact .ret
    | ok _ => exact ih

theorem asks_execute (wait : Bool) (context timeout : Option Nat) :
    Asks (env.execute inputs wait context timeout) := by
  refine .bind .read fun streaming => ?_
  split
  · refine .bind (asks_pushEach inputs) fun result => ?_
    cases result with
    | error _ => exact .ret
    | ok _ =>
      dsimp only
      split
      · exact .bind (.await fun _ => rfl) fun _ => .ret
      · exact .bind .ret fun _ => .ret
  · refine .bind (.withEngineLock (by decide) (stays_beginExecution context)) fun result => ?_
    cases result with
    | error _ => exact .ret
    | ok _ => exact asks_launch inputs wait timeout

/-- `startStreaming` joins an old watchdog under `m_engineMutex`. -/
theorem asks_startStreaming (context : Option Nat) : Asks (π := π) (env.startStreaming context) := by
  refine .withEngineLock (by decide) (.bind .read fun current => ?_)
  split
  · exact .ret
  · split
    · exact .ret
    · refine .bind stays_setupNodes fun result => ?_
      cases result with
      | error _ => exact .ret
      | ok _ =>
        have rest : Stays (π := π) (do
            store fun state => { state with currentContext := context }
            store fun state => { state with completionReported := false }
            store fun state => { state with streamingMode := true }
            storeAs .clearStop fun state => { state with stopFlag := false }
            store fun state => { state with engineState := .running }
            count fun _ => {}
            if 0 < env.config.joinWaitTimeout ∧ env.multiInputIndices ≠ [] then
              startJoinTimeoutWatchdog
            else .ret ()
            .ret (.ok () : Except Error Unit)) ⟨.caller, true⟩ := by
          refine .bind (.store fun _ => ⟨rfl, rfl⟩) fun _ => .bind (.store fun _ => ⟨rfl, rfl⟩)
            fun _ => .bind (.store fun _ => ⟨rfl, rfl⟩) fun _ =>
            .bind (.storeAs fun _ => ⟨rfl, rfl⟩) fun _ => .bind (.store fun _ => ⟨rfl, rfl⟩)
            fun _ => .bind .count fun _ => ?_
          split
          · exact .bind (stays_startJoinTimeoutWatchdog (.inl rfl)) fun _ => .ret
          · exact .bind .ret fun _ => .ret
        cases context with
        | none => exact .bind .ret fun _ => rest
        | some active => exact .bind (.store fun _ => ⟨rfl, rfl⟩) fun _ => rest

theorem asks_waitForDrain (maxDepth timeout : Nat) :
    Asks (π := π) (env.waitForDrain maxDepth timeout) := by
  refine .bind (.awaitOrExpire fun _ => rfl) fun reached => ?_
  split
  · exact .ret
  · exact .ret

theorem asks_stopStreaming (drain : Bool) : Asks (π := π) (env.stopStreaming drain) := by
  refine .bind (.withEngineLock (by decide) (.bind .read fun streaming => ?_)) fun streaming => ?_
  · split
    · exact .bind (.storeAs fun _ => ⟨rfl, rfl⟩) fun _ => .ret
    · exact .ret
  · split
    · have rest : Asks (π := π) (do
          await .internal fun state => state.activeTasks == 0
          withEngineLock (do
            store fun state => { state with streamingMode := false }
            store fun state => { state with engineState := .idle })
          note fun history => { history with stopping := history.stopping - 1 }) := by
        refine .bind (.await fun _ => rfl) fun _ => .bind (.withEngineLock (by decide) ?_) fun _ =>
          stays_note
        exact .bind (.store fun _ => ⟨rfl, rfl⟩) fun _ => .store fun _ => ⟨rfl, rfl⟩
      refine .bind (stays_stopJoinTimeoutWatchdog (.inl rfl)) fun _ => ?_
      cases drain with
      | true => exact .bind (asks_waitForDrain _ _) fun _ => .bind .ret fun _ => rest
      | false => exact .bind .ret fun _ => rest
    · exact .ret

theorem asks_reset : Asks (π := π) env.reset := by
  refine .bind asks_stopExecutionSync fun _ => .bind (stays_stopDeferTimer (.inr rfl) _) fun _ => ?_
  refine .withEngineLock (by decide) ?_
  exact .bind .wipe fun _ => .bind (.forEach stays_clearNodeState _) fun _ => .bind .external fun _ =>
    .bind .external fun _ => .bind (.store fun _ => ⟨rfl, rfl⟩) fun _ =>
    .bind stays_teardownNodes fun _ => .bind .wipe fun _ => .bind .wipe fun _ => .bind .wipe fun _ =>
    .bind .wipe fun _ => .bind .wipe fun _ => .bind .wipe fun _ => .bind .wipe fun _ =>
    .bind .wipe fun _ => .bind .wipe fun _ => .count

theorem stays_releaseGraph : Stays (π := π) env.releaseGraph ⟨.replacer, false⟩ := by
  refine .withEngineLock (by decide) ?_
  exact .bind (stays_stopJoinTimeoutWatchdog (.inr rfl)) fun _ =>
    .bind (stays_stopDeferTimer (.inl rfl) _) fun _ => stays_teardownNodes

theorem asks_destroy : Asks (π := π) env.destroy :=
  .bind (stays_stopJoinTimeoutWatchdog (.inl rfl)) fun _ =>
    .bind (stays_stopDeferTimer (.inr rfl) _) fun _ => .bind (stays_joinWorkers (.inr rfl)) fun _ =>
    .withEngineLock (by decide) stays_teardownNodes

theorem asks_signalEndOfStream (name port : String) :
    Asks (π := π) (env.signalEndOfStream name port) := by
  refine .bind .read fun streaming => ?_
  split
  · exact .ret
  · split
    · exact .ret
    · split
      · exact .ret
      · dsimp only
        split
        · exact .ret
        · split
          · exact .ret
          · refine .bind (.steady fun _ state => ⟨_, _, rfl, rfl, rfl⟩) fun before => ?_
            split
            · exact .ret
            · refine .bind .read fun context => ?_
              refine .bind (.invoke (.inner trivial (by decide))) fun ended => ?_
              split
              · exact .bind .ret fun _ => .ret
              · exact .bind routine_tryScheduleNode.asks fun _ => .ret

theorem stays_ignoring {duty : Duty} {call : Code π α} (stays : Stays call duty) :
    Stays (Env.ignoring call) duty :=
  .bind stays fun _ => .ret

end Clients

theorem stays_body (env : Env) {procedure : Proc π} {duty : Duty}
    {leaves : Option (Answer π) → Duty → Prop} (called : DutyTerms procedure duty leaves) :
    Obeys DutyLaw DutyTerms DutyStarts (env.body procedure) duty leaves := by
  cases called with
  | inner isInner other => exact (routine_body isInner).stays other
  | watchdog => exact stays_joinTimeoutWatchdogLoop _
  | own other =>
    cases procedure with
    | joinTimeoutWatchdogLoop => exact absurd rfl other
    | runTask => exact (routine_runTask _).stays nofun
    | deferTimerLoop => exact stays_deferTimerLoop _
    | releaseGraph => exact stays_ignoring stays_releaseGraph
    | execute =>
      exact Stays.bind (.storeAs fun _ => ⟨rfl, rfl⟩) fun _ =>
        Stays.bind (asks_execute _ _ _ _) fun _ => Stays.bind stays_note fun _ => .ret
    | reset =>
      exact Stays.bind (.storeAs fun _ => ⟨rfl, rfl⟩) fun _ =>
        Stays.bind asks_reset fun _ => Stays.bind stays_note fun _ => .ret
    | startStreaming => exact stays_ignoring (asks_startStreaming _)
    | stopStreaming => exact stays_ignoring (asks_stopStreaming _)
    | destroy => exact stays_ignoring asks_destroy
    | stopExecutionAsync => exact stays_ignoring routine_stopExecutionAsync.asks
    | stopExecutionSync => exact stays_ignoring asks_stopExecutionSync
    | pushInput => exact stays_ignoring (asks_pushInput _ _ _)
    | signalEndOfStream => exact stays_ignoring (asks_signalEndOfStream _ _)
    | requestCancellation => exact stays_ignoring (.storeAs fun _ => ⟨rfl, rfl⟩)
    | checkNodeEndOfStream => exact routine_checkNodeEndOfStream.asks
    | pushFallback => exact (routine_pushFallback (fun _ => rfl) _).asks
    | evictToWindow => exact (routine_evictToWindow _).asks
    | gatherPort => exact (routine_gatherPort _).asks
    | peekAlignmentHead => exact routine_peekAlignmentHead.asks
    | gatherAligned => exact routine_gatherAligned.asks

end AiPipe
