import AiPipe.Deadlock.Discipline

/-!
Circles of waiting threads.  `initialize()` joins the timer and the workers while it holds
`m_engineMutex`, for which they may wait.
-/

namespace AiPipe

open Concurrency Option List

variable {π : Type}

def EngineCall.role : EngineCall π → Role
  | .engine _ procedure => procedure.role
  | .initializeWith _ => .replacer

def callDiscipline : Discipline (EngineCall π) Mutex Duty Role where
  role := Duty.role
  holds := Duty.holds
  awaits := Duty.awaits
  joins duty call := duty.joins call.role

abbrev CallLaw : Law (State π × Nat) (Label π) (Choice π) Duty := WaitLaw callLocks callDiscipline

def CallStarts (call : EngineCall π) (duty : Duty) : Prop := duty = ⟨call.role, false⟩

inductive CallTerms : Terms (EngineCall π) (Answer π) Duty
  | engine {graph : Nat} {procedure : Proc π} {duty : Duty}
      {leaves : Option (Answer π) → Duty → Prop} : DutyTerms procedure duty leaves →
      CallTerms (.engine graph procedure) duty leaves
  | initializeWith {graph : Nat} :
      CallTerms (.initializeWith graph) ⟨.replacer, false⟩ fun _ _ => True

section Lawful

variable {α β : Type} {duty : Duty}

theorem DutyLaw.beside {label : Label π} {effect : Choice π → State π → Option (β × State π)}
    {after : β → Duty} (lawful : DutyLaw duty label β effect after) :
    CallLaw duty label β (Concurrency.beside effect) after where
  role := lawful.role
  awaits mutex choice state blocked passed := by
    refine lawful.awaits mutex choice state.1 (map_eq_none_iff.mp blocked) ?_
    exact (isSome_map).symm.trans passed
  joins call choice state blocked passed := by
    have blocked := map_eq_none_iff.mp blocked
    cases call with
    | engine graph procedure =>
      exact lawful.joins procedure choice state.1 blocked ((isSome_map).symm.trans passed)
    | initializeWith graph =>
      have passed := (isSome_map).symm.trans passed
      change (effect choice state.1).isSome = true at passed
      rw [blocked] at passed
      cases passed
  keeps mutex choice state answer state' made taken outside := by
    obtain ⟨⟨answer', after'⟩, inside, same⟩ := map_eq_some_iff.mp made
    obtain ⟨rfl, rfl⟩ := Prod.mk.inj same
    exact lawful.keeps mutex choice state.1 answer' after' inside taken outside

abbrev Heeds (program : CallCode π α) (duty : Duty) (post : Option α → Duty → Prop) : Prop :=
  Obeys CallLaw CallTerms CallStarts program duty post

variable {post : Option α → Duty → Prop}

theorem heeds_within {program : Code π α} (graph : Nat)
    (obeys : Obeys DutyLaw DutyTerms DutyStarts program duty post) :
    Heeds (program.within (.engine graph)) duty post := by
  refine Obeys.within ?_ ?_ ?_ obeys
  · exact fun _ _ _ _ _ lawful => DutyLaw.beside lawful
  · exact fun _ _ _ called => .engine called
  · exact fun _ _ same => same

theorem heeds_beyond {effect : Choice π → State π × Nat → Option (β × (State π × Nat))}
    {next : β → CallCode π α}
    (total : ∀ choice shared, ∃ answer graph,
      effect choice shared = some (answer, shared.1, graph))
    (rest : ∀ answer, Heeds (next answer) duty post) :
    Heeds (.act .internal effect next) duty post := by
  refine ⟨fun _ => duty, ⟨fun _ => rfl, ?_, ?_, ?_⟩, rest⟩
  · intro mutex choice shared blocked
    obtain ⟨_, _, made⟩ := total choice shared
    cases blocked.symm.trans made
  · intro call choice shared blocked
    obtain ⟨_, _, made⟩ := total choice shared
    cases blocked.symm.trans made
  · intro mutex choice shared answer shared' made taken outside
    obtain ⟨_, _, made'⟩ := total choice shared
    obtain ⟨-, rfl⟩ := Prod.mk.inj (Option.some.inj (made.symm.trans made'))
    exact ⟨taken, outside⟩

variable (graphs : Nat → Env)

theorem heeds_initializeWith (graph : Nat) :
    Heeds (initializeWith (π := π) graphs graph) ⟨.replacer, false⟩ fun _ _ => True := by
  have onward {α β : Type} {first : Code π α} {next : α → CallCode π β} {number : Nat}
      (stays : Stays first ⟨.replacer, true⟩)
      (rest : ∀ value, Heeds (next value) ⟨.replacer, true⟩ fun _ _ => True) :
      Heeds (first.within (.engine number) >>= next) ⟨.replacer, true⟩ fun _ _ => True :=
    (heeds_within number stays).bind (fun value _ same => same ▸ rest value) fun _ _ => trivial
  have release : Obeys DutyLaw DutyTerms DutyStarts (do
      joinWorkers
      store State.initialized
      unlockEngine : Code π Unit) (⟨.replacer, true⟩ : Duty) fun _ _ => True := by
    refine .bind (stays_joinWorkers (.inl rfl)) (fun _ duty same => ?_) fun _ _ => trivial
    subst same
    have stored : Stays (π := π) (store State.initialized) ⟨.replacer, true⟩ :=
      .store fun _ => ⟨rfl, rfl⟩
    refine .bind stored (fun _ duty same => ?_) fun _ _ => trivial
    subst same
    exact ⟨fun _ => ⟨.replacer, false⟩, dutyLaw_unlock (by decide), fun _ => trivial⟩
  refine ⟨fun _ => ⟨.replacer, true⟩, (dutyLaw_lock (by decide)).beside, fun _ => ?_⟩
  refine heeds_beyond (fun _ shared => ⟨shared.2, shared.2, rfl⟩) fun current => ?_
  refine onward (.bind (stays_stopJoinTimeoutWatchdog (.inr rfl)) fun _ =>
    .bind (stays_stopDeferTimer (.inl rfl) _) fun _ => stays_teardownNodes) fun _ => ?_
  refine heeds_beyond (fun _ shared => ⟨(), graph, rfl⟩) fun _ => ?_
  exact (heeds_within graph release).bind (fun _ _ _ => trivial) fun _ _ => trivial

theorem calls_lawful : Lawful (CallLaw (π := π)) CallTerms CallStarts (calls graphs) where
  keeps call duty leaves called := by
    cases called with
    | engine called => exact heeds_within _ (stays_body _ called)
    | initializeWith => exact heeds_initializeWith graphs _
  begins call duty started := by
    subst started
    cases call with
    | initializeWith graph => exact ⟨_, .initializeWith⟩
    | engine graph procedure =>
      by_cases watches : procedure.role = .watchdog
      · cases procedure with
        | joinTimeoutWatchdogLoop number => exact ⟨_, .engine .watchdog⟩
        | _ => cases watches
      · exact ⟨_, .engine (.own watches)⟩

end Lawful

section Begin

variable {α : Type}

def Unhindered (program : CallCode π α) : Prop :=
  ∀ choice shared shared', shared.1.bare = shared'.1.bare →
    program.passes choice shared = program.passes choice shared'

theorem Unhindered.not_awaits {body : EngineCall π → CallCode π (Answer π)}
    {shared : State π × Nat} {first second : Thread (State π × Nat) (Label π) (EngineCall π)
      (Choice π) (Answer π)} (unhindered : Unhindered first.program) :
    ¬ Awaits body callLocks shared first second := by
  have stuck {before after : State π × Nat} (same : before.1.bare = after.1.bare)
      (held : first.program.HeldUp before after) : False := by
    obtain ⟨choice, blocked, passed⟩ := held
    rw [unhindered choice before after same, passed] at blocked
    cases blocked
  intro awaits
  cases awaits with
  | mutex mutex held => exact stuck (bare_free mutex shared.1).symm held
  | join others held =>
    refine stuck ?_ held
    cases second.procedure with
    | engine graph procedure => exact (bare_finish procedure _).symm
    | initializeWith graph => rfl

variable (graphs : Nat → Env)

theorem unhindered_runTask (graph task node : Nat) (context : Option Nat) :
    Unhindered (thread (calls (π := π) graphs) (.engine graph (.runTask task node context))).program := by
  have through (choice : Choice π) (shared : State π × Nat) :
      (thread (calls graphs) (.engine graph (.runTask task node context))).program.passes
        choice shared = true := by
    change (Prog.onExit (Prog.within (EngineCall.engine graph)
      ((graphs graph).runTask task node context)) _).passes choice shared = true
    unfold Env.runTask Env.executeNodeTask
    by_cases unknown : (graphs graph).graph.nodeCount ≤ node
    · rw [if_pos unknown, if_pos unknown]
      rfl
    · rw [if_neg unknown, if_neg unknown]
      unfold Env.emitTrace
      by_cases traced : (graphs graph).traceSink = true
      · rw [if_pos traced]
        rfl
      · rw [if_neg traced]
        rfl
  intro choice shared shared' _
  rw [through, through]

theorem unhindered_deferTimerLoop (graph timer : Nat) :
    Unhindered (thread (calls (π := π) graphs) (.engine graph (.deferTimerLoop timer))).program := by
  have inside (choice : Choice π) (shared : State π × Nat) :
      (thread (calls graphs) (.engine graph (.deferTimerLoop timer))).program.passes choice shared =
        ((graphs graph).deferTimerLoop timer).passes choice shared.1 := isSome_map
  intro choice shared shared' same
  rw [inside, inside, passes_deferTimerLoop, same, ← passes_deferTimerLoop]

theorem not_stands_locked {call : EngineCall π} (replaces : call.role = .replacer) :
    ¬ Stands CallLaw CallTerms CallStarts (thread (calls graphs) call, ⟨.replacer, true⟩) := by
  have refused {next : Unit → CallCode π Unit} : ¬ Heeds (.act .internal
      (beside fun _ state => if state.engineMutex then none
        else some ((), { state with engineMutex := true })) next)
      (⟨.replacer, true⟩ : Duty) fun _ _ => True := by
    rintro ⟨after, lawful, -⟩
    have waits := lawful.awaits .engine {} ({ engineMutex := true }, 0) rfl rfl
    cases waits.2
  cases call with
  | initializeWith graph => exact refused
  | engine graph procedure =>
    cases procedure with
    | releaseGraph => exact refused
    | _ => cases replaces

theorem unhindered_inner {call : EngineCall π} (inner : call.role = .inner) :
    Unhindered (thread (calls graphs) call).program := by
  cases call with
  | initializeWith graph => cases inner
  | engine graph procedure =>
    cases procedure with
    | runTask => exact unhindered_runTask _ _ _ _ _
    | deferTimerLoop => exact unhindered_deferTimerLoop _ _ _
    | _ => cases inner

end Begin

section Circles

variable {graphs : Nat → Env}

/-- While a call of `initialize()` is in progress, no timer and no task is. -/
def Undisturbed (config : CallThreads π) : Prop :=
  ∀ call ∈ config.threads, call.procedure.role = .replacer → call.program.finished = false →
    ∀ thread ∈ config.threads, thread.procedure.role = .inner → thread.program.finished = true

abbrev OverlappingRun (graphs : Nat → Env) (meets : CallThreads π → CallThreads π → Prop) (first : Nat)
    (config : CallThreads π) : Prop :=
  Unfolds (calls graphs) (fun _ : Nat => overlapping) meets ⟨(.fresh, first), []⟩ 0 0 config

def Duty.rank (duty : Duty) : Nat :=
  match duty.role, duty.locked with
  | .watchdog, true => 0
  | .inner, true => 0
  | .watchdog, false => 1
  | .caller, true => 2
  | .replacer, true => 2
  | .inner, false => 3
  | .caller, false => 4
  | .replacer, false => 4

theorem Duty.rank_lt_of_mutex {duty duty' : Duty} {mutex : Mutex} (awaits : duty.awaits mutex)
    (holds : duty'.holds mutex) : duty'.rank < duty.rank := by
  obtain ⟨role, locked⟩ := duty
  obtain ⟨role', locked'⟩ := duty'
  cases mutex with
  | engine =>
    obtain ⟨other, rfl⟩ := awaits
    obtain ⟨-, rfl⟩ := holds
    cases role <;> cases role' <;> first | decide | exact absurd rfl other
  | watchdog =>
    obtain ⟨rfl, rfl⟩ := holds
    rcases awaits with rfl | rfl | same
    · cases locked <;> decide
    · cases locked <;> decide
    · rw [same]
      decide

theorem Duty.rank_lt_of_join {duty duty' : Duty} (joins : duty.joins duty'.role)
    (apart : duty = ⟨.replacer, true⟩ → duty'.role ≠ .inner) : duty'.rank < duty.rank := by
  obtain ⟨role, locked⟩ := duty
  obtain ⟨role', locked'⟩ := duty'
  cases role' with
  | caller => exact joins.elim
  | replacer => exact joins.elim
  | watchdog =>
    rcases joins with rfl | rfl
    · cases locked <;> cases locked' <;> decide
    · cases locked <;> cases locked' <;> decide
  | inner =>
    rcases joins with same | same
    · exact absurd rfl (apart same)
    · rw [same]
      cases locked' <;> decide

/-- After a step from an undisturbed state, a call of `initialize()` that holds the mutex joins no
thread that waits for something. -/
theorem Undisturbed.apart {config config' : CallThreads π} (calm : Undisturbed config)
    (step : Step (calls graphs) overlapping config config')
    {first second third : Thread (State π × Nat) (Label π) (EngineCall π) (Choice π) (Answer π)}
    (member : first ∈ config'.threads) (member' : second ∈ config'.threads)
    (stands : Stands CallLaw CallTerms CallStarts (first, ⟨.replacer, true⟩))
    (replaces : first.procedure.role = .replacer) (unfinished : first.program.finished = false)
    (inner : second.procedure.role = .inner) :
    ¬ Awaits (calls graphs) callLocks config'.shared second third := by
  intro onward
  rcases step.earlier member' onward.unfinished with ⟨earlier', there', same', alive'⟩ | new
  · rcases step.earlier member unfinished with ⟨earlier, there, same, alive⟩ | new
    · have ended := calm earlier there (same ▸ replaces) alive earlier' there' (same' ▸ inner)
      cases alive'.symm.trans ended
    · rw [new] at stands
      exact not_stands_locked graphs replaces stands
  · refine Unhindered.not_awaits ?_ onward
    rw [new]
    exact unhindered_inner graphs inner

theorem no_waiting_circle (graphs : Nat → Env) (first : Nat) (config : CallThreads π)
    (run : OverlappingRun graphs (fun before _ => Undisturbed before) first config) :
    ¬ Deadlocked (calls graphs) callLocks config := by
  obtain ⟨entries, same, stand, roles⟩ := (calls_lawful graphs).roles EngineCall.role
    (fun _ _ started => congrArg Duty.role started) (fun _ _ _ _ => ⟨_, rfl⟩) run rfl
  have entry {index : Nat} {thread : Thread _ _ _ _ _} (found : config.threads[index]? = some thread) :
      ∃ duty, entries[index]? = some (thread, duty) := by
    rw [← same, getElem?_map] at found
    obtain ⟨⟨_, duty⟩, here, rfl⟩ := map_eq_some_iff.mp found
    exact ⟨duty, here⟩
  rintro ⟨index, cycle⟩
  refine not_transGen_of_rank (fun index => (entries[index]?).elim 0 fun entry => entry.2.rank) ?_
    index cycle
  rintro i j k ⟨waiting, middle, atFirst, atMiddle, awaits⟩ ⟨_, last, atMiddle', -, onward⟩
  obtain rfl := Option.some.inj (atMiddle.symm.trans atMiddle')
  obtain ⟨duty, foundFirst⟩ := entry atFirst
  obtain ⟨duty', foundMiddle⟩ := entry atMiddle
  have role : duty.role = waiting.procedure.role := roles _ (mem_of_getElem? foundFirst)
  have role' : duty'.role = middle.procedure.role := roles _ (mem_of_getElem? foundMiddle)
  have stands := stand _ (mem_of_getElem? foundFirst)
  rw [foundFirst, foundMiddle]
  change duty'.rank < duty.rank
  rcases awaits.modes (calls_lawful graphs) stands (stand _ (mem_of_getElem? foundMiddle)) with
    ⟨mutex, awaited, held⟩ | joined
  · exact Duty.rank_lt_of_mutex awaited held
  · refine Duty.rank_lt_of_join (role' ▸ joined) fun locked inner => ?_
    subst locked
    cases run with
    | start => cases atFirst
    | step _ _ step calm =>
      exact calm.apart step (mem_of_getElem? atFirst) (mem_of_getElem? atMiddle) stands
        role.symm awaits.unfinished (role'.symm.trans inner) onward

theorem no_waiting_circle_solo : ∃ config : CallThreads Unit,
    OverlappingRun (fun _ => soloEngine) (fun before _ => Undisturbed before) 0 config ∧
      WaitsFor (calls fun _ => soloEngine) callLocks config 1 0 ∧
      ¬ Deadlocked (calls fun _ => soloEngine) callLocks config := by
  have alone {shared : State Unit × Nat} {program : CallCode Unit Unit} :
      Undisturbed ⟨shared, [⟨.initializeWith 1, program⟩]⟩ := by
    intro call _ _ _ thread member inner
    obtain rfl := mem_singleton.mp member
    cases inner
  have called : OverlappingRun (π := Unit) (fun _ => soloEngine) (fun before _ => Undisturbed before) 0
      ⟨({}, 0), [thread (calls fun _ => soloEngine) (.initializeWith 1)]⟩ :=
    .step .start le_rfl (.start trivial) fun _ member => absurd member (not_mem_nil)
  have locked := called.step le_rfl
    (show Step _ _ ⟨_, [] ++ ⟨_, .act _ _ _⟩ :: []⟩ ⟨({ engineMutex := true }, 0), _⟩ from
      .act (show overlapping.allows _ ({} : Choice Unit) _ from trivial) rfl) alone
  have run := locked.step le_rfl
    (.start (show overlapping.starts (.engine 0 (.startStreaming none)) _ from ⟨rfl, rfl⟩)) alone
  refine ⟨_, run, ⟨_, _, rfl, rfl, .mutex .engine ⟨{}, rfl, rfl⟩ ?_⟩,
    no_waiting_circle _ 0 _ run⟩
  exact Prog.givesBack_holds _ _
    (show Prog.givesBack _ _ ({} : Choice Unit) 20 ({ engineMutex := true }, 0) _ = true by
      decide +kernel)

end Circles

section Deadlock

def pacedEngine : Env :=
  .ofGraph soloGraph soloGraph_compiles (streamSchedulerStrategy { minInterval := 10 })

def reinitialization : List (Turn (EngineCall Unit) (Choice Unit)) :=
  let turns (thread count : Nat) (now : Int) : List (Turn (EngineCall Unit) (Choice Unit)) :=
    List.replicate count (.run thread { now })
  let push : EngineCall Unit := .engine 0 (.pushInput "camera" "" (some ⟨0, 0, 0, ()⟩))
  .start (.engine 0 (.startStreaming (some 0))) :: turns 0 12 0 ++
  .start push :: turns 1 24 0 ++ turns 2 38 0 ++
  .start push :: turns 3 24 0 ++
  .start (.engine 0 (.requestCancellation 0)) :: turns 5 1 0 ++
  turns 4 6 20000000 ++
  .start (.initializeWith 0) :: turns 6 5 0

def deadlockTest (config : CallThreads Unit) : Bool :=
  match config.threads[4]?, config.threads[6]? with
  | some timer, some call =>
    waitsOnMutex (calls fun _ => pacedEngine) callLocks .engine {} 40 config.shared
      (callLocks.finish timer.procedure config.shared) timer call &&
    joinsThread callLocks {} config.shared call timer
  | _, _ => false

theorem reinitialization_deadlocks : ∃ config : CallThreads Unit,
    OverlappingRun (fun _ => pacedEngine) (fun _ _ => True) 0 config ∧
      Deadlocked (calls fun _ => pacedEngine) callLocks config := by
  obtain ⟨config, run, passed⟩ := played_reaches (calls fun _ => pacedEngine) overlappingReferee
    ⟨({}, 0), []⟩ reinitialization (deadlockTest · = true) (by decide +kernel)
  have free : Reaches (calls fun _ => pacedEngine) overlapping ⟨({}, 0), []⟩ config :=
    run.mono (fun _ _ _ _ => trivial) fun _ _ => overlappingReferee_starts
  have unfolded : OverlappingRun (fun _ => pacedEngine) (fun _ _ => True) 0 config := by
    apply Reaches.unfolds le_rfl
    exact free
  refine ⟨config, unfolded, 4, ?_⟩
  unfold deadlockTest at passed
  split at passed
  next timer call here there =>
    rw [Bool.and_eq_true] at passed
    exact .tail (.single ⟨timer, call, here, there, waitsOnMutex_awaits passed.1⟩)
      ⟨call, timer, there, here, joinsThread_awaits passed.2⟩
  next => cases passed

end Deadlock

end AiPipe
