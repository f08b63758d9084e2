import AiPipe.Engine.Interface

/-!
Runs of the engine: what the environment may do, the configurations that it reaches, and
engines that are assembled from a graph with the default queues.
-/

namespace AiPipe

open Concurrency

variable {π : Type}

abbrev EngineRules (π : Type) := Rules (State π) (Label π) (Proc π) (Choice π)

abbrev EngineThread (π : Type) := Thread (State π) (Label π) (Proc π) (Choice π) (Answer π)

abbrev EngineThreads (π : Type) := Config (State π) (Label π) (Proc π) (Choice π) (Answer π)

def Env.RunsTo (env : Env) (rules : EngineRules π) (origin : State π) (config : EngineThreads π) :
    Prop :=
  Reaches env.body rules ⟨origin, []⟩ config

def Proc.isInterface : Proc π → Bool
  | .execute _ _ _ _ => true
  | .startStreaming _ => true
  | .stopStreaming _ => true
  | .releaseGraph => true
  | .destroy => true
  | .stopExecutionAsync => true
  | .stopExecutionSync => true
  | .reset => true
  | .pushInput _ _ _ => true
  | .signalEndOfStream _ _ => true
  | .requestCancellation _ => true
  | _ => false

/-- The procedures that a run may start with: the calls of clients, and the watchdog that
an earlier `startStreaming` left behind. -/
def Proc.standsAlone : Proc π → Bool
  | .joinTimeoutWatchdogLoop _ => true
  | procedure => procedure.isInterface

theorem Proc.standsAlone_of_isInterface {procedure : Proc π}
    (interface : procedure.isInterface = true) : procedure.standsAlone = true := by
  cases procedure <;> first | rfl | cases interface

def compiledForm (source : Graph) (compiles : (compile source).isOk = true) :
    { graph : CompiledGraph // compile source = .ok graph } :=
  match answer : compile source with
  | .ok graph => ⟨graph, rfl⟩
  | .error error => absurd compiles (by simp [answer, Except.isOk, Except.toBool])

def defaultQueueConfig : QueueConfig where
  capacity := 1024
  dropPolicy := .dropHead
  keepLatestN := 1
  twoLe := by decide

def Env.ofGraph (source : Graph) (compiles : (compile source).isOk = true)
    (scheduler : SchedulerStrategy) : Env where
  source := source
  graph := (compiledForm source compiles).1
  compiled := (compiledForm source compiles).2
  config := {}
  queueConfig _ := defaultQueueConfig
  scheduler := scheduler
  sync := noSyncStrategy
  traceSink := false

theorem Env.played (env : Env) (rules : EngineRules π)
    (referee : Referee (State π) (Label π) (Proc π) (Choice π))
    (allows : ∀ label choice state, referee.allows label choice state = true →
      rules.allows label choice state)
    (starts : ∀ procedure state, referee.starts procedure state = true →
      rules.starts procedure state)
    (origin : State π) (schedule : List (Turn (Proc π) (Choice π))) (test : EngineThreads π → Prop)
    [DecidablePred test] (passed : (play env.body referee ⟨origin, []⟩ schedule).any (test ·)) :
    ∃ config, env.RunsTo rules origin config ∧ test config := by
  obtain ⟨config, run, tested⟩ := played_reaches env.body referee _ schedule test passed
  exact ⟨config, run.mono allows starts, tested⟩

/-- Clients may call everything at any time, and nothing else is promised. -/
def unrestricted : EngineRules π where
  allows _ _ _ := True
  starts procedure _ := procedure.isInterface = true

def openReferee : Referee (State π) (Label π) (Proc π) (Choice π) where
  allows _ _ _ := true
  starts procedure _ := procedure.isInterface

theorem Env.playedFreely (env : Env) (origin : State π)
    (schedule : List (Turn (Proc π) (Choice π))) (test : EngineThreads π → Prop)
    [DecidablePred test] (passed : (play env.body openReferee ⟨origin, []⟩ schedule).any (test ·)) :
    ∃ config, env.RunsTo unrestricted origin config ∧ test config :=
  env.played unrestricted openReferee (fun _ _ _ _ => trivial) (fun _ _ starts => starts) origin
    schedule test passed

/-- The second half of `initialize()`, once the new graph is compiled.  The counters of the end of
stream are not among what it stores. -/
def State.initialized (state : State π) : State π :=
  { state with
    node := fun _ => {}
    syncEvents := []
    activeTasks := 0
    completionReported := false
    stopFlag := false
    streamingMode := false
    engineState := .idle
    statistics := {}
    history := { state.history with lifecycle := [] } }

def State.fresh : State π := {}

/-- The states of an engine that `initialize()` has given a graph, called when every thread has
ended, in a state that `may` admits; its first half is the thread of `releaseGraph`. -/
inductive Session (rules : Env → EngineRules π) (may : State π → Prop) : Env → State π → Prop
  | first (env : Env) : Session rules may env {}
  | again {env env' : Env} {origin : State π} {config : EngineThreads π} :
      Session rules may env origin → env.RunsTo (rules env) origin config →
      (∀ thread ∈ config.threads, thread.program.finished = true) →
      (config.threads.map Thread.procedure).getLast? = some .releaseGraph →
      config.shared.setUpNodes = [] → may config.shared →
      Session rules may env' config.shared.initialized

def released (config : EngineThreads π) : Bool :=
  config.threads.all (fun thread => thread.program.finished) &&
  (match (config.threads.map Thread.procedure).getLast? with
    | some .releaseGraph => true
    | _ => false) && config.shared.setUpNodes.isEmpty

theorem Session.of_released {rules : Env → EngineRules π} {may : State π → Prop} {env : Env}
    (env' : Env) {origin : State π} {config : EngineThreads π} (earlier : Session rules may env origin)
    (run : env.RunsTo (rules env) origin config) (ready : released config = true)
    (admitted : may config.shared) : Session rules may env' config.shared.initialized := by
  simp only [released, Bool.and_eq_true, List.all_eq_true, List.isEmpty_iff] at ready
  obtain ⟨⟨finished, last⟩, torn⟩ := ready
  refine .again earlier run finished ?_ torn admitted
  split at last
  next same => exact same
  next => cases last

def turns (thread count : Nat) (choice : Choice π) : List (Turn (Proc π) (Choice π)) :=
  List.replicate count (.run thread choice)

def soloGraph : Graph where
  nodes := [⟨"camera", ["frame"], ["image"]⟩]
  edges := []
  namesNodup := by decide
  portsNodup := by decide
  edgesNodup := by decide
  edgesDeclared := by simp

theorem soloGraph_compiles : (compile soloGraph).isOk = true := by decide

def soloEngine : Env := .ofGraph soloGraph soloGraph_compiles (streamSchedulerStrategy {})

def streamingState : State Unit := { streamingMode := true, engineState := .running }

end AiPipe
