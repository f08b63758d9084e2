import AiPipe.Concurrency.Waiting
import AiPipe.Engine.Runs

/-!
Calls that overlap a call of `initialize()`.  Graphs are numbered, and a call works on the graph
that the engine had when it was made, as do the threads that it starts.
-/

namespace AiPipe

open Concurrency

variable {π : Type}

/-- A thread's procedure.  `initialize()` with a graph that does not compile is `releaseGraph`. -/
inductive EngineCall (π : Type) where
  | engine (graph : Nat) (procedure : Proc π)
  | initializeWith (graph : Nat)

abbrev CallCode (π : Type) := Prog (State π × Nat) (Label π) (EngineCall π) (Choice π) (Answer π)

abbrev CallThreads (π : Type) :=
  Config (State π × Nat) (Label π) (EngineCall π) (Choice π) (Answer π)

def joinWorkers : Code π Unit :=
  await .internal fun state =>
    (List.range state.history.tasks.length).all fun task => state.history.ended.contains task

section Calls

variable (graphs : Nat → Env)

/-- `initialize()` with a graph that compiles.  The old thread pool is destroyed when the new
one takes its place, and `m_engineMutex` is held from the first line to the last. -/
def initializeWith (graph : Nat) : CallCode π (Answer π) := do
  (lockEngine : Code π Unit).within (.engine graph)
  let current ← (.act .internal (fun _ shared => some (shared.2, shared)) .ret : CallCode π Nat)
  (do
    stopJoinTimeoutWatchdog
    stopDeferTimer (graphs current).graph.nodeCount
    Env.teardownNodes : Code π Unit).within (.engine current)
  (.act .internal (fun _ shared => some ((), shared.1, graph)) .ret : CallCode π Unit)
  (do
    joinWorkers
    store State.initialized
    unlockEngine : Code π Unit).within (.engine graph)
  .ret .done

def calls : EngineCall π → CallCode π (Answer π)
  | .engine graph procedure => ((graphs graph).body procedure).within (.engine graph)
  | .initializeWith graph => initializeWith graphs graph

end Calls

/-- Clients call everything at any time; nodes, strategies and the pool do as they like. -/
def overlapping : Rules (State π × Nat) (Label π) (EngineCall π) (Choice π) where
  allows _ _ _ := True
  starts call shared := match call with
    | .engine graph procedure => procedure.isInterface = true ∧ graph = shared.2
    | .initializeWith _ => True

def overlappingReferee : Referee (State π × Nat) (Label π) (EngineCall π) (Choice π) where
  allows _ _ _ := true
  starts call shared := match call with
    | .engine graph procedure => procedure.isInterface && graph == shared.2
    | .initializeWith _ => true

theorem overlappingReferee_starts {call : EngineCall π} {shared : State π × Nat}
    (allowed : overlappingReferee.starts call shared = true) : overlapping.starts call shared := by
  cases call with
  | engine graph procedure => simpa [overlappingReferee, overlapping] using allowed
  | initializeWith graph => exact trivial

/-- The mutexes that threads keep from one access to the next.  The sections under
`m_completionMutex`, `m_callbackMutex` and `m_deferMutex` are one access each: nothing else is
locked or joined in them. -/
inductive Mutex where
  | engine
  | watchdog
  deriving DecidableEq

/-- The mutexes, and what the engine's own threads leave behind when they end. -/
def engineLocks : Locks (State π) (Proc π) Mutex where
  taken
    | .engine, state => state.engineMutex
    | .watchdog, state => state.watchdogMutex
  free
    | .engine, state => { state with engineMutex := false }
    | .watchdog, state => { state with watchdogMutex := false }
  finish
    | .deferTimerLoop timer, state =>
      { state with deferTimersEnded := state.deferTimersEnded ++ [timer] }
    | .joinTimeoutWatchdogLoop watchdog, state =>
      { state with watchdogsEnded := state.watchdogsEnded ++ [watchdog] }
    | .runTask task _ _, state => state.updateHistory fun history =>
      { history with ended := history.ended ++ [task] }
    | _, state => state

def callLocks : Locks (State π × Nat) (EngineCall π) Mutex where
  taken mutex shared := engineLocks.taken mutex shared.1
  free mutex shared := (engineLocks.free mutex shared.1, shared.2)
  finish
    | .engine _ procedure, shared => (engineLocks.finish procedure shared.1, shared.2)
    | .initializeWith _, shared => shared

end AiPipe
