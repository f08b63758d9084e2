import AiPipe.Concurrency.Threads
import Mathlib.Logic.Function.Basic

/-!
The work-stealing thread pool, from `work_stealing_thread_pool.hpp`.  A deque operation is one
access, under the deque's own mutex.  A negative counter is the wrapped `size_t`, which `== 0`
and `> 0` both see as different from zero.
-/

namespace AiPipe.WorkStealing

open Concurrency

/-! `WorkStealingDeque`: the owner works at the front, thieves take from the back. -/

def popFront : List Nat → Option (Nat × List Nat)
  | [] => none
  | task :: rest => some (task, rest)

def stealBack (deque : List Nat) : Option (Nat × List Nat) :=
  deque.getLast?.map fun task => (task, deque.dropLast)

inductive PoolState where
  | running
  | stopping
  | stopped
  deriving DecidableEq, Repr

structure WorkStealingConfig where
  numThreads : Nat
  maxQueueSizePerWorker : Nat := 256

/-- What has happened, and where the calls in progress are; the code has none of it. -/
structure History where
  begun : Nat := 0
  /-- The submissions in progress; those between their last `isRunning()` and the
  increment of `m_unclaimedTasks`; those between their push and that increment. -/
  submitting : Nat := 0
  window : Nat := 0
  publishing : Nat := 0
  /-- The tasks that a worker has taken and not counted out of `m_pendingTasks`. -/
  busy : Nat := 0
  /-- `shutdown(false)` has begun and not stored this counter. -/
  stalePending : Bool := false
  staleUnclaimed : Bool := false
  pushed : List Nat := []
  accepted : List Nat := []
  executed : List Nat := []
  shutdownReturned : Bool := false

structure ThreadPool where
  state : PoolState := .running
  queues : Nat → List Nat := fun _ => []
  nextWorkerIndex : Nat := 0
  pendingTasks : Int := 0
  completedTasks : Nat := 0
  unclaimedTasks : Int := 0
  stealCount : Nat := 0
  globalMutex : Bool := false
  /-- The workers that block on `m_globalCondition` and have not been notified. -/
  waiting : List Nat := []
  ended : List Nat := []
  history : History := {}

inductive PoolLabel where
  | internal
  /-- A worker that has seen a stopping pool loads `m_unclaimedTasks`. -/
  | stopTest
  /-- `shutdown(false)` stores zero in a counter. -/
  | reset
  deriving DecidableEq

inductive TaskAction where
  | finish
  | throw
  | post
  | trySubmit
  deriving DecidableEq

structure PoolChoice where
  start : Nat := 0
  elapsed : Bool := false
  notified : Nat := 0
  spurious : Bool := false
  action : TaskAction := .finish

/-- `caller` is `tl_worker_index`. -/
inductive PoolProc where
  | workerLoop (worker : Nat)
  | waitForWork (worker : Nat)
  | runTask (worker : Nat)
  | awaitRoom (target : Nat)
  | post (caller : Option Nat)
  | trySubmit (caller : Option Nat)
  | shutdown (waitForTasks : Bool)
  deriving DecidableEq

inductive PoolAnswer where
  | done
  | accepted (flag : Bool)
  | target (queue : Option Nat)

abbrev PoolCode (α : Type) := Prog ThreadPool PoolLabel PoolProc PoolChoice PoolAnswer α

def access {α : Type} (label : PoolLabel)
    (effect : PoolChoice → ThreadPool → Option (α × ThreadPool)) : PoolCode α :=
  .act label effect .ret

def load {α : Type} (field : ThreadPool → α) : PoolCode α :=
  access .internal fun _ pool => some (field pool, pool)

def store (change : ThreadPool → ThreadPool) : PoolCode Unit :=
  access .internal fun _ pool => some ((), change pool)

namespace ThreadPool

def record (change : History → History) (pool : ThreadPool) : ThreadPool :=
  { pool with history := change pool.history }

def setQueue (index : Nat) (deque : List Nat) (pool : ThreadPool) : ThreadPool :=
  { pool with queues := Function.update pool.queues index deque }

def isRunning (pool : ThreadPool) : Bool := pool.state = .running

/-! What a submission does. -/

def begin (pool : ThreadPool) : ThreadPool :=
  pool.record fun past => { past with begun := past.begun + 1, submitting := past.submitting + 1 }

def enterWindow (pool : ThreadPool) : ThreadPool :=
  pool.record fun past => { past with window := past.window + 1 }

def leaveWindow (pool : ThreadPool) : ThreadPool :=
  pool.record fun past => { past with window := past.window - 1 }

def pushFront (target task : Nat) (pool : ThreadPool) : ThreadPool :=
  (pool.setQueue target (task :: pool.queues target)).record fun past =>
    { past with publishing := past.publishing + 1, pushed := past.pushed ++ [task] }

def addPending (pool : ThreadPool) : ThreadPool :=
  { pool with pendingTasks := pool.pendingTasks + 1 }

def addUnclaimed (pool : ThreadPool) : ThreadPool :=
  { pool.record fun past =>
      { past with window := past.window - 1, publishing := past.publishing - 1 } with
    unclaimedTasks := pool.unclaimedTasks + 1 }

def finish (task : Nat) (accepted : Bool) (pool : ThreadPool) : ThreadPool :=
  pool.record fun past =>
    { past with
      submitting := past.submitting - 1
      accepted := if accepted then past.accepted ++ [task] else past.accepted }

/-! What a worker does. -/

def take (queue : Nat) (rest : List Nat) (pool : ThreadPool) : ThreadPool :=
  (pool.setQueue queue rest).record fun past => { past with busy := past.busy + 1 }

def subUnclaimed (pool : ThreadPool) : ThreadPool :=
  { pool with unclaimedTasks := pool.unclaimedTasks - 1 }

def call (task : Nat) (pool : ThreadPool) : ThreadPool :=
  pool.record fun past => { past with executed := past.executed ++ [task] }

def addCompleted (pool : ThreadPool) : ThreadPool :=
  { pool with completedTasks := pool.completedTasks + 1 }

def subPending (pool : ThreadPool) : ThreadPool :=
  { pool.record fun past => { past with busy := past.busy - 1 } with
    pendingTasks := pool.pendingTasks - 1 }

def depart (worker : Nat) (pool : ThreadPool) : ThreadPool :=
  { pool with ended := worker :: pool.ended }

/-! What a shutdown does. -/

def stop (waitForTasks : Bool) (pool : ThreadPool) : ThreadPool :=
  { pool.record fun past =>
      { past with stalePending := !waitForTasks, staleUnclaimed := !waitForTasks } with
    state := .stopping }

def resetPending (pool : ThreadPool) : ThreadPool :=
  { pool.record fun past => { past with stalePending := false } with pendingTasks := 0 }

def resetUnclaimed (pool : ThreadPool) : ThreadPool :=
  { pool.record fun past => { past with staleUnclaimed := false } with unclaimedTasks := 0 }

def leaveShutdown (pool : ThreadPool) : ThreadPool :=
  pool.record fun past => { past with shutdownReturned := true }

end ThreadPool

def isRunning : PoolCode Bool := load (·.isRunning)

/-! The global mutex and its condition variable. -/

def lockGlobal : PoolCode Unit :=
  access .internal fun _ pool =>
    if pool.globalMutex then none else some ((), { pool with globalMutex := true })

def unlockGlobal : PoolCode Unit := store fun pool => { pool with globalMutex := false }

def notifyOne : PoolCode Unit :=
  access .internal fun choice pool =>
    some ((), { pool with
      waiting := pool.waiting.eraseIdx (choice.notified % pool.waiting.length) })

def notifyAll : PoolCode Unit := store fun pool => { pool with waiting := [] }

/-- The first half of a wait: the mutex is released and the thread blocks, at once. -/
def block (worker : Nat) : PoolCode Unit :=
  store fun pool => { pool with globalMutex := false, waiting := worker :: pool.waiting }

/-- The second half: a notified worker goes on, and any worker may wake without that. -/
def wake (worker : Nat) : PoolCode Unit :=
  access .internal fun choice pool =>
    if worker ∈ pool.waiting ∧ choice.spurious = false then none
    else some ((), { pool with waiting := pool.waiting.erase worker })

/-! Submission. -/

section Submission

variable (config : WorkStealingConfig)

/-- The remainder by `m_queues.size()` has no value in a pool without workers. -/
def selectTargetQueue : Option Nat → PoolCode Nat
  | some worker => .ret worker
  | none => access .internal fun _ pool =>
    if config.numThreads = 0 then none
    else some (pool.nextWorkerIndex % config.numThreads,
      { pool with nextWorkerIndex := pool.nextWorkerIndex + 1 })

def queueSize (target : Nat) : PoolCode Nat := load fun pool => (pool.queues target).length

/-- One round of `enqueueTask`'s wait for room, then the next; no target means that it
threw. -/
def awaitRoom (target : Nat) : PoolCode PoolAnswer := do
  if config.maxQueueSizePerWorker ≤ (← queueSize target) then
    if !(← isRunning) then
      return .target none
    else if ← access .internal fun choice pool => some (choice.elapsed, pool) then
      return .target none
    else
      let next := (target + 1) % config.numThreads
      if (← queueSize next) < config.maxQueueSizePerWorker then
        return .target (some next)
      else
        Prog.invoke (.awaitRoom next)
  else
    return .target (some target)

def lastCheck : PoolCode Bool :=
  access .internal fun _ pool =>
    if pool.isRunning then some (true, pool.enterWindow) else some (false, pool)

def publishTask : PoolCode Unit := do
  store .addUnclaimed
  lockGlobal
  unlockGlobal
  notifyOne

def pushTask (target task : Nat) : PoolCode Unit := do
  store (.pushFront target task)
  store .addPending
  publishTask

def roomyTarget (target : Nat) : PoolCode (Option Nat) := do
  if 0 < config.maxQueueSizePerWorker then
    match ← Prog.invoke (.awaitRoom target) with
    | .target found => return found
    | _ => return none
  else
    return some target

/-- Every exception that it throws leads to the answer `false`. -/
def enqueueTask (caller : Option Nat) (task : Nat) : PoolCode Bool := do
  let target ← selectTargetQueue config caller
  match ← roomyTarget config target with
  | none => return false
  | some target =>
    if ← lastCheck then
      pushTask target task
      return true
    else
      return false

/-- The size test of `tryEnqueueTask`; the submission is over when the last deque of the
round is full too. -/
def hasRoom (queue : Nat) (last : Bool) : PoolCode Bool :=
  access .internal fun _ pool =>
    if (pool.queues queue).length < config.maxQueueSizePerWorker then some (true, pool)
    else if last then some (false, pool.leaveWindow)
    else some (false, pool)

def tryQueues : List Nat → PoolCode (Option Nat)
  | [] => .ret none
  | queue :: rest => do
      if ← hasRoom config queue rest.isEmpty then
        return some queue
      else
        tryQueues rest

def around (first count : Nat) : List Nat := (List.range count).map fun step => (first + step) % count

def anyRoom (target : Nat) : PoolCode (Option Nat) :=
  if 0 < config.maxQueueSizePerWorker then tryQueues config (around target config.numThreads)
  else .ret (some target)

def tryEnqueueTask (caller : Option Nat) (task : Nat) : PoolCode Bool := do
  if ← lastCheck then
    let target ← selectTargetQueue config caller
    match ← anyRoom config target with
    | none => return false
    | some target =>
      pushTask target task
      return true
  else
    return false

def begin : PoolCode Nat :=
  access .internal fun _ pool => some (pool.history.begun, pool.begin)

def ifRunning (attempt : PoolCode Bool) : PoolCode Bool := do
  if ← isRunning then attempt else return false

def submission (attempt : Nat → PoolCode Bool) : PoolCode PoolAnswer := do
  let task ← begin
  let accepted ← ifRunning (attempt task)
  store (.finish task accepted)
  return .accepted accepted

/-- `post`, and `submit`, which throws where `post` answers `false`. -/
def post (caller : Option Nat) : PoolCode PoolAnswer := submission (enqueueTask config caller)

def trySubmit (caller : Option Nat) : PoolCode PoolAnswer :=
  submission (tryEnqueueTask config caller)

end Submission

/-! The workers. -/

def takeBy (pick : List Nat → Option (Nat × List Nat)) (queue : Nat) : PoolCode (Option Nat) :=
  access .internal fun _ pool =>
    match pick (pool.queues queue) with
    | none => some (none, pool)
    | some (task, rest) =>
      some (some task, pool.take queue rest)

def stealFrom (worker : Nat) : List Nat → PoolCode (Option Nat)
  | [] => .ret none
  | victim :: rest =>
    if victim = worker then stealFrom worker rest
    else do
      match ← takeBy stealBack victim with
      | some task => do
          store fun pool => { pool with stealCount := pool.stealCount + 1 }
          return some task
      | none => stealFrom worker rest

section Workers

variable (config : WorkStealingConfig)

def trySteal (worker : Nat) : PoolCode (Option Nat) := do
  if config.numThreads ≤ 1 then
    return none
  else
    let start ← access .internal fun choice pool => some (choice.start % config.numThreads, pool)
    stealFrom worker (around start config.numThreads)

/-- A task makes submissions of its own until it returns or throws; `executeTask` catches
what it throws. -/
def runTask (worker : Nat) : PoolCode PoolAnswer := do
  match ← access .internal fun choice pool => some (choice.action, pool) with
  | .finish | .throw => return .done
  | .post => do
      let _ ← Prog.invoke (.post (some worker))
      Prog.invoke (.runTask worker)
  | .trySubmit => do
      let _ ← Prog.invoke (.trySubmit (some worker))
      Prog.invoke (.runTask worker)

def executeTask (worker task : Nat) : PoolCode Unit := do
  store (.call task)
  let _ ← Prog.invoke (.runTask worker)
  store .addCompleted
  store .subPending

def waitForWork (worker : Nat) : PoolCode PoolAnswer := do
  if (← load (·.unclaimedTasks)) ≠ 0 then
    unlockGlobal
    return .done
  else if !(← isRunning) then
    unlockGlobal
    return .done
  else
    block worker
    wake worker
    lockGlobal
    Prog.invoke (.waitForWork worker)

def findTask (worker : Nat) : PoolCode (Option Nat) := do
  match ← takeBy popFront worker with
  | some task => return some task
  | none => trySteal config worker

def workerLoop (worker : Nat) : PoolCode PoolAnswer := do
  match ← findTask config worker with
  | some task => do
      store .subUnclaimed
      executeTask worker task
      Prog.invoke (.workerLoop worker)
  | none => do
      if ← isRunning then
        lockGlobal
        let _ ← Prog.invoke (.waitForWork worker)
        Prog.invoke (.workerLoop worker)
      else if (← access .stopTest fun _ pool => some (pool.unclaimedTasks, pool)) = 0 then
        store (.depart worker)
        return .done
      else
        Prog.invoke (.workerLoop worker)

/-! Shutdown. -/

def waitForWorkers : PoolCode Unit :=
  Prog.forEach (fun worker => access .internal fun _ pool =>
    if worker ∈ pool.ended then some ((), pool) else none) (List.range config.numThreads)

def clearQueues : PoolCode Unit :=
  Prog.forEach (fun queue => store (·.setQueue queue [])) (List.range config.numThreads)

def stopRunning (waitForTasks : Bool) : PoolCode Bool :=
  access .internal fun _ pool =>
    if pool.isRunning then some (true, pool.stop waitForTasks) else some (false, pool)

def discardTasks : PoolCode Unit := do
  clearQueues config
  access .reset fun _ pool => some ((), pool.resetPending)
  access .reset fun _ pool => some ((), pool.resetUnclaimed)

def returnFromShutdown : PoolCode PoolAnswer := do
  store .leaveShutdown
  return .done

def shutdown (waitForTasks : Bool) : PoolCode PoolAnswer := do
  if ← stopRunning waitForTasks then
    if waitForTasks then .ret () else discardTasks config
    lockGlobal
    unlockGlobal
    notifyAll
    waitForWorkers config
    store fun pool => { pool with state := .stopped }
    returnFromShutdown
  else
    waitForWorkers config
    returnFromShutdown

def body : PoolProc → PoolCode PoolAnswer
  | .workerLoop worker => workerLoop config worker
  | .waitForWork worker => waitForWork worker
  | .runTask worker => runTask worker
  | .awaitRoom target => awaitRoom config target
  | .post caller => post config caller
  | .trySubmit caller => trySubmit config caller
  | .shutdown waitForTasks => shutdown config waitForTasks

def construct : Config ThreadPool PoolLabel PoolProc PoolChoice PoolAnswer :=
  ⟨{}, (List.range config.numThreads).map fun worker => thread (body config) (.workerLoop worker)⟩

end Workers

end AiPipe.WorkStealing
