import AiPipe.Concurrency.Adequacy
import AiPipe.Pool.Code

/-!
The pool's threads as a protocol: a worker, a submission and a shutdown each stand on one frame
of their own, and a task that submits others has their frames above its worker's.
-/

namespace AiPipe.WorkStealing

open Concurrency List

inductive PoolFrame where
  -- a submission, from its beginning to its end
  | begun (task : Nat)
  | cleared (task : Nat)
  | pushed (task : Nat)
  | pended (task : Nat)
  | counted (task : Nat)
  | locked (task : Nat)
  | signalling (task : Nat)
  | announced (task : Nat)
  -- a worker with a task
  | claiming (worker task : Nat)
  | starting (worker task : Nat)
  | executing (worker task : Nat)
  | finishing (worker task : Nat)
  -- a worker without one
  | awake (worker : Nat)
  | draining (worker : Nat)
  | leaving (worker : Nat)
  | holding (worker : Nat)
  | idle (worker : Nat)
  | parked (worker : Nat)
  -- a shutdown
  | clearing
  | resetting
  | stopping
  | stopLocked
  | stopSignalling
  | joining (count : Nat)
  | crashed

section Protocol

-- `discards`: there may be a `shutdown(false)`
variable (count : Nat) (discards : Bool)

inductive PoolMove : PoolLabel → ThreadPool → List PoolFrame → ThreadPool → List PoolFrame → Prop
  | quiet {pool} (index steals : Nat) : PoolMove .internal pool []
      { pool with nextWorkerIndex := index, stealCount := steals } []
  | begin {pool} : PoolMove .internal pool [] pool.begin [.begun pool.history.begun]
  | check {pool task} : pool.state = .running →
      PoolMove .internal pool [.begun task] pool.enterWindow [.cleared task]
  | full {pool task} : PoolMove .internal pool [.cleared task] pool.leaveWindow [.begun task]
  | enqueue {pool task target} : target < count →
      PoolMove .internal pool [.cleared task] (pool.pushFront target task) [.pushed task]
  | pend {pool task} : PoolMove .internal pool [.pushed task] pool.addPending [.pended task]
  | count {pool task} : PoolMove .internal pool [.pended task] pool.addUnclaimed [.counted task]
  | lock {pool task} : pool.globalMutex = false →
      PoolMove .internal pool [.counted task] { pool with globalMutex := true } [.locked task]
  | unlock {pool task} :
      PoolMove .internal pool [.locked task] { pool with globalMutex := false } [.signalling task]
  | notify {pool task} (index : Nat) : index < pool.waiting.length ∨ pool.waiting = [] →
      PoolMove .internal pool [.signalling task]
        { pool with waiting := pool.waiting.eraseIdx index } [.announced task]
  | accept {pool task} : PoolMove .internal pool [.announced task] (pool.finish task true) []
  | refuse {pool task} : PoolMove .internal pool [.begun task] (pool.finish task false) []
  | take {pool worker task queue rest} : queue < count →
      (pool.queues queue).Perm (task :: rest) →
      PoolMove .internal pool [.awake worker] (pool.take queue rest) [.claiming worker task]
  | claim {pool worker task} :
      PoolMove .internal pool [.claiming worker task] pool.subUnclaimed [.starting worker task]
  | call {pool worker task} :
      PoolMove .internal pool [.starting worker task] (pool.call task) [.executing worker task]
  | complete {pool worker task} :
      PoolMove .internal pool [.executing worker task] pool.addCompleted [.finishing worker task]
  | settle {pool worker task} :
      PoolMove .internal pool [.finishing worker task] pool.subPending [.awake worker]
  | seeStopped {pool worker} : pool.state ≠ .running →
      PoolMove .internal pool [.awake worker] pool [.draining worker]
  | retry {pool worker} : PoolMove .stopTest pool [.draining worker] pool [.awake worker]
  | leave {pool worker} : pool.unclaimedTasks = 0 →
      PoolMove .stopTest pool [.draining worker] pool [.leaving worker]
  | depart {pool worker} : PoolMove .internal pool [.leaving worker] (pool.depart worker) []
  | acquire {pool worker} : pool.globalMutex = false →
      PoolMove .internal pool [.awake worker] { pool with globalMutex := true } [.holding worker]
  | seeZero {pool worker} : pool.unclaimedTasks = 0 →
      PoolMove .internal pool [.holding worker] pool [.idle worker]
  | rouse {pool worker} : PoolMove .internal pool [.idle worker] pool [.holding worker]
  | block {pool worker} : PoolMove .internal pool [.idle worker]
      { pool with globalMutex := false, waiting := worker :: pool.waiting } [.parked worker]
  | wake {pool worker} : PoolMove .internal pool [.parked worker]
      { pool with waiting := pool.waiting.erase worker } [.awake worker]
  | release {pool worker} :
      PoolMove .internal pool [.holding worker] { pool with globalMutex := false } [.awake worker]
  | stopWaiting {pool} : pool.state = .running →
      PoolMove .internal pool [] (pool.stop true) [.stopping]
  | stopDiscarding {pool} : discards = true → pool.state = .running →
      PoolMove .internal pool [] (pool.stop false) [.clearing]
  | clear {pool} (queue : Nat) : discards = true →
      PoolMove .internal pool [.clearing] (pool.setQueue queue []) [.clearing]
  | resetPending {pool} : discards = true →
      PoolMove .reset pool [.clearing] pool.resetPending [.resetting]
  | resetUnclaimed {pool} : discards = true →
      PoolMove .reset pool [.resetting] pool.resetUnclaimed [.stopping]
  | stopLock {pool} : pool.globalMutex = false →
      PoolMove .internal pool [.stopping] { pool with globalMutex := true } [.stopLocked]
  | stopUnlock {pool} :
      PoolMove .internal pool [.stopLocked] { pool with globalMutex := false } [.stopSignalling]
  | notifyAll {pool} :
      PoolMove .internal pool [.stopSignalling] { pool with waiting := [] } [.joining 0]
  | giveWay {pool} : pool.state ≠ .running → PoolMove .internal pool [] pool [.joining 0]
  | join {pool worker} : worker ∈ pool.ended →
      PoolMove .internal pool [.joining worker] pool [.joining (worker + 1)]
  | stopped {pool} :
      PoolMove .internal pool [.joining count] { pool with state := .stopped } [.joining count]
  | leaveShutdown {pool} : PoolMove .internal pool [.joining count] pool.leaveShutdown []

def poolProtocol : Protocol ThreadPool PoolLabel PoolProc PoolChoice PoolFrame where
  move label _ := PoolMove count discards label
  ghost _ _ := False
  fork _ _ _ _ := False
  entry procedure stack := match procedure with
    | .post _ | .trySubmit _ | .shutdown _ => stack = []
    | _ => False
  crashed := .crashed

instance (stack : List PoolFrame) : (poolProtocol count discards).Free stack := ⟨fun _ _ => rfl⟩

inductive PoolContract : PoolProc → List PoolFrame → (PoolAnswer → List PoolFrame → Prop) → Prop
  | workerLoop {worker} : worker < count →
      PoolContract (.workerLoop worker) [.awake worker] fun _ left => left = []
  | waitForWork {worker} :
      PoolContract (.waitForWork worker) [.holding worker] fun _ left => left = [.awake worker]
  | runTask {worker} : worker < count → PoolContract (.runTask worker) [] fun _ left => left = []
  | awaitRoom {target} : target < count → PoolContract (.awaitRoom target) [] fun answer left =>
    left = [] ∧ ∀ queue, answer = .target (some queue) → queue < count
  | post {caller} : (∀ worker ∈ caller, worker < count) →
      PoolContract (.post caller) [] fun _ left => left = []
  | trySubmit {caller} : (∀ worker ∈ caller, worker < count) →
      PoolContract (.trySubmit caller) [] fun _ left => left = []
  | shutdown {waitForTasks} : (waitForTasks = false → discards = true) →
      PoolContract (.shutdown waitForTasks) [] fun _ left => left = []

abbrev PoolFollows {α : Type} (program : PoolCode α) (stack : List PoolFrame)
    (post : α → List PoolFrame → Prop) : Prop :=
  Conforms (poolProtocol count discards) id (PoolContract count discards) program stack post

end Protocol

/-! Every program follows the protocol. -/

namespace PoolFollows

variable {count : Nat} {discards : Bool}
variable {α β : Type} {stack : List PoolFrame} {post : α → List PoolFrame → Prop}

variable {next : β → PoolCode α}

theorem act {label : PoolLabel} {effect : PoolChoice → ThreadPool → Option (β × ThreadPool)}
    (moved : ∀ choice pool answer pool', effect choice pool = some (answer, pool') →
      ∃ top tail top', stack = top ++ tail ∧ PoolMove count discards label pool top pool' top' ∧
        PoolFollows count discards (next answer) (top' ++ tail) post) :
    PoolFollows count discards (access label effect >>= next) stack post := by
  intro choice pool answer pool' made
  obtain ⟨top, tail, top', rfl, move, rest⟩ := moved choice pool answer pool' made
  exact ⟨top, tail, top', .refl, fun _ => inferInstance, move, rest⟩

theorem choose {field : PoolChoice → ThreadPool → β}
    (rest : ∀ choice pool, PoolFollows count discards (next (field choice pool)) stack post) :
    PoolFollows count discards
      ((access .internal fun choice pool => some (field choice pool, pool)) >>= next) stack post := by
  refine act fun choice pool answer pool' made => ?_
  cases made
  exact ⟨[], stack, [], rfl, .quiet _ _, rest choice pool⟩

variable {field : ThreadPool → β}

theorem read (rest : ∀ value, PoolFollows count discards (next value) stack post) :
    PoolFollows count discards (load field >>= next) stack post :=
  choose fun _ _ => rest _

theorem seen (moved : ∀ pool, ∃ top tail top', stack = top ++ tail ∧
      PoolMove count discards .internal pool top pool top' ∧
        PoolFollows count discards (next (field pool)) (top' ++ tail) post) :
    PoolFollows count discards (load field >>= next) stack post := by
  refine act fun choice pool answer pool' made => ?_
  cases made
  exact moved pool

variable {next : Unit → PoolCode α} (top tail : List PoolFrame)

theorem store {label : PoolLabel} {change : ThreadPool → ThreadPool} {top' : List PoolFrame}
    (moved : ∀ pool, PoolMove count discards label pool top (change pool) top')
    (rest : PoolFollows count discards (next ()) (top' ++ tail) post) :
    PoolFollows count discards
      ((access label fun _ pool => some ((), change pool)) >>= next) (top ++ tail) post :=
  Conforms.store top tail (fun _ => inferInstance) (fun _ pool => moved pool) rest

theorem lock {top' : List PoolFrame} (moved : ∀ pool, pool.globalMutex = false →
      PoolMove count discards .internal pool top { pool with globalMutex := true } top')
    (rest : PoolFollows count discards (next ()) (top' ++ tail) post) :
    PoolFollows count discards (lockGlobal >>= next) (top ++ tail) post := by
  refine act fun choice pool answer pool' made => ?_
  split at made
  · cases made
  case isFalse free =>
    cases made
    exact ⟨top, tail, top', rfl, moved pool (Bool.eq_false_iff.mpr free), rest⟩

theorem last {program : PoolCode α}
    (follows : PoolFollows count discards (program >>= .ret) stack post) :
    PoolFollows count discards program stack post := by
  rw [← Prog.bind_ret program]
  exact follows

variable {config : WorkStealingConfig} (caller : Option Nat)

theorem selectTargetQueue (stack : List PoolFrame)
    (bound : ∀ worker ∈ caller, worker < config.numThreads) :
    PoolFollows config.numThreads discards (WorkStealing.selectTargetQueue config caller) stack
      fun target left => left = stack ∧ target < config.numThreads := by
  cases caller with
  | some worker => exact .ret ⟨rfl, bound worker rfl⟩
  | none =>
    refine last (act fun choice pool answer pool' made => ?_)
    split at made
    · cases made
    case isFalse some =>
      cases made
      exact ⟨[], stack, [], rfl, .quiet _ _, .ret ⟨rfl, Nat.mod_lt _ (by omega)⟩⟩

theorem awaitRoom (target : Nat) (bound : target < config.numThreads) :
    PoolFollows config.numThreads discards (WorkStealing.awaitRoom config target) []
      fun answer left => left = [] ∧
        ∀ queue, answer = .target (some queue) → queue < config.numThreads := by
  have next : (target + 1) % config.numThreads < config.numThreads := Nat.mod_lt _ (by omega)
  refine read fun size => ?_
  split
  · refine read fun running => ?_
    split
    · exact .ret ⟨rfl, nofun⟩
    refine choose fun choice pool => ?_
    split
    · exact .ret ⟨rfl, nofun⟩
    refine read fun size => ?_
    split
    · exact .ret ⟨rfl, fun queue same => by cases same; exact next⟩
    · exact .invoke (.awaitRoom next)
  · exact .ret ⟨rfl, fun queue same => by cases same; exact bound⟩

theorem pushTask (target task : Nat) (bound : target < count) :
    PoolFollows count discards (WorkStealing.pushTask target task) [.cleared task]
      fun _ left => left = [.announced task] := by
  refine store [.cleared task] [] (fun _ => .enqueue bound) ?_
  refine store [.pushed task] [] (fun _ => .pend) ?_
  refine store [.pended task] [] (fun _ => .count) ?_
  refine lock [.counted task] [] (fun _ => .lock) ?_
  refine store [.locked task] [] (fun _ => .unlock) ?_
  refine last (act fun choice pool answer pool' made => ?_)
  cases made
  refine ⟨[.signalling task], [], [.announced task], rfl, .notify _ ?_, .ret rfl⟩
  cases pool.waiting with
  | nil => exact .inr rfl
  | cons first rest => exact .inl (Nat.mod_lt _ (Nat.succ_pos _))

def decided (task : Nat) (accepted : Bool) : List PoolFrame :=
  [if accepted then .announced task else .begun task]

theorem roomyTarget (target : Nat) (bound : target < config.numThreads) (stack : List PoolFrame) :
    PoolFollows config.numThreads discards (WorkStealing.roomyTarget config target) stack
      fun found left => left = stack ∧ ∀ queue ∈ found, queue < config.numThreads := by
  unfold WorkStealing.roomyTarget
  split
  · have waits : PoolFollows config.numThreads discards (Prog.invoke (.awaitRoom target)) [] _ :=
      .invoke (.awaitRoom bound)
    refine waits.bindFrame stack fun answer left => ?_
    rintro ⟨rfl, bounded⟩
    cases answer with
    | target found => exact .ret ⟨rfl, fun queue same => bounded queue (by rw [same])⟩
    | done | accepted flag => exact .ret ⟨rfl, nofun⟩
  · exact .ret ⟨rfl, fun queue same => Option.some.inj same ▸ bound⟩

variable (task : Nat)

theorem lastCheck :
    PoolFollows count discards WorkStealing.lastCheck [.begun task]
      fun running left => left = [if running then .cleared task else .begun task] := by
  refine last (act fun choice pool answer pool' made => ?_)
  split at made
  case isTrue running =>
    cases made
    exact ⟨[.begun task], [], _, rfl, .check (of_decide_eq_true running), .ret rfl⟩
  case isFalse =>
    cases made
    exact ⟨[], [.begun task], [], rfl, .quiet _ _, .ret rfl⟩

theorem enqueueTask (bound : ∀ worker ∈ caller, worker < config.numThreads) :
    PoolFollows config.numThreads discards (WorkStealing.enqueueTask config caller task)
      [.begun task] fun accepted left => left = decided task accepted := by
  refine (selectTargetQueue caller _ bound).bind fun target left => ?_
  rintro ⟨rfl, bounded⟩
  refine (roomyTarget target bounded _).bind fun found left => ?_
  rintro ⟨rfl, within⟩
  cases found with
  | none => exact .ret rfl
  | some queue =>
    refine (lastCheck task).seq fun running => ?_
    cases running with
    | true => exact (pushTask queue task (within queue rfl)).seq fun _ => .ret rfl
    | false => exact .ret rfl

theorem tryQueues (queues : List Nat) (some : queues ≠ [])
    (bound : ∀ queue ∈ queues, queue < config.numThreads) :
    PoolFollows config.numThreads discards (WorkStealing.tryQueues config queues) [.cleared task]
      fun found left => left = [if found.isSome then .cleared task else .begun task] ∧
        ∀ queue ∈ found, queue < config.numThreads := by
  induction queues with
  | nil => exact absurd rfl some
  | cons queue rest ih =>
    refine act fun choice pool answer pool' made => ?_
    split at made
    · cases made
      refine ⟨[], [.cleared task], [], rfl, .quiet _ _, .ret ⟨rfl, fun other same => ?_⟩⟩
      exact Option.some.inj same ▸ bound queue (mem_cons_self ..)
    split at made
    case isTrue last =>
      cases made
      obtain rfl := isEmpty_iff.mp last
      exact ⟨[.cleared task], [], [.begun task], rfl, .full, .ret ⟨rfl, nofun⟩⟩
    case isFalse more =>
      cases made
      refine ⟨[], [.cleared task], [], rfl, .quiet _ _, ih (fun none => ?_) fun other member => ?_⟩
      · rw [none] at more
        exact more rfl
      · exact bound other (.tail _ member)

theorem around_lt (first : Nat) {queue : Nat} (member : queue ∈ around first count) :
    queue < count := by
  obtain ⟨step, within, rfl⟩ := mem_map.mp member
  exact Nat.mod_lt _ (Nat.zero_lt_of_lt (mem_range.mp within))

theorem around_ne_nil (first : Nat) (some : 0 < count) : around first count ≠ [] := by
  intro none
  have sizes := congrArg List.length none
  rw [around, length_map, length_range] at sizes
  exact absurd sizes (Nat.ne_of_gt some)

theorem anyRoom (task target : Nat) (bound : target < config.numThreads) :
    PoolFollows config.numThreads discards (WorkStealing.anyRoom config target) [.cleared task]
      fun found left => left = [if found.isSome then .cleared task else .begun task] ∧
        ∀ queue ∈ found, queue < config.numThreads := by
  unfold WorkStealing.anyRoom
  split
  · exact tryQueues task _ (around_ne_nil _ (by omega)) fun _ => around_lt _
  · exact .ret ⟨rfl, fun queue same => Option.some.inj same ▸ bound⟩

theorem tryEnqueueTask (bound : ∀ worker ∈ caller, worker < config.numThreads) :
    PoolFollows config.numThreads discards (WorkStealing.tryEnqueueTask config caller task)
      [.begun task] fun accepted left => left = decided task accepted := by
  refine (lastCheck task).seq fun running => ?_
  cases running with
  | false => exact .ret rfl
  | true =>
    refine (selectTargetQueue caller _ bound).bind fun target left => ?_
    rintro ⟨rfl, bounded⟩
    refine (anyRoom task target bounded).bind fun found left => ?_
    rintro ⟨rfl, within⟩
    cases found with
    | none => exact .ret rfl
    | some queue => exact (pushTask queue task (within queue rfl)).seq fun _ => .ret rfl

theorem submission {attempt : Nat → PoolCode Bool}
    (attempts : ∀ task, PoolFollows count discards (attempt task) [.begun task]
      fun accepted left => left = decided task accepted) :
    PoolFollows count discards (WorkStealing.submission attempt) [] fun _ left => left = [] := by
  refine act fun choice pool task pool' made => ?_
  cases made
  refine ⟨[], [], _, rfl, .begin, ?_⟩
  generalize pool.history.begun = task
  have outcome : PoolFollows count discards (ifRunning (attempt task)) [.begun task]
      fun accepted left => left = decided task accepted := by
    refine read fun running => ?_
    split
    · exact attempts task
    · exact .ret rfl
  refine outcome.seq fun accepted => ?_
  cases accepted with
  | true => exact store [.announced task] [] (fun _ => .accept) (.ret rfl)
  | false => exact store [.begun task] [] (fun _ => .refuse) (.ret rfl)

theorem posting (bound : ∀ worker ∈ caller, worker < config.numThreads) :
    PoolFollows config.numThreads discards (WorkStealing.post config caller) []
      fun _ left => left = [] :=
  submission fun task => enqueueTask caller task bound

theorem trySubmit (bound : ∀ worker ∈ caller, worker < config.numThreads) :
    PoolFollows config.numThreads discards (WorkStealing.trySubmit config caller) []
      fun _ left => left = [] :=
  submission fun task => tryEnqueueTask caller task bound

def searched (worker : Nat) : Option Nat → List PoolFrame
  | some task => [.claiming worker task]
  | none => [.awake worker]

theorem takeBy {pick : List Nat → Option (Nat × List Nat)} (worker queue : Nat)
    (bound : queue < count)
    (picks : ∀ deque task rest, pick deque = some (task, rest) → deque.Perm (task :: rest)) :
    PoolFollows count discards (WorkStealing.takeBy pick queue) [.awake worker]
      fun found left => left = searched worker found := by
  refine last (act fun choice pool answer pool' made => ?_)
  split at made
  · cases made
    exact ⟨[], [.awake worker], [], rfl, .quiet _ _, .ret rfl⟩
  case h_2 task rest picked =>
    cases made
    exact ⟨[.awake worker], [], _, rfl, .take bound (picks _ _ _ picked), .ret rfl⟩

theorem popFront_perm (deque : List Nat) (task : Nat) (rest : List Nat)
    (popped : popFront deque = some (task, rest)) : deque.Perm (task :: rest) := by
  cases deque with
  | nil => cases popped
  | cons first others =>
    obtain ⟨rfl, rfl⟩ := Prod.mk.inj (Option.some.inj popped)
    exact .refl _

theorem stealBack_perm (deque : List Nat) (task : Nat) (rest : List Nat)
    (stolen : stealBack deque = some (task, rest)) : deque.Perm (task :: rest) := by
  obtain ⟨final, found, same⟩ := Option.map_eq_some_iff.mp stolen
  obtain ⟨rfl, rfl⟩ := Prod.mk.inj same
  have parts := dropLast_append_getLast? final found
  conv_lhs => rw [← parts]
  exact perm_append_singleton ..

variable (worker : Nat)

theorem stealFrom (victims : List Nat) (bound : ∀ victim ∈ victims, victim < count) :
    PoolFollows count discards (WorkStealing.stealFrom worker victims) [.awake worker]
      fun found left => left = searched worker found := by
  induction victims with
  | nil => exact .ret rfl
  | cons victim rest ih =>
    rw [forall_mem_cons] at bound
    unfold WorkStealing.stealFrom
    split
    · exact ih bound.2
    refine (takeBy worker victim bound.1 stealBack_perm).seq fun found => ?_
    cases found with
    | none => exact ih bound.2
    | some task => exact store [] _ (fun pool => .quiet _ _) (.ret rfl)

theorem findTask (bound : worker < config.numThreads) :
    PoolFollows config.numThreads discards (WorkStealing.findTask config worker) [.awake worker]
      fun found left => left = searched worker found := by
  refine (takeBy worker worker bound popFront_perm).seq fun found => ?_
  cases found with
  | some task => exact .ret rfl
  | none =>
    change PoolFollows _ _ (WorkStealing.trySteal config worker) _ _
    unfold WorkStealing.trySteal
    split
    · exact .ret rfl
    · exact choose fun choice pool => stealFrom worker _ fun _ => around_lt _

theorem runTask (bound : worker < count) :
    PoolFollows count discards (WorkStealing.runTask worker) [] fun _ left => left = [] := by
  have caller : ∀ other ∈ some worker, other < count := fun _ same => Option.some.inj same ▸ bound
  refine choose fun choice pool => ?_
  cases choice.action with
  | finish | throw => exact .ret rfl
  | post =>
    refine .bind (.invoke (.post caller)) fun _ left ends => ?_
    rw [ends]
    exact .invoke (.runTask bound)
  | trySubmit =>
    refine .bind (.invoke (.trySubmit caller)) fun _ left ends => ?_
    rw [ends]
    exact .invoke (.runTask bound)

theorem executeTask (worker task : Nat) (bound : worker < count) :
    PoolFollows count discards (WorkStealing.executeTask worker task) [.starting worker task]
      fun _ left => left = [.awake worker] := by
  refine store [.starting worker task] [] (fun _ => .call) ?_
  have runs : PoolFollows count discards (Prog.invoke (.runTask worker)) []
      fun _ left => left = [] := .invoke (.runTask bound)
  refine runs.seqFrame [.executing worker task] fun _ => ?_
  refine store [.executing worker task] [] (fun _ => .complete) ?_
  exact last (store [.finishing worker task] [] (fun _ => .settle) (.ret rfl))

theorem waitForWork :
    PoolFollows count discards (WorkStealing.waitForWork worker) [.holding worker]
      fun _ left => left = [.awake worker] := by
  refine seen fun pool => ?_
  split
  · refine ⟨[], [.holding worker], [], rfl, .quiet _ _, ?_⟩
    exact store [.holding worker] [] (fun _ => .release) (.ret rfl)
  case isFalse none =>
    refine ⟨[.holding worker], [], _, rfl, .seeZero (not_not.mp none), seen fun pool => ?_⟩
    split
    · refine ⟨[.idle worker], [], _, rfl, .rouse, ?_⟩
      exact store [.holding worker] [] (fun _ => .release) (.ret rfl)
    refine ⟨[], [.idle worker], [], rfl, .quiet _ _, ?_⟩
    refine store [.idle worker] [] (fun _ => .block) (act fun choice pool answer pool' made => ?_)
    split at made
    · cases made
    cases made
    refine ⟨[.parked worker], [], _, rfl, .wake, ?_⟩
    exact lock [.awake worker] [] (fun _ => .acquire) (.invoke .waitForWork)

theorem workerLoop (bound : worker < config.numThreads) :
    PoolFollows config.numThreads discards (WorkStealing.workerLoop config worker) [.awake worker]
      fun _ left => left = [] := by
  refine (findTask worker bound).seq fun found => ?_
  cases found with
  | some task =>
    refine store [.claiming worker task] [] (fun _ => .claim) ?_
    exact (executeTask worker task bound).seq fun _ => .invoke (.workerLoop bound)
  | none =>
    refine seen fun pool => ?_
    split
    · refine ⟨[], [.awake worker], [], rfl, .quiet _ _, ?_⟩
      refine lock [.awake worker] [] (fun _ => .acquire) ?_
      refine .bind (.invoke .waitForWork) fun _ left ends => ?_
      rw [ends]
      exact .invoke (.workerLoop bound)
    case isFalse stopped =>
      refine ⟨[.awake worker], [], _, rfl, .seeStopped fun running => ?_, ?_⟩
      · exact stopped (decide_eq_true running)
      refine act fun choice pool answer pool' made => ?_
      cases made
      split
      case isTrue none =>
        refine ⟨[.draining worker], [], _, rfl, .leave none, ?_⟩
        exact store [.leaving worker] [] (fun _ => .depart) (.ret rfl)
      case isFalse =>
        exact ⟨[.draining worker], [], _, rfl, .retry, .invoke (.workerLoop bound)⟩

theorem waitForWorkers :
    PoolFollows config.numThreads discards (WorkStealing.waitForWorkers config) [.joining 0]
      fun _ left => left = [.joining config.numThreads] := by
  have joins (done more : Nat) : PoolFollows config.numThreads discards
      (Prog.forEach (fun worker => access .internal fun _ pool =>
        if worker ∈ pool.ended then some ((), pool) else none) (List.range' done more))
      [.joining done] fun _ left => left = [.joining (done + more)] := by
    induction more generalizing done with
    | zero => exact .ret rfl
    | succ more ih =>
      rw [List.range'_succ, Nat.add_comm more 1, ← Nat.add_assoc]
      refine act fun choice pool answer pool' made => ?_
      split at made
      case isTrue ended =>
        cases made
        exact ⟨[.joining done], [], _, rfl, .join ended, ih (done + 1)⟩
      case isFalse => cases made
  have all := joins 0 config.numThreads
  rw [← range_eq_range', Nat.zero_add] at all
  exact all

theorem discardTasks (allowed : discards = true) :
    PoolFollows count discards (WorkStealing.discardTasks config) [.clearing]
      fun _ left => left = [.stopping] := by
  have clears : PoolFollows count discards (clearQueues config) [.clearing]
      fun _ left => left = [.clearing] := by
    refine .forEach (fun _ left => left = [PoolFrame.clearing]) rfl ?_
    rintro queue rest _ - rfl
    exact last (store [.clearing] [] (fun _ => .clear queue allowed) (.ret rfl))
  refine clears.seq fun _ => ?_
  refine store [.clearing] [] (fun _ => .resetPending allowed) ?_
  exact last (store [.resetting] [] (fun _ => .resetUnclaimed allowed) (.ret rfl))

theorem returnFromShutdown :
    PoolFollows count discards WorkStealing.returnFromShutdown [.joining count]
      fun _ left => left = [] :=
  store [.joining count] [] (fun _ => .leaveShutdown) (.ret rfl)

theorem shutdownRest :
    PoolFollows config.numThreads discards
      (do
        lockGlobal
        unlockGlobal
        notifyAll
        WorkStealing.waitForWorkers config
        WorkStealing.store fun pool => { pool with state := .stopped }
        WorkStealing.returnFromShutdown) [.stopping] fun _ left => left = [] := by
  refine lock [.stopping] [] (fun _ => .stopLock) ?_
  refine store [.stopLocked] [] (fun _ => .stopUnlock) ?_
  refine store [.stopSignalling] [] (fun _ => .notifyAll) ?_
  refine waitForWorkers.seq fun _ => ?_
  exact store [.joining config.numThreads] [] (fun _ => .stopped) returnFromShutdown

theorem shutdown (waitForTasks : Bool) (allowed : waitForTasks = false → discards = true) :
    PoolFollows config.numThreads discards (WorkStealing.shutdown config waitForTasks) []
      fun _ left => left = [] := by
  refine act fun choice pool answer pool' made => ?_
  split at made
  case isTrue running =>
    have runs : pool.state = .running := of_decide_eq_true running
    cases made
    cases waitForTasks with
    | true => exact ⟨[], [], _, rfl, .stopWaiting runs, shutdownRest⟩
    | false =>
      refine ⟨[], [], _, rfl, .stopDiscarding (allowed rfl) runs, ?_⟩
      exact (discardTasks (allowed rfl)).seq fun _ => shutdownRest
  case isFalse stopped =>
    cases made
    refine ⟨[], [], _, rfl, .giveWay fun running => ?_, ?_⟩
    · exact stopped (decide_eq_true running)
    · exact waitForWorkers.seq fun _ => returnFromShutdown

end PoolFollows

section Runs

variable (config : WorkStealingConfig)

/-- A submission by a thread of no pool, or by one of the workers. -/
def PoolProc.Submits (count : Nat) (procedure : PoolProc) : Prop :=
  ∃ caller : Option Nat, (∀ worker ∈ caller, worker < count) ∧
    (procedure = .post caller ∨ procedure = .trySubmit caller)

structure Calls (count : Nat) (discards : Bool) (stops : Bool → Prop)
    (rules : Rules ThreadPool PoolLabel PoolProc PoolChoice) : Prop where
  starts : ∀ procedure pool, rules.starts procedure pool → procedure.Submits count ∨
    ∃ waitForTasks, procedure = .shutdown waitForTasks ∧ stops waitForTasks
  discards : stops false → discards = true

variable {rules : Rules ThreadPool PoolLabel PoolProc PoolChoice}

theorem pool_verified {discards : Bool} {stops : Bool → Prop}
    (calls : Calls config.numThreads discards stops rules) :
    Verified (poolProtocol config.numThreads discards) id (PoolContract config.numThreads discards)
      (body config) rules where
  keeps procedure top leaves called := by
    cases called with
    | workerLoop bound => exact PoolFollows.workerLoop _ bound
    | waitForWork => exact PoolFollows.waitForWork _
    | runTask bound => exact PoolFollows.runTask _ bound
    | awaitRoom bound => exact PoolFollows.awaitRoom _ bound
    | post bound => exact PoolFollows.posting _ bound
    | trySubmit bound => exact PoolFollows.trySubmit _ bound
    | shutdown allowed => exact PoolFollows.shutdown _ allowed
  starts procedure pool started := by
    rcases calls.starts procedure pool started with
      ⟨caller, bound, rfl | rfl⟩ | ⟨waitForTasks, rfl, allowed⟩
    · exact ⟨[], _, rfl, .post bound, fun _ _ ends => ends⟩
    · exact ⟨[], _, rfl, .trySubmit bound, fun _ _ ends => ends⟩
    · exact ⟨[], _, rfl, .shutdown fun discarding => calls.discards (discarding ▸ allowed),
        fun _ _ ends => ends⟩

/-- What every access keeps holds in every state that the pool reaches. -/
theorem pool_invariant {discards : Bool} {stops : Bool → Prop}
    (calls : Calls config.numThreads discards stops rules)
    (holds : ThreadPool → Multiset PoolFrame → Prop)
    (initial : holds {} ((List.range config.numThreads).map PoolFrame.awake : List PoolFrame))
    (step : ∀ label choice pool pool' (others : Multiset PoolFrame) (top top' : List PoolFrame),
      rules.allows label choice pool →
      PoolMove config.numThreads discards label pool top pool' top' →
      holds pool (others + top) → holds pool' (others + top'))
    {reached : Config ThreadPool PoolLabel PoolProc PoolChoice PoolAnswer}
    (run : Reaches (body config) rules (construct config) reached) :
    ∃ frames, holds reached.shared frames := by
  have verified := pool_verified config calls
  have matched : Forall₂
      (Matches (poolProtocol config.numThreads discards) id (PoolContract config.numThreads discards))
      (construct config).threads
      ((List.range config.numThreads).map fun worker => (.workerLoop worker, [.awake worker])) := by
    rw [construct, forall₂_map_left_iff, forall₂_map_right_iff, forall₂_same]
    intro worker member
    exact verified.thread_matches (.workerLoop (mem_range.mp member)) fun _ _ ends => ends
  obtain ⟨entries, soup, -⟩ := verified.runFrom matched run
  have additive : Additive fun _ : Multiset PoolFrame => True := ⟨trivial, fun _ _ _ _ => trivial⟩
  have initially : holds {} (allFrames ((List.range config.numThreads).map
      fun worker => (PoolProc.workerLoop worker, [PoolFrame.awake worker]))) := by
    rw [map_eq_flatMap] at initial
    rw [allFrames, flatMap_map]
    exact initial
  refine ⟨_, soup.invariant additive (fun pool pool' others top top' _ _ rewritten before => ?_)
    (fun _ _ _ _ _ _ _ => trivial) initially⟩
  cases rewritten with
  | move allowed moved => exact step _ _ pool pool' others top top' allowed moved before
  | ghost shifted => exact shifted.elim
  | fork forked => exact forked.elim
  | @start procedure _ _ _ entered =>
    cases procedure with
    | post | trySubmit | shutdown =>
      obtain rfl : top' = [] := entered
      exact before
    | _ => exact entered.elim

end Runs

end AiPipe.WorkStealing
