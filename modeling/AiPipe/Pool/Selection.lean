import AiPipe.Concurrency.Sequential
import AiPipe.Pool.Code

/-!
Programs with several pools.  A thread has one `tl_worker_index` for all of them: a worker
finds its own index there in whichever pool it submits a task to.
-/

namespace AiPipe.WorkStealing

open Concurrency

/-- `home` is the pool that the thread works for, with its index there. -/
structure PoolThread where
  home : Option (Nat × Nat)
  tlWorkerIndex : Option Nat := none
  deriving DecidableEq

structure World where
  pools : List (WorkStealingConfig × ThreadPool) := []
  threads : List PoolThread := []

/-- Threads that are created, pools that are constructed, and workers that enter their loop.
A pool may change in any way, apart from its configuration. -/
inductive World.Step (world : World) : World → Prop
  | external : Step world { world with threads := world.threads ++ [{ home := none }] }
  | construct (config : WorkStealingConfig) : Step world
      { pools := world.pools ++ [⟨config, {}⟩]
        threads := world.threads ++ (List.range config.numThreads).map fun worker =>
          { home := some (world.pools.length, worker) } }
  | workerLoop {index home worker : Nat} {last : Option Nat} :
      world.threads[index]? = some ⟨some (home, worker), last⟩ →
      Step world { world with
        threads := world.threads.set index ⟨some (home, worker), some worker⟩ }
  | work {index : Nat} {config : WorkStealingConfig} {pool pool' : ThreadPool} :
      world.pools[index]? = some (config, pool) →
      Step world { world with pools := world.pools.set index (config, pool') }

def World.Reached : World → Prop := Relation.ReflTransGen World.Step {}

/-- A worker submits tasks only out of its loop. -/
def PoolThread.Submits (thread : PoolThread) : Prop :=
  thread.home = none ∨ thread.tlWorkerIndex ≠ none

/-- A call of `selectTargetQueue`; nothing where the remainder has no value. -/
def selected (config : WorkStealingConfig) (thread : PoolThread) (pool : ThreadPool) :
    Option (Nat × ThreadPool) :=
  exec (body config) 1 (fun _ => {}) (selectTargetQueue config thread.tlWorkerIndex) pool

/-- The deques that `enqueueTask` and `tryEnqueueTask` index. -/
inductive Indexes (count target : Nat) : Nat → Prop
  | first : Indexes count target target
  | another {queue : Nat} : Indexes count target queue →
      Indexes count target ((queue + 1) % count)
  | round {queue : Nat} : queue ∈ around target count → Indexes count target queue

structure PoolThread.Targets (thread : PoolThread) (index count target : Nat) : Prop where
  selects : target < count
  indexes : ∀ queue, Indexes count target queue → queue < count
  own : ∀ worker, thread.home = some (index, worker) → target = worker

/-- A worker submits to its own pool, or to one in which its index has a deque too. -/
def PoolThread.Suits (thread : PoolThread) (index count : Nat) : Prop :=
  match thread.home with
  | none => 0 < count
  | some (home, worker) => home = index ∨ worker < count

def PoolThread.Placed (sizes : List Nat) (thread : PoolThread) : Prop :=
  match thread.home with
  | none => thread.tlWorkerIndex = none
  | some (home, worker) => (thread.tlWorkerIndex = none ∨ thread.tlWorkerIndex = some worker) ∧
      ∃ size, sizes[home]? = some size ∧ worker < size

def World.sizes (world : World) : List Nat := world.pools.map fun pool => pool.1.numThreads

theorem Indexes.lt {count target queue : Nat} (indexes : Indexes count target queue)
    (bound : target < count) : queue < count := by
  have positive : 0 < count := Nat.zero_lt_of_lt bound
  induction indexes with
  | first => exact bound
  | another _ _ => exact Nat.mod_lt _ positive
  | round member =>
    obtain ⟨step, -, rfl⟩ := List.mem_map.mp member
    exact Nat.mod_lt _ positive

theorem PoolThread.Placed.append {sizes : List Nat} {thread : PoolThread}
    (placed : thread.Placed sizes) (more : List Nat) : thread.Placed (sizes ++ more) := by
  unfold Placed at placed ⊢
  split
  next none => rwa [none] at placed
  next home worker same =>
    rw [same] at placed
    obtain ⟨index, size, found, bound⟩ := placed
    obtain ⟨inside, _⟩ := List.getElem?_eq_some_iff.mp found
    exact ⟨index, size, by rw [List.getElem?_append_left inside, found], bound⟩

theorem World.Step.placed {world world' : World} (step : World.Step world world')
    (placed : ∀ thread ∈ world.threads, thread.Placed world.sizes) :
    ∀ thread ∈ world'.threads, thread.Placed world'.sizes := by
  intro thread known
  cases step with
  | external =>
    obtain known | known := List.mem_append.mp known
    · exact placed thread known
    · obtain rfl := List.mem_singleton.mp known
      exact rfl
  | construct config =>
    rw [World.sizes, List.map_append]
    obtain known | known := List.mem_append.mp known
    · exact (placed thread known).append _
    · obtain ⟨worker, bound, rfl⟩ := List.mem_map.mp known
      exact ⟨.inl rfl, config.numThreads, by simp, List.mem_range.mp bound⟩
  | workerLoop found =>
    obtain known | rfl := List.mem_or_eq_of_mem_set known
    · exact placed thread known
    · exact ⟨.inr rfl, (placed _ (List.mem_of_getElem? found)).2⟩
  | @work index config pool pool' found =>
    have same : (world.pools.set index (config, pool')).map (fun pool => pool.1.numThreads) =
        world.sizes := by
      obtain ⟨inside, here⟩ := List.getElem?_eq_some_iff.mp found
      have kept := @List.set_getElem_self _ world.sizes index (by simpa [World.sizes] using inside)
      simpa [World.sizes, List.map_set, here] using kept
    rw [World.sizes, same]
    exact placed thread known

theorem World.Reached.placed {world : World} (reached : world.Reached) :
    ∀ thread ∈ world.threads, thread.Placed world.sizes := by
  induction reached with
  | refl => exact fun _ known => absurd known (List.not_mem_nil)
  | tail _ step ih => exact step.placed ih

theorem selected_worker {config : WorkStealingConfig} {thread : PoolThread} {pool : ThreadPool}
    {worker : Nat} (index : thread.tlWorkerIndex = some worker) :
    selected config thread pool = some (worker, pool) := by
  rw [selected, index]
  rfl

theorem selected_external {config : WorkStealingConfig} {thread : PoolThread} {pool : ThreadPool}
    (index : thread.tlWorkerIndex = none) :
    selected config thread pool = if config.numThreads = 0 then none
      else some (pool.nextWorkerIndex % config.numThreads,
        { pool with nextWorkerIndex := pool.nextWorkerIndex + 1 }) := by
  rw [selected, index]
  by_cases empty : config.numThreads = 0 <;> simp [selectTargetQueue, access, exec, empty]

/-- In whatever way pools are nested, a call of `selectTargetQueue` answers the index of a deque
of the pool, for a worker of the pool its own, exactly when the thread suits the pool. -/
theorem selection_in_range_iff {world : World} (reached : world.Reached) {thread : PoolThread}
    (known : thread ∈ world.threads) (submits : thread.Submits) {index : Nat}
    {config : WorkStealingConfig} {pool : ThreadPool}
    (there : world.pools[index]? = some (config, pool)) :
    (∃ target after, selected config thread pool = some (target, after) ∧
      thread.Targets index config.numThreads target) ↔
    thread.Suits index config.numThreads := by
  have placed := reached.placed thread known
  unfold PoolThread.Placed at placed
  unfold PoolThread.Suits
  cases home : thread.home with
  | none =>
    rw [home] at placed
    rw [selected_external placed]
    constructor
    · rintro ⟨target, _, _, targets⟩
      exact Nat.zero_lt_of_lt targets.selects
    · intro positive
      rw [if_neg (Nat.ne_of_gt positive)]
      have bound := Nat.mod_lt pool.nextWorkerIndex positive
      exact ⟨_, _, rfl, bound, fun _ indexes => indexes.lt bound, by simp [home]⟩
  | some place =>
    obtain ⟨home', worker⟩ := place
    rw [home] at placed
    obtain ⟨entered, size, found, bound⟩ := placed
    have entered : thread.tlWorkerIndex = some worker := by
      refine entered.resolve_left fun none => ?_
      exact submits.elim (fun outside => nomatch home.symm.trans outside) (absurd none)
    rw [selected_worker entered]
    constructor
    · rintro ⟨target, _, same, targets⟩
      cases same
      exact .inr targets.selects
    · intro suits
      have inside : worker < config.numThreads := by
        refine suits.elim (fun same => ?_) id
        rw [World.sizes, List.getElem?_map, same, there] at found
        cases found
        exact bound
      refine ⟨_, _, rfl, inside, fun _ indexes => indexes.lt inside, fun other same => ?_⟩
      cases home.symm.trans same
      rfl

/-- A pool of four threads, the last of which runs a task, and a pool of `count`. -/
def pairOfPools (count : Nat) : World where
  pools := [({ numThreads := 4 }, {}), ({ numThreads := count }, {})]
  threads := [⟨some (0, 0), none⟩, ⟨some (0, 1), none⟩, ⟨some (0, 2), none⟩,
    ⟨some (0, 3), some 3⟩] ++ (List.range count).map fun worker => { home := some (1, worker) }

theorem pairOfPools_reached (count : Nat) : (pairOfPools count).Reached :=
  .tail (.tail (.tail .refl (.construct { numThreads := 4 }))
    (@World.Step.workerLoop _ 3 0 3 none rfl)) (.construct { numThreads := count })

theorem selection_in_range_pair : ∃ target after,
    selected { numThreads := 4 } ⟨some (0, 3), some 3⟩ {} = some (target, after) ∧
      PoolThread.Targets ⟨some (0, 3), some 3⟩ 0 4 target :=
  (selection_in_range_iff (pairOfPools_reached 1) (by decide) (.inr (by decide)) rfl).mpr (.inl rfl)

/-- A worker of a pool of four posts to a pool of one, and a thread outside to a pool of none. -/
theorem selection_out_of_range :
    ((pairOfPools 1).Reached ∧ ⟨some (0, 3), some 3⟩ ∈ (pairOfPools 1).threads ∧
      (pairOfPools 1).pools[1]? = some ⟨{ numThreads := 1 }, {}⟩ ∧
      selected { numThreads := 1 } ⟨some (0, 3), some 3⟩ {} = some (3, {})) ∧
    (World.Reached ⟨[({ numThreads := 0 }, {})], [⟨none, none⟩]⟩ ∧
      selected { numThreads := 0 } ⟨none, none⟩ {} = none) :=
  ⟨⟨pairOfPools_reached 1, by decide, rfl, rfl⟩,
    .tail (.tail .refl (.construct { numThreads := 0 })) .external, rfl⟩

end AiPipe.WorkStealing
