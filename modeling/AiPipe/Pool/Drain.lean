import AiPipe.Pool.Wakeup
import Mathlib.Algebra.Order.BigOperators.Group.Finset

/-!
A shutdown that waits.  A worker leaves a stopping pool when it finds no task and reads zero in
`m_unclaimedTasks`; if no submission stands before its count then, the pool is empty for good.
-/

namespace AiPipe.WorkStealing

open Concurrency Multiset PoolFrame ThreadPool

namespace PoolFrame

def held : PoolFrame → List Nat
  | claiming _ task | starting _ task => [task]
  | _ => []

def fresh : PoolFrame → List Nat
  | begun task | cleared task => [task]
  | _ => []

def offered : PoolFrame → List Nat
  | pushed task | pended task | counted task | locked task | signalling task
  | announced task => [task]
  | _ => []

def running : PoolFrame → Nat
  | executing _ _ => 1
  | _ => 0

def stopper : PoolFrame → Nat
  | draining _ | leaving _ => 1
  | _ => 0

def leaver : PoolFrame → Nat
  | leaving _ => 1
  | _ => 0

end PoolFrame

section Moves

variable {count : Nat} {label : PoolLabel} {pool pool' : ThreadPool}
variable {others frames : Multiset PoolFrame} {top top' : List PoolFrame}

def Placed (count : Nat) (pool : ThreadPool) (frames : Multiset PoolFrame) : Prop :=
  (pool.history.pushed : Multiset Nat) =
    pool.queued count + collect PoolFrame.held frames + (pool.history.executed : Multiset Nat)

theorem Placed.move (moved : PoolMove count false label pool top pool' top')
    (placed : Placed count pool (others + top)) :
    Placed count pool' (others + top') := by
  unfold Placed at placed ⊢
  cases moved with
  | @enqueue _ task target bound =>
    rw [queued_push bound, collect_none rfl, cons_add, cons_add]
    rw [collect_none rfl] at placed
    exact (coe_concat _ task).trans (congrArg (task ::ₘ ·) placed)
  | @take _ worker task queue rest bound taken =>
    rw [collect_one rfl, add_cons, ← cons_add, ← queued_take bound taken]
    rw [collect_none rfl] at placed
    exact placed
  | @call _ worker task =>
    rw [collect_none rfl]
    rw [collect_one rfl, add_cons, cons_add, ← add_cons, ← coe_concat] at placed
    exact placed
  | clear _ discarded => cases discarded
  | _ => exact placed.trans (congrArg (_ + · + _) (collect_same rfl))

/-- No task is in two places, and one that was discarded is in none. -/
def Spread (count : Nat) (pool : ThreadPool) (frames : Multiset PoolFrame) : Prop :=
  pool.queued count + collect held frames + (pool.history.executed : Multiset Nat) ≤
    (pool.history.pushed : Multiset Nat)

theorem Spread.move (moved : PoolMove count true label pool top pool' top')
    (spread : Spread count pool (others + top)) : Spread count pool' (others + top') := by
  unfold Spread at spread ⊢
  cases moved with
  | enqueue bound =>
    rw [queued_push bound, collect_none rfl, cons_add, cons_add]
    rw [collect_none rfl] at spread
    exact (cons_le_cons _ spread).trans_eq (coe_concat ..).symm
  | take bound taken =>
    rw [collect_one rfl, add_cons, ← cons_add, ← queued_take bound taken]
    rwa [collect_none rfl] at spread
  | call =>
    rw [collect_none rfl]
    rwa [collect_one rfl, add_cons, cons_add, ← add_cons, ← coe_concat] at spread
  | clear cleared =>
    refine spread.trans' (add_le_add_left (add_le_add_left (Finset.sum_le_sum fun queue _ => ?_) _) _)
    by_cases same : queue = cleared <;> simp [setQueue, same]
  | _ => exact spread.trans_eq' (congrArg (_ + · + _) (collect_same rfl))

structure Numbered (pool : ThreadPool) (frames : Multiset PoolFrame) : Prop where
  below : ∀ task ∈ (pool.history.pushed : Multiset Nat) + collect PoolFrame.fresh frames,
    task < pool.history.begun
  nodup : ((pool.history.pushed : Multiset Nat) + collect PoolFrame.fresh frames).Nodup

theorem Numbered.of_le {frames' : Multiset PoolFrame} (numbered : Numbered pool frames)
    (begun : pool'.history.begun = pool.history.begun)
    (fewer : (pool'.history.pushed : Multiset Nat) + collect PoolFrame.fresh frames' ≤
      (pool.history.pushed : Multiset Nat) + collect PoolFrame.fresh frames) :
    Numbered pool' frames' where
  below task member := begun ▸ numbered.below task (mem_of_le fewer member)
  nodup := nodup_of_le fewer numbered.nodup

variable {discards : Bool}

theorem Numbered.move (moved : PoolMove count discards label pool top pool' top')
    (numbered : Numbered pool (others + top)) :
    Numbered pool' (others + top') := by
  cases moved with
  | begin =>
    obtain ⟨below, nodup⟩ := numbered
    rw [collect_none rfl] at below nodup
    have same : (pool.history.pushed : Multiset Nat) +
        collect fresh (others + ([.begun pool.history.begun] : List PoolFrame)) =
        pool.history.begun ::ₘ
          ((pool.history.pushed : Multiset Nat) + collect fresh others) := by
      rw [collect_one rfl, add_cons]
    constructor
    · intro task member
      rcases mem_cons.mp (same ▸ member) with rfl | old
      · exact Nat.lt_succ_self _
      · exact Nat.lt_succ_of_lt (below task old)
    · exact same ▸ nodup_cons.mpr
        ⟨fun old => Nat.lt_irrefl _ (below _ old), nodup⟩
  | @enqueue _ task target bound =>
    have before : collect fresh (others + ([.cleared task] : List PoolFrame)) =
        task ::ₘ collect fresh others := collect_one rfl
    refine numbered.of_le rfl (le_of_eq ?_)
    rw [before, collect_none rfl, add_cons, ← cons_add, ← coe_concat]
    rfl
  | @refuse _ task =>
    have before : collect fresh (others + ([.begun task] : List PoolFrame)) =
        task ::ₘ collect fresh others := collect_one rfl
    refine numbered.of_le rfl ?_
    rw [before, collect_none rfl]
    exact add_le_add_right (le_cons_self ..) _
  | _ => exact numbered.of_le rfl (le_of_eq (congrArg (_ + ·) (collect_same rfl)))

structure Offered (pool : ThreadPool) (frames : Multiset PoolFrame) : Prop where
  offered : ∀ task ∈ collect PoolFrame.offered frames, task ∈ pool.history.pushed
  accepted : ∀ task ∈ pool.history.accepted, task ∈ pool.history.pushed

theorem Offered.move (moved : PoolMove count discards label pool top pool' top')
    (offers : Offered pool (others + top)) :
    Offered pool' (others + top') := by
  obtain ⟨offered, accepted⟩ := offers
  cases moved with
  | @enqueue _ task target bound =>
    have longer {other : Nat} (old : other ∈ pool.history.pushed) :
        other ∈ pool.history.pushed ++ [task] := List.mem_append_left _ old
    rw [collect_none rfl] at offered
    refine ⟨fun other member => ?_, fun other old => longer (accepted other old)⟩
    rw [collect_one rfl] at member
    rcases mem_cons.mp member with rfl | old
    · exact List.mem_append_right _ (.head _)
    · exact longer (offered other old)
  | @accept _ task =>
    rw [collect_one rfl] at offered
    refine ⟨fun other member => ?_, fun other member => ?_⟩
    · rw [collect_none rfl] at member
      exact offered other (mem_cons_of_mem member)
    · rcases List.mem_append.mp member with old | new
      · exact accepted other old
      · exact offered other (mem_cons.mpr (.inl (List.mem_singleton.mp new)))
  | _ =>
    refine ⟨fun other member => offered other ?_, accepted⟩
    exact mem_of_le (le_of_eq (collect_same (by rfl))) member

theorem completed_move (moved : PoolMove count discards label pool top pool' top')
    (counted : pool.completedTasks + total PoolFrame.running (others + top) =
      pool.history.executed.length) :
    pool'.completedTasks + total PoolFrame.running (others + top') =
      pool'.history.executed.length := by
  rw [total_add] at counted ⊢
  cases moved with
  | @call _ worker task =>
    change _ = (pool.history.executed ++ [task]).length
    rw [List.length_append, ← counted]
    rfl
  | complete =>
    change pool.completedTasks + 1 + total running others = _
    exact Nat.add_right_comm .. |>.trans counted
  | _ => exact counted

structure Emptied (count : Nat) (pool : ThreadPool) (frames : Multiset PoolFrame) : Prop where
  stopped : 0 < total PoolFrame.stopper frames + pool.ended.length → pool.state ≠ .running
  empty : 0 < total PoolFrame.leaver frames + pool.ended.length →
    pool.queued count = 0 ∧ total PoolFrame.window frames = 0

namespace Emptied

theorem leaves (balanced : Balanced count pool frames) (clear : pool.history.window = 0)
    (fresh : pool.history.staleUnclaimed = false) (zero : pool.unclaimedTasks = 0) :
    pool.queued count = 0 ∧ total PoolFrame.window frames = 0 := by
  have window := balanced.window
  have fewer : total PoolFrame.publishing frames ≤ total PoolFrame.window frames :=
    total_mono (fun frame => by cases frame <;> simp [PoolFrame.publishing, PoolFrame.window]) frames
  have counts := balanced.unclaimed fresh
  have none : card (pool.queued count) = 0 := by omega
  exact ⟨card_eq_zero.mp none, by omega⟩

section

variable (moved : PoolMove count false label pool top pool' top')
include moved

theorem stopped_move (emptied : Emptied count pool (others + top))
    (seen : 0 < total PoolFrame.stopper (others + top') +
      pool'.ended.length) : pool'.state ≠ .running := by
  have stopped := emptied.stopped
  rw [total_add] at stopped seen
  cases moved with
  | stopWaiting | stopDiscarding | stopped => exact nofun
  | seeStopped state => exact state
  | retry | depart =>
    refine stopped ?_
    change 0 < total stopper others + 1 + pool.ended.length
    omega
  | _ => exact stopped seen

theorem empty_move (clear : label = .stopTest → pool.history.window = 0)
    (balanced : Balanced count pool (others + top))
    (fresh : pool.history.staleUnclaimed = false)
    (emptied : Emptied count pool (others + top))
    (left : 0 < total PoolFrame.leaver (others + top') +
      pool'.ended.length) :
    pool'.queued count = 0 ∧ total PoolFrame.window (others + top') = 0 := by
  have empty := emptied.empty
  rw [total_add, total_add] at empty
  rw [total_add] at left ⊢
  cases moved with
  | check running =>
    have fewer : total leaver others ≤ total stopper others :=
      total_mono (fun frame => by cases frame <;> simp [leaver, stopper]) others
    refine absurd running (emptied.stopped ?_)
    rw [total_add]
    change 0 < total leaver others + 0 + pool.ended.length at left
    change 0 < total stopper others + 0 + pool.ended.length
    omega
  | full | enqueue | count => cases (empty left).2
  | take bound taken =>
    have none := (empty left).1
    rw [queued_take bound taken] at none
    exact absurd none (cons_ne_zero)
  | leave zero =>
    have both := leaves balanced (clear rfl) fresh zero
    rw [total_add] at both
    exact both
  | depart =>
    refine empty ?_
    change 0 < total leaver others + 1 + pool.ended.length
    omega
  | clear _ discarded => cases discarded
  | _ => exact empty left

theorem move (clear : label = .stopTest → pool.history.window = 0)
    (balanced : Balanced count pool (others + top))
    (fresh : pool.history.staleUnclaimed = false)
    (emptied : Emptied count pool (others + top)) :
    Emptied count pool' (others + top') :=
  ⟨emptied.stopped_move moved, emptied.empty_move moved clear balanced fresh⟩

end

end Emptied

structure Joined (count : Nat) (pool : ThreadPool) (frames : Multiset PoolFrame) : Prop where
  joining : ∀ done, .joining done ∈ frames → ∀ worker < done, worker ∈ pool.ended
  returned : pool.history.shutdownReturned = true → ∀ worker < count, worker ∈ pool.ended

variable {discards : Bool}

section

variable (moved : PoolMove count discards label pool top pool' top')
include moved

theorem PoolMove.ended {worker : Nat} (ended : worker ∈ pool.ended) : worker ∈ pool'.ended := by
  cases moved with
  | depart => exact .tail _ ended
  | _ => exact ended

theorem Joined.joining_move
    (before : ∀ done, .joining done ∈ top → ∀ worker < done, worker ∈ pool.ended)
    (done : Nat) (here : .joining done ∈ top') : ∀ worker < done, worker ∈ pool.ended := by
  cases moved with
  | @join _ last ended =>
    obtain rfl : done = last + 1 := by simpa using here
    intro worker bound
    rcases Nat.lt_succ_iff_lt_or_eq.mp bound with less | rfl
    · exact before last (.head _) worker less
    · exact ended
  | notifyAll | giveWay =>
    obtain rfl : done = 0 := by simpa using here
    exact nofun
  | stopped => exact before done here
  | _ => simp at here

theorem Joined.move (joined : Joined count pool (others + top)) :
    Joined count pool' (others + top') := by
  have onTop (done : Nat) (here : .joining done ∈ top) :
      ∀ worker < done, worker ∈ pool.ended := joined.joining done (mem_add.mpr (.inr here))
  refine ⟨fun done here worker bound => moved.ended ?_, fun back worker bound => moved.ended ?_⟩
  · rcases mem_add.mp here with other | new
    · exact joined.joining done (mem_add.mpr (.inl other)) worker bound
    · exact Joined.joining_move moved onTop done new worker bound
  · cases moved with
    | leaveShutdown => exact onTop count (.head _) worker bound
    | _ => exact joined.returned back worker bound

end

end Moves

/-! The whole run. -/

structure Drain (count : Nat) (pool : ThreadPool) (frames : Multiset PoolFrame) : Prop where
  balanced : Balanced count pool frames
  fresh : pool.history.staleUnclaimed = false
  roster : Roster count pool frames
  placed : Placed count pool frames
  numbered : Numbered pool frames
  offers : Offered pool frames
  completed : pool.completedTasks + total PoolFrame.running frames = pool.history.executed.length
  emptied : Emptied count pool frames
  joined : Joined count pool frames

namespace Drain

variable {count : Nat} {label : PoolLabel} {pool pool' : ThreadPool}
variable {others frames : Multiset PoolFrame} {top top' : List PoolFrame}

theorem move (moved : PoolMove count false label pool top pool' top')
    (clear : label = .stopTest → pool.history.window = 0)
    (drain : Drain count pool (others + top)) :
    Drain count pool' (others + top') where
  balanced := drain.balanced.move (fun reset => absurd reset moved.regular) moved
  fresh := moved.fresh drain.fresh
  roster := drain.roster.move moved
  placed := drain.placed.move moved
  numbered := drain.numbered.move moved
  offers := drain.offers.move moved
  completed := completed_move moved drain.completed
  emptied := drain.emptied.move moved clear drain.balanced drain.fresh
  joined := drain.joined.move moved

theorem construct (count : Nat) :
    Drain count {} ((List.range count).map PoolFrame.awake : List PoolFrame) := by
  have light (weight : PoolFrame → Nat) (none : ∀ worker, weight (.awake worker) = 0) :
      total weight ((List.range count).map awake : List PoolFrame) = 0 := by
    simp [total, Function.comp_def, none]
  have silent (part : PoolFrame → List Nat) (none : ∀ worker, part (.awake worker) = []) :
      collect part ((List.range count).map awake : List PoolFrame) = 0 := by
    simp [collect, List.flatMap_map, none]
  have empty : queued count {} = 0 := queued_eq_zero.mpr fun _ _ => rfl
  refine ⟨Balanced.construct count, rfl, Roster.construct count, ?_, ⟨?_, ?_⟩, ⟨?_, by simp⟩, ?_,
    ⟨?_, ?_⟩, ⟨?_, by simp⟩⟩
  · rw [Placed, empty, silent _ fun _ => rfl]
    rfl
  · rw [silent _ fun _ => rfl]
    simp
  · rw [silent _ fun _ => rfl]
    exact nodup_zero
  · rw [silent _ fun _ => rfl]
    simp
  · rw [light _ fun _ => rfl]
    rfl
  · rw [light _ fun _ => rfl]
    simp
  · rw [light _ fun _ => rfl]
    simp
  · intro done here
    simp at here

theorem executed_nodup (drain : Drain count pool frames) : pool.history.executed.Nodup := by
  have called : (pool.history.executed : Multiset Nat) ≤ pool.history.pushed := by
    rw [drain.placed]
    exact Multiset.le_add_left ..
  exact coe_nodup.mp
    (nodup_of_le (called.trans (Multiset.le_add_right ..)) drain.numbered.nodup)

theorem no_places (drain : Drain count pool frames)
    (back : pool.history.shutdownReturned = true) : collect PoolFrame.worker frames = 0 := by
  have all : Multiset.range count ≤ (pool.ended : Multiset Nat) := by
    rw [le_iff_subset (nodup_range count)]
    exact fun worker member => drain.joined.returned back worker (mem_range.mp member)
  have roster : collect worker frames + (pool.ended : Multiset Nat) = _ := drain.roster
  rw [← roster] at all
  have sizes := card_le_card all
  rw [card_add] at sizes
  exact card_eq_zero.mp (by omega)

theorem finished (drain : Drain count pool frames) (some : 0 < count)
    (back : pool.history.shutdownReturned = true) :
    (∀ task ∈ pool.history.accepted, task ∈ pool.history.executed) ∧
      pool.completedTasks = pool.history.executed.length := by
  have nobody (frame : PoolFrame) (here : frame ∈ frames) : frame.worker = [] :=
    collect_eq_nil (drain.no_places back) here
  have ended : 0 < pool.ended.length :=
    List.length_pos_of_mem (drain.joined.returned back 0 some)
  have empty := (drain.emptied.empty (by omega)).1
  have unheld : collect held frames = 0 := by
    refine eq_zero_of_forall_notMem fun task member => ?_
    obtain ⟨frame, here, named⟩ := mem_bind.mp member
    have none := nobody frame here
    cases frame with
    | claiming | starting => cases none
    | _ => cases named
  have idle : total running frames = 0 := by
    refine total_eq_zero fun frame here => ?_
    have none := nobody frame here
    cases frame with
    | executing => cases none
    | _ => rfl
  have placed := drain.placed
  rw [Placed, empty, unheld, zero_add, zero_add] at placed
  refine ⟨fun task accepted => ?_, ?_⟩
  · have pushed := drain.offers.accepted task accepted
    rw [← mem_coe, placed] at pushed
    exact pushed
  · rw [← drain.completed, idle, Nat.add_zero]

end Drain

section Drained

variable {config : WorkStealingConfig} {rules : Rules ThreadPool PoolLabel PoolProc PoolChoice}
variable {reached : Config ThreadPool PoolLabel PoolProc PoolChoice PoolAnswer}

/-- If a worker makes its stopping test only while no submission stands before its count, then no
task is called twice, and after `shutdown(true)` every accepted task has been called. -/
theorem tasks_run_once (some : 0 < config.numThreads)
    (calls : ∀ procedure pool, rules.starts procedure pool →
      procedure.Submits config.numThreads ∨ procedure = .shutdown true)
    (clear : ∀ choice pool, rules.allows .stopTest choice pool → pool.history.window = 0)
    (run : Reaches (body config) rules (construct config) reached) :
    reached.shared.history.executed.Nodup ∧
      (reached.shared.history.shutdownReturned = true →
        (∀ task ∈ reached.shared.history.accepted, task ∈ reached.shared.history.executed) ∧
        reached.shared.completedTasks = reached.shared.history.executed.length) := by
  have waiting : Calls config.numThreads false (fun waitForTasks => waitForTasks = true) rules :=
    ⟨fun procedure pool started =>
      (calls procedure pool started).imp_right fun shutdown => ⟨true, shutdown, rfl⟩, nofun⟩
  obtain ⟨frames, drain⟩ := pool_invariant config waiting (Drain config.numThreads)
    (Drain.construct _)
    (fun label choice pool pool' others top top' allowed moved before =>
      before.move moved fun test => clear choice pool (test ▸ allowed)) run
  exact ⟨drain.executed_nodup, drain.finished some⟩

def drainReferee : Referee ThreadPool PoolLabel PoolProc PoolChoice where
  allows label _ pool := label != .stopTest || pool.history.window == 0
  starts procedure _ :=
    procedure = .post none || procedure = .trySubmit none || procedure = .shutdown true

theorem drainReferee_starts {procedure : PoolProc} {pool : ThreadPool}
    (starts : drainReferee.starts procedure pool = true) :
    procedure.Submits soloPool.numThreads ∨ procedure = .shutdown true := by
  simp only [drainReferee, Bool.or_eq_true, decide_eq_true_eq] at starts
  rcases starts with (post | submit) | shutdown
  · exact .inl ⟨none, by simp, .inl post⟩
  · exact .inl ⟨none, by simp, .inr submit⟩
  · exact .inr shutdown

theorem tasks_run_once_queued :
    ∃ reached, Reaches (body soloPool) drainReferee.rules (construct soloPool) reached ∧
      reached.shared.history.accepted = [0] ∧ 0 ∈ reached.shared.history.executed ∧
      reached.shared.completedTasks = reached.shared.history.executed.length := by
  obtain ⟨reached, run, tested⟩ := played_reaches (body soloPool) drainReferee (construct soloPool)
    (.start (.post none) :: turns 1 11 ++ .start (.shutdown true) :: turns 2 4 ++ turns 0 10 ++
      turns 2 3)
    (fun reached => reached.shared.history.accepted = [0] ∧
      reached.shared.history.shutdownReturned = true)
    (by decide +kernel)
  have once := tasks_run_once Nat.one_pos
    (fun procedure pool starts => drainReferee_starts starts)
    (fun choice pool allowed => by simpa [Referee.rules, drainReferee] using allowed) run
  have done := once.2 tested.2
  exact ⟨reached, run, tested.1, done.1 0 (tested.1 ▸ .head _), done.2⟩

/-- A post has passed its last check when the pool is shut down: the worker leaves, the
shutdown returns, and the task that the post accepts is never called. -/
theorem accepted_after_shutdown :
    ∃ reached, Reaches (body soloPool) ⟨fun _ _ _ => True, fun procedure _ =>
        procedure = .post none ∨ procedure = .shutdown true⟩ (construct soloPool) reached ∧
      reached.shared.history.shutdownReturned = true ∧ reached.shared.ended = [0] ∧
      reached.shared.history.accepted = [0] ∧ reached.shared.history.executed = [] := by
  refine (played_reaches (body soloPool)
    ⟨fun _ _ _ => true, fun procedure _ => procedure = .post none || procedure = .shutdown true⟩ _
    (.start (.post none) :: turns 1 4 ++ .start (.shutdown true) :: turns 2 4 ++ turns 0 4 ++
      turns 2 3 ++ turns 1 7) _ (by decide +kernel)).imp fun reached ran =>
    ⟨ran.1.mono (fun _ _ _ _ => trivial) fun procedure _ started => ?_, ran.2⟩
  simpa [Referee.rules] using started

/-- Whatever the shutdown, no task is called twice. -/
theorem no_task_runs_twice (calls : Calls config.numThreads true (fun _ => True) rules)
    (run : Reaches (body config) rules (construct config) reached) :
    reached.shared.history.executed.Nodup := by
  have drained := Drain.construct config.numThreads
  obtain ⟨frames, spread, numbered⟩ := pool_invariant config calls
    (fun pool frames => Spread config.numThreads pool frames ∧ Numbered pool frames)
    ⟨drained.placed.ge, drained.numbered⟩
    (fun _ _ _ _ _ _ _ _ moved before => ⟨before.1.move moved, before.2.move moved⟩) run
  have called := (Multiset.le_add_left ..).trans spread
  exact coe_nodup.mp (nodup_of_le (called.trans (Multiset.le_add_right ..)) numbered.nodup)

theorem no_task_runs_twice_discard :
    ∃ reached, Reaches (body soloPool) calmReferee.rules (construct soloPool) reached ∧
      reached.shared.history.accepted = [0, 1] ∧ reached.shared.history.executed = [0] ∧
      reached.shared.queues 0 = [] ∧ reached.shared.history.executed.Nodup := by
  obtain ⟨reached, run, accepted, executed, empty⟩ :=
    played_reaches (body soloPool) calmReferee (construct soloPool)
    (.start (.post none) :: turns 1 11 ++ turns 0 6 ++ .start (.post none) :: turns 2 11 ++
      .start (.shutdown false) :: turns 3 4)
    (fun reached => reached.shared.history.accepted = [0, 1] ∧
      reached.shared.history.executed = [0] ∧ reached.shared.queues 0 = []) (by decide +kernel)
  exact ⟨reached, run, accepted, executed, empty, no_task_runs_twice
    ⟨fun _ _ starts => by simpa using starts_cases starts, fun _ => rfl⟩ run⟩

end Drained

end AiPipe.WorkStealing
