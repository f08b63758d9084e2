import AiPipe.Pool.Protocol
import Mathlib.Algebra.BigOperators.Group.Finset.Piecewise
import Mathlib.Data.Multiset.Fintype

/-!
The two counters of the pool against its deques, from which they differ by the calls that stand
between a change of a deque and its count.
-/

namespace AiPipe.WorkStealing

open Concurrency Multiset ThreadPool Function

/-! What a frame counts for. -/

namespace PoolFrame

def submitting : PoolFrame → Nat
  | begun _ | cleared _ | pushed _ | pended _ | counted _ | locked _ | signalling _
  | announced _ => 1
  | _ => 0

def window : PoolFrame → Nat
  | cleared _ | pushed _ | pended _ => 1
  | _ => 0

def publishing : PoolFrame → Nat
  | pushed _ | pended _ => 1
  | _ => 0

def unpended : PoolFrame → Nat
  | pushed _ => 1
  | _ => 0

def claimed : PoolFrame → Nat
  | claiming _ _ => 1
  | _ => 0

def busy : PoolFrame → Nat
  | claiming _ _ | starting _ _ | executing _ _ | finishing _ _ => 1
  | _ => 0

def stalePending : PoolFrame → Nat
  | clearing => 1
  | _ => 0

def staleUnclaimed : PoolFrame → Nat
  | clearing | resetting => 1
  | _ => 0

end PoolFrame

def ThreadPool.queued (count : Nat) (pool : ThreadPool) : Multiset Nat :=
  ∑ queue ∈ Finset.range count, (pool.queues queue : Multiset Nat)

theorem ThreadPool.queued_setQueue {count queue : Nat} (bound : queue < count) (deque : List Nat)
    (pool : ThreadPool) :
    (pool.setQueue queue deque).queued count + (pool.queues queue : Multiset Nat) =
      pool.queued count + (deque : Multiset Nat) := by
  have member : queue ∈ Finset.range count := Finset.mem_range.mpr bound
  have split (queues : Nat → List Nat) :
      ∑ other ∈ Finset.range count, (queues other : Multiset Nat) =
        queues queue + ∑ other ∈ (Finset.range count).erase queue, (queues other : Multiset Nat) :=
    (Finset.add_sum_erase _ _ member).symm
  have others : ∑ other ∈ (Finset.range count).erase queue,
      (update pool.queues queue deque other : Multiset Nat) =
      ∑ other ∈ (Finset.range count).erase queue, (pool.queues other : Multiset Nat) := by
    refine Finset.sum_congr rfl fun other there => ?_
    rw [update_of_ne (Finset.ne_of_mem_erase there)]
  rw [queued, queued, split, split, setQueue]
  dsimp only
  rw [others, update_self]
  abel

theorem ThreadPool.queued_push {count target : Nat} (bound : target < count) (task : Nat)
    (pool : ThreadPool) :
    (pool.pushFront target task).queued count = task ::ₘ pool.queued count := by
  have pushed := queued_setQueue bound (task :: pool.queues target) pool
  rw [← cons_coe, add_cons, ← cons_add] at pushed
  exact add_right_cancel pushed

theorem ThreadPool.queued_take {count queue task : Nat} {rest : List Nat} (bound : queue < count)
    {pool : ThreadPool} (taken : (pool.queues queue).Perm (task :: rest)) :
    pool.queued count = task ::ₘ (pool.take queue rest).queued count := by
  have set := queued_setQueue bound rest pool
  rw [coe_eq_coe.mpr taken, ← cons_coe, add_cons, ← cons_add] at set
  exact (add_right_cancel set).symm

theorem ThreadPool.queued_eq_zero {count : Nat} {pool : ThreadPool} :
    pool.queued count = 0 ↔ ∀ queue < count, pool.queues queue = [] := by
  rw [eq_zero_iff_forall_notMem]
  simp only [queued, mem_sum, Finset.mem_range, mem_coe, not_exists, not_and,
    List.eq_nil_iff_forall_not_mem]
  exact ⟨fun none queue bound task => none task queue bound,
    fun none task queue bound => none queue bound task⟩

/-! What one access does to the counts of the history, and to the two counters. -/

namespace PoolMove

variable {count : Nat} {discards : Bool} {label : PoolLabel} {pool pool' : ThreadPool}
variable {top top' : List PoolFrame}

section

variable (moved : PoolMove count discards label pool top pool' top')
include moved

theorem submitting (counted : (top.map PoolFrame.submitting).sum ≤ pool.history.submitting) :
    pool'.history.submitting + (top.map PoolFrame.submitting).sum =
      pool.history.submitting + (top'.map PoolFrame.submitting).sum := by
  cases moved <;> first | rfl | exact Nat.sub_add_cancel counted

theorem window (counted : (top.map PoolFrame.window).sum ≤ pool.history.window) :
    pool'.history.window + (top.map PoolFrame.window).sum =
      pool.history.window + (top'.map PoolFrame.window).sum := by
  cases moved <;> first | rfl | exact Nat.sub_add_cancel counted

theorem publishing (counted : (top.map PoolFrame.publishing).sum ≤ pool.history.publishing) :
    pool'.history.publishing + (top.map PoolFrame.publishing).sum =
      pool.history.publishing + (top'.map PoolFrame.publishing).sum := by
  cases moved <;> first | rfl | exact Nat.sub_add_cancel counted

theorem busy (counted : (top.map PoolFrame.busy).sum ≤ pool.history.busy) :
    pool'.history.busy + (top.map PoolFrame.busy).sum =
      pool.history.busy + (top'.map PoolFrame.busy).sum := by
  cases moved <;> first | rfl | exact Nat.sub_add_cancel counted

theorem running (fresh : pool.state = .running →
      pool.history.stalePending = false ∧ pool.history.staleUnclaimed = false)
    (runs : pool'.state = .running) :
    pool'.history.stalePending = false ∧ pool'.history.staleUnclaimed = false := by
  cases moved with
  | resetPending => exact ⟨rfl, (fresh runs).2⟩
  | resetUnclaimed => exact ⟨(fresh runs).1, rfl⟩
  | stopWaiting | stopDiscarding | stopped => cases runs
  | _ => exact fresh runs

theorem stalePending (fresh : pool.state = .running → pool.history.stalePending = false)
    (counted : (top.map PoolFrame.stalePending).sum ≤ pool.history.stalePending.toNat) :
    pool'.history.stalePending.toNat + (top.map PoolFrame.stalePending).sum =
      pool.history.stalePending.toNat + (top'.map PoolFrame.stalePending).sum := by
  cases moved with
  | stopWaiting running | stopDiscarding _ running => rw [fresh running]; rfl
  | resetPending => exact le_antisymm counted (Bool.toNat_le _)
  | _ => rfl

theorem staleUnclaimed (fresh : pool.state = .running → pool.history.staleUnclaimed = false)
    (counted : (top.map PoolFrame.staleUnclaimed).sum ≤ pool.history.staleUnclaimed.toNat) :
    pool'.history.staleUnclaimed.toNat + (top.map PoolFrame.staleUnclaimed).sum =
      pool.history.staleUnclaimed.toNat + (top'.map PoolFrame.staleUnclaimed).sum := by
  cases moved with
  | stopWaiting running | stopDiscarding _ running => rw [fresh running]; rfl
  | resetUnclaimed => exact le_antisymm counted (Bool.toNat_le _)
  | _ => rfl

theorem unclaimed (regular : label ≠ .reset) (settled : (top.map PoolFrame.staleUnclaimed).sum = 0) :
    pool'.unclaimedTasks + (top'.map PoolFrame.publishing).sum + Multiset.card (pool.queued count) +
        (top.map PoolFrame.claimed).sum =
      pool.unclaimedTasks + (top.map PoolFrame.publishing).sum +
        Multiset.card (pool'.queued count) + (top'.map PoolFrame.claimed).sum := by
  cases moved with
  | enqueue bound =>
    rw [queued_push bound, card_cons]
    change (pool.unclaimedTasks + (1 : Nat) + _ + (0 : Nat) : Int) =
      pool.unclaimedTasks + (0 : Nat) + _ + (0 : Nat)
    omega
  | take bound taken =>
    rw [queued_take bound taken, card_cons]
    change (pool.unclaimedTasks + (0 : Nat) + _ + (0 : Nat) : Int) =
      pool.unclaimedTasks + (0 : Nat) + _ + (1 : Nat)
    omega
  | count =>
    change (pool.unclaimedTasks + 1 + (0 : Nat) + card (pool.queued count) + (0 : Nat) : Int) =
      pool.unclaimedTasks + (1 : Nat) + card (pool.queued count) + (0 : Nat)
    omega
  | claim =>
    change (pool.unclaimedTasks - 1 + (0 : Nat) + card (pool.queued count) + (1 : Nat) : Int) =
      pool.unclaimedTasks + (0 : Nat) + card (pool.queued count) + (0 : Nat)
    omega
  | clear => cases settled
  | resetPending | resetUnclaimed => exact absurd rfl regular
  | _ => rfl

theorem pending (regular : label ≠ .reset) (settled : (top.map PoolFrame.stalePending).sum = 0) :
    pool'.pendingTasks + (top'.map PoolFrame.unpended).sum + Multiset.card (pool.queued count) +
        (top.map PoolFrame.busy).sum =
      pool.pendingTasks + (top.map PoolFrame.unpended).sum +
        Multiset.card (pool'.queued count) + (top'.map PoolFrame.busy).sum := by
  cases moved with
  | enqueue bound =>
    rw [queued_push bound, card_cons]
    change (pool.pendingTasks + (1 : Nat) + _ + (0 : Nat) : Int) =
      pool.pendingTasks + (0 : Nat) + _ + (0 : Nat)
    omega
  | take bound taken =>
    rw [queued_take bound taken, card_cons]
    change (pool.pendingTasks + (0 : Nat) + _ + (0 : Nat) : Int) =
      pool.pendingTasks + (0 : Nat) + _ + (1 : Nat)
    omega
  | pend =>
    change (pool.pendingTasks + 1 + (0 : Nat) + card (pool.queued count) + (0 : Nat) : Int) =
      pool.pendingTasks + (1 : Nat) + card (pool.queued count) + (0 : Nat)
    omega
  | settle =>
    change (pool.pendingTasks - 1 + (0 : Nat) + card (pool.queued count) + (1 : Nat) : Int) =
      pool.pendingTasks + (0 : Nat) + card (pool.queued count) + (0 : Nat)
    omega
  | clear => cases settled
  | resetPending | resetUnclaimed => exact absurd rfl regular
  | _ => rfl

/-! Without a `shutdown(false)`. -/

end

theorem regular (moved : PoolMove count false label pool top pool' top') : label ≠ .reset := by
  cases moved with
  | resetPending discarded | resetUnclaimed discarded => cases discarded
  | _ => exact nofun

theorem fresh (moved : PoolMove count false label pool top pool' top')
    (settled : pool.history.staleUnclaimed = false) : pool'.history.staleUnclaimed = false := by
  cases moved with
  | stopWaiting | resetUnclaimed => rfl
  | stopDiscarding discarded => cases discarded
  | _ => exact settled

end PoolMove

structure Balanced (count : Nat) (pool : ThreadPool) (frames : Multiset PoolFrame) : Prop where
  submitting : pool.history.submitting = total PoolFrame.submitting frames
  window : pool.history.window = total PoolFrame.window frames
  publishing : pool.history.publishing = total PoolFrame.publishing frames
  busy : pool.history.busy = total PoolFrame.busy frames
  stalePending : pool.history.stalePending.toNat = total PoolFrame.stalePending frames
  staleUnclaimed : pool.history.staleUnclaimed.toNat = total PoolFrame.staleUnclaimed frames
  running : pool.state = .running →
    pool.history.stalePending = false ∧ pool.history.staleUnclaimed = false
  unclaimed : pool.history.staleUnclaimed = false →
    pool.unclaimedTasks + total PoolFrame.publishing frames =
      Multiset.card (pool.queued count) + total PoolFrame.claimed frames
  pending : pool.history.stalePending = false →
    pool.pendingTasks + total PoolFrame.unpended frames =
      Multiset.card (pool.queued count) + total PoolFrame.busy frames

structure Calm (count : Nat) (pool : ThreadPool) : Prop where
  queues : ∀ queue < count, pool.queues queue = []
  publishing : pool.history.publishing = 0
  busy : pool.history.busy = 0

variable {others : Multiset PoolFrame} {weight : PoolFrame → Nat} {top top' : List PoolFrame}

theorem total_move {before after : Nat} (moved : (top.map weight).sum ≤ before →
      after + (top.map weight).sum = before + (top'.map weight).sum)
    (tracked : before = total weight (others + top)) :
    after = total weight (others + top') := by
  rw [total_add] at tracked ⊢
  have := moved (by omega)
  omega

theorem settled_before {before after : Bool} (grows : (top.map weight).sum ≤ (top'.map weight).sum)
    (moved : (top.map weight).sum ≤ before.toNat →
      after.toNat + (top.map weight).sum = before.toNat + (top'.map weight).sum)
    (tracked : before.toNat = total weight (others + top))
    (settled : after = false) : before = false ∧ (top.map weight).sum = 0 := by
  have later := total_move moved tracked
  rw [settled, Bool.toNat_false, total_add] at later
  rw [total_add] at tracked
  have none : before.toNat = 0 := by omega
  exact ⟨Bool.toNat_eq_zero.mp none, by omega⟩

namespace Balanced

variable {count : Nat} {discards : Bool} {label : PoolLabel} {pool pool' : ThreadPool}
variable {others : Multiset PoolFrame} {top top' : List PoolFrame} (frames : Multiset PoolFrame)

theorem claimed_le_busy : total PoolFrame.claimed frames ≤ total PoolFrame.busy frames :=
  total_mono (fun frame => by cases frame <;> simp [PoolFrame.claimed, PoolFrame.busy]) frames

theorem publishing_le_submitting :
    total PoolFrame.publishing frames ≤ total PoolFrame.submitting frames :=
  total_mono (fun frame => by cases frame <;> simp [PoolFrame.publishing, PoolFrame.submitting])
    frames

theorem unpended_le_publishing :
    total PoolFrame.unpended frames ≤ total PoolFrame.publishing frames :=
  total_mono (fun frame => by cases frame <;> simp [PoolFrame.unpended, PoolFrame.publishing])
    frames

theorem unclaimed_move (moved : PoolMove count discards label pool top pool' top')
    (regular : label ≠ .reset)
    (balanced : Balanced count pool (others + top))
    (settled : pool'.history.staleUnclaimed = false) :
    pool'.unclaimedTasks + total PoolFrame.publishing (others + top') =
      Multiset.card (pool'.queued count) +
        total PoolFrame.claimed (others + top') := by
  have grows : (top.map PoolFrame.staleUnclaimed).sum ≤ (top'.map PoolFrame.staleUnclaimed).sum := by
    cases moved <;> first | exact Nat.le_refl _ | exact Nat.zero_le _ | exact absurd rfl regular
  obtain ⟨fresh, none⟩ := settled_before grows
    (moved.staleUnclaimed fun runs => (balanced.running runs).2) balanced.staleUnclaimed settled
  have before := balanced.unclaimed fresh
  have changes := moved.unclaimed regular none
  rw [total_add, total_add] at before ⊢
  omega

theorem pending_move (moved : PoolMove count discards label pool top pool' top')
    (regular : label ≠ .reset)
    (balanced : Balanced count pool (others + top))
    (settled : pool'.history.stalePending = false) :
    pool'.pendingTasks + total PoolFrame.unpended (others + top') =
      Multiset.card (pool'.queued count) +
        total PoolFrame.busy (others + top') := by
  have grows : (top.map PoolFrame.stalePending).sum ≤ (top'.map PoolFrame.stalePending).sum := by
    cases moved <;> first | exact Nat.le_refl _ | exact Nat.zero_le _ | exact absurd rfl regular
  obtain ⟨fresh, none⟩ := settled_before grows
    (moved.stalePending fun runs => (balanced.running runs).1) balanced.stalePending settled
  have before := balanced.pending fresh
  have changes := moved.pending regular none
  rw [total_add, total_add] at before ⊢
  omega

theorem calm_counts {frames : Multiset PoolFrame} (calm : Calm count pool)
    (balanced : Balanced count pool frames) :
    Multiset.card (pool.queued count) = 0 ∧ total PoolFrame.publishing frames = 0 ∧
      total PoolFrame.unpended frames = 0 ∧ total PoolFrame.claimed frames = 0 ∧
      total PoolFrame.busy frames = 0 := by
  have empty := card_eq_zero.mpr (queued_eq_zero.mpr calm.queues)
  have publishing := balanced.publishing
  have busy := balanced.busy
  rw [calm.publishing] at publishing
  rw [calm.busy] at busy
  have unpended := unpended_le_publishing frames
  have claimed := claimed_le_busy frames
  omega

theorem unclaimed_reset (moved : PoolMove count discards .reset pool top pool' top')
    (calm : Calm count pool)
    (balanced : Balanced count pool (others + top))
    (settled : pool'.history.staleUnclaimed = false) :
    pool'.unclaimedTasks + total PoolFrame.publishing (others + top') =
      Multiset.card (pool'.queued count) +
        total PoolFrame.claimed (others + top') := by
  obtain ⟨empty, publishing, -, claimed, -⟩ := calm_counts calm balanced
  cases moved with
  | resetPending =>
    -- the frame of this shutdown says that the counter is still to be stored
    have stale := balanced.staleUnclaimed
    rw [show pool.history.staleUnclaimed = false from settled, total_add] at stale
    cases stale
  | resetUnclaimed =>
    have none : total PoolFrame.publishing (others + ([.stopping] : List PoolFrame)) = 0 :=
      (total_same (by rfl)).trans publishing
    have unheld : total PoolFrame.claimed (others + ([.stopping] : List PoolFrame)) = 0 :=
      (total_same (by rfl)).trans claimed
    rw [none, unheld]
    change (0 + (0 : Nat) : Int) = card (pool.queued count) + (0 : Nat)
    rw [empty]
    rfl

theorem pending_reset (moved : PoolMove count discards .reset pool top pool' top')
    (calm : Calm count pool)
    (balanced : Balanced count pool (others + top))
    (settled : pool'.history.stalePending = false) :
    pool'.pendingTasks + total PoolFrame.unpended (others + top') =
      Multiset.card (pool'.queued count) +
        total PoolFrame.busy (others + top') := by
  obtain ⟨empty, -, unpended, -, busy⟩ := calm_counts calm balanced
  have before := balanced.pending
  cases moved with
  | resetPending =>
    have none : total PoolFrame.unpended (others + ([.resetting] : List PoolFrame)) = 0 :=
      (total_same (by rfl)).trans unpended
    have unheld : total PoolFrame.busy (others + ([.resetting] : List PoolFrame)) = 0 :=
      (total_same (by rfl)).trans busy
    rw [none, unheld]
    change (0 + (0 : Nat) : Int) = card (pool.queued count) + (0 : Nat)
    rw [empty]
    rfl
  | resetUnclaimed =>
    have counts := before settled
    rw [total_add, total_add] at counts ⊢
    exact counts

theorem move (calm : label = .reset → Calm count pool)
    (moved : PoolMove count discards label pool top pool' top')
    (balanced : Balanced count pool (others + top)) :
    Balanced count pool' (others + top') where
  submitting := total_move moved.submitting balanced.submitting
  window := total_move moved.window balanced.window
  publishing := total_move moved.publishing balanced.publishing
  busy := total_move moved.busy balanced.busy
  stalePending :=
    total_move (moved.stalePending fun runs => (balanced.running runs).1) balanced.stalePending
  staleUnclaimed :=
    total_move (moved.staleUnclaimed fun runs => (balanced.running runs).2) balanced.staleUnclaimed
  running := moved.running balanced.running
  unclaimed settled := by
    by_cases regular : label = .reset
    · subst regular
      exact unclaimed_reset moved (calm rfl) balanced settled
    · exact unclaimed_move moved regular balanced settled
  pending settled := by
    by_cases regular : label = .reset
    · subst regular
      exact pending_reset moved (calm rfl) balanced settled
    · exact pending_move moved regular balanced settled

theorem construct (count : Nat) :
    Balanced count {} ((List.range count).map PoolFrame.awake : List PoolFrame) := by
  have none (weight : PoolFrame → Nat) (light : ∀ worker, weight (.awake worker) = 0) :
      total weight ((List.range count).map PoolFrame.awake : List PoolFrame) = 0 := by
    simp [total, comp_def, light]
  have empty : queued count {} = 0 := queued_eq_zero.mpr fun _ _ => rfl
  constructor
  case running => exact fun _ => ⟨rfl, rfl⟩
  case unclaimed | pending =>
    intro _
    rw [none _ fun _ => rfl, none _ fun _ => rfl, empty]
    rfl
  all_goals exact (none _ fun _ => rfl).symm

end Balanced

section Counters

variable {config : WorkStealingConfig} {rules : Rules ThreadPool PoolLabel PoolProc PoolChoice}
variable {reached : Config ThreadPool PoolLabel PoolProc PoolChoice PoolAnswer}

/-- If `shutdown(false)` stores its zeros in a calm pool only, both counters read zero whenever no
submission or `shutdown(false)` is halfway, no deque holds a task and no worker has one. -/
theorem counters_settle (calls : ∀ procedure pool, rules.starts procedure pool →
      procedure.Submits config.numThreads ∨ ∃ waitForTasks, procedure = .shutdown waitForTasks)
    (calm : ∀ choice pool, rules.allows .reset choice pool → Calm config.numThreads pool)
    (run : Reaches (body config) rules (construct config) reached)
    (submitted : reached.shared.history.submitting = 0)
    (empty : ∀ queue < config.numThreads, reached.shared.queues queue = [])
    (unoccupied : reached.shared.history.busy = 0)
    (stored : reached.shared.history.stalePending = false ∧
      reached.shared.history.staleUnclaimed = false) :
    reached.shared.unclaimedTasks = 0 ∧ reached.shared.pendingTasks = 0 := by
  have any : Calls config.numThreads true (fun _ => True) rules :=
    ⟨fun procedure pool started => by simpa using calls procedure pool started, fun _ => rfl⟩
  obtain ⟨frames, balanced⟩ := pool_invariant config any (Balanced config.numThreads)
    (Balanced.construct _)
    (fun label choice pool pool' others top top' allowed moved before =>
      before.move (fun reset => calm choice pool (reset ▸ allowed)) moved) run
  have publishing := Balanced.publishing_le_submitting frames
  rw [← balanced.publishing, ← balanced.submitting, submitted] at publishing
  obtain ⟨none, unpublished, unpended, unclaimed, unheld⟩ :=
    balanced.calm_counts ⟨empty, Nat.le_zero.mp publishing, unoccupied⟩
  have claims := balanced.unclaimed stored.2
  have pends := balanced.pending stored.1
  omega

def soloPool : WorkStealingConfig where
  numThreads := 1
  maxQueueSizePerWorker := 0

def calmReferee : Referee ThreadPool PoolLabel PoolProc PoolChoice where
  allows label _ pool := label != .reset ||
    (pool.queues 0 == [] && pool.history.publishing == 0 && pool.history.busy == 0)
  starts procedure _ := procedure = .post none || procedure = .trySubmit none ||
    procedure = .shutdown true || procedure = .shutdown false

def turns (index steps : Nat) : List (Turn PoolProc PoolChoice) :=
  List.replicate steps (.run index {})

theorem starts_cases {procedure : PoolProc}
    (starts : (procedure = .post none || procedure = .trySubmit none ||
      procedure = .shutdown true || procedure = .shutdown false : Bool) = true) :
    procedure.Submits soloPool.numThreads ∨ ∃ waitForTasks, procedure = .shutdown waitForTasks := by
  simp only [Bool.or_eq_true, decide_eq_true_eq] at starts
  rcases starts with ((post | submit) | waits) | discards
  · exact .inl ⟨none, by simp, .inl post⟩
  · exact .inl ⟨none, by simp, .inr submit⟩
  · exact .inr ⟨true, waits⟩
  · exact .inr ⟨false, discards⟩

theorem counters_settle_discard :
    ∃ reached, Reaches (body soloPool) calmReferee.rules (construct soloPool) reached ∧
      reached.shared.history.executed = [0] ∧ reached.shared.state = .stopping ∧
      reached.shared.unclaimedTasks = 0 ∧ reached.shared.pendingTasks = 0 := by
  obtain ⟨reached, run, executed, state, submitted, empty, unoccupied, stored⟩ :=
    played_reaches (body soloPool) calmReferee (construct soloPool)
    (.start (.post none) :: turns 1 11 ++ turns 0 6 ++ .start (.shutdown false) :: turns 2 4)
    (fun reached => reached.shared.history.executed = [0] ∧ reached.shared.state = .stopping ∧
      reached.shared.history.submitting = 0 ∧ reached.shared.queues 0 = [] ∧
      reached.shared.history.busy = 0 ∧ reached.shared.history.stalePending = false ∧
      reached.shared.history.staleUnclaimed = false)
    (by decide +kernel)
  refine ⟨reached, run, executed, state, ?_⟩
  refine counters_settle (fun procedure pool => starts_cases) (fun choice pool allowed => ?_) run
    submitted (fun queue bound => ?_) unoccupied stored
  · simp only [Referee.rules, calmReferee, bne_self_eq_false, Bool.false_or, Bool.and_eq_true,
      beq_iff_eq] at allowed
    refine ⟨fun queue bound => ?_, allowed.1.2, allowed.2⟩
    obtain rfl := Nat.lt_one_iff.mp bound
    exact allowed.1.1
  · obtain rfl := Nat.lt_one_iff.mp bound
    exact empty

/-- `shutdown(false)` stores its zeros while a worker holds a task that it has popped and
not yet counted out: the worker then counts both counters below zero. -/
theorem discard_wraps_counters :
    ∃ reached, Reaches (body soloPool) ⟨fun _ _ _ => True, fun procedure _ =>
        procedure = .post none ∨ procedure = .shutdown false⟩ (construct soloPool) reached ∧
      reached.shared.history.submitting = 0 ∧ reached.shared.queues 0 = [] ∧
      reached.shared.history.busy = 0 ∧ reached.shared.history.stalePending = false ∧
      reached.shared.history.staleUnclaimed = false ∧
      reached.shared.unclaimedTasks = -1 ∧ reached.shared.pendingTasks = -1 := by
  refine (played_reaches (body soloPool)
    ⟨fun _ _ _ => true, fun procedure _ => procedure = .post none || procedure = .shutdown false⟩ _
    (.start (.post none) :: turns 1 11 ++ turns 0 1 ++ .start (.shutdown false) :: turns 2 4 ++
      turns 0 5) _ (by decide +kernel)).imp fun reached ran =>
    ⟨ran.1.mono (fun _ _ _ _ => trivial) fun procedure _ started => ?_, ran.2⟩
  simpa [Referee.rules] using started

end Counters

end AiPipe.WorkStealing
