import AiPipe.Pool.Balance

/-!
Sleeping workers.  While all workers sleep or are about to, a task that has been counted has a
submission behind it that will still notify somebody.
-/

namespace AiPipe.WorkStealing

open Concurrency Multiset PoolFrame

namespace PoolFrame

def worker : PoolFrame → List Nat
  | claiming worker _ | starting worker _ | executing worker _ | finishing worker _ => [worker]
  | awake worker | draining worker | leaving worker | holding worker | idle worker
  | parked worker => [worker]
  | _ => []

def asleep : PoolFrame → List Nat
  | parked worker => [worker]
  | _ => []

def holder : PoolFrame → Nat
  | locked _ | holding _ | idle _ | stopLocked => 1
  | _ => 0

def dozing : PoolFrame → Nat
  | idle _ => 1
  | _ => 0

def unheard : PoolFrame → Nat
  | counted _ => 1
  | _ => 0

def notifying : PoolFrame → Nat
  | locked _ | signalling _ => 1
  | _ => 0

end PoolFrame

def Roster (count : Nat) (pool : ThreadPool) (frames : Multiset PoolFrame) : Prop :=
  collect PoolFrame.worker frames + (pool.ended : Multiset Nat) = Multiset.range count

section Roster

variable {count : Nat} {discards : Bool} {label : PoolLabel} {pool pool' : ThreadPool}
variable {others frames : Multiset PoolFrame} {top top' : List PoolFrame}

theorem Roster.move (moved : PoolMove count discards label pool top pool' top')
    (roster : Roster count pool (others + top)) :
    Roster count pool' (others + top') := by
  have kept : (top'.flatMap worker : Multiset Nat) + (pool'.ended : Multiset Nat) =
      (top.flatMap worker : Multiset Nat) + (pool.ended : Multiset Nat) := by
    cases moved <;> rfl
  rw [Roster, collect_add, add_assoc] at roster ⊢
  rw [kept]
  exact roster

theorem Roster.construct (count : Nat) :
    Roster count {} ((List.range count).map PoolFrame.awake : List PoolFrame) := by
  rw [Roster, collect, coe_bind, List.flatMap_map]
  change ((List.range count).flatMap (fun worker => [worker]) : Multiset Nat) + 0 = _
  rw [List.flatMap_singleton', add_zero]
  rfl

theorem Roster.lt (roster : Roster count pool frames) {frame : PoolFrame} (here : frame ∈ frames)
    {worker : Nat} (named : worker ∈ frame.worker) : worker < count := by
  have member : worker ∈ Multiset.range count := by
    rw [← roster]
    exact mem_add.mpr (.inl (mem_bind.mpr ⟨frame, here, named⟩))
  exact mem_range.mp member

theorem Roster.unique (roster : Roster count pool frames) {first second : PoolFrame}
    (one : first ∈ frames) (other : second ∈ frames) {worker : Nat}
    (here : worker ∈ first.worker) (there : worker ∈ second.worker) : first = second := by
  have nodup : (collect PoolFrame.worker frames).Nodup :=
    nodup_of_le (Multiset.le_add_right ..) (roster ▸ nodup_range count)
  exact collect_unique nodup one other here there

end Roster

def Sleepy (pool : ThreadPool) (frames : Multiset PoolFrame) (worker : Nat) : Prop :=
  worker ∈ pool.waiting ∨ .idle worker ∈ frames

structure Sleepers (count : Nat) (pool : ThreadPool) (frames : Multiset PoolFrame) : Prop where
  roster : Roster count pool frames
  mutex : pool.globalMutex.toNat = total PoolFrame.holder frames
  waiting : (pool.waiting : Multiset Nat) ≤ collect PoolFrame.asleep frames
  heard : 0 < count → pool.unclaimedTasks ≠ 0 → (∀ worker < count, Sleepy pool frames worker) →
    0 < total PoolFrame.unheard frames ∨
      total PoolFrame.dozing frames = 0 ∧ 0 < total PoolFrame.notifying frames

namespace Sleepers

variable {count : Nat} {discards : Bool} {label : PoolLabel} {pool pool' : ThreadPool}
variable {others frames : Multiset PoolFrame} {top top' : List PoolFrame}

theorem mutex_move (moved : PoolMove count discards label pool top pool' top')
    (counted : (top.map PoolFrame.holder).sum ≤ pool.globalMutex.toNat) :
    pool'.globalMutex.toNat + (top.map PoolFrame.holder).sum =
      pool.globalMutex.toNat + (top'.map PoolFrame.holder).sum := by
  cases moved with
  | lock free | acquire free | stopLock free => rw [free]; rfl
  | unlock | release | block | stopUnlock => exact le_antisymm counted (Bool.toNat_le _)
  | _ => rfl

theorem waiting_move (moved : PoolMove count discards label pool top pool' top')
    (before : (pool.waiting : Multiset Nat) ≤
      collect PoolFrame.asleep (others + top)) :
    (pool'.waiting : Multiset Nat) ≤ collect PoolFrame.asleep (others + top') := by
  cases moved with
  | notify index =>
    have fewer := coe_le.mpr (List.eraseIdx_sublist pool.waiting index).subperm
    exact (fewer.trans before).trans_eq (collect_same rfl)
  | @block _ worker =>
    rw [collect_none rfl] at before
    rw [collect_one rfl]
    exact cons_le_cons worker before
  | @wake _ worker =>
    rw [collect_one rfl] at before
    rw [collect_none rfl]
    have fewer := erase_le_erase worker before
    rw [erase_cons_head] at fewer
    exact fewer
  | notifyAll => exact zero_le _
  | _ => exact before.trans_eq (collect_same rfl)

variable {worker : Nat}

theorem parked_of_waiting
    (waiting : (pool.waiting : Multiset Nat) ≤ collect PoolFrame.asleep frames)
    (waits : worker ∈ pool.waiting) : .parked worker ∈ frames := by
  obtain ⟨frame, here, named⟩ := mem_bind.mp (mem_of_le waiting waits)
  cases frame with
  | parked other => exact List.mem_singleton.mp named ▸ here
  | _ => cases named

theorem not_sleepy (roster : Roster count pool frames)
    (waiting : (pool.waiting : Multiset Nat) ≤ collect PoolFrame.asleep frames)
    {frame : PoolFrame} (here : frame ∈ frames) (named : frame.worker = [worker])
    (neither : frame ≠ .parked worker ∧ frame ≠ .idle worker) : ¬Sleepy pool frames worker := by
  have place : worker ∈ frame.worker := named ▸ List.mem_singleton_self worker
  rintro (waits | dozes)
  · exact neither.1 (roster.unique here (parked_of_waiting waiting waits) place (.head _))
  · exact neither.2 (roster.unique here dozes place (.head _))

theorem heard_awake (roster : Roster count pool' (others + top'))
    (waiting : (pool'.waiting : Multiset Nat) ≤
      collect PoolFrame.asleep (others + top'))
    {frame : PoolFrame} (here : frame ∈ top') (named : frame.worker = [worker])
    (neither : frame ≠ .parked worker ∧ frame ≠ .idle worker)
    (all : ∀ worker < count, Sleepy pool' (others + top') worker) :
    False := by
  have present : frame ∈ others + top' := mem_add.mpr (.inr here)
  have place : worker ∈ frame.worker := named ▸ List.mem_singleton_self worker
  exact not_sleepy roster waiting present named neither (all worker (roster.lt present place))

theorem heard_same (sleepers : Sleepers count pool (others + top))
    (some : 0 < count) (counts : pool'.unclaimedTasks ≠ 0)
    (all : ∀ worker < count, Sleepy pool' (others + top') worker)
    (waiting : ∀ worker ∈ pool'.waiting, worker ∈ pool.waiting)
    (unclaimed : pool'.unclaimedTasks = pool.unclaimedTasks)
    (idle : ∀ worker, .idle worker ∉ top')
    (unheard : (top'.map PoolFrame.unheard).sum = (top.map PoolFrame.unheard).sum)
    (dozing : (top'.map PoolFrame.dozing).sum = (top.map PoolFrame.dozing).sum)
    (notifying : (top'.map PoolFrame.notifying).sum = (top.map PoolFrame.notifying).sum) :
    0 < total PoolFrame.unheard (others + top') ∨
      total PoolFrame.dozing (others + top') = 0 ∧
        0 < total PoolFrame.notifying (others + top') := by
  rw [total_same unheard, total_same dozing, total_same notifying]
  refine sleepers.heard some (unclaimed ▸ counts) fun worker bound => ?_
  rcases all worker bound with waits | dozes
  · exact .inl (waiting worker waits)
  · rcases mem_add.mp dozes with other | new
    · exact .inr (mem_add.mpr (.inl other))
    · exact absurd new (idle worker)

theorem waiting_nodup (sleepers : Sleepers count pool frames) : pool.waiting.Nodup := by
  have places : collect asleep frames ≤ collect worker frames :=
    collect_mono (fun frame => by cases frame <;> simp [asleep, worker]) frames
  have all : collect worker frames ≤ Multiset.range count :=
    sleepers.roster ▸ Multiset.le_add_right ..
  exact coe_nodup.mp
    (nodup_of_le ((sleepers.waiting.trans places).trans all) (nodup_range count))

theorem unheard_le_submitting (frames : Multiset PoolFrame) :
    total PoolFrame.unheard frames ≤ total PoolFrame.submitting frames :=
  total_mono (fun frame => by cases frame <;> simp [unheard, submitting]) frames

theorem notifying_le_submitting (frames : Multiset PoolFrame) :
    total PoolFrame.notifying frames ≤ total PoolFrame.submitting frames :=
  total_mono (fun frame => by cases frame <;> simp [notifying, submitting])
    frames

theorem dozing_pos (dozes : .idle worker ∈ frames) : 0 < total PoolFrame.dozing frames := by
  obtain ⟨rest, rfl⟩ := exists_cons_of_mem dozes
  simp [total, dozing]

theorem heard_notify {task index : Nat} (here : index < pool.waiting.length ∨ pool.waiting = [])
    (sleepers : Sleepers count pool (others + ([.signalling task] : List PoolFrame)))
    (some : 0 < count) (counts : pool.unclaimedTasks ≠ 0)
    (all : ∀ worker < count, Sleepy { pool with waiting := pool.waiting.eraseIdx index }
      (others + ([.announced task] : List PoolFrame)) worker) :
    0 < total unheard (others + ([.announced task] : List PoolFrame)) := by
  have idle (worker : Nat) (dozes : .idle worker ∈ others + ([.announced task] : List PoolFrame)) :
      .idle worker ∈ others + ([.signalling task] : List PoolFrame) := by
    rcases mem_add.mp dozes with other | new
    · exact mem_add.mpr (.inl other)
    · cases List.mem_singleton.mp new
  rcases here with bound | nobody
  · -- the notified worker is still parked, so it has no other place
    have place := parked_of_waiting sleepers.waiting (List.getElem_mem bound)
    rcases all _ (sleepers.roster.lt place (.head _)) with waits | dozes
    · rw [← List.Nodup.erase_getElem sleepers.waiting_nodup index bound] at waits
      exact absurd waits sleepers.waiting_nodup.not_mem_erase
    · cases sleepers.roster.unique place (idle _ dozes) (.head _) (.head _)
  · -- nobody waits, so somebody dozes, and only an unheard submission can be behind that
    have dozes (worker : Nat) (bound : worker < count) :
        .idle worker ∈ others + ([.signalling task] : List PoolFrame) := by
      rcases all worker bound with waits | dozes
      · rw [nobody] at waits
        cases waits
      · exact idle worker dozes
    rcases sleepers.heard some counts fun worker bound => .inr (dozes worker bound) with
      unheard | ⟨none, -⟩
    · rw [total_add] at unheard ⊢
      exact unheard
    · exact absurd none (Nat.ne_of_gt (dozing_pos (dozes 0 some)))

theorem heard_lock {task : Nat} (free : pool.globalMutex = false)
    (sleepers : Sleepers count pool (others + ([.counted task] : List PoolFrame))) :
    total PoolFrame.dozing (others + ([.locked task] : List PoolFrame)) = 0 ∧
      0 < total PoolFrame.notifying (others + ([.locked task] : List PoolFrame)) := by
  have holders := sleepers.mutex
  have fewer : total dozing others ≤ total holder others :=
    total_mono (fun frame => by cases frame <;> simp [dozing, holder]) others
  rw [free, total_add, Bool.toNat_false] at holders
  rw [total_add, total_add]
  simp [dozing, notifying]
  omega

theorem heard_block (sleepers : Sleepers count pool (others + ([.idle worker] : List PoolFrame)))
    (some : 0 < count) (counts : pool.unclaimedTasks ≠ 0)
    (all : ∀ other < count, Sleepy { pool with
        globalMutex := false, waiting := worker :: pool.waiting }
      (others + ([.parked worker] : List PoolFrame)) other) :
    0 < total unheard (others + ([.parked worker] : List PoolFrame)) := by
  have own : .idle worker ∈ others + ([.idle worker] : List PoolFrame) :=
    mem_add.mpr (.inr (.head _))
  have before (other : Nat) (bound : other < count) :
      Sleepy pool (others + ([.idle worker] : List PoolFrame)) other := by
    rcases all other bound with waits | dozes
    · rcases List.mem_cons.mp waits with rfl | waits
      · exact .inr own
      · exact .inl waits
    · rcases mem_add.mp dozes with elsewhere | new
      · exact .inr (mem_add.mpr (.inl elsewhere))
      · cases List.mem_singleton.mp new
  rcases sleepers.heard some counts before with unheard | ⟨none, -⟩
  · rw [total_add] at unheard ⊢
    exact unheard
  · exact absurd none (Nat.ne_of_gt (dozing_pos own))

theorem heard_move (moved : PoolMove count discards label pool top pool' top')
    (sleepers : Sleepers count pool (others + top))
    (roster : Roster count pool' (others + top'))
    (waiting : (pool'.waiting : Multiset Nat) ≤
      collect PoolFrame.asleep (others + top'))
    (some : 0 < count) (counts : pool'.unclaimedTasks ≠ 0)
    (all : ∀ worker < count, Sleepy pool' (others + top') worker) :
    0 < total PoolFrame.unheard (others + top') ∨
      total PoolFrame.dozing (others + top') = 0 ∧
        0 < total PoolFrame.notifying (others + top') := by
  cases moved with
  | count =>
    left
    rw [total_add]
    exact Nat.succ_pos _
  | lock free => exact .inr (heard_lock free sleepers)
  | notify index here => exact .inl (heard_notify here sleepers some counts all)
  | claim | rouse | wake => exact (heard_awake roster waiting (.head _) rfl ⟨nofun, nofun⟩ all).elim
  | seeZero zero => exact absurd zero counts
  | resetUnclaimed => exact absurd rfl counts
  | block => exact .inl (heard_block sleepers some counts all)
  | notifyAll =>
    exact heard_same sleepers some counts all (fun _ waits => by simp at waits) rfl
      (fun _ => by simp) rfl rfl rfl
  | _ =>
    exact heard_same sleepers some counts all (fun _ waits => waits) rfl (fun _ => by simp) rfl rfl
      rfl

theorem move (moved : PoolMove count discards label pool top pool' top')
    (sleepers : Sleepers count pool (others + top)) :
    Sleepers count pool' (others + top') := by
  have roster := sleepers.roster.move moved
  have waiting := waiting_move moved sleepers.waiting
  exact ⟨roster, total_move (mutex_move moved) sleepers.mutex, waiting,
    heard_move moved sleepers roster waiting⟩

theorem construct (count : Nat) :
    Sleepers count {} ((List.range count).map PoolFrame.awake : List PoolFrame) where
  roster := Roster.construct count
  mutex := by simp [total, Function.comp_def, holder]
  waiting := zero_le _
  heard := fun _ counts => absurd rfl counts

end Sleepers

section Wakeup

variable {config : WorkStealingConfig} {rules : Rules ThreadPool PoolLabel PoolProc PoolChoice}
variable {reached : Config ThreadPool PoolLabel PoolProc PoolChoice PoolAnswer}

/-- In a pool that is not shut down: when no submission is in progress and every worker
waits without a notification, then there is no task to be claimed. -/
theorem sleepers_have_no_task (calls : ∀ procedure pool, rules.starts procedure pool →
      procedure.Submits config.numThreads)
    (run : Reaches (body config) rules (construct config) reached)
    (submitted : reached.shared.history.submitting = 0)
    (asleep : ∀ worker < config.numThreads, worker ∈ reached.shared.waiting) :
    (∀ queue < config.numThreads, reached.shared.queues queue = []) ∧
      reached.shared.unclaimedTasks = 0 := by
  have submissions : Calls config.numThreads false (fun _ => False) rules :=
    ⟨fun procedure pool started => .inl (calls procedure pool started), False.elim⟩
  obtain ⟨frames, balanced, sleepers, fresh⟩ := pool_invariant config submissions
    (fun pool frames => Balanced config.numThreads pool frames ∧
      Sleepers config.numThreads pool frames ∧ pool.history.staleUnclaimed = false)
    ⟨Balanced.construct _, Sleepers.construct _, rfl⟩
    (fun label choice pool pool' others top top' _ moved before =>
      ⟨before.1.move (fun reset => absurd reset moved.regular) moved, before.2.1.move moved,
        moved.fresh before.2.2⟩) run
  -- a place at a task would be a second one for its worker
  have unheld : total claimed frames = 0 := by
    refine total_eq_zero fun frame here => ?_
    cases frame with
    | claiming worker task =>
      have bound := sleepers.roster.lt here (.head _)
      have place := Sleepers.parked_of_waiting sleepers.waiting (asleep worker bound)
      cases sleepers.roster.unique here place (.head _) (.head _)
    | _ => rfl
  have counts := balanced.unclaimed fresh
  have publishing := Balanced.publishing_le_submitting frames
  have unheard := Sleepers.unheard_le_submitting frames
  have notifying := Sleepers.notifying_le_submitting frames
  rw [← balanced.submitting, submitted] at publishing unheard notifying
  have heard : reached.shared.unclaimedTasks = 0 := by
    by_contra counted
    have some : 0 < config.numThreads := by
      by_contra none
      have empty : reached.shared.queued config.numThreads = 0 :=
        ThreadPool.queued_eq_zero.mpr fun queue bound => absurd (Nat.zero_lt_of_lt bound) none
      rw [empty, card_zero] at counts
      omega
    have late := sleepers.heard some counted fun worker bound => .inl (asleep worker bound)
    omega
  have empty : card (reached.shared.queued config.numThreads) = 0 := by omega
  exact ⟨ThreadPool.queued_eq_zero.mp (card_eq_zero.mp empty), heard⟩

def postReferee : Referee ThreadPool PoolLabel PoolProc PoolChoice where
  allows _ _ _ := true
  starts procedure _ := procedure = .post none

theorem sleepers_have_no_task_again :
    ∃ reached, Reaches (body soloPool) postReferee.rules (construct soloPool) reached ∧
      reached.shared.history.executed = [0] ∧ reached.shared.waiting = [0] ∧
      reached.shared.queues 0 = [] ∧ reached.shared.unclaimedTasks = 0 := by
  obtain ⟨reached, run, executed, waiting, submitted⟩ :=
    played_reaches (body soloPool) postReferee (construct soloPool)
    (turns 0 6 ++ .start (.post none) :: turns 1 11 ++ turns 0 16)
    (fun reached => reached.shared.history.executed = [0] ∧ reached.shared.waiting = [0] ∧
      reached.shared.history.submitting = 0)
    (by decide +kernel)
  have settled := sleepers_have_no_task
    (fun procedure pool starts => ⟨none, by simp, .inl (of_decide_eq_true starts)⟩) run
    submitted fun worker bound => by
      obtain rfl := Nat.lt_one_iff.mp bound
      rw [waiting]
      exact .head _
  exact ⟨reached, run, executed, waiting, settled.1 0 Nat.one_pos, settled.2⟩

end Wakeup

end AiPipe.WorkStealing
