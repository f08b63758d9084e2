import AiPipe.Counter
import AiPipe.Streaming

/-!
Wake-ups.  A producer that finds a node busy relies on whoever restores it.  A demand says what
makes a waiting node due, and a due node always has a scheduling attempt that has read nothing
to the contrary.
-/

namespace AiPipe

open Concurrency AiPipe.Frame List Function

variable {π : Type} {env : Env}

/-- Whatever has its inputs is scheduled at once, as the default stream scheduler does. -/
def SchedulerStrategy.Eager (scheduler : SchedulerStrategy) : Prop :=
  ∀ now context, context.allInputsReady = true ∨
      context.isSourceNode = true ∧ context.hasInitialInput = true →
    (scheduler.shouldSchedule now context).decision = .scheduleNow

theorem eager_stream : (streamSchedulerStrategy {}).Eager := by
  intro now context ready
  simp only [streamSchedulerStrategy, lt_irrefl, false_and, if_false,
    StreamSchedulerConfig.readyDecision, Bool.false_eq_true]
  rcases ready with all | ⟨source, initial⟩
  · split
    · rfl
    · rfl
  · rw [if_pos (by simp [source, initial])]
    rfl

structure Demand where
  node : Nat
  full : List Nat
  closed : List Nat

namespace Demand

variable (demand : Demand)

structure Due (seen : View π) : Prop where
  waiting : seen.exec demand.node = .waiting
  full : ∀ port ∈ demand.full, (seen.queue demand.node port).empty = false
  closed : ∀ port ∈ demand.closed,
    seen.latched demand.node port = true ∧ (seen.queue demand.node port).empty = true

structure Clear (observed : List Obs) : Prop where
  full : ∀ port ∈ demand.full, .dry port true ∉ observed
  closed : ∀ port ∈ demand.closed, .latched port false ∉ observed ∧ .dry port false ∉ observed

def Heeds : Frame π → Prop
  | .eval node observed => node = demand.node ∧ demand.Clear observed
  | .decided node _ => node = demand.node
  | _ => False

structure Enough (env : Env) : Prop where
  known : demand.node < env.graph.nodeCount
  some : env.portCount demand.node ≠ 0 → ∃ port ∈ demand.full, port < env.portCount demand.node
  enough : (∀ port < env.portCount demand.node, port ∈ demand.full ∨ port ∈ demand.closed) ∨
    env.graph.isSource demand.node = true ∧
      ∃ port ∈ demand.full, port < env.portCount demand.node

variable {demand}

theorem clear_nil : demand.Clear [] := ⟨by simp, by simp⟩

theorem Clear.mono {observed fewer : List Obs} (clear : demand.Clear observed)
    (sub : fewer ⊆ observed) : demand.Clear fewer where
  full port here := fun seen => clear.full port here (sub seen)
  closed port here := ⟨fun seen => (clear.closed port here).1 (sub seen),
    fun seen => (clear.closed port here).2 (sub seen)⟩

theorem Clear.observe {seen : View π} {observed : List Obs} {observation : Obs}
    (clear : demand.Clear observed) (due : demand.Due seen)
    (holds : observation.Holds seen demand.node) : demand.Clear (observation :: observed) := by
  refine ⟨fun port here => ?_, fun port here => ⟨?_, ?_⟩⟩ <;>
    rw [mem_cons, not_or] <;> refine ⟨?_, ?_⟩
  · rintro rfl
    simp [Obs.Holds, due.full port here] at holds
  · exact clear.full port here
  · rintro rfl
    simp [Obs.Holds, (due.closed port here).1] at holds
  · exact (clear.closed port here).1
  · rintro rfl
    simp [Obs.Holds, (due.closed port here).2] at holds
  · exact (clear.closed port here).2

end Demand

section Decisions

variable {demand : Demand} {ports : List Nat} {observed : List Obs} {context : SchedulingContext}

theorem NotDrained.not_closed {port : Nat} {early : List Obs} (open' : NotDrained port early)
    (clear : demand.Clear early) : port ∉ demand.closed := by
  intro closed
  rcases open' with rfl | rfl
  · exact (clear.closed port closed).1 (by simp)
  · exact (clear.closed port closed).2 (by simp)

theorem Tally.all_ready (tally : Tally ports observed context) (clear : demand.Clear observed)
    (covered : ∀ port ∈ ports, port ∈ demand.full ∨ port ∈ demand.closed) :
    context.expectedInputCount = context.readyInputCount := by
  induction tally with
  | nil => rfl
  | @drained ports port observed context _ ih =>
    exact ih (clear.mono (by simp)) fun other here => covered other (by simp [here])
  | @dry ports port early observed context open' _ ih =>
    rcases covered port (by simp) with full | closed
    · exact absurd mem_cons_self (clear.full port full)
    · exact absurd closed (open'.not_closed (clear.mono (by simp)))
  | @ready ports port early observed context open' _ ih =>
    have before := ih (clear.mono fun other here => by simp [here])
      fun other here => covered other (by simp [here])
    simp only [before]

theorem Tally.some_ready (tally : Tally ports observed context) {port : Nat} (known : port ∈ ports)
    (full : .dry port true ∉ observed) : 0 < context.readyInputCount := by
  induction tally with
  | nil => simp at known
  | @drained ports last observed context _ ih =>
    simp only [mem_cons, not_or] at full
    refine ih ?_ full.2.2
    simpa [show port ≠ last from fun same => full.1 (same ▸ rfl)] using known
  | @dry ports last early observed context _ _ ih =>
    simp only [mem_cons, mem_append, not_or] at full
    refine ih ?_ full.2.2
    simpa [show port ≠ last from fun same => full.1 (same ▸ rfl)] using known
  | ready => exact Nat.succ_pos _

theorem Env.Decides.now {decision : ScheduleDecision} (eager : env.scheduler.Eager)
    (enough : demand.Enough env) (clear : demand.Clear observed)
    (decides : env.Decides demand.node observed decision) : decision = .scheduleNow := by
  obtain ⟨tallied, earlier, context, executions, last, now, rfl, tally, rfl⟩ := decides
  have clear : demand.Clear tallied := clear.mono (by simp)
  refine eager _ _ ?_
  rcases enough.enough with all | ⟨source, port, full, known⟩
  · left
    have same := tally.all_ready clear fun port here => all port (mem_range.mp here)
    simp [SchedulingContext.allInputsReady, Env.complete, same]
  · right
    have ready := tally.some_ready (mem_range.mpr known) (clear.full port full)
    exact ⟨source, by simp [Env.complete, ready]⟩

end Decisions

section Steps

variable {demand : Demand} {label : Label π} {choice : Choice π} {seen seen' : View π}
  {top top' : List (Frame π)}

def Frame.undisturbed : Frame π → Bool
  | .crashed => false
  | .halted => false
  | .task _ _ .refused => false
  | frame => !frame.resets

def Demand.Kept (demand : Demand) (seen : View π) (top : List (Frame π)) (seen' : View π)
    (top' : List (Frame π)) : Prop :=
  demand.Due seen' → (∃ frame ∈ top', demand.Heeds frame) ∨
    demand.Due seen ∧ ∀ frame ∈ top, ¬ demand.Heeds frame

variable {node : Nat}

theorem Demand.Due.of_setExec {value : NodeExecutionState} (busy : value ≠ .waiting)
    (due : demand.Due (seen.setExec node value)) : node ≠ demand.node ∧ demand.Due seen := by
  obtain ⟨waiting, full, closed⟩ := due
  have other : node ≠ demand.node := by
    rintro rfl
    exact busy (by simpa [View.setExec] using waiting)
  refine ⟨other, ?_, full, closed⟩
  simpa [View.setExec, update_of_ne (Ne.symm other)] using waiting

theorem Demand.Kept.quiet (same : demand.Due seen' → demand.Due seen)
    (none : ∀ frame ∈ top, ¬ demand.Heeds frame) : demand.Kept seen top seen' top' :=
  fun due => .inr ⟨same due, none⟩

theorem Demand.Kept.attempt (fresh : .eval node [] ∈ top')
    (elsewhere : node ≠ demand.node → demand.Due seen' → demand.Due seen)
    (none : ∀ frame ∈ top, ¬ demand.Heeds frame) : demand.Kept seen top seen' top' := by
  intro due
  by_cases same : node = demand.node
  · exact .inl ⟨_, fresh, same, Demand.clear_nil⟩
  · exact .inr ⟨elsewhere same due, none⟩

theorem Demand.Due.elsewhere (due : demand.Due seen') (other : node ≠ demand.node)
    (exec : ∀ node', node' ≠ node → seen'.exec node' = seen.exec node')
    (queue : ∀ node', node' ≠ node → seen'.queue node' = seen.queue node')
    (latched : ∀ node', node' ≠ node → seen'.latched node' = seen.latched node') :
    demand.Due seen := by
  have here := Ne.symm other
  obtain ⟨waiting, full, closed⟩ := due
  rw [exec _ here] at waiting
  simp only [queue _ here, latched _ here] at full closed
  exact ⟨waiting, full, closed⟩

theorem ScheduleMove.kept (moved : ScheduleMove label choice seen top seen' top')
    (plain : top.all Frame.undisturbed = true) : demand.Kept seen top seen' top' := by
  cases moved
  case observe node observed observation holds =>
    intro due
    by_cases heeds : demand.Heeds (.eval node observed : Frame π)
    · obtain ⟨rfl, clear⟩ := heeds
      exact .inl ⟨_, mem_singleton_self _, rfl, clear.observe due holds⟩
    · exact .inr ⟨due, by simpa using heeds⟩
  case notWaiting node observed lost =>
    intro due
    refine .inr ⟨due, ?_⟩
    rintro frame here heeds
    obtain rfl := mem_singleton.mp here
    exact lost (heeds.1 ▸ due.waiting)
  case claim node reason waiting =>
    intro due
    obtain ⟨other, due⟩ := due.of_setExec (by decide)
    exact .inr ⟨due, by simpa [Demand.Heeds] using other⟩
  case claimLost node reason lost =>
    intro due
    refine .inr ⟨due, ?_⟩
    rintro frame here heeds
    obtain rfl := mem_singleton.mp here
    exact lost (heeds ▸ due.waiting)
  case rollBack => simp [undisturbed] at plain
  case abort => simp [undisturbed] at plain
  case begin node ready =>
    exact .quiet (fun due => (due.of_setExec (by decide)).2) (by simp [Demand.Heeds])
  case announce => exact .quiet (fun due => ⟨due.1, due.2, due.3⟩) (by simp [Demand.Heeds])
  all_goals exact .quiet (fun due => due) (by simp [Demand.Heeds])

theorem PortQueue.empty_of_pop {queue : PortQueue π} (some : queue.pop.empty = false) :
    queue.empty = false := by
  simp only [PortQueue.empty, PortQueue.size, PortQueue.pop, beq_eq_false_iff_ne] at some ⊢
  omega

theorem Demand.Due.of_setQueue {node port : Nat} {queue : PortQueue π} (other : node ≠ demand.node)
    (due : demand.Due (seen.setQueue node port queue)) : demand.Due seen :=
  due.elsewhere other (fun _ _ => rfl)
    (fun _ different => by simp [View.setQueue, update_of_ne different]) fun _ _ => rfl

/-- A task that gathers keeps its node busy, so that its pops are of no consequence. -/
theorem GatherMove.kept (moved : GatherMove env label choice seen top seen' top')
    (working : ∀ node ∈ top.flatMap Frame.working, seen.exec node = .executing) :
    demand.Kept seen top seen' top' := by
  have popped {node port : Nat} (busy : seen.exec node = .executing)
      (due : demand.Due (seen.pop node port)) : demand.Due seen := by
    refine due.of_setQueue ?_
    rintro rfl
    have waiting : seen.exec demand.node = .waiting := due.waiting
    rw [busy] at waiting
    cases waiting
  cases moved
  case pop => exact .quiet (popped (working _ (by simp [Frame.working]))) (by simp [Demand.Heeds])
  case discard =>
    exact .quiet (popped (working _ (by simp [Frame.working]))) (by simp [Demand.Heeds])
  case discardAsked =>
    exact .quiet (popped (working _ (by simp [Frame.working]))) (by simp [Demand.Heeds])
  all_goals exact .quiet (fun due => ⟨due.1, due.2, due.3⟩) (by simp [Demand.Heeds])

theorem PushMove.kept (moved : PushMove env label choice seen top seen' top')
    (evicts : ∀ port ∈ demand.closed, label = .evict demand.node port →
      seen.latched demand.node port = false) :
    demand.Kept seen top seen' top' := by
  cases moved
  case enqueue node port data route pressure room =>
    exact .attempt (mem_singleton_self _) (fun other due => due.of_setQueue other)
      (by simp [Demand.Heeds])
  case evict node port data route pressure head reason _ _ found =>
    refine .quiet (fun due => ?_) (by simp [Demand.Heeds])
    by_cases other : node = demand.node
    swap
    · exact due.of_setQueue other
    subst other
    obtain ⟨waiting, full, closed⟩ := due
    have elsewhere (port' : Nat) (different : port' ≠ port) :
        (seen.pop demand.node port).queue demand.node port' = seen.queue demand.node port' := by
      simp [View.pop, View.setQueue, update_of_ne different]
    refine ⟨waiting, fun port' here => ?_, fun port' here => ?_⟩
    · by_cases same : port' = port
      · subst same
        have kept := full port' here
        simp only [View.pop, View.setQueue, update_self] at kept
        exact PortQueue.empty_of_pop kept
      · rw [← elsewhere port' same]
        exact full port' here
    · have latched := (closed port' here).1
      by_cases same : port' = port
      · subst same
        have unlatched := evicts port' here rfl
        rw [show (seen.pop demand.node port').latched = seen.latched from rfl, unlatched] at latched
        cases latched
      · rw [← elsewhere port' same]
        exact closed port' here
  all_goals exact .quiet (fun due => due) (by simp [Demand.Heeds])

theorem ProcessMove.kept (moved : ProcessMove env label choice seen top seen' top')
    (plain : top.all Frame.undisturbed = true) : demand.Kept seen top seen' top' := by
  have restored {node : Nat} (other : node ≠ demand.node)
      (due : demand.Due (seen.setExec node .waiting)) : demand.Due seen :=
    due.elsewhere other (fun _ different => by simp [View.setExec, update_of_ne different])
      (fun _ _ => rfl) fun _ _ => rfl
  cases moved
  case discardOutcome => simp [undisturbed] at plain
  case restore => exact .attempt (by simp) restored (by simp [Demand.Heeds])
  case retry => exact .attempt (by simp) restored (by simp [Demand.Heeds])
  case restoreFailed => exact .attempt (by simp) restored (by simp [Demand.Heeds])
  case complete => exact .quiet (fun due => (due.of_setExec (by decide)).2) (by simp [Demand.Heeds])
  case fail => exact .quiet (fun due => (due.of_setExec (by decide)).2) (by simp [Demand.Heeds])
  all_goals exact .quiet (fun due => ⟨due.1, due.2, due.3⟩) (by simp [Demand.Heeds])

theorem EosMove.kept (moved : EosMove env label choice seen top seen' top')
    (yields : .eos demand.node .losing ∈ top →
      ∃ port ∈ demand.full, (seen.queue demand.node port).empty = true)
    (cascades : ∀ port ∈ demand.closed, label = .cascadeLatch demand.node port →
      seen.latched demand.node port = false → ¬ demand.Due (seen.latch demand.node port)) :
    demand.Kept seen top seen' top' := by
  have again {node port : Nat} (latched : seen.latched node port = true) :
      seen.latch node port = seen := by
    simp [View.latch, ← latched]
  have latches {node port : Nat} (other : node ≠ demand.node)
      (due : demand.Due (seen.latch node port)) : demand.Due seen :=
    due.elsewhere other (fun _ _ => rfl) (fun _ _ => rfl)
      fun _ different => by simp [View.latch, update_of_ne different]
  cases moved
  case claim node observed drained idle =>
    refine .quiet (fun due => ?_) (by simp [Demand.Heeds])
    have claimed : demand.Due (seen.setExec node .executing) := ⟨due.1, due.2, due.3⟩
    exact (claimed.of_setExec (by decide)).2
  case complete =>
    exact .quiet (fun due => (due.of_setExec (by decide)).2) (by simp [Demand.Heeds])
  case yield node =>
    refine .quiet (fun due => ?_) (by simp [Demand.Heeds])
    by_cases other : node = demand.node
    · obtain ⟨port, here, dry⟩ := yields (by simp [other])
      rw [show (seen.queue demand.node port).empty = false from due.full port here] at dry
      cases dry
    · exact due.elsewhere other
        (fun _ different => by simp [View.setExec, update_of_ne different])
        (fun _ _ => rfl) fun _ _ => rfl
  case latch node edge rest port known index bound =>
    refine .quiet (fun due => ?_) (by simp [Demand.Heeds])
    by_cases other : edge.destNode = demand.node
    swap
    · exact latches other due
    rw [other] at due
    by_cases closed : port ∈ demand.closed
    · cases latched : seen.latched demand.node port with
      | true => rwa [again latched] at due
      | false => exact absurd due (cascades port closed (by rw [other]) latched)
    · refine ⟨due.waiting, due.full, fun port' here => ?_⟩
      have different : port' ≠ port := fun same => closed (same ▸ here)
      simpa [View.latch, update_of_ne different] using due.closed port' here
  case signal => exact .attempt (by simp) latches (by simp [Demand.Heeds])
  case signalAgain latched =>
    refine .quiet (fun due => ?_) (by simp [Demand.Heeds])
    rwa [again latched] at due
  all_goals exact .quiet (fun due => ⟨due.1, due.2, due.3⟩) (by simp [Demand.Heeds])

theorem Move.kept (moved : Move env label choice seen top seen' top')
    (plain : top.all Frame.undisturbed = true)
    (working : ∀ node ∈ top.flatMap Frame.working, seen.exec node = .executing)
    (evicts : ∀ port ∈ demand.closed, label = .evict demand.node port →
      seen.latched demand.node port = false)
    (yields : .eos demand.node .losing ∈ top →
      ∃ port ∈ demand.full, (seen.queue demand.node port).empty = true)
    (cascades : ∀ port ∈ demand.closed, label = .cascadeLatch demand.node port →
      seen.latched demand.node port = false → ¬ demand.Due (seen.latch demand.node port)) :
    demand.Kept seen top seen' top' := by
  cases moved with
  | control moved =>
    cases moved
    case wipe => simp [undisturbed, resets] at plain
    all_goals exact .quiet (fun due => ⟨due.1, due.2, due.3⟩) (by simp [Demand.Heeds])
  | gather moved => exact moved.kept working
  | push moved => exact moved.kept evicts
  | settle moved =>
    cases moved <;> exact .quiet (fun due => ⟨due.1, due.2, due.3⟩) (by simp [Demand.Heeds])
  | eos moved => exact moved.kept yields cascades
  | call moved =>
    cases moved <;> exact .quiet (fun due => ⟨due.1, due.2, due.3⟩) (by simp [Demand.Heeds])
  | _ moved => exact moved.kept plain

theorem Ghost.kept (rewritten : Ghost env top top') (eager : env.scheduler.Eager)
    (enough : demand.Enough env) (plain : top.all Frame.undisturbed = true)
    (flushed : .flushed demand.node ∈ top →
      ∃ port ∈ demand.full, (seen.queue demand.node port).empty = true) :
    demand.Kept seen top seen top' := by
  have lost {node : Nat} {observed : List Obs}
      (never : node = demand.node → demand.Clear observed → False) :
      demand.Kept seen [.eval node observed] seen top' := by
    refine .quiet (fun due => due) ?_
    rintro frame here heeds
    obtain rfl := mem_singleton.mp here
    exact never heeds.1 heeds.2
  cases rewritten
  case unwind => simp [undisturbed] at plain
  case stopped => simp [undisturbed] at plain
  case outOfRange node observed outside =>
    refine lost fun same _ => ?_
    have known := enough.known
    omega
  case drained node observed drained =>
    refine lost fun same clear => ?_
    subst same
    obtain ⟨port, full, known⟩ := enough.some drained.1
    exact clear.full port full ((drained.2 port known).subset (by simp))
  case decide node observed known decides =>
    intro due
    by_cases same : node = demand.node
    · exact .inl ⟨_, mem_singleton_self _, same⟩
    · exact .inr ⟨due, by simp [Demand.Heeds, same]⟩
  case defer node observed decides =>
    refine lost fun same clear => ?_
    subst same
    cases decides.now eager enough clear
  case decline node observed decision different decides =>
    refine lost fun same clear => ?_
    subst same
    exact different (decides.now eager enough clear)
  case flushedNow node observed =>
    intro due
    by_cases same : node = demand.node
    · obtain ⟨port, here, dry⟩ := flushed (by simp [same])
      simp [due.full port here] at dry
    · exact .inr ⟨due, by simp [Demand.Heeds, same]⟩
  case stopping frame stops =>
    refine .quiet (fun due => due) ?_
    cases frame <;> simp_all [Demand.Heeds, Stops]
  all_goals exact .quiet (fun due => due) (by simp [Demand.Heeds])

end Steps

section Runs

variable {rules : EngineRules π}

def Demand.Woken (demand : Demand) (seen : View π) (frames : Multiset (Frame π)) : Prop :=
  demand.Due seen → ∃ frame ∈ frames, demand.Heeds frame

variable {others : Multiset (Frame π)} {top top' : List (Frame π)}

theorem Demand.Kept.woken {demand : Demand} {seen seen' : View π}
    (kept : demand.Kept seen top seen' top')
    (before : demand.Woken seen (others + top)) :
    demand.Woken seen' (others + top') := by
  intro due
  rcases kept due with ⟨frame, here, heeds⟩ | ⟨earlier, none⟩
  · exact ⟨frame, Multiset.mem_add.mpr (.inr here), heeds⟩
  · obtain ⟨frame, member, heeds⟩ := before earlier
    rcases Multiset.mem_add.mp member with other | here
    · exact ⟨frame, Multiset.mem_add.mpr (.inl other), heeds⟩
    · exact absurd heeds (none frame here)

theorem Frame.undisturbed_of_steady {frame : Frame π} (steady : frame.steady = true) :
    frame.undisturbed = true := by
  cases frame with
  | task id node stage => cases stage <;> first | rfl | cases steady
  | call wait inputs stage => cases stage <;> rfl
  | engineLock lock => simpa [Frame.undisturbed, Frame.resets, Frame.steady] using steady
  | _ => first | rfl | cases steady

structure Serving (env : Env) (state : State π) (frames : Multiset (Frame π)) : Prop where
  steady : Steady (view state) frames
  endless : Endless (view state) frames
  owned : Owned env (view state) frames
  counted : Counted state frames
  watched : Watched (view state) frames
  woken : ∀ demand : Demand, demand.Enough env → demand.closed = [] →
    env.portCount demand.node ≠ 0 → demand.Woken (view state) frames

theorem Serving.step (streams : Streams rules)
    (starts : ∀ name port state, ¬ rules.starts (.signalEndOfStream name port) state)
    (eager : env.scheduler.Eager) {state state' : State π}
    (rewritten : Rewrites env.protocol view rules state top state' top')
    (before : Serving env state (others + top)) :
    Serving env state' (others + top') := by
  obtain ⟨steady, endless, owned, counted, watched, woken⟩ := before
  have plain : top.all Frame.undisturbed = true := by
    rw [List.all_eq_true]
    intro frame here
    exact Frame.undisturbed_of_steady (steady.frames frame (Multiset.mem_add.mpr (.inr here)))
  have noReset : top.any Frame.resets = true → False := by
    rw [List.any_eq_true]
    rintro ⟨frame, here, resets⟩
    have quiet := List.all_eq_true.mp plain frame here
    cases frame <;> simp_all [Frame.undisturbed, Frame.resets]
  have sound : .crashed ∉ top := fun here =>
    steady.crashed (Multiset.mem_add.mpr (.inr here))
  have open' {frame : Frame π} (here : frame ∈ top) : frame.endless = true :=
    endless.frames frame (Multiset.mem_add.mpr (.inr here))
  refine ⟨steady.step streams rewritten, endless.step starts rewritten,
    owned.step streams.calm (fun resets => (noReset resets).elim) rewritten,
    counted.step streams.calm others (fun resets => (noReset resets).elim) rewritten,
    watched.step sound rewritten, fun demand enough closed some => ?_⟩
  refine Demand.Kept.woken ?_ (woken demand enough closed some)
  cases rewritten with
  | move allowed moved =>
    exact Move.kept moved plain owned.executing (by simp [closed])
      (fun here => by cases open' here) (by simp [closed])
  | ghost shifted =>
    exact Ghost.kept shifted eager enough plain fun here => by cases open' here
  | fork forked => cases forked <;> exact .quiet (fun due => due) (by simp [Demand.Heeds])
  | start allowed entered => exact .quiet (fun due => due) (by simp)

def Env.Stranded (env : Env) (state : State π) (node : Nat) : Prop :=
  state.exec node = .waiting ∧ env.portCount node ≠ 0 ∧
    ((∀ port < env.portCount node, (state.queue node port).empty = false) ∨
      env.graph.isSource node = true ∧
        ∃ port < env.portCount node, (state.queue node port).empty = false)

theorem Env.Stranded.demand {state : State π} {node : Nat} (stranded : env.Stranded state node)
    (known : node < env.graph.nodeCount) :
    ∃ demand : Demand, demand.Enough env ∧ demand.closed = [] ∧
      env.portCount demand.node ≠ 0 ∧ demand.Due (view state) := by
  obtain ⟨waiting, some, all | ⟨source, port, bound, full⟩⟩ := stranded
  · refine ⟨⟨node, List.range (env.portCount node), []⟩, ⟨known, ?_, ?_⟩, rfl, some, waiting, ?_,
      by simp⟩
    · intro _
      exact ⟨0, by simpa using Nat.pos_of_ne_zero some, Nat.pos_of_ne_zero some⟩
    · exact .inl fun port bound => .inl (mem_range.mpr bound)
    · exact fun port here => all port (mem_range.mp here)
  · refine ⟨⟨node, [port], []⟩, ⟨known, ?_, ?_⟩, rfl, some, waiting, ?_, by simp⟩
    · exact fun _ => ⟨port, by simp, bound⟩
    · exact .inr ⟨source, port, by simp, bound⟩
    · intro port' here
      obtain rfl := mem_singleton.mp here
      exact full

theorem Serving.not_stranded {state : State π} {frames : Multiset (Frame π)}
    (serving : Serving env state frames) (still : ∀ frame ∈ frames, frame.floats = false)
    {node : Nat} (known : node < env.graph.nodeCount) : ¬ env.Stranded state node := by
  intro stranded
  obtain ⟨demand, enough, closed, some, due⟩ := stranded.demand known
  obtain ⟨frame, member, heeds⟩ := serving.woken demand enough closed some due
  have floats := still frame member
  cases frame <;> first | exact heeds | exact Bool.noConfusion floats

/-- Between the ticks of the watchdog, when the clients have returned and every task is inside
`process()`, nothing is in motion. -/
theorem Serving.still {config : EngineThreads π} {entries : List (Proc π × List (Frame π))}
    (serving : Serving env config.shared (allFrames entries))
    (stands : env.Stands config.threads entries)
    (returned : ∀ thread ∈ config.threads,
      thread.procedure.isBackground = true ∨ thread.program.finished = true)
    (unwatched : config.shared.watchdogMutex = false)
    (calling : ∀ id node stage, .task id node stage ∈ allFrames entries →
      ∃ held, stage = .calling held) :
    ∀ frame ∈ allFrames entries, frame.floats = false ∧ frame.carries = false := by
  refine stands.still returned serving.owned.sound fun frame here carries => ?_
  cases frame with
  | watching => exact absurd here (serving.watched.unlocked unwatched)
  | task id node stage =>
    obtain ⟨held, rfl⟩ := calling id node stage here
    cases carries
  | api procedure => cases procedure <;> first | rfl | cases carries
  | _ => first | rfl | cases carries

structure Env.Started (env : Env) (origin : State π) : Prop where
  streaming : origin.streamingMode = true
  stop : origin.stopFlag = false
  cancelled : ∀ context, origin.cancelled context = false
  idle : origin.Idle
  watchdog : origin.watchdogMutex = false
  exec : ∀ node, ¬ (origin.exec node).Busy
  unlatched : ∀ node port, origin.latched node port = false
  served : ∀ node < env.graph.nodeCount, ¬ env.Stranded origin node

theorem Env.Started.serving {origin : State π} (started : env.Started origin) :
    Serving env origin 0 where
  steady := ⟨⟨started.stop, started.streaming, started.cancelled⟩, by simp⟩
  endless := ⟨started.unlatched, by simp⟩
  owned := by
    refine ⟨by simp, by simp [collect], ?_, ?_⟩ <;> intro node <;>
      have counts := NodeExecutionState.idle_counts (started.exec node) <;>
      simp_all [collect, view, State.exec]
  counted := counted_origin started.idle
  watched := by simp [Watched, collect, view, started.watchdog]
  woken demand enough closed some due := by
    refine absurd ⟨due.waiting, some, ?_⟩ (started.served demand.node enough.known)
    rcases enough.enough with all | ⟨source, port, here, bound⟩
    · left
      intro port bound
      exact due.full port (by simpa [closed] using all port bound)
    · exact .inr ⟨source, port, bound, due.full port here⟩

def Quiescent (config : EngineThreads π) : Prop :=
  config.shared.activeTasks = 0 ∧ config.shared.watchdogMutex = false ∧
    ∀ thread ∈ config.threads,
      thread.procedure.isBackground = true ∨ thread.program.finished = true

def Proc.feeds : Proc π → Bool
  | .pushInput _ _ _ => true
  | .execute _ _ _ _ => true
  | .joinTimeoutWatchdogLoop _ => true
  | _ => false

/-- Streaming without an end: clients only feed the engine, the pool accepts every task,
no context is cancelled and no trace sink or strategy throws. -/
def endlessStreaming : EngineRules π where
  allows label choice _ := (label = .external → choice.throws = false) ∧
    (∀ node, label = .post node → choice.posted = true) ∧ ∀ context, label ≠ .cancel context
  starts procedure _ := procedure.feeds = true

theorem streams_endlessStreaming : Streams (endlessStreaming (π := π)) where
  calm _ _ allowed := allowed.1 rfl
  posts node _ _ allowed := allowed.2.1 node rfl
  cancels context _ _ allowed := allowed.2.2 context rfl
  starts procedure _ feeds := by
    cases procedure <;> first | rfl | exact Bool.noConfusion feeds

theorem no_lost_wakeup (env : Env) (scheduler : env.scheduler = streamSchedulerStrategy {})
    (origin : State π) (started : env.Started origin) (config : EngineThreads π)
    (run : env.RunsTo endlessStreaming origin config) (quiet : Quiescent config) :
    ∀ node < env.graph.nodeCount,
      ¬ env.Stranded config.shared node ∧ ¬ (config.shared.exec node).Busy := by
  have eager : env.scheduler.Eager := by
    rw [scheduler]
    exact eager_stream
  obtain ⟨entries, stands, serving⟩ := engine_run
    (fun _ _ feeds => Proc.standsAlone_of_streams (streams_endlessStreaming.starts _ _ feeds)) run
    started.serving fun _ _ others _ _ _ _ rewritten before =>
      before.step streams_endlessStreaming (fun _ _ _ starts => Bool.noConfusion starts) eager
        rewritten
  obtain ⟨inactive, unwatched, returned⟩ := quiet
  have none := serving.counted.no_tasks inactive
  have still := serving.still stands returned unwatched fun id node stage here =>
    absurd here (none id node stage)
  intro node known
  exact ⟨serving.not_stranded (fun frame here => (still frame here).1) known,
    serving.owned.idle (fun frame here => (still frame here).1) none node⟩

def feedingReferee : Referee (State π) (Label π) (Proc π) (Choice π) where
  allows
    | .external, choice, _ => !choice.throws
    | .post _, choice, _ => choice.posted
    | .cancel _, _, _ => false
    | _, _, _ => true
  starts procedure _ := procedure.feeds

theorem feedingReferee_allows {label : Label π} {choice : Choice π} {state : State π}
    (allowed : feedingReferee.allows label choice state = true) :
    (endlessStreaming (π := π)).allows label choice state := by
  refine ⟨?_, ?_, ?_⟩
  · rintro rfl
    simpa [feedingReferee] using allowed
  · rintro node rfl
    exact allowed
  · rintro context rfl
    cases allowed

def quiescentTest (config : EngineThreads π) : Bool :=
  config.shared.activeTasks == 0 && !config.shared.watchdogMutex &&
    config.threads.all fun thread => thread.procedure.isBackground || thread.program.finished

theorem quiescentTest_sound {config : EngineThreads π} (passed : quiescentTest config = true) :
    Quiescent config := by
  simpa [quiescentTest, Quiescent, and_assoc] using passed

theorem started_streamingState : soloEngine.Started streamingState where
  streaming := rfl
  stop := rfl
  cancelled _ := rfl
  idle := ⟨rfl, rfl, rfl, rfl⟩
  watchdog := rfl
  exec _ := by simp [streamingState, State.exec, NodeExecutionState.Busy]
  unlatched _ _ := by simp [streamingState, State.latched]
  served node _ := by
    have empty (port : Nat) : (streamingState.queue node port).empty = true := rfl
    rintro ⟨-, some, all | ⟨-, port, -, full⟩⟩
    · have full := all 0 (Nat.pos_of_ne_zero some)
      rw [empty] at full
      cases full
    · rw [empty] at full
      cases full

theorem no_lost_wakeup_solo : ∃ config, soloEngine.RunsTo endlessStreaming streamingState config ∧
    Quiescent config ∧ (config.shared.node 0).calls.length = 1 ∧
    ∀ node < soloEngine.graph.nodeCount,
      ¬ soloEngine.Stranded config.shared node ∧ ¬ (config.shared.exec node).Busy := by
  obtain ⟨config, run, served⟩ := soloEngine.played endlessStreaming feedingReferee
    (fun _ _ _ => feedingReferee_allows) (fun _ _ starts => starts) streamingState
    (.start (.pushInput "camera" "" (some ⟨0, 0, 0, ()⟩)) :: turns 0 23 {} ++ turns 1 36 {})
    (fun config => quiescentTest config = true ∧ (config.shared.node 0).calls.length = 1)
    (by decide +kernel)
  have quiet := quiescentTest_sound served.1
  exact ⟨config, run, quiet, served.2,
    no_lost_wakeup soloEngine rfl streamingState started_streamingState config run quiet⟩

/-- The task of the packet gives up because `stopStreaming()` has been called.  The next
`startStreaming()` does not look at the queue, and nobody ever schedules the source. -/
theorem restart_strands : ∃ config, soloEngine.RunsTo unrestricted ({} : State Unit) config ∧
    config.threads.all (fun thread => thread.program.finished) = true ∧ Quiescent config ∧
    config.shared.streamingMode = true ∧ config.shared.stopFlag = false ∧
    soloEngine.Stranded config.shared 0 := by
  obtain ⟨config, run, ended, quiet, streaming, stop, waiting, source, full⟩ :=
    soloEngine.playedFreely ({} : State Unit)
    (.start (.startStreaming none) :: turns 0 11 {} ++
      .start (.pushInput "camera" "" (some ⟨0, 0, 0, ()⟩)) :: turns 1 23 {} ++
      .start (.stopStreaming true) :: turns 3 7 {} ++ turns 2 5 {} ++ turns 3 6 {} ++
      .start (.startStreaming none) :: turns 4 10 {})
    (fun config => config.threads.all (fun thread => thread.program.finished) = true ∧
      quiescentTest config = true ∧ config.shared.streamingMode = true ∧
      config.shared.stopFlag = false ∧ config.shared.exec 0 = .waiting ∧
      soloEngine.graph.isSource 0 = true ∧ (config.shared.queue 0 0).empty = false)
    (by decide +kernel)
  exact ⟨config, run, ended, quiescentTest_sound quiet, streaming, stop, waiting, by decide,
    .inr ⟨source, 0, by decide, full⟩⟩

end Runs

end AiPipe
