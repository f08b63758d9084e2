import AiPipe.Protocol.Clients

/-!
Mutual exclusion on a node.  READY and EXECUTING belong to one thread at a time: the one that
took the node out of WAITING, its task, or an end-of-stream handling that claimed the node.
-/

namespace AiPipe

open Concurrency View Multiset

variable {π : Type}

def Frame.owned : Frame π → List Nat
  | .claimed node _ => [node]
  | .task _ _ .rolledBack => []
  | .task _ _ .released => []
  | .task _ node _ => [node]
  | .eos _ (.cascading _) => []
  | .eos _ (.counted _) => []
  | .eos _ .ending => []
  | .eos _ .over => []
  | .eos node _ => [node]
  | _ => []

def Frame.processed : Frame π → List Nat
  | .task _ node (.calling _) => [node]
  | _ => []

def Frame.finalized : Frame π → List Nat
  | .eos node .flushing => [node]
  | _ => []

def Frame.won : Frame π → List Nat
  | .eos node .winning => [node]
  | _ => []

structure Shares where
  owners : Nat
  processes : Nat
  finalizes : Nat
  wins : Nat

def Shares.add (first second : Shares) : Shares where
  owners := first.owners + second.owners
  processes := first.processes + second.processes
  finalizes := first.finalizes + second.finalizes
  wins := first.wins + second.wins

def sharesOf (node : Nat) (frames : Multiset (Frame π)) : Shares where
  owners := (collect Frame.owned frames).count node
  processes := (collect Frame.processed frames).count node
  finalizes := (collect Frame.finalized frames).count node
  wins := (collect Frame.won frames).count node

def listShares (node : Nat) (frames : List (Frame π)) : Shares where
  owners := (frames.flatMap Frame.owned).count node
  processes := (frames.flatMap Frame.processed).count node
  finalizes := (frames.flatMap Frame.finalized).count node
  wins := (frames.flatMap Frame.won).count node

theorem sharesOf_add (node : Nat) (others : Multiset (Frame π)) (top : List (Frame π)) :
    sharesOf node (others + (top : Multiset _)) = (sharesOf node others).add (listShares node top) := by
  simp only [sharesOf, collect_add, count_add, coe_count]
  rfl

def NodeExecutionState.Busy (exec : NodeExecutionState) : Prop := exec = .ready ∨ exec = .executing

structure Usage where
  exec : NodeExecutionState
  processing : Nat
  flushing : Nat
  flushes : Nat
  propagated : Bool

def View.usage (seen : View π) (node : Nat) : Usage where
  exec := seen.exec node
  processing := seen.processing node
  flushing := seen.flushing node
  flushes := seen.flushes node
  propagated := seen.propagated node

inductive Usage.Step : Usage → Shares → Usage → Shares → Prop
  | quiet {usage shares} : Step usage shares usage shares
  | shed {usage owners processes finalizes wins owners' processes' finalizes' wins'} :
      owners' ≤ owners → processes' ≤ processes → finalizes' ≤ finalizes → wins' ≤ wins →
      owners - owners' ≥ processes - processes' + (finalizes - finalizes') →
      Step usage ⟨owners, processes, finalizes, wins⟩ usage ⟨owners', processes', finalizes', wins'⟩
  | take {usage : Usage} {exec} : usage.exec = .waiting ∨ usage.exec = .completed →
      exec = .ready ∨ exec = .executing →
      Step usage ⟨0, 0, 0, 0⟩ { usage with exec } ⟨1, 0, 0, 0⟩
  | start {usage} :
      Step usage ⟨1, 0, 0, 0⟩ { usage with exec := .executing } ⟨1, 0, 0, 0⟩
  | release {usage exec} : Step usage ⟨1, 0, 0, 0⟩ { usage with exec } ⟨0, 0, 0, 0⟩
  | enter {usage} :
      Step usage ⟨1, 0, 0, 0⟩ { usage with processing := usage.processing + 1 } ⟨1, 1, 0, 0⟩
  | leave {usage} :
      Step usage ⟨1, 1, 0, 0⟩ { usage with processing := usage.processing - 1 } ⟨1, 0, 0, 0⟩
  | mark {usage} : usage.propagated = true →
      Step usage ⟨1, 0, 0, 0⟩ { usage with propagated := true } ⟨1, 0, 0, 0⟩
  | win {usage} : usage.propagated = false →
      Step usage ⟨1, 0, 0, 0⟩ { usage with propagated := true } ⟨1, 0, 0, 1⟩
  | flush {usage} :
      Step usage ⟨1, 0, 0, 1⟩ { usage with
        flushes := usage.flushes + 1
        flushing := usage.flushing + 1 } ⟨1, 0, 1, 0⟩
  | flushed {usage} :
      Step usage ⟨1, 0, 1, 0⟩ { usage with flushing := usage.flushing - 1 } ⟨1, 0, 0, 0⟩
  | reset {usage : Usage} {exec propagated} : ¬ usage.exec.Busy → usage.flushes = 0 →
      Step usage ⟨0, 0, 0, 0⟩ { usage with exec, propagated } ⟨0, 0, 0, 0⟩

def Usage.owners (usage : Usage) (shares : Shares) : Nat :=
  shares.owners + (usage.processing - shares.processes) + (usage.flushing - shares.finalizes)

@[mk_iff] structure Usage.Exclusive (usage : Usage) (shares : Shares) : Prop where
  processes : shares.processes ≤ usage.processing
  finalizes : shares.finalizes ≤ usage.flushing
  single : usage.owners shares ≤ 1
  busy : 0 < usage.owners shares → usage.exec = .ready ∨ usage.exec = .executing
  once : usage.flushes + shares.wins ≤ usage.propagated.toNat

theorem Usage.Exclusive.step {usage usage' : Usage} {shares shares' : Shares}
    (stepped : Usage.Step usage shares usage' shares') (others : Shares)
    (won : others.wins ≤ others.owners) (before : usage.Exclusive (others.add shares)) :
    usage'.Exclusive (others.add shares') := by
  obtain ⟨owners, calls, ends, wins⟩ := others
  dsimp only at won
  cases stepped <;>
    simp only [Usage.exclusive_iff, Usage.owners, Shares.add] at before ⊢ <;>
    obtain ⟨processes, finalizes, single, busy, once⟩ := before
  case quiet => exact ⟨processes, finalizes, single, busy, once⟩
  case shed =>
      refine ⟨by omega, by omega, by omega, fun some => busy (by omega), ?_⟩
      exact le_trans (by omega) once
  case take idle taken =>
      have free : ¬ 0 < owners + 0 + (usage.processing - (calls + 0)) +
          (usage.flushing - (ends + 0)) := by
        intro some
        rcases busy some with state | state <;> rcases idle with other | other <;>
          rw [state] at other <;> cases other
      exact ⟨processes, finalizes, by omega, fun _ => taken, once⟩
  case start => exact ⟨processes, finalizes, single, by simp, once⟩
  case release =>
      exact ⟨processes, finalizes, by omega, fun some => absurd some (by omega), once⟩
  case enter => exact ⟨by omega, finalizes, by omega, fun _ => busy (by omega), once⟩
  case leave => exact ⟨by omega, finalizes, by omega, fun _ => busy (by omega), once⟩
  case mark marked =>
      rw [marked] at once
      exact ⟨processes, finalizes, single, busy, once⟩
  case win unmarked =>
      rw [unmarked, Bool.toNat_false] at once
      exact ⟨processes, finalizes, single, busy, by rw [Bool.toNat_true]; omega⟩
  case flush =>
      refine ⟨processes, by omega, by omega, fun _ => busy (by omega), ?_⟩
      exact le_trans (by omega) once
  case flushed => exact ⟨processes, by omega, by omega, fun _ => busy (by omega), once⟩
  case reset idle unflushed =>
      -- an owner of the node would keep it busy
      have free := mt busy idle
      exact ⟨processes, finalizes, single, fun some => absurd some free, by omega⟩

def Uses (node : Nat) (seen : View π) (top : List (Frame π)) (seen' : View π)
    (top' : List (Frame π)) : Prop :=
  Usage.Step (seen.usage node) (listShares node top) (seen'.usage node) (listShares node top')

section Steps

variable {env : Env} {label : Label π} {choice : Choice π} {seen seen' : View π}
  {top top' : List (Frame π)} {node : Nat}

variable {owned : Nat} (shape shape' : Nat → Shares)

theorem Usage.Step.only
    (here : Usage.Step (seen.usage owned) (shape 1) (seen'.usage owned) (shape' 1))
    (elsewhere : ∀ node, node ≠ owned → seen'.usage node = seen.usage node)
    (same : shape 0 = shape' 0) :
    Usage.Step (seen.usage node) (shape ([owned].count node))
      (seen'.usage node) (shape' ([owned].count node)) := by
  by_cases other : owned = node
  · subst other
    rwa [List.count_singleton_self]
  · rw [List.count_singleton, if_neg (by simpa using other), elsewhere node (Ne.symm other), same]
    exact .quiet

variable {exec : NodeExecutionState}

theorem Usage.Step.setExec
    (here : Usage.Step (seen.usage owned) (shape 1) { seen.usage owned with exec } (shape' 1))
    (same : shape 0 = shape' 0) :
    Usage.Step (seen.usage node) (shape ([owned].count node))
      ((seen.setExec owned exec).usage node) (shape' ([owned].count node)) := by
  refine Usage.Step.only shape shape' ?_ (fun node other => ?_) same
  · simpa [View.usage, View.setExec] using here
  · simp [View.usage, View.setExec, other]

theorem Usage.Step.giveBack :
    Usage.Step (seen.usage node) ⟨[owned].count node, 0, 0, 0⟩
      ((seen.setExec owned exec).usage node) ⟨0, 0, 0, 0⟩ :=
  .setExec (fun one => ⟨one, 0, 0, 0⟩) (fun _ => ⟨0, 0, 0, 0⟩) .release rfl

theorem ControlMove.uses (moved : ControlMove label choice seen top seen' top')
    (reset : ∀ node, label = .resetNode node → ¬ (seen.exec node).Busy ∧ seen.flushes node = 0) :
    Uses node seen top seen' top' := by
  cases moved
  case wipe life target rest =>
    cases target
    case exec owner =>
      obtain ⟨idle, unflushed⟩ := reset owner rfl
      exact .setExec (fun _ => ⟨0, 0, 0, 0⟩) (fun _ => ⟨0, 0, 0, 0⟩) (.reset idle unflushed) rfl
    case eosPropagated owner =>
      obtain ⟨idle, unflushed⟩ := reset owner rfl
      change Usage.Step _ ⟨0, 0, 0, 0⟩ _ ⟨0, 0, 0, 0⟩
      by_cases same : node = owner
      · subst same
        simpa [usage, View.wipe] using
          @Usage.Step.reset (seen.usage node) (seen.exec node) false idle unflushed
      · simpa [usage, View.wipe, same] using Usage.Step.quiet
    all_goals exact .quiet
  all_goals exact .quiet

theorem ScheduleMove.uses (moved : ScheduleMove label choice seen top seen' top') :
    Uses node seen top seen' top' := by
  cases moved
  case claim waiting =>
    exact .setExec (fun _ => ⟨0, 0, 0, 0⟩) (fun one => ⟨one, 0, 0, 0⟩)
      (.take (.inl waiting) (.inl rfl)) rfl
  case begin =>
    exact .setExec (fun one => ⟨one, 0, 0, 0⟩) (fun one => ⟨one, 0, 0, 0⟩) .start rfl
  case rollBack => exact .giveBack
  case abort => exact .giveBack
  case displaced => exact .shed (Nat.zero_le _) le_rfl le_rfl le_rfl (Nat.zero_le _)
  all_goals exact .quiet

theorem GatherMove.uses (moved : GatherMove env label choice seen top seen' top') :
    Uses node seen top seen' top' := by
  cases moved
  all_goals exact .quiet

theorem PushMove.uses (moved : PushMove env label choice seen top seen' top') :
    Uses node seen top seen' top' := by
  cases moved
  all_goals exact .quiet

theorem ProcessMove.uses (moved : ProcessMove env label choice seen top seen' top') :
    Uses node seen top seen' top' := by
  cases moved
  case callBegin =>
    refine .only (fun one => ⟨one, 0, 0, 0⟩) (fun one => ⟨one, one, 0, 0⟩) ?_ ?_ rfl
    · simpa [usage] using Usage.Step.enter
    · intro node other
      simp [usage, other]
  case callEnd =>
    refine .only (fun one => ⟨one, one, 0, 0⟩) (fun one => ⟨one, 0, 0, 0⟩) ?_ ?_ rfl
    · simpa [usage] using Usage.Step.leave
    · intro node other
      simp [usage, other]
  case discardOutcome => exact .giveBack
  case restore => exact .giveBack
  case complete => exact .giveBack
  case retry => exact .giveBack
  case restoreFailed quit => cases quit <;> exact .giveBack
  case fail quit => cases quit <;> exact .giveBack
  all_goals exact .quiet

theorem SettleMove.uses (moved : SettleMove env label choice seen top seen' top') :
    Uses node seen top seen' top' := by
  cases moved
  all_goals exact .quiet

theorem EosMove.uses (moved : EosMove env label choice seen top seen' top') :
    Uses node seen top seen' top' := by
  cases moved
  case claim drained idle =>
    exact .setExec (fun _ => ⟨0, 0, 0, 0⟩) (fun one => ⟨one, 0, 0, 0⟩)
      (.take idle (.inr rfl)) rfl
  case win unmarked =>
    refine .only (fun one => ⟨one, 0, 0, 0⟩) (fun one => ⟨one, 0, 0, one⟩) ?_ ?_ rfl
    · simpa [usage] using Usage.Step.win unmarked
    · intro node other
      simp [usage, other]
  case lose marked =>
    refine .only (fun one => ⟨one, 0, 0, 0⟩) (fun one => ⟨one, 0, 0, 0⟩) ?_ ?_ rfl
    · simpa [usage] using Usage.Step.mark marked
    · intro node other
      simp [usage, other]
  case yield => exact .giveBack
  case flushBegin =>
    refine .only (fun one => ⟨one, 0, 0, one⟩) (fun one => ⟨one, 0, one, 0⟩) ?_ ?_ rfl
    · simpa [usage] using Usage.Step.flush
    · intro node other
      simp [usage, other]
  case flushEnd =>
    refine .only (fun one => ⟨one, 0, one, 0⟩) (fun one => ⟨one, 0, 0, 0⟩) ?_ ?_ rfl
    · simpa [usage] using Usage.Step.flushed
    · intro node other
      simp [usage, other]
  case complete => exact .giveBack
  all_goals exact .quiet

theorem CallMove.uses (moved : CallMove label choice seen top seen' top') :
    Uses node seen top seen' top' := by
  cases moved
  all_goals exact .quiet

theorem Move.uses (moved : Move env label choice seen top seen' top')
    (reset : ∀ node, label = .resetNode node → ¬ (seen.exec node).Busy ∧ seen.flushes node = 0) :
    Uses node seen top seen' top' := by
  cases moved with
  | control moved => exact moved.uses reset
  | _ moved => exact moved.uses

theorem Frame.inside (frame : Frame π) (node : Nat) :
    frame.processed.count node + frame.finalized.count node + frame.won.count node ≤
      frame.owned.count node := by
  cases frame with
  | task id own stage => cases stage <;> simp [processed, finalized, won, owned]
  | eos own stage => cases stage <;> simp [processed, finalized, won, owned]
  | _ => simp [processed, finalized, won, owned]

theorem sharesOf_inside (frames : Multiset (Frame π)) (node : Nat) :
    (sharesOf node frames).processes + (sharesOf node frames).finalizes +
      (sharesOf node frames).wins ≤ (sharesOf node frames).owners := by
  induction frames using Multiset.induction_on with
  | empty => simp [sharesOf, collect]
  | cons frame rest ih =>
    have inside := frame.inside node
    simp only [sharesOf, collect, cons_bind, count_add, coe_count] at ih ⊢
    omega

theorem Ghost.uses (rewritten : Ghost env top top') : Uses node seen top seen top' := by
  cases rewritten
  case unwind frame =>
    refine .shed (Nat.zero_le _) (Nat.zero_le _) (Nat.zero_le _) (Nat.zero_le _) ?_
    have inside := (Nat.le_add_right ..).trans (frame.inside node)
    simpa [Frame.owned, Frame.processed, Frame.finalized] using inside
  case missing => exact .shed (Nat.zero_le _) le_rfl le_rfl le_rfl (Nat.zero_le _)
  all_goals exact .quiet

end Steps

def Exclusive (state : State π) (frames : Multiset (Frame π)) : Prop :=
  ∀ node, ((view state).usage node).Exclusive (sharesOf node frames)

section Run

variable {env : Env}

/-- The environment of one run: clients may call everything, but only nodes that no task is left
of and that have not been flushed are reset, as `execute()` does when it begins the run. -/
def oneRun : EngineRules π where
  allows label _ state := ∀ node, label = .resetNode node →
    ¬ (state.exec node).Busy ∧ (state.node node).flushes = 0
  starts procedure _ := procedure.isInterface = true

theorem exclusive_step {state state' : State π} (others : Multiset (Frame π))
    {top top' : List (Frame π)}
    (rewritten : Rewrites env.protocol view oneRun state top state' top')
    (before : Exclusive state (others + top)) :
    Exclusive state' (others + top') := by
  intro node
  have here := before node
  have won : (sharesOf node others).wins ≤ (sharesOf node others).owners := by
    have inside := sharesOf_inside others node
    omega
  rw [sharesOf_add] at here ⊢
  cases rewritten with
  | move allowed moved => exact here.step (Move.uses moved allowed) _ won
  | ghost shifted => exact here.step (Ghost.uses shifted) _ won
  | fork forked => cases forked <;> exact here.step .quiet _ won
  | start allowed entered => cases entered; exact here.step .quiet _ won

def State.Unused (state : State π) : Prop :=
  ∀ node, (state.node node).processing = 0 ∧ (state.node node).flushing = 0 ∧
    (state.node node).flushes = 0

theorem exclusive_origin {state : State π} (unused : state.Unused) : Exclusive state 0 := by
  intro node
  obtain ⟨processing, flushing, flushes⟩ := unused node
  constructor <;>
    simp [Usage.owners, sharesOf, collect, usage, view, processing, flushing, flushes]

/-- At most one of `process()` and `onEndOfStream()` of a node is active at any time, and
`onEndOfStream()` is called at most once. -/
theorem node_exclusion (env : Env) (origin : State π) (unused : origin.Unused)
    (config : EngineThreads π) (run : env.RunsTo oneRun origin config) (node : Nat) :
    (config.shared.node node).processing + (config.shared.node node).flushing ≤ 1 ∧
      (config.shared.node node).flushes ≤ 1 := by
  obtain ⟨frames, exclusive⟩ := engine_invariant
    (fun _ _ starts => Proc.standsAlone_of_isInterface starts) run
    (exclusive_origin unused) fun _ _ others _ _ => exclusive_step others
  have inside := sharesOf_inside frames node
  obtain ⟨processes, finalizes, single, -, once⟩ := exclusive node
  simp only [Usage.owners, usage, view] at processes finalizes single once
  have bound := (config.shared.node node).eosPropagated.toNat_le
  omega

def oneRunReferee : Referee (State π) (Label π) (Proc π) (Choice π) where
  allows
    | .resetNode node, _, state => state.exec node == .waiting && (state.node node).flushes == 0
    | _, _, _ => true
  starts procedure _ := procedure.isInterface

theorem oneRunReferee_allows {label : Label π} {choice : Choice π} {state : State π}
    (allowed : oneRunReferee.allows label choice state = true) :
    oneRun.allows label choice state := by
  rintro node rfl
  simp only [oneRunReferee, Bool.and_eq_true, beq_iff_eq] at allowed
  exact ⟨by simp [allowed.1, NodeExecutionState.Busy], allowed.2⟩

def clockGraph : Graph where
  nodes := [⟨"clock", [], ["tick"]⟩]
  edges := []
  namesNodup := by decide
  portsNodup := by decide
  edgesNodup := soloGraph.edgesNodup
  edgesDeclared := by simp

def clockEngine : Env := .ofGraph clockGraph (by decide) batchSchedulerStrategy

theorem node_exclusion_inside : ∃ config, clockEngine.RunsTo oneRun ({} : State Unit) config ∧
    (config.shared.node 0).processing = 1 ∧
    ((config.shared.node 0).processing + (config.shared.node 0).flushing ≤ 1 ∧
      (config.shared.node 0).flushes ≤ 1) := by
  obtain ⟨config, run, inside⟩ := clockEngine.played oneRun oneRunReferee
    (fun _ _ _ => oneRunReferee_allows) (fun _ _ starts => starts) ({} : State Unit)
    (.start (.execute [] false none none) :: turns 0 40 {} ++ turns 1 5 {})
    (fun config => (config.shared.node 0).processing = 1) (by decide +kernel)
  exact ⟨config, run, inside,
    node_exclusion clockEngine {} (fun _ => ⟨rfl, rfl, rfl⟩) config run 0⟩

end Run

end AiPipe
