import AiPipe.Exclusion
import AiPipe.Protocol.Stacks

/-!
Who a busy node belongs to.  While nothing throws and no node is reset, a node is READY
exactly while one thread has claimed it, and EXECUTING exactly while one thread executes
or flushes it.
-/

namespace AiPipe

open Concurrency NodeExecutionState Multiset AiPipe.Frame

variable {π : Type} {env : Env}

def Frame.readying : Frame π → List Nat
  | .claimed node _ => [node]
  | .task _ node .announced => [node]
  | .task _ node .refused => [node]
  | .task _ node .posted => [node]
  | .task _ node .admitted => [node]
  | _ => []

def Frame.working : Frame π → List Nat
  | .task _ _ .announced => []
  | .task _ _ .refused => []
  | .task _ _ .rolledBack => []
  | .task _ _ .posted => []
  | .task _ _ .admitted => []
  | .task _ _ .released => []
  | .task _ node _ => [node]
  | .eos _ (.cascading _) => []
  | .eos _ (.counted _) => []
  | .eos _ .ending => []
  | .eos _ .over => []
  | .eos node _ => [node]
  | _ => []

def Frame.aims : Frame π → List Nat
  | .decided node _ => [node]
  | .claimed node _ => [node]
  | .task _ node _ => [node]
  | _ => []

abbrev ExecStates := Nat → NodeExecutionState

def NodeExecutionState.readies : NodeExecutionState → Nat
  | .ready => 1
  | _ => 0

def NodeExecutionState.works : NodeExecutionState → Nat
  | .executing => 1
  | _ => 0

theorem NodeExecutionState.idle_counts {exec : NodeExecutionState} (idle : ¬ exec.Busy) :
    exec.readies = 0 ∧ exec.works = 0 := by
  cases exec <;> simp_all [Busy, readies, works]

inductive HoldStep : ExecStates → List Nat → List Nat → ExecStates → List Nat → List Nat → Prop
  | quiet {exec ready work} : HoldStep exec ready work exec ready work
  | claim {exec} (node : Nat) : ¬ (exec node).Busy →
      HoldStep exec [] [] (Function.update exec node .ready) [node] []
  | occupy {exec} (node : Nat) : ¬ (exec node).Busy →
      HoldStep exec [] [] (Function.update exec node .executing) [] [node]
  | begin {exec} (node : Nat) :
      HoldStep exec [node] [] (Function.update exec node .executing) [] [node]
  | giveUp {exec} {value : NodeExecutionState} (node : Nat) : ¬ value.Busy →
      HoldStep exec [node] [] (Function.update exec node value) [] []
  | release {exec} {value : NodeExecutionState} (node : Nat) : ¬ value.Busy →
      HoldStep exec [] [node] (Function.update exec node value) [] []
  | displaced {exec} (node : Nat) : exec node ≠ .ready → HoldStep exec [node] [] exec [] []
  | reset {exec} (node : Nat) : ¬ (exec node).Busy →
      HoldStep exec [] [] (Function.update exec node .waiting) [] []

structure Held (exec : ExecStates) (ready work : Multiset Nat) : Prop where
  ready : ∀ node, ready.count node = (exec node).readies
  work : ∀ node, work.count node = (exec node).works

theorem Held.set {exec : ExecStates} {ready work ready' work' : Multiset Nat}
    {value : NodeExecutionState} (held : Held exec ready work) (node : Nat)
    (elsewhere : ∀ other, other ≠ node →
      ready'.count other = ready.count other ∧ work'.count other = work.count other)
    (here : ready'.count node = value.readies ∧ work'.count node = value.works) :
    Held (Function.update exec node value) ready' work' := by
  constructor <;> intro other <;> by_cases same : other = node
  · subst same
    simpa using here.1
  · rw [Function.update_of_ne same, (elsewhere other same).1, held.ready]
  · subst same
    simpa using here.2
  · rw [Function.update_of_ne same, (elsewhere other same).2, held.work]

theorem Held.step {exec exec' : ExecStates} {ready ready' work work' : List Nat}
    (stepped : HoldStep exec ready work exec' ready' work') (others others' : Multiset Nat)
    (held : Held exec (others + ready) (others' + work)) :
    Held exec' (others + ready') (others' + work') := by
  have elsewhere {node other : Nat} (different : other ≠ node) : List.count other [node] = 0 :=
    List.count_eq_zero.mpr (by simpa using different)
  have one := held.ready
  have two := held.work
  simp only [count_add, coe_count] at one two
  cases stepped with
  | quiet => exact held
  | displaced node lost =>
    have here := one node
    cases state : exec node <;>
      simp_all [readies]
  | claim node idle | occupy node idle | reset node idle =>
    have zero := idle_counts idle
    refine held.set node (fun other different => ?_) ?_ <;>
      simp_all [count_add, readies, works]
  | begin node =>
    refine held.set node (fun other different => ?_) ?_
    · simp_all [count_add]
    · have first := one node
      have second := two node
      cases state : exec node <;> simp_all [readies, works]
  | giveUp node idle | release node idle =>
    have zero := idle_counts idle
    refine held.set node (fun other different => ?_) ?_
    · simp_all [count_add]
    · have first := one node
      have second := two node
      cases state : exec node <;> simp_all [readies, works]

section Steps

variable {label : Label π} {choice : Choice π} {seen seen' : View π}
  {top top' : List (Frame π)}

def Holds (seen : View π) (top : List (Frame π)) (seen' : View π) (top' : List (Frame π)) : Prop :=
  HoldStep seen.exec (top.flatMap Frame.readying) (top.flatMap Frame.working)
    seen'.exec (top'.flatMap Frame.readying) (top'.flatMap Frame.working)

theorem waiting_idle {exec : NodeExecutionState} (waiting : exec = .waiting) : ¬ exec.Busy := by
  simp [waiting, Busy]

theorem Move.holds (moved : Move env label choice seen top seen' top') (sound : .crashed ∉ top)
    (reset : top.any Frame.resets = true → ∀ node, label = .resetNode node →
      ¬ (seen.exec node).Busy) :
    Holds seen top seen' top' := by
  have waits : ¬ waiting.Busy := waiting_idle rfl
  have fails : ¬ failed.Busy := by simp [Busy]
  have completes : ¬ completed.Busy := by simp [Busy]
  cases moved with
  | control moved =>
    cases moved
    case wipe life target rest =>
      cases target
      case exec node => exact .reset node (reset rfl node rfl)
      all_goals exact .quiet
    all_goals exact .quiet
  | schedule moved =>
    cases moved
    case claim node reason waiting => exact .claim node (waiting_idle waiting)
    case rollBack node => exact .giveUp node waits
    case abort node => exact .giveUp node waits
    case begin node ready => exact .begin node
    case displaced node lost => exact .displaced node lost
    all_goals exact .quiet
  | process moved =>
    cases moved
    case discardOutcome node _ _ => exact .release node waits
    case restore node again => exact .release node waits
    case complete node once => exact .release node completes
    case retry node => exact .release node waits
    case restoreFailed node quit => cases quit <;> exact .release node waits
    case fail node quit => cases quit <;> exact .release node fails
    all_goals exact .quiet
  | settle moved =>
    cases moved
    case finishCrashed => simp at sound
    all_goals exact .quiet
  | eos moved =>
    cases moved
    case claim node observed drained idle =>
      refine .occupy node ?_
      rcases idle with waiting | completed
      · exact waiting_idle waiting
      · rw [completed]
        exact completes
    case yield node => exact .release node waits
    case complete node => exact .release node completes
    all_goals exact .quiet
  | _ moved => cases moved <;> exact .quiet

theorem Ghost.holds (rewritten : Ghost env top top') (sound : .crashed ∉ top)
    (inside : ∀ node ∈ top.flatMap Frame.aims, node < env.graph.nodeCount) :
    Holds seen top seen top' := by
  cases rewritten
  case unwind => simp at sound
  case missing id node outside =>
    have known := inside node (by simp [aims])
    omega
  all_goals exact .quiet

theorem Move.aims (moved : Move env label choice seen top seen' top') :
    ∀ node ∈ top'.flatMap Frame.aims, node ∈ top.flatMap Frame.aims := by
  cases moved with
  | process moved =>
    cases moved
    case restoreFailed quit => cases quit <;> simp [aims, afterFailure]
    case fail quit => cases quit <;> simp [aims, afterFailure]
    all_goals simp [aims]
  | _ moved => cases moved <;> simp [aims]

theorem Ghost.aims (rewritten : Ghost env top top')
    (inside : ∀ node ∈ top.flatMap Frame.aims, node < env.graph.nodeCount) :
    ∀ node ∈ top'.flatMap Frame.aims, node < env.graph.nodeCount := by
  cases rewritten <;> simp_all [aims]

end Steps

structure Owned (env : Env) (seen : View π) (frames : Multiset (Frame π)) : Prop where
  sound : .crashed ∉ frames
  inside : ∀ node ∈ collect Frame.aims frames, node < env.graph.nodeCount
  held : Held seen.exec (collect Frame.readying frames) (collect Frame.working frames)

variable {others : Multiset (Frame π)}

theorem Owned.step {rules : EngineRules π} (calm : NoThrows rules) {state state' : State π}
    {top top' : List (Frame π)}
    (reset : top.any Frame.resets = true → ∀ node choice,
      rules.allows (.resetNode node) choice state → ¬ (state.exec node).Busy)
    (rewritten : Rewrites env.protocol view rules state top state' top')
    (before : Owned env (view state) (others + top)) :
    Owned env (view state') (others + top') := by
  obtain ⟨sound, inside, held⟩ := before
  simp only [mem_add, mem_coe, not_or] at sound
  have still : .crashed ∉ top' := sound_step calm rewritten sound.2
  rw [collect_add] at inside held
  rw [collect_add] at held
  simp only [mem_add, mem_coe] at inside
  have here : ∀ node ∈ top.flatMap aims, node < env.graph.nodeCount :=
    fun node member => inside node (.inr member)
  refine ⟨by simpa using ⟨sound.1, still⟩, ?_, ?_⟩
  · rw [collect_add]
    intro node member
    rcases mem_add.mp member with earlier | new
    · exact inside node (.inl earlier)
    · cases rewritten with
      | move allowed moved => exact here node (Move.aims moved node new)
      | ghost shifted => exact Ghost.aims shifted here node new
      | fork forked => cases forked <;> exact here node new
      | start allowed entered => cases entered; cases new
  · rw [collect_add, collect_add]
    cases rewritten with
    | move allowed moved =>
      refine held.step (Move.holds moved sound.2 fun resets node same => ?_) _ _
      exact reset resets node _ (same ▸ allowed)
    | ghost shifted => exact held.step (Ghost.holds shifted sound.2 here) _ _
    | fork forked => cases forked <;> exact held
    | start allowed entered => cases entered; exact held

theorem Owned.works {seen : View π} {frames : Multiset (Frame π)} (owned : Owned env seen frames)
    {frame : Frame π} (here : frame ∈ frames) {node : Nat} (working : node ∈ frame.working) :
    seen.exec node = .executing := by
  have member : node ∈ collect Frame.working frames := mem_bind.mpr ⟨frame, here, working⟩
  have present := count_pos.mpr member
  rw [owned.held.work node] at present
  cases state : seen.exec node <;> simp [state, NodeExecutionState.works] at present ⊢

theorem Owned.executing {seen : View π} {top : List (Frame π)}
    (owned : Owned env seen (others + top)) :
    ∀ node ∈ top.flatMap Frame.working, seen.exec node = .executing := by
  intro node member
  obtain ⟨frame, here, working⟩ := List.mem_flatMap.mp member
  exact owned.works (mem_add.mpr (.inr here)) working

theorem Owned.idle {seen : View π} {frames : Multiset (Frame π)} (owned : Owned env seen frames)
    (still : ∀ frame ∈ frames, frame.floats = false)
    (tasks : ∀ id node stage, .task id node stage ∉ frames) (node : Nat) :
    ¬ (seen.exec node).Busy := by
  have none (part : Frame π → List Nat)
      (part_still : ∀ frame ∈ frames, part frame = []) : (collect part frames).count node = 0 := by
    refine count_eq_zero_of_notMem fun member => ?_
    obtain ⟨frame, here, inside⟩ := mem_bind.mp member
    simp [part_still frame here] at inside
  have ready := owned.held.ready node
  have work := owned.held.work node
  rw [none readying fun frame here => by
    have floats := still frame here
    cases frame <;>
      first | rfl | exact Bool.noConfusion floats | exact absurd here (tasks _ _ _)] at ready
  rw [none working fun frame here => by
    have floats := still frame here
    cases frame <;>
      first | rfl | exact Bool.noConfusion floats | exact absurd here (tasks _ _ _)] at work
  rintro (busy | busy) <;> rw [busy] at ready work <;> contradiction

/-- Nothing that is called unguarded throws, and no claimed node is reset. -/
def idleResets : EngineRules π where
  allows label choice state := (label = .external → choice.throws = false) ∧
    ∀ node, label = .resetNode node → ¬ (state.exec node).Busy
  starts procedure _ := procedure.isInterface = true

/-- No claim is lost: when all threads have ended, no node is READY or EXECUTING. -/
theorem claims_released {origin : State π} (idle : ∀ node, ¬ (origin.exec node).Busy)
    {config : EngineThreads π} (run : env.RunsTo idleResets origin config)
    (ended : ∀ thread ∈ config.threads, thread.program.finished = true) (node : Nat) :
    ¬ (config.shared.exec node).Busy := by
  have initial : Owned env (view origin) 0 :=
    ⟨by simp, by simp [collect], fun node => (idle_counts (idle node)).1.symm,
      fun node => (idle_counts (idle node)).2.symm⟩
  have calm : NoThrows (idleResets (π := π)) := fun _ _ allowed => allowed.1 rfl
  obtain ⟨entries, stands, kept⟩ := @engine_run _ _ _
    (fun state frames => Owned env (view state) frames) _
    (fun _ _ starts => Proc.standsAlone_of_isInterface starts) _ run initial
    fun _ _ _ _ _ _ _ => .step calm fun _ node _ allowed => allowed.2 node rfl
  have none := allFrames_eq_zero stands.settled ended kept.sound
  exact (none ▸ kept).idle (by simp) (by simp) node

theorem claims_released_processed : ∃ config, soloEngine.RunsTo idleResets streamingState config ∧
    config.threads ≠ [] ∧ ¬ (config.shared.exec 0).Busy := by
  obtain ⟨config, run, some, ended⟩ := soloEngine.played idleResets
    ⟨fun label choice state => !choice.throws && oneRunReferee.allows label choice state,
      oneRunReferee.starts⟩
    (fun label choice state allowed => by
      obtain ⟨calm, kept⟩ := Bool.and_eq_true_iff.mp allowed
      exact ⟨fun _ => by simpa using calm, fun node same => (oneRunReferee_allows kept node same).1⟩)
    (fun _ _ starts => starts) streamingState
    (.start (.pushInput "camera" "" (some ⟨0, 0, 0, ()⟩)) :: turns 0 23 {} ++ turns 1 36 {})
    (fun config => config.threads ≠ [] ∧
      ∀ thread ∈ config.threads, thread.program.finished = true) (by decide +kernel)
  exact ⟨config, run, some, claims_released
    (fun _ busy => by rcases busy with ready | executing <;> contradiction) run ended 0⟩

/-! Only nodes of the graph are ever busy. -/

def Frame.finishes : Frame π → List Nat
  | .eos node _ => [node]
  | _ => []

theorem Env.AllDrained.inside {node : Nat} {observed : List Obs}
    (drained : env.AllDrained node observed) : node < env.graph.nodeCount := by
  by_contra outside
  refine drained.1 ?_
  simp only [Env.portCount, CompiledGraph.inputPorts, inputPortsOf]
  rw [List.getElem?_eq_none (Nat.le_of_not_lt outside)]
  rfl

section Bounds

variable {label : Label π} {choice : Choice π} {seen seen' : View π}
  {top top' : List (Frame π)}

theorem Move.finishes (moved : Move env label choice seen top seen' top')
    (inside : ∀ node ∈ top.flatMap Frame.finishes, node < env.graph.nodeCount) :
    ∀ node ∈ top'.flatMap Frame.finishes, node < env.graph.nodeCount := by
  cases moved with
  | process moved =>
    cases moved
    case restoreFailed quit => cases quit <;> simp [finishes, afterFailure]
    case fail quit => cases quit <;> simp [finishes, afterFailure]
    all_goals simp [finishes]
  | eos moved =>
    cases moved
    case claim drained _ => simpa [finishes] using drained.inside
    all_goals first | exact inside | simp [finishes]
  | _ moved => cases moved <;> simp [finishes]

theorem Ghost.finishes (rewritten : Ghost env top top')
    (inside : ∀ node ∈ top.flatMap Frame.finishes, node < env.graph.nodeCount) :
    ∀ node ∈ top'.flatMap Frame.finishes, node < env.graph.nodeCount := by
  cases rewritten <;> first | exact inside | simp_all [finishes]

theorem finishes_step {rules : EngineRules π} {state state' : State π} {others : Multiset (Frame π)}
    (rewritten : Rewrites env.protocol view rules state top state' top')
    (before : ∀ node ∈ collect Frame.finishes (others + (top : Multiset _)),
      node < env.graph.nodeCount) :
    ∀ node ∈ collect Frame.finishes (others + (top' : Multiset _)),
      node < env.graph.nodeCount := by
  rw [collect_add] at before ⊢
  simp only [mem_add, mem_coe] at before ⊢
  have here : ∀ node ∈ top.flatMap finishes, node < env.graph.nodeCount :=
    fun node member => before node (.inr member)
  rintro node (earlier | new)
  · exact before node (.inl earlier)
  · cases rewritten with
    | move allowed moved => exact Move.finishes moved here node new
    | ghost shifted => exact Ghost.finishes shifted here node new
    | fork forked => cases forked <;> cases new
    | start allowed entered => cases entered; cases new

end Bounds

/-! The calls of `process()` and of `onEndOfStream()` that are under way. -/

inductive EnterStep : (Nat → Nat) → List Nat → (Nat → Nat) → List Nat → Prop
  | quiet {active inside} : EnterStep active inside active inside
  | enter {active} (node : Nat) :
      EnterStep active [] (Function.update active node (active node + 1)) [node]
  | leave {active} (node : Nat) :
      EnterStep active [node] (Function.update active node (active node - 1)) []

theorem EnterStep.counts {active active' : Nat → Nat} {inside inside' : List Nat}
    (stepped : EnterStep active inside active' inside') (others : Multiset Nat)
    (before : ∀ node, active node = (others + inside).count node) (node : Nat) :
    active' node = (others + inside').count node := by
  have here := before node
  simp only [count_add, coe_count] at here ⊢
  cases stepped with
  | quiet => exact here
  | enter entered | leave entered =>
    by_cases same : node = entered
    · subst same
      simp_all
    · simp_all [Ne.symm same]

section Calls

variable {label : Label π} {choice : Choice π} {seen seen' : View π}
  {top top' : List (Frame π)}

theorem Move.enters (moved : Move env label choice seen top seen' top') :
    EnterStep seen.processing (top.flatMap Frame.processed)
        seen'.processing (top'.flatMap Frame.processed) ∧
      EnterStep seen.flushing (top.flatMap Frame.finalized)
        seen'.flushing (top'.flatMap Frame.finalized) := by
  cases moved with
  | control moved =>
    cases moved
    case wipe life target rest => cases target <;> exact ⟨.quiet, .quiet⟩
    all_goals exact ⟨.quiet, .quiet⟩
  | process moved =>
    cases moved
    case callBegin node progress covered => exact ⟨.enter node, .quiet⟩
    case callEnd node held => exact ⟨.leave node, .quiet⟩
    case restoreFailed quit => cases quit <;> exact ⟨.quiet, .quiet⟩
    case fail quit => cases quit <;> exact ⟨.quiet, .quiet⟩
    all_goals exact ⟨.quiet, .quiet⟩
  | eos moved =>
    cases moved
    case flushBegin node => exact ⟨.quiet, .enter node⟩
    case flushEnd node => exact ⟨.quiet, .leave node⟩
    all_goals exact ⟨.quiet, .quiet⟩
  | _ moved => cases moved <;> exact ⟨.quiet, .quiet⟩

theorem Ghost.enters (rewritten : Ghost env top top') (sound : .crashed ∉ top) :
    top'.flatMap Frame.processed = top.flatMap Frame.processed ∧
      top'.flatMap Frame.finalized = top.flatMap Frame.finalized := by
  cases rewritten
  case unwind => simp at sound
  case stopping frame stops => exact ⟨rfl, rfl⟩
  all_goals exact ⟨rfl, rfl⟩

end Calls

structure Entered (seen : View π) (frames : Multiset (Frame π)) : Prop where
  processing : ∀ node, seen.processing node = (collect Frame.processed frames).count node
  flushing : ∀ node, seen.flushing node = (collect Frame.finalized frames).count node

theorem Entered.step {rules : EngineRules π} {state state' : State π}
    {others : Multiset (Frame π)} {top top' : List (Frame π)} (sound : .crashed ∉ top)
    (rewritten : Rewrites env.protocol view rules state top state' top')
    (before : Entered (view state) (others + top)) :
    Entered (view state') (others + top') := by
  obtain ⟨processing, flushing⟩ := before
  simp only [collect_add] at processing flushing
  constructor <;> rw [collect_add] <;> cases rewritten with
  | move allowed moved =>
    first
      | exact (Move.enters moved).1.counts _ processing
      | exact (Move.enters moved).2.counts _ flushing
  | ghost shifted =>
    first
      | exact (Ghost.enters shifted sound).1 ▸ processing
      | exact (Ghost.enters shifted sound).2 ▸ flushing
  | fork forked => cases forked <;> assumption
  | start allowed entered => cases entered; assumption

end AiPipe
