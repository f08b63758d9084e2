import AiPipe.Packets
import AiPipe.Wakeup
import Mathlib.Algebra.BigOperators.Group.Finset.Basic

/-!
What is left in the queues when `stopStreaming()` returns.  The stop flag lets the drain wait
pass at once and keeps tasks that have not begun from taking their inputs, so the call leaves
the queues drained only when nothing but sinks is at work by then.
-/

namespace AiPipe

open Concurrency Multiset PortQueue AiPipe.Frame List

variable {π : Type} {env : Env}

def Env.DrainedAt (env : Env) (queue : Nat → Nat → PortQueue π) (node : Nat) : Prop :=
  (∀ port < env.portCount node, (queue node port).empty = true) ∨
    env.graph.isSource node = false ∧ ∃ port < env.portCount node, (queue node port).empty = true

def Env.Drained (env : Env) (queue : Nat → Nat → PortQueue π) : Prop :=
  ∀ node < env.graph.nodeCount, env.DrainedAt queue node

theorem Env.drainedAt_of_not_stranded {state : State π} {node : Nat}
    (waiting : state.exec node = .waiting) (served : ¬ env.Stranded state node) :
    env.DrainedAt state.queue node := by
  by_cases ports : env.portCount node = 0
  · exact .inl fun port bound => by omega
  · simp only [Env.Stranded, waiting, true_and, ne_eq, ports, not_false_eq_true, not_or,
      not_and, not_exists, not_forall, Bool.not_eq_false] at served
    cases source : env.graph.isSource node with
    | true => exact .inl (served.2 source)
    | false =>
      obtain ⟨port, bound, empty⟩ := served.1
      exact .inr ⟨source, port, bound, empty⟩

/-- All frames but those that may still take a packet out of a queue for `process()`, or hand on
what `process()` has answered.  While the stop flag is down, no task may be on its way and only
sinks may answer. -/
def Env.idles (env : Env) (stopped : Bool) : Frame π → Bool
  | .claimed _ _ => stopped
  | .task _ _ .announced => stopped
  | .task _ _ .posted => stopped
  | .task _ _ .admitted => false
  | .task _ _ (.gathering _) => false
  | .task _ node (.calling _) => env.graph.isSink node
  | .task _ node (.called _ _) => stopped || env.graph.isSink node
  | .eos _ _ => stopped
  | .emit _ _ (.routing rest) => rest.isEmpty
  | .emit node _ _ => stopped || env.graph.isSink node
  | .pushing _ _ _ (.edge _ _) _ => false
  | _ => true

theorem Env.idles_mono {stopped stopped' : Bool} (raised : stopped = true → stopped' = true)
    {frame : Frame π} (before : env.idles stopped frame = true) :
    env.idles stopped' frame = true := by
  cases frame with
  | task id node stage => cases stage <;> grind [idles]
  | emit node outputs stage => cases stage <;> grind [idles]
  | pushing node port data route pressure => cases route <;> simp_all [idles]
  | _ => simp_all [idles]

section Queues

variable {queue : Nat → Nat → PortQueue π}

theorem Env.Drained.set (drained : env.Drained queue) (node port : Nat) {next : PortQueue π}
    (shorter : (queue node port).empty = true → next.empty = true) :
    env.Drained (Function.update queue node (Function.update (queue node) port next)) := by
  have kept {node' port' : Nat} (empty : (queue node' port').empty = true) :
      (Function.update queue node (Function.update (queue node) port next) node' port').empty =
        true := by
    by_cases here : node' = node
    · subst here
      by_cases same : port' = port
      · subst same
        simpa using shorter empty
      · simpa [same] using empty
    · simpa [here] using empty
  intro node' inside
  rcases drained node' inside with all | ⟨join, port', bound, empty⟩
  · exact .inl fun port' bound => kept (all port' bound)
  · exact .inr ⟨join, port', bound, kept empty⟩

theorem PortQueue.pop_empty {queue : PortQueue π} (empty : queue.empty = true) :
    queue.pop.empty = true := by
  simp only [PortQueue.empty, PortQueue.size, PortQueue.pop, beq_iff_eq] at empty ⊢
  omega

theorem PortQueue.clear_empty (queue : PortQueue π) : queue.clear.empty = true := by
  simp [empty, size, clear]

end Queues

section Steps

variable {label : Label π} {choice : Choice π} {seen seen' : View π}
  {top top' : List (Frame π)}

theorem View.drained_wipe {target : Wipe} (drained : env.Drained seen.queue) :
    env.Drained (seen.wipe target).queue := by
  cases target
  case queue node port => exact drained.set node port fun _ => clear_empty _
  all_goals exact drained

theorem Move.raised (moved : Move env label choice seen top seen' top')
    (stays : label ≠ .clearStop ∧ label ≠ .beginRun) (before : seen.stop = true) :
    seen'.stop = true := by
  cases moved with
  | control moved =>
    cases moved
    case wipe life target rest =>
      cases target
      case beginRun => exact absurd rfl stays.2
      case stopFlag => exact absurd rfl stays.1
      all_goals exact before
    case unstop => exact absurd rfl stays.1
    case halt | beginStop => rfl
    all_goals exact before
  | _ moved => cases moved <;> exact before

theorem Move.drained (moved : Move env label choice seen top seen' top')
    (unfed : ∀ node port route, label = .enqueue node port route →
      ∃ source edge, route = .edge source edge)
    (before : env.Drained seen.queue) (calm : top.all (env.idles seen.stop) = true) :
    env.Drained seen'.queue := by
  have popped (node port : Nat) : env.Drained (seen.pop node port).queue :=
    before.set node port pop_empty
  cases moved with
  | control moved =>
    cases moved
    case wipe => exact View.drained_wipe before
    all_goals exact before
  | gather moved => cases moved <;> first | exact before | exact popped _ _
  | push moved =>
    cases moved
    case enqueue node port data route pressure room =>
      obtain ⟨source, edge, rfl⟩ := unfed node port route rfl
      cases calm
    case evict => exact popped _ _
    all_goals exact before
  | _ moved => cases moved <;> exact before

theorem Move.idles (moved : Move env label choice seen top seen' top')
    (unclaimed : seen.stop = false → ∀ node, label ≠ .claimTask node ∧ label ≠ .claimEos node)
    (calm : top.all (env.idles seen.stop) = true) : top'.all (env.idles seen.stop) = true := by
  have claims {node : Nat} (claim : label = .claimTask node ∨ label = .claimEos node) :
      seen.stop = true := by
    by_contra running
    have none := unclaimed (Bool.eq_false_iff.mpr running) node
    exact claim.elim none.1 none.2
  cases moved with
  | schedule moved =>
    cases moved
    case claim => simp [Env.idles, claims (.inl rfl)]
    all_goals simp_all [Env.idles]
  | process moved =>
    cases moved
    case depart node outputs running =>
      simpa [Env.idles, running, CompiledGraph.isSink] using calm
    case restoreFailed quit => cases quit <;> simp [Env.idles, afterFailure]
    case fail quit => cases quit <;> simp [Env.idles, afterFailure]
    all_goals simp_all [Env.idles]
  | eos moved =>
    cases moved
    case claim => simp [Env.idles, claims (.inr rfl)]
    all_goals simp_all [Env.idles]
  | push moved =>
    cases moved
    case evict route _ _ _ _ => cases route <;> simp_all [Env.idles]
    case crowd route _ _ => cases route <;> simp_all [Env.idles]
    case full route _ _ => cases route <;> simp_all [Env.idles]
    case enqueue => rfl
  | _ moved => cases moved <;> simp_all [Env.idles]

theorem Ghost.idles {stopped : Bool} (rewritten : Ghost env top top')
    (before : top.all (env.idles stopped) = true) : top'.all (env.idles stopped) = true := by
  cases rewritten <;> simp_all [Env.idles]

end Steps

/-- Where `m_stopFlag` is still down, no node is claimed.  No client pushes, no new run starts, and
no packet is lost by a gather. -/
def drainingStop : EngineRules π where
  allows label choice state := completeGathers.allows label choice state ∧
    (label ≠ .clearStop ∧ label ≠ .beginRun) ∧
    (∀ node port route, label = .enqueue node port route →
      ∃ source edge, route = .edge source edge) ∧
    (state.stopFlag = false → ∀ node, label ≠ .claimTask node ∧ label ≠ .claimEos node)
  starts procedure _ := procedure.isInterface = true

structure Stilled (env : Env) (state : State π) (frames : Multiset (Frame π)) : Prop where
  accounted : Accounted env (view state) frames
  drained : env.Drained state.queue
  calm : ∀ frame ∈ frames, env.idles state.stopFlag frame = true

theorem Stilled.step {state state' : State π} {others : Multiset (Frame π)}
    {top top' : List (Frame π)}
    (rewritten : Rewrites env.protocol view drainingStop state top state' top')
    (before : Stilled env state (others + top)) : Stilled env state' (others + top') := by
  obtain ⟨accounted, drained, calm⟩ := before
  have here := all_of_mem_add calm
  have complete : ∀ label choice state, (drainingStop (π := π)).allows label choice state →
      completeGathers.allows label choice state := fun _ _ _ allowed => allowed.1
  have kept := accounted.step complete rewritten
  cases rewritten with
  | move allowed moved =>
    obtain ⟨-, stays, unfed, unclaimed⟩ := allowed
    refine ⟨kept, Move.drained moved unfed drained here, fun frame member => ?_⟩
    exact Env.idles_mono (Move.raised moved stays)
      (mem_add_of_all calm (Move.idles moved unclaimed here) frame member)
  | ghost shifted => exact ⟨kept, drained, mem_add_of_all calm (Ghost.idles shifted here)⟩
  | fork forked =>
    refine ⟨kept, drained, mem_add_of_all calm ?_⟩
    cases forked <;> simp_all [Env.idles]
  | start allowed entered =>
    cases entered
    exact ⟨kept, drained, mem_add_of_all calm rfl⟩

section Call

variable {frames : Multiset (Frame π)}

def Frame.elsewhere : Frame π → Nat
  | .task _ _ (.calling _) => 0
  | .task _ _ _ => 1
  | _ => 0

theorem all_calling (same : card (collect opened frames) = card (collect processed frames))
    (id node : Nat) (stage : Stage π) (here : .task id node stage ∈ frames) :
    ∃ held, stage = .calling held := by
  have parts (frame : Frame π) :
      frame.opened.length = frame.processed.length + frame.elsewhere := by
    cases frame with
    | task id node stage => cases stage <;> rfl
    | _ => rfl
  simp only [card_collect, parts, total_sum] at same
  have none : total Frame.elsewhere frames = 0 := by omega
  have zero := Multiset.sum_eq_zero_iff.mp none _ (mem_map_of_mem Frame.elsewhere here)
  cases stage with
  | calling held => exact ⟨held, rfl⟩
  | _ => cases zero

theorem calling_of_processed {node : Nat} (member : node ∈ collect processed frames) :
    ∃ id held, .task id node (.calling held) ∈ frames := by
  obtain ⟨frame, here, inside⟩ := mem_bind.mp member
  cases frame with
  | task id owner stage =>
    cases stage with
    | calling held =>
      obtain rfl := List.mem_singleton.mp inside
      exact ⟨id, held, here⟩
    | _ => cases inside
  | _ => cases inside

theorem sum_count_range {items : Multiset Nat} {bound : Nat} (inside : ∀ item ∈ items, item < bound) :
    ((List.range bound).map fun index => items.count index).sum = card items :=
  Multiset.sum_count_eq_card fun item here => Finset.mem_range.mpr (inside item here)

/-- What is under way when `stopStreaming()` is called.  The clients have returned, the watchdog
is between two ticks, and every open task is inside the `process()` of a sink that has nothing
queued. -/
structure Env.OnlySinksRun (env : Env) (config : EngineThreads π) : Prop where
  returned : ∀ thread ∈ config.threads,
    thread.procedure.isBackground = true ∨ thread.program.finished = true
  unwatched : config.shared.watchdogMutex = false
  tasks : config.shared.activeTasks =
    ((List.range env.graph.nodeCount).map fun node => (config.shared.node node).processing).sum
  nodes : ∀ node < env.graph.nodeCount, config.shared.exec node = .waiting ∨
    env.graph.isSink node = true ∧ env.DrainedAt config.shared.queue node

theorem Counted.active {state : State π} (counted : Counted state frames) :
    state.activeTasks = card (collect opened frames) := by
  obtain ⟨opened, -, active⟩ := counted.2
  have sizes := congrArg card opened
  simp only [View.books, view, card_add, coe_card, card_range] at sizes active
  omega

structure Tended (env : Env) (state : State π) (frames : Multiset (Frame π)) : Prop where
  serving : Serving env state frames
  accounted : Accounted env (view state) frames

theorem Env.OnlySinksRun.stilled {config : EngineThreads π}
    {entries : List (Proc π × List (Frame π))} (sinks : env.OnlySinksRun config)
    (stands : env.Stands config.threads entries)
    (tended : Tended env config.shared (allFrames entries)) :
    Stilled env config.shared (allFrames entries) := by
  obtain ⟨serving, accounted⟩ := tended
  have aimed {id node : Nat} {stage : Stage π} (here : .task id node stage ∈ allFrames entries) :
      node < env.graph.nodeCount :=
    serving.owned.inside node (mem_bind.mpr ⟨_, here, List.mem_singleton_self _⟩)
  have inside : ∀ node ∈ collect processed (allFrames entries), node < env.graph.nodeCount := by
    intro node member
    obtain ⟨id, held, here⟩ := calling_of_processed member
    exact aimed here
  have calling : ∀ id node stage, .task id node stage ∈ allFrames entries →
      ∃ held, stage = .calling held := by
    refine all_calling ?_
    have active := serving.counted.active
    have sum := sum_count_range inside
    simp only [← accounted.entered.processing] at sum
    rw [sinks.tasks] at active
    exact (Int.ofNat.inj active).symm.trans sum
  have still := serving.still stands sinks.returned sinks.unwatched calling
  refine ⟨accounted, fun node known => ?_, fun frame here => ?_⟩
  · rcases sinks.nodes node known with waiting | ⟨-, drained⟩
    · exact env.drainedAt_of_not_stranded waiting
        (serving.not_stranded (fun frame here => (still frame here).1) known)
    · exact drained
  · have floats := (still frame here).1
    cases frame with
    | task id node stage =>
      obtain ⟨held, rfl⟩ := calling id node stage here
      rcases sinks.nodes node (aimed here) with waiting | ⟨sink, -⟩
      · have executing := serving.owned.works here (List.mem_singleton_self _)
        exact NodeExecutionState.noConfusion (waiting.symm.trans executing)
      · exact sink
    | _ => first | rfl | cases floats

end Call

/-- Streaming without an end in which no packet is lost by a gather. -/
def completeStreaming : EngineRules π where
  allows label choice state := endlessStreaming.allows label choice state ∧
    completeGathers.allows label choice state
  starts := endlessStreaming.starts

theorem streams_completeStreaming : Streams (completeStreaming (π := π)) where
  calm _ _ allowed := streams_endlessStreaming.calm _ _ allowed.1
  posts _ _ _ allowed := streams_endlessStreaming.posts _ _ _ allowed.1
  cancels _ _ _ allowed := streams_endlessStreaming.cancels _ _ _ allowed.1
  starts := streams_endlessStreaming.starts

theorem Tended.step (eager : env.scheduler.Eager) {state state' : State π}
    {others : Multiset (Frame π)} {top top' : List (Frame π)}
    (rewritten : Rewrites env.protocol view completeStreaming state top state' top')
    (before : Tended env state (others + top)) : Tended env state' (others + top') := by
  have complete : ∀ label choice state, (completeStreaming (π := π)).allows label choice state →
      completeGathers.allows label choice state := fun _ _ _ allowed => allowed.2
  exact ⟨before.serving.step streams_completeStreaming
    (fun _ _ _ starts => Bool.noConfusion starts) eager rewritten,
    before.accounted.step complete rewritten⟩

theorem Stilled.answered {state : State π} {frames : Multiset (Frame π)}
    (stilled : Stilled env state frames) (node : Nat) (onward : env.graph.isSink node = false) :
    (state.node node).processing = 0 := by
  have counted : (state.node node).processing = _ := stilled.accounted.entered.processing node
  rw [counted, Multiset.count_eq_zero]
  intro member
  obtain ⟨id, held, here⟩ := calling_of_processed member
  exact Bool.noConfusion (onward.symm.trans (stilled.calm _ here))

end AiPipe
