import AiPipe.Ownership

/-!
What a gather has peeked.  While nothing is evicted from a join that executes and no queue of it
is cleared, the task pops what it has seen and drops what it has taken out.
-/

namespace AiPipe

open Concurrency List AiPipe.Frame View

variable {π : Type} {env : Env}

abbrev Queues (π : Type) := Nat → Nat → PortQueue π

namespace Queues

def packetAt (queues : Queues π) (place : Place) : Option (PortDataPtr π) :=
  (queues place.node place.port).pushed[place.position]?

structure Heads (queues : Queues π) (node : Nat) (head : Taken π) : Prop where
  data : (queues node head.port).head? = some head.data
  position : (queues node head.port).dequeuePos = head.position

def Grow (queues queues' : Queues π) : Prop :=
  ∀ place data, queues.packetAt place = some data → queues'.packetAt place = some data

end Queues

structure Discard.Accurate (discard : Discard) (queues : Queues π) : Prop where
  names : ∀ place, discard.place = some place → place.node = discard.node ∧
    ∃ data, queues.packetAt place = some data ∧ frameIdOf data = discard.frame
  rejects : discard.place = none → discard = rejection discard.node

structure Env.Informed (env : Env) (queues : Queues π) (node : Nat) (progress : Gathering π) :
    Prop where
  heads : ∀ port head, progress.peeked port = some head →
    1 < env.portCount node ∧ head.port = port ∧ queues.Heads node head
  held : env.Aligns node → ∀ packet ∈ progress.held, packet ∈ progress.plan
  aligned : env.framePolicy.aligned (progress.plan.map Taken.data) = true
  dry : env.Aligns node → progress.dry = true → progress.held = []

def Frame.Informed (env : Env) (queues : Queues π) : Frame π → Prop
  | .task _ node (.gathering progress) => env.Informed queues node progress
  | .loose node packet plan => (env.Aligns node → packet ∈ plan) ∧
      queues.packetAt ⟨node, packet.port, packet.position⟩ = some packet.data
  | .condemned discard => discard.Accurate queues
  | .counted discard => discard.Accurate queues
  | .owing discard => discard.Accurate queues
  | _ => True

theorem Env.aligned_nil : (env.framePolicy (π := π)).aligned [] = true := by
  unfold Env.framePolicy
  cases env.config.alignmentPolicy <;> rfl

section Queues

variable {seen : View π} {node port : Nat}

theorem View.setQueue_queue (queue : PortQueue π) (node' port' : Nat) :
    (seen.setQueue node port queue).queue node' port' =
      if node' = node ∧ port' = port then queue else seen.queue node' port' := by
  unfold setQueue
  by_cases here : node' = node
  · subst here
    by_cases same : port' = port
    · subst same
      simp
    · simp [same]
  · simp [here]

theorem Queues.Grow.setQueue {queue : PortQueue π}
    (grows : (seen.queue node port).pushed <+: queue.pushed) :
    Queues.Grow seen.queue (seen.setQueue node port queue).queue := by
  intro place data found
  unfold Queues.packetAt at found ⊢
  rw [setQueue_queue]
  split
  next same =>
    obtain ⟨more, pushed⟩ := grows
    rw [same.1, same.2] at found
    rw [← pushed, List.getElem?_append_left (List.getElem?_eq_some_iff.mp found).1]
    exact found
  · exact found

variable {head : Taken π} {node' : Nat}

section

variable (before : Queues.Heads seen.queue node' head)
include before

theorem Queues.Heads.setQueue {queue : PortQueue π} (kept : node' = node → head.port = port →
      queue.head? = some head.data ∧ queue.dequeuePos = head.position) :
    Queues.Heads (seen.setQueue node port queue).queue node' head := by
  constructor <;> rw [setQueue_queue] <;> split
  next same => exact (kept same.1 same.2).1
  · exact before.data
  next same => exact (kept same.1 same.2).2
  · exact before.position

theorem Queues.Heads.push {data : PortDataPtr π} :
    Queues.Heads (seen.push node port data).queue node' head := by
  refine before.setQueue ?_
  rintro rfl rfl
  obtain ⟨bound, -⟩ := List.getElem?_eq_some_iff.mp before.data
  refine ⟨?_, before.position⟩
  rw [PortQueue.head?, PortQueue.push, List.getElem?_append_left bound]
  exact before.data

theorem Queues.Heads.pop (other : node' = node → head.port ≠ port) :
    Queues.Heads (seen.pop node port).queue node' head :=
  before.setQueue fun here there => absurd there (other here)

end

theorem Queues.Heads.headTaken {data : PortDataPtr π} (heads : Queues.Heads seen.queue node head)
    (found : (seen.queue node head.port).head? = some data) :
    seen.headTaken node head.port data = head := by
  obtain ⟨port, position, data'⟩ := head
  have same : data' = data := Option.some.inj (heads.data.symm.trans found)
  have place : (seen.queue node port).dequeuePos = position := heads.position
  rw [headTaken, place, same]

end Queues

section Steps

variable {label : Label π} {choice : Choice π} {seen seen' : View π}
  {top top' : List (Frame π)}

theorem Move.grow (moved : Move env label choice seen top seen' top') :
    Queues.Grow seen.queue seen'.queue := by
  have same : Queues.Grow seen.queue seen.queue := fun _ _ found => found
  have wiped (target : Wipe) : Queues.Grow seen.queue (seen.wipe target).queue := by
    cases target
    case queue => exact .setQueue (prefix_refl _)
    all_goals exact same
  have popped (node port : Nat) : Queues.Grow seen.queue (seen.pop node port).queue :=
    .setQueue (prefix_refl _)
  cases moved with
  | control moved =>
    cases moved
    case wipe life target rest => exact wiped target
    all_goals exact same
  | gather moved =>
    cases moved
    case pop => exact popped _ _
    case discard => exact popped _ _
    case discardAsked => exact popped _ _
    all_goals exact same
  | push moved =>
    cases moved
    case enqueue => exact .setQueue (prefix_append _ _)
    case evict => exact popped _ _
    all_goals exact same
  | _ moved => cases moved <;> exact same

def Env.LeavesHeads (env : Env) (label : Label π) (exec : ExecStates) : Prop :=
  ∀ node port, 1 < env.portCount node →
    label = .evict node port ∨ label = .clearQueue node port → exec node ≠ .executing

/-- A head that was peeked is published, so its pop is not refused. -/
def Env.Grants (env : Env) (label : Label π) (choice : Choice π) : Prop :=
  ∀ node port held, 1 < env.portCount node →
    label = .gatherPop node port held ∨ label = .discardPop node port → choice.refuses = false

variable {head : Taken π}

theorem Move.heads (moved : Move env label choice seen top seen' top')
    (leaves : env.LeavesHeads label seen.exec) {node : Nat}
    (several : 1 < env.portCount node) (executing : seen.exec node = .executing)
    (apart : node ∉ top.flatMap Frame.working) (before : Queues.Heads seen.queue node head) :
    Queues.Heads seen'.queue node head := by
  have wiped (target : Wipe) (same : label = target.label) :
      Queues.Heads (seen.wipe target).queue node head := by
    cases target
    case queue node' port =>
      refine before.setQueue ?_
      rintro rfl -
      exact absurd executing (leaves node port several (.inr same))
    all_goals exact before
  have popped {node' : Nat} (port : Nat) (other : node ≠ node') :
      Queues.Heads (seen.pop node' port).queue node head := before.pop fun same => absurd same other
  cases moved with
  | control moved =>
    cases moved
    case wipe life target rest => exact wiped target rfl
    all_goals exact before
  | gather moved =>
    cases moved
    case pop => exact popped _ fun same => apart (by simp [working, same])
    case discard => exact popped _ fun same => apart (by simp [working, same])
    case discardAsked => exact popped _ fun same => apart (by simp [working, same])
    all_goals exact before
  | push moved =>
    cases moved
    case enqueue => exact before.push
    case evict node' port _ _ _ _ _ _ _ _ =>
      refine popped _ ?_
      rintro rfl
      exact absurd executing (leaves node port several (.inl rfl))
    all_goals exact before
  | _ moved => cases moved <;> exact before

variable {queues queues' : Queues π}

theorem Discard.Accurate.later {discard : Discard}
    (before : discard.Accurate queues) (grow : queues.Grow queues') :
    discard.Accurate queues' := by
  refine ⟨fun place same => ?_, before.rejects⟩
  obtain ⟨here, data, found, named⟩ := before.names place same
  exact ⟨here, data, grow place data found, named⟩

theorem Frame.Informed.later {frame : Frame π}
    (before : frame.Informed env queues) (grow : queues.Grow queues')
    (heads : ∀ node ∈ frame.working, ∀ head, 1 < env.portCount node → queues.Heads node head →
      queues'.Heads node head) : frame.Informed env queues' := by
  cases frame with
  | task id node stage =>
    cases stage
    case gathering progress =>
      refine ⟨fun port head peeked => ?_, before.held, before.aligned, before.dry⟩
      obtain ⟨several, same, first⟩ := before.heads port head peeked
      exact ⟨several, same, heads node (by simp [working]) head several first⟩
    all_goals trivial
  | loose node packet plan => exact ⟨before.1, grow _ _ before.2⟩
  | condemned discard => exact Discard.Accurate.later before grow
  | counted discard => exact Discard.Accurate.later before grow
  | owing discard => exact Discard.Accurate.later before grow
  | _ => trivial

variable {node port : Nat}

theorem View.packetAt_pop {data : PortDataPtr π}
    (found : (seen.queue node port).head? = some data) :
    Queues.packetAt (seen.pop node port).queue (seen.headPlace node port) = some data := by
  have grow : Queues.Grow seen.queue (seen.pop node port).queue := .setQueue (prefix_refl _)
  exact grow _ _ found

variable {progress : Gathering π}

section

variable (before : env.Informed seen.queue node progress)
include before

theorem Env.Informed.pop : env.Informed (seen.pop node port).queue node (progress.unpeek port) := by
  refine ⟨fun other head peeked => ?_, before.held, before.aligned, before.dry⟩
  by_cases same : other = port
  · subst same
    simp [Gathering.unpeek] at peeked
  · rw [progress.unpeek_other same] at peeked
    obtain ⟨several, rfl, first⟩ := before.heads other head peeked
    exact ⟨several, rfl, first.pop fun _ => same⟩

theorem Env.Informed.accurate
    {data : PortDataPtr π} {discard : Discard} (peeked : progress.peeked port = some head)
    (found : (seen.queue node port).head? = some data)
    (placed : discard.place = some (seen.headPlace node port)) (here : discard.node = node)
    (named : discard.frame = frameIdOf head.data) :
    discard.Accurate (seen.pop node port).queue := by
  obtain ⟨-, rfl, first⟩ := before.heads port head peeked
  have same : head.data = data := Option.some.inj (first.data.symm.trans found)
  refine ⟨fun place equal => ?_, by simp [placed]⟩
  obtain rfl := Option.some.inj (placed.symm.trans equal)
  exact ⟨here.symm, data, packetAt_pop found, by rw [named, same]⟩

theorem Env.Informed.not_dry (grants : env.Grants label choice) (held : Nat)
    (peeked : progress.peeked port = some head)
    (pops : label = .gatherPop node port held ∨ label = .discardPop node port) :
    choice.offered (seen.queue node port) ≠ none := by
  obtain ⟨several, rfl, first⟩ := before.heads port head peeked
  simp [Choice.offered, grants node head.port held several pops, first.data]

end

theorem GatherMove.informed (moved : GatherMove env label choice seen top seen' top')
    (grants : env.Grants label choice) (before : ∀ frame ∈ top, frame.Informed env seen.queue) :
    ∀ frame ∈ top', frame.Informed env seen'.queue := by
  cases moved
  case takeDegrade | keepDegrade | skip =>
    simp only [forall_mem_singleton] at before ⊢
    exact ⟨before.heads, before.held, before.aligned, before.dry⟩
  case peek id node port progress data several found =>
    simp only [forall_mem_singleton] at before ⊢
    refine ⟨fun other head peeked => ?_, before.held, before.aligned, before.dry⟩
    by_cases same : other = port
    · subst same
      simp only [Gathering.peek, headTaken, Function.update_self, Option.some.injEq] at peeked
      subst peeked
      exact ⟨several, rfl, found, rfl⟩
    · simp only [Gathering.peek, headTaken, Function.update_of_ne same] at peeked
      exact before.heads other head peeked
  case pop id node port progress data declared planned found =>
    simp only [forall_mem_cons, not_mem_nil, false_implies, implies_true, and_true]
      at before ⊢
    have after := @Env.Informed.pop π env seen node port progress before
    refine ⟨⟨fun aligns => ?_, packetAt_pop found⟩, after.heads, after.held, after.aligned,
      by simp⟩
    obtain ⟨head, member, peeked⟩ := planned aligns
    obtain ⟨-, rfl, first⟩ := before.heads port head peeked
    rwa [first.headTaken found]
  case popDry id node port progress planned none =>
    simp only [forall_mem_singleton] at before ⊢
    refine ⟨before.heads, before.held, before.aligned, fun aligns _ => ?_⟩
    obtain ⟨head, -, peeked⟩ := planned aligns
    exact absurd none (before.not_dry grants _ peeked (.inl rfl))
  case ask => simp [Informed]
  case discard id node port progress data head reason joins peeked found =>
    simp only [forall_mem_cons, not_mem_nil, false_implies, implies_true, and_true]
      at before ⊢
    exact ⟨before.accurate peeked found rfl rfl rfl, before.pop⟩
  case discardDry id node port progress head reason joins peeked none =>
    simp only [forall_mem_singleton] at before
    exact absurd none (before.not_dry grants 0 peeked (.inr rfl))
  case discardAsked id node port progress data head joins peeked found =>
    simp only [forall_mem_cons, not_mem_nil, false_implies, implies_true, and_true]
      at before ⊢
    exact ⟨before.2.accurate peeked found rfl rfl rfl, before.2.pop⟩
  case discardAskedDry id node port progress head joins peeked none =>
    simp only [forall_mem_cons, not_mem_nil, false_implies, implies_true, and_true]
      at before
    exact absurd none (before.2.not_dry grants 0 peeked (.inr rfl))
  case countDrop => simpa [Informed] using before
  case callBack => simp
  case callBackOwing => simpa [Informed] using before
  case tell => simp
  case tellThrows => simp [Informed]

theorem Move.informed (moved : Move env label choice seen top seen' top')
    (grants : env.Grants label choice) (before : ∀ frame ∈ top, frame.Informed env seen.queue) :
    ∀ frame ∈ top', frame.Informed env seen'.queue := by
  cases moved with
  | control moved =>
    cases moved
    all_goals simp [Informed]
  | schedule moved =>
    cases moved
    case begin =>
      simp only [forall_mem_singleton]
      exact ⟨by simp, by simp, Env.aligned_nil, by simp⟩
    all_goals simp [Informed]
  | gather moved => exact moved.informed grants before
  | push moved =>
    cases moved
    case evict node port data route pressure head reason _ _ found =>
      simp only [forall_mem_cons, not_mem_nil, false_implies, implies_true, and_true]
      refine ⟨⟨fun place same => ?_, by simp [Env.evictedDiscard]⟩, trivial⟩
      obtain rfl := Option.some.inj same
      exact ⟨rfl, head, packetAt_pop found, rfl⟩
    all_goals simp [Informed]
  | process moved =>
    cases moved
    case restoreFailed quit => cases quit <;> simp [afterFailure, Informed]
    case fail quit => cases quit <;> simp [afterFailure, Informed]
    all_goals simp [Informed]
  | _ moved => cases moved <;> simp [Informed]

theorem Ghost.informed {queues : Queues π} (rewritten : Ghost env top top')
    (before : ∀ frame ∈ top, frame.Informed env queues) :
    ∀ frame ∈ top', frame.Informed env queues := by
  cases rewritten
  case dryHands id node progress empty nothing =>
    simp only [forall_mem_singleton] at before ⊢
    exact ⟨before.heads, before.held, before.aligned, fun _ _ => empty⟩
  case align id node progress plan ready peeked aligned =>
    simp only [forall_mem_singleton] at before ⊢
    have nothing (aligns : env.Aligns node) : progress.held = [] :=
      ready.elim (fun empty => empty) fun dry => before.dry aligns dry
    refine ⟨before.heads, fun aligns packet member => ?_, aligned, before.dry⟩
    rw [nothing aligns] at member
    cases member
  case keep id node packet progress =>
    simp only [forall_mem_cons, not_mem_nil, false_implies, implies_true, and_true]
      at before ⊢
    obtain ⟨⟨planned, -⟩, informed⟩ := before
    refine ⟨informed.heads, fun aligns other member => ?_, informed.aligned, by simp [Gathering.keep]⟩
    rcases mem_append.mp member with earlier | last
    · exact informed.held aligns other earlier
    · exact mem_singleton.mp last ▸ planned aligns
  case condemn node plan packet enabled =>
    simp only [forall_mem_cons, not_mem_nil, false_implies, implies_true, and_true]
      at before ⊢
    refine ⟨fun place same => ?_, by simp [askedDiscard]⟩
    obtain rfl := Option.some.inj same
    exact ⟨rfl, packet.data, before.2.2, rfl⟩
  case reject =>
    simp only [forall_mem_singleton]
    exact ⟨by simp [rejection], fun _ => rfl⟩
  case stopping frame stops => simpa [Informed] using before
  all_goals simp_all [Informed]

end Steps

variable {others : Multiset (Frame π)}

theorem Owned.apart {seen : View π} {top : List (Frame π)}
    (owned : Owned env seen (others + top)) {frame : Frame π}
    (other : frame ∈ others) {node : Nat} (works : node ∈ frame.working) :
    node ∉ top.flatMap Frame.working ∧ seen.exec node = .executing := by
  have counted := owned.held.work node
  rw [collect_add, Multiset.count_add, Multiset.coe_count] at counted
  have first : 1 ≤ (collect working others).count node :=
    Multiset.one_le_count_iff_mem.mpr (Multiset.mem_bind.mpr ⟨frame, other, works⟩)
  have most : (seen.exec node).works ≤ 1 := by cases seen.exec node <;> decide
  refine ⟨fun second => ?_, ?_⟩
  · have again := one_le_count_iff.mpr second
    omega
  · cases state : seen.exec node <;> simp_all [NodeExecutionState.works]

structure Env.Steadies (env : Env) (rules : EngineRules π) : Prop where
  calm : NoThrows rules
  resets : ∀ node choice state, rules.allows (.resetNode node) choice state →
    ¬ (state.exec node).Busy
  leaves : ∀ label choice state, rules.allows label choice state →
    env.LeavesHeads label state.exec ∧ env.Grants label choice

structure Attentive (env : Env) (seen : View π) (frames : Multiset (Frame π)) : Prop where
  owned : Owned env seen frames
  informed : ∀ frame ∈ frames, frame.Informed env seen.queue

theorem Attentive.step {rules : EngineRules π} (steadies : env.Steadies rules)
    {state state' : State π} {top top' : List (Frame π)}
    (rewritten : Rewrites env.protocol view rules state top state' top')
    (before : Attentive env (view state) (others + top)) :
    Attentive env (view state') (others + top') := by
  obtain ⟨owned, informed⟩ := before
  refine ⟨owned.step steadies.calm (fun _ node choice => steadies.resets node choice state)
    rewritten, fun frame member => ?_⟩
  simp only [Multiset.mem_add, Multiset.mem_coe] at informed member
  have here : ∀ frame ∈ top, frame.Informed env (view state).queue :=
    fun frame inside => informed frame (.inr inside)
  rcases member with other | new
  · have believed := informed frame (.inl other)
    cases rewritten with
    | move allowed moved =>
      refine believed.later (Move.grow moved) fun node works head several first => ?_
      obtain ⟨apart, executing⟩ := owned.apart other works
      exact Move.heads moved (steadies.leaves _ _ _ allowed).1 several executing apart first
    | ghost shifted => exact believed
    | fork forked => exact believed
    | start allowed entered => exact believed
  · revert frame
    cases rewritten with
    | move allowed moved => exact Move.informed moved (steadies.leaves _ _ _ allowed).2 here
    | ghost shifted => exact Ghost.informed shifted here
    | fork forked => cases forked <;> simp [Informed]
    | start allowed entered => cases entered; simp [Informed]

theorem attentive_origin {origin : State π} (idle : ∀ node, ¬ (origin.exec node).Busy) :
    Attentive env (view origin) 0 := by
  refine ⟨⟨by simp, by simp [collect], ?_, ?_⟩, by simp⟩ <;> intro node <;>
    have counts := NodeExecutionState.idle_counts (idle node)
  · exact counts.1.symm
  · exact counts.2.symm

end AiPipe
