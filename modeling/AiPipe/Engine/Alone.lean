import AiPipe.Concurrency.Alone
import AiPipe.Engine.Runs

/-!
The engine's programs while no other thread moves and foreign code does not throw: what a push
leaves in its queue, and that an attempt to schedule a node touches no queue.
-/

namespace AiPipe

open Concurrency PortQueue List State

variable {π : Type}

namespace PortQueue

def keep (queue : PortQueue π) (count : Nat) : PortQueue π where
  pushed := queue.pushed
  dequeuePos := max queue.dequeuePos (queue.pushed.length - count)
  bounded := by
    have bounded := queue.bounded
    omega

variable {queue : PortQueue π}

theorem eq_of_pos {other : PortQueue π} (pushed : queue.pushed = other.pushed)
    (position : queue.dequeuePos = other.dequeuePos) : queue = other := by
  cases queue
  cases other
  cases pushed
  cases position
  rfl

theorem keep_of_le {count : Nat} (few : queue.size ≤ count) : queue.keep count = queue := by
  refine eq_of_pos rfl ?_
  change max queue.dequeuePos (queue.pushed.length - count) = queue.dequeuePos
  unfold size at few
  omega

theorem keep_keep (count fewer : Nat) :
    (queue.keep count).keep fewer = queue.keep (min count fewer) := by
  refine eq_of_pos rfl ?_
  change max (max queue.dequeuePos (queue.pushed.length - count)) (queue.pushed.length - fewer) =
    max queue.dequeuePos (queue.pushed.length - min count fewer)
  omega

theorem keep_pop {count : Nat} (many : count < queue.size) :
    queue.pop.keep count = queue.keep count := by
  refine eq_of_pos rfl ?_
  change max (min (queue.dequeuePos + 1) queue.pushed.length) (queue.pushed.length - count) =
    max queue.dequeuePos (queue.pushed.length - count)
  unfold size at many
  omega

theorem size_pop : queue.pop.size = queue.size - 1 := by
  change queue.pushed.length - min (queue.dequeuePos + 1) queue.pushed.length =
    queue.pushed.length - queue.dequeuePos - 1
  omega

variable (data : PortDataPtr π)

theorem size_push : (queue.push data).size = queue.size + 1 := by
  have bounded := queue.bounded
  change (queue.pushed ++ [data]).length - queue.dequeuePos = queue.pushed.length - queue.dequeuePos + 1
  rw [length_append, length_singleton]
  omega

theorem items_pop : queue.pop.items = queue.items.tail := by
  have bounded := queue.bounded
  rw [items, items, tail_drop]
  change queue.pushed.drop (min (queue.dequeuePos + 1) queue.pushed.length) = _
  by_cases last : queue.dequeuePos + 1 ≤ queue.pushed.length
  · rw [Nat.min_eq_left last]
  · rw [Nat.min_eq_right (by omega), drop_of_length_le (by omega), drop_of_length_le (by omega)]

theorem items_push : (queue.push data).items = queue.items ++ [data] :=
  drop_append_of_le_length queue.bounded

theorem head?_isSome : queue.head?.isSome = true ↔ 0 < queue.size := by
  rw [head?, size, Option.isSome_iff_ne_none, Ne, getElem?_eq_none_iff]
  omega

end PortQueue

def QueueConfig.limit (config : QueueConfig) : Nat :=
  match config.dropPolicy with
  | .keepLatest => min (max config.keepLatestN 1) config.capacity
  | _ => config.capacity

def PortQueue.offer (config : QueueConfig) (queue : PortQueue π) (data : PortDataPtr π) :
    Option (PortQueue π) :=
  if config.dropPolicy = .dropTail ∧ config.capacity ≤ queue.size then none
  else some ((queue.keep (config.limit - 1)).push data)

structure Tracked (π : Type) where
  queue : Nat → Nat → PortQueue π
  engineMutex : Bool
  nextFrameId : Nat
  nextStreamFrameId : Nat → Nat

def State.tracked (state : State π) : Tracked π where
  queue := state.queue
  engineMutex := state.engineMutex
  nextFrameId := state.nextFrameId
  nextStreamFrameId := state.nextStreamFrameId

def Tracked.setQueue (tracked : Tracked π) (node port : Nat) (queue : PortQueue π) : Tracked π :=
  { tracked with
    queue := Function.update tracked.queue node (Function.update (tracked.queue node) port queue) }

namespace Tracked

variable {tracked : Tracked π} {node port : Nat} {queue other : PortQueue π}

@[simp] theorem setQueue_same : (tracked.setQueue node port queue).queue node port = queue := by
  simp [setQueue]

theorem setQueue_other {node' port' : Nat} (apart : (node', port') ≠ (node, port)) :
    (tracked.setQueue node port queue).queue node' port' = tracked.queue node' port' := by
  by_cases same : node' = node
  · subst same
    have different : port' ≠ port := fun equal => apart (by rw [equal])
    simp [setQueue, different]
  · simp [setQueue, same]

@[simp] theorem setQueue_setQueue :
    (tracked.setQueue node port queue).setQueue node port other = tracked.setQueue node port other := by
  simp [setQueue]

theorem setQueue_eq (same : tracked.queue node port = queue) :
    tracked.setQueue node port queue = tracked := by
  subst same
  simp [setQueue]

end Tracked

namespace State

variable {state : State π}

theorem queue_updateNode (node : Nat) (change : NodeState π → NodeState π) :
    (state.updateNode node change).queue =
      Function.update state.queue node (change (state.node node)).queues :=
  Function.comp_update NodeState.queues state.node node (change (state.node node))

theorem tracked_updateNode {node : Nat} {change : NodeState π → NodeState π}
    (same : (change (state.node node)).queues = (state.node node).queues) :
    (state.updateNode node change).tracked = state.tracked := by
  have queues : (state.updateNode node change).queue = state.queue := by
    rw [queue_updateNode, same]
    exact Function.update_eq_self node state.queue
  rw [tracked, queues]
  rfl

theorem tracked_updateQueue (node port : Nat) (change : PortQueue π → PortQueue π) :
    (state.updateQueue node port change).tracked =
      state.tracked.setQueue node port (change (state.queue node port)) := by
  have queues : (state.updateQueue node port change).queue =
      (state.tracked.setQueue node port (change (state.queue node port))).queue :=
    queue_updateNode node _
  rw [tracked, queues]
  rfl

theorem queue_updateQueue (node port : Nat) (change : PortQueue π → PortQueue π) :
    (state.updateQueue node port change).queue node port = change (state.queue node port) := by
  change (state.updateQueue node port change).tracked.queue node port = _
  rw [tracked_updateQueue, Tracked.setQueue_same]

def drained (state : State π) (node port : Nat) : Bool :=
  state.latched node port && (state.queue node port).empty

end State

/-- Nothing throws, and a ring that nobody else is working on refuses nothing. -/
def Choice.Calm (choice : Choice π) : Prop := choice.throws = false ∧ choice.refuses = false

theorem Choice.Calm.offered {choice : Choice π} (calm : choice.Calm) (queue : PortQueue π) :
    choice.offered queue = queue.head? := by simp [Choice.offered, calm.2]

abbrev Env.Finishes {α : Type} (env : Env) (program : Code π α) (state : State π)
    (post : α → State π → Prop) : Prop :=
  Completes env.body Choice.Calm post program state

def Env.Answers {α : Type} (env : Env) (program : Code π α) (state : State π) (value : α) : Prop :=
  env.Finishes program state fun answer after => answer = value ∧ after = state

def Env.Bypasses {α : Type} (env : Env) (program : Code π α) (state : State π) : Prop :=
  env.Finishes program state fun _ after => after.tracked = state.tracked

section Rules

variable {env : Env} {α β : Type} {state : State π} {post : α → State π → Prop}

namespace Env

variable {next : β → Code π α}

theorem Finishes.read {field : State π → β} (rest : env.Finishes (next (field state)) state post) :
    env.Finishes (AiPipe.read field >>= next) state post :=
  .access (fun _ _ => rfl) rest

variable {change : State π → State π}

theorem Finishes.store {next : Unit → Code π α}
    (rest : env.Finishes (next ()) (change state) post) :
    env.Finishes (AiPipe.store change >>= next) state post :=
  .access (fun _ _ => rfl) rest

theorem Finishes.external {next : Unit → Code π α} (rest : env.Finishes (next ()) state post) :
    env.Finishes (AiPipe.external >>= next) state post := by
  have quiet (choice : Choice π) (calm : choice.Calm) :
      some (choice.throws, state) = some (false, state) := by rw [calm.1]
  exact .access quiet rest

theorem Finishes.emitTrace {next : Unit → Code π α} (rest : env.Finishes (next ()) state post) :
    env.Finishes (env.emitTrace >>= next) state post := by
  unfold Env.emitTrace
  split
  · exact .external rest
  · exact rest

theorem Finishes.withEngineLock {inner : Code π α} (free : state.engineMutex = false)
    (completes : env.Finishes inner { state with engineMutex := true }
      fun value after => post value { after with engineMutex := false }) :
    env.Finishes (AiPipe.withEngineLock inner) state post := by
  have taken : (if state.engineMutex then none else some ((), { state with engineMutex := true })) =
      some ((), { state with engineMutex := true }) := by rw [free]; rfl
  refine .access (fun _ _ => taken) ?_
  exact completes.onExit fun value after holds => .access (fun _ _ => rfl) (.ret holds)

variable {first : Code π β}

theorem Answers.bind {value : β}
    (answers : env.Answers first state value) (rest : env.Finishes (next value) state post) :
    env.Finishes (first >>= next) state post :=
  .bind answers fun answer after same => by
    obtain ⟨rfl, rfl⟩ := same
    exact rest

theorem Answers.bindAmong {may : Choice π → Prop} (calm : ∀ choice, may choice → choice.Calm)
    {value : β} (answers : env.Answers first state value)
    (rest : Completes env.body may post (next value) state) :
    Completes env.body may post (first >>= next) state :=
  .bind (Completes.restrict answers calm) fun answer after same => by
    obtain ⟨rfl, rfl⟩ := same
    exact rest

theorem Answers.ret {value : α} : env.Answers (.ret value) state value := Completes.ret ⟨rfl, rfl⟩

theorem Answers.read {field : State π → α} : env.Answers (AiPipe.read field) state (field state) :=
  Completes.access (fun _ _ => rfl) (.ret ⟨rfl, rfl⟩)

theorem Bypasses.bind (bypasses : env.Bypasses first state)
    (rest : ∀ value after, after.tracked = state.tracked → env.Bypasses (next value) after) :
    env.Bypasses (first >>= next) state :=
  Completes.bind bypasses fun value after same =>
    Completes.mono (rest value after same) fun _ _ same' => same'.trans same

theorem Bypasses.ret {value : α} : env.Bypasses (.ret value) state := Completes.ret rfl

theorem Bypasses.store (same : (change state).tracked = state.tracked) :
    env.Bypasses (AiPipe.store change) state := .access (fun _ _ => rfl) (.ret same)

theorem Bypasses.access {label : Label π} {effect : Choice π → State π → Option (β × State π)}
    (moved : ∀ choice, ∃ answer after, effect choice state = some (answer, after) ∧
      after.tracked = state.tracked) : env.Bypasses (.act label effect .ret) state := by
  refine .act (fun choice _ => ?_) fun choice _ answer after made => ?_
  · obtain ⟨answer, after, made, -⟩ := moved choice
    rw [made]
    rfl
  · obtain ⟨answer', after', made', same⟩ := moved choice
    obtain ⟨rfl, rfl⟩ := Prod.mk.inj (Option.some.inj (made.symm.trans made'))
    exact .ret same

theorem Bypasses.clock : env.Bypasses (π := π) AiPipe.clock state :=
  .access fun choice => ⟨choice.now, state, rfl, rfl⟩

theorem Bypasses.spawn {procedure : Proc π} : env.Bypasses (.spawn procedure (.ret ())) state :=
  Completes.spawn (.ret rfl)

end Env

end Rules

section Queues

variable {env : Env} {α : Type} {state : State π} {post : α → State π → Prop} {node port : Nat}
  {data : PortDataPtr π} {route : Route}

namespace Env

theorem Finishes.tryPop {label : Label π} {next : Option (Taken π) → Code π α}
    (found : (state.queue node port).head? = some data)
    (rest : env.Finishes (next (some ⟨port, (state.queue node port).dequeuePos, data⟩))
      (state.updateQueue node port PortQueue.pop) post) :
    env.Finishes (Env.tryPop label node port >>= next) state post := by
  refine .access (fun _ calm => ?_) rest
  rw [calm.offered, found]

theorem Finishes.tryPeek {next : Option (PortDataPtr π) → Code π α}
    (rest : env.Finishes (next (state.queue node port).head?) state post) :
    env.Finishes (Env.tryPeek node port >>= next) state post :=
  .access (fun _ calm => by rw [calm.offered]) rest

variable {next : Bool → Code π α}

theorem Finishes.tryPush (full : (env.queueConfig node).capacity ≤ (state.queue node port).size →
      env.Finishes (next false) state post)
    (room : ¬ (env.queueConfig node).capacity ≤ (state.queue node port).size →
      env.Finishes (next true) (state.updateQueue node port fun queue => queue.push data) post) :
    env.Finishes (env.tryPush node port data route >>= next) state post := by
  by_cases many : (env.queueConfig node).capacity ≤ (state.queue node port).size
  · exact .access (fun _ _ => if_pos (.inr many)) (full many)
  · exact .access (fun _ calm => if_neg (by simp [calm.2, many])) (room many)

theorem bypasses_countDrop (place : Option Place) : env.Bypasses (countDrop place) state := .store rfl

theorem bypasses_invokeDropCallback (report : DropReport) :
    env.Bypasses (π := π) (invokeDropCallback report) state := .store rfl

theorem reportDrop_finishes (frame : Nat) (reason : String) :
    env.Finishes (env.reportDrop node frame reason) state fun _ after => after = { state with
      syncEvents := state.syncEvents ++ [.dropped (env.graph.name node) frame reason] } := by
  refine .act (fun _ _ => rfl) fun choice calm answer after made => ?_
  cases made
  rw [calm.1]
  exact .ret rfl

theorem bypasses_reportDrop (frame : Nat) (reason : String) :
    env.Bypasses (env.reportDrop node frame reason) state :=
  (reportDrop_finishes frame reason).mono fun _ _ told => told ▸ rfl

theorem bypasses_notifyDrop (dropped : Taken π) (reason : String) :
    env.Bypasses (env.notifyDrop node dropped reason) state := by
  refine .bind (bypasses_countDrop _) fun _ _ _ => .bind (bypasses_invokeDropCallback _) fun _ _ _ => ?_
  split
  · exact bypasses_reportDrop _ _
  · exact .ret

def Admits (env : Env) (node port : Nat) (data : PortDataPtr π) (state after : State π) : Prop :=
  after.tracked = state.tracked.setQueue node port
    (((state.queue node port).keep ((env.queueConfig node).capacity - 1)).push data)

theorem capacity_pos (env : Env) (node : Nat) : 0 < (env.queueConfig node).capacity :=
  Nat.lt_of_lt_of_le Nat.two_pos (env.queueConfig node).twoLe

theorem admits_room (room : ¬ (env.queueConfig node).capacity ≤ (state.queue node port).size) :
    env.Admits node port data state (state.updateQueue node port fun queue => queue.push data) := by
  rw [Admits, tracked_updateQueue, keep_of_le (by omega)]

theorem Admits.evicted {middle after : State π} (accepts : env.Admits node port data middle after)
    (full : (env.queueConfig node).capacity ≤ (state.queue node port).size)
    (popped : middle.tracked = state.tracked.setQueue node port (state.queue node port).pop) :
    env.Admits node port data state after := by
  have positive := env.capacity_pos node
  have queue : middle.queue node port = (state.queue node port).pop := by
    change middle.tracked.queue node port = _
    rw [popped, Tracked.setQueue_same]
  rw [Admits, queue, keep_pop (by omega), popped, Tracked.setQueue_setQueue] at accepts
  exact accepts

variable (reason : String)

theorem evictAndNotify_finishes (holds : 0 < (state.queue node port).size) :
    env.Finishes (env.evictAndNotify node port reason) state fun popped after => popped = true ∧
      after.tracked = state.tracked.setQueue node port (state.queue node port).pop := by
  obtain ⟨data, found⟩ := Option.isSome_iff_exists.mp (PortQueue.head?_isSome.mpr holds)
  refine .tryPop found (.bind (bypasses_notifyDrop _ _) fun _ after same => .ret ⟨rfl, ?_⟩)
  rw [same, tracked_updateQueue]

theorem evicted_finishes (full : (env.queueConfig node).capacity ≤ (state.queue node port).size)
    (rest : ∀ after,
      after.tracked = state.tracked.setQueue node port (state.queue node port).pop →
      env.Finishes (next true) after post) :
    env.Finishes (env.evictAndNotify node port reason >>= next) state post := by
  have positive := env.capacity_pos node
  refine (evictAndNotify_finishes reason (by omega)).bind fun popped after same => ?_
  obtain ⟨rfl, popped⟩ := same
  exact rest after popped

theorem spinPush_finishes (spins : Nat) :
    env.Finishes (env.spinPush node port data route (spins + 1)) state fun pushed after =>
      if (env.queueConfig node).capacity ≤ (state.queue node port).size
      then pushed = false ∧ after = state
      else pushed = true ∧ env.Admits node port data state after := by
  induction spins with
  | zero =>
    refine .tryPush (fun full => .ret ?_) fun room => .ret ?_
    · rw [if_pos full]
      exact ⟨rfl, rfl⟩
    · rw [if_neg room]
      exact ⟨rfl, admits_room room⟩
  | succ spins ih =>
    refine .tryPush (fun _ => ih) fun room => .ret ?_
    rw [if_neg room]
    exact ⟨rfl, admits_room room⟩

theorem pushFallback_finishes :
    env.Finishes (env.pushFallback node port data route reason) state fun _ after =>
      env.Admits node port data state after := by
  induction many : (state.queue node port).size using Nat.strongRecOn generalizing state with
  | ind size ih =>
    refine .tryPush (fun full => ?_) fun room => .ret (admits_room room)
    refine evicted_finishes reason full fun after popped => .invoke ?_
    have positive := env.capacity_pos node
    have smaller : (after.queue node port).size = size - 1 := by
      change (after.tracked.queue node port).size = _
      rw [popped, Tracked.setQueue_same, size_pop, many]
    exact (ih _ (by omega) smaller).mono fun _ _ accepts => accepts.evicted full popped

theorem evictAndSpin_finishes {rest : Code π Bool}
    (full : (env.queueConfig node).capacity ≤ (state.queue node port).size)
    (otherwise : ∀ after, (env.queueConfig node).capacity ≤ (after.queue node port).size →
      env.Finishes rest after fun pushed last =>
        pushed = true ∧ env.Admits node port data after last) :
    env.Finishes (do
      let _ ← env.evictAndNotify node port reason
      if ← env.spinPush node port data route 128 then .ret true else rest) state
      fun pushed after => pushed = true ∧ env.Admits node port data state after := by
  refine evicted_finishes reason full fun middle popped => ?_
  refine (spinPush_finishes 127).bind fun pushed after spun => ?_
  by_cases still : (env.queueConfig node).capacity ≤ (middle.queue node port).size
  · rw [if_pos still] at spun
    obtain ⟨rfl, rfl⟩ := spun
    exact (otherwise _ still).mono fun _ _ same => ⟨same.1, same.2.evicted full popped⟩
  · rw [if_neg still] at spun
    obtain ⟨rfl, accepts⟩ := spun
    exact .ret ⟨rfl, accepts.evicted full popped⟩

theorem evictionRounds_finishes (rounds : Nat)
    (full : (env.queueConfig node).capacity ≤ (state.queue node port).size) :
    env.Finishes (env.evictionRounds node port data route rounds) state fun pushed after =>
      pushed = true ∧ env.Admits node port data state after := by
  induction rounds generalizing state with
  | zero =>
    exact .bind (.invoke (pushFallback_finishes _)) fun _ _ accepts => .ret ⟨rfl, accepts⟩
  | succ rounds ih => exact evictAndSpin_finishes _ full fun _ still => ih still

theorem evictToWindow_finishes {window : Nat} (positive : 0 < window) :
    env.Finishes (env.evictToWindow node port window) state fun _ after =>
      after.tracked = state.tracked.setQueue node port
        ((state.queue node port).keep (window - 1)) := by
  induction many : (state.queue node port).size using Nat.strongRecOn generalizing state with
  | ind size ih =>
    refine .read ?_
    by_cases full : window ≤ (state.queue node port).size
    · rw [if_pos full]
      refine (evictAndNotify_finishes _ (by omega)).bind fun popped after same => ?_
      obtain ⟨rfl, same⟩ := same
      have queue : after.queue node port = (state.queue node port).pop := by
        change after.tracked.queue node port = _
        rw [same, Tracked.setQueue_same]
      have smaller : (after.queue node port).size = size - 1 := by
        rw [queue, size_pop, many]
      refine .invoke ((ih _ (by omega) smaller).mono fun _ last kept => ?_)
      rw [kept, queue, keep_pop (by omega), same, Tracked.setQueue_setQueue]
    · rw [if_neg full]
      refine .ret ?_
      rw [keep_of_le (by omega)]
      exact (Tracked.setQueue_eq rfl).symm

theorem push_finishes : env.Finishes (env.push node port data route) state fun pushed after =>
    pushed = ((state.queue node port).offer (env.queueConfig node) data).isSome ∧
    after.tracked = state.tracked.setQueue node port
      (((state.queue node port).offer (env.queueConfig node) data).getD (state.queue node port)) := by
  unfold Env.push offer QueueConfig.limit
  cases policy : (env.queueConfig node).dropPolicy with
  | dropTail =>
    change env.Finishes (env.tryPush node port data route >>= .ret) state _
    refine .tryPush (fun full => .ret ?_) fun room => .ret ?_
    · rw [if_pos ⟨rfl, full⟩]
      exact ⟨rfl, (Tracked.setQueue_eq rfl).symm⟩
    · rw [if_neg fun both => room both.2]
      exact ⟨rfl, admits_room room⟩
  | dropHead =>
    rw [if_neg fun both => nomatch both.1]
    refine .tryPush (fun full => evictionRounds_finishes 4 full) fun room => .ret ?_
    exact ⟨rfl, admits_room room⟩
  | keepLatest =>
    rw [if_neg fun both => nomatch both.1]
    have positive := env.capacity_pos node
    refine .bind (.invoke (evictToWindow_finishes (by omega))) fun _ middle kept => ?_
    have windowed {after : State π} (accepts : env.Admits node port data middle after) :
        after.tracked = state.tracked.setQueue node port
          (((state.queue node port).keep (min (max (env.queueConfig node).keepLatestN 1)
            (env.queueConfig node).capacity - 1)).push data) := by
      have queue : middle.queue node port =
          (state.queue node port).keep (max (env.queueConfig node).keepLatestN 1 - 1) := by
        change middle.tracked.queue node port = _
        rw [kept, Tracked.setQueue_same]
      rw [Admits, queue, keep_keep, kept, Tracked.setQueue_setQueue,
        Nat.sub_min_sub_right] at accepts
      exact accepts
    refine Finishes.tryPush (fun full => ?_) fun room => .ret ⟨rfl, windowed (admits_room room)⟩
    refine (evictAndSpin_finishes _ full fun after _ => ?_).mono
      fun _ _ same => ⟨same.1, windowed same.2⟩
    exact .bind (.invoke (pushFallback_finishes _)) fun _ _ accepts =>
      .ret ⟨rfl, accepts⟩

theorem bypasses_count (change : Statistics → Statistics) : env.Bypasses (π := π) (count change) state :=
  .store rfl

theorem bypasses_recordQueueRejection : env.Bypasses (π := π) (env.recordQueueRejection node) state :=
  .bind (bypasses_count _) fun _ _ _ => .bind (bypasses_countDrop _) fun _ _ _ =>
    bypasses_invokeDropCallback _

theorem pushToQueue_finishes {name : String} {index : Nat}
    (named : env.portIndex node name = some index) :
    env.Finishes (env.pushToQueue node name data route) state fun pushed after =>
      pushed = ((state.queue node index).offer (env.queueConfig node) data).isSome ∧
      after.tracked = state.tracked.setQueue node index
        (((state.queue node index).offer (env.queueConfig node) data).getD
          (state.queue node index)) := by
  unfold Env.pushToQueue
  rw [named]
  refine push_finishes.bind fun pushed after same => ?_
  cases pushed with
  | true => exact Finishes.emitTrace (.ret same)
  | false => exact .bind bypasses_recordQueueRejection fun _ _ kept => .ret ⟨same.1, kept.trans same.2⟩

theorem answers_pushToQueue {name : String} (unknown : env.portIndex node name = none) :
    env.Answers (env.pushToQueue node name data route) state false := by
  unfold Env.pushToQueue
  rw [unknown]
  exact .ret

theorem answers_getQueueSize (env : Env) (state : State π) (node : Nat) (name : String) :
    ∃ size, env.Answers (env.getQueueSize node name) state size := by
  unfold Env.getQueueSize
  split
  · exact ⟨0, .ret⟩
  · exact ⟨_, .read⟩

def frameNumber (env : Env) (state : State π) (streamId : Nat) : Nat :=
  if env.config.alignmentPolicy = .streamFrameId then state.nextStreamFrameId streamId + 1
  else state.nextFrameId

def numbered (env : Env) (state : State π) (streamId : Nat) : State π :=
  if env.config.alignmentPolicy = .streamFrameId then { state with
    nextStreamFrameId := Function.update state.nextStreamFrameId streamId
      (env.frameNumber state streamId) }
  else { state with nextFrameId := state.nextFrameId + 1 }

theorem frameNumber_numbered (env : Env) (state : State π) (streamId other : Nat) :
    env.frameNumber state other ≤ env.frameNumber (env.numbered state streamId) other ∧
      env.frameNumber state streamId < env.frameNumber (env.numbered state streamId) streamId := by
  by_cases streams : env.config.alignmentPolicy = .streamFrameId
  · simp only [frameNumber, numbered, if_pos streams]
    by_cases same : other = streamId
    · subst same
      simp
    · simp [same]
  · simp [frameNumber, numbered, if_neg streams]

theorem numbered_queue (env : Env) (state : State π) (streamId : Nat) :
    (env.numbered state streamId).queue = state.queue := by
  unfold numbered
  split <;> rfl

def stamped (env : Env) (state : State π) (now : Int) (data : PortDataPtr π) :
    PortDataPtr π × State π :=
  match data with
  | none => (none, state)
  | some packet =>
    if packet.hasFrameId then (some packet, state)
    else (some { packet with
        id := env.frameNumber state packet.streamId
        timestamp := if packet.timestamp = 0 then now else packet.timestamp },
      env.numbered state packet.streamId)

theorem takeFrameId_eq (env : Env) (state : State π) (streamId : Nat) :
    (if env.config.alignmentPolicy = .streamFrameId then
      some (state.nextStreamFrameId streamId + 1, { state with
        nextStreamFrameId := Function.update state.nextStreamFrameId streamId
          (state.nextStreamFrameId streamId + 1) })
    else some (state.nextFrameId, { state with nextFrameId := state.nextFrameId + 1 })) =
      some (env.frameNumber state streamId, env.numbered state streamId) := by
  unfold numbered frameNumber
  split <;> rfl

theorem stampIncomingFrame_completes {may : Choice π → Prop} (possible : ∃ choice, may choice) :
    Completes env.body may (fun packet after => ∃ choice, may choice ∧
      (packet, after) = env.stamped state choice.now data) (env.stampIncomingFrame data) state := by
  obtain ⟨sample, fair⟩ := possible
  unfold stampIncomingFrame stamped
  cases data with
  | none => exact .ret ⟨sample, fair, rfl⟩
  | some packet =>
    dsimp only
    split
    · exact .ret ⟨sample, fair, rfl⟩
    · refine .access (fun _ _ => env.takeFrameId_eq state packet.streamId) ?_
      refine .act (fun _ _ => rfl) fun choice fair answer after moved => ?_
      obtain ⟨rfl, rfl⟩ := Prod.mk.inj (Option.some.inj moved)
      exact .ret ⟨choice, fair, rfl⟩

theorem stamped_queue (env : Env) (state : State π) (now : Int) (data : PortDataPtr π) :
    (env.stamped state now data).2.queue = state.queue ∧
      (env.stamped state now data).2.engineMutex = state.engineMutex := by
  unfold stamped numbered
  split
  · exact ⟨rfl, rfl⟩
  · split
    · exact ⟨rfl, rfl⟩
    · dsimp only
      split <;> exact ⟨rfl, rfl⟩

end Env

end Queues

section Scheduling

variable {env : Env} {state : State π} {node : Nat}

namespace Env

theorem answers_portDrained (port : Nat) :
    env.Answers (portDrained node port) state (state.drained node port) := by
  refine Finishes.read ?_
  unfold drained
  cases state.latched node port with
  | true =>
    change env.Answers (portEmpty node port) state (state.queue node port).empty
    exact .read
  | false => exact Answers.ret

theorem answers_portsDrained (ports : List Nat) :
    env.Answers (portsDrained node ports) state (ports.all fun port => state.drained node port) := by
  induction ports with
  | nil => exact .ret
  | cons port rest ih =>
    refine (answers_portDrained port).bind ?_
    rw [all_cons]
    cases state.drained node port with
    | true => exact ih
    | false => exact Answers.ret

def Undrained (env : Env) (node : Nat) (queue : Nat → PortQueue π) : Prop :=
  env.portCount node = 0 ∨ ∃ port < env.portCount node, 0 < (queue port).size

theorem answers_allInputPortsDrained (undrained : env.Undrained node (state.queue node)) :
    env.Answers (env.allInputPortsDrained node) state false := by
  unfold Env.allInputPortsDrained
  rcases undrained with none | ⟨port, declared, holds⟩
  · rw [if_pos none]
    exact .ret
  rw [if_neg (by omega)]
  have waiting : (env.ports node).all (fun port => state.drained node port) = false := by
    refine all_eq_false.mpr ⟨port, mem_range.mpr declared, ?_⟩
    simp only [drained, empty, Bool.and_eq_true, beq_iff_eq]
    omega
  exact waiting ▸ answers_portsDrained _

theorem answers_countInputs (env : Env) (state : State π) (node : Nat) (ports : List Nat)
    (context : SchedulingContext) :
    ∃ counted, env.Answers (countInputs node ports context) state counted := by
  induction ports generalizing context with
  | nil => exact ⟨context, .ret⟩
  | cons port rest ih =>
    cases drained : state.drained node port with
    | true =>
      obtain ⟨counted, observes⟩ := ih context
      exact ⟨counted, (drained ▸ answers_portDrained port).bind observes⟩
    | false =>
      cases empty : (state.queue node port).empty with
      | true =>
        obtain ⟨counted, observes⟩ := ih { context with
          expectedInputCount := context.expectedInputCount + 1 }
        refine ⟨counted, (drained ▸ answers_portDrained port).bind (.read ?_)⟩
        rw [empty]
        exact observes
      | false =>
        obtain ⟨counted, observes⟩ := ih { context with
          expectedInputCount := context.expectedInputCount + 1
          readyInputCount := context.readyInputCount + 1
          readyPortMask := if port < 64 then context.readyPortMask ++ [port]
            else context.readyPortMask }
        refine ⟨counted, (drained ▸ answers_portDrained port).bind (.read ?_)⟩
        rw [empty]
        exact observes

theorem answers_collectSinkCounts (env : Env) (state : State π) (name : Nat → String)
    (sinks : List Nat) :
    ∃ counts, env.Answers (collectSinkCounts name sinks) state counts := by
  induction sinks with
  | nil => exact ⟨[], .ret⟩
  | cons sink rest ih =>
    obtain ⟨counts, observes⟩ := ih
    exact ⟨_, Finishes.read (observes.bind Answers.ret)⟩

theorem bypasses_stopIfRunning : env.Bypasses (π := π) stopIfRunning state := by
  refine .read ?_
  split
  · exact Bypasses.store rfl
  · exact Bypasses.ret

theorem bypasses_stopExecutionAsync (free : state.engineMutex = false) :
    env.Bypasses (π := π) stopExecutionAsync state := by
  refine .bind (.access fun _ => ⟨_, _, rfl, rfl⟩) fun first after same => ?_
  split
  · have still : after.engineMutex = false := (congrArg Tracked.engineMutex same).trans free
    refine .withEngineLock still (.mono bypasses_stopIfRunning fun _ last kept => ?_)
    have queues : last.queue = after.queue := congrArg Tracked.queue kept
    have numbers : last.nextFrameId = after.nextFrameId := congrArg Tracked.nextFrameId kept
    have streams : last.nextStreamFrameId = after.nextStreamFrameId :=
      congrArg Tracked.nextStreamFrameId kept
    change Tracked.mk last.queue false last.nextFrameId last.nextStreamFrameId = after.tracked
    rw [queues, numbers, streams, ← still]
    rfl
  · exact .ret

theorem bypasses_isStopRequested (free : state.engineMutex = false) :
    env.Bypasses (π := π) isStopRequested state := by
  refine .read ?_
  split
  · exact Bypasses.ret
  · refine .read ?_
    split
    · exact Bypasses.ret
    · refine .read ?_
      split
      · exact (bypasses_stopExecutionAsync free).bind fun _ _ _ => .ret
      · exact Bypasses.ret

theorem bypasses_setExec (value : NodeExecutionState) :
    env.Bypasses (π := π) (setExec node value) state := .store (tracked_updateNode rfl)

theorem bypasses_checkCompletionAndNotify :
    env.Bypasses (π := π) env.checkCompletionAndNotify state := by
  refine .read ?_
  split
  · exact Bypasses.ret
  · refine .read ?_
    split
    · exact Bypasses.ret
    · obtain ⟨counts, observes⟩ := env.answers_collectSinkCounts state env.graph.name
        env.graph.sinkNodes
      refine observes.bind (.external ?_)
      split
      · refine Bypasses.bind (.access fun _ => ⟨_, _, rfl, rfl⟩) fun claimed after _ => ?_
        split
        · exact .ret
        · refine .bind (.store ?_) fun _ _ _ => .read (Bypasses.store rfl)
          split <;> rfl
      · exact Bypasses.ret

theorem bypasses_scheduleNodeExecution : env.Bypasses (π := π) (env.scheduleNodeExecution node) state := by
  refine .bind (.access fun _ => ?_) fun claimed after _ => ?_
  · split
    · exact ⟨_, _, rfl, tracked_updateNode rfl⟩
    · exact ⟨_, _, rfl, rfl⟩
  · split
    · refine .bind (.access fun _ => ⟨_, _, rfl, rfl⟩) fun task _ _ => .read ?_
      refine Bypasses.bind (.access fun _ => ⟨_, _, rfl, rfl⟩) fun posted _ _ => ?_
      split
      · exact .spawn
      · exact .bind (bypasses_setExec _) fun _ _ _ => .bind (.store rfl) fun _ _ _ =>
          .bind bypasses_checkCompletionAndNotify fun _ _ _ => .store rfl
    · exact .ret

theorem bypasses_scheduleDeferredRetry (delay : Int) :
    env.Bypasses (π := π) (scheduleDeferredRetry node delay) state := by
  refine .read ?_
  split
  · exact Bypasses.ret
  · refine Bypasses.bind (.access fun _ => ⟨_, _, rfl, tracked_updateNode rfl⟩) fun armed _ _ => ?_
    split
    · exact .ret
    · refine .bind .clock fun now _ _ => .bind (.access fun _ => ?_) fun timer _ _ => ?_
      · split
        · exact ⟨_, _, rfl, rfl⟩
        · exact ⟨_, _, rfl, rfl⟩
      · split
        · exact .ret
        · exact .spawn

theorem bypasses_tryScheduleNode (free : state.engineMutex = false)
    (undrained : env.Undrained node (state.queue node)) :
    env.Bypasses (env.tryScheduleNode node) state := by
  refine (bypasses_isStopRequested free).bind fun stopped after same => ?_
  have undrained : env.Undrained node (after.tracked.queue node) := by
    rw [same]
    exact undrained
  split
  · exact .ret
  · split
    · exact .ret
    · refine .read ?_
      split
      · exact Bypasses.ret
      · refine (answers_allInputPortsDrained undrained).bind ?_
        obtain ⟨counted, observes⟩ := env.answers_countInputs after node (env.ports node) {}
        refine observes.bind (.read (.read (.external ?_)))
        refine Bypasses.bind .clock fun now _ _ => ?_
        dsimp only
        split
        · exact bypasses_scheduleNodeExecution
        · exact bypasses_scheduleDeferredRetry _
        · exact .ret

end Env

end Scheduling

structure State.SameCounters (state after : State π) : Prop where
  frames : after.nextFrameId = state.nextFrameId
  streams : after.nextStreamFrameId = state.nextStreamFrameId

theorem State.SameCounters.frameNumber {env : Env} {state after : State π}
    (same : state.SameCounters after) (streamId : Nat) :
    env.frameNumber after streamId = env.frameNumber state streamId := by
  unfold Env.frameNumber
  rw [same.frames, same.streams]

end AiPipe
