import AiPipe.Concurrency.Modes
import AiPipe.Engine.Routine

/-!
The order of the packets that several clients push to one port at once.  A call takes its frame
number, reads the clock and enqueues in three accesses that no lock holds together; from its
number to its enqueue it is in its section.
-/

namespace AiPipe

open Concurrency List Env PortQueue Routine State

variable {π : Type}

def PortData.Unassigned (packet : PortData π) : Prop :=
  packet.id = kInvalidFrameId ∧ packet.timestamp = 0

/-- The earlier of two packets has the smaller number; under `StreamFrameId` the numbers of
different streams are not compared. -/
def Env.Numbers (env : Env) (first second : PortData π) : Prop :=
  (env.config.alignmentPolicy = .streamFrameId → first.streamId = second.streamId) →
    first.id < second.id

def Env.InOrder (env : Env) (items : List (PortDataPtr π)) : Prop :=
  items.Pairwise fun earlier later => ∀ first second, earlier = some first → later = some second →
    env.Numbers first second ∧ first.timestamp ≤ second.timestamp

def Env.Names (env : Env) (node port : Nat) (name portName : String) : Prop :=
  env.graph.indexOf name = some node ∧
    env.portIndex node (env.actualPort node portName) = some port

namespace Env

variable (env : Env) (node port : Nat)

/-- The thread is in its section: it can come to an enqueue for the client's port without
having to take a number before. -/
def InSection (thread : Thread (State π) (Label π) (Proc π) (Choice π) (Answer π)) : Prop :=
  Leads env.body (fun _ state after => state.SameCounters after)
    (fun label state after => label = .enqueue node port .input ∧
      ∃ data, after.queue node port = (state.queue node port).push data) thread.program

/-- Clients push unassigned packets to the port, and nobody else feeds it.  All accesses at one
time read that time from the clock. -/
def feeding (time : Int) : EngineRules π where
  allows label choice _ := choice.now = time ∧ ∀ route, label = .enqueue node port route → route = .input
  starts procedure _ := match procedure with
    | .pushInput name portName (some packet) => packet.Unassigned ∧ env.Names node port name portName
    | .joinTimeoutWatchdogLoop _ => True
    | _ => False

/-- A step takes a number only while no thread is in its section. -/
def Apart (config config' : EngineThreads π) : Prop :=
  ¬ config.shared.SameCounters config'.shared →
    ∀ thread ∈ config.threads, ¬ env.InSection node port thread

abbrev Feeds (meets : EngineThreads π → EngineThreads π → Prop) (origin : State π) (first : Int)
    (time : Int) (config : EngineThreads π) : Prop :=
  Unfolds env.body (env.feeding node port) meets ⟨origin, []⟩ first time config

end Env

inductive Phase (π : Type) where
  | outside
  | fresh (packet : PortData π)
  | numbered (packet : PortData π)
  | stamped (packet : PortData π)

section Law

variable (env : Env) (node port : Nat)

structure Aside (label : Label π) (state after : State π) : Prop where
  counters : state.SameCounters after
  queue : after.queue node port = state.queue node port ∨
    after.queue node port = (state.queue node port).pop ∨
    ∃ route, label = .enqueue node port route ∧ route ≠ .input

inductive PushLaw : Law (State π) (Label π) (Choice π) (Phase π)
  | aside {phase : Phase π} {label : Label π} {β : Type}
      {effect : Choice π → State π → Option (β × State π)} :
      (∀ choice state answer after, effect choice state = some (answer, after) →
        Aside node port label state after) → PushLaw phase label β effect fun _ => phase
  | number {packet : PortData π} {label : Label π}
      {effect : Choice π → State π → Option (Nat × State π)} :
      label = .internal → (∀ choice state, effect choice state =
        some (env.frameNumber state packet.streamId, env.numbered state packet.streamId)) →
      PushLaw (.fresh packet) label Nat effect fun id => .numbered { packet with id }
  | stamp {packet : PortData π} {label : Label π}
      {effect : Choice π → State π → Option (Int × State π)} :
      label = .internal → (∀ choice state, effect choice state = some (choice.now, state)) →
      PushLaw (.numbered packet) label Int effect fun now => .stamped { packet with timestamp := now }
  | attempt {packet : PortData π} {effect : Choice π → State π → Option (Bool × State π)} :
      (∀ choice state, effect choice state =
        if choice.refuses ∨ (env.queueConfig node).capacity ≤ (state.queue node port).size then
          some (false, state)
        else some (true, state.updateQueue node port fun queue => queue.push (some packet))) →
      PushLaw (.stamped packet) (.enqueue node port .input) Bool effect fun accepted =>
        if accepted then .outside else .stamped packet

inductive PushStarts : Proc π → Phase π → Prop
  | spawned {procedure : Proc π} : procedure.isSpawned → PushStarts procedure .outside
  | watchdog {number : Nat} : PushStarts (.joinTimeoutWatchdogLoop number) .outside
  | push {name portName : String} {packet : PortData π} : packet.Unassigned →
      env.Names node port name portName →
      PushStarts (.pushInput name portName (some packet)) (.fresh packet)

inductive PushTerms : Terms (Proc π) (Answer π) (Phase π)
  | started {procedure : Proc π} {phase : Phase π} : PushStarts env node port procedure phase →
      PushTerms procedure phase fun _ _ => True
  | inner {procedure : Proc π} {phase : Phase π} : procedure.isInner false →
      PushTerms procedure phase fun _ phase' => phase' = phase
  | fallback {packet : PortData π} {reason : String} :
      PushTerms (.pushFallback node port (some packet) .input reason) (.stamped packet)
        fun _ _ => True

end Law

section Obeys

variable {env : Env} {node port : Nat} {α : Type}

abbrev Env.Pushing (env : Env) (node port : Nat) (program : Code π α) (phase : Phase π)
    (post : Option α → Phase π → Prop) : Prop :=
  Obeys (PushLaw env node port) (PushTerms env node port) (PushStarts env node port) program phase post

theorem Ordinary.aside {label : Label π} {state after : State π}
    (ordinary : Ordinary false label state after) : Aside node port label state after := by
  have elsewhere (node' port' : Nat) (change : PortQueue π → PortQueue π)
      (other : ¬ (node = node' ∧ port = port')) :
      (state.updateQueue node' port' change).queue node port = state.queue node port := by
    change (state.updateQueue node' port' change).tracked.queue node port = _
    rw [tracked_updateQueue]
    exact Tracked.setQueue_other fun same => other (Prod.mk.inj same)
  cases ordinary with
  | still same _ =>
    exact ⟨⟨congrArg Tracked.nextFrameId same, congrArg Tracked.nextStreamFrameId same⟩,
      .inl (congrFun₂ (congrArg Tracked.queue same) node port)⟩
  | @pop node' port' =>
    refine ⟨⟨rfl, rfl⟩, ?_⟩
    by_cases same : node = node' ∧ port = port'
    · obtain ⟨rfl, rfl⟩ := same
      exact .inr (.inl (queue_updateQueue ..))
    · exact .inl (elsewhere _ _ _ same)
  | @push node' port' data route named unfed =>
    refine ⟨⟨rfl, rfl⟩, ?_⟩
    by_cases same : node = node' ∧ port = port'
    · obtain ⟨rfl, rfl⟩ := same
      exact .inr (.inr ⟨route, named, fun input => nomatch unfed input⟩)
    · exact .inl (elsewhere _ _ _ same)

variable {phase : Phase π} {post : Option α → Phase π → Prop}

theorem Env.Pushing.aside {label : Label π} {β : Type}
    {effect : Choice π → State π → Option (β × State π)} {next : β → Code π α}
    (quiet : ∀ choice state answer after, effect choice state = some (answer, after) →
      Aside node port label state after)
    (rest : ∀ answer, env.Pushing node port (next answer) phase post) :
    env.Pushing node port (.act label effect next) phase post :=
  ⟨fun _ => phase, .aside quiet, rest⟩

theorem Env.Pushing.store {change : State π → State π}
    (same : ∀ state, (change state).nextFrameId = state.nextFrameId ∧
      (change state).nextStreamFrameId = state.nextStreamFrameId ∧
      (change state).queue = state.queue) :
    env.Pushing node port (AiPipe.store change) phase fun _ phase' => phase' = phase := by
  refine .aside (fun _ state _ _ made => ?_) fun _ => rfl
  cases made
  obtain ⟨frames, streams, queues⟩ := same state
  exact ⟨⟨frames, streams⟩, .inl (congrFun₂ queues node port)⟩

theorem Env.Pushing.andThen {β : Type} {first : Code π β} {next : β → Code π α}
    (pushing : env.Pushing node port first phase fun _ phase' => phase' = phase)
    (rest : ∀ value, env.Pushing node port (next value) phase post) (thrown : post none phase) :
    env.Pushing node port (first >>= next) phase post :=
  pushing.bind (fun value _ same => same ▸ rest value) fun _ same => same ▸ thrown

theorem Env.Pushing.withEngineLock {inner : Code π α}
    (pushing : env.Pushing node port inner phase fun _ phase' => phase' = phase) :
    env.Pushing node port (AiPipe.withEngineLock inner) phase fun _ phase' => phase' = phase := by
  have leave : env.Pushing node port (π := π) unlockEngine phase fun _ phase' => phase' = phase :=
    .store fun _ => ⟨rfl, rfl, rfl⟩
  refine .aside (fun _ state _ _ made => ?_) fun _ => pushing.onExit fun exit _ same => ?_
  · split at made
    · cases made
    · cases made
      exact ⟨⟨rfl, rfl⟩, .inl rfl⟩
  · subst same
    cases exit with
    | none => exact leave.andThen (fun _ => rfl) rfl
    | some value => exact leave.andThen (fun _ => rfl) rfl

theorem Env.Pushing.read {field : State π → α} :
    env.Pushing node port (AiPipe.read field) phase fun _ phase' => phase' = phase := by
  refine .aside (fun _ _ _ _ made => ?_) fun _ => rfl
  cases made
  exact ⟨⟨rfl, rfl⟩, .inl rfl⟩

theorem pushing_stopIfRunning (phase : Phase π) :
    env.Pushing node port stopIfRunning phase fun _ phase' => phase' = phase := by
  refine .andThen .read (fun current => ?_) rfl
  split
  · exact .store fun _ => ⟨rfl, rfl, rfl⟩
  · rfl

theorem Routine.pushing {program : Code π α} (routine : Routine false program) (phase : Phase π) :
    env.Pushing node port program phase fun _ phase' => phase' = phase := by
  induction routine with
  | ret => rfl
  | throw => rfl
  | act plain _ ih =>
    refine .aside (fun choice state answer after made => ?_) ih
    obtain ⟨answer', after', made', ordinary⟩ := plain choice state
    obtain ⟨rfl, rfl⟩ := Prod.mk.inj (Option.some.inj (made.symm.trans made'))
    exact ordinary.aside
  | stop _ ih =>
    exact (Pushing.withEngineLock (pushing_stopIfRunning phase)).onExit fun exit phase' same =>
      same ▸ ih exit
  | call inner _ ih => exact ⟨_, .inner inner, fun exit phase' same => same ▸ ih exit⟩
  | @spawn procedure next spawned _ ih => exact ⟨⟨.outside, .spawned spawned⟩, ih⟩

theorem Routine.pushingOn {program : Code π α} (routine : Routine false program) (phase : Phase π) :
    env.Pushing node port program phase fun _ _ => True :=
  .mono (routine.pushing phase) fun _ _ _ => trivial

def Attempted (packet : PortData π) (exit : Option Bool) (phase : Phase π) : Prop :=
  exit = some false → phase = .stamped packet

theorem pushing_tryPush (packet : PortData π) :
    env.Pushing node port (env.tryPush node port (some packet) .input) (.stamped packet)
      (Attempted packet) := by
  refine ⟨_, .attempt fun _ _ => rfl, fun accepted => ?_⟩
  intro failed
  obtain rfl := Option.some.inj failed
  rfl

theorem Env.Pushing.orElse {packet : PortData π} {first otherwise : Code π Bool}
    (pushing : env.Pushing node port first phase (Attempted packet))
    (rest : env.Pushing node port otherwise (.stamped packet) (Attempted packet)) :
    env.Pushing node port (do if ← first then .ret true else otherwise) phase (Attempted packet) := by
  refine pushing.bind (fun accepted phase' left => ?_) fun _ _ => nofun
  cases accepted with
  | true => exact nofun
  | false =>
    rw [left rfl]
    exact rest

section

variable (packet : PortData π)
include packet

theorem pushing_spinPush (spins : Nat) :
    env.Pushing node port (env.spinPush node port (some packet) .input spins) (.stamped packet)
      (Attempted packet) := by
  induction spins with
  | zero => exact fun _ => rfl
  | succ spins ih => exact (pushing_tryPush packet).orElse ih

theorem pushing_callFallback (reason : String) :
    env.Pushing node port (do
      let _ ← Prog.invoke (.pushFallback node port (some packet) .input reason)
      .ret true) (.stamped packet) (Attempted packet) :=
  (Obeys.invoke .fallback).bind (fun _ _ _ => nofun) fun _ _ => nofun

theorem pushing_evictionRounds (rounds : Nat) :
    env.Pushing node port (env.evictionRounds node port (some packet) .input rounds)
      (.stamped packet) (Attempted packet) := by
  induction rounds with
  | zero => exact pushing_callFallback packet _
  | succ rounds ih =>
    refine .andThen ((routine_evictAndNotify _).pushing _) (fun _ => ?_) nofun
    exact (pushing_spinPush packet 128).orElse ih

theorem pushing_push :
    env.Pushing node port (env.push node port (some packet) .input) (.stamped packet)
      (Attempted packet) := by
  unfold Env.push
  split
  · exact pushing_tryPush packet
  · exact (pushing_tryPush packet).orElse (pushing_evictionRounds packet 4)
  · refine .andThen (.invoke (.inner trivial)) (fun _ => ?_) nofun
    refine (pushing_tryPush packet).orElse ?_
    refine .andThen ((routine_evictAndNotify _).pushing _) (fun _ => ?_) nofun
    exact (pushing_spinPush packet 128).orElse (pushing_callFallback packet _)

theorem pushing_pushFallback (reason : String) :
    env.Pushing node port (env.pushFallback node port (some packet) .input reason) (.stamped packet)
      fun _ _ => True := by
  refine (pushing_tryPush packet).bind (fun accepted phase left => ?_) fun _ _ => trivial
  cases accepted with
  | true => exact trivial
  | false =>
    rw [left rfl]
    exact Pushing.andThen ((routine_evictAndNotify _).pushing _)
      (fun _ => .invoke .fallback) trivial

end

variable {packet : PortData π}

theorem pushing_stampIncomingFrame (unassigned : packet.Unassigned) :
    env.Pushing node port (env.stampIncomingFrame (some packet)) (.fresh packet)
      fun exit phase => ∃ stamped, exit = some (some stamped) ∧ phase = .stamped stamped := by
  have unknown : ¬ packet.hasFrameId = true := by
    rw [PortData.hasFrameId, unassigned.1]
    decide
  unfold stampIncomingFrame
  dsimp only
  rw [if_neg unknown]
  refine ⟨_, .number rfl fun _ state => ?_, fun id => ⟨_, .stamp rfl fun _ _ => rfl, fun now => ?_⟩⟩
  · exact env.takeFrameId_eq state packet.streamId
  · refine ⟨_, rfl, ?_⟩
    rw [if_pos unassigned.2]

theorem pushing_pushToQueue {name : String} (named : env.portIndex node name = some port)
    (packet : PortData π) :
    env.Pushing node port (env.pushToQueue node name (some packet) .input) (.stamped packet)
      fun _ _ => True := by
  unfold pushToQueue
  rw [named]
  refine (pushing_push packet).bind (fun accepted phase _ => ?_) fun _ _ => trivial
  cases accepted with
  | true => exact (Routine.bind .emitTrace fun _ => .ret).pushingOn phase
  | false => exact (routine_recordQueueRejection.bind fun _ => .ret).pushingOn phase

theorem pushing_pushToPort {name : String} (unassigned : packet.Unassigned)
    (named : env.portIndex node name = some port) :
    env.Pushing node port (env.pushToPort node port name (some packet)) (.fresh packet)
      fun _ _ => True := by
  refine Pushing.andThen .read (fun latched => ?_) trivial
  cases latched with
  | true => exact trivial
  | false =>
    refine .bind (pushing_stampIncomingFrame unassigned) (fun data phase left => ?_)
      fun _ _ => trivial
    obtain ⟨stamped, same, rfl⟩ := left
    obtain rfl := Option.some.inj same
    refine .bind (pushing_pushToQueue named stamped) (fun pushed phase _ => ?_)
      fun _ _ => trivial
    cases pushed with
    | true =>
      refine pushingOn ?_ phase
      refine .bind .count fun _ => .bind .count fun _ => .bind routine_tryScheduleNode fun _ => ?_
      refine .bind ?_ fun _ => .ret
      unfold getQueueSize
      split
      · exact .ret
      · exact .read
    | false => exact trivial

theorem pushing_pushInput {name portName : String}
    (unassigned : packet.Unassigned) (names : env.Names node port name portName) :
    env.Pushing node port (env.pushInput name portName (some packet)) (.fresh packet)
      fun _ _ => True := by
  obtain ⟨found, named⟩ := names
  have look : Routine false (π := π) (do
      if ← read streamingMode then .ret true
      else .ret ((← read engineState) == .running)) := by
    refine .bind .read fun streaming => ?_
    split
    · exact .ret
    · exact .bind .read fun _ => .ret
  refine Pushing.andThen (look.pushing _) (fun accepting => ?_) trivial
  rw [found]
  dsimp only
  rw [named]
  split
  · exact trivial
  · split
    · exact trivial
    · exact pushing_pushToPort unassigned named

theorem pushing_deferTimerLoop (timer : Nat) :
    env.Pushing (π := π) node port (env.deferTimerLoop timer) .outside fun _ _ => True := by
  refine .aside (fun choice state answer after made => ?_) fun due => ?_
  · split at made
    · cases made
      exact ⟨⟨rfl, rfl⟩, .inl rfl⟩
    · split at made
      · cases made
      · split at made
        · cases made
        · cases made
          exact ⟨⟨rfl, rfl⟩, .inl rfl⟩
  · cases due with
    | none =>
      refine pushingOn ?_ _
      exact .bind (.store (fun _ => rfl) fun _ => rfl) fun _ => .ret
    | some node' =>
      refine Pushing.andThen (pushing ?_ _) (fun _ => ?_) trivial
      · exact .updateNode fun _ => rfl
      · refine Pushing.andThen (routine_tryScheduleNode.pushing _) (fun _ => ?_) trivial
        exact .invoke (.started (.spawned trivial))

theorem pushing_joinTimeoutWatchdogLoop (watchdog : Nat) :
    env.Pushing (π := π) node port (env.joinTimeoutWatchdogLoop watchdog) .outside
      fun _ _ => True := by
  have again : env.Pushing (π := π) node port (do
      store fun state => { state with watchdogMutex := false }
      Prog.invoke (.joinTimeoutWatchdogLoop watchdog)) .outside fun _ _ => True :=
    .andThen (.store fun _ => ⟨rfl, rfl, rfl⟩) (fun _ => .invoke (.started .watchdog)) trivial
  refine .aside (fun choice state answer after made => ?_) fun ticked => ?_
  · split at made
    · cases made
    · split at made
      · cases made
        exact ⟨⟨rfl, rfl⟩, .inl rfl⟩
      · cases made
        exact ⟨⟨rfl, rfl⟩, .inl rfl⟩
  · cases ticked with
    | false =>
      refine pushingOn ?_ _
      exact .bind (.store (fun _ => rfl) fun _ => rfl) fun _ => .ret
    | true =>
      refine Pushing.andThen .read (fun stopped => ?_) trivial
      cases stopped with
      | true => exact Pushing.andThen rfl (fun _ => again) trivial
      | false =>
        refine Env.Pushing.andThen (Routine.clock.pushing _) (fun now => ?_) trivial
        exact Pushing.andThen ((forEach (fun _ => routine_watchJoin now) _).pushing _)
          (fun _ => again) trivial

theorem Env.pushing_lawful (env : Env) (node port : Nat) :
    Lawful (PushLaw (π := π) env node port) (PushTerms env node port) (PushStarts env node port)
      env.body where
  begins procedure phase started := ⟨_, .started started⟩
  keeps procedure phase leaves kept := by
    cases kept with
    | started started =>
      cases started with
      | spawned spawned =>
        cases procedure with
        | runTask => exact (routine_runTask _).pushingOn _
        | deferTimerLoop => exact pushing_deferTimerLoop _
        | _ => exact spawned.elim
      | watchdog => exact pushing_joinTimeoutWatchdogLoop _
      | push unassigned names =>
        exact .bind (pushing_pushInput unassigned names) (fun _ _ _ => trivial)
          fun _ _ => trivial
    | inner inner => exact (routine_body inner).pushing _
    | fallback => exact pushing_pushFallback _ _

end Obeys

section Steps

variable {env : Env} {node port : Nat}

theorem PortQueue.ne_push {other : PortQueue π} (queue : PortQueue π) (data : PortDataPtr π)
    (same : other.pushed = queue.pushed) : other ≠ queue.push data := by
  intro equal
  have lengths := congrArg (fun queue => queue.pushed.length) equal
  simp only [PortQueue.push, same, length_append, length_singleton] at lengths
  omega

theorem Env.numbered_counters (env : Env) (state : State π) (streamId : Nat) :
    ¬ state.SameCounters (env.numbered state streamId) := by
  intro same
  obtain ⟨frames, streams⟩ := same
  unfold numbered at frames streams
  by_cases policy : env.config.alignmentPolicy = .streamFrameId
  · rw [if_pos policy] at streams
    have here := congrFun streams streamId
    simp [frameNumber, policy] at here
  · rw [if_neg policy] at frames
    simp at frames

inductive PushStep (env : Env) (node port : Nat) (label : Label π) (now : Int) (state : State π) :
    Phase π → State π → Phase π → Prop
  | aside {phase : Phase π} {after : State π} : Aside node port label state after →
      PushStep env node port label now state phase after phase
  | number {packet : PortData π} : PushStep env node port label now state (.fresh packet)
      (env.numbered state packet.streamId)
      (.numbered { packet with id := env.frameNumber state packet.streamId })
  | stamp {packet : PortData π} : PushStep env node port label now state (.numbered packet) state
      (.stamped { packet with timestamp := now })
  | enqueue {packet : PortData π} : label = .enqueue node port .input →
      PushStep env node port label now state (.stamped packet)
        (state.updateQueue node port fun queue => queue.push (some packet)) .outside

theorem PushLaw.step {phase : Phase π} {label : Label π} {β : Type}
    {effect : Choice π → State π → Option (β × State π)} {after : β → Phase π}
    (law : PushLaw env node port phase label β effect after) {choice : Choice π}
    {state state' : State π} {answer : β} (made : effect choice state = some (answer, state')) :
    PushStep env node port label choice.now state phase state' (after answer) := by
  cases law with
  | aside quiet => exact .aside (quiet _ _ _ _ made)
  | number _ taken =>
    rw [taken] at made
    cases made
    exact .number
  | stamp _ read =>
    rw [read] at made
    cases made
    exact .stamp
  | attempt tried =>
    rw [tried] at made
    split at made
    · cases made
      exact .aside ⟨⟨rfl, rfl⟩, .inl rfl⟩
    · cases made
      exact .enqueue rfl

abbrev Env.StandsIn (env : Env) (node port : Nat) (entry : EngineThread π × Phase π) : Prop :=
  Stands (PushLaw env node port) (PushTerms env node port) (PushStarts env node port) entry

def Phase.away : Phase π → Prop
  | .outside => True
  | .fresh _ => True
  | _ => False

theorem Env.StandsIn.not_inSection {entry : EngineThread π × Phase π}
    (stands : env.StandsIn node port entry) (away : entry.2.away) :
    ¬ env.InSection node port entry.1 := by
  refine (env.pushing_lawful node port).not_leads (fun phase label β effect after choice state
    answer state' away law made => ?_) stands away
  have stepped := law.step made
  generalize after answer = phase' at stepped
  cases stepped with
  | aside aside =>
    refine ⟨fun reached => ?_, fun _ => away⟩
    obtain ⟨labelled, data, pushed⟩ := reached
    rcases aside.queue with same | same | ⟨route, other, foreign⟩
    · exact ne_push _ data rfl (same.symm.trans pushed)
    · exact ne_push (state.queue node port) data (by rfl) (same.symm.trans pushed)
    · rw [labelled] at other
      exact foreign (Label.enqueue.inj other).2.2.symm
  | number =>
    refine ⟨fun reached => ?_, fun passed => absurd passed (env.numbered_counters _ _)⟩
    obtain ⟨-, data, pushed⟩ := reached
    rw [env.numbered_queue] at pushed
    exact ne_push _ data rfl pushed
  | stamp => exact away.elim
  | enqueue => exact away.elim

def Env.Above (env : Env) (state : State π) (items : List (PortDataPtr π)) (time : Int) :
    Phase π → Prop
  | .numbered packet => packet.id < env.frameNumber state packet.streamId ∧
      ∀ item, some item ∈ items → env.Numbers item packet
  | .stamped packet => packet.id < env.frameNumber state packet.streamId ∧
      packet.timestamp ≤ time ∧
      ∀ item, some item ∈ items → env.Numbers item packet ∧ item.timestamp ≤ packet.timestamp
  | _ => True

structure Env.Sequenced (env : Env) (node port : Nat) (time : Int) (state : State π)
    (entries : List (EngineThread π × Phase π)) : Prop where
  entered : ∀ data ∈ (state.queue node port).items, ∃ packet, data = some packet ∧
    packet.id < env.frameNumber state packet.streamId ∧ packet.timestamp ≤ time
  ordered : env.InOrder (state.queue node port).items
  single : entries.Pairwise fun first second =>
    ¬ (env.InSection node port first.1 ∧ env.InSection node port second.1)
  above : ∀ entry ∈ entries, env.InSection node port entry.1 →
    env.Above state (state.queue node port).items time entry.2

variable {time : Int} {state state' : State π} {entries before after : List (EngineThread π × Phase π)}
  {entry entry' : EngineThread π × Phase π}

theorem Env.Above.mono {items items' : List (PortDataPtr π)} {phase : Phase π}
    (above : env.Above state items time phase) (same : state.SameCounters state')
    (fewer : items'.Sublist items) : env.Above state' items' time phase := by
  cases phase with
  | outside => exact trivial
  | fresh => exact trivial
  | numbered packet =>
    refine ⟨?_, fun item member => above.2 item (fewer.subset member)⟩
    rw [same.frameNumber]
    exact above.1
  | stamped packet =>
    refine ⟨?_, above.2.1, fun item member => above.2.2 item (fewer.subset member)⟩
    rw [same.frameNumber]
    exact above.1

theorem Env.Sequenced.replace
    (sequenced : env.Sequenced node port time state (before ++ entry :: after))
    (same : state.SameCounters state')
    (fewer : (state'.queue node port).items.Sublist (state.queue node port).items)
    (inside : env.InSection node port entry'.1 → env.InSection node port entry.1)
    (above : env.Above state (state.queue node port).items time entry.2 →
      env.Above state (state.queue node port).items time entry'.2) :
    env.Sequenced node port time state' (before ++ entry' :: after) where
  entered data member := by
    obtain ⟨packet, rfl, below, early⟩ := sequenced.entered data (fewer.subset member)
    refine ⟨packet, rfl, ?_, early⟩
    rw [same.frameNumber]
    exact below
  ordered := sequenced.ordered.sublist fewer
  single := by
    have single := sequenced.single
    simp only [pairwise_append, pairwise_cons, forall_mem_cons] at single ⊢
    obtain ⟨first, ⟨here, last⟩, across⟩ := single
    refine ⟨first, ⟨fun other member both => here other member ⟨inside both.1, both.2⟩, last⟩,
      fun other member => ⟨fun both => (across other member).1 ⟨both.1, inside both.2⟩,
        (across other member).2⟩⟩
  above other member within := by
    have known := sequenced.above
    simp only [forall_mem_append, forall_mem_cons] at known
    simp only [mem_append, mem_cons] at member
    rcases member with member | rfl | member
    · exact (known.1 other member within).mono same fewer
    · exact (above (known.2.1 (inside within))).mono same fewer
    · exact (known.2.2 other member within).mono same fewer

theorem Env.Sequenced.append (sequenced : env.Sequenced node port time state entries)
    (outside : ¬ env.InSection node port entry.1) :
    env.Sequenced node port time state (entries ++ [entry]) where
  entered := sequenced.entered
  ordered := sequenced.ordered
  single := by
    refine pairwise_append.mpr ⟨sequenced.single, pairwise_singleton _ _, ?_⟩
    intro other _ last here both
    obtain rfl := mem_singleton.mp here
    exact outside both.2
  above other member within := by
    rcases mem_append.mp member with old | new
    · exact sequenced.above other old within
    · obtain rfl := mem_singleton.mp new
      exact absurd within outside

theorem Env.Sequenced.number {packet : PortData π}
    (sequenced : env.Sequenced node port time state (before ++ entry :: after))
    (nobody : ∀ other ∈ before ++ entry :: after, ¬ env.InSection node port other.1)
    (phase : entry'.2 = .numbered { packet with id := env.frameNumber state packet.streamId }) :
    env.Sequenced node port time (env.numbered state packet.streamId)
      (before ++ entry' :: after) := by
  have grows (streamId : Nat) := (env.frameNumber_numbered state packet.streamId streamId)
  simp only [forall_mem_append, forall_mem_cons] at nobody
  refine ⟨?_, ?_, ?_, ?_⟩
  · rw [env.numbered_queue]
    intro data member
    obtain ⟨item, rfl, below, early⟩ := sequenced.entered data member
    exact ⟨item, rfl, Nat.lt_of_lt_of_le below (grows _).1, early⟩
  · rw [env.numbered_queue]
    exact sequenced.ordered
  · have single := sequenced.single
    simp only [pairwise_append, pairwise_cons, forall_mem_cons] at single ⊢
    obtain ⟨first, ⟨-, last⟩, across⟩ := single
    exact ⟨first, ⟨fun other member both => nobody.2.2 other member both.2, last⟩,
      fun other member => ⟨fun both => nobody.1 other member both.1, (across other member).2⟩⟩
  · intro other member within
    simp only [mem_append, mem_cons] at member
    rcases member with member | rfl | member
    · exact absurd within (nobody.1 other member)
    · rw [phase, env.numbered_queue]
      refine ⟨(grows packet.streamId).2, fun item inside streams => ?_⟩
      obtain ⟨item', same, below, -⟩ := sequenced.entered (some item) inside
      obtain rfl := Option.some.inj same
      refine Nat.lt_of_lt_of_eq below ?_
      unfold frameNumber
      split
      · rename_i policy
        rw [streams policy]
      · rfl
    · exact absurd within (nobody.2.2 other member)

theorem Env.Sequenced.enqueue {packet : PortData π}
    (sequenced : env.Sequenced node port time state (before ++ entry :: after))
    (within : env.InSection node port entry.1) (phase : entry.2 = .stamped packet)
    (left : ¬ env.InSection node port entry'.1) :
    env.Sequenced node port time (state.updateQueue node port fun queue => queue.push (some packet))
      (before ++ entry' :: after) := by
  have above := sequenced.above entry (by simp) within
  rw [phase] at above
  obtain ⟨below, early, later⟩ := above
  have single := sequenced.single
  simp only [pairwise_append, pairwise_cons, forall_mem_cons] at single
  obtain ⟨first, ⟨here, last⟩, across⟩ := single
  refine ⟨?_, ?_, ?_, ?_⟩
  · rw [queue_updateQueue, items_push]
    intro data member
    rcases mem_append.mp member with old | new
    · exact sequenced.entered data old
    · exact ⟨packet, mem_singleton.mp new, below, early⟩
  · rw [queue_updateQueue, items_push]
    refine pairwise_append.mpr ⟨sequenced.ordered, pairwise_singleton _ _, ?_⟩
    rintro data member last new item packet' rfl rfl
    obtain rfl := Option.some.inj (mem_singleton.mp new)
    exact later item member
  · simp only [pairwise_append, pairwise_cons, forall_mem_cons]
    exact ⟨first, ⟨fun other member both => left both.1, last⟩,
      fun other member => ⟨fun both => left both.2, (across other member).2⟩⟩
  · intro other member inside
    simp only [mem_append, mem_cons] at member
    rcases member with member | rfl | member
    · exact absurd ⟨inside, within⟩ (across other member).1
    · exact absurd inside left
    · exact absurd ⟨within, inside⟩ (here other member)

theorem Env.Sequenced.wait {later : Int} (sequenced : env.Sequenced node port time state entries)
    (passed : time ≤ later) : env.Sequenced node port later state entries where
  entered data member := by
    obtain ⟨packet, same, below, early⟩ := sequenced.entered data member
    exact ⟨packet, same, below, early.trans passed⟩
  ordered := sequenced.ordered
  single := sequenced.single
  above entry member within := by
    have above := sequenced.above entry member within
    cases phase : entry.2 with
    | outside => exact trivial
    | fresh => exact trivial
    | numbered packet =>
      rw [phase] at above
      exact above
    | stamped packet =>
      rw [phase] at above
      exact ⟨above.1, above.2.1.trans passed, above.2.2⟩

theorem Env.Sequenced.step {entries' : List (EngineThread π × Phase π)}
    (sequenced : env.Sequenced node port time state entries)
    (stand : ∀ entry ∈ entries, env.StandsIn node port entry)
    (stand' : ∀ entry ∈ entries', env.StandsIn node port entry)
    (moved : Moves (PushLaw env node port) (PushStarts env node port) env.body
      (env.feeding node port time) state entries state' entries')
    (apart : env.Apart node port ⟨state, entries.map Prod.fst⟩ ⟨state', entries'.map Prod.fst⟩) :
    env.Sequenced node port time state' entries' := by
  cases moved with
  | @act before after name phase β label effect next leads choice _ _ answer allowed made law =>
    have stepped := law.step made
    rw [allowed.1] at stepped
    have passes (same : state.SameCounters state')
        (within : env.InSection node port (⟨name, next answer⟩ : EngineThread π)) :
        env.InSection node port (⟨name, .act label effect next⟩ : EngineThread π) :=
      .later made same within
    generalize leads answer = phase' at stepped stand'
    cases stepped with
    | aside aside =>
      refine sequenced.replace aside.counters ?_ (passes aside.counters) id
      rcases aside.queue with same | same | ⟨route, labelled, foreign⟩
      · rw [same]
      · rw [same, items_pop]
        exact tail_sublist _
      · exact absurd (allowed.2 route labelled) foreign
    | number =>
      have nobody := apart (env.numbered_counters _ _)
      refine sequenced.number (fun other member => nobody other.1 ?_) rfl
      exact mem_map_of_mem member
    | stamp =>
      refine sequenced.replace ⟨rfl, rfl⟩ (.refl _) (passes ⟨rfl, rfl⟩) fun above => ?_
      refine ⟨above.1, le_rfl, fun item member => ⟨above.2 item member, ?_⟩⟩
      obtain ⟨item', same, -, early⟩ := sequenced.entered (some item) member
      exact Option.some.inj same ▸ early
    | enqueue labelled =>
      refine sequenced.enqueue (.here made ⟨labelled, _, queue_updateQueue ..⟩) rfl ?_
      exact (stand' _ (by simp)).not_inSection trivial
  | call => exact sequenced.replace ⟨rfl, rfl⟩ (.refl _) .call id
  | @spawn before after name procedure phase first next _ started =>
    have replaced : env.Sequenced node port time state (before ++ (⟨name, next⟩, phase) :: after) :=
      sequenced.replace ⟨rfl, rfl⟩ (.refl _) .spawn id
    refine replaced.append ((stand' _ (by simp)).not_inSection ?_)
    cases started <;> exact trivial
  | start _ started =>
    refine sequenced.append ((stand' _ (by simp)).not_inSection ?_)
    cases started <;> exact trivial

end Steps

section Order

variable {env : Env} {node port : Nat}

structure Env.Entered (env : Env) (node port : Nat) (first : Int) (origin : State π) : Prop where
  entered : ∀ data ∈ (origin.queue node port).items, ∃ packet, data = some packet ∧
    packet.id < env.frameNumber origin packet.streamId ∧ packet.timestamp ≤ first
  ordered : env.InOrder (origin.queue node port).items

theorem Env.feeding_starts (time : Int) (procedure : Proc π) (state : State π)
    (allowed : (env.feeding node port time).starts procedure state) :
    ∃ phase, PushStarts env node port procedure phase := by
  cases procedure with
  | joinTimeoutWatchdogLoop => exact ⟨.outside, .watchdog⟩
  | pushInput name portName data =>
    cases data with
    | none => exact allowed.elim
    | some packet => exact ⟨.fresh packet, .push allowed.1 allowed.2⟩
  | _ => exact allowed.elim

/-- However many clients push to a port, its queue is in order in every state of a run in which
no call takes its number while another is in its section. -/
theorem concurrent_pushes_ordered (env : Env) (node port : Nat) (origin : State π)
    (first time : Int) (config : EngineThreads π) (entered : env.Entered node port first origin)
    (run : env.Feeds node port (env.Apart node port) origin first time config) :
    env.InOrder (config.shared.queue node port).items := by
  obtain ⟨entries, -, -, sequenced⟩ := (env.pushing_lawful node port).invariant
    (env.Sequenced node port) feeding_starts (fun _ _ _ _ passed sequenced => sequenced.wait passed)
    (fun _ _ _ _ _ stand stand' moved apart sequenced => sequenced.step stand stand' moved apart)
    run rfl ⟨entered.entered, entered.ordered, .nil, forall_mem_nil _⟩
  exact sequenced.ordered

theorem Env.finished_le {rules : EngineRules π} {config config' : EngineThreads π}
    (step : Step env.body rules config config') :
    config.threads.countP (fun thread => thread.program.finished) ≤
      config'.threads.countP fun thread => thread.program.finished := by
  cases step <;>
    simp only [countP_append, countP_cons, Prog.finished, Bool.false_eq_true, if_false] <;> omega

theorem Env.InSection.unfinished {thread : EngineThread π} (within : env.InSection node port thread) :
    thread.program.finished = false := by
  obtain ⟨name, program⟩ := thread
  cases program with
  | ret | throw => cases within
  | _ => rfl

/-- A call that begins when all others have returned takes its number while no other is in
its section. -/
theorem Env.Feeds.apart_next {origin : State π} {first time : Int} {config config' : EngineThreads π}
    (before : env.Feeds node port (env.Apart node port) origin first time config)
    (ended : config.threads.all fun thread => thread.program.finished)
    (run : Reaches env.body (env.feeding node port time) config config')
    (next : config'.threads.length ≤ config.threads.length + 1) :
    config.threads.length ≤ config'.threads.countP (fun thread => thread.program.finished) ∧
      env.Feeds node port (env.Apart node port) origin first time config' := by
  induction run with
  | refl => exact ⟨(countP_eq_length.mpr (all_eq_true.mp ended)).ge, before⟩
  | @tail middle last _ stepped ih =>
    obtain ⟨many, met⟩ := ih (stepped.length_le.trans next)
    refine ⟨many.trans (finished_le stepped),
      .step met le_rfl stepped fun changed thread member within => ?_⟩
    have fewer := stepped.length_le.trans next
    obtain ⟨entries, same, stand, -⟩ := (env.pushing_lawful node port).invariant
      (fun _ _ _ => True) feeding_starts (fun _ _ _ _ _ _ => trivial)
      (fun _ _ _ _ _ _ _ _ _ _ => trivial) met rfl trivial
    obtain ⟨entries', -, -, moved⟩ := (env.pushing_lawful node port).step
      (feeding_starts time) stepped same stand
    rw [← same] at member many fewer
    obtain ⟨other, among, rfl⟩ := mem_map.mp member
    generalize middle.shared = state, last.shared = state' at moved changed
    cases moved with
    | @act front back name phase β label effect rest leads choice _ _ answer allowed made law =>
      have stepped := law.step made
      generalize leads answer = phase' at stepped
      cases stepped with
      | aside aside => exact changed aside.counters
      | stamp => exact changed ⟨rfl, rfl⟩
      | enqueue => exact changed ⟨rfl, rfl⟩
      | number =>
        -- the thread that takes the number is not in its section, and all others have returned
        have returned : ((front ++ back).map Prod.fst).countP
            (fun thread => thread.program.finished) = ((front ++ back).map Prod.fst).length := by
          refine le_antisymm countP_le_length ?_
          simp only [map_append, map_cons, countP_append, countP_cons, length_append, length_cons,
            Prog.finished, Bool.false_eq_true, if_false] at many fewer ⊢
          omega
        rcases mem_append.mp among with here | here
        · have done := countP_eq_length.mp returned _ (mem_map_of_mem (mem_append_left back here))
          simp [within.unfinished] at done
        · rcases mem_cons.mp here with rfl | here
          · exact StandsIn.not_inSection (stand _ among) trivial within
          · have done := countP_eq_length.mp returned _ (mem_map_of_mem (mem_append_right front here))
            simp [within.unfinished] at done
    | _ => exact changed ⟨rfl, rfl⟩
end Order

section Camera

def cameraReferee : Referee (State Unit) (Label Unit) (Proc Unit) (Choice Unit) where
  allows label choice _ := choice.now == 1 && match label with
    | .enqueue _ _ route => decide (route = .input)
    | _ => true
  starts procedure _ := match procedure with
    | .pushInput name portName (some packet) =>
      name == "camera" && portName == "frame" && packet.id == kInvalidFrameId &&
        packet.timestamp == 0
    | _ => false

theorem cameraReferee_allows (label : Label Unit) (choice : Choice Unit) (state : State Unit)
    (allowed : cameraReferee.allows label choice state = true) :
    (soloEngine.feeding 0 0 1).allows label choice state := by
  obtain ⟨time, other⟩ := Bool.and_eq_true_iff.mp allowed
  refine ⟨beq_iff_eq.mp time, fun route labelled => ?_⟩
  rw [labelled] at other
  exact of_decide_eq_true other

theorem cameraReferee_starts (procedure : Proc Unit) (state : State Unit)
    (allowed : cameraReferee.starts procedure state = true) :
    (soloEngine.feeding 0 0 1).starts procedure state := by
  cases procedure with
  | pushInput name portName data =>
    cases data with
    | none => cases allowed
    | some packet =>
      simp only [cameraReferee, Bool.and_eq_true, beq_iff_eq] at allowed
      obtain ⟨⟨⟨rfl, rfl⟩, unknown⟩, unstamped⟩ := allowed
      exact ⟨⟨unknown, unstamped⟩, by decide, by decide⟩
  | _ => cases allowed

theorem Env.played_camera (schedule : List (Turn (Proc Unit) (Choice Unit)))
    (test : EngineThreads Unit → Prop) [DecidablePred test]
    (passed : (play soloEngine.body cameraReferee ⟨streamingState, []⟩ schedule).any (test ·)) :
    ∃ config, soloEngine.Feeds 0 0 (fun _ _ => True) streamingState 1 1 config ∧ test config := by
  obtain ⟨config, run, tested⟩ := soloEngine.played (soloEngine.feeding 0 0 1) cameraReferee
    cameraReferee_allows cameraReferee_starts streamingState schedule test passed
  exact ⟨config, Reaches.unfolds le_rfl run, tested⟩

theorem entered_camera : soloEngine.Entered 0 0 1 streamingState :=
  ⟨forall_mem_nil _, .nil⟩

def cameraPush : Turn (Proc Unit) (Choice Unit) :=
  .start (.pushInput "camera" "frame" (some { payload := () }))

def queuedIds (config : EngineThreads Unit) : List (Option Nat) :=
  (config.shared.queue 0 0).items.map fun data => data.map PortData.id

/-- The pool refuses the task of the first call, which has returned when the second begins. -/
theorem concurrent_pushes_ordered_twice : ∃ config,
    soloEngine.Feeds 0 0 (soloEngine.Apart 0 0) streamingState 1 1 config ∧
      queuedIds config = [some 1, some 2] ∧
      soloEngine.InOrder (config.shared.queue 0 0).items := by
  obtain ⟨middle, first, ended, single, rest⟩ := soloEngine.played (soloEngine.feeding 0 0 1)
    cameraReferee cameraReferee_allows cameraReferee_starts streamingState
    (cameraPush :: turns 0 26 { now := 1, posted := false }) (fun config =>
      (config.threads.all fun thread => thread.program.finished) = true ∧
      config.threads.length = 1 ∧
      (play soloEngine.body cameraReferee config (cameraPush :: turns 1 5 { now := 1 })).any
        fun config => decide (queuedIds config = [some 1, some 2] ∧ config.threads.length ≤ 2))
    (by decide +kernel)
  obtain ⟨config, second, queued, two⟩ := played_reaches soloEngine.body cameraReferee middle _
    (fun config => queuedIds config = [some 1, some 2] ∧ config.threads.length ≤ 2) rest
  have alone := (Feeds.apart_next .start rfl first single.le).2
  have apart := (alone.apart_next ended (second.mono cameraReferee_allows cameraReferee_starts)
    (by rw [single]; exact two)).2
  exact ⟨config, apart, queued,
    concurrent_pushes_ordered soloEngine 0 0 streamingState 1 1 config entered_camera apart⟩

def swapped : List (PortDataPtr Unit) → Bool
  | [some first, some second] => decide (second.id < first.id)
  | _ => false

/-- The first call takes the number 1, the second one takes the number 2 and enqueues its
packet before the first. -/
theorem overtaking_push_reverses_queue : ∃ config,
    soloEngine.Feeds 0 0 (fun _ _ => True) streamingState 1 1 config ∧
      soloEngine.Entered 0 0 1 streamingState ∧
      ¬ soloEngine.InOrder (config.shared.queue 0 0).items := by
  obtain ⟨config, run, tested⟩ := played_camera
    ([cameraPush, cameraPush] ++ turns 0 3 { now := 1 } ++ turns 1 5 { now := 1 } ++
      turns 0 2 { now := 1 }) (fun config => swapped (config.shared.queue 0 0).items) (by decide)
  refine ⟨config, run, entered_camera, fun ordered => ?_⟩
  unfold swapped at tested
  split at tested
  · rename_i first second items
    rw [items] at ordered
    have numbers := (rel_of_pairwise_cons ordered (.head _) first second rfl rfl).1
    have less := numbers fun policy => absurd policy (by decide)
    have reversed := of_decide_eq_true tested
    omega
  · cases tested

end Camera

end AiPipe
