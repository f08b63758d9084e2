import AiPipe.Ingress.Calls

/-!
The identity of the packets that enter the engine.  Packets are injected one after another;
between two of them the engine may do anything that leaves the frame counters alone.
-/

namespace AiPipe

open Concurrency List PortQueue

variable {π : Type}

/-- One packet on its way in: a call of `pushInput`, or the input of one source in a call of
`execute`. -/
inductive Injection (π : Type) where
  | push (name port : String) (data : PortDataPtr π)
  | initial (inputs : PortDataMap π) (node : Nat)

/-- What the engine found before an injection (whether the route stamps the packet, whether some
queue takes it), the packet that was given, and what was placed in the queues. -/
structure Arrival (π : Type) where
  stamps : Bool
  lands : Bool
  given : PortDataPtr π
  placed : List (PortDataPtr π)

def Choice.Timely (choice : Choice π) : Prop := choice.Calm ∧ choice.now ≠ 0

namespace Env

variable (env : Env)

def inject : Injection π → Code π Unit
  | .push name port data => do
      let _ ← env.pushInput name port data
      .ret ()
  | .initial inputs node => do
      let _ ← env.distributeTo inputs node
      .ret ()

def given : Injection π → PortDataPtr π
  | .push _ _ data => data
  | .initial inputs node => (inputs.find (env.graph.name node)).join

def stamps (state : State π) : Injection π → Bool
  | .push name port _ => env.pushReaches state name port && env.pushStamps name port
  | .initial inputs node => (inputs.find (env.graph.name node)).isSome

def targets (state : State π) : Injection π → List (Nat × String)
  | .push name port _ => if env.pushReaches state name port then env.pushTargets name port else []
  | .initial inputs node => env.initialTargets inputs node

def placed (state after : State π) : List (PortDataPtr π) :=
  (List.range env.graph.nodeCount).flatMap fun node =>
    (List.range (env.portCount node)).flatMap fun port =>
      (after.queue node port).pushed.drop (state.queue node port).pushed.length

def arrival (injection : Injection π) (state after : State π) : Arrival π where
  stamps := env.stamps state injection
  lands := (env.targets state injection).any (env.accepts state)
  given := env.given injection
  placed := env.placed state after

inductive Ingress (origin : State π) : List (Arrival π) → State π → Prop
  | start : Ingress origin [] origin
  | elsewhere {log : List (Arrival π)} {state after : State π} :
      Ingress origin log state → state.SameNumbers after → Ingress origin log after
  | inject {log : List (Arrival π)} {state after : State π} (injection : Injection π) {fuel : Nat}
      {choices : Nat → Choice π} : Ingress origin log state →
      (∀ index, (choices index).Timely) →
      alone env.body fuel choices (env.inject injection) state = some ((), after) →
      Ingress origin (log ++ [env.arrival injection state after]) after

end Env

namespace Arrival

def Assigns (arrival : Arrival π) (packet : PortData π) : Prop :=
  some packet ∈ arrival.placed ∧ packet.id ≠ kInvalidFrameId ∧
    ∃ given, arrival.given = some given ∧ given.id = kInvalidFrameId

/-- The packet has an id and a timestamp, or the route completes it: one that stamps completes
a packet without an id, and only such a packet. -/
def Complete (arrival : Arrival π) : Prop :=
  arrival.lands = true → ∀ packet, arrival.given = some packet →
    if arrival.stamps then packet.id = kInvalidFrameId ∨ packet.timestamp ≠ 0
    else packet.id ≠ kInvalidFrameId ∧ packet.timestamp ≠ 0

end Arrival

def Preserves : PortDataPtr π → PortDataPtr π → Prop
  | none, none => True
  | some given, some placed =>
    (given.id ≠ kInvalidFrameId → placed.id = given.id) ∧
    (given.timestamp ≠ 0 → placed.timestamp = given.timestamp) ∧
    placed.streamId = given.streamId ∧ placed.payload = given.payload
  | _, _ => False

structure Env.Identity (env : Env) (log : List (Arrival π)) : Prop where
  complete : ∀ arrival ∈ log, ∀ packet, some packet ∈ arrival.placed →
    packet.id ≠ kInvalidFrameId ∧ packet.timestamp ≠ 0
  preserved : ∀ arrival ∈ log, ∀ data ∈ arrival.placed, Preserves arrival.given data
  increasing : log.Pairwise fun earlier later => ∀ first second, earlier.Assigns first →
    later.Assigns second →
    (env.config.alignmentPolicy = .streamFrameId → first.streamId = second.streamId) →
      first.id < second.id

section Placed

variable {env : Env} {may : Choice π → Prop} {state after : State π} {stamps : Bool}
  {given : PortDataPtr π} {targets : List (Nat × String)}

theorem PortQueue.offer_pushed (config : QueueConfig) (queue : PortQueue π) (data : PortDataPtr π) :
    ((queue.offer config data).getD queue).pushed.drop queue.pushed.length =
      if (queue.offer config data).isSome then [data] else [] := by
  unfold offer
  split
  · simp
  · simp [PortQueue.push, keep]

theorem Env.node_of_portIndex {node index : Nat} {name : String}
    (named : env.portIndex node name = some index) : node < env.graph.nodeCount := by
  by_contra outside
  have nothing : env.graph.inputPorts node = [] := by
    unfold CompiledGraph.inputPorts inputPortsOf
    rw [getElem?_eq_none (Nat.not_lt.mp outside)]
    rfl
  rw [Env.portIndex, nothing] at named
  cases named

theorem Env.Enters.placed (enters : env.Enters may state stamps given targets after) :
    ∃ choice, may choice ∧ (env.marked state stamps choice.now given).2.SameNumbers after ∧
      ∀ data, data ∈ env.placed state after ↔ targets.any (env.accepts state) = true ∧
        data = (env.marked state stamps choice.now given).1 := by
  obtain ⟨⟨choice, fair, served, numbers⟩, spares⟩ := enters
  refine ⟨choice, fair, numbers, fun data => ?_⟩
  simp only [Env.placed, mem_flatMap, mem_range, any_eq_true]
  constructor
  · rintro ⟨node, -, index, -, member⟩
    by_cases here : ∃ target ∈ targets, target.1 = node ∧ env.portIndex node target.2 = some index
    · obtain ⟨target, among, rfl, named⟩ := here
      rw [served target among index named, offer_pushed, offer_isSome] at member
      split at member
      · rename_i takes
        refine ⟨⟨target, among, ?_⟩, mem_singleton.mp member⟩
        rw [Env.accepts, named]
        exact takes
      · cases member
    · rw [spares node index fun target among same named => here ⟨target, among, same, named⟩,
        drop_length] at member
      cases member
  · rintro ⟨⟨target, among, takes⟩, rfl⟩
    cases named : env.portIndex target.1 target.2 with
    | none => rw [Env.accepts, named] at takes; cases takes
    | some index =>
      refine ⟨target.1, Env.node_of_portIndex named, index, Env.portIndex_lt named, ?_⟩
      rw [Env.accepts, named] at takes
      rw [served target among index named, offer_pushed, offer_isSome, if_pos takes]
      exact mem_singleton_self _

end Placed

section Marked

variable {env : Env} {state after : State π} {now : Int}

theorem Env.frameNumber_pos (positive : 0 < state.nextFrameId) (streamId : Nat) :
    0 < env.frameNumber state streamId := by
  unfold Env.frameNumber
  split
  · exact Nat.succ_pos _
  · exact positive

theorem Env.marked_cases (env : Env) (state : State π) (stamps : Bool) (now : Int)
    (packet : PortData π) :
    ((stamps = true → packet.id ≠ kInvalidFrameId) ∧
      env.marked state stamps now (some packet) = (some packet, state)) ∨
    (stamps = true ∧ packet.id = kInvalidFrameId ∧
      env.marked state stamps now (some packet) = (some { packet with
        id := env.frameNumber state packet.streamId
        timestamp := if packet.timestamp = 0 then now else packet.timestamp },
        env.numbered state packet.streamId)) := by
  cases stamps with
  | false => exact .inl ⟨nofun, rfl⟩
  | true =>
    by_cases known : packet.hasFrameId = true
    · exact .inl ⟨fun _ => bne_iff_ne.mp known, if_pos known⟩
    · refine .inr ⟨rfl, ?_, if_neg known⟩
      rwa [PortData.hasFrameId, bne_iff_ne, not_not] at known

theorem Env.marked_none (env : Env) (state : State π) (stamps : Bool) (now : Int) :
    env.marked state stamps now none = (none, state) := by
  cases stamps <;> rfl

theorem Env.marked_preserves (env : Env) (state : State π) (stamps : Bool) (now : Int)
    (given : PortDataPtr π) : Preserves given (env.marked state stamps now given).1 := by
  cases given with
  | none =>
    rw [Env.marked_none]
    exact trivial
  | some packet =>
    rcases env.marked_cases state stamps now packet with ⟨-, same⟩ | ⟨-, unknown, same⟩
    · rw [same]
      exact ⟨fun _ => rfl, fun _ => rfl, rfl, rfl⟩
    · rw [same]
      exact ⟨fun known => absurd unknown known, fun known => if_neg known, rfl, rfl⟩

variable {packet placed : PortData π}

theorem Env.marked_complete_iff {stamps : Bool} (positive : 0 < state.nextFrameId) (late : now ≠ 0)
    (same : (env.marked state stamps now (some packet)).1 = some placed) :
    placed.id ≠ kInvalidFrameId ∧ placed.timestamp ≠ 0 ↔
      if stamps then packet.id = kInvalidFrameId ∨ packet.timestamp ≠ 0
      else packet.id ≠ kInvalidFrameId ∧ packet.timestamp ≠ 0 := by
  rcases env.marked_cases state stamps now packet with ⟨known, kept⟩ | ⟨rfl, unknown, numbered⟩
  · rw [kept] at same
    obtain rfl := Option.some.inj same
    cases stamps with
    | false => rfl
    | true =>
      rw [if_pos rfl]
      exact ⟨fun both => .inr both.2, fun either => ⟨known rfl, either.resolve_left (known rfl)⟩⟩
  · rw [numbered] at same
    obtain rfl := Option.some.inj same
    rw [if_pos rfl]
    refine ⟨fun _ => .inl unknown, fun _ => ⟨(Env.frameNumber_pos positive _).ne', ?_⟩⟩
    dsimp only
    split
    · exact late
    · assumption

theorem Env.marked_assigns {stamps : Bool}
    (unknown : packet.id = kInvalidFrameId) (assigned : placed.id ≠ kInvalidFrameId)
    (same : (env.marked state stamps now (some packet)).1 = some placed) :
    placed.id = env.frameNumber state placed.streamId ∧
      (env.marked state stamps now (some packet)).2 = env.numbered state placed.streamId := by
  rcases env.marked_cases state stamps now packet with ⟨-, kept⟩ | ⟨-, -, numbered⟩
  · rw [kept] at same
    obtain rfl := Option.some.inj same
    exact absurd unknown assigned
  · rw [numbered] at same ⊢
    obtain rfl := Option.some.inj same
    exact ⟨rfl, rfl⟩

theorem Env.marked_counters (env : Env) (state : State π) (stamps : Bool) (now : Int)
    (given : PortDataPtr π) (streamId : Nat) :
    env.frameNumber state streamId ≤ env.frameNumber (env.marked state stamps now given).2 streamId ∧
      (env.marked state stamps now given).2.engineMutex = state.engineMutex ∧
      state.nextFrameId ≤ (env.marked state stamps now given).2.nextFrameId := by
  have kept : env.frameNumber state streamId ≤ env.frameNumber state streamId ∧
      state.engineMutex = state.engineMutex ∧ state.nextFrameId ≤ state.nextFrameId :=
    ⟨le_rfl, rfl, le_rfl⟩
  cases given with
  | none =>
    rw [Env.marked_none]
    exact kept
  | some packet =>
    rcases env.marked_cases state stamps now packet with ⟨-, same⟩ | ⟨-, -, same⟩
    · rw [same]
      exact kept
    · rw [same]
      refine ⟨(env.frameNumber_numbered state _ streamId).1, ?_⟩
      dsimp only [Env.numbered]
      by_cases streams : env.config.alignmentPolicy = .streamFrameId
      · rw [if_pos streams]
        exact ⟨rfl, le_rfl⟩
      · rw [if_neg streams]
        exact ⟨rfl, Nat.le_succ _⟩

end Marked

section Runs

variable {env : Env} {origin state after : State π} {log : List (Arrival π)}

theorem Env.inject_completes (injection : Injection π) (free : state.engineMutex = false) :
    Completes env.body Choice.Timely (fun _ after => env.Enters Choice.Timely state
      (env.stamps state injection) (env.given injection) (env.targets state injection) after)
      (env.inject injection) state := by
  have possible : ∃ choice : Choice π, choice.Timely := ⟨{ now := 1 }, ⟨rfl, rfl⟩, Int.one_ne_zero⟩
  have calm (choice : Choice π) (timely : choice.Timely) : choice.Calm := timely.1
  cases injection with
  | push name port data =>
    exact (Env.pushInput_completes calm possible free).bind fun _ _ pushes => .ret pushes.enters
  | initial inputs node =>
    exact (Env.distributeTo_completes calm possible inputs node free).bind
      fun _ _ enters => .ret enters

variable {choices : Nat → Choice π} {injection : Injection π} {fuel : Nat}

theorem Env.arrival_spec
    (free : state.engineMutex = false) (timely : ∀ index, (choices index).Timely)
    (ran : alone env.body fuel choices (env.inject injection) state = some ((), after)) :
    ∃ now, now ≠ 0 ∧ (env.marked state (env.stamps state injection) now
        (env.given injection)).2.SameNumbers after ∧
      ∀ data, data ∈ (env.arrival injection state after).placed ↔
        (env.arrival injection state after).lands = true ∧
        data = (env.marked state (env.stamps state injection) now (env.given injection)).1 := by
  obtain ⟨choice, fair, numbers, placed⟩ :=
    ((Env.inject_completes injection free).ends.result timely ran).placed
  exact ⟨choice.now, fair.2, numbers, placed⟩

structure Env.Numbered (env : Env) (log : List (Arrival π)) (state : State π) : Prop where
  free : state.engineMutex = false
  positive : 0 < state.nextFrameId
  below : ∀ arrival ∈ log, ∀ packet, arrival.Assigns packet →
    packet.id < env.frameNumber state packet.streamId
  complete : ∀ arrival ∈ log, (∀ packet, some packet ∈ arrival.placed →
    packet.id ≠ kInvalidFrameId ∧ packet.timestamp ≠ 0) ↔ arrival.Complete
  preserved : ∀ arrival ∈ log, ∀ data ∈ arrival.placed, Preserves arrival.given data
  increasing : log.Pairwise fun earlier later => ∀ first second, earlier.Assigns first →
    later.Assigns second →
    (env.config.alignmentPolicy = .streamFrameId → first.streamId = second.streamId) →
      first.id < second.id

theorem Env.Numbered.elsewhere (numbered : env.Numbered log state)
    (same : state.SameNumbers after) : env.Numbered log after where
  free := same.mutex.trans numbered.free
  positive := same.frames.symm ▸ numbered.positive
  below arrival member packet assigns := by
    rw [same.frameNumber]
    exact numbered.below arrival member packet assigns
  complete := numbered.complete
  preserved := numbered.preserved
  increasing := numbered.increasing

theorem Env.Numbered.inject
    (numbered : env.Numbered log state) (timely : ∀ index, (choices index).Timely)
    (ran : alone env.body fuel choices (env.inject injection) state = some ((), after)) :
    env.Numbered (log ++ [env.arrival injection state after]) after := by
  obtain ⟨now, late, numbers, placed⟩ := Env.arrival_spec numbered.free timely ran
  have counters := env.marked_counters state (env.stamps state injection) now (env.given injection)
  -- a packet that is numbered now has the next number
  have assigned (packet : PortData π) (assigns : (env.arrival injection state after).Assigns packet) :
      packet.id = env.frameNumber state packet.streamId ∧
        env.frameNumber state packet.streamId < env.frameNumber after packet.streamId := by
    obtain ⟨member, assigned, before, given, unknown⟩ := assigns
    have same := ((placed _).mp member).2.symm
    rw [show env.given injection = some before from given] at same numbers
    obtain ⟨next, taken⟩ := Env.marked_assigns unknown assigned same
    rw [taken] at numbers
    rw [numbers.frameNumber]
    exact ⟨next, (env.frameNumber_numbered state packet.streamId 0).2⟩
  refine ⟨numbers.mutex.trans ((counters 0).2.1.trans numbered.free), ?_, ?_, ?_, ?_, ?_⟩
  · rw [numbers.frames]
    exact Nat.lt_of_lt_of_le numbered.positive (counters 0).2.2
  · intro arrival member packet assigns
    rcases mem_append.mp member with old | new
    · rw [numbers.frameNumber]
      exact Nat.lt_of_lt_of_le (numbered.below arrival old packet assigns) (counters _).1
    · obtain rfl := mem_singleton.mp new
      obtain ⟨next, less⟩ := assigned packet assigns
      rwa [← next] at less
  · intro arrival member
    rcases mem_append.mp member with old | new
    · exact numbered.complete arrival old
    · obtain rfl := mem_singleton.mp new
      constructor
      · intro complete lands packet given
        rw [show env.given injection = some packet from given] at placed
        cases same : (env.marked state (env.stamps state injection) now (some packet)).1 with
        | none =>
          have preserves := env.marked_preserves state (env.stamps state injection) now (some packet)
          rw [same] at preserves
          exact preserves.elim
        | some data =>
          exact (Env.marked_complete_iff numbered.positive late same).mp
            (complete data ((placed _).mpr ⟨lands, same.symm⟩))
      · intro complete packet member
        obtain ⟨lands, same⟩ := (placed _).mp member
        cases given : env.given injection with
        | none =>
          rw [given, Env.marked_none] at same
          cases same
        | some before =>
          rw [given] at same
          exact (Env.marked_complete_iff numbered.positive late same.symm).mpr
            (complete lands before given)
  · intro arrival member data inside
    rcases mem_append.mp member with old | new
    · exact numbered.preserved arrival old data inside
    · obtain rfl := mem_singleton.mp new
      rw [((placed data).mp inside).2]
      exact env.marked_preserves _ _ _ _
  · refine pairwise_append.mpr ⟨numbered.increasing, pairwise_singleton _ _, ?_⟩
    intro arrival old later new first second one two streams
    obtain rfl := mem_singleton.mp new
    rw [(assigned second two).1]
    refine Nat.lt_of_lt_of_eq (numbered.below arrival old first one) ?_
    unfold Env.frameNumber
    split
    · rename_i policy
      rw [streams policy]
    · rfl

theorem Env.Ingress.numbered (run : env.Ingress origin log state)
    (free : origin.engineMutex = false) (positive : 0 < origin.nextFrameId) :
    env.Numbered log state := by
  induction run with
  | start => exact ⟨free, positive, nofun, nofun, nofun, .nil⟩
  | elsewhere _ same ih => exact ih.elsewhere same
  | inject injection _ timely ran ih => exact ih.inject timely ran

/-- In a run of injections every packet keeps and completes its identity exactly where every
packet that some queue takes has an id and a timestamp, or no id and a route that stamps. -/
theorem ingress_identity (env : Env) (origin state : State π) (log : List (Arrival π))
    (free : origin.engineMutex = false) (positive : 0 < origin.nextFrameId)
    (run : env.Ingress origin log state) :
    env.Identity log ↔ ∀ arrival ∈ log, arrival.Complete := by
  have numbered := run.numbered free positive
  constructor
  · intro identity arrival member
    exact (numbered.complete arrival member).mp (identity.complete arrival member)
  · intro complete
    exact ⟨fun arrival member => (numbered.complete arrival member).mpr (complete arrival member),
      numbered.preserved, numbered.increasing⟩

def framePushed (packet : PortData Unit) : Injection Unit := .push "camera" "frame" (some packet)

theorem Env.ingress_framePushed (packet : PortData Unit) : ∃ state,
    soloEngine.Ingress streamingState
      [soloEngine.arrival (framePushed packet) streamingState state] state := by
  have timely : ({ now := 1 } : Choice Unit).Timely := ⟨⟨rfl, rfl⟩, Int.one_ne_zero⟩
  have free : streamingState.engineMutex = false := rfl
  obtain ⟨fuel, _, state, ran, -⟩ :=
    (Env.inject_completes (framePushed packet) free).ends (fun _ => { now := 1 }) fun _ => timely
  exact ⟨state, .inject _ .start (fun _ => timely) ran⟩

abbrev pushAlone (state : State Unit) : Option (Unit × State Unit) :=
  alone soloEngine.body 200 (fun _ => { now := 1 })
    (soloEngine.inject (framePushed { payload := () })) state

/-- Two frames without an id get the numbers 1 and 2. -/
theorem ingress_identity_camera : ∃ log state, soloEngine.Ingress streamingState log state ∧
    log.length = 2 ∧ (state.queue 0 0).pushed.map frameIdOf = [1, 2] ∧ soloEngine.Identity log := by
  have timely (_ : Nat) : ({ now := 1 } : Choice Unit).Timely := ⟨⟨rfl, rfl⟩, Int.one_ne_zero⟩
  have injected : ((pushAlone streamingState).any fun first =>
      soloEngine.stamps first.2 (framePushed { payload := () }) &&
        (pushAlone first.2).any fun second =>
          (second.2.queue 0 0).pushed.map frameIdOf == [1, 2]) = true := by decide +kernel
  obtain ⟨⟨⟨⟩, middle⟩, first, rest⟩ := (Option.any_eq_true _ _).mp injected
  obtain ⟨stamps, rest⟩ := (Bool.and_eq_true _ _).mp rest
  obtain ⟨⟨⟨⟩, state⟩, second, numbered⟩ := (Option.any_eq_true _ _).mp rest
  have run := Env.Ingress.inject _ (.inject _ .start timely first) timely second
  refine ⟨_, state, run, rfl, beq_iff_eq.mp numbered,
    (ingress_identity soloEngine streamingState state _ rfl (by decide) run).mpr ?_⟩
  intro arrival member _ packet given
  have same : arrival.given = some { payload := () } ∧ arrival.stamps = true := by
    rcases mem_cons.mp member with rfl | later
    · exact ⟨rfl, rfl⟩
    · obtain rfl := mem_singleton.mp later
      exact ⟨rfl, stamps⟩
  obtain rfl := Option.some.inj (same.1.symm.trans given)
  rw [if_pos same.2]
  exact .inl rfl

/-- A frame with an id of its own and no timestamp is queued without one. -/
theorem explicit_id_enters_without_timestamp : ∃ log state,
    soloEngine.Ingress streamingState log state ∧ ¬ soloEngine.Identity log := by
  obtain ⟨state, run⟩ := Env.ingress_framePushed { id := 7, payload := () }
  refine ⟨_, state, run, fun identity => ?_⟩
  have complete := ((run.numbered rfl (by decide)).complete _ (.head _)).mp
    (identity.complete _ (.head _))
  rcases complete rfl _ rfl with unknown | late
  · cases unknown
  · exact late rfl

variable {inputs : PortDataMap π}

theorem Env.inject_initial {node fuel : Nat}
    {value : Option Bool} (free : state.engineMutex = false)
    (timely : ∀ index, (choices index).Timely)
    (ran : alone env.body fuel choices (env.distributeTo inputs node) state = some (value, after)) :
    ∃ enough, alone env.body enough choices (env.inject (.initial inputs node)) state =
      some ((), after) := by
  obtain ⟨enough, _, last, whole, -⟩ :=
    (Env.inject_completes (.initial inputs node) free).ends choices timely
  obtain ⟨value', middle, rest, used, first, second⟩ := alone_bind whole
  obtain ⟨rfl, rfl⟩ := Prod.mk.inj (alone_agree ran first)
  have same : after = last := by
    cases rest <;> exact congrArg Prod.snd (Option.some.inj second)
  exact ⟨enough, same ▸ whole⟩

/-- The initial inputs of `execute` are injections, one source after another. -/
theorem Env.Ingress.distributeLoop {nodes : List Nat} {scheduled value : Bool}
    (free : origin.engineMutex = false) (positive : 0 < origin.nextFrameId)
    (run : env.Ingress origin log state) (timely : ∀ index, (choices index).Timely)
    (ran : alone env.body fuel choices (env.distributeLoop inputs nodes scheduled) state =
      some (value, after)) : ∃ later, env.Ingress origin (log ++ later) after := by
  induction nodes generalizing scheduled fuel choices log state with
  | nil =>
    have same : state = after := by
      cases fuel <;> exact congrArg Prod.snd (Option.some.inj ran)
    exact ⟨[], by rwa [append_nil, ← same]⟩
  | cons node rest ih =>
    obtain ⟨answer, middle, fuel', used, first, second⟩ := alone_bind ran
    obtain ⟨enough, whole⟩ := Env.inject_initial (run.numbered free positive).free timely first
    have next := run.inject _ timely whole
    cases answer with
    | none =>
      have same : middle = after := by
        cases fuel' <;> exact congrArg Prod.snd (Option.some.inj second)
      exact ⟨_, same ▸ next⟩
    | some found =>
      obtain ⟨later, run⟩ := ih next (fun index => timely (used + index)) second
      exact ⟨_, by rwa [append_assoc] at run⟩

end Runs

end AiPipe
