import AiPipe.Engine.Alone
import AiPipe.GraphOrder

/-!
What the calls that bring packets into the engine do by themselves.  Only some of the routes of
`pushInput` and `execute` stamp the packet.
-/

namespace AiPipe

open Concurrency List PortQueue Completes

variable {π : Type}

def OutEdge.target (edge : OutEdge) : Nat × String := (edge.destNode, edge.destPort)

namespace Env

variable (env : Env)

def pushTargets (name port : String) : List (Nat × String) :=
  match env.graph.indexOf name with
  | none => []
  | some node =>
    let actual := env.actualPort node port
    if actual = "" then []
    else match env.portIndex node actual with
      | some _ => [(node, actual)]
      | none =>
        if actual ∈ env.graph.outputPorts node then
          ((env.graph.outEdges node).filter fun edge => edge.sourcePort == actual).map
            OutEdge.target
        else []

def pushStamps (name port : String) : Bool :=
  match env.graph.indexOf name with
  | none => false
  | some node => env.actualPort node port != "" &&
      (env.portIndex node (env.actualPort node port)).isSome

def initialTargets (inputs : PortDataMap π) (node : Nat) : List (Nat × String) :=
  match inputs.find (env.graph.name node) with
  | none => []
  | some _ => ((env.graph.inputPorts node).head?.map fun port => (node, port)).toList

def pushReaches (state : State π) (name port : String) : Bool :=
  (state.streamingMode || state.engineState == .running) &&
    match env.graph.indexOf name with
    | none => true
    | some node => match env.portIndex node (env.actualPort node port) with
        | some index => !state.latched node index
        | none => true

def accepts (state : State π) (target : Nat × String) : Bool :=
  match env.portIndex target.1 target.2 with
  | none => false
  | some index => !((env.queueConfig target.1).dropPolicy == .dropTail &&
      decide ((env.queueConfig target.1).capacity ≤ (state.queue target.1 index).size))

def marked (state : State π) (stamps : Bool) (now : Int) (given : PortDataPtr π) :
    PortDataPtr π × State π :=
  if stamps then env.stamped state now given else (given, state)

end Env

def outcomeOf : Except Error PushStatus → Option PushOutcome
  | .ok status => some status.outcome
  | .error _ => none

structure State.SameNumbers (state after : State π) : Prop extends state.SameCounters after where
  mutex : after.engineMutex = state.engineMutex

theorem State.SameNumbers.refl (state : State π) : state.SameNumbers state := ⟨⟨rfl, rfl⟩, rfl⟩

theorem State.SameNumbers.trans {state middle after : State π} (first : state.SameNumbers middle)
    (second : middle.SameNumbers after) : state.SameNumbers after :=
  ⟨⟨second.frames.trans first.frames, second.streams.trans first.streams⟩,
    second.mutex.trans first.mutex⟩

theorem State.SameNumbers.of_tracked {state after : State π}
    (same : after.tracked = state.tracked) : state.SameNumbers after :=
  ⟨⟨congrArg Tracked.nextFrameId same, congrArg Tracked.nextStreamFrameId same⟩,
    congrArg Tracked.engineMutex same⟩

theorem PortQueue.offer_isSome (config : QueueConfig) (queue : PortQueue π) (data : PortDataPtr π) :
    (queue.offer config data).isSome =
      !(config.dropPolicy == .dropTail && decide (config.capacity ≤ queue.size)) := by
  unfold offer
  split
  · rename_i full
    simp [full]
  · rename_i room
    rw [not_and_or] at room
    rcases room with other | room
    · simp [other]
    · simp [room]

section Routing

variable {env : Env} {state middle after : State π} {data : PortDataPtr π}
  {target other : Nat × String} {index : Nat}

theorem Env.portIndex_lt {node : Nat} {name : String} (named : env.portIndex node name = some index) :
    index < env.portCount node :=
  (idxOf?_eq_some_iff.mp named).1

theorem Env.portIndex_inj {index' : Nat} (named : env.portIndex target.1 target.2 = some index)
    (named' : env.portIndex other.1 other.2 = some index')
    (same : (other.1, index') = (target.1, index)) : other = target := by
  obtain ⟨node, rfl⟩ := Prod.mk.inj same
  rw [node] at named'
  obtain ⟨bound, first, -⟩ := idxOf?_eq_some_iff.mp named
  obtain ⟨_, second, -⟩ := idxOf?_eq_some_iff.mp named'
  exact Prod.ext node (second.symm.trans first)

def Env.Served (env : Env) (state : State π) (data : PortDataPtr π) (after : State π)
    (target : Nat × String) : Prop :=
  ∀ index, env.portIndex target.1 target.2 = some index → after.queue target.1 index =
    ((state.queue target.1 index).offer (env.queueConfig target.1) data).getD
      (state.queue target.1 index)

def Env.Spares (env : Env) (targets : List (Nat × String)) (state after : State π) : Prop :=
  ∀ node index, (∀ target ∈ targets, target.1 = node → env.portIndex node target.2 ≠ some index) →
    after.queue node index = state.queue node index

theorem Env.queue_of_spares {targets : List (Nat × String)} (spares : env.Spares targets state after)
    (absent : target ∉ targets) (named : env.portIndex target.1 target.2 = some index) :
    after.queue target.1 index = state.queue target.1 index := by
  refine spares _ _ fun other member node found => absent ?_
  rw [← node] at found
  exact Env.portIndex_inj named found (by rw [node]) ▸ member

theorem Env.Served.congr (served : env.Served middle data after target)
    (same : ∀ index, env.portIndex target.1 target.2 = some index →
      middle.queue target.1 index = state.queue target.1 index) :
    env.Served state data after target := by
  intro index named
  rw [served index named, same index named]

theorem Env.accepts_congr (same : ∀ index, env.portIndex target.1 target.2 = some index →
    middle.queue target.1 index = state.queue target.1 index) :
    env.accepts middle target = env.accepts state target := by
  unfold Env.accepts
  cases named : env.portIndex target.1 target.2 with
  | none => rfl
  | some index =>
    dsimp only
    rw [same index named]

/-- What `pushToQueue` answers and leaves, also where a port has no queue. -/
structure Env.Offers (env : Env) (state : State π) (data : PortDataPtr π) (target : Nat × String)
    (pushed : Bool) (after : State π) : Prop where
  answer : pushed = env.accepts state target
  numbers : state.SameNumbers after
  served : env.Served state data after target
  spares : env.Spares [target] state after

theorem Env.pushToQueue_offers {route : Route} :
    env.Finishes (env.pushToQueue target.1 target.2 data route) state
      (env.Offers state data target) := by
  cases named : env.portIndex target.1 target.2 with
  | none =>
    refine .mono (Env.answers_pushToQueue named) fun pushed after same => ?_
    obtain ⟨rfl, rfl⟩ := same
    refine ⟨by rw [Env.accepts, named], .refl _, fun index found => ?_, fun _ _ _ => rfl⟩
    rw [named] at found
    cases found
  | some index =>
    refine (Env.pushToQueue_finishes named).mono fun pushed after same => ?_
    obtain ⟨rfl, same⟩ := same
    have queues (node port : Nat) : after.queue node port = (state.tracked.setQueue target.1 index
        (((state.queue target.1 index).offer (env.queueConfig target.1) data).getD
          (state.queue target.1 index))).queue node port := by
      rw [← same]
      rfl
    refine ⟨?_, ?_, fun index' found => ?_, fun node port apart => ?_⟩
    · rw [offer_isSome, Env.accepts, named]
    · exact ⟨⟨congrArg Tracked.nextFrameId same, congrArg Tracked.nextStreamFrameId same⟩,
        congrArg Tracked.engineMutex same⟩
    · obtain rfl := Option.some.inj (named.symm.trans found)
      rw [queues, Tracked.setQueue_same]
    · rw [queues]
      refine Tracked.setQueue_other fun equal => ?_
      obtain ⟨rfl, rfl⟩ := Prod.mk.inj equal
      exact apart target (mem_singleton_self _) rfl named

theorem Env.Offers.of_tracked {pushed : Bool} (offers : env.Offers state data target pushed middle)
    (same : after.tracked = middle.tracked) : env.Offers state data target pushed after where
  answer := offers.answer
  numbers := offers.numbers.trans (.of_tracked same)
  served index named :=
    (congrFun₂ (congrArg Tracked.queue same) _ _).trans (offers.served index named)
  spares node index apart :=
    (congrFun₂ (congrArg Tracked.queue same) _ _).trans (offers.spares node index apart)

theorem Env.Offers.bypasses_tryScheduleNode (offers : env.Offers state data target true middle)
    (free : state.engineMutex = false) : env.Bypasses (env.tryScheduleNode target.1) middle := by
  have accepts := offers.answer.symm
  cases named : env.portIndex target.1 target.2 with
  | none => rw [Env.accepts, named] at accepts; cases accepts
  | some index =>
    have taken : ((state.queue target.1 index).offer (env.queueConfig target.1) data).isSome := by
      rw [offer_isSome, ← accepts, Env.accepts, named]
    obtain ⟨queue, offered⟩ := Option.isSome_iff_exists.mp taken
    have held := offers.served index named
    rw [offered, Option.getD_some] at held
    refine Env.bypasses_tryScheduleNode (offers.numbers.mutex.trans free)
      (.inr ⟨index, Env.portIndex_lt named, ?_⟩)
    unfold offer at offered
    split at offered
    · cases offered
    · rw [held, ← Option.some.inj offered, size_push]
      exact Nat.succ_pos _

theorem Env.Offers.afterwards {α : Type} {post : α → State π → Prop} {next : Nat → Code π α}
    {first second : Statistics → Statistics} (offers : env.Offers state data target true middle)
    (free : state.engineMutex = false)
    (rest : ∀ size last, env.Offers state data target true last →
      env.Finishes (next size) last post) :
    env.Finishes (do
      count first
      count second
      env.tryScheduleNode target.1
      let size ← env.getQueueSize target.1 target.2
      next size) middle post := by
  refine .bind (Env.bypasses_count _) fun _ _ same => ?_
  replace offers := offers.of_tracked same
  refine .bind (Env.bypasses_count _) fun _ _ same => ?_
  replace offers := offers.of_tracked same
  refine .bind (offers.bypasses_tryScheduleNode free) fun _ last same => ?_
  obtain ⟨size, answers⟩ := env.answers_getQueueSize last target.1 target.2
  exact answers.bind (rest size last (offers.of_tracked same))

structure Env.Routes (env : Env) (state : State π) (data : PortDataPtr π) (edges : List OutEdge)
    (counts result : Env.RouteCounts) (after : State π) : Prop where
  routed : result.routed = counts.routed + edges.countP fun edge => env.accepts state edge.target
  rejected : result.rejected =
    counts.rejected + edges.countP fun edge => !env.accepts state edge.target
  served : ∀ target ∈ edges.map OutEdge.target, env.Served state data after target
  spares : env.Spares (edges.map OutEdge.target) state after
  numbers : state.SameNumbers after

theorem Env.Routes.cons {edge : OutEdge} {rest : List OutEdge} {pushed : Bool}
    {counts counts' result : Env.RouteCounts}
    (routes : env.Routes middle data rest counts' result after)
    (offers : env.Offers state data edge.target pushed middle)
    (new : edge.target ∉ rest.map OutEdge.target)
    (routed : counts'.routed = counts.routed + if pushed then 1 else 0)
    (rejected : counts'.rejected = counts.rejected + if pushed then 0 else 1) :
    env.Routes state data (edge :: rest) counts result after := by
  have apart (later : Nat × String) (member : later ∈ rest.map OutEdge.target) :
      later ∉ [edge.target] := by
    intro same
    exact new (mem_singleton.mp same ▸ member)
  have queues (later : Nat × String) (member : later ∈ rest.map OutEdge.target) (index : Nat)
      (named : env.portIndex later.1 later.2 = some index) :=
    Env.queue_of_spares offers.spares (apart later member) named
  have same (later : OutEdge) (member : later ∈ rest) :=
    Env.accepts_congr (queues _ (mem_map_of_mem member))
  refine ⟨?_, ?_, ?_, ?_, offers.numbers.trans routes.numbers⟩
  · rw [routes.routed, routed, countP_cons, offers.answer,
      countP_congr fun later member => by rw [same later member]]
    omega
  · rw [routes.rejected, rejected, countP_cons, offers.answer,
      countP_congr fun later member => by rw [same later member]]
    cases env.accepts state edge.target with
    | true => simp
    | false =>
      simp
      omega
  · intro later member
    rcases mem_cons.mp member with rfl | member
    · intro index named
      rw [Env.queue_of_spares routes.spares new named]
      exact offers.served index named
    · exact (routes.served later member).congr (queues later member)
  · intro node index none
    rw [routes.spares node index fun target member => none target (.tail _ member)]
    refine offers.spares node index fun target member => none target ?_
    exact mem_singleton.mp member ▸ .head _

theorem Env.routeEdges_finishes (edges : List OutEdge)
    (distinct : (edges.map OutEdge.target).Nodup) (free : state.engineMutex = false)
    (counts : Env.RouteCounts) :
    env.Finishes (env.routeEdges data edges counts) state
      (env.Routes state data edges counts) := by
  induction edges generalizing state counts with
  | nil => exact .ret ⟨rfl, rfl, nofun, fun _ _ _ => rfl, .refl _⟩
  | cons edge rest ih =>
    obtain ⟨new, distinct⟩ := nodup_cons.mp distinct
    have first : env.Finishes (env.pushToQueue edge.destNode edge.destPort data .routed) state
        (env.Offers state data edge.target) := Env.pushToQueue_offers
    refine first.bind fun pushed middle offers => ?_
    cases pushed with
    | true =>
      refine offers.afterwards free fun size last offers => ?_
      exact (ih distinct (offers.numbers.mutex.trans free) _).mono fun _ _ routes =>
        routes.cons offers new rfl rfl
    | false =>
      exact (ih distinct (offers.numbers.mutex.trans free) _).mono fun _ _ routes =>
        routes.cons offers new rfl rfl

theorem Env.targets_nodup (env : Env) (node : Nat) (port : String) :
    (((env.graph.outEdges node).filter fun edge => edge.sourcePort == port).map
      OutEdge.target).Nodup := by
  rw [compileParts_outEdges env.compiled, filter_map, map_map]
  refine ((env.source.edgesNodup.filter _).filter _).map_on ?_
  intro first one second two same
  simp only [mem_filter, beq_iff_eq, Function.comp_apply] at one two
  obtain ⟨⟨-, node⟩, source⟩ := one
  obtain ⟨⟨-, node'⟩, source'⟩ := two
  obtain ⟨dest, name⟩ := Prod.mk.inj same
  have ports : first.sourcePort = second.sourcePort := source.trans source'.symm
  cases first
  cases second
  cases ports
  cases node.trans node'.symm
  cases dest
  cases name
  rfl

end Routing

section Calls

variable {env : Env} {may : Choice π → Prop} {state after : State π} {data : PortDataPtr π}
  {name port : String} {node : Nat} {answer : Except Error PushStatus}

structure Env.Enters (env : Env) (may : Choice π → Prop) (state : State π) (stamps : Bool)
    (given : PortDataPtr π) (targets : List (Nat × String)) (after : State π) : Prop where
  served : ∃ choice, may choice ∧
    (∀ target ∈ targets, env.Served state (env.marked state stamps choice.now given).1 after target) ∧
    (env.marked state stamps choice.now given).2.SameNumbers after
  spares : env.Spares targets state after

def Env.pushOutcome (env : Env) (state : State π) (name port : String) : Option PushOutcome :=
  if env.pushReaches state name port && (env.pushTargets name port).any (env.accepts state) then
    some (if (env.pushTargets name port).all (env.accepts state) then .enqueued else .dropped)
  else none

structure Env.Pushes (env : Env) (may : Choice π → Prop) (state : State π) (name port : String)
    (data : PortDataPtr π) (answer : Except Error PushStatus) (after : State π) : Prop where
  outcome : outcomeOf answer = env.pushOutcome state name port
  enters : env.Enters may state (env.pushReaches state name port && env.pushStamps name port) data
    (if env.pushReaches state name port then env.pushTargets name port else []) after

theorem Env.Enters.nowhere (possible : ∃ choice, may choice) (data : PortDataPtr π)
    (same : after.tracked = state.tracked) : env.Enters may state false data [] after := by
  obtain ⟨choice, fair⟩ := possible
  exact ⟨⟨choice, fair, nofun, .of_tracked same⟩,
    fun _ _ _ => congrFun₂ (congrArg Tracked.queue same) _ _⟩

theorem Env.Pushes.refused (possible : ∃ choice, may choice)
    (turned : env.pushReaches state name port = false) (error : Error) :
    env.Pushes may state name port data (.error error) state := by
  refine ⟨by simp [outcomeOf, Env.pushOutcome, turned], ?_⟩
  rw [turned]
  exact .nowhere possible data rfl

theorem Env.Pushes.untargeted (possible : ∃ choice, may choice)
    (none : env.pushTargets name port = []) (plain : env.pushStamps name port = false)
    (error : Error) : env.Pushes may state name port data (.error error) state := by
  refine ⟨by simp [outcomeOf, Env.pushOutcome, none], ?_⟩
  rw [none, plain, Bool.and_false, ite_self]
  exact .nowhere possible data rfl

variable (calm : ∀ choice, may choice → choice.Calm) (possible : ∃ choice, may choice)
include calm possible

theorem Env.pushToPort_completes {index : Nat} {actual : String} (free : state.engineMutex = false)
    (targets : env.pushTargets name port = [(node, actual)])
    (stamps : env.pushStamps name port = true)
    (reaches : env.pushReaches state name port = !state.latched node index) :
    Completes env.body may (env.Pushes may state name port data)
      (env.pushToPort node index actual data) state := by
  have look : env.Answers (portEosLatched node index) state (state.latched node index) := .read
  refine look.bindAmong calm ?_
  cases latched : state.latched node index with
  | true => exact .ret (.refused possible (by rw [reaches, latched]; rfl) _)
  | false =>
    rw [latched, Bool.not_false] at reaches
    refine .bind (Env.stampIncomingFrame_completes possible) fun stamped _ same => ?_
    obtain ⟨choice, fair, same⟩ := same
    obtain ⟨rfl, rfl⟩ := Prod.mk.inj same
    obtain ⟨queues, mutex⟩ := env.stamped_queue state choice.now data
    have here (index : Nat) (_ : env.portIndex node actual = some index) :
        (env.stamped state choice.now data).2.queue node index = state.queue node index := by
      rw [queues]
    have finish (pushed : Bool) (last : State π) (answer : Except Error PushStatus)
        (offers : env.Offers (env.stamped state choice.now data).2
          (env.stamped state choice.now data).1 (node, actual) pushed last)
        (outcome : outcomeOf answer = if pushed then some .enqueued else none) :
        env.Pushes may state name port data answer last := by
      refine ⟨?_, ?_⟩
      · have taken := offers.answer
        rw [Env.accepts_congr here] at taken
        rw [outcome, Env.pushOutcome, reaches, targets, taken]
        by_cases takes : env.accepts state (node, actual) = true
        · simp [takes]
        · simp [takes]
      · rw [reaches, stamps, targets, if_pos rfl]
        refine ⟨⟨choice, fair, fun target member => ?_, offers.numbers⟩, fun node index none => ?_⟩
        · obtain rfl := mem_singleton.mp member
          exact offers.served.congr here
        · rw [offers.spares node index none, queues]
    have first : env.Finishes (env.pushToQueue node actual (env.stamped state choice.now data).1
        .input) (env.stamped state choice.now data).2 (env.Offers
          (env.stamped state choice.now data).2 (env.stamped state choice.now data).1
          (node, actual)) := Env.pushToQueue_offers
    refine restrict (first.bind fun pushed middle offers => ?_) calm
    cases pushed with
    | true =>
      exact offers.afterwards (mutex.trans free) fun size last offers =>
        .ret (finish true last _ offers rfl)
    | false => exact .ret (finish false middle _ offers rfl)

theorem Env.routeToDownstream_completes {actual : String} (free : state.engineMutex = false)
    (targets : env.pushTargets name port =
      ((env.graph.outEdges node).filter fun edge => edge.sourcePort == actual).map OutEdge.target)
    (plain : env.pushStamps name port = false) (reaches : env.pushReaches state name port = true) :
    Completes env.body may (env.Pushes may state name port data)
      (env.routeToDownstream node actual data) state := by
  obtain ⟨choice, fair⟩ := possible
  refine restrict ((Env.routeEdges_finishes _ (env.targets_nodup node actual) free {}).bind
    fun counts after routes => ?_) calm
  have pushes {answer : Except Error PushStatus}
      (outcome : outcomeOf answer = env.pushOutcome state name port) :
      env.Pushes may state name port data answer after := by
    refine ⟨outcome, ?_⟩
    rw [reaches, plain, if_pos rfl, targets]
    exact ⟨⟨choice, fair, routes.served, routes.numbers⟩, routes.spares⟩
  have anyone : (env.pushTargets name port).any (env.accepts state) = decide (0 < counts.routed) := by
    rw [targets, any_map, routes.routed, Nat.zero_add, Bool.eq_iff_iff, any_eq_true,
      decide_eq_true_eq, countP_pos_iff]
    rfl
  have everyone : (env.pushTargets name port).all (env.accepts state) =
      decide (counts.rejected = 0) := by
    rw [targets, all_map, routes.rejected, Nat.zero_add, Bool.eq_iff_iff, all_eq_true,
      decide_eq_true_eq, countP_eq_zero]
    simp
  have found : env.pushOutcome state name port = if 0 < counts.routed then
      some (if counts.rejected = 0 then .enqueued else .dropped) else none := by
    rw [Env.pushOutcome, reaches, anyone, everyone]
    simp only [Bool.true_and, decide_eq_true_eq]
  dsimp only
  by_cases nobody : counts.routed = 0
  · rw [if_neg (by omega)] at found
    rw [if_pos nobody]
    split
    · exact .ret (pushes found.symm)
    · exact .ret (pushes found.symm)
  · rw [if_pos (by omega)] at found
    rw [if_neg nobody]
    by_cases somewhere : 0 < counts.rejected
    · rw [if_neg (by omega)] at found
      rw [if_pos somewhere]
      exact .ret (pushes found.symm)
    · rw [if_pos (by omega)] at found
      rw [if_neg somewhere]
      exact .ret (pushes found.symm)

theorem Env.pushInput_completes (free : state.engineMutex = false) :
    Completes env.body may (env.Pushes may state name port data)
      (env.pushInput name port data) state := by
  have look : env.Answers (do
      if ← read State.streamingMode then .ret true
      else .ret ((← read State.engineState) == .running)) state
      (state.streamingMode || state.engineState == .running) := by
    refine Env.Finishes.read ?_
    cases state.streamingMode with
    | true => exact Env.Answers.ret
    | false => exact Env.Finishes.read Env.Answers.ret
  refine look.bindAmong calm ?_
  cases accepting : state.streamingMode || state.engineState == .running with
  | false =>
    refine .ret (.refused possible ?_ _)
    rw [Env.pushReaches, accepting, Bool.false_and]
  | true =>
    cases found : env.graph.indexOf name with
    | none =>
      exact .ret (.untargeted possible (by rw [Env.pushTargets, found])
        (by rw [Env.pushStamps, found]) _)
    | some node =>
      by_cases unnamed : env.actualPort node port = ""
      · dsimp only
        rw [if_neg (by decide), if_pos unnamed]
        refine .ret (.untargeted possible ?_ ?_ _)
        · simp only [Env.pushTargets, found, if_pos unnamed]
        · simp only [Env.pushStamps, found, unnamed, bne_self_eq_false, Bool.false_and]
      · dsimp only
        rw [if_neg (by decide), if_neg unnamed]
        have given : (env.actualPort node port != "") = true := bne_iff_ne.mpr unnamed
        cases named : env.portIndex node (env.actualPort node port) with
        | some index =>
          refine Env.pushToPort_completes calm possible free ?_ ?_ ?_
          · simp only [Env.pushTargets, found, if_neg unnamed, named]
          · simp only [Env.pushStamps, found, given, named, Option.isSome_some, Bool.and_self]
          · simp only [Env.pushReaches, found, accepting, named, Bool.true_and]
        | none =>
          have plain : env.pushStamps name port = false := by
            simp only [Env.pushStamps, found, named, Option.isSome_none, Bool.and_false]
          dsimp only
          by_cases declared : env.actualPort node port ∈ env.graph.outputPorts node
          · rw [if_pos declared]
            refine Env.routeToDownstream_completes calm possible free ?_ plain ?_
            · simp only [Env.pushTargets, found, if_neg unnamed, named, if_pos declared]
            · simp only [Env.pushReaches, found, accepting, named, Bool.true_and]
          · rw [if_neg declared]
            refine .ret (.untargeted possible ?_ plain _)
            simp only [Env.pushTargets, found, if_neg unnamed, named, if_neg declared]

theorem Env.distributeTo_completes (inputs : PortDataMap π) (node : Nat)
    (free : state.engineMutex = false) :
    Completes env.body may (fun _ after => env.Enters may state
      (inputs.find (env.graph.name node)).isSome (inputs.find (env.graph.name node)).join
      (env.initialTargets inputs node) after) (env.distributeTo inputs node) state := by
  unfold Env.distributeTo Env.initialTargets
  cases inputs.find (env.graph.name node) with
  | none =>
    dsimp only
    by_cases portless : env.portCount node = 0
    · rw [if_pos portless]
      exact restrict (.bind (Env.bypasses_tryScheduleNode free (.inl portless))
        fun _ after same => .ret (.nowhere possible _ same)) calm
    · rw [if_neg portless]
      exact .ret (.nowhere possible _ rfl)
  | some data =>
    refine .bind (Env.stampIncomingFrame_completes possible) fun stamped _ same => ?_
    obtain ⟨choice, fair, same⟩ := same
    obtain ⟨rfl, rfl⟩ := Prod.mk.inj same
    obtain ⟨queues, mutex⟩ := env.stamped_queue state choice.now data
    have free' := mutex.trans free
    cases ports : env.graph.inputPorts node with
    | nil =>
      have portless : env.portCount node = 0 := by rw [Env.portCount, ports, length_nil]
      refine restrict (.bind (Env.bypasses_tryScheduleNode free'
        (.inl portless)) fun _ after same => .ret ?_) calm
      refine ⟨⟨choice, fair, nofun, .of_tracked same⟩, fun node index _ => ?_⟩
      rw [← queues]
      exact congrFun₂ (congrArg Tracked.queue same) _ _
    | cons port rest =>
      have first : env.Finishes (env.pushToQueue node port (env.stamped state choice.now data).1
          .initial) (env.stamped state choice.now data).2 (env.Offers
            (env.stamped state choice.now data).2 (env.stamped state choice.now data).1
            (node, port)) := Env.pushToQueue_offers
      have finish {pushed : Bool} {last : State π} (offers : env.Offers
          (env.stamped state choice.now data).2 (env.stamped state choice.now data).1
          (node, port) pushed last) :
          env.Enters may state true data [(node, port)] last := by
        refine ⟨⟨choice, fair, fun target member => ?_, offers.numbers⟩,
          fun node index none => ?_⟩
        · obtain rfl := mem_singleton.mp member
          exact offers.served.congr fun index _ => by rw [queues]
        · rw [offers.spares node index none, queues]
      refine restrict (first.bind fun pushed middle offers => ?_) calm
      cases pushed with
      | true =>
        refine .bind (Env.bypasses_count _) fun _ _ same => ?_
        replace offers := offers.of_tracked same
        refine .bind (offers.bypasses_tryScheduleNode free') fun _ _ same => .ret ?_
        exact finish (offers.of_tracked same)
      | false => exact .ret (finish offers)

end Calls

end AiPipe
