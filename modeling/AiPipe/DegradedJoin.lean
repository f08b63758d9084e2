import AiPipe.Engine.Alone
import AiPipe.Loader.Integers
import AiPipe.Protocol.Gathering

/-!
The degraded gather of a join whose wait has timed out.  Its reference is the head with the
earliest timestamp, which under `FrameId` need not be the one with the least id.
-/

namespace AiPipe

open Concurrency Env List TimestampPolicy Option State

variable {π : Type}

theorem PortQueue.head?_items (queue : PortQueue π) : queue.head? = queue.items.head? := by
  rw [head?, items, List.head?_drop]

theorem FirstOldest.unique {counts : PortData π → Bool} {packets : List (PortData π)}
    {best other : PortData π} (first : FirstOldest counts packets best)
    (second : FirstOldest counts packets other) : best = other := by
  obtain ⟨takes, before, after, rfl, earlier, later⟩ := first
  obtain ⟨takes', before', after', same, earlier', later'⟩ := second
  rcases append_eq_append_iff.mp same with ⟨between, rest, tail⟩ | ⟨between, rest, tail⟩
  · cases between with
    | nil => exact (List.cons.inj tail).1
    | cons head between =>
      obtain ⟨rfl, rfl⟩ := List.cons.inj tail
      have less := earlier' best (by simp [rest]) takes
      have more := later other (by simp) takes'
      omega
  · cases between with
    | nil => exact (List.cons.inj tail).1.symm
    | cons head between =>
      obtain ⟨rfl, rfl⟩ := List.cons.inj tail
      have less := earlier other (by simp [rest]) takes'
      have more := later' best (by simp) takes
      omega

namespace Env

variable (env : Env)

def doomed (state : State π) (node : Nat) (head : PortDataPtr π) : Bool :=
  env.syncTracked node && frameIdOf head != kInvalidFrameId &&
    env.sync.shouldDrop state.syncEvents (env.graph.name node) (frameIdOf head)

def settled (state : State π) (node port : Nat) : List (PortDataPtr π) :=
  (state.queue node port).items.dropWhile (env.doomed state node)

def offered (state : State π) (node port : Nat) : Option (PortDataPtr π) :=
  (env.settled state node port).head?

def offeredHeads (state : State π) (node : Nat) : List (Option (PortDataPtr π)) :=
  (env.ports node).map (env.offered state node)

def before (first second : PortData π) : Prop :=
  match env.config.alignmentPolicy with
  | .frameId => first.id < second.id
  | _ => first.timestamp < second.timestamp

def Precedes (head : PortData π) (members : List (PortData π)) : Prop :=
  (∃ member ∈ members, env.counts member = true) ∧
    ∀ member ∈ members, env.counts member = true → env.before head member

structure OldestSet (state : State π) (node : Nat) (ports : List Nat) : Prop where
  nonempty : ports ≠ []
  offered : ∀ port ∈ ports, port < env.portCount node ∧ (env.offered state node port).isSome = true
  aligned : env.framePolicy.aligned (ports.map fun port => (env.offered state node port).join) = true
  oldest : ∀ port < env.portCount node, port ∉ ports → ∀ head,
    env.offered state node port = some (some head) →
      ¬ env.Precedes head (ports.filterMap fun port => (env.offered state node port).join)

/-- The heads of the ports were delivered after the inputs that the gather already held, or
dropped; all other packets are where they were. -/
structure Takes (state : State π) (node : Nat) (inputs : List (Taken π)) (ports : List Nat)
    (result : Option (List (Taken π))) (after : State π) : Prop where
  taken : ∀ port ∈ ports, (after.queue node port).items = (env.settled state node port).tail
  left : ∀ port < env.portCount node, port ∉ ports →
    (after.queue node port).items = env.settled state node port
  delivered : env.config.joinTimeoutPolicy = .partialInputs → ∃ packets,
    result = some (inputs ++ packets) ∧
      packets.map (fun packet => (packet.port, some packet.data)) =
        ports.map fun port => (port, env.offered state node port)
  dropped : env.config.joinTimeoutPolicy ≠ .partialInputs → result = none ∧ ∃ earlier reports,
    after.history.dropCallbacks = earlier ++ reports ∧
      reports.map (fun report => (report.node, report.frame, report.reason)) =
        ports.map fun port => (env.graph.name node,
          frameIdOf (env.offered state node port).join, "join wait timeout - frame skipped")

def TakesOldest (state : State π) (node : Nat) (inputs : List (Taken π))
    (result : Option (List (Taken π))) (after : State π) : Prop :=
  ∃ ports, env.OldestSet state node ports ∧ env.Takes state node inputs ports result after

/-- Under `FrameId` the first of the oldest identified heads has the least id; under
`Timestamp` the tolerance is not negative, or some port offers a null packet. -/
def OldestIsLeast (heads : List (Option (PortDataPtr π))) : Prop :=
  match env.config.alignmentPolicy with
  | .frameId => ∀ best, FirstOldest env.counts (heads.filterMap fun head => head.join) best →
      ∀ head ∈ heads.filterMap fun head => head.join, head.hasFrameId = true → best.id ≤ head.id
  | .streamFrameId => True
  | .timestamp => 0 ≤ env.config.alignmentTolerance ∨ some none ∈ heads

/-- The tolerance in nanoseconds and the differences of the heads are words of the clock. -/
structure FitsClock (heads : List (Option (PortDataPtr π))) : Prop where
  tolerance : -2 ^ 63 ≤ env.config.alignmentTolerance * 1000 ∧
    env.config.alignmentTolerance * 1000 < 2 ^ 63
  times : Representable (heads.filterMap id)

/-- Every head pairs with every other one as the clock computes it on its words. -/
def PairsOnWords (heads : List (Option (PortDataPtr π))) : Prop :=
  env.config.alignmentPolicy = .timestamp → ∀ head best : PortData π,
    some (some head) ∈ heads → some (some best) ∈ heads →
      env.framePolicy.pairsWith head best =
        pairsWithWords env.config.alignmentTolerance head best

end Env

section Peeking

variable {env : Env} {state : State π} {node port : Nat}

theorem Env.answers_shouldDrop (head : PortDataPtr π) :
    env.Answers (env.shouldDrop node (frameIdOf head)) state (env.doomed state node head) := by
  unfold shouldDrop doomed
  split
  · rename_i asked
    rw [asked, Bool.true_and]
    exact Finishes.external (.access (fun _ _ => rfl) (.ret ⟨rfl, rfl⟩))
  · rename_i silent
    rw [Bool.not_eq_true] at silent
    rw [silent, Bool.false_and]
    exact .ret

theorem Env.Finishes.recordSyncDrop {α : Type} {post : α → State π → Prop} {place : Option Place}
    {frame : Nat} {reason : String} {next : Unit → Code π α}
    (rest : ∀ after : State π, after.node = state.node → after.syncEvents = state.syncEvents →
      after.history.dropCallbacks =
        state.history.dropCallbacks ++ [⟨env.graph.name node, frame, reason, place⟩] →
      env.Finishes (next ()) after post) :
    env.Finishes (env.recordSyncDrop node place frame reason >>= next) state post :=
  .access (fun _ _ => rfl) (.access (fun _ _ => rfl) (rest _ rfl rfl rfl))

theorem State.queue_pop (state : State π) (node port : Nat) :
    ((state.updateQueue node port PortQueue.pop).queue node port).items =
        (state.queue node port).items.tail ∧
      ∀ other, other ≠ port →
        (state.updateQueue node port PortQueue.pop).queue node other = state.queue node other := by
  have queues (other : Nat) : (state.updateQueue node port PortQueue.pop).queue node other =
      (state.tracked.setQueue node port (state.queue node port).pop).queue node other := by
    rw [← tracked_updateQueue node port PortQueue.pop]
    rfl
  refine ⟨?_, fun other different => ?_⟩
  · rw [queues, Tracked.setQueue_same, PortQueue.items_pop]
  · rw [queues]
    exact Tracked.setQueue_other fun same => different (Prod.mk.inj same).2

theorem Env.peekAlignmentHead_finishes :
    env.Finishes (env.peekAlignmentHead node port) state fun answer after =>
      answer.headPacket = env.offered state node port ∧ after.syncEvents = state.syncEvents ∧
      (after.queue node port).items = env.settled state node port ∧
      ∀ other, other ≠ port → after.queue node other = state.queue node other := by
  unfold offered settled
  induction items : (state.queue node port).items generalizing state with
  | nil =>
    have none : (state.queue node port).head? = none := by
      rw [PortQueue.head?_items, items, List.head?_nil]
    refine .tryPeek ?_
    rw [none]
    exact .ret ⟨rfl, rfl, items, fun _ _ => rfl⟩
  | cons head rest ih =>
    have found : (state.queue node port).head? = some head := by
      rw [PortQueue.head?_items, items, List.head?_cons]
    refine .tryPeek ?_
    rw [found]
    refine (answers_shouldDrop head).bind ?_
    rw [dropWhile_cons]
    cases env.doomed state node head with
    | true =>
      refine Finishes.tryPop found (.recordSyncDrop fun after nodes events _ => ?_)
      obtain ⟨popped, others⟩ := state.queue_pop node port
      have queue (other : Nat) : after.queue node other =
          (state.updateQueue node port PortQueue.pop).queue node other := by
        rw [queue, nodes]
        rfl
      have same : env.doomed after node = env.doomed state node := by
        funext head
        rw [doomed, events]
        rfl
      have left : (after.queue node port).items = rest := by
        rw [queue, popped, items, tail_cons]
      rw [if_pos rfl, ← same]
      refine .invoke ((ih left).mono fun answer last known => ?_)
      obtain ⟨answered, events', settled, others'⟩ := known
      refine ⟨answered, events'.trans events, settled, fun other different => ?_⟩
      rw [others' other different, queue, others other different]
    | false => exact .ret ⟨rfl, rfl, items, fun _ _ => rfl⟩

theorem Env.peekPorts_finishes (ports : List Nat) (distinct : ports.Nodup)
    (heads : List (Option (PortDataPtr π))) :
    env.Finishes (Env.peekPorts node ports heads) state fun result after =>
      result = heads ++ ports.map (env.offered state node) ∧ after.syncEvents = state.syncEvents ∧
      (∀ port ∈ ports, (after.queue node port).items = env.settled state node port) ∧
      ∀ port, port ∉ ports → after.queue node port = state.queue node port := by
  induction ports generalizing state heads with
  | nil => exact .ret ⟨by simp, rfl, nofun, fun _ _ => rfl⟩
  | cons port rest ih =>
    obtain ⟨new, distinct⟩ := nodup_cons.mp distinct
    have first : env.Finishes (Prog.invoke (.peekAlignmentHead node port)) state _ :=
      .invoke peekAlignmentHead_finishes
    refine first.bind fun answer middle known => ?_
    obtain ⟨answered, events, settled, others⟩ := known
    have same : env.doomed middle node = env.doomed state node := by
      funext head
      rw [doomed, events]
      rfl
    have later (other : Nat) (different : other ≠ port) :
        env.settled middle node other = env.settled state node other := by
      rw [Env.settled, others other different, same]
      rfl
    refine (ih distinct _).mono fun result after known => ?_
    obtain ⟨result, events', settled', others'⟩ := known
    have apart (other : Nat) (member : other ∈ rest) : other ≠ port :=
      fun equal => new (equal ▸ member)
    refine ⟨?_, events'.trans events, fun other member => ?_, fun other absent => ?_⟩
    · rw [result, answered, append_assoc, map_cons, singleton_append]
      congr 2
      exact map_congr_left fun other member => congrArg List.head? (later other (apart other member))
    · rcases mem_cons.mp member with rfl | member
      · rw [others' _ new, settled]
      · rw [settled' other member, later other (apart other member)]
    · rw [mem_cons, not_or] at absent
      rw [others' other absent.2, others other absent.1]

end Peeking

section Taking

variable {env : Env} {state : State π} {node : Nat} {heads : List (Option (PortDataPtr π))}
  {reference : Option (PortData π)}

theorem Env.Finishes.popAndDeliver {α : Type} {post : α → State π → Prop} {port held : Nat}
    {data : PortDataPtr π} {next : Option (Taken π) → Code π α}
    (found : (state.queue node port).head? = some data)
    (rest : ∀ after : State π, after.node = (state.updateQueue node port PortQueue.pop).node →
      env.Finishes (next (some ⟨port, (state.queue node port).dequeuePos, data⟩)) after post) :
    env.Finishes (env.popAndDeliver node port held >>= next) state post := by
  have popped : env.Finishes (env.popAndDeliver node port held) state fun packet after =>
      packet = some ⟨port, (state.queue node port).dequeuePos, data⟩ ∧
        after.node = (state.updateQueue node port PortQueue.pop).node := by
    refine .tryPop found ?_
    dsimp only
    unfold recordDequeue
    split
    · exact .store (.ret ⟨rfl, rfl⟩)
    · exact .ret ⟨rfl, rfl⟩
  refine popped.bind fun packet after known => ?_
  obtain ⟨rfl, nodes⟩ := known
  exact rest after nodes

variable {port : Nat}

theorem Env.dropStaleHead_finishes {head data : PortDataPtr π} {reason : String}
    (found : (state.queue node port).head? = some data) :
    env.Finishes (env.dropStaleHead node port head reason) state fun _ after =>
      after.node = (state.updateQueue node port PortQueue.pop).node ∧ ∃ report,
        after.history.dropCallbacks = state.history.dropCallbacks ++ [report] ∧
        (report.node, report.frame, report.reason) =
          (env.graph.name node, frameIdOf head, reason) := by
  refine .tryPop found (.recordSyncDrop fun after nodes _ told => ?_)
  split
  · refine (reportDrop_finishes _ _).mono ?_
    rintro _ _ rfl
    exact ⟨nodes, _, told, rfl⟩
  · exact .ret ⟨nodes, _, told, rfl⟩

def Env.chooses (env : Env) (heads : List (Option (PortDataPtr π))) (reference : Option (PortData π))
    (port : Nat) : Bool :=
  (heads.getD port none).any (env.pairsWithReference reference)

structure Env.Degrades (env : Env) (node : Nat) (heads : List (Option (PortDataPtr π)))
    (chosen : List Nat) (delivered : Bool) (held : List (Taken π)) (state : State π)
    (result : Bool × List (Taken π)) (after : State π) : Prop where
  taken : ∀ port ∈ chosen, (after.queue node port).items = (state.queue node port).items.tail
  left : ∀ port, port ∉ chosen → after.queue node port = state.queue node port
  delivers : env.config.joinTimeoutPolicy = .partialInputs → ∃ packets,
    result = (delivered || !chosen.isEmpty, held ++ packets) ∧
      packets.map (fun packet => (packet.port, some packet.data)) =
        chosen.map fun port => (port, heads.getD port none)
  drops : env.config.joinTimeoutPolicy ≠ .partialInputs → result = (delivered, held) ∧ ∃ reports,
    after.history.dropCallbacks = state.history.dropCallbacks ++ reports ∧
      reports.map (fun report => (report.node, report.frame, report.reason)) =
        chosen.map fun port => (env.graph.name node, frameIdOf (heads.getD port none).join,
          "join wait timeout - frame skipped")

theorem Env.Degrades.cons {chosen : List Nat} {middle after : State π}
    {delivered delivered' : Bool} {held held' : List (Taken π)} {result : Bool × List (Taken π)}
    (rest : env.Degrades node heads chosen delivered' held' middle result after)
    (new : port ∉ chosen)
    (popped : (middle.queue node port).items = (state.queue node port).items.tail)
    (others : ∀ other, other ≠ port → middle.queue node other = state.queue node other)
    (delivers : env.config.joinTimeoutPolicy = .partialInputs → delivered' = true ∧
      ∃ packet, held' = held ++ [packet] ∧
        (packet.port, some packet.data) = (port, heads.getD port none))
    (drops : env.config.joinTimeoutPolicy ≠ .partialInputs → delivered' = delivered ∧ held' = held ∧
      ∃ report, middle.history.dropCallbacks = state.history.dropCallbacks ++ [report] ∧
        (report.node, report.frame, report.reason) = (env.graph.name node,
          frameIdOf (heads.getD port none).join, "join wait timeout - frame skipped")) :
    env.Degrades node heads (port :: chosen) delivered held state result after where
  taken other member := by
    rcases mem_cons.mp member with rfl | member
    · rw [rest.left _ new, popped]
    · rw [rest.taken other member, others other fun same => new (same ▸ member)]
  left other absent := by
    rw [mem_cons, not_or] at absent
    rw [rest.left other absent.2, others other absent.1]
  delivers known := by
    obtain ⟨rfl, packet, rfl, place⟩ := delivers known
    obtain ⟨packets, same, places⟩ := rest.delivers known
    refine ⟨packet :: packets, ?_, ?_⟩
    · rw [same, Bool.true_or, isEmpty_cons, Bool.not_false, Bool.or_true, append_assoc,
        singleton_append]
    · rw [map_cons, map_cons, place, places]
  drops known := by
    obtain ⟨rfl, rfl, report, told, place⟩ := drops known
    obtain ⟨same, reports, told', places⟩ := rest.drops known
    refine ⟨same, report :: reports, ?_, ?_⟩
    · rw [told', told, append_assoc, singleton_append]
    · rw [map_cons, map_cons, place, places]

theorem Env.degradePorts_finishes (ports : List Nat) (distinct : ports.Nodup)
    (peeked : ∀ port ∈ ports, (state.queue node port).head? = heads.getD port none)
    (delivered : Bool) (held : List (Taken π)) :
    env.Finishes (env.degradePorts node heads reference ports delivered held) state
      (env.Degrades node heads (ports.filter (env.chooses heads reference)) delivered held state) := by
  induction ports generalizing state delivered held with
  | nil =>
    refine .ret ⟨nofun, fun _ _ => rfl, fun _ => ⟨[], ?_, rfl⟩, fun _ => ⟨rfl, [], ?_, rfl⟩⟩
    · simp
    · simp
  | cons port rest ih =>
    obtain ⟨new, distinct⟩ := nodup_cons.mp distinct
    have found := peeked port (.head _)
    unfold degradePorts
    cases offered : heads.getD port none with
    | none =>
      have skipped : env.chooses heads reference port = false := by
        rw [chooses, offered]
        rfl
      rw [filter_cons_of_neg (by rw [skipped]; decide)]
      exact ih distinct (fun other member => peeked other (.tail _ member)) delivered held
    | some head =>
      have chosen : env.chooses heads reference port = env.pairsWithReference reference head := by
        rw [chooses, offered]
        rfl
      rw [offered] at found
      cases pairs : env.pairsWithReference reference head with
      | false =>
        dsimp only
        rw [filter_cons_of_neg (by rw [chosen, pairs]; decide), if_pos (by rw [pairs]; rfl)]
        exact ih distinct (fun other member => peeked other (.tail _ member)) delivered held
      | true =>
        rw [filter_cons_of_pos (by rw [chosen, pairs])]
        obtain ⟨popped, others⟩ := state.queue_pop node port
        have fresh : port ∉ rest.filter (env.chooses heads reference) :=
          fun member => new (mem_filter.mp member).1
        have later (middle : State π) (nodes : middle.node =
            (state.updateQueue node port PortQueue.pop).node) (other : Nat)
            (member : other ∈ rest) : (middle.queue node other).head? = heads.getD other none := by
          rw [queue, nodes, ← peeked other (.tail _ member)]
          exact congrArg PortQueue.head? (others other fun same => new (same ▸ member))
        dsimp only
        rw [if_neg (by rw [pairs]; decide)]
        by_cases deliver : env.config.joinTimeoutPolicy = .partialInputs
        · rw [if_pos deliver]
          refine Finishes.popAndDeliver found fun middle nodes => ?_
          refine (ih distinct (later middle nodes) true _).mono fun result after known => ?_
          refine known.cons fresh ?_ ?_ (fun _ => ⟨rfl, _, rfl, by rw [offered]⟩)
            fun other => absurd deliver other
          · rw [queue, nodes]
            exact popped
          · intro other different
            rw [queue, nodes]
            exact others other different
        · rw [if_neg deliver]
          refine (dropStaleHead_finishes found).bind fun _ middle known => ?_
          obtain ⟨nodes, report, told, place⟩ := known
          refine (ih distinct (later middle nodes) delivered held).mono fun result after known => ?_
          refine known.cons fresh ?_ ?_ (fun other => absurd other deliver)
            fun _ => ⟨rfl, rfl, report, told, by rw [place, offered]; rfl⟩
          · rw [queue, nodes]
            exact popped
          · intro other different
            rw [queue, nodes]
            exact others other different

theorem Env.offeredHeads_getD (declared : port < env.portCount node) :
    (env.offeredHeads state node).getD port none = env.offered state node port := by
  rw [getD_eq_getElem?_getD, offeredHeads, ports, getElem?_map, getElem?_range declared]
  rfl

def Env.chosenPorts (env : Env) (state : State π) (node : Nat) : List Nat :=
  (env.ports node).filter (env.chooses (env.offeredHeads state node)
    (env.degradeReference (env.offeredHeads state node)))

theorem Env.mem_chosenPorts : port ∈ env.chosenPorts state node ↔
    port < env.portCount node ∧ ∃ head, env.offered state node port = some head ∧
      env.pairsWithReference (env.degradeReference (env.offeredHeads state node)) head = true := by
  rw [Env.chosenPorts, List.mem_filter, Env.ports, List.mem_range]
  refine and_congr_right fun declared => ?_
  rw [Env.chooses, Env.offeredHeads_getD declared, Option.any_eq_true]

theorem Env.degradeJoinGather_finishes (inputs : List (Taken π))
    (some : 0 < (env.offeredHeads state node).countP Option.isSome)
    (missing : (env.offeredHeads state node).countP Option.isSome < env.portCount node) :
    env.Finishes (env.degradeJoinGather node inputs) state fun result after =>
      (∀ port ∈ env.chosenPorts state node,
        (after.queue node port).items = (env.settled state node port).tail) ∧
      (∀ port < env.portCount node, port ∉ env.chosenPorts state node →
        (after.queue node port).items = env.settled state node port) ∧
      (env.chosenPorts state node ≠ [] →
        env.Takes state node inputs (env.chosenPorts state node) result after) := by
  have distinct : (env.ports node).Nodup := nodup_range
  refine (peekPorts_finishes _ distinct []).bind fun heads peeked known => ?_
  obtain ⟨rfl, -, settled, -⟩ := known
  rw [nil_append]
  change env.Finishes (if (env.offeredHeads state node).countP isSome = 0 ∨
    (env.offeredHeads state node).countP isSome = env.portCount node then _ else _) peeked _
  rw [if_neg (by omega)]
  refine .bind (bypasses_count _) fun _ counted same => ?_
  replace settled (port : Nat) (member : port ∈ env.ports node) :
      (counted.queue node port).items = env.settled state node port := by
    change (counted.tracked.queue node port).items = _
    rw [same]
    exact settled port member
  have heads (port : Nat) (member : port ∈ env.ports node) :
      (counted.queue node port).head? = (env.offeredHeads state node).getD port none := by
    rw [PortQueue.head?_items, settled port member, offeredHeads_getD (mem_range.mp member)]
    rfl
  refine (degradePorts_finishes _ distinct heads false inputs).bind fun result after known => ?_
  obtain ⟨delivered, packets⟩ := result
  change env.Degrades node _ (env.chosenPorts state node) _ _ _ _ _ at known
  have declared {port : Nat} (member : port ∈ env.chosenPorts state node) :
      port < env.portCount node := (mem_chosenPorts.mp member).1
  have taken (port : Nat) (member : port ∈ env.chosenPorts state node) :
      (after.queue node port).items = (env.settled state node port).tail := by
    rw [known.taken port member]
    exact congrArg List.tail (settled port (mem_range.mpr (declared member)))
  have left (port : Nat) (bound : port < env.portCount node)
      (absent : port ∉ env.chosenPorts state node) :
      (after.queue node port).items = env.settled state node port := by
    rw [known.left port absent]
    exact settled port (mem_range.mpr bound)
  refine .ret ⟨taken, left, fun somewhere => ⟨taken, left, fun deliver => ?_, fun skip => ?_⟩⟩
  · obtain ⟨more, same, places⟩ := known.delivers deliver
    obtain ⟨rfl, rfl⟩ := Prod.mk.inj same
    refine ⟨more, ?_, places.trans (map_congr_left fun port member => ?_)⟩
    · rw [Bool.false_or, if_pos (by simpa using somewhere)]
    · rw [offeredHeads_getD (declared member)]
  · obtain ⟨same, reports, told, places⟩ := known.drops skip
    obtain ⟨rfl, rfl⟩ := Prod.mk.inj same
    refine ⟨rfl, _, reports, told, places.trans (map_congr_left fun port member => ?_)⟩
    rw [offeredHeads_getD (declared member)]

end Taking

section Oldest

variable {env : Env} {state : State π} {node : Nat}

def Env.offeredPackets (env : Env) (state : State π) (node : Nat) : List (PortData π) :=
  (env.offeredHeads state node).filterMap fun head => head.join

theorem Env.mem_offeredHeads {head : Option (PortDataPtr π)} :
    head ∈ env.offeredHeads state node ↔
      ∃ port < env.portCount node, env.offered state node port = head := by
  rw [Env.offeredHeads, Env.ports, List.mem_map]
  simp only [List.mem_range]

theorem Env.mem_offeredPackets {packet : PortData π} :
    packet ∈ env.offeredPackets state node ↔
      ∃ port < env.portCount node, env.offered state node port = some (some packet) := by
  rw [offeredPackets, mem_filterMap]
  constructor
  · rintro ⟨head, member, found⟩
    obtain ⟨port, declared, rfl⟩ := mem_offeredHeads.mp member
    exact ⟨port, declared, join_eq_some_iff.mp found⟩
  · rintro ⟨port, declared, found⟩
    exact ⟨_, mem_offeredHeads.mpr ⟨port, declared, found⟩, rfl⟩

theorem Env.mem_members {ports : List Nat} {packet : PortData π} :
    packet ∈ ports.filterMap (fun port => (env.offered state node port).join) ↔
      ∃ port ∈ ports, env.offered state node port = some (some packet) := by
  rw [mem_filterMap]
  simp only [join_eq_some_iff]

theorem Env.chosen_aligned : env.framePolicy.aligned
    ((env.chosenPorts state node).map fun port => (env.offered state node port).join) = true := by
  have each (data : PortDataPtr π) (member : data ∈ (env.chosenPorts state node).map fun port =>
      (env.offered state node port).join) : some data ∈ env.offeredHeads state node ∧
        env.pairsWithReference (env.degradeReference (env.offeredHeads state node)) data = true := by
    obtain ⟨port, chosen, rfl⟩ := mem_map.mp member
    obtain ⟨declared, head, found, pairs⟩ := mem_chosenPorts.mp chosen
    rw [found]
    exact ⟨mem_offeredHeads.mpr ⟨port, declared, found⟩, pairs⟩
  exact paired_aligned (fun data member => (each data member).1)
    fun data member => (each data member).2

theorem Env.reference_eq {best : PortData π}
    (first : FirstOldest env.counts (env.offeredPackets state node) best) :
    env.degradeReference (env.offeredHeads state node) = some best := by
  have spec := env.degradeReference_spec (env.offeredHeads state node)
  cases reference : env.degradeReference (env.offeredHeads state node) with
  | none =>
    rw [reference] at spec
    obtain ⟨counted, before, after, split, -⟩ := first
    have member : best ∈ env.offeredPackets state node := by
      rw [split]
      simp
    rw [spec best member] at counted
    cases counted
  | some other =>
    rw [reference] at spec
    rw [FirstOldest.unique spec first]

theorem Env.reference_chosen {best : PortData π}
    (reference : env.degradeReference (env.offeredHeads state node) = some best)
    (pairs : (env.framePolicy (π := π)).pairsWith best best = true) :
    ∃ port ∈ env.chosenPorts state node, env.offered state node port = some (some best) := by
  have spec := env.degradeReference_spec (env.offeredHeads state node)
  rw [reference] at spec
  obtain ⟨-, before, after, split, -⟩ := spec
  have member : best ∈ env.offeredPackets state node := by
    rw [offeredPackets, split]
    simp
  obtain ⟨port, declared, found⟩ := mem_offeredPackets.mp member
  refine ⟨port, mem_chosenPorts.mpr ⟨declared, _, found, ?_⟩, found⟩
  rw [reference]
  exact pairs

theorem Env.left_unpaired {port : Nat} {head : PortData π} (declared : port < env.portCount node)
    (left : port ∉ env.chosenPorts state node)
    (found : env.offered state node port = some (some head)) :
    ∃ best, env.degradeReference (env.offeredHeads state node) = some best ∧
      (env.framePolicy (π := π)).pairsWith head best = false := by
  rw [mem_chosenPorts] at left
  cases reference : env.degradeReference (env.offeredHeads state node) with
  | none => exact absurd ⟨declared, _, found, by rw [reference]; rfl⟩ left
  | some best =>
    refine ⟨best, rfl, Bool.eq_false_iff.mpr fun pairs => left ?_⟩
    exact ⟨declared, _, found, by rw [reference]; exact pairs⟩

def Env.Leaves (env : Env) (state : State π) (node : Nat) (ports : List Nat) : Prop :=
  ports ≠ [] ∧ ∀ port < env.portCount node, port ∉ ports → ∀ head,
    env.offered state node port = some (some head) →
      ¬ env.Precedes head (ports.filterMap fun port => (env.offered state node port).join)

theorem Env.Leaves.congr {ports others : List Nat} (leaves : env.Leaves state node ports)
    (same : ∀ port, port ∈ ports ↔ port ∈ others) : env.Leaves state node others := by
  obtain ⟨nonempty, oldest⟩ := leaves
  obtain ⟨port, member⟩ := exists_mem_of_ne_nil _ nonempty
  refine ⟨ne_nil_of_mem ((same port).mp member), fun port declared left head found => ?_⟩
  have members (packet : PortData π) :
      packet ∈ others.filterMap (fun port => (env.offered state node port).join) ↔
        packet ∈ ports.filterMap (fun port => (env.offered state node port).join) := by
    rw [mem_members, mem_members]
    simp only [same]
  unfold Precedes
  simp only [members]
  exact oldest port declared (fun member => left ((same port).mp member)) head found

theorem Env.leaves_of_self (available : ∃ port < env.portCount node, (env.offered state node port).isSome)
    (self : ∀ best, env.degradeReference (env.offeredHeads state node) = some best →
      (env.framePolicy (π := π)).pairsWith best best = true)
    (after : ∀ best head, FirstOldest env.counts (env.offeredPackets state node) best →
      head ∈ env.offeredPackets state node →
      (env.framePolicy (π := π)).pairsWith head best = false → ¬ env.before head best) :
    env.Leaves state node (env.chosenPorts state node) := by
  refine ⟨?_, fun port declared left head found precedes => ?_⟩
  · cases reference : env.degradeReference (env.offeredHeads state node) with
    | none =>
      obtain ⟨port, declared, present⟩ := available
      obtain ⟨head, found⟩ := isSome_iff_exists.mp present
      refine ne_nil_of_mem (mem_chosenPorts.mpr ⟨declared, head, found, ?_⟩)
      rw [reference]
      cases head <;> rfl
    | some best =>
      obtain ⟨port, chosen, -⟩ := reference_chosen reference (self best reference)
      exact ne_nil_of_mem chosen
  · obtain ⟨best, reference, unpaired⟩ := left_unpaired declared left found
    obtain ⟨place, chosen, here⟩ := reference_chosen reference (self best reference)
    have spec := env.degradeReference_spec (env.offeredHeads state node)
    rw [reference] at spec
    exact after best head spec (mem_offeredPackets.mpr ⟨port, declared, found⟩) unpaired
      (precedes.2 best (mem_members.mpr ⟨place, chosen, here⟩) spec.1)

theorem Env.leaves_frameId (policy : env.config.alignmentPolicy = .frameId)
    (available : ∃ port < env.portCount node, (env.offered state node port).isSome) :
    env.Leaves state node (env.chosenPorts state node) ↔
      ∀ best, FirstOldest env.counts (env.offeredPackets state node) best →
        ∀ head ∈ env.offeredPackets state node, head.hasFrameId = true → best.id ≤ head.id := by
  have pairing (head best : PortData π) : (env.framePolicy (π := π)).pairsWith head best =
      (!head.hasFrameId || head.id == best.id) := by
    rw [framePolicy, policy]
    rfl
  have order (first second : PortData π) : env.before first second ↔ first.id < second.id := by
    rw [before, policy]
  have counted (head : PortData π) : env.counts head = head.hasFrameId := by
    rw [counts, policy]
    rfl
  constructor
  · rintro ⟨-, oldest⟩ best first head member known
    by_contra less
    have reference := reference_eq first
    obtain ⟨port, declared, found⟩ := mem_offeredPackets.mp member
    have left : port ∉ env.chosenPorts state node := by
      intro chosen
      obtain ⟨-, data, found', pairs⟩ := mem_chosenPorts.mp chosen
      obtain rfl := Option.some.inj (found.symm.trans found')
      rw [reference] at pairs
      change (env.framePolicy (π := π)).pairsWith head best = true at pairs
      rw [pairing, known] at pairs
      have same : head.id = best.id := by simpa using pairs
      omega
    refine oldest port declared left head found ⟨?_, fun other here counts => ?_⟩
    · obtain ⟨place, chosen, here⟩ := reference_chosen reference (by rw [pairing]; simp)
      exact ⟨best, mem_members.mpr ⟨place, chosen, here⟩, first.1⟩
    · obtain ⟨place, chosen, here⟩ := mem_members.mp here
      obtain ⟨-, data, found', pairs⟩ := mem_chosenPorts.mp chosen
      obtain rfl := Option.some.inj (here.symm.trans found')
      rw [reference] at pairs
      change (env.framePolicy (π := π)).pairsWith other best = true at pairs
      rw [counted] at counts
      rw [pairing, counts] at pairs
      have same : other.id = best.id := by simpa using pairs
      rw [order]
      omega
  · intro least
    refine leaves_of_self available (fun best _ => by rw [pairing]; simp) ?_
    intro best head first member unpaired precedes
    rw [pairing, Bool.or_eq_false_iff, Bool.not_eq_false'] at unpaired
    rw [order] at precedes
    have lower := least best first head member unpaired.1
    omega

theorem Env.leaves_streamFrameId (policy : env.config.alignmentPolicy = .streamFrameId)
    (available : ∃ port < env.portCount node, (env.offered state node port).isSome) :
    env.Leaves state node (env.chosenPorts state node) := by
  refine leaves_of_self available (fun best _ => ?_) fun best head first member unpaired precedes => ?_
  · rw [framePolicy, policy]
    simp [streamFrameIdPolicy, StreamFrameIdPolicy.pairsWith, StreamFrameIdPolicy.sameKey]
  · rw [framePolicy, policy] at unpaired
    rw [before, policy] at precedes
    change (!head.hasFrameId || _) = false at unpaired
    rw [Bool.or_eq_false_iff, Bool.not_eq_false'] at unpaired
    have counted : env.counts head = true := by rw [counts, unpaired.1, Bool.or_true]
    have older := first.le member counted
    dsimp only at precedes
    omega

theorem Env.leaves_timestamp (policy : env.config.alignmentPolicy = .timestamp)
    (available : ∃ port < env.portCount node, (env.offered state node port).isSome) :
    env.Leaves state node (env.chosenPorts state node) ↔
      0 ≤ env.config.alignmentTolerance ∨ some none ∈ env.offeredHeads state node := by
  have pairing (head best : PortData π) : (env.framePolicy (π := π)).pairsWith head best =
      pairsWith env.config.alignmentTolerance head best := by
    rw [framePolicy, policy]
    rfl
  have close {head best : PortData π}
      (pairs : (env.framePolicy (π := π)).pairsWith head best = true) :
      0 ≤ env.config.alignmentTolerance := by
    rw [pairing, pairsWith, within, decide_eq_true_eq] at pairs
    split at pairs <;> omega
  have counted (head : PortData π) : env.counts head = true := by
    rw [counts, policy]
    rfl
  have order (first second : PortData π) :
      env.before first second ↔ first.timestamp < second.timestamp := by
    rw [before, policy]
  have paired {packet : PortData π} (member : packet ∈ (env.chosenPorts state node).filterMap
      fun port => (env.offered state node port).join) : 0 ≤ env.config.alignmentTolerance := by
    obtain ⟨port, chosen, here⟩ := mem_members.mp member
    obtain ⟨declared, data, found, pairs⟩ := mem_chosenPorts.mp chosen
    obtain rfl := Option.some.inj (here.symm.trans found)
    have spec := env.degradeReference_spec (env.offeredHeads state node)
    cases reference : env.degradeReference (env.offeredHeads state node) with
    | none =>
      rw [reference] at spec
      have unknown := spec packet (mem_offeredPackets.mpr ⟨port, declared, here⟩)
      rw [counted] at unknown
      cases unknown
    | some best =>
      rw [reference] at pairs
      exact close pairs
  constructor
  · rintro ⟨nonempty, -⟩
    obtain ⟨port, chosen⟩ := exists_mem_of_ne_nil _ nonempty
    obtain ⟨declared, data, found, -⟩ := mem_chosenPorts.mp chosen
    cases data with
    | none => exact .inr (mem_offeredHeads.mpr ⟨port, declared, found⟩)
    | some packet => exact .inl (paired (mem_members.mpr ⟨port, chosen, found⟩))
  · by_cases tolerant : 0 ≤ env.config.alignmentTolerance
    · intro _
      refine leaves_of_self available (fun best _ => ?_) fun best head first member _ earlier => ?_
      · rw [pairing, pairsWith, within, decide_eq_true_eq]
        split <;> omega
      · rw [order] at earlier
        have older := first.le member (counted head)
        omega
    · rintro (wide | null)
      · exact absurd wide tolerant
      · obtain ⟨port, declared, found⟩ := mem_offeredHeads.mp null
        refine ⟨ne_nil_of_mem (mem_chosenPorts.mpr ⟨declared, none, found, rfl⟩), ?_⟩
        -- with a negative tolerance only null packets are taken, and they have no place in time
        rintro port declared left head found ⟨⟨member, here, -⟩, -⟩
        exact tolerant (paired here)

theorem Env.leaves_iff
    (available : ∃ port < env.portCount node, (env.offered state node port).isSome) :
    env.Leaves state node (env.chosenPorts state node) ↔
      env.OldestIsLeast (env.offeredHeads state node) := by
  unfold OldestIsLeast
  cases policy : env.config.alignmentPolicy with
  | frameId => exact leaves_frameId policy available
  | streamFrameId => exact iff_true_intro (leaves_streamFrameId policy available)
  | timestamp => exact leaves_timestamp policy available

theorem Env.FitsClock.pairsOnWords {heads : List (Option (PortDataPtr π))}
    (fits : env.config.alignmentPolicy = .timestamp → env.FitsClock heads) :
    env.PairsOnWords heads := by
  intro policy head best one two
  obtain ⟨tolerance, times⟩ := fits policy
  rw [framePolicy, policy]
  exact ((exact_of_fits tolerance times).pairsWith head best
    (mem_filterMap.mpr ⟨_, one, rfl⟩) (mem_filterMap.mpr ⟨_, two, rfl⟩)).symm

theorem Env.takesOldest_iff {inputs : List (Taken π)} {result : Option (List (Taken π))}
    {after : State π}
    (taken : ∀ port ∈ env.chosenPorts state node,
      (after.queue node port).items = (env.settled state node port).tail)
    (left : ∀ port < env.portCount node, port ∉ env.chosenPorts state node →
      (after.queue node port).items = env.settled state node port)
    (takes : env.chosenPorts state node ≠ [] →
      env.Takes state node inputs (env.chosenPorts state node) result after) :
    env.TakesOldest state node inputs result after ↔
      env.Leaves state node (env.chosenPorts state node) := by
  constructor
  · rintro ⟨ports, set, other⟩
    have shorter {port : Nat} (present : (env.offered state node port).isSome = true) :
        (env.settled state node port).tail ≠ env.settled state node port := by
      unfold offered at present
      cases settled : env.settled state node port with
      | nil => rw [settled] at present; cases present
      | cons head rest => exact fun same => cons_ne_self head rest same.symm
    refine Leaves.congr ⟨set.nonempty, set.oldest⟩ fun port => ⟨fun member => ?_, fun member => ?_⟩
    · by_contra absent
      obtain ⟨declared, present⟩ := set.offered port member
      exact shorter present ((other.taken port member).symm.trans (left port declared absent))
    · by_contra absent
      obtain ⟨declared, head, found, -⟩ := mem_chosenPorts.mp member
      refine shorter (by rw [found]; rfl) ((taken port member).symm.trans ?_)
      exact other.left port declared absent
  · intro leaves
    refine ⟨env.chosenPorts state node, ⟨leaves.1, fun port member => ?_, chosen_aligned, leaves.2⟩,
      takes leaves.1⟩
    obtain ⟨declared, head, found, -⟩ := mem_chosenPorts.mp member
    exact ⟨declared, by rw [found]; rfl⟩

/-- A degraded gather of a join in which some ports offer a head and some do not.  Under
`Timestamp` the numbers fit the clock, so that exact pairing is the pairing on words. -/
theorem degraded_join_takes_oldest (env : Env) (state : State π) (node : Nat)
    (inputs : List (Taken π))
    (present : 0 < (env.offeredHeads state node).countP Option.isSome)
    (missing : (env.offeredHeads state node).countP Option.isSome < env.portCount node)
    (fits : env.config.alignmentPolicy = .timestamp →
      env.FitsClock (env.offeredHeads state node)) :
    env.PairsOnWords (env.offeredHeads state node) ∧
      (Ends env.body Choice.Calm (env.degradeJoinGather node inputs) state
        (env.TakesOldest state node inputs) ↔
          env.OldestIsLeast (env.offeredHeads state node)) := by
  have available : ∃ port < env.portCount node, (env.offered state node port).isSome := by
    obtain ⟨head, member, here⟩ := countP_pos_iff.mp present
    obtain ⟨port, declared, rfl⟩ := mem_offeredHeads.mp member
    exact ⟨port, declared, here⟩
  have calm : Choice.Calm ({} : Choice π) := ⟨rfl, rfl⟩
  refine ⟨FitsClock.pairsOnWords fits,
    (degradeJoinGather_finishes inputs present missing).ends.iff_of calm
      fun result after known => ?_⟩
  obtain ⟨taken, left, takes⟩ := known
  exact (takesOldest_iff taken left takes).trans (leaves_iff available)

end Oldest

def tripleGraph : Graph where
  nodes := [⟨"join", ["left", "middle", "right"], []⟩]
  edges := []
  namesNodup := by decide
  portsNodup := by decide
  edgesNodup := soloGraph.edgesNodup
  edgesDeclared := by simp

def tripleEngine : Env := .ofGraph tripleGraph (by decide) (streamSchedulerStrategy {})

def waitingState (left middle : PortData Unit) : State Unit :=
  (streamingState.updateQueue 0 0 fun queue => queue.push (some left)).updateQueue 0 1
    fun queue => queue.push (some middle)

theorem degraded_join_takes_oldest_triple :
    Ends tripleEngine.body Choice.Calm (tripleEngine.degradeJoinGather 0 [])
      (waitingState { id := 3, timestamp := 100, payload := () }
        { id := 5, timestamp := 200, payload := () })
      (tripleEngine.TakesOldest (waitingState { id := 3, timestamp := 100, payload := () }
        { id := 5, timestamp := 200, payload := () }) 0 []) := by
  refine (degraded_join_takes_oldest tripleEngine _ 0 [] (by decide) (by decide)
    fun policy => absurd policy (by decide)).2.mpr ?_
  intro best first
  have oldest : FirstOldest tripleEngine.counts (tripleEngine.offeredPackets (waitingState
      { id := 3, timestamp := 100, payload := () } { id := 5, timestamp := 200, payload := () }) 0)
      { id := 3, timestamp := 100, payload := () } :=
    ⟨rfl, [], [{ id := 5, timestamp := 200, payload := () }], rfl, by decide, by decide⟩
  rw [first.unique oldest]
  decide

/-- A head with an explicit id and without a timestamp is the oldest one by time: frame 5 is
delivered, and frame 3 is left behind. -/
theorem unstamped_head_overtakes :
    ¬ Ends tripleEngine.body Choice.Calm (tripleEngine.degradeJoinGather 0 [])
      (waitingState { id := 5, payload := () } { id := 3, timestamp := 100, payload := () })
      (tripleEngine.TakesOldest (waitingState { id := 5, payload := () }
        { id := 3, timestamp := 100, payload := () }) 0 []) := by
  intro ends
  obtain ⟨fuel, result, after, ran, ports, set, takes⟩ := ends (fun _ => {}) fun _ => ⟨rfl, rfl⟩
  have played : (alone tripleEngine.body 40 (fun _ => {}) (tripleEngine.degradeJoinGather 0 [])
      (waitingState { id := 5, payload := () } { id := 3, timestamp := 100, payload := () })).map
      (fun run => run.1.map fun packets => packets.map Taken.port) = some (some [0]) := by
    decide
  obtain ⟨⟨result', after'⟩, ran', same⟩ := map_eq_some_iff.mp played
  obtain ⟨rfl, rfl⟩ := Prod.mk.inj (alone_agree ran ran')
  obtain ⟨packets, rfl, places⟩ := takes.delivered rfl
  have taken : ports = [0] := by
    have firsts := congrArg (List.map Prod.fst) places
    rw [List.map_map, List.map_map] at firsts
    exact (firsts.trans (map_id _)).symm.trans (Option.some.inj same)
  subst taken
  refine set.oldest 1 (by decide) (by decide) { id := 3, timestamp := 100, payload := () } rfl ?_
  refine ⟨⟨{ id := 5, payload := () }, by decide, rfl⟩, fun member here _ => ?_⟩
  obtain rfl := mem_singleton.mp here
  change 3 < 5
  decide

end AiPipe
