import AiPipe.AlignmentMerge

/-!
What repeated calls of `gatherAligned` deliver and discard: the sets of the identifiers that all
ports have, or as many sets within the tolerance as can be chosen disjoint.
-/

namespace AiPipe

open FrameAlignment List

variable {π α κ : Type}

def setsOf : List Removal → List (List (Nat × Nat)) :=
  List.filterMap fun
    | .set inputs => some inputs
    | .discard _ _ => none

def removedAt (port : Nat) : Removal → List Nat
  | .set inputs => inputs.filterMap fun entry => if entry.1 = port then some entry.2 else none
  | .discard other position => if other = port then [position] else []

def IsSet (portCount : Nat) (packets : Nat → List (PortData π)) (key : PortData π → κ) (value : κ)
    (inputs : List (Nat × Nat)) : Prop :=
  inputs.map Prod.fst = List.range portCount ∧
    ∀ entry ∈ inputs, ∃ packet, (packets entry.1)[entry.2]? = some packet ∧ key packet = value

/-- The sets are those of the keys that every port has, in order; a discarded packet has a key
that some port does not have; and every packet before the final cursor was removed once. -/
structure Intersects (portCount : Nat) (packets : Nat → List (PortData π)) (key : PortData π → κ)
    (earlier : κ → κ → Prop) (removals : List Removal) (cursor : Nat → Nat) : Prop where
  sets : ∃ keys : List κ, List.Forall₂ (IsSet portCount packets key) keys (setsOf removals) ∧
    keys.Pairwise earlier ∧
    ∀ value, value ∈ keys ↔ 0 < portCount ∧
      ∀ port < portCount, ∃ packet ∈ packets port, key packet = value
  missing : ∀ port position, .discard port position ∈ removals →
    ∃ packet, (packets port)[position]? = some packet ∧
      ∃ other < portCount, ∀ candidate ∈ packets other, key candidate ≠ key packet
  removed : ∀ port < portCount, cursor port ≤ (packets port).length ∧
    removals.flatMap (removedAt port) = List.range (cursor port)

section Events

variable {portCount : Nat} (events : List (Merge.Event (Fin portCount)))

theorem setsOf_events : setsOf (events.map removalOf) = (Merge.taken events).map setOf := by
  induction events with
  | nil => rfl
  | cons event rest ih =>
    cases event with
    | take choice => exact congrArg (setOf choice :: ·) ih
    | discard => exact ih

variable (choice : Fin portCount → Nat) (port : Fin portCount)

theorem removedAt_setOf : removedAt port (.set (setOf choice)) = [choice port] := by
  have once (lanes : List (Fin portCount)) (distinct : lanes.Nodup) :
      (lanes.filterMap fun lane => if lane.val = port.val then some (choice lane) else none) =
        if port ∈ lanes then [choice port] else [] := by
    induction lanes with
    | nil => rfl
    | cons lane rest ih =>
      obtain ⟨new, distinct⟩ := nodup_cons.mp distinct
      by_cases same : lane = port
      · subst same
        simp [ih distinct, new]
      · have apart : lane.val ≠ port.val := fun equal => same (Fin.ext equal)
        simp [ih distinct, apart, Ne.symm same]
  rw [removedAt, setOf, filterMap_map]
  refine (once _ (nodup_finRange portCount)).trans ?_
  rw [if_pos (mem_finRange port)]

theorem removedAt_events :
    (events.map removalOf).flatMap (removedAt port) =
      events.flatMap (Merge.Event.removes port) := by
  rw [flatMap_map]
  congr 1
  funext event
  cases event with
  | take choice => exact removedAt_setOf choice port
  | discard other position =>
    simp only [removalOf, removedAt, Merge.Event.removes, Fin.ext_iff]

theorem setOf_fst : (setOf choice).map Prod.fst = List.range portCount := by
  rw [setOf, map_map, range_eq_finRange]
  rfl

theorem mem_setOf {choice : Fin portCount → Nat} {entry : Nat × Nat} :
    entry ∈ setOf choice ↔ ∃ port : Fin portCount, entry = (port.val, choice port) := by
  simp [setOf, eq_comm]

end Events

section Common

variable [LinearOrder α] [Inhabited α] [Inhabited κ] {portCount : Nat}
  {packets : Nat → List (PortData π)} {rank : PortData π → α} {key : PortData π → κ}

def Linked (portCount : Nat) (packets : Nat → List (PortData π)) (key : PortData π → κ)
    (rank : PortData π → α) : Prop :=
  ∀ port < portCount, ∀ other < portCount, ∀ first ∈ packets port, ∀ second ∈ packets other,
    key first = key second ↔ rank first = rank second

omit [Inhabited κ] in
theorem lanesOf_strict (increasing : ∀ port < portCount,
    (packets port).Pairwise fun first second => rank first < rank second) :
    (lanesOf portCount packets rank).Strict := by
  intro port first second less inside
  have inside : second < (packets port).length := inside
  have before := pairwise_iff_getElem.mp (increasing port port.isLt) first second
    (less.trans inside) inside less
  rwa [lanesOf_rank (getElem?_eq_getElem (less.trans inside)),
    lanesOf_rank (getElem?_eq_getElem inside)]

theorem selected {choice : Fin portCount → Nat} {reach : α → α}
    (within : (lanesOf portCount packets rank).Within reach choice) (port : Fin portCount) :
    ∃ packet ∈ packets port, (packets port)[choice port]? = some packet ∧
      (lanesOf portCount packets rank).rank port (choice port) = rank packet := by
  have found := getElem?_eq_getElem (within.1 port)
  exact ⟨_, mem_of_getElem? found, found, lanesOf_rank found⟩

variable (linked : Linked portCount packets key rank)
  (increasing : ∀ port < portCount,
    (packets port).Pairwise fun first second => rank first < rank second)
include linked increasing

variable {events : List (Merge.Event (Fin portCount))}

theorem sweep_keys {final : Fin portCount → Nat}
    (sweep : Merge.Sweep (lanesOf portCount packets rank) id (fun _ => 0) events final) :
    ∃ keys : List κ,
      List.Forall₂ (IsSet portCount packets key) keys (setsOf (events.map removalOf)) ∧
      keys.Pairwise (fun value later => ∀ port < portCount, ∀ first ∈ packets port,
        ∀ second ∈ packets port, key first = value → key second = later → rank first < rank second) ∧
      ∀ value, value ∈ keys ↔ 0 < portCount ∧
        ∀ port < portCount, ∃ packet ∈ packets port, key packet = value := by
  have strict := lanesOf_strict increasing
  rw [setsOf_events]
  obtain rfl | ports := Nat.eq_zero_or_pos portCount
  · have none : Merge.taken events = [] := by
      refine eq_nil_iff_forall_not_mem.mpr fun choice here => ?_
      obtain ⟨port⟩ := sweep.nonempty choice (Merge.mem_taken.mp here)
      exact port.elim0
    rw [none]
    exact ⟨[], .nil, .nil, by simp⟩
  let first : Fin portCount := ⟨0, ports⟩
  let keyOf (choice : Fin portCount → Nat) : κ := ((packets 0)[choice first]?.map key).getD default
  have within (choice) (here : choice ∈ Merge.taken events) :=
    sweep.within choice (Merge.mem_taken.mp here)
  have keyed (choice) (here : choice ∈ Merge.taken events) (port : Fin portCount) :
      ∃ packet ∈ packets port, (packets port)[choice port]? = some packet ∧
        (lanesOf portCount packets rank).rank port (choice port) = rank packet ∧
        key packet = keyOf choice := by
    obtain ⟨packet, member, found, same⟩ := selected (within choice here) port
    obtain ⟨packet', member', found', same'⟩ := selected (within choice here) first
    refine ⟨packet, member, found, same, ?_⟩
    have value : keyOf choice = key packet' := by
      change ((packets first)[choice first]?.map key).getD default = _
      rw [found']
      rfl
    rw [value, linked port port.isLt first first.isLt packet member packet' member', ← same, ← same']
    exact (within choice here).equal port first
  refine ⟨(Merge.taken events).map keyOf, ?_, ?_, fun value => ?_⟩
  · rw [forall₂_map_left_iff, forall₂_map_right_iff, forall₂_same]
    intro choice here
    refine ⟨setOf_fst choice, fun entry member => ?_⟩
    obtain ⟨port, rfl⟩ := mem_setOf.mp member
    obtain ⟨packet, -, found, -, same⟩ := keyed choice here port
    exact ⟨packet, found, same⟩
  · rw [pairwise_map]
    refine sweep.increasing.1.imp_of_mem fun {choice later} here there less => ?_
    intro port bound one member two member' same same'
    obtain ⟨packet, kept, -, place, equal⟩ := keyed choice here ⟨port, bound⟩
    obtain ⟨packet', kept', -, place', equal'⟩ := keyed later there ⟨port, bound⟩
    rw [(linked port bound port bound one member packet kept).mp (same.trans equal.symm),
      (linked port bound port bound two member' packet' kept').mp (same'.trans equal'.symm),
      ← place, ← place']
    exact strict ⟨port, bound⟩ _ _ (less ⟨port, bound⟩) ((within later there).1 ⟨port, bound⟩)
  · rw [mem_map]
    constructor
    · rintro ⟨choice, here, rfl⟩
      refine ⟨ports, fun port bound => ?_⟩
      obtain ⟨packet, member, -, -, same⟩ := keyed choice here ⟨port, bound⟩
      exact ⟨packet, member, same⟩
    · rintro ⟨-, everywhere⟩
      obtain ⟨sample, member, named⟩ := everywhere 0 ports
      obtain ⟨choice, here, ranks⟩ := sweep.common strict ⟨first⟩ (rank sample) fun port => by
        obtain ⟨packet, there, same⟩ := everywhere port port.isLt
        obtain ⟨position, bound, rfl⟩ := getElem_of_mem there
        refine ⟨position, bound, ?_⟩
        rw [lanesOf_rank (getElem?_eq_getElem bound)]
        exact (linked port port.isLt 0 ports _ there sample member).mp (same.trans named.symm)
      refine ⟨choice, here, ?_⟩
      obtain ⟨packet, kept, -, place, equal⟩ := keyed choice here first
      rw [← equal, ← named, linked 0 ports 0 ports packet kept sample member, ← place]
      exact ranks first

theorem sweep_intersects {cursor : Nat → Nat}
    (sweep : Merge.Sweep (lanesOf portCount packets rank) id (fun _ => 0) events
      (lanesCursor portCount cursor)) :
    Intersects portCount packets key
      (fun value later => ∀ port < portCount, ∀ first ∈ packets port, ∀ second ∈ packets port,
        key first = value → key second = later → rank first < rank second)
      (events.map removalOf) cursor := by
  have strict := lanesOf_strict increasing
  refine ⟨sweep_keys linked increasing sweep, ?_, ?_⟩
  · intro port position dropped
    obtain ⟨event, here, same⟩ := mem_map.mp dropped
    cases event with
    | take => cases same
    | discard lane place =>
      obtain ⟨rfl, rfl⟩ := Removal.discard.inj same
      have inside := sweep.inside here
      have found := getElem?_eq_getElem (l := packets lane) (i := place) inside
      refine ⟨_, found, ?_⟩
      obtain ⟨other, missing⟩ := sweep.missing strict here
      refine ⟨other, other.isLt, fun candidate member equal => ?_⟩
      obtain ⟨index, bound, rfl⟩ := getElem_of_mem member
      refine missing index bound ?_
      rw [lanesOf_rank (getElem?_eq_getElem bound), lanesOf_rank found]
      exact (linked _ other.isLt _ lane.isLt _ member _ (mem_of_getElem? found)).mp equal
  · intro port bound
    obtain ⟨-, removed⟩ := sweep.removed ⟨port, bound⟩
    rw [← removedAt_events, Nat.sub_zero, ← range_eq_range'] at removed
    exact ⟨sweep.bounded (fun _ => Nat.zero_le _) ⟨port, bound⟩, removed⟩

end Common

variable {packets : Nat → List (PortData π)} {portCount : Nat}

theorem mem_packets_of_heads {cursor : Nat → Nat} {current : List (PortData π)}
    (heads : Heads portCount packets cursor current) {packet : PortData π}
    (here : packet ∈ current) : ∃ port < portCount, packet ∈ packets port := by
  obtain ⟨port, found⟩ := heads.mem_iff.mp here
  exact ⟨port, port.isLt, mem_of_getElem? ((heads.each port packet).mp found).2⟩

structure Numbered (portCount : Nat) (packets : Nat → List (PortData π)) : Prop where
  known : ∀ port < portCount, ∀ packet ∈ packets port, packet.id ≠ kInvalidFrameId
  increasing : ∀ port < portCount,
    (packets port).Pairwise fun first second => first.id < second.id

/-- Ports whose packets have times that increase, one for each `(stream, frame)` key. -/
structure Timed (portCount : Nat) (packets : Nat → List (PortData π)) : Prop where
  known : ∀ port < portCount, ∀ packet ∈ packets port, packet.id ≠ kInvalidFrameId
  epoch : ∀ port < portCount, ∀ packet ∈ packets port, 0 ≤ packet.timestamp
  increasing : ∀ port < portCount,
    (packets port).Pairwise fun first second => first.timestamp < second.timestamp
  linked : Linked portCount packets streamKey PortData.timestamp

def GathersAll (portCount : Nat) (policy : FrameAlignment.Policy π)
    (packets : Nat → List (PortData π)) (outcome : List Removal → (Nat → Nat) → Prop) : Prop :=
  ∀ passes calls, remaining (queueOf packets) portCount (fun _ => 0) < passes →
    remaining (queueOf packets) portCount (fun _ => 0) < calls →
    ∃ exit after, (gatherAll portCount policy (queueOf packets) passes calls).run {} =
      some (exit, after) ∧ exit.result = false ∧ outcome after.removals after.cursor

theorem frameId_gathers (numbered : Numbered portCount packets) :
    GathersAll portCount (exactly frameIdPolicy) packets
      (Intersects portCount packets PortData.id (· < ·)) := by
  intro passes calls few few'
  obtain ⟨exit, after, events, ran, stops, removals, sweep⟩ := gatherAll_sweeps
    (fun cursor current heads => frameId_follows fun packet here => by
      obtain ⟨port, bound, member⟩ := mem_packets_of_heads heads here
      exact numbered.known port bound packet member) calls passes {} rfl few few'
  refine ⟨exit, after, ran, stops, ?_⟩
  rw [removals, nil_append]
  obtain ⟨⟨keys, sets, ordered, common⟩, missing, removed⟩ := sweep_intersects
    (fun _ _ _ _ _ _ _ _ => Iff.rfl) numbered.increasing sweep
  refine ⟨⟨keys, sets, ?_, common⟩, missing, removed⟩
  refine ordered.imp_of_mem fun {value later} here there before => ?_
  obtain ⟨ports, everywhere⟩ := (common value).mp here
  obtain ⟨first, member, rfl⟩ := everywhere 0 ports
  obtain ⟨second, member', rfl⟩ := ((common later).mp there).2 0 ports
  exact before 0 ports first member second member' rfl rfl

theorem streamFrameId_gathers (timed : Timed portCount packets) :
    GathersAll portCount (exactly streamFrameIdPolicy) packets
      (Intersects portCount packets streamKey fun value later =>
        ∀ port < portCount, ∀ first ∈ packets port, ∀ second ∈ packets port,
          streamKey first = value → streamKey second = later →
            first.timestamp < second.timestamp) := by
  intro passes calls few few'
  have follows (cursor current) (heads : Heads portCount packets cursor current) :
      Follows (exactly streamFrameIdPolicy) PortData.timestamp id current := by
    refine streamFrameId_follows ?_ ?_ ?_
    · intro packet here
      obtain ⟨port, bound, member⟩ := mem_packets_of_heads heads here
      exact timed.known port bound packet member
    · intro packet here
      obtain ⟨port, bound, member⟩ := mem_packets_of_heads heads here
      exact timed.epoch port bound packet member
    · intro first one second two
      obtain ⟨port, bound, member⟩ := mem_packets_of_heads heads one
      obtain ⟨port', bound', member'⟩ := mem_packets_of_heads heads two
      exact timed.linked port bound port' bound' first member second member'
  obtain ⟨exit, after, events, ran, stops, removals, sweep⟩ :=
    gatherAll_sweeps follows calls passes {} rfl few few'
  refine ⟨exit, after, ran, stops, ?_⟩
  rw [removals, nil_append]
  exact sweep_intersects timed.linked timed.increasing sweep

/-- Identifier alignment computes the ordered intersection of the ports. -/
theorem identifier_alignment_intersects (portCount : Nat) (packets : Nat → List (PortData π)) :
    (Numbered portCount packets → GathersAll portCount (exactly frameIdPolicy) packets
      (Intersects portCount packets PortData.id (· < ·))) ∧
    (Timed portCount packets → GathersAll portCount (exactly streamFrameIdPolicy) packets
      (Intersects portCount packets streamKey fun value later =>
        ∀ port < portCount, ∀ first ∈ packets port, ∀ second ∈ packets port,
          streamKey first = value → streamKey second = later →
            first.timestamp < second.timestamp)) :=
  ⟨frameId_gathers, streamFrameId_gathers⟩

def samplePackets (port : Nat) : List (PortData Unit) :=
  (if port = 0 then [1, 2, 4] else [2, 3, 4]).map fun id =>
    { id := id, timestamp := id * 100000, payload := () }

theorem identifier_alignment_intersects_pair :
    (Numbered 2 samplePackets ∧ GathersAll 2 (exactly frameIdPolicy) samplePackets
      (Intersects 2 samplePackets PortData.id (· < ·))) ∧
    Timed 2 samplePackets ∧ GathersAll 2 (exactly streamFrameIdPolicy) samplePackets
      (Intersects 2 samplePackets streamKey fun value later =>
        ∀ port < 2, ∀ first ∈ samplePackets port, ∀ second ∈ samplePackets port,
          streamKey first = value → streamKey second = later →
            first.timestamp < second.timestamp) := by
  have numbered : Numbered 2 samplePackets := ⟨by decide, by decide⟩
  have timed : Timed 2 samplePackets :=
    ⟨by decide, by decide, by decide, by unfold Linked; decide⟩
  have both := identifier_alignment_intersects 2 samplePackets
  exact ⟨⟨numbered, both.1 numbered⟩, timed, both.2 timed⟩

example : ((gatherAll 2 (exactly frameIdPolicy) (queueOf samplePackets) 7 7).run {}).map
    (fun result => result.2.removals) =
      some [.discard 0 0, .set [(0, 1), (1, 0)], .discard 1 1, .set [(0, 2), (1, 2)]] := by
  decide

/-! Timestamps. -/

def WithinTolerance (portCount : Nat) (packets : Nat → List (PortData π)) (tolerance : Int)
    (choice : Nat → Nat) : Prop :=
  0 < portCount ∧ (∀ port < portCount, choice port < (packets port).length) ∧
    ∀ port < portCount, ∀ other < portCount, ∀ first second,
      (packets port)[choice port]? = some first → (packets other)[choice other]? = some second →
        first.timestamp - second.timestamp ≤ tolerance * 1000

def deliversAt (port position : Nat) : Removal → Prop
  | .set inputs => (port, position) ∈ inputs
  | .discard _ _ => False

structure Matches (portCount : Nat) (packets : Nat → List (PortData π)) (tolerance : Int)
    (removals : List Removal) (cursor : Nat → Nat) : Prop where
  within : ∀ inputs ∈ setsOf removals, ∃ choice, WithinTolerance portCount packets tolerance choice ∧
    inputs = (List.range portCount).map fun port => (port, choice port)
  discarded : ∀ before port position after, removals = before ++ .discard port position :: after →
    ∀ choice, WithinTolerance portCount packets tolerance choice → choice port = position →
      ∃ removal ∈ before, ∃ other < portCount, deliversAt other (choice other) removal
  most : ∀ (count : Nat) (choices : Fin count → Nat → Nat),
    (∀ set, WithinTolerance portCount packets tolerance (choices set)) →
    (∀ port < portCount, Function.Injective fun set => choices set port) →
    count ≤ (setsOf removals).length
  removed : ∀ port < portCount, cursor port ≤ (packets port).length ∧
    removals.flatMap (removedAt port) = List.range (cursor port)

section Tolerance

variable {portCount : Nat} {packets : Nat → List (PortData π)} {tolerance : Int}

variable {choice : Fin portCount → Nat}

theorem within_iff {wide : Nat → Nat}
    (same : ∀ port : Fin portCount, choice port = wide port) (ports : 0 < portCount) :
    (lanesOf portCount packets PortData.timestamp).Within (fun time => time + tolerance * 1000)
      choice ↔ WithinTolerance portCount packets tolerance wide := by
  constructor
  · rintro ⟨inside, close⟩
    refine ⟨ports, fun port bound => same ⟨port, bound⟩ ▸ inside ⟨port, bound⟩, ?_⟩
    intro port bound other bound' first second found found'
    have near := close ⟨port, bound⟩ ⟨other, bound'⟩
    rw [same, same, lanesOf_rank found, lanesOf_rank found'] at near
    dsimp only at near
    omega
  · rintro ⟨-, inside, close⟩
    refine ⟨fun port => same port ▸ inside port port.isLt, fun port other => ?_⟩
    have found := getElem?_eq_getElem (inside port port.isLt)
    have found' := getElem?_eq_getElem (inside other other.isLt)
    have near := close port port.isLt other other.isLt _ _ found found'
    rw [same, same, lanesOf_rank found, lanesOf_rank found']
    dsimp only
    omega

theorem setOf_range {wide : Nat → Nat} (same : ∀ port : Fin portCount, choice port = wide port) :
    setOf choice = (List.range portCount).map fun port => (port, wide port) := by
  rw [setOf, range_eq_finRange, map_map]
  refine map_congr_left fun port _ => ?_
  rw [same]
  rfl

def widen (choice : Fin portCount → Nat) (port : Nat) : Nat :=
  if bound : port < portCount then choice ⟨port, bound⟩ else 0

theorem widen_apply (choice : Fin portCount → Nat) (port : Fin portCount) :
    choice port = widen choice port := by
  rw [widen, dif_pos port.isLt]

section

variable (ordered : ∀ port < portCount, (packets port).Pairwise fun first second =>
  first.timestamp ≤ second.timestamp)
include ordered

theorem lanesOf_ordered : (lanesOf portCount packets PortData.timestamp).Ordered := by
  intro port first second le inside
  have inside : second < (packets port).length := inside
  rcases le.eq_or_lt with rfl | less
  · exact le_refl _
  · have before := pairwise_iff_getElem.mp (ordered port port.isLt) first second
      (less.trans inside) inside less
    rwa [lanesOf_rank (getElem?_eq_getElem (less.trans inside)),
      lanesOf_rank (getElem?_eq_getElem inside)]

theorem sweep_matches {events : List (Merge.Event (Fin portCount))} {cursor : Nat → Nat}
    (sweep : Merge.Sweep (lanesOf portCount packets PortData.timestamp)
      (fun time => time + tolerance * 1000) (fun _ => 0) events (lanesCursor portCount cursor)) :
    Matches portCount packets tolerance (events.map removalOf) cursor := by
  have lanes := lanesOf_ordered ordered
  refine ⟨?_, ?_, ?_, ?_⟩
  · intro inputs here
    rw [setsOf_events] at here
    obtain ⟨choice, taken, rfl⟩ := mem_map.mp here
    have member := Merge.mem_taken.mp taken
    obtain ⟨port⟩ := sweep.nonempty choice member
    exact ⟨widen choice, (within_iff (widen_apply choice) port.pos).mp (sweep.within choice member),
      setOf_range (widen_apply choice)⟩
  · intro before port position after split choice within same
    obtain ⟨first, rest, rfl, earlier, later⟩ := map_eq_append_iff.mp split
    obtain ⟨event, rest, rfl, here, -⟩ := map_eq_cons_iff.mp later
    cases event with
    | take => cases here
    | discard lane place =>
      obtain ⟨rfl, rfl⟩ := Removal.discard.inj here
      subst same
      have selection : (lanesOf portCount packets PortData.timestamp).Within
          (fun time => time + tolerance * 1000) fun port => choice port :=
        (within_iff (fun _ => rfl) within.1).mpr within
      obtain ⟨event, member, other, taken⟩ := sweep.discarded lanes selection
        (fun _ => Nat.zero_le _) first lane rest rfl
      refine ⟨removalOf event, earlier ▸ mem_map_of_mem member, other, other.isLt, ?_⟩
      cases event with
      | discard => exact taken
      | take chosen => exact mem_setOf.mpr ⟨other, by rw [show chosen other = _ from taken]⟩
  · intro count choices within apart
    rw [setsOf_events, length_map]
    cases count with
    | zero => exact Nat.zero_le _
    | succ count =>
      have ports := (within 0).1
      have family : Merge.Family (lanesOf portCount packets PortData.timestamp)
          (fun time => time + tolerance * 1000) (fun _ => 0)
          (fun set (port : Fin portCount) => choices set port) :=
        ⟨fun set => (within_iff (fun _ => rfl) ports).mpr (within set),
          fun _ _ => Nat.zero_le _, fun port => apart port port.isLt⟩
      have mono : Monotone fun time : Int => time + tolerance * 1000 :=
        fun first second le => by simpa using le
      rw [Merge.length_taken]
      exact sweep.optimal lanes mono ⟨⟨0, ports⟩⟩ family
  · intro port bound
    obtain ⟨-, removed⟩ := sweep.removed ⟨port, bound⟩
    rw [← removedAt_events, Nat.sub_zero, ← range_eq_range'] at removed
    exact ⟨sweep.bounded (fun _ => Nat.zero_le _) ⟨port, bound⟩, removed⟩

end

end Tolerance

/-- Timestamp alignment delivers sets within the tolerance only, discards packets only that
belong to no such set of packets not yet delivered, and delivers as many disjoint sets as there
can be. -/
theorem timestamp_alignment_optimal (portCount : Nat) (packets : Nat → List (PortData π))
    (tolerance : Int) (ordered : ∀ port < portCount,
      (packets port).Pairwise fun first second => first.timestamp ≤ second.timestamp) :
    GathersAll portCount (exactly (timestampPolicy tolerance)) packets
      (Matches portCount packets tolerance) := by
  intro passes calls few few'
  obtain ⟨exit, after, events, ran, stops, removals, sweep⟩ := gatherAll_sweeps
    (fun cursor current _ => timestamp_follows tolerance current) calls passes {} rfl few few'
  refine ⟨exit, after, ran, stops, ?_⟩
  rw [removals, nil_append]
  exact sweep_matches ordered sweep

theorem timestamp_alignment_optimal_pair :
    GathersAll 2 (exactly (timestampPolicy 33)) samplePackets (Matches 2 samplePackets 33) :=
  timestamp_alignment_optimal 2 samplePackets 33 (by decide)

end AiPipe
