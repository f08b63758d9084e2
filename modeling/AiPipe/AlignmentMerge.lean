import AiPipe.AlignmentProgress
import AiPipe.Merge.Sweep

/-!
`gatherAligned` over finite queues of packets is a sweep: of the frame ids, of the times that
tell `(stream, frame)` keys apart, or of the timestamps with the tolerance as the reach.
-/

namespace AiPipe

open FrameAlignment List StreamFrameIdPolicy

variable {π α κ : Type}

def queueOf (packets : Nat → List (PortData π)) (port : Nat) : List (PortDataPtr π) :=
  (packets port).map some

def lanesOf [Inhabited α] (portCount : Nat) (packets : Nat → List (PortData π))
    (rank : PortData π → α) : Merge.Lanes (Fin portCount) α where
  size port := (packets port).length
  rank port position := ((packets port)[position]?.map rank).getD default

structure Follows [LinearOrder α] (policy : FrameAlignment.Policy π) (rank : PortData π → α)
    (reach : α → α) (heads : List (PortData π)) : Prop where
  aligned : ∃ answer, policy.aligned (heads.map some) = some answer ∧
    (answer = true ↔ ∀ first ∈ heads, ∀ second ∈ heads, rank first ≤ reach (rank second))
  stale : policy.aligned (heads.map some) = some false → ∃ stale,
    policy.stale (heads.map some) = some stale ∧ stale.Nodup ∧ ∀ port, port ∈ stale ↔
      ∃ head, heads[port]? = some head ∧ ∃ other ∈ heads, reach (rank head) < rank other

variable {packets : Nat → List (PortData π)} {heads : List (PortDataPtr π)}

theorem headsAt_queueOf {cursor : Nat → Nat} {ports : List Nat}
    (found : headsAt (queueOf packets) cursor ports = some heads) :
    ∃ current : List (PortData π), heads = current.map some ∧
      List.Forall₂ (fun port packet => (packets port)[cursor port]? = some packet) ports current := by
  induction ports generalizing heads with
  | nil =>
    obtain rfl := Option.some.inj found
    exact ⟨[], rfl, .nil⟩
  | cons port rest ih =>
    obtain ⟨head, here, others⟩ := Option.bind_eq_some_iff.mp found
    obtain ⟨later, remains, rfl⟩ := Option.map_eq_some_iff.mp others
    obtain ⟨current, rfl, each⟩ := ih remains
    rw [queueOf, getElem?_map, Option.map_eq_some_iff] at here
    obtain ⟨packet, present, rfl⟩ := here
    exact ⟨packet :: current, rfl, .cons present each⟩

structure Heads (portCount : Nat) (packets : Nat → List (PortData π)) (cursor : Nat → Nat)
    (current : List (PortData π)) : Prop where
  length : current.length = portCount
  each : ∀ port packet, current[port]? = some packet ↔
    port < portCount ∧ (packets port)[cursor port]? = some packet

theorem heads_of_headsAt {portCount : Nat} {cursor : Nat → Nat}
    (found : headsAt (queueOf packets) cursor (List.range portCount) = some heads) :
    ∃ current, heads = current.map some ∧ Heads portCount packets cursor current := by
  obtain ⟨current, rfl, each⟩ := headsAt_queueOf found
  have long : current.length = portCount := by
    rw [← each.length_eq, List.length_range]
  have head (port : Nat) (bound : port < current.length) :
      (packets port)[cursor port]? = some current[port] := by
    have here := (List.forall₂_iff_get.mp each).2 port (by simpa [← long] using bound) bound
    simpa using here
  refine ⟨current, rfl, long, fun port packet => ?_⟩
  constructor
  · intro found
    obtain ⟨bound, rfl⟩ := List.getElem?_eq_some_iff.mp found
    exact ⟨long ▸ bound, head port bound⟩
  · rintro ⟨bound, found⟩
    rw [head port (long.symm ▸ bound)] at found
    rw [List.getElem?_eq_getElem (long.symm ▸ bound), found]

section Lanes

variable [Inhabited α] {portCount : Nat} {packets : Nat → List (PortData π)}
  {rank : PortData π → α} {cursor : Nat → Nat} {current : List (PortData π)}

def lanesCursor (portCount : Nat) (cursor : Nat → Nat) (port : Fin portCount) : Nat := cursor port

theorem lanesOf_rank {port : Fin portCount} {position : Nat} {packet : PortData π}
    (found : (packets port)[position]? = some packet) :
    (lanesOf portCount packets rank).rank port position = rank packet := by
  change ((packets port)[position]?.map rank).getD default = rank packet
  rw [found]
  rfl

variable (rank) in
theorem Heads.head (heads : Heads portCount packets cursor current) (port : Fin portCount) :
    ∃ packet, current[port.val]? = some packet ∧
      (packets port)[cursor port]? = some packet ∧
      (lanesOf portCount packets rank).rank port (lanesCursor portCount cursor port) = rank packet := by
  have bound : port.val < current.length := heads.length.symm ▸ port.isLt
  have found := getElem?_eq_getElem bound
  have here := ((heads.each port _).mp found).2
  exact ⟨_, found, here, lanesOf_rank here⟩

omit [Inhabited α] in
theorem Heads.mem_iff (heads : Heads portCount packets cursor current) {packet : PortData π} :
    packet ∈ current ↔ ∃ port : Fin portCount, current[port.val]? = some packet := by
  rw [mem_iff_getElem?]
  constructor
  · rintro ⟨port, found⟩
    exact ⟨⟨port, ((heads.each port packet).mp found).1⟩, found⟩
  · rintro ⟨port, found⟩
    exact ⟨port, found⟩

theorem Heads.inside (heads : Heads portCount packets cursor current) (port : Fin portCount) :
    lanesCursor portCount cursor port < (lanesOf portCount packets rank).size port := by
  obtain ⟨packet, -, here, -⟩ := heads.head rank port
  exact (List.getElem?_eq_some_iff.mp here).1

theorem dry_of_headsAt (missing : headsAt (queueOf packets) cursor (List.range portCount) = none) :
    ∃ port, (lanesOf portCount packets rank).size port ≤ lanesCursor portCount cursor port := by
  by_contra full
  push Not at full
  have found (ports : List Nat) (inside : ∀ port ∈ ports, port < portCount) :
      headsAt (queueOf packets) cursor ports ≠ none := by
    induction ports with
    | nil => exact nofun
    | cons port rest ih =>
      have bound := inside port mem_cons_self
      have here : cursor port < (packets port).length := full ⟨port, bound⟩
      have later := ih fun other member => inside other (mem_cons_of_mem _ member)
      obtain ⟨heads, same⟩ := Option.ne_none_iff_exists'.mp later
      rw [headsAt, same]
      simp [queueOf, here]
  exact found _ (fun port here => mem_range.mp here) missing

variable [LinearOrder α] {reach : α → α}

theorem Heads.within_iff (heads : Heads portCount packets cursor current) :
    (lanesOf portCount packets rank).Within reach (lanesCursor portCount cursor) ↔
      ∀ first ∈ current, ∀ second ∈ current, rank first ≤ reach (rank second) := by
  constructor
  · rintro ⟨-, close⟩ first one second two
    obtain ⟨port, found⟩ := heads.mem_iff.mp one
    obtain ⟨other, found'⟩ := heads.mem_iff.mp two
    have near := close port other
    rwa [lanesCursor, lanesCursor, lanesOf_rank ((heads.each port _).mp found).2,
      lanesOf_rank ((heads.each other _).mp found').2] at near
  · intro close
    refine ⟨heads.inside, fun port other => ?_⟩
    obtain ⟨first, found, -, same⟩ := heads.head rank port
    obtain ⟨second, found', -, same'⟩ := heads.head rank other
    rw [same, same']
    exact close first (heads.mem_iff.mpr ⟨port, found⟩) second (heads.mem_iff.mpr ⟨other, found'⟩)

theorem Heads.stale_iff (heads : Heads portCount packets cursor current) (port : Fin portCount) :
    (lanesOf portCount packets rank).Stale reach (lanesCursor portCount cursor) port ↔
      ∃ head, current[port.val]? = some head ∧ ∃ other ∈ current, reach (rank head) < rank other := by
  obtain ⟨head, found, -, same⟩ := heads.head rank port
  constructor
  · rintro ⟨other, far⟩
    obtain ⟨second, found', -, same'⟩ := heads.head rank other
    rw [same, same'] at far
    exact ⟨head, found, second, heads.mem_iff.mpr ⟨other, found'⟩, far⟩
  · rintro ⟨head', again, second, here, far⟩
    obtain rfl := Option.some.inj (found.symm.trans again)
    obtain ⟨other, found'⟩ := heads.mem_iff.mp here
    refine ⟨other, ?_⟩
    rw [same, lanesCursor, lanesOf_rank ((heads.each other _).mp found').2]
    exact far

end Lanes

section Sweeps

variable [LinearOrder α] [Inhabited α] {portCount : Nat} {packets : Nat → List (PortData π)}
  {policy : FrameAlignment.Policy π} {rank : PortData π → α} {reach : α → α}
  (follows : ∀ cursor current, Heads portCount packets cursor current →
    Follows policy rank reach current)

def setOf (choice : Fin portCount → Nat) : List (Nat × Nat) :=
  (List.finRange portCount).map fun port => (port.val, choice port)

def removalOf : Merge.Event (Fin portCount) → Removal
  | .take choice => .set (setOf choice)
  | .discard port position => .discard port position

/-- What one call of `gatherAligned` does: it discards, and then delivers or finds a port dry. -/
structure Call (portCount : Nat) (packets : Nat → List (PortData π)) (rank : PortData π → α)
    (reach : α → α) (before : Ports) (exit : Exit) (after : Ports)
    (dropped : List (Merge.Event (Fin portCount))) (middle : Nat → Nat) : Prop where
  removals : after.removals = before.removals ++ dropped.map removalOf
  prepends : ∀ events final,
    Merge.Sweep (lanesOf portCount packets rank) reach (lanesCursor portCount middle) events final →
    Merge.Sweep (lanesOf portCount packets rank) reach (lanesCursor portCount before.cursor)
      (dropped ++ events) final
  less : remaining (queueOf packets) portCount middle ≤
    remaining (queueOf packets) portCount before.cursor
  ends : (exit = .delivered ∧ 0 < portCount ∧
      (lanesOf portCount packets rank).Within reach (lanesCursor portCount middle) ∧
      after.inputs = before.inputs ++ setOf (lanesCursor portCount middle) ∧
      after.cursor = fun port => if port < portCount then middle port + 1 else middle port) ∨
    (exit.result = false ∧ after.inputs = before.inputs ∧ after.cursor = middle ∧
      (Nonempty (Fin portCount) → ∃ port,
        (lanesOf portCount packets rank).size port ≤ lanesCursor portCount middle port))

theorem range_eq_finRange (count : Nat) : List.range count = (List.finRange count).map Fin.val := by
  simp

theorem exists_lanes {named : List Nat} (inside : ∀ port ∈ named, port < portCount) :
    ∃ lanes : List (Fin portCount), lanes.map Fin.val = named :=
  ⟨named.pmap Fin.mk inside, by simp [map_pmap]⟩

theorem lanesCursor_advance (lanes : List (Fin portCount)) (cursor : Nat → Nat) :
    lanesCursor portCount (fun port =>
      if port ∈ lanes.map Fin.val then cursor port + 1 else cursor port) =
      Merge.advance lanes (lanesCursor portCount cursor) := by
  funext lane
  have same : lane.val ∈ lanes.map Fin.val ↔ lane ∈ lanes :=
    mem_map_of_injective Fin.val_injective
  simp only [lanesCursor, Merge.advance, same]

include follows in
theorem gatherAligned_call : ∀ passes ports,
    remaining (queueOf packets) portCount ports.cursor < passes →
    ∃ exit after dropped middle,
      (gatherAligned portCount policy (queueCallbacks (queueOf packets)) passes).run ports =
        some (exit, after) ∧
      Call portCount packets rank reach ports exit after dropped middle := by
  intro passes
  induction passes with
  | zero => intro ports few; exact absurd few (Nat.not_lt_zero _)
  | succ passes ih =>
    intro ports few
    rw [gatherAligned_pass]
    cases found : headsAt (queueOf packets) ports.cursor (List.range portCount) with
    | none =>
      refine ⟨_, _, [], ports.cursor, rfl, by simp, fun _ _ => id, le_refl _, .inr ?_⟩
      exact ⟨rfl, rfl, rfl, fun _ => dry_of_headsAt found⟩
    | some heads =>
      dsimp only
      by_cases empty : portCount = 0
      · rw [if_pos empty]
        refine ⟨_, _, [], ports.cursor, rfl, by simp, fun _ _ => id, le_refl _, .inr ?_⟩
        refine ⟨rfl, rfl, rfl, fun ⟨port⟩ => ?_⟩
        exact absurd port.isLt (by omega)
      rw [if_neg empty]
      obtain ⟨current, rfl, these⟩ := heads_of_headsAt found
      obtain ⟨⟨answer, decided, aligned⟩, stale⟩ := follows _ _ these
      rw [decided] at stale ⊢
      cases answer with
      | true =>
        refine ⟨_, _, [], ports.cursor, rfl, ?_, fun _ _ => id, le_refl _, .inl ?_⟩
        · rw [foldl_pop nodup_range]
          simp
        · rw [foldl_pop nodup_range]
          refine ⟨rfl, Nat.pos_of_ne_zero empty, these.within_iff.mpr (aligned.mp rfl), ?_, ?_⟩
          · rw [range_eq_finRange, map_map]
            rfl
          · simp
      | false =>
        obtain ⟨named, reported, distinct, members⟩ := stale rfl
        have inside : ∀ port ∈ named, port < portCount := fun port here => by
          obtain ⟨head, found, -⟩ := (members port).mp here
          exact ((these.each port head).mp found).1
        have some : named ≠ [] := by
          have far := mt aligned.mpr Bool.false_ne_true
          push Not at far
          obtain ⟨first, one, second, two, beyond⟩ := far
          obtain ⟨port, found⟩ := mem_iff_getElem?.mp two
          exact ne_nil_of_mem ((members port).mpr ⟨second, found, first, one, beyond⟩)
        obtain ⟨lanes, rfl⟩ := exists_lanes inside
        have fewer := remaining_discard distinct some inside found
        obtain ⟨exit, after, dropped, middle, ran, call⟩ :=
          ih ((lanes.map Fin.val).foldl Ports.discard ports) (by omega)
        refine ⟨exit, after, lanes.map (fun lane => .discard lane
          (lanesCursor portCount ports.cursor lane)) ++ dropped, middle, ?_, ?_⟩
        · rw [reported]
          cases lanes with
          | nil => exact absurd rfl some
          | cons lane rest => exact ran
        · rw [foldl_discard distinct] at call
          refine ⟨?_, fun events final sweep => ?_, call.less.trans ?_, call.ends⟩
          · rw [call.removals, map_append, ← append_assoc, map_map, map_map]
            rfl
          · rw [append_assoc]
            refine .discard these.inside (Nodup.of_map _ distinct) (fun lane => ?_) ?_
            · rw [these.stale_iff, ← members]
              exact (mem_map_of_injective Fin.val_injective).symm
            · rw [← lanesCursor_advance]
              exact call.prepends events final sweep
          · rw [foldl_discard distinct] at fewer
            exact fewer.le

omit [LinearOrder α] [Inhabited α] in
variable (packets) in
theorem remaining_pop {middle : Nat → Nat} (ports : 0 < portCount)
    (inside : ∀ port < portCount, middle port < (packets port).length) :
    remaining (queueOf packets) portCount
        (fun port => if port < portCount then middle port + 1 else middle port) <
      remaining (queueOf packets) portCount middle := by
  apply Finset.sum_lt_sum
  · intro port here
    dsimp only
    split <;> omega
  · refine ⟨0, Finset.mem_range.mpr ports, ?_⟩
    have available := inside 0 ports
    simp only [ports, ↓reduceIte, queueOf, length_map]
    omega

include follows in
theorem gatherAll_sweeps : ∀ calls passes ports, ports.inputs = [] →
    remaining (queueOf packets) portCount ports.cursor < passes →
    remaining (queueOf packets) portCount ports.cursor < calls →
    ∃ exit after events,
      (gatherAll portCount policy (queueOf packets) passes calls).run ports = some (exit, after) ∧
      exit.result = false ∧ after.removals = ports.removals ++ events.map removalOf ∧
      Merge.Sweep (lanesOf portCount packets rank) reach (lanesCursor portCount ports.cursor)
        events (lanesCursor portCount after.cursor) := by
  intro calls
  induction calls with
  | zero => intro passes ports _ _ few; exact absurd few (Nat.not_lt_zero _)
  | succ calls ih =>
    intro passes ports fresh few few'
    obtain ⟨exit, after, dropped, middle, ran, call⟩ := gatherAligned_call follows passes ports few
    have step : (gatherAll portCount policy (queueOf packets) passes (calls + 1)).run ports =
        if exit.result then
          (gatherAll portCount policy (queueOf packets) passes calls).run after.deliver
        else some (exit, after) := by
      rw [gatherAll, StateT.run_bind, ran]
      cases exit <;> rfl
    rw [step]
    rcases call.ends with ⟨rfl, some, within, inputs, cursor⟩ | ⟨stops, -, rfl, dry⟩
    · have less := call.less
      have fewer := remaining_pop packets some fun port bound => within.1 ⟨port, bound⟩
      rw [← cursor] at fewer
      obtain ⟨exit, final, events, ran', stops, removals, sweep⟩ :=
        ih passes after.deliver rfl (by change remaining _ _ after.cursor < _; omega)
          (by change remaining _ _ after.cursor < _; omega)
      refine ⟨exit, final, dropped ++ .take (lanesCursor portCount middle) :: events, ran', stops,
        ?_, call.prepends _ _ (.take ⟨⟨0, some⟩⟩ within ?_)⟩
      · rw [removals, Ports.deliver, call.removals, inputs, fresh]
        simp [removalOf]
      · convert sweep using 1
        funext port
        simp [lanesCursor, Ports.deliver, cursor]
    · rw [stops]
      refine ⟨exit, after, dropped, rfl, stops, call.removals, ?_⟩
      have ended := call.prepends [] _ (.stop dry)
      rwa [append_nil] at ended

end Sweeps

/-! The three policies. -/

variable {heads : List (PortData π)}

theorem frameId_follows (known : ∀ packet ∈ heads, packet.id ≠ kInvalidFrameId) :
    Follows (exactly frameIdPolicy) PortData.id id heads := by
  obtain ⟨attained, bound⟩ := FrameIdPolicy.newestId_spec (heads.map some)
  have below {packet : PortData π} (here : packet ∈ heads) :
      packet.id ≤ FrameIdPolicy.newestId (heads.map some) :=
    bound (some packet) (mem_map_of_mem here)
  have newest {packet : PortData π} (here : packet ∈ heads) :
      ∃ latest ∈ heads, latest.id = FrameIdPolicy.newestId (heads.map some) := by
    rcases attained with none | ⟨head, member, same⟩
    · have positive := known packet here
      have most := below here
      have invalid : kInvalidFrameId = 0 := rfl
      omega
    · obtain ⟨latest, there, rfl⟩ := mem_map.mp member
      exact ⟨latest, there, same⟩
  refine ⟨⟨_, rfl, ?_⟩, fun _ => ⟨_, rfl, (FrameIdPolicy.stale_ofPackets _).1, fun port => ?_⟩⟩
  · change FrameIdPolicy.aligned (heads.map some) = true ↔ _
    simp only [FrameIdPolicy.aligned, all_map, all_eq_true, Function.comp_apply,
      FrameIdPolicy.headId, Bool.or_eq_true, beq_iff_eq, id_eq]
    constructor
    · intro same first one second two
      have equal := (same first one).resolve_left (known first one)
      have equal' := (same second two).resolve_left (known second two)
      omega
    · intro close packet here
      obtain ⟨latest, there, same⟩ := newest here
      have upper := close latest there packet here
      have lower := below here
      exact .inr (by omega)
  · change port ∈ FrameIdPolicy.stale (heads.map some) ↔ _
    simp only [FrameIdPolicy.stale, mem_positions, getElem?_map, Option.map_eq_some_iff,
      Bool.and_eq_true, bne_iff_ne, decide_eq_true_eq, id_eq]
    constructor
    · rintro ⟨_, ⟨head, found, rfl⟩, -, less⟩
      obtain ⟨latest, there, same⟩ := newest (mem_of_getElem? found)
      exact ⟨head, found, latest, there, same ▸ less⟩
    · rintro ⟨head, found, other, there, less⟩
      refine ⟨some head, ⟨head, found, rfl⟩, known head (mem_of_getElem? found), ?_⟩
      exact less.trans_le (below there)

def streamKey (packet : PortData π) : Nat × Nat := (packet.streamId, packet.id)

theorem streamFrameId_follows (known : ∀ packet ∈ heads, packet.id ≠ kInvalidFrameId)
    (epoch : ∀ packet ∈ heads, 0 ≤ packet.timestamp)
    (timed : ∀ first ∈ heads, ∀ second ∈ heads,
      streamKey first = streamKey second ↔ first.timestamp = second.timestamp) :
    Follows (exactly streamFrameIdPolicy) PortData.timestamp id heads := by
  have identifies {packet : PortData π} (here : packet ∈ heads) :
      identified (some packet) = some packet :=
    identified_some.mpr ⟨rfl, by simpa [PortData.hasFrameId] using known packet here⟩
  have listed : (heads.map some).filterMap identified = heads := by
    rw [filterMap_map]
    exact (filterMap_congr fun packet here => identifies here).trans filterMap_some
  have aligned : aligned (heads.map some) = true ↔
      ∀ first ∈ heads, ∀ second ∈ heads, first.timestamp ≤ id second.timestamp := by
    rw [aligned_iff, listed]
    simp only [sameKey_iff, id_eq]
    constructor
    · intro same first one second two
      exact ((timed first one second two).mp (same first one second two)).le
    · intro close first one second two
      have equal := le_antisymm (close first one second two) (close second two first one)
      exact (timed first one second two).mpr equal
  obtain ⟨-, attained, bound⟩ := newestTime_spec (heads.map some)
  rw [listed] at attained bound
  have older {port : Nat} : port ∈ staleByTime (heads.map some) ↔
      ∃ head, heads[port]? = some head ∧ ∃ other ∈ heads, id head.timestamp < other.timestamp := by
    simp only [mem_staleByTime, getElem?_map, Option.map_eq_some_iff, id_eq]
    constructor
    · rintro ⟨_, packet, ⟨head, found, rfl⟩, same, less⟩
      have here := mem_of_getElem? found
      obtain rfl := Option.some.inj ((identifies here).symm.trans same)
      refine ⟨head, found, ?_⟩
      rcases attained with zero | ⟨latest, there, same⟩
      · have late := epoch head here
        omega
      · exact ⟨latest, there, same ▸ less⟩
    · rintro ⟨head, found, other, there, less⟩
      refine ⟨_, head, ⟨head, found, rfl⟩, identifies (mem_of_getElem? found), ?_⟩
      exact less.trans_le (bound other there)
  refine ⟨⟨_, rfl, aligned⟩, fun misaligned => ⟨_, rfl,
    (stale_ofPackets _).1, fun port => ?_⟩⟩
  change port ∈ stale (heads.map some) ↔ _
  have some : staleByTime (heads.map some) ≠ [] := by
    have apart : StreamFrameIdPolicy.aligned (heads.map Option.some) = false :=
      Option.some.inj misaligned
    have far := mt aligned.mpr (Bool.not_eq_true _ ▸ apart)
    push Not at far
    obtain ⟨first, one, second, two, beyond⟩ := far
    obtain ⟨port, found⟩ := mem_iff_getElem?.mp two
    exact ne_nil_of_mem (older.mpr ⟨second, found, first, one, beyond⟩)
  rw [stale, if_neg some]
  exact older

theorem timestamp_follows (tolerance : Int) (heads : List (PortData π)) :
    Follows (exactly (timestampPolicy tolerance)) PortData.timestamp
      (fun time => time + tolerance * 1000) heads := by
  have listed : TimestampPolicy.times (heads.map some) = heads.map PortData.timestamp := by
    simp [TimestampPolicy.times, filterMap_map]
  refine ⟨⟨_, rfl, ?_⟩, fun _ => ⟨_, rfl, (TimestampPolicy.stale_ofPackets _ _).1, fun port => ?_⟩⟩
  · change TimestampPolicy.aligned tolerance (heads.map some) = true ↔ _
    rw [TimestampPolicy.aligned_iff, listed]
    simp only [forall_mem_map, TimestampPolicy.within, decide_eq_true_eq]
    constructor
    · intro close first one second two
      have near := close first one second two
      omega
    · intro close first one second two
      have near := close first one second two
      omega
  · change port ∈ TimestampPolicy.stale tolerance (heads.map some) ↔ _
    unfold TimestampPolicy.stale
    rw [listed]
    cases heads with
    | nil => simp
    | cons head rest =>
      obtain ⟨newest, latest⟩ := max?_eq_some_iff.mp
        (@List.max?_cons' _ head.timestamp _ (rest.map PortData.timestamp))
      rw [← map_cons] at newest latest
      obtain ⟨last, there, same⟩ := mem_map.mp newest
      simp only [map_cons, mem_positions, Option.any_eq_true, Bool.not_eq_true',
        TimestampPolicy.within, decide_eq_false_iff_not, not_le]
      constructor
      · rintro ⟨_, found, packet, rfl, far⟩
        rw [← map_cons, getElem?_map, Option.map_eq_some_iff] at found
        obtain ⟨other, present, equal⟩ := found
        obtain rfl := Option.some.inj equal
        exact ⟨other, present, last, there, by omega⟩
      · rintro ⟨packet, found, other, here, far⟩
        have most := latest other.timestamp (mem_map_of_mem here)
        refine ⟨some packet, ?_, packet, rfl, by omega⟩
        rw [← map_cons, getElem?_map, found]
        rfl

end AiPipe
