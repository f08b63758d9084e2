import AiPipe.AlignedGather

/-!
Whether misaligned heads always lose one of them and keep one.  Times are nanoseconds in 64
bits, tolerances microseconds; what does not fit is undefined, and `none` here.
-/

namespace AiPipe

open FrameAlignment List StreamFrameIdPolicy TimestampPolicy

variable {π : Type}

namespace TimestampPolicy

def int64 (value : Int) : Option Int := if -2 ^ 63 ≤ value ∧ value < 2 ^ 63 then some value else none

/-- `newest - time <= tolerance`, in the common type of the two durations. -/
def checkedWithin (tolerance newest time : Int) : Option Bool := do
  let difference ← int64 (newest - time)
  let limit ← int64 (tolerance * 1000)
  return decide (difference ≤ limit)

def checkedAligned (tolerance : Int) (heads : List (PortDataPtr π)) : Option Bool :=
  match times heads with
  | [] => some true
  | first :: rest => checkedWithin tolerance (rest.foldl max first) (rest.foldl min first)

def checkedStale (tolerance : Int) (heads : List (PortDataPtr π)) : Option (List Nat) :=
  match times heads with
  | [] => some []
  | first :: rest =>
    let newest := rest.foldl max first
    if (times heads).all fun time => (checkedWithin tolerance newest time).isSome then
      some (positions (fun head => head.any fun packet =>
        checkedWithin tolerance newest packet.timestamp == some false) heads)
    else none

theorem int64_of_lt {value : Int} (nonneg : 0 ≤ value) (fits : value < 2 ^ 63) :
    int64 value = some value := by
  rw [int64, if_pos]
  omega

theorem int64_none {value : Int} (large : 2 ^ 63 ≤ value) : int64 value = none := by
  rw [int64, if_neg]
  omega

end TimestampPolicy

def checkedPolicy (kind : AlignmentPolicy) (tolerance : Int) : FrameAlignment.Policy π :=
  match kind with
  | .frameId => exactly frameIdPolicy
  | .streamFrameId => exactly streamFrameIdPolicy
  | .timestamp =>
    { dropReason := "timestamp alignment drop"
      aligned := TimestampPolicy.checkedAligned tolerance
      stale := TimestampPolicy.checkedStale tolerance }

def participates (kind : AlignmentPolicy) (head : PortDataPtr π) : Bool :=
  match kind with
  | .timestamp => head.isSome
  | _ => (identified head).isSome

/-- The policy decides about the heads and, where it calls them misaligned, reports a head that
takes part and spares another one. -/
structure KeepsSome (kind : AlignmentPolicy) (tolerance : Int) (heads : List (PortDataPtr π)) :
    Prop where
  decides : ∃ answer, (checkedPolicy kind tolerance).aligned heads = some answer
  splits : (checkedPolicy kind tolerance).aligned heads = some false →
    ∃ stale, (checkedPolicy kind tolerance).stale heads = some stale ∧
      (∃ port ∈ stale, ∃ head, heads[port]? = some head ∧ participates kind head = true) ∧
      ∃ port head, heads[port]? = some head ∧ participates kind head = true ∧ port ∉ stale

/-- The heads and tolerances that the policies are made for. -/
def suited (kind : AlignmentPolicy) (tolerance : Int) (heads : List (PortDataPtr π)) : Prop :=
  match kind with
  | .frameId => True
  | .streamFrameId => StreamFrameIdPolicy.aligned heads = true ∨
      ∃ packet ∈ heads.filterMap identified, 0 ≤ packet.timestamp
  | .timestamp => TimestampPolicy.times heads = [] ∨
      0 ≤ tolerance ∧ tolerance * 1000 < 2 ^ 63 ∧
        ∀ first ∈ TimestampPolicy.times heads, ∀ second ∈ TimestampPolicy.times heads,
          first - second < 2 ^ 63

/-! Identifiers. -/

namespace FrameIdPolicy

theorem participates_iff {head : PortDataPtr π} :
    participates .frameId head = true ↔ headId head ≠ kInvalidFrameId := by
  cases head with
  | none => simp [participates, identified, headId]
  | some packet => simp [participates, identified, headId, PortData.hasFrameId]

theorem keepsSome (tolerance : Int) (heads : List (PortDataPtr π)) :
    KeepsSome .frameId tolerance heads := by
  refine ⟨⟨_, rfl⟩, fun misaligned => ⟨_, rfl, ?_⟩⟩
  have misaligned : aligned heads = false := Option.some.inj misaligned
  obtain ⟨attained, bound⟩ := newestId_spec heads
  simp only [aligned, all_eq_false, Bool.or_eq_true, beq_iff_eq, not_or] at misaligned
  obtain ⟨old, here, some, older⟩ := misaligned
  have below := bound old here
  constructor
  · obtain ⟨port, found⟩ := mem_iff_getElem?.mp here
    refine ⟨port, mem_positions.mpr ⟨old, found, ?_⟩, old, found, participates_iff.mpr some⟩
    simp only [bne_iff_ne, ne_eq, Bool.and_eq_true, decide_eq_true_eq, some, not_false_eq_true,
      true_and]
    omega
  · rcases attained with least | ⟨newest, there, same⟩
    · have invalid : kInvalidFrameId = 0 := rfl
      omega
    · obtain ⟨port, found⟩ := mem_iff_getElem?.mp there
      refine ⟨port, newest, found, participates_iff.mpr ?_, fun reported => ?_⟩
      · have invalid : kInvalidFrameId = 0 := rfl
        omega
      · obtain ⟨head, again, stale⟩ := mem_positions.mp reported
        obtain rfl := Option.some.inj (found.symm.trans again)
        simp [same] at stale

end FrameIdPolicy

namespace StreamFrameIdPolicy

theorem participates_iff {head : PortDataPtr π} :
    participates .streamFrameId head = true ↔ ∃ packet, identified head = some packet :=
  Option.isSome_iff_exists

variable {heads : List (PortDataPtr π)}

theorem mem_identified {packet : PortData π} :
    packet ∈ heads.filterMap identified ↔
      ∃ (port : Nat) (head : PortDataPtr π), heads[port]? = some head ∧
        identified head = some packet := by
  rw [mem_filterMap]
  constructor
  · rintro ⟨head, here, same⟩
    obtain ⟨port, found⟩ := mem_iff_getElem?.mp here
    exact ⟨port, head, found, same⟩
  · rintro ⟨port, head, found, same⟩
    exact ⟨head, mem_of_getElem? found, same⟩

theorem newestTime_spec (heads : List (PortDataPtr π)) :
    0 ≤ newestTime heads ∧
      (newestTime heads = 0 ∨
        ∃ packet ∈ heads.filterMap identified, packet.timestamp = newestTime heads) ∧
      ∀ packet ∈ heads.filterMap identified, packet.timestamp ≤ newestTime heads := by
  have newest : newestTime heads =
      ((heads.filterMap identified).map PortData.timestamp).foldl max 0 := by
    rw [foldl_map, newestTime]
  obtain ⟨attained, bound⟩ := max?_eq_some_iff.mp
    (@List.max?_cons' _ 0 _ ((heads.filterMap identified).map PortData.timestamp))
  rw [← newest] at attained bound
  refine ⟨bound 0 mem_cons_self, ?_, fun packet member =>
    bound _ (.tail _ (mem_map_of_mem member))⟩
  rcases mem_cons.mp attained with least | other
  · exact .inl least
  · exact .inr (mem_map.mp other)

theorem mem_staleByTime {port : Nat} :
    port ∈ staleByTime heads ↔ ∃ head packet, heads[port]? = some head ∧
      identified head = some packet ∧ packet.timestamp < newestTime heads := by
  simp only [staleByTime, mem_positions, Option.any_eq_true, decide_eq_true_eq]
  constructor
  · rintro ⟨head, found, packet, same, older⟩
    exact ⟨head, packet, found, same, older⟩
  · rintro ⟨head, packet, found, same, older⟩
    exact ⟨head, found, packet, same, older⟩

theorem leastKey_step (packets : List (PortData π)) (best : PortData π) :
    ∃ least ∈ best :: packets, packets.foldl (fun least head =>
      match least with
      | none => some head
      | some best => if keyLess head best then some head else some best) (some best) =
        some least := by
  induction packets generalizing best with
  | nil => exact ⟨best, mem_cons_self, rfl⟩
  | cons head rest ih =>
    rw [foldl_cons]
    dsimp only
    split
    · obtain ⟨least, here, same⟩ := ih head
      exact ⟨least, mem_cons_of_mem _ here, same⟩
    · obtain ⟨least, here, same⟩ := ih best
      refine ⟨least, ?_, same⟩
      rcases mem_cons.mp here with rfl | later
      · exact mem_cons_self
      · exact mem_cons_of_mem _ (mem_cons_of_mem _ later)

theorem leastKey_mem (known : heads.filterMap identified ≠ []) :
    ∃ least ∈ heads.filterMap identified, leastKey heads = some least := by
  unfold leastKey
  obtain ⟨head, rest, same⟩ := exists_cons_of_ne_nil known
  rw [same, foldl_cons]
  exact leastKey_step rest head

theorem misaligned_cons (misaligned : aligned heads = false) : heads.filterMap identified ≠ [] := by
  intro none
  rw [aligned, none] at misaligned
  cases misaligned

theorem splits_byKey (misaligned : aligned heads = false) :
    (∃ port ∈ staleByKey heads, ∃ head, heads[port]? = some head ∧
        participates .streamFrameId head = true) ∧
      ∃ port head, heads[port]? = some head ∧ participates .streamFrameId head = true ∧
        port ∉ staleByKey heads := by
  obtain ⟨least, member, same⟩ := leastKey_mem (misaligned_cons misaligned)
  have listed {port : Nat} : port ∈ staleByKey heads ↔ ∃ head packet, heads[port]? = some head ∧
      identified head = some packet ∧ sameKey packet least = true := by
    simp only [staleByKey, same, mem_positions, Option.any_eq_true]
    constructor
    · rintro ⟨head, found, packet, known, key⟩
      exact ⟨head, packet, found, known, key⟩
    · rintro ⟨head, packet, found, known, key⟩
      exact ⟨head, found, packet, known, key⟩
  constructor
  · obtain ⟨port, head, found, known⟩ := mem_identified.mp member
    refine ⟨port, listed.mpr ⟨head, least, found, known, ?_⟩, head, found,
      participates_iff.mpr ⟨least, known⟩⟩
    exact sameKey_iff.mpr rfl
  · by_contra all
    push Not at all
    refine Bool.false_ne_true (misaligned.symm.trans (aligned_iff.mpr fun first one second two => ?_))
    have keyed {packet : PortData π} (here : packet ∈ heads.filterMap identified) :
        sameKey packet least = true := by
      obtain ⟨port, head, found, known⟩ := mem_identified.mp here
      obtain ⟨other, packet', found', known', key⟩ :=
        listed.mp (all port head found (participates_iff.mpr ⟨packet, known⟩))
      obtain rfl := Option.some.inj (found.symm.trans found')
      obtain rfl := Option.some.inj (known.symm.trans known')
      exact key
    exact sameKey_iff.mpr ((sameKey_iff.mp (keyed one)).trans (sameKey_iff.mp (keyed two)).symm)

/-- Misaligned heads keep one of them exactly when one of them is not before the epoch, where
the search for the newest time starts. -/
theorem keepsSome_iff (tolerance : Int) (heads : List (PortDataPtr π)) :
    KeepsSome .streamFrameId tolerance heads ↔ suited .streamFrameId tolerance heads := by
  obtain ⟨epoch, attained, bound⟩ := newestTime_spec heads
  constructor
  · intro keeps
    by_contra unsuited
    simp only [suited, not_or, Bool.not_eq_true, not_exists, not_and, not_le] at unsuited
    obtain ⟨misaligned, early⟩ := unsuited
    obtain ⟨stale, reported, -, port, head, found, takesPart, spared⟩ :=
      keeps.splits (congrArg some misaligned)
    have newest : newestTime heads = 0 := by
      rcases attained with zero | ⟨packet, here, same⟩
      · exact zero
      · have before := early packet here
        omega
    have all {port : Nat} {head : PortDataPtr π} {packet : PortData π}
        (found : heads[port]? = some head) (known : identified head = some packet) :
        port ∈ staleByTime heads := by
      refine mem_staleByTime.mpr ⟨head, packet, found, known, ?_⟩
      rw [newest]
      exact early packet (mem_identified.mpr ⟨port, head, found, known⟩)
    obtain ⟨packet, known⟩ := participates_iff.mp takesPart
    have here := all found known
    obtain rfl : StreamFrameIdPolicy.stale heads = stale := Option.some.inj reported
    rw [StreamFrameIdPolicy.stale, if_neg (List.ne_nil_of_mem here)] at spared
    exact spared here
  · intro suited
    refine ⟨⟨_, rfl⟩, fun misaligned => ⟨_, rfl, ?_⟩⟩
    have misaligned : aligned heads = false := Option.some.inj misaligned
    change (∃ port ∈ stale heads, _) ∧
      ∃ port head, _ ∧ _ ∧ port ∉ stale heads
    unfold stale
    split
    next => exact splits_byKey misaligned
    next older =>
      constructor
      · obtain ⟨port, here⟩ := exists_mem_of_ne_nil _ older
        obtain ⟨head, packet, found, known, -⟩ := mem_staleByTime.mp here
        exact ⟨port, here, head, found, participates_iff.mpr ⟨packet, known⟩⟩
      · obtain ⟨latest, here, same⟩ : ∃ packet ∈ heads.filterMap identified,
            packet.timestamp = newestTime heads := by
          rcases attained with zero | found
          · rcases suited with aligned | ⟨packet, here, late⟩
            · exact absurd aligned (by simp [misaligned])
            · have early := bound packet here
              exact ⟨packet, here, by omega⟩
          · exact found
        obtain ⟨port, head, found, known⟩ := mem_identified.mp here
        refine ⟨port, head, found, participates_iff.mpr ⟨latest, known⟩, fun reported => ?_⟩
        obtain ⟨other, packet, found', known', less⟩ := mem_staleByTime.mp reported
        obtain rfl := Option.some.inj (found.symm.trans found')
        obtain rfl := Option.some.inj (known.symm.trans known')
        omega

end StreamFrameIdPolicy

/-! Times. -/

namespace TimestampPolicy

theorem mem_times {heads : List (PortDataPtr π)} {time : Int} :
    time ∈ times heads ↔ ∃ (port : Nat) (packet : PortData π),
      heads[port]? = some (some packet) ∧ packet.timestamp = time := by
  rw [times, mem_filterMap]
  constructor
  · rintro ⟨_ | packet, here, same⟩
    · cases same
    · obtain ⟨port, found⟩ := mem_iff_getElem?.mp here
      exact ⟨port, packet, found, Option.some.inj same⟩
  · rintro ⟨port, packet, found, rfl⟩
    exact ⟨some packet, mem_of_getElem? found, rfl⟩

variable {tolerance newest time : Int}

theorem checkedWithin_eq (nonneg : 0 ≤ tolerance)
    (fits : tolerance * 1000 < 2 ^ 63) (older : time ≤ newest) (close : newest - time < 2 ^ 63) :
    checkedWithin tolerance newest time = some (within tolerance (newest - time)) := by
  rw [checkedWithin, int64_of_lt (by omega) close, int64_of_lt (by omega) fits]
  rfl

theorem checkedWithin_negative (negative : tolerance < 0)
    (older : time ≤ newest) : checkedWithin tolerance newest time ≠ some true := by
  intro holds
  simp only [checkedWithin, Option.bind_eq_bind, Option.bind_eq_some_iff, int64,
    Option.ite_none_right_eq_some, Option.some.injEq, Option.pure_def, decide_eq_true_eq] at holds
  obtain ⟨_, ⟨-, rfl⟩, _, ⟨-, rfl⟩, less⟩ := holds
  omega

theorem checkedWithin_overflow (large : 2 ^ 63 ≤ tolerance * 1000 ∨ 2 ^ 63 ≤ newest - time) :
    checkedWithin tolerance newest time = none := by
  rcases large with limit | difference
  · simp only [checkedWithin, int64_none limit]
    cases int64 (newest - time) <;> rfl
  · rw [checkedWithin, int64_none difference]
    rfl

section Heads

variable {tolerance : Int} {heads : List (PortDataPtr π)} {first : Int} {rest : List Int}
  (listed : times heads = first :: rest)
include listed

theorem mem_checkedStale {stale : List Nat} (reported : checkedStale tolerance heads = some stale)
    {port : Nat} : port ∈ stale ↔ ∃ packet, heads[port]? = some (some packet) ∧
      checkedWithin tolerance (rest.foldl max first) packet.timestamp = some false := by
  simp only [checkedStale, listed, Option.ite_none_right_eq_some, Option.some.injEq] at reported
  obtain ⟨-, rfl⟩ := reported
  simp only [mem_positions, Option.any_eq_true, beq_iff_eq]
  constructor
  · rintro ⟨head, found, packet, rfl, far⟩
    exact ⟨packet, found, far⟩
  · rintro ⟨packet, found, far⟩
    exact ⟨some packet, found, packet, rfl, far⟩

theorem keepsSome_of_suited (nonneg : 0 ≤ tolerance) (fits : tolerance * 1000 < 2 ^ 63)
    (close : ∀ first ∈ times heads, ∀ second ∈ times heads, first - second < 2 ^ 63) :
    KeepsSome .timestamp tolerance heads := by
  obtain ⟨newest, latest⟩ := max?_eq_some_iff.mp (@List.max?_cons' _ first _ rest)
  obtain ⟨oldest, earliest⟩ := min?_eq_some_iff.mp (@List.min?_cons' _ first _ rest)
  rw [← listed] at newest latest oldest earliest
  have defined {time : Int} (here : time ∈ times heads) :=
    checkedWithin_eq nonneg fits (latest time here) (close _ newest time here)
  have aligned : checkedAligned tolerance heads =
      some (within tolerance (rest.foldl max first - rest.foldl min first)) := by
    rw [checkedAligned, listed]
    exact defined oldest
  refine ⟨⟨_, aligned⟩, fun misaligned => ?_⟩
  have far : within tolerance (rest.foldl max first - rest.foldl min first) = false :=
    Option.some.inj (aligned.symm.trans misaligned)
  have reported : checkedStale tolerance heads = some (positions (fun head =>
      head.any fun packet => checkedWithin tolerance (rest.foldl max first) packet.timestamp ==
        some false) heads) := by
    simp only [checkedStale, listed]
    rw [if_pos]
    refine all_eq_true.mpr fun time here => ?_
    rw [← listed] at here
    rw [defined here]
    rfl
  refine ⟨_, reported, ?_, ?_⟩
  · obtain ⟨port, packet, found, same⟩ := mem_times.mp oldest
    refine ⟨port, (mem_checkedStale listed reported).mpr ⟨packet, found, ?_⟩, some packet, found, rfl⟩
    rw [same, defined oldest, far]
  · obtain ⟨port, packet, found, same⟩ := mem_times.mp newest
    refine ⟨port, some packet, found, rfl, fun stale => ?_⟩
    obtain ⟨other, again, beyond⟩ := (mem_checkedStale listed reported).mp stale
    obtain rfl : packet = other := Option.some.inj (Option.some.inj (found.symm.trans again))
    rw [same, defined newest] at beyond
    simp only [Option.some.injEq, within, sub_self, decide_eq_false_iff_not, not_le] at beyond
    omega

theorem suited_of_keepsSome (keeps : KeepsSome .timestamp tolerance heads) :
    0 ≤ tolerance ∧ tolerance * 1000 < 2 ^ 63 ∧
      ∀ first ∈ times heads, ∀ second ∈ times heads, first - second < 2 ^ 63 := by
  obtain ⟨newest, latest⟩ := max?_eq_some_iff.mp (@List.max?_cons' _ first _ rest)
  obtain ⟨oldest, earliest⟩ := min?_eq_some_iff.mp (@List.min?_cons' _ first _ rest)
  rw [← listed] at newest latest oldest earliest
  obtain ⟨answer, decided⟩ := keeps.decides
  have compared : checkedWithin tolerance (rest.foldl max first) (rest.foldl min first) =
      some answer := by
    have aligned : checkedAligned tolerance heads = some answer := decided
    rwa [checkedAligned, listed] at aligned
  have small : ¬(2 ^ 63 ≤ tolerance * 1000 ∨
      2 ^ 63 ≤ rest.foldl max first - rest.foldl min first) := by
    intro large
    rw [checkedWithin_overflow large] at compared
    cases compared
  rw [not_or, not_le, not_le] at small
  refine ⟨?_, small.1, fun one here two there => ?_⟩
  · by_contra negative
    rw [not_le] at negative
    cases answer with
    | true => exact checkedWithin_negative negative (earliest _ newest) compared
    | false =>
      obtain ⟨stale, reported, -, port, head, found, takesPart, spared⟩ := keeps.splits decided
      cases head with
      | none => cases takesPart
      | some packet =>
        refine spared ((mem_checkedStale listed reported).mpr ⟨packet, found, ?_⟩)
        have here : packet.timestamp ∈ times heads := mem_times.mpr ⟨port, packet, found, rfl⟩
        have below := checkedWithin_negative negative (latest _ here)
        have known : (checkedWithin tolerance (rest.foldl max first) packet.timestamp).isSome := by
          have reported : checkedStale tolerance heads = some stale := reported
          simp only [checkedStale, listed, Option.ite_none_right_eq_some] at reported
          rw [listed] at here
          exact all_eq_true.mp reported.1 _ here
        obtain ⟨flag, same⟩ := Option.isSome_iff_exists.mp known
        cases flag with
        | true => exact absurd same below
        | false => exact same
  · have upper := latest one here
    have lower := earliest two there
    omega

end Heads

theorem keepsSome_iff (tolerance : Int) (heads : List (PortDataPtr π)) :
    KeepsSome .timestamp tolerance heads ↔ suited .timestamp tolerance heads := by
  unfold suited
  cases listed : times heads with
  | nil =>
    refine ⟨fun _ => .inl rfl, fun _ => ?_⟩
    have aligned : (checkedPolicy .timestamp tolerance).aligned heads = some true := by
      change checkedAligned tolerance heads = some true
      rw [checkedAligned, listed]
    refine ⟨⟨true, aligned⟩, fun misaligned => ?_⟩
    exact absurd (Option.some.inj (aligned.symm.trans misaligned)) (by decide)
  | cons first rest =>
    rw [← listed]
    constructor
    · exact fun keeps => .inr (suited_of_keepsSome listed keeps)
    · rintro (none | ⟨nonneg, fits, close⟩)
      · rw [listed] at none
        cases none
      · exact keepsSome_of_suited listed nonneg fits close

end TimestampPolicy

theorem keepsSome_iff_suited (kind : AlignmentPolicy) (tolerance : Int)
    (heads : List (PortDataPtr π)) : KeepsSome kind tolerance heads ↔ suited kind tolerance heads := by
  cases kind with
  | frameId => exact ⟨fun _ => trivial, fun _ => FrameIdPolicy.keepsSome tolerance heads⟩
  | streamFrameId => exact keepsSome_iff tolerance heads
  | timestamp => exact keepsSome_iff tolerance heads

variable {heads : List (PortDataPtr π)} {kind : AlignmentPolicy}

theorem checkedStale_ofPackets {tolerance : Int} {stale : List Nat}
    (reported : (checkedPolicy kind tolerance).stale heads = some stale) : OfPackets heads stale := by
  cases kind with
  | frameId =>
    obtain rfl := Option.some.inj reported
    exact FrameIdPolicy.stale_ofPackets heads
  | streamFrameId =>
    obtain rfl := Option.some.inj reported
    exact stale_ofPackets heads
  | timestamp =>
    have reported : checkedStale tolerance heads = some stale := reported
    unfold checkedStale at reported
    split at reported
    · obtain rfl := Option.some.inj reported
      exact ⟨nodup_nil, fun _ here => absurd here not_mem_nil⟩
    · dsimp only at reported
      split at reported
      · obtain rfl := Option.some.inj reported
        exact positions_ofPackets rfl heads
      · cases reported

theorem KeepsSome.moves {tolerance : Int}
    (keeps : KeepsSome kind tolerance heads) : Moves (checkedPolicy kind tolerance) heads := by
  refine ⟨keeps.decides, fun misaligned => ?_⟩
  obtain ⟨stale, reported, ⟨port, here, -⟩, -⟩ := keeps.splits misaligned
  obtain ⟨distinct, packets⟩ := checkedStale_ofPackets reported
  refine ⟨stale, reported, ne_nil_of_mem here, distinct, fun port member => ?_⟩
  obtain ⟨packet, found⟩ := packets port member
  exact (List.getElem?_eq_some_iff.mp found).1

/-- A policy reports a head and spares another one for exactly the heads that it is made for;
over queues of such heads the loop returns, and never by its defensive exit. -/
theorem alignment_progresses (kind : AlignmentPolicy) (tolerance : Int) :
    (∀ heads : List (PortDataPtr π),
      KeepsSome kind tolerance heads ↔ suited kind tolerance heads) ∧
    ∀ (portCount : Nat) (queue : Nat → List (PortDataPtr π)),
      (∀ cursor heads, headsAt queue cursor (List.range portCount) = some heads →
        suited kind tolerance heads) →
      ∀ passes ports, remaining queue portCount ports.cursor < passes →
        ∃ exit after, (gatherAligned portCount (checkedPolicy kind tolerance)
            (queueCallbacks queue) passes).run ports = some (exit, after) ∧
          exit ≠ .nothingDropped ∧ exit ≠ .popFailed := by
  refine ⟨keepsSome_iff_suited kind tolerance, fun portCount queue suits => ?_⟩
  exact gatherAligned_returns fun cursor heads found =>
    ((keepsSome_iff_suited kind tolerance heads).mpr (suits cursor heads found)).moves

def packetAt (id : Nat) (timestamp : Int) : PortDataPtr Unit :=
  some { id := id, timestamp := timestamp, payload := () }

theorem alignment_progresses_apart :
    KeepsSome .timestamp 33 [packetAt 1 0, packetAt 1 50000] ∧
      ∃ exit after, (gatherAligned 2 (checkedPolicy .timestamp 33)
        (queueCallbacks fun port => [packetAt 1 (50000 * port)]) 3).run {} = some (exit, after) ∧
        exit ≠ .nothingDropped ∧ exit ≠ .popFailed := by
  obtain ⟨keeps, returns⟩ := alignment_progresses (π := Unit) .timestamp 33
  have near : ∀ heads : List (PortDataPtr Unit), times heads ⊆ [0, 50000] →
      suited .timestamp 33 heads := by
    intro heads few
    refine .inr ⟨by decide, by decide, fun first one second two => ?_⟩
    have first_mem := few one
    have second_mem := few two
    simp only [mem_cons, not_mem_nil, or_false] at first_mem second_mem
    omega
  refine ⟨(keeps _).mpr (near _ (by decide)), returns 2 _ (fun cursor heads found => near heads ?_)
    3 {} (by decide)⟩
  obtain ⟨first, here, others⟩ := Option.bind_eq_some_iff.mp found
  obtain ⟨rest, there, rfl⟩ := Option.map_eq_some_iff.mp others
  obtain ⟨second, here', others⟩ := Option.bind_eq_some_iff.mp there
  obtain ⟨none, last, rfl⟩ := Option.map_eq_some_iff.mp others
  obtain rfl := Option.some.inj last
  have one := mem_singleton.mp (mem_of_getElem? here)
  have two := mem_singleton.mp (mem_of_getElem? here')
  subst one two
  decide

/-- A negative tolerance discards a head that is alone, the largest tolerance overflows, and
heads before the epoch are discarded together. -/
theorem alignment_keeps_none :
    (TimestampPolicy.checkedAligned (-1) [packetAt 1 5] = some false ∧
      TimestampPolicy.checkedStale (-1) [packetAt 1 5] = some [0] ∧
      ¬KeepsSome .timestamp (-1) [packetAt 1 5]) ∧
    (TimestampPolicy.checkedAligned (2 ^ 63 - 1) [packetAt 1 5] = none ∧
      ¬KeepsSome .timestamp (2 ^ 63 - 1) [packetAt 1 5]) ∧
    StreamFrameIdPolicy.aligned [packetAt 1 (-2), packetAt 2 (-1)] = false ∧
      StreamFrameIdPolicy.stale [packetAt 1 (-2), packetAt 2 (-1)] = [0, 1] ∧
      ¬KeepsSome .streamFrameId 0 [packetAt 1 (-2), packetAt 2 (-1)] := by
  simp only [keepsSome_iff_suited, suited]
  decide

end AiPipe
