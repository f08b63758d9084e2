import AiPipe.Types
import Mathlib.Data.List.Basic
import Mathlib.Data.Int.Order.Basic

/-!
The frame alignment policies.  Each one decides whether a vector of queue heads can be
delivered together and, when it cannot, which heads `gatherAligned` discards.
-/

namespace AiPipe

open List

variable {π : Type}

structure FramePolicy (π : Type) where
  dropReason : String
  aligned : List (PortDataPtr π) → Bool
  /-- The positions that `forEachStale` visits, in its order. -/
  stale : List (PortDataPtr π) → List Nat
  pairsWith : PortData π → PortData π → Bool

def positions (test : PortDataPtr π → Bool) (heads : List (PortDataPtr π)) : List Nat :=
  heads.findIdxs test

variable {test : PortDataPtr π → Bool}

theorem mem_positions {heads : List (PortDataPtr π)} {index : Nat} :
    index ∈ positions test heads ↔ ∃ head, heads[index]? = some head ∧ test head = true := by
  rw [positions, List.mem_findIdxs_iff_exists_getElem_pos]
  constructor
  · rintro ⟨bound, holds⟩
    exact ⟨_, List.getElem?_eq_getElem bound, holds⟩
  · rintro ⟨head, found, holds⟩
    obtain ⟨bound, rfl⟩ := List.getElem?_eq_some_iff.mp found
    exact ⟨bound, holds⟩

def OfPackets (heads : List (PortDataPtr π)) (indices : List Nat) : Prop :=
  indices.Nodup ∧ ∀ index ∈ indices, ∃ packet, heads[index]? = some (some packet)

theorem positions_ofPackets (null : test none = false)
    (heads : List (PortDataPtr π)) : OfPackets heads (positions test heads) := by
  refine ⟨nodup_findIdxs, fun index member => ?_⟩
  obtain ⟨head, found, holds⟩ := mem_positions.mp member
  cases head with
  | none => simp [null] at holds
  | some packet => exact ⟨packet, found⟩

def identified : PortDataPtr π → Option (PortData π)
  | some packet => if packet.hasFrameId then some packet else none
  | none => none

theorem identified_some {head : PortDataPtr π} {packet : PortData π} :
    identified head = some packet ↔ head = some packet ∧ packet.hasFrameId = true := by
  cases head with
  | none => exact ⟨nofun, nofun⟩
  | some other =>
    simp only [identified, Option.ite_none_right_eq_some, Option.some.injEq]
    constructor
    · rintro ⟨known, rfl⟩
      exact ⟨rfl, known⟩
    · rintro ⟨rfl, known⟩
      exact ⟨known, rfl⟩

namespace FrameIdPolicy

def headId : PortDataPtr π → Nat
  | some packet => packet.id
  | none => kInvalidFrameId

def newestId (heads : List (PortDataPtr π)) : Nat :=
  heads.foldl (fun target head => max target (headId head)) kInvalidFrameId

def aligned (heads : List (PortDataPtr π)) : Bool :=
  heads.all fun head => headId head == kInvalidFrameId || headId head == newestId heads

def stale (heads : List (PortDataPtr π)) : List Nat :=
  positions (fun head => headId head != kInvalidFrameId && decide (headId head < newestId heads))
    heads

def pairsWith (head reference : PortData π) : Bool :=
  !head.hasFrameId || head.id == reference.id

theorem newestId_spec (heads : List (PortDataPtr π)) :
    (newestId heads = kInvalidFrameId ∨ ∃ head ∈ heads, headId head = newestId heads) ∧
      ∀ head ∈ heads, headId head ≤ newestId heads := by
  have newest : newestId heads = (heads.map headId).foldl max kInvalidFrameId := by
    rw [foldl_map, newestId]
  obtain ⟨attained, bound⟩ := max?_eq_some_iff.mp
    (@List.max?_cons' _ kInvalidFrameId _ (heads.map headId))
  rw [← newest] at attained bound
  refine ⟨?_, fun head member => bound _ (.tail _ (mem_map_of_mem member))⟩
  rcases mem_cons.mp attained with least | other
  · exact .inl least
  · exact .inr (mem_map.mp other)

variable {heads : List (PortDataPtr π)}

theorem aligned_iff :
    aligned heads = true ↔
      ∃ id, ∀ head ∈ heads, headId head = kInvalidFrameId ∨ headId head = id := by
  have invalid : kInvalidFrameId = 0 := rfl
  obtain ⟨attained, bound⟩ := newestId_spec heads
  simp only [aligned, all_eq_true, Bool.or_eq_true, beq_iff_eq]
  refine ⟨fun same => ⟨_, same⟩, ?_⟩
  rintro ⟨id, same⟩ head member
  refine (same head member).imp_right fun equal => ?_
  have most := bound head member
  rcases attained with least | ⟨best, here, value⟩
  · omega
  · rcases same best here with none | some
    · omega
    · rw [equal, ← value, some]

theorem aligned_subset {heads fewer : List (PortDataPtr π)} (some : fewer ⊆ heads)
    (all : aligned heads = true) : aligned fewer = true := by
  obtain ⟨id, same⟩ := aligned_iff.mp all
  exact aligned_iff.mpr ⟨id, fun head member => same head (some member)⟩

theorem stale_ofPackets (heads : List (PortDataPtr π)) : OfPackets heads (stale heads) :=
  positions_ofPackets rfl heads

theorem aligned_of_pairs (reference : Option (PortData π))
    (pairs : ∀ packet, some packet ∈ heads → packet.hasFrameId = true →
      ∃ best, reference = some best ∧ pairsWith packet best = true) :
    aligned heads = true := by
  refine aligned_iff.mpr ⟨(reference.map PortData.id).getD kInvalidFrameId, fun head member => ?_⟩
  cases head with
  | none => exact .inl rfl
  | some packet =>
    cases known : packet.hasFrameId with
    | false => exact .inl (by simpa [PortData.hasFrameId, headId] using known)
    | true =>
      obtain ⟨best, rfl, paired⟩ := pairs packet member known
      exact .inr (by simpa [pairsWith, known, headId] using paired)

end FrameIdPolicy

def frameIdPolicy : FramePolicy π where
  dropReason := "frame alignment drop"
  aligned := FrameIdPolicy.aligned
  stale := FrameIdPolicy.stale
  pairsWith := FrameIdPolicy.pairsWith

namespace StreamFrameIdPolicy

def sameKey (first second : PortData π) : Bool :=
  first.streamId == second.streamId && first.id == second.id

def aligned (heads : List (PortDataPtr π)) : Bool :=
  match heads.filterMap identified with
  | [] => true
  | key :: rest => rest.all fun head => sameKey head key

/-- `Timestamp{}` is where the maximum starts. -/
def newestTime (heads : List (PortDataPtr π)) : Int :=
  (heads.filterMap identified).foldl (fun newest head => max newest head.timestamp) 0

def staleByTime (heads : List (PortDataPtr π)) : List Nat :=
  positions (fun head => (identified head).any fun packet =>
    decide (packet.timestamp < newestTime heads)) heads

def keyLess (first second : PortData π) : Bool :=
  decide (first.streamId < second.streamId) ||
    first.streamId == second.streamId && decide (first.id < second.id)

def leastKey (heads : List (PortDataPtr π)) : Option (PortData π) :=
  (heads.filterMap identified).foldl (fun least head =>
    match least with
    | none => some head
    | some best => if keyLess head best then some head else some best) none

def staleByKey (heads : List (PortDataPtr π)) : List Nat :=
  match leastKey heads with
  | none => []
  | some least => positions (fun head => (identified head).any fun packet =>
    sameKey packet least) heads

def stale (heads : List (PortDataPtr π)) : List Nat :=
  if staleByTime heads = [] then staleByKey heads else staleByTime heads

def pairsWith (head reference : PortData π) : Bool :=
  !head.hasFrameId || sameKey head reference

theorem sameKey_iff {first second : PortData π} :
    sameKey first second = true ↔ (first.streamId, first.id) = (second.streamId, second.id) := by
  simp [sameKey]

variable {heads : List (PortDataPtr π)}

theorem aligned_iff :
    aligned heads = true ↔ ∀ first ∈ heads.filterMap identified,
      ∀ second ∈ heads.filterMap identified, sameKey first second = true := by
  unfold aligned
  cases heads.filterMap identified with
  | nil => simp
  | cons key rest =>
    simp only [all_eq_true, sameKey_iff, forall_mem_cons, true_and]
    refine ⟨fun same => ⟨fun head member => (same head member).symm, fun head member => ?_⟩,
      fun same head member => (same.2 head member).1⟩
    exact ⟨same head member, fun other here => (same head member).trans (same other here).symm⟩

theorem aligned_subset {heads fewer : List (PortDataPtr π)}
    (some : fewer ⊆ heads) (all : aligned heads = true) :
    aligned fewer = true := by
  have fewerKeys : fewer.filterMap identified ⊆ heads.filterMap identified :=
    filterMap_subset _ some
  exact aligned_iff.mpr fun first one second two =>
    aligned_iff.mp all first (fewerKeys one) second (fewerKeys two)

theorem stale_ofPackets (heads : List (PortDataPtr π)) : OfPackets heads (stale heads) := by
  unfold stale
  split
  · unfold staleByKey
    split
    · exact ⟨nodup_nil, by simp⟩
    · exact positions_ofPackets rfl heads
  · exact positions_ofPackets rfl heads

theorem aligned_of_pairs (reference : Option (PortData π))
    (pairs : ∀ packet, some packet ∈ heads → packet.hasFrameId = true →
      ∃ best, reference = some best ∧ pairsWith packet best = true) :
    aligned heads = true := by
  have keyed (packet : PortData π) (member : packet ∈ heads.filterMap identified) :
      ∃ best, reference = some best ∧ sameKey packet best = true := by
    obtain ⟨_ | data, here, found⟩ := mem_filterMap.mp member
    · cases found
    · simp only [identified, Option.ite_none_right_eq_some, Option.some.injEq] at found
      obtain ⟨known, rfl⟩ := found
      obtain ⟨best, same, paired⟩ := pairs data here known
      exact ⟨best, same, by simpa [pairsWith, known] using paired⟩
  refine aligned_iff.mpr fun first one second two => ?_
  obtain ⟨best, same, left⟩ := keyed first one
  obtain ⟨other, same', right⟩ := keyed second two
  obtain rfl := Option.some.inj (same.symm.trans same')
  rw [sameKey_iff] at left right ⊢
  exact left.trans right.symm

end StreamFrameIdPolicy

def streamFrameIdPolicy : FramePolicy π where
  dropReason := "stream alignment drop"
  aligned := StreamFrameIdPolicy.aligned
  stale := StreamFrameIdPolicy.stale
  pairsWith := StreamFrameIdPolicy.pairsWith

namespace TimestampPolicy

/-- A tolerance in microseconds, against the clock's nanoseconds. -/
def within (tolerance difference : Int) : Bool := difference ≤ tolerance * 1000

def times (heads : List (PortDataPtr π)) : List Int :=
  heads.filterMap fun head => head.map PortData.timestamp

def aligned (tolerance : Int) (heads : List (PortDataPtr π)) : Bool :=
  match times heads with
  | [] => true
  | first :: rest => within tolerance (rest.foldl max first - rest.foldl min first)

def stale (tolerance : Int) (heads : List (PortDataPtr π)) : List Nat :=
  match times heads with
  | [] => []
  | first :: rest => positions (fun head => head.any fun packet =>
    !within tolerance (rest.foldl max first - packet.timestamp)) heads

def pairsWith (tolerance : Int) (head reference : PortData π) : Bool :=
  within tolerance (if reference.timestamp ≤ head.timestamp
    then head.timestamp - reference.timestamp
    else reference.timestamp - head.timestamp)

variable {tolerance : Int}

theorem aligned_iff {heads : List (PortDataPtr π)} :
    aligned tolerance heads = true ↔ ∀ first ∈ times heads, ∀ second ∈ times heads,
      within tolerance (first - second) = true := by
  unfold aligned
  cases times heads with
  | nil => simp
  | cons first rest =>
    obtain ⟨newest, latest⟩ := max?_eq_some_iff.mp (@List.max?_cons' _ first _ rest)
    obtain ⟨oldest, earliest⟩ := min?_eq_some_iff.mp (@List.min?_cons' _ first _ rest)
    simp only [within, decide_eq_true_eq]
    refine ⟨fun close one here two there => ?_, fun close => close _ newest _ oldest⟩
    have upper := latest one here
    have lower := earliest two there
    omega

theorem aligned_subset {heads fewer : List (PortDataPtr π)}
    (some : fewer ⊆ heads) (all : aligned tolerance heads = true) :
    aligned tolerance fewer = true := by
  have fewerTimes : times fewer ⊆ times heads := filterMap_subset _ some
  exact aligned_iff.mpr fun first one second two =>
    aligned_iff.mp all first (fewerTimes one) second (fewerTimes two)

theorem stale_ofPackets (tolerance : Int) (heads : List (PortDataPtr π)) :
    OfPackets heads (stale tolerance heads) := by
  unfold stale
  split
  · exact ⟨nodup_nil, by simp⟩
  · exact positions_ofPackets rfl heads

theorem aligned_of_pairs {heads : List (PortDataPtr π)}
    (pairs : ∀ packet, some packet ∈ heads → ∃ best : PortData π,
      (∀ packet, some packet ∈ heads → best.timestamp ≤ packet.timestamp) ∧
        pairsWith tolerance packet best = true) :
    aligned tolerance heads = true := by
  have packetOf {time : Int} (member : time ∈ times heads) :
      ∃ packet, some packet ∈ heads ∧ packet.timestamp = time := by
    obtain ⟨_ | packet, here, found⟩ := mem_filterMap.mp member
    · cases found
    · exact ⟨packet, here, Option.some.inj found⟩
  refine aligned_iff.mpr fun first one second two => ?_
  obtain ⟨left, here, rfl⟩ := packetOf one
  obtain ⟨right, there, rfl⟩ := packetOf two
  obtain ⟨best, oldest, paired⟩ := pairs left here
  have older := oldest right there
  rw [pairsWith, if_pos (oldest left here)] at paired
  simp only [within, decide_eq_true_eq] at paired ⊢
  omega

end TimestampPolicy

def timestampPolicy (tolerance : Int) : FramePolicy π where
  dropReason := "timestamp alignment drop"
  aligned := TimestampPolicy.aligned tolerance
  stale := TimestampPolicy.stale tolerance
  pairsWith := TimestampPolicy.pairsWith tolerance

end AiPipe
