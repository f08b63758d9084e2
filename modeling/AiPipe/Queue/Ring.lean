import Mathlib.Data.Multiset.Filter
import Mathlib.Data.Nat.ModEq
import Mathlib.Logic.Function.Basic

/-!
The sequence-tagged ring of `LockFreeMPMCQueue`.  `Coherent` ties the tags of the cells to the
two positions and to those that are claimed and not published, or taken and not released.
-/

namespace AiPipe

open Multiset

/-- The capacity is a power of two and at least two, so `pos & m_mask` is a remainder;
the argument needs only that it is at least two.  The counters are unbounded. -/
structure LockFreeMPMCQueue (τ : Type) where
  capacity : Nat
  atLeastTwo : 2 ≤ capacity
  sequence : Nat → Nat := id
  data : Nat → Option τ := fun _ => none
  enqueuePos : Nat := 0
  dequeuePos : Nat := 0

namespace LockFreeMPMCQueue

variable {τ : Type} (ring : LockFreeMPMCQueue τ)

def slot (pos : Nat) : Nat := pos % ring.capacity

def tag (pos : Nat) : Nat := ring.sequence (ring.slot pos)

def storeSequence (pos value : Nat) : LockFreeMPMCQueue τ :=
  { ring with sequence := Function.update ring.sequence (ring.slot pos) value }

def storeData (pos : Nat) (item : Option τ) : LockFreeMPMCQueue τ :=
  { ring with data := Function.update ring.data (ring.slot pos) item }

def claim : LockFreeMPMCQueue τ := { ring with enqueuePos := ring.enqueuePos + 1 }

def publish (pos : Nat) : LockFreeMPMCQueue τ := ring.storeSequence pos (pos + 1)

def take : LockFreeMPMCQueue τ := { ring with dequeuePos := ring.dequeuePos + 1 }

def release (pos : Nat) : LockFreeMPMCQueue τ := ring.storeSequence pos (pos + ring.capacity)

def size : Nat :=
  if ring.dequeuePos ≤ ring.enqueuePos then ring.enqueuePos - ring.dequeuePos else 0

theorem apart {first second : Nat} (same : ring.slot first = ring.slot second)
    (less : first < second) : first + ring.capacity ≤ second := by
  have remainder := Nat.sub_mod_eq_zero_of_mod_eq same.symm
  have multiple := Nat.le_of_dvd (by omega) (Nat.dvd_of_mod_eq_zero remainder)
  omega

theorem slot_succ_ne (pos : Nat) : ring.slot (pos + 1) ≠ ring.slot pos := by
  intro same
  have far := ring.apart same.symm (Nat.lt_succ_self pos)
  have two := ring.atLeastTwo
  omega

theorem slot_add_capacity (pos : Nat) : ring.slot (pos + ring.capacity) = ring.slot pos :=
  Nat.add_mod_right pos ring.capacity

theorem tag_storeSequence (pos value other : Nat) :
    (ring.storeSequence pos value).tag other =
      if ring.slot other = ring.slot pos then value else ring.tag other := by
  change Function.update ring.sequence (ring.slot pos) value (ring.slot other) = _
  rw [Function.update_apply]
  rfl

/-- Two positions whose cell carries the tags `first` and `second + 1` are not in one cell
behind each other. -/
theorem tag_clash {first second : Nat} (filled : ring.tag first = first + 1)
    (open_ : ring.tag second = second) : ring.slot first ≠ ring.slot second := by
  intro same
  have next : second = first + 1 := by
    rw [tag, same] at filled
    rw [tag] at open_
    omega
  exact ring.slot_succ_ne first (next ▸ same.symm)

structure Coherent (claimed taken : Multiset Nat) : Prop where
  ordered : ring.dequeuePos ≤ ring.enqueuePos
  bounded : ring.enqueuePos ≤ ring.dequeuePos + ring.capacity
  claimedNodup : claimed.Nodup
  takenNodup : taken.Nodup
  claimedOpen : ∀ pos ∈ claimed,
    ring.dequeuePos ≤ pos ∧ pos < ring.enqueuePos ∧ ring.tag pos = pos
  takenOpen : ∀ pos ∈ taken,
    pos < ring.dequeuePos ∧ ring.enqueuePos ≤ pos + ring.capacity ∧ ring.tag pos = pos + 1
  filled : ∀ pos, ring.dequeuePos ≤ pos → pos < ring.enqueuePos → pos ∉ claimed →
    ring.tag pos = pos + 1
  free : ∀ pos, ring.enqueuePos ≤ pos → pos < ring.dequeuePos + ring.capacity →
    (∀ other ∈ taken, other + ring.capacity ≠ pos) → ring.tag pos = pos

namespace Coherent

variable {ring} {claimed taken : Multiset Nat}

section

variable (coherent : ring.Coherent claimed taken)
include coherent

theorem room (free : ring.tag ring.enqueuePos = ring.enqueuePos) :
    ring.enqueuePos < ring.dequeuePos + ring.capacity := by
  have two := ring.atLeastTwo
  refine lt_of_le_of_ne coherent.bounded fun full => ?_
  have head : ring.tag ring.dequeuePos = ring.enqueuePos := by
    rw [tag, ← ring.slot_add_capacity, ← full]
    exact free
  by_cases pending : ring.dequeuePos ∈ claimed
  · have tagged := (coherent.claimedOpen _ pending).2.2
    omega
  · have tagged := coherent.filled _ le_rfl (by omega) pending
    omega

theorem claim (free : ring.tag ring.enqueuePos = ring.enqueuePos) :
    ring.claim.Coherent (ring.enqueuePos ::ₘ claimed) taken := by
  have room := coherent.room free
  have ordered := coherent.ordered
  have two := ring.atLeastTwo
  refine
    { ordered := Nat.le_succ_of_le ordered
      bounded := room
      claimedNodup := nodup_cons.mpr ⟨fun again => ?_, coherent.claimedNodup⟩
      takenNodup := coherent.takenNodup
      claimedOpen := ?_
      takenOpen := ?_
      filled := ?_
      free := ?_ }
  · exact (coherent.claimedOpen _ again).2.1.ne rfl
  · intro pos member
    rcases mem_cons.mp member with rfl | earlier
    · exact ⟨ordered, Nat.lt_succ_self _, free⟩
    · obtain ⟨low, high, tagged⟩ := coherent.claimedOpen pos earlier
      exact ⟨low, Nat.lt_succ_of_lt high, tagged⟩
  · intro pos member
    obtain ⟨low, high, tagged⟩ := coherent.takenOpen pos member
    refine ⟨low, Nat.lt_of_le_of_ne high fun (same : _ = pos + ring.capacity) => ?_, tagged⟩
    have cell : ring.tag pos = ring.enqueuePos := by
      rw [tag, ← ring.slot_add_capacity, ← same]
      exact free
    omega
  · intro pos low high unclaimed
    rw [mem_cons, not_or] at unclaimed
    have below : pos < ring.enqueuePos + 1 := high
    exact coherent.filled pos low (by omega) unclaimed.2
  · intro pos low high clear
    exact coherent.free pos (Nat.le_of_succ_le low) high clear

theorem publish {pos : Nat} (mine : pos ∈ claimed) :
    (ring.publish pos).Coherent (claimed.erase pos) taken := by
  obtain ⟨low, high, tagged⟩ := coherent.claimedOpen pos mine
  have bounded := coherent.bounded
  -- the cell of a claimed position belongs to no other position of the window
  have untouched : ∀ other, ring.dequeuePos ≤ other → other < ring.dequeuePos + ring.capacity →
      other ≠ pos → ring.slot other ≠ ring.slot pos := by
    intro other first last different same
    rcases Nat.lt_or_gt_of_ne different with less | more
    · have far := ring.apart same less
      omega
    · have far := ring.apart same.symm more
      omega
  refine
    { ordered := coherent.ordered
      bounded := bounded
      claimedNodup := coherent.claimedNodup.erase pos
      takenNodup := coherent.takenNodup
      claimedOpen := ?_
      takenOpen := ?_
      filled := ?_
      free := ?_ }
  · intro other member
    obtain ⟨different, earlier⟩ := (Nodup.mem_erase_iff coherent.claimedNodup).mp member
    obtain ⟨low', high', tagged'⟩ := coherent.claimedOpen other earlier
    refine ⟨low', high', ?_⟩
    rw [LockFreeMPMCQueue.publish, tag_storeSequence,
      if_neg (untouched other low' (by omega) different)]
    exact tagged'
  · intro other member
    obtain ⟨low', high', tagged'⟩ := coherent.takenOpen other member
    refine ⟨low', high', ?_⟩
    rw [LockFreeMPMCQueue.publish, tag_storeSequence, if_neg (ring.tag_clash tagged' tagged)]
    exact tagged'
  · intro other low' high' unclaimed
    have below : other < ring.enqueuePos := high'
    rw [LockFreeMPMCQueue.publish, tag_storeSequence]
    by_cases same : other = pos
    · rw [if_pos (congrArg ring.slot same), same]
    · rw [if_neg (untouched other low' (by omega) same)]
      exact coherent.filled other low' high' fun claimedToo =>
        unclaimed ((Nodup.mem_erase_iff coherent.claimedNodup).mpr ⟨same, claimedToo⟩)
  · intro other low' high' clear
    have above : ring.enqueuePos ≤ other := low'
    rw [LockFreeMPMCQueue.publish, tag_storeSequence,
      if_neg (untouched other (by omega) high' (by omega))]
    exact coherent.free other low' high' clear

theorem head (full : ring.tag ring.dequeuePos = ring.dequeuePos + 1) :
    ring.dequeuePos < ring.enqueuePos ∧ ring.dequeuePos ∉ claimed := by
  have two := ring.atLeastTwo
  constructor
  · refine lt_of_le_of_ne coherent.ordered fun empty => ?_
    by_cases clear : ∀ other ∈ taken, other + ring.capacity ≠ ring.dequeuePos
    · have tagged := coherent.free ring.dequeuePos (by omega) (by omega) clear
      omega
    · push Not at clear
      obtain ⟨other, member, same⟩ := clear
      obtain ⟨low, _, tagged⟩ := coherent.takenOpen other member
      rw [tag, ← ring.slot_add_capacity, same, ← tag] at tagged
      omega
  · intro claimedToo
    have tagged := (coherent.claimedOpen _ claimedToo).2.2
    omega

theorem take (full : ring.tag ring.dequeuePos = ring.dequeuePos + 1) :
    ring.take.Coherent claimed (ring.dequeuePos ::ₘ taken) := by
  obtain ⟨nonempty, published⟩ := coherent.head full
  have bounded := coherent.bounded
  refine
    { ordered := nonempty
      bounded := ?_
      claimedNodup := coherent.claimedNodup
      takenNodup := nodup_cons.mpr ⟨fun again => ?_, coherent.takenNodup⟩
      claimedOpen := ?_
      takenOpen := ?_
      filled := ?_
      free := ?_ }
  · change ring.enqueuePos ≤ ring.dequeuePos + 1 + ring.capacity
    omega
  · exact (coherent.takenOpen _ again).1.ne rfl
  · intro pos member
    obtain ⟨low, high, tagged⟩ := coherent.claimedOpen pos member
    exact ⟨lt_of_le_of_ne low fun same => published (same ▸ member), high, tagged⟩
  · intro pos member
    rcases mem_cons.mp member with rfl | earlier
    · exact ⟨Nat.lt_succ_self _, bounded, full⟩
    · obtain ⟨low, high, tagged⟩ := coherent.takenOpen pos earlier
      exact ⟨Nat.lt_succ_of_lt low, high, tagged⟩
  · intro pos low high unclaimed
    exact coherent.filled pos (Nat.le_of_succ_le low) high unclaimed
  · intro pos low high clear
    have below : pos < ring.dequeuePos + 1 + ring.capacity := high
    have different := clear ring.dequeuePos (mem_cons_self ..)
    have apart : ring.dequeuePos + ring.capacity ≠ pos := different
    exact coherent.free pos low (by omega) fun other member =>
      clear other (mem_cons_of_mem member)

theorem release {pos : Nat} (mine : pos ∈ taken) :
    (ring.release pos).Coherent claimed (taken.erase pos) := by
  obtain ⟨low, high, tagged⟩ := coherent.takenOpen pos mine
  -- a cell with the tag of a taken position is not the cell of another tag
  have untouched : ∀ other, other ≠ pos → ring.tag other = other + 1 →
      ring.slot other ≠ ring.slot pos := by
    intro other different tagged' same
    rw [tag, same, ← tag] at tagged'
    omega
  refine
    { ordered := coherent.ordered
      bounded := coherent.bounded
      claimedNodup := coherent.claimedNodup
      takenNodup := coherent.takenNodup.erase pos
      claimedOpen := ?_
      takenOpen := ?_
      filled := ?_
      free := ?_ }
  · intro other member
    obtain ⟨low', high', tagged'⟩ := coherent.claimedOpen other member
    refine ⟨low', high', ?_⟩
    rw [LockFreeMPMCQueue.release, tag_storeSequence, if_neg (ring.tag_clash tagged tagged').symm]
    exact tagged'
  · intro other member
    obtain ⟨different, earlier⟩ := (Nodup.mem_erase_iff coherent.takenNodup).mp member
    obtain ⟨low', high', tagged'⟩ := coherent.takenOpen other earlier
    refine ⟨low', high', ?_⟩
    rw [LockFreeMPMCQueue.release, tag_storeSequence, if_neg (untouched other different tagged')]
    exact tagged'
  · intro other low' high' unclaimed
    have above : ring.dequeuePos ≤ other := low'
    have tagged' := coherent.filled other low' high' unclaimed
    rw [LockFreeMPMCQueue.release, tag_storeSequence, if_neg (untouched other (by omega) tagged')]
    exact tagged'
  · intro other low' high' clear
    rw [LockFreeMPMCQueue.release, tag_storeSequence]
    by_cases same : pos + ring.capacity = other
    · rw [if_pos (by rw [← same, ring.slot_add_capacity]), same]
    · have tagged' := coherent.free other low' high' fun another member => by
        by_cases mine : another = pos
        · rw [mine]
          exact same
        · exact clear another ((Nodup.mem_erase_iff coherent.takenNodup).mpr ⟨mine, member⟩)
      rw [if_neg (ring.tag_clash tagged tagged').symm]
      exact tagged'

end

end Coherent

variable {ring} {claimed taken : Multiset Nat}

def HeadFull (ring : LockFreeMPMCQueue τ) : Prop :=
  ring.tag ring.dequeuePos = ring.dequeuePos + 1

section

variable (coherent : ring.Coherent claimed taken)
include coherent

theorem Coherent.congr {other : LockFreeMPMCQueue τ} (capacity : other.capacity = ring.capacity)
    (tags : ∀ pos, other.tag pos = ring.tag pos) (enqueuePos : other.enqueuePos = ring.enqueuePos)
    (dequeuePos : other.dequeuePos = ring.dequeuePos) : other.Coherent claimed taken := by
  obtain ⟨ordered, bounded, claimedNodup, takenNodup, claimedOpen, takenOpen, filled, free⟩ :=
    coherent
  refine ⟨?_, ?_, claimedNodup, takenNodup, ?_, ?_, ?_, ?_⟩
  all_goals
    simp only [capacity, tags, enqueuePos, dequeuePos]
    assumption

theorem Coherent.publish_full {pos other : Nat}
    (mine : pos ∈ claimed) (full : ring.tag other = other + 1) :
    (ring.publish pos).tag other = other + 1 := by
  have tagged := (coherent.claimedOpen pos mine).2.2
  rw [LockFreeMPMCQueue.publish, tag_storeSequence, if_neg (ring.tag_clash full tagged), full]

theorem Coherent.publish_next {pos : Nat}
    (mine : pos ∈ claimed) (free : ring.tag ring.enqueuePos = ring.enqueuePos) :
    (ring.publish pos).tag ring.enqueuePos = ring.enqueuePos := by
  obtain ⟨_, below, tagged⟩ := coherent.claimedOpen pos mine
  rw [LockFreeMPMCQueue.publish, tag_storeSequence, if_neg, free]
  intro same
  rw [tag, same, ← tag] at free
  omega

theorem Coherent.release_next {pos : Nat}
    (mine : pos ∈ taken) (free : ring.tag ring.enqueuePos = ring.enqueuePos) :
    (ring.release pos).tag ring.enqueuePos = ring.enqueuePos := by
  have tagged := (coherent.takenOpen pos mine).2.2
  rw [LockFreeMPMCQueue.release, tag_storeSequence, if_neg (ring.tag_clash tagged free).symm, free]

theorem Coherent.release_head {pos : Nat}
    (mine : pos ∈ taken) (full : ring.HeadFull) : (ring.release pos).HeadFull := by
  obtain ⟨below, _, tagged⟩ := coherent.takenOpen pos mine
  change (ring.release pos).tag ring.dequeuePos = ring.dequeuePos + 1
  rw [LockFreeMPMCQueue.release, tag_storeSequence, if_neg, full]
  intro same
  rw [HeadFull, tag, same, ← tag] at full
  omega

end

theorem exists_window (ring : LockFreeMPMCQueue τ) {pos base : Nat} (behind : pos < base) :
    ∃ current, base ≤ current ∧ current < base + ring.capacity ∧
      pos + ring.capacity ≤ current ∧ ring.slot current = ring.slot pos := by
  have two := ring.atLeastTwo
  have low := Nat.mul_div_le (base - pos + (ring.capacity - 1)) ring.capacity
  have high := Nat.lt_mul_div_succ (base - pos + (ring.capacity - 1)) (b := ring.capacity) (by omega)
  rw [Nat.mul_succ] at high
  have cell : ring.slot (pos + ring.capacity * ((base - pos + (ring.capacity - 1)) / ring.capacity)) =
      ring.slot pos := Nat.add_mul_mod_self_left ..
  exact ⟨_, by omega, by omega, ring.apart cell.symm (by omega), cell⟩

theorem Coherent.passed (coherent : ring.Coherent claimed taken) {pos : Nat}
    (behind : pos < ring.dequeuePos) : pos + 1 ≤ ring.tag pos := by
  obtain ⟨current, low, high, far, cell⟩ := ring.exists_window behind
  have two := ring.atLeastTwo
  rw [tag, ← cell, ← tag]
  rcases Nat.lt_or_ge current ring.enqueuePos with inside | outside
  · by_cases pending : current ∈ claimed
    · rw [(coherent.claimedOpen _ pending).2.2]
      omega
    · rw [coherent.filled _ low inside pending]
      omega
  · by_cases clear : ∀ other ∈ taken, other + ring.capacity ≠ current
    · rw [coherent.free _ outside high clear]
      omega
    · push Not at clear
      obtain ⟨other, member, same⟩ := clear
      rw [tag, ← same, ring.slot_add_capacity, ← tag, (coherent.takenOpen other member).2.2]
      omega

theorem Coherent.empty (coherent : ring.Coherent 0 taken) {pos : Nat} (below : pos ≤ ring.dequeuePos)
    (low : ring.tag pos < pos + 1) : ring.enqueuePos = ring.dequeuePos := by
  refine le_antisymm (Nat.le_of_not_lt fun nonempty => ?_) coherent.ordered
  rcases Nat.lt_or_eq_of_le below with behind | rfl
  · have passed := coherent.passed behind
    omega
  · have full := coherent.filled _ le_rfl nonempty (notMem_zero _)
    omega

end LockFreeMPMCQueue

end AiPipe
