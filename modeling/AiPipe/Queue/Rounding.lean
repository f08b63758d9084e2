import AiPipe.Queue.Ring
import Mathlib.Data.Nat.Log
import Mathlib.Data.Nat.Bitwise

/-!
The constructor of `LockFreeMPMCQueue`: the requested capacity is rounded up to a power of
two by smearing its highest bit over the lower ones, on 64 bits.
-/

namespace AiPipe

def spread (width value : Nat) : Nat := value ||| (value >>> width)

/-- `size_type` has 64 bits; only the last addition can leave them. -/
def roundUpPowerOf2 (value : Nat) : Nat :=
  if value ≤ 2 then 2
  else
    (spread 32 (spread 16 (spread 8 (spread 4 (spread 2 (spread 1 (value - 1)))))) + 1) % 2 ^ 64

/-- The least power of two that is at least two and not below the request. -/
def roundedCapacity (requested : Nat) : Nat := 2 ^ Nat.clog 2 (max requested 2)

/-- The bits of `smeared` are those of `value` with the `width` places below each. -/
def Smears (width value smeared : Nat) : Prop :=
  ∀ place, smeared.testBit place = true ↔ ∃ lower < width, value.testBit (place + lower) = true

theorem smears_one (value : Nat) : Smears 1 value value := by
  intro place
  constructor
  · exact fun set => ⟨0, Nat.one_pos, set⟩
  · rintro ⟨lower, small, set⟩
    obtain rfl : lower = 0 := by omega
    exact set

theorem Smears.spread {width value smeared : Nat} (smears : Smears width value smeared) :
    Smears (width + width) value (spread width smeared) := by
  intro place
  rw [AiPipe.spread, Nat.testBit_or, Bool.or_eq_true, Nat.testBit_shiftRight, smears, smears]
  constructor
  · rintro (⟨lower, small, set⟩ | ⟨lower, small, set⟩)
    · exact ⟨lower, by omega, set⟩
    · refine ⟨width + lower, by omega, ?_⟩
      rwa [show place + (width + lower) = width + place + lower by omega]
  · rintro ⟨lower, small, set⟩
    by_cases near : lower < width
    · exact .inl ⟨lower, near, set⟩
    · refine .inr ⟨lower - width, by omega, ?_⟩
      rwa [show width + place + (lower - width) = place + lower by omega]

/-- Smeared over all 64 bits, only the highest bit matters. -/
theorem Smears.eq {value smeared : Nat} (smears : Smears 64 value smeared) (positive : value ≠ 0)
    (small : value < 2 ^ 64) : smeared = 2 ^ (value.log2 + 1) - 1 := by
  apply Nat.eq_of_testBit_eq
  intro place
  rw [Nat.testBit_two_pow_sub_one, Bool.eq_iff_iff, smears, decide_eq_true_eq]
  constructor
  · rintro ⟨lower, _, set⟩
    by_contra high
    have below : value < 2 ^ (place + lower) := (Nat.log2_lt positive).mp (by omega)
    rw [Nat.testBit_lt_two_pow below] at set
    exact Bool.noConfusion set
  · intro low
    have top : value.log2 < 64 := (Nat.log2_lt positive).mpr small
    refine ⟨value.log2 - place, by omega, ?_⟩
    rw [Nat.add_sub_cancel' (by omega)]
    exact Nat.testBit_log2 positive

theorem roundUpPowerOf2_of_two_lt {value : Nat} (large : 2 < value) (small : value < 2 ^ 64) :
    roundUpPowerOf2 value = 2 ^ ((value - 1).log2 + 1) % 2 ^ 64 := by
  have smears := (smears_one (value - 1)).spread.spread.spread.spread.spread.spread
  rw [roundUpPowerOf2, if_neg (Nat.not_le_of_lt large), smears.eq (by omega) (by omega)]
  rw [Nat.sub_add_cancel Nat.one_le_two_pow]

theorem clog_eq_log2 {value : Nat} (large : 1 < value) :
    Nat.clog 2 value = (value - 1).log2 + 1 := by
  refine le_antisymm ((Nat.clog_le_iff_le_pow Nat.one_lt_two).mpr ?_) ?_
  · have below := (Nat.log2_lt (show value - 1 ≠ 0 by omega)).mp (Nat.lt_succ_self _)
    omega
  · have above := Nat.le_pow_clog Nat.one_lt_two value
    exact (Nat.log2_lt (show value - 1 ≠ 0 by omega)).mpr (by omega)

theorem roundUpPowerOf2_eq {requested : Nat} (small : requested ≤ 2 ^ 63) :
    roundUpPowerOf2 (if requested < 2 then 2 else requested) = roundedCapacity requested := by
  have same : (if requested < 2 then 2 else requested) = max requested 2 := by
    split <;> omega
  rw [same, roundedCapacity]
  rcases Nat.lt_or_ge 2 requested with large | tiny
  · rw [max_eq_left (by omega), roundUpPowerOf2_of_two_lt large (by omega), clog_eq_log2 (by omega)]
    have top : (requested - 1).log2 < 63 := (Nat.log2_lt (by omega)).mpr (by omega)
    exact Nat.mod_eq_of_lt (Nat.pow_lt_pow_right Nat.one_lt_two (by omega))
  · rw [max_eq_right tiny]
    rfl

theorem roundUpPowerOf2_wraps {requested : Nat} (large : 2 ^ 63 < requested)
    (word : requested < 2 ^ 64) :
    roundUpPowerOf2 (if requested < 2 then 2 else requested) = 0 := by
  have top : (requested - 1).log2 = 63 := (Nat.log2_eq_iff (by omega)).mpr ⟨by omega, by omega⟩
  rw [if_neg (by omega), roundUpPowerOf2_of_two_lt (by omega) word, top]
  rfl

theorem two_le_roundedCapacity (requested : Nat) : 2 ≤ roundedCapacity requested :=
  le_trans (le_max_right requested 2) (Nat.le_pow_clog Nat.one_lt_two _)

namespace LockFreeMPMCQueue

/-- `sizeof(Cell) * m_capacity` bytes are allocated, on 64 bits.  Nothing when the cells that
the constructor and the calls access do not lie in them: then the behaviour is undefined. -/
def construct (τ : Type) (cellSize requested : Nat) : Option (LockFreeMPMCQueue τ) :=
  let capacity := roundUpPowerOf2 (if requested < 2 then 2 else requested)
  let bytes := cellSize * capacity % 2 ^ 64
  if fits : 2 ≤ capacity ∧ cellSize * capacity ≤ bytes then
    some { capacity := capacity, atLeastTwo := fits.1 }
  else none

variable {cellSize requested : Nat}

theorem construct_eq {τ : Type} (aligned : 64 ≤ cellSize)
    (fits : cellSize * roundedCapacity requested < 2 ^ 64) :
    construct τ cellSize requested =
      some { capacity := roundedCapacity requested,
             atLeastTwo := two_le_roundedCapacity requested } := by
  have above : requested ≤ roundedCapacity requested :=
    le_trans (le_max_left requested 2) (Nat.le_pow_clog Nat.one_lt_two _)
  have wide := Nat.mul_le_mul_right (roundedCapacity requested) aligned
  have rounded := roundUpPowerOf2_eq (show requested ≤ 2 ^ 63 by omega)
  unfold construct
  simp only [rounded]
  rw [dif_pos ⟨two_le_roundedCapacity requested, (Nat.mod_eq_of_lt fits).ge⟩]

theorem fits_of_construct {τ : Type} (word : requested < 2 ^ 64)
    {ring : LockFreeMPMCQueue τ} (constructed : construct τ cellSize requested = some ring) :
    cellSize * roundedCapacity requested < 2 ^ 64 := by
  unfold construct at constructed
  by_cases small : requested ≤ 2 ^ 63
  · simp only [roundUpPowerOf2_eq small] at constructed
    split at constructed
    case isTrue fits => exact lt_of_le_of_lt fits.2 (Nat.mod_lt _ (by decide))
    case isFalse => cases constructed
  · simp only [roundUpPowerOf2_wraps (Nat.lt_of_not_le small) word] at constructed
    cases constructed

theorem slot_eq_mask {τ : Type} (ring : LockFreeMPMCQueue τ) {requested : Nat}
    (capacity : ring.capacity = roundedCapacity requested) (pos : Nat) :
    ring.slot pos = pos &&& (ring.capacity - 1) := by
  rw [slot, capacity, roundedCapacity, Nat.and_two_pow_sub_one_eq_mod]

end LockFreeMPMCQueue

def queueCapacity (configured defaultQueueCapacity : Nat) : Nat :=
  let cap := if 0 < configured then configured else defaultQueueCapacity
  if cap = 0 then 1024 else cap

/-- What a ring of `capacity` cells needs: indices are cut to the cells by `m_mask`, which is
`m_capacity - 1` on 64 bits, and all cells are allocated. -/
structure ExactCapacity (cellSize requested capacity : Nat) : Prop where
  power : ∃ exponent, capacity = 2 ^ exponent
  atLeast : requested ≤ capacity
  selects : ∀ index,
    (∃ pos, pos &&& (capacity + (2 ^ 64 - 1)) % 2 ^ 64 = index) ↔ index < capacity
  allocated : cellSize * capacity % 2 ^ 64 = cellSize * capacity

theorem exactCapacity_of_pow {cellSize requested exponent : Nat} (atLeast : requested ≤ 2 ^ exponent)
    (cell : 0 < cellSize) (fits : cellSize * 2 ^ exponent < 2 ^ 64) :
    ExactCapacity cellSize requested (2 ^ exponent) := by
  have word : 2 ^ exponent < 2 ^ 64 := lt_of_le_of_lt (Nat.le_mul_of_pos_left _ cell) fits
  have positive := Nat.two_pow_pos exponent
  have mask : (2 ^ exponent + (2 ^ 64 - 1)) % 2 ^ 64 = 2 ^ exponent - 1 := by omega
  refine ⟨⟨exponent, rfl⟩, atLeast, fun index => ?_, Nat.mod_eq_of_lt fits⟩
  rw [mask]
  simp only [Nat.and_two_pow_sub_one_eq_mod]
  constructor
  · rintro ⟨pos, rfl⟩
    exact Nat.mod_lt pos positive
  · exact fun below => ⟨index, Nat.mod_eq_of_lt below⟩

/-- The capacity is exact for the requests below a power of two whose cells fit in memory. -/
theorem roundUpPowerOf2_exact {cellSize : Nat} (cell : 0 < cellSize)
    {configured defaultQueueCapacity : Nat} (admitted : configured < 2 ^ 64)
    (admitted' : defaultQueueCapacity < 2 ^ 64) :
    let requested := queueCapacity configured defaultQueueCapacity
    ExactCapacity cellSize requested (roundUpPowerOf2 (if requested < 2 then 2 else requested)) ↔
      ∃ exponent, max requested 2 ≤ 2 ^ exponent ∧ cellSize * 2 ^ exponent < 2 ^ 64 := by
  intro requested
  have word : requested < 2 ^ 64 := by
    simp only [requested, queueCapacity]
    split_ifs <;> omega
  have covers : max requested 2 ≤ roundedCapacity requested := Nat.le_pow_clog Nat.one_lt_two _
  constructor
  · intro exact
    by_cases small : requested ≤ 2 ^ 63
    · rw [roundUpPowerOf2_eq small] at exact
      exact ⟨_, covers, exact.allocated ▸ Nat.mod_lt _ (by decide)⟩
    · have atLeast := exact.atLeast
      rw [roundUpPowerOf2_wraps (Nat.lt_of_not_le small) word] at atLeast
      omega
  · rintro ⟨exponent, above, fits⟩
    have short : exponent < 64 := (Nat.pow_lt_pow_iff_right Nat.one_lt_two).mp
      (lt_of_le_of_lt (Nat.le_mul_of_pos_left _ cell) fits)
    have half : 2 ^ exponent ≤ 2 ^ 63 := Nat.pow_le_pow_right (by decide) (by omega)
    rw [roundUpPowerOf2_eq (le_trans (le_trans (le_max_left _ _) above) half)]
    have least : roundedCapacity requested ≤ 2 ^ exponent := Nat.pow_le_pow_right (by decide)
      ((Nat.clog_le_iff_le_pow Nat.one_lt_two).mpr above)
    exact exactCapacity_of_pow (le_trans (le_max_left _ _) covers) cell
      (lt_of_le_of_lt (Nat.mul_le_mul_left cellSize least) fits)

theorem roundUpPowerOf2_exact_default : ExactCapacity 64 1024 1024 :=
  (@roundUpPowerOf2_exact 64 (by decide) 0 1024 (by decide) (by decide)).mpr
    ⟨10, by decide, by decide⟩

/-- Two requests that are not covered: the capacity of the first is zero, and the cells of the
second one are allocated no memory. -/
theorem roundUpPowerOf2_inexact :
    (roundUpPowerOf2 (queueCapacity (2 ^ 63 + 1) 1024) = 0 ∧ ¬ ExactCapacity 64 (2 ^ 63 + 1) 0) ∧
      roundUpPowerOf2 (queueCapacity (2 ^ 58) 1024) = 2 ^ 58 ∧
      ¬ ExactCapacity 64 (2 ^ 58) (2 ^ 58) := by
  refine ⟨⟨by decide +kernel, fun exact => ?_⟩, by decide +kernel, fun exact => ?_⟩
  · exact absurd exact.atLeast (by decide)
  · exact absurd exact.allocated (by decide)

end AiPipe
