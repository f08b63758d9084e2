import AiPipe.Alignment
import AiPipe.Loader.Code

/-!
The integers of a description, on 64 bits: which of them the options and the parameters of a
node accept, and what `TimestampPolicy` makes of a tolerance in microseconds.
-/

namespace AiPipe.Loader

open Nlohmann TimestampPolicy

/-- The values that the library keeps for an integer: a signed or an unsigned word. -/
inductive Stores : Json → Int → Prop
  | integer {number : Int} (least : -2 ^ 63 ≤ number) (most : number < 2 ^ 63) :
      Stores (.integer number) number
  | unsigned {number : Nat} (most : number < 2 ^ 64) : Stores (.unsigned number) number

/-- The value is returned when it is wanted, and is an error of the loader otherwise. -/
def Exactly {α : Type} (result : Load α) (wanted : Prop) (value : α) : Prop :=
  (wanted → result.run = .ok (.ok value)) ∧ (¬ wanted → ∃ error, result.run = .ok (.error error))

variable {value : Json} {number : Int}

section

variable (stores : Stores value number)
include stores

theorem Stores.range : -2 ^ 63 ≤ number ∧ number < 2 ^ 64 := by
  cases stores with
  | integer least most => exact ⟨least, by omega⟩
  | unsigned most => exact ⟨by omega, by omega⟩

theorem Stores.isNumberInteger : value.isNumberInteger = true := by
  cases stores <;> rfl

theorem Stores.getInt64 : value.getInt64 = .ok (toInt64 number) := by
  cases stores with
  | integer least most =>
    rw [Json.getInt64, show toInt64 number = number by unfold toInt64; omega]
  | unsigned => rfl

theorem Stores.getUint64 : value.getUint64 = .ok (toUint64 number) := by
  cases stores with
  | integer => rfl
  | @unsigned number most =>
    rw [Json.getUint64, show toUint64 number = number by unfold toUint64; omega]

end

theorem read_ok {α β : Type} (value : α) (next : α → Load β) :
    (liftM (Except.ok value : Throws α) : Load α) >>= next = next value := rfl

theorem exactly_ok {α : Type} {wanted : Prop} (value : α) (holds : wanted) :
    Exactly (pure value) wanted value :=
  ⟨fun _ => rfl, fun other => absurd holds other⟩

theorem exactly_err {α : Type} {wanted : Prop} {value : α} (message : String) (fails : ¬ wanted) :
    Exactly (err message) wanted value :=
  ⟨fun holds => absurd holds fails, fun _ => ⟨_, rfl⟩⟩

/-- The sign is tested on the signed conversion of an unsigned value too: from `2 ^ 63` on it is
negative. -/
theorem parseUintOption_exactly (stores : Stores value number) (key : String) (min max : Nat) :
    Exactly (parseUintOption value key min max)
      ((min ≤ number ∧ number ≤ max) ∧ number < 2 ^ 63) number.toNat := by
  obtain ⟨least, most⟩ := stores.range
  unfold parseUintOption
  rw [stores.isNumberInteger, stores.getInt64, stores.getUint64]
  simp only [Bool.not_true, Bool.and_false, Bool.false_eq_true, ↓reduceIte, read_ok, Bool.true_and,
    decide_eq_true_eq, Bool.or_eq_true]
  have signed : toInt64 number = if number < 2 ^ 63 then number else number - 2 ^ 64 := by
    unfold toInt64
    split <;> omega
  have unsigned (positive : 0 ≤ number) : toUint64 number = number.toNat := by
    unfold toUint64
    omega
  by_cases negative : toInt64 number < 0
  · rw [if_pos negative]
    refine exactly_err _ fun holds => ?_
    rw [if_pos holds.2] at signed
    omega
  have small : 0 ≤ number ∧ number < 2 ^ 63 := by
    rw [signed] at negative
    split at negative <;> omega
  rw [if_neg negative, unsigned small.1]
  by_cases outside : number.toNat < min ∨ max < number.toNat
  · rw [if_pos outside]
    exact exactly_err _ fun holds => by omega
  · rw [if_neg outside]
    exact exactly_ok _ (by omega)

theorem setConfigParam_exactly (stores : Stores value number) (config : Params)
    (nodeName key : String) :
    Exactly (setConfigParam config nodeName key value) (number < 2 ^ 63)
      (setParam key (.int64 number) config) := by
  cases stores with
  | integer least most => exact exactly_ok _ most
  | @unsigned number most =>
    change Exactly (if int64Max < number then err _ else pure
      (setParam key (.int64 (toInt64 number)) config)) _ _
    have bound : int64Max = 2 ^ 63 - 1 := rfl
    by_cases large : int64Max < number
    · rw [if_pos large]
      exact exactly_err _ (by omega)
    · rw [if_neg large, show toInt64 number = number by unfold toInt64; omega]
      exact exactly_ok _ (by omega)

variable {values : List Json} {numbers : List Int}

section

variable (stored : List.Forall₂ Stores values numbers)
include stored

theorem getVector_getInt64 :
    (Json.array values).getVector Json.getInt64 = .ok (numbers.map toInt64) := by
  change values.mapM Json.getInt64 = _
  induction stored with
  | nil => rfl
  | cons first _ ih =>
    rw [List.mapM_cons, first.getInt64, ih]
    rfl

/-- An array of integers is not asked whether they fit. -/
theorem setConfigParam_array (some : numbers ≠ []) (config : Params) (nodeName key : String) :
    setConfigParam config nodeName key (.array values) =
      pure (setParam key (.ints (numbers.map toInt64)) config) := by
  have integers : values.all Json.isNumberInteger = true := by
    clear some
    induction stored with
    | nil => rfl
    | cons first _ ih => rw [List.all_cons, first.isNumberInteger, ih]; rfl
  have texts : values.all Json.isString = false := by
    cases stored with
    | nil => exact absurd rfl some
    | cons first _ => cases first <;> rfl
  have nonempty : (Json.array values).empty = false := by
    cases stored with
    | nil => exact absurd rfl some
    | cons => rfl
  rw [setConfigParam]
  unfold setArrayParam
  rw [nonempty, Json.elements, texts, integers, getVector_getInt64 stored]
  rfl

theorem map_toInt64 (fits : ∀ number ∈ numbers, number < 2 ^ 63) : numbers.map toInt64 = numbers := by
  induction stored with
  | nil => rfl
  | @cons _ number _ _ first _ ih =>
    have least := first.range.1
    have most := fits number List.mem_cons_self
    have same : toInt64 number = number := by
      unfold toInt64
      omega
    rw [List.map_cons, same, ih fun other member => fits other (List.mem_cons_of_mem _ member)]

end

/-- An option is treated by its value below `2 ^ 63`, a parameter always, and an array of parameters
when it is not empty and all of them fit `int64_t`. -/
theorem integers_by_value {value : Json} {number : Int} (stores : Stores value number)
    {values : List Json} {numbers : List Int} (stored : List.Forall₂ Stores values numbers)
    (config : Params) (nodeName key : String) (min max : Nat) :
    (Exactly (parseUintOption value key min max) (min ≤ number ∧ number ≤ max) number.toNat ↔
      (min ≤ number ∧ number ≤ max → number < 2 ^ 63)) ∧
    Exactly (setConfigParam config nodeName key value) (number < 2 ^ 63)
      (setParam key (.int64 number) config) ∧
    (Exactly (setConfigParam config nodeName key (.array values))
        (∀ number ∈ numbers, number < 2 ^ 63) (setParam key (.ints numbers) config) ↔
      numbers ≠ [] ∧ ∀ number ∈ numbers, number < 2 ^ 63) := by
  refine ⟨?_, setConfigParam_exactly stores config nodeName key, ?_⟩
  · have exactly := parseUintOption_exactly stores key min max
    constructor
    · intro accepts admitted
      by_contra large
      obtain ⟨error, refused⟩ := exactly.2 fun holds => large holds.2
      cases refused.symm.trans (accepts.1 admitted)
    · intro fits
      refine ⟨fun admitted => exactly.1 ⟨admitted, fits admitted⟩, fun outside => ?_⟩
      exact exactly.2 fun holds => outside holds.1
  · constructor
    · intro accepts
      cases stored with
      | nil => cases accepts.1 (by simp)
      | cons first rest =>
        refine ⟨List.cons_ne_nil _ _, ?_⟩
        by_contra large
        obtain ⟨error, refused⟩ := accepts.2 large
        rw [setConfigParam_array (.cons first rest) (List.cons_ne_nil _ _)] at refused
        cases refused
    · rintro ⟨some, fits⟩
      rw [setConfigParam_array stored some, map_toInt64 stored fits]
      exact exactly_ok _ fits

theorem integers_by_value_small :
    (parseUintOption (.unsigned 16) "queue_capacity" 0 sizeMax).run = .ok (.ok 16) ∧
      (setConfigParam [] "node" "key" (.array [.integer (-1), .unsigned 2])).run =
        .ok (.ok [("key", .ints [-1, 2])]) := by
  have both : List.Forall₂ Stores [.integer (-1), .unsigned 2] [-1, 2] :=
    .cons (.integer (by decide) (by decide)) (.cons (.unsigned (by decide)) .nil)
  have sixteen : Stores (.unsigned 16) 16 := .unsigned (by decide)
  obtain ⟨option, -, -⟩ := integers_by_value sixteen both [] "node" "queue_capacity" 0 sizeMax
  obtain ⟨-, -, array⟩ := integers_by_value sixteen both [] "node" "key" 0 0
  exact ⟨(option.mpr fun _ => by decide).1 (by decide), (array.mpr ⟨by decide, by decide⟩).1 (by decide)⟩

/-- A capacity that the bounds admit is called negative, and the same number is refused as a
parameter but stored as another one in an array. -/
theorem integers_not_by_value :
    (parseUintOption (.unsigned (2 ^ 63)) "queue_capacity" 0 sizeMax).run =
        .ok (.error ⟨.invalidConfiguration, "Option 'queue_capacity' must be non-negative", ""⟩) ∧
      (setConfigParam [] "node" "key" (.unsigned (2 ^ 63))).run = .ok (.error
        ⟨.invalidConfiguration,
          "Node 'node' config key 'key': integer value exceeds int64 range", ""⟩) ∧
      (setConfigParam [] "node" "key" (.array [.unsigned (2 ^ 63)])).run =
        .ok (.ok [("key", .ints [-2 ^ 63])]) := by
  refine ⟨?_, ?_, ?_⟩ <;> rfl

end AiPipe.Loader

namespace AiPipe.TimestampPolicy

variable {π : Type}

/-! The policy as the clock computes it, on signed words of nanoseconds. -/

def nanoseconds (ticks : Int) : Int := Nlohmann.toInt64 ticks

def latest (heads : List (PortDataPtr π)) : Int := (times heads).foldl max (-2 ^ 63)

def earliest (heads : List (PortDataPtr π)) : Int := (times heads).foldl min (2 ^ 63 - 1)

/-- A tolerance in microseconds is multiplied before it is compared. -/
def withinWords (tolerance difference : Int) : Bool :=
  nanoseconds difference ≤ nanoseconds (tolerance * 1000)

def alignedWords (tolerance : Int) (heads : List (PortDataPtr π)) : Bool :=
  latest heads < earliest heads || withinWords tolerance (latest heads - earliest heads)

def staleWords (tolerance : Int) (heads : List (PortDataPtr π)) : List Nat :=
  positions (fun head => head.any fun packet =>
    !withinWords tolerance (latest heads - packet.timestamp)) heads

def pairsWithWords (tolerance : Int) (head reference : PortData π) : Bool :=
  withinWords tolerance (if reference.timestamp ≤ head.timestamp
    then head.timestamp - reference.timestamp
    else reference.timestamp - head.timestamp)

/-- Times of the clock, whose differences are durations of the clock. -/
def Representable (heads : List (PortDataPtr π)) : Prop :=
  ∀ first ∈ times heads, (-2 ^ 63 ≤ first ∧ first < 2 ^ 63) ∧
    ∀ second ∈ times heads, first - second < 2 ^ 63

theorem withinWords_eq {tolerance difference : Int}
    (fits : -2 ^ 63 ≤ tolerance * 1000 ∧ tolerance * 1000 < 2 ^ 63)
    (range : -2 ^ 63 ≤ difference ∧ difference < 2 ^ 63) :
    withinWords tolerance difference = within tolerance difference := by
  have same : nanoseconds difference = difference := by
    unfold nanoseconds Nlohmann.toInt64
    omega
  have scaled : nanoseconds (tolerance * 1000) = tolerance * 1000 := by
    unfold nanoseconds Nlohmann.toInt64
    omega
  rw [withinWords, same, scaled, within]

variable {heads : List (PortDataPtr π)}

theorem times_cons_spec {first : Int} {rest : List Int}
    (representable : Representable heads) (nonempty : times heads = first :: rest) :
    (latest heads = rest.foldl max first ∧ earliest heads = rest.foldl min first) ∧
      latest heads ∈ times heads ∧ earliest heads ∈ times heads ∧
      ∀ time ∈ times heads, earliest heads ≤ time ∧ time ≤ latest heads := by
  obtain ⟨range, -⟩ := representable first (nonempty ▸ List.mem_cons_self)
  have last : latest heads = rest.foldl max first := by
    rw [latest, nonempty, List.foldl_cons, max_eq_right range.1]
  have least : earliest heads = rest.foldl min first := by
    rw [earliest, nonempty, List.foldl_cons, min_eq_right (by omega)]
  obtain ⟨newest, most⟩ := List.max?_eq_some_iff.mp (@List.max?_cons' _ first _ rest)
  obtain ⟨oldest, fewest⟩ := List.min?_eq_some_iff.mp (@List.min?_cons' _ first _ rest)
  rw [last, least, nonempty]
  exact ⟨⟨rfl, rfl⟩, newest, oldest, fun time member => ⟨fewest time member, most time member⟩⟩

theorem timestamp_mem_times {packet : PortData π} (member : some packet ∈ heads) :
    packet.timestamp ∈ times heads :=
  List.mem_filterMap.mpr ⟨some packet, member, rfl⟩

structure Exact (tolerance : Int) (heads : List (PortDataPtr π)) : Prop where
  aligned : alignedWords tolerance heads = aligned tolerance heads
  stale : ∀ index, index ∈ staleWords tolerance heads ↔ index ∈ stale tolerance heads
  pairsWith : ∀ head reference, some head ∈ heads → some reference ∈ heads →
    pairsWithWords tolerance head reference = pairsWith tolerance head reference

theorem exact_of_fits {tolerance : Int}
    (fits : -2 ^ 63 ≤ tolerance * 1000 ∧ tolerance * 1000 < 2 ^ 63)
    (representable : Representable heads) : Exact tolerance heads := by
  have words {first second : Int} (one : first ∈ times heads) (two : second ∈ times heads) :
      withinWords tolerance (first - second) = within tolerance (first - second) := by
    have forward := (representable first one).2 second two
    have backward := (representable second two).2 first one
    exact withinWords_eq fits ⟨by omega, forward⟩
  have pairs (head reference : PortData π) (one : some head ∈ heads) (two : some reference ∈ heads) :
      pairsWithWords tolerance head reference = pairsWith tolerance head reference := by
    unfold pairsWithWords pairsWith
    split
    · exact words (timestamp_mem_times one) (timestamp_mem_times two)
    · exact words (timestamp_mem_times two) (timestamp_mem_times one)
  cases present : times heads with
  | nil =>
    refine ⟨?_, fun index => ?_, pairs⟩
    · simp [alignedWords, aligned, latest, earliest, present]
    · rw [staleWords, stale, present, mem_positions]
      refine ⟨?_, fun member => nomatch member⟩
      rintro ⟨head, found, late⟩
      cases head with
      | none => cases late
      | some packet =>
        have member := timestamp_mem_times (List.mem_of_getElem? found)
        rw [present] at member
        cases member
  | cons first rest =>
    obtain ⟨⟨last, least⟩, newest, oldest, between⟩ := times_cons_spec representable present
    refine ⟨?_, fun index => ?_, pairs⟩
    · simp only [alignedWords, aligned, present, words newest oldest, ← last, ← least]
      simp [(between _ newest).1]
    · simp only [staleWords, stale, present, mem_positions, ← last]
      refine exists_congr fun head => and_congr_right fun found => ?_
      cases head with
      | none => rfl
      | some packet =>
        simp only [Option.any_some, words newest (timestamp_mem_times (List.mem_of_getElem? found))]

/-- An accepted tolerance is exact for all heads when it is a number of nanoseconds on the
clock; a larger one is smaller as a word than a difference that the clock can hold. -/
theorem tolerance_exact [Inhabited π] {tolerance : Int} (accepted : 0 ≤ tolerance)
    (accepted' : tolerance < 2 ^ 63) :
    (∀ heads : List (PortDataPtr π), Representable heads → Exact tolerance heads) ↔
      tolerance * 1000 < 2 ^ 63 := by
  refine ⟨fun exact => ?_, fun fits heads => exact_of_fits ⟨by omega, fits⟩⟩
  by_contra large
  -- even, so not the greatest word
  have word : nanoseconds (tolerance * 1000) < 2 ^ 63 - 1 := by
    unfold nanoseconds Nlohmann.toInt64
    omega
  obtain ⟨apart, range, above⟩ : ∃ apart : Int, (0 ≤ apart ∧ apart < 2 ^ 63) ∧
      nanoseconds (tolerance * 1000) < apart :=
    ⟨max 0 (nanoseconds (tolerance * 1000) + 1), by omega, by omega⟩
  have same : nanoseconds apart = apart := by
    unfold nanoseconds Nlohmann.toInt64
    omega
  have decided := (exact [some { timestamp := apart, payload := default },
    some { timestamp := 0, payload := default }] ?_).pairsWith _ _ (.head _) (.tail _ (.head _))
  · simp only [pairsWithWords, pairsWith, if_pos range.1, Int.sub_zero, withinWords, within, same,
      decide_eq_decide] at decided
    omega
  · intro first one
    simp [times] at one ⊢
    omega

theorem tolerance_exact_default : Exact 33000
    [some { timestamp := 0, payload := () }, none, some { timestamp := 20000000, payload := () }] :=
  (tolerance_exact (by decide) (by decide)).mpr (by decide) _ (by unfold Representable; decide)

/-- A tolerance of more than 292 years: two heads of one time do not pair, and both are stale. -/
theorem tolerance_wraps :
    let heads : List (PortDataPtr Unit) := [some { payload := () }, some { payload := () }]
    alignedWords 9223372036854776 heads = false ∧ staleWords 9223372036854776 heads = [0, 1] ∧
      aligned 9223372036854776 heads = true := by
  decide +kernel

end AiPipe.TimestampPolicy
