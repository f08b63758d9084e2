import AiPipe.Queue.Sequential
import Mathlib.Data.Int.ModEq

/-!
The ring with words for positions and sequence numbers.  In the hands of one thread it is the
unbounded ring with every number cut to a word; only `size()` compares the positions.
-/

namespace AiPipe

variable {τ : Type}

inductive RingCall (τ : Type) where
  | tryPush (item : τ)
  | tryPop
  | tryPeek
  | size
  | empty
  | isFull

inductive RingAnswer (τ : Type) where
  | flag (value : Bool)
  | found (item : Option τ)
  | size (value : Nat)
  deriving DecidableEq

@[ext] structure WordRing (w : Nat) (τ : Type) where
  capacity : Nat
  sequence : Nat → BitVec w := BitVec.ofNat w
  data : Nat → Option τ := fun _ => none
  enqueuePos : BitVec w := 0
  dequeuePos : BitVec w := 0

namespace WordRing

variable {w : Nat} (ring : WordRing w τ)

def slot (pos : BitVec w) : Nat := (pos &&& BitVec.ofNat w (ring.capacity - 1)).toNat

def storeSequence (pos value : BitVec w) : WordRing w τ :=
  { ring with sequence := Function.update ring.sequence (ring.slot pos) value }

def storeData (pos : BitVec w) (item : Option τ) : WordRing w τ :=
  { ring with data := Function.update ring.data (ring.slot pos) item }

def diff (pos expected : BitVec w) : Int := (ring.sequence (ring.slot pos) - expected).toInt

/-- The loop of one thread; nothing where it would load the same position for ever. -/
def tryPush (item : τ) : Option (Bool × WordRing w τ) :=
  if ring.diff ring.enqueuePos ring.enqueuePos = 0 then
    some (true, ({ ring with enqueuePos := ring.enqueuePos + 1 }.storeData ring.enqueuePos
      (some item)).storeSequence ring.enqueuePos (ring.enqueuePos + 1))
  else if ring.diff ring.enqueuePos ring.enqueuePos < 0 then some (false, ring)
  else none

def tryPop : Option (Option τ × WordRing w τ) :=
  if ring.diff ring.dequeuePos (ring.dequeuePos + 1) = 0 then
    some (ring.data (ring.slot ring.dequeuePos),
      ({ ring with dequeuePos := ring.dequeuePos + 1 }.storeData ring.dequeuePos
        none).storeSequence ring.dequeuePos (ring.dequeuePos + BitVec.ofNat w ring.capacity))
  else if ring.diff ring.dequeuePos (ring.dequeuePos + 1) < 0 then some (none, ring)
  else none

def tryPeek : Option τ :=
  if ring.diff ring.dequeuePos (ring.dequeuePos + 1) ≠ 0 then none
  else ring.data (ring.slot ring.dequeuePos)

def size : Nat :=
  if ring.dequeuePos ≤ ring.enqueuePos then (ring.enqueuePos - ring.dequeuePos).toNat else 0

def call : RingCall τ → Option (RingAnswer τ × WordRing w τ)
  | .tryPush item => (ring.tryPush item).map fun made => (.flag made.1, made.2)
  | .tryPop => ring.tryPop.map fun made => (.found made.1, made.2)
  | .tryPeek => some (.found ring.tryPeek, ring)
  | .size => some (.size ring.size, ring)
  | .empty => some (.flag (ring.size == 0), ring)
  | .isFull => some (.flag (decide (ring.capacity ≤ ring.size)), ring)

def session (ring : WordRing w τ) : List (RingCall τ) → Option (List (RingAnswer τ))
  | [] => some []
  | call :: rest =>
    match ring.call call with
    | none => none
    | some (answer, after) => (after.session rest).map (answer :: ·)

end WordRing

/-- What the ring is for, with the number of items that have been popped. -/
structure BoundedList (τ : Type) where
  items : List τ := []
  popped : Nat := 0

namespace BoundedList

variable (capacity : Nat) (list : BoundedList τ)

def call : RingCall τ → RingAnswer τ × BoundedList τ
  | .tryPush item =>
    (.flag (list.items.length < capacity),
      { list with items := if list.items.length < capacity then list.items ++ [item] else list.items })
  | .tryPop =>
    (.found list.items.head?, ⟨list.items.tail, list.popped + min 1 list.items.length⟩)
  | .tryPeek => (.found list.items.head?, list)
  | .size => (.size list.items.length, list)
  | .empty => (.flag (list.items.length == 0), list)
  | .isFull => (.flag (decide (capacity ≤ list.items.length)), list)

def session (list : BoundedList τ) : List (RingCall τ) → List (RingAnswer τ)
  | [] => []
  | call :: rest => (list.call capacity call).1 :: (list.call capacity call).2.session rest

/-- The number of pushes has not wrapped once more often than the number of pops. -/
def Even (w : Nat) : Prop := list.popped % 2 ^ w ≤ (list.popped + list.items.length) % 2 ^ w

instance (w : Nat) : Decidable (list.Even w) := Nat.decLe _ _

def Answers (w : Nat) : RingCall τ → Prop
  | .size => list.Even w
  | .empty => list.Even w
  | .isFull => list.Even w ∨ list.items.length ≠ capacity
  | _ => True

def AnswersAll (w : Nat) (list : BoundedList τ) : List (RingCall τ) → Prop
  | [] => True
  | call :: rest => list.Answers capacity w call ∧ (list.call capacity call).2.AnswersAll w rest

end BoundedList

/-! Words of an unbounded ring. -/

def LockFreeMPMCQueue.words (w : Nat) (ring : LockFreeMPMCQueue τ) : WordRing w τ where
  capacity := ring.capacity
  sequence index := BitVec.ofNat w (ring.sequence index)
  data := ring.data
  enqueuePos := BitVec.ofNat w ring.enqueuePos
  dequeuePos := BitVec.ofNat w ring.dequeuePos

theorem words_claim (w : Nat) (ring : LockFreeMPMCQueue τ) : ring.claim.words w =
    { ring.words w with enqueuePos := (ring.words w).enqueuePos + 1 } :=
  WordRing.ext rfl rfl rfl (BitVec.ofNat_add ..) rfl

theorem words_take (w : Nat) (ring : LockFreeMPMCQueue τ) : ring.take.words w =
    { ring.words w with dequeuePos := (ring.words w).dequeuePos + 1 } :=
  WordRing.ext rfl rfl rfl rfl (BitVec.ofNat_add ..)

theorem toInt_ofNat_sub {w first second : Nat} (below : first < second + 2 ^ (w - 1))
    (above : second ≤ first + 2 ^ (w - 1)) (positive : 0 < w) :
    (BitVec.ofNat w first - BitVec.ofNat w second).toInt = (first : Int) - second := by
  have word : 2 ^ w = 2 * 2 ^ (w - 1) := by
    rw [← Nat.pow_succ', Nat.succ_eq_add_one, Nat.sub_add_cancel positive]
  have cut (value : Nat) : (BitVec.ofNat w value).toInt = (value : Int).bmod (2 ^ w) := by
    rw [BitVec.toInt_eq_toNat_bmod, BitVec.toNat_ofNat, Int.natCast_mod, Int.emod_bmod]
  rw [BitVec.toInt_sub, cut, cut, Int.sub_bmod_bmod, Int.bmod_sub_bmod]
  generalize 2 ^ (w - 1) = half at below above word
  apply Int.bmod_eq_of_le <;> rw [word] <;> push_cast <;> omega

section

variable {w exponent : Nat} (ring : LockFreeMPMCQueue τ)
variable (capacity : ring.capacity = 2 ^ exponent) (small : exponent ≤ w)
include capacity small

theorem words_slot (pos : Nat) : (ring.words w).slot (BitVec.ofNat w pos) = ring.slot pos := by
  have divides : 2 ^ exponent ∣ 2 ^ w := Nat.pow_dvd_pow 2 small
  have less : 2 ^ exponent - 1 < 2 ^ w :=
    (Nat.sub_lt (Nat.two_pow_pos _) Nat.one_pos).trans_le (Nat.le_of_dvd (Nat.two_pow_pos _) divides)
  change (BitVec.ofNat w pos &&& BitVec.ofNat w (ring.capacity - 1)).toNat = pos % ring.capacity
  rw [capacity, BitVec.toNat_and, BitVec.toNat_ofNat, BitVec.toNat_ofNat,
    Nat.mod_eq_of_lt less, Nat.and_two_pow_sub_one_eq_mod, Nat.mod_mod_of_dvd _ divides]

theorem words_storeSequence (pos value : Nat) : (ring.storeSequence pos value).words w =
    (ring.words w).storeSequence (BitVec.ofNat w pos) (BitVec.ofNat w value) := by
  refine WordRing.ext rfl (funext fun index => ?_) rfl rfl rfl
  rw [WordRing.storeSequence, words_slot ring capacity small]
  exact Function.apply_update (fun _ => BitVec.ofNat w) ring.sequence (ring.slot pos) value index

theorem words_storeData (pos : Nat) (item : Option τ) : (ring.storeData pos item).words w =
    (ring.words w).storeData (BitVec.ofNat w pos) item := by
  rw [WordRing.storeData, words_slot ring capacity small]
  rfl

end

structure Words (w exponent : Nat) (ring : LockFreeMPMCQueue τ) (list : BoundedList τ) : Prop where
  represents : Represents ring list.items
  capacity : ring.capacity = 2 ^ exponent
  popped : ring.dequeuePos = list.popped
  small : exponent + 2 ≤ w

namespace Words

variable {w exponent : Nat} {ring : LockFreeMPMCQueue τ} {list : BoundedList τ}
variable (words : Words w exponent ring list)
include words

theorem fits : exponent ≤ w := Nat.le_trans (Nat.le_add_right _ _) words.small

/-- A sequence number and a position that are at most the capacity apart. -/
theorem difference (pos other : Nat) (below : ring.tag pos ≤ other + ring.capacity)
    (above : other ≤ ring.tag pos + ring.capacity) :
    (ring.words w).diff (BitVec.ofNat w pos) (BitVec.ofNat w other) =
      (ring.tag pos : Int) - other := by
  have small := words.small
  have half : 2 * ring.capacity ≤ 2 ^ (w - 1) := by
    rw [words.capacity, ← Nat.pow_succ']
    exact Nat.pow_le_pow_right (by decide) (by omega)
  have two := ring.atLeastTwo
  rw [WordRing.diff, words_slot ring words.capacity words.fits]
  change (BitVec.ofNat w (ring.tag pos) - BitVec.ofNat w other).toInt = _
  exact toInt_ofNat_sub (by omega) (by omega) (by omega)

theorem tryPush (item : τ) : ∃ after,
    (ring.words w).tryPush item = some (decide (list.items.length < ring.capacity), after.words w) ∧
    Words w exponent after { list with
      items := if list.items.length < ring.capacity then list.items ++ [item] else list.items } := by
  have two := ring.atLeastTwo
  have diff := words.difference ring.enqueuePos ring.enqueuePos
  by_cases room : list.items.length < ring.capacity
  · have free := words.represents.free room
    rw [if_pos room, decide_eq_true room]
    refine ⟨(ring.claim.storeData ring.enqueuePos (some item)).publish ring.enqueuePos, ?_,
      words.represents.push room, words.capacity, words.popped, words.small⟩
    refine (if_pos ((diff (by omega) (by omega)).trans (by omega))).trans ?_
    rw [LockFreeMPMCQueue.publish, words_storeSequence (ring.claim.storeData _ _) words.capacity
      words.fits, words_storeData ring.claim words.capacity words.fits, words_claim,
      BitVec.ofNat_add]
    rfl
  · have full := words.represents.full room
    rw [if_neg room, decide_eq_false room]
    have negative := (diff (by omega) (by omega)).trans_lt
      (by omega : (ring.tag ring.enqueuePos : Int) - ring.enqueuePos < 0)
    exact ⟨ring, (if_neg negative.ne).trans (if_pos negative), words⟩

theorem head_difference : (ring.words w).diff (ring.words w).dequeuePos
    ((ring.words w).dequeuePos + 1) = if list.items.isEmpty then -1 else 0 := by
  have diff := words.difference ring.dequeuePos (ring.dequeuePos + 1)
  rw [BitVec.ofNat_add] at diff
  have two := ring.atLeastTwo
  have represents := words.represents
  cases items : list.items with
  | nil =>
    have head := (items ▸ represents).empty_head
    exact (diff (by omega) (by omega)).trans (by rw [head]; simp)
  | cons item rest =>
    have head : ring.tag ring.dequeuePos = ring.dequeuePos + 1 := (items ▸ represents).full_head
    exact (diff (by omega) (by omega)).trans (by rw [head]; simp)

theorem head_stored {item : τ} {rest : List τ} (items : list.items = item :: rest) :
    (ring.words w).data ((ring.words w).slot (ring.words w).dequeuePos) = some item := by
  rw [← (items ▸ words.represents : Represents ring (item :: rest)).head]
  exact congrArg ring.data (words_slot ring words.capacity words.fits _)

theorem tryPop : ∃ after, (ring.words w).tryPop = some (list.items.head?, after.words w) ∧
    Words w exponent after ⟨list.items.tail, list.popped + min 1 list.items.length⟩ := by
  unfold WordRing.tryPop
  rw [words.head_difference]
  cases items : list.items with
  | nil =>
    exact ⟨ring, rfl, (items ▸ words.represents : Represents ring []), words.capacity,
      words.popped, words.small⟩
  | cons item rest =>
    refine ⟨(ring.take.storeData ring.dequeuePos none).release ring.dequeuePos, ?_,
      (items ▸ words.represents : Represents ring (item :: rest)).pop, words.capacity, ?_,
      words.small⟩
    · rw [LockFreeMPMCQueue.release, words_storeSequence (ring.take.storeData _ _) words.capacity
        words.fits, words_storeData ring.take words.capacity words.fits, words_take,
        BitVec.ofNat_add, words.head_stored items]
      rfl
    · change ring.dequeuePos + 1 = list.popped + min 1 (rest.length + 1)
      rw [words.popped]
      omega

theorem tryPeek : (ring.words w).tryPeek = list.items.head? := by
  unfold WordRing.tryPeek
  rw [words.head_difference]
  cases items : list.items with
  | nil => rfl
  | cons item rest => exact words.head_stored items

theorem size : (ring.words w).size = if list.Even w then list.items.length else 0 := by
  have bounded := words.represents.bounded
  have less : list.items.length < 2 ^ w := by
    refine bounded.trans_lt ?_
    rw [words.capacity]
    exact Nat.pow_lt_pow_right (by decide) (by have := words.small; omega)
  have length := words.represents.length
  have even : (ring.words w).dequeuePos ≤ (ring.words w).enqueuePos ↔ list.Even w := by
    change (BitVec.ofNat w _).toNat ≤ (BitVec.ofNat w _).toNat ↔ _
    rw [BitVec.toNat_ofNat, BitVec.toNat_ofNat, length, words.popped]
    rfl
  have held : ((ring.words w).enqueuePos - (ring.words w).dequeuePos).toNat = list.items.length := by
    change (BitVec.ofNat w ring.enqueuePos - BitVec.ofNat w ring.dequeuePos).toNat = _
    rw [length, Nat.add_comm, BitVec.ofNat_add, BitVec.add_sub_cancel, BitVec.toNat_ofNat,
      Nat.mod_eq_of_lt less]
  rw [WordRing.size, held]
  exact if_congr even rfl rfl

/-- One call: the ring goes on as the list, and answers as the list does where it can. -/
theorem call (call : RingCall τ) : ∃ answer after,
    (ring.words w).call call = some (answer, after.words w) ∧
    Words w exponent after (list.call (2 ^ exponent) call).2 ∧
    (answer = (list.call (2 ^ exponent) call).1 ↔ list.Answers (2 ^ exponent) w call) := by
  have size := words.size
  have bounded := words.represents.bounded
  have two := ring.atLeastTwo
  have uneven (split : ¬ list.Even w) : list.items.length ≠ 0 := fun none => split (by
    rw [BoundedList.Even, none]; rfl)
  cases call with
  | tryPush item =>
    obtain ⟨after, made, kept⟩ := words.tryPush item
    rw [words.capacity] at made kept
    exact ⟨_, after, congrArg (Option.map _) made, kept, iff_of_true rfl trivial⟩
  | tryPop =>
    obtain ⟨after, made, kept⟩ := words.tryPop
    exact ⟨_, after, congrArg (Option.map _) made, kept, iff_of_true rfl trivial⟩
  | tryPeek =>
    exact ⟨_, ring, rfl, words, iff_of_true (congrArg RingAnswer.found words.tryPeek) trivial⟩
  | size =>
    refine ⟨_, ring, rfl, words, ?_⟩
    rw [size]
    by_cases even : list.Even w
    · simp [BoundedList.call, BoundedList.Answers, even]
    · simpa [BoundedList.call, BoundedList.Answers, even, eq_comm] using uneven even
  | empty =>
    refine ⟨_, ring, rfl, words, ?_⟩
    rw [size]
    by_cases even : list.Even w
    · simp [BoundedList.call, BoundedList.Answers, even]
    · simpa [BoundedList.call, BoundedList.Answers, even] using uneven even
  | isFull =>
    refine ⟨_, ring, rfl, words, ?_⟩
    rw [size]
    by_cases even : list.Even w
    · simp [BoundedList.call, BoundedList.Answers, even, LockFreeMPMCQueue.words, words.capacity]
    · rw [words.capacity] at bounded
      simp [BoundedList.call, BoundedList.Answers, even, LockFreeMPMCQueue.words, words.capacity]
      omega

end Words

theorem Words.session {w exponent : Nat} (calls : List (RingCall τ)) :
    ∀ {ring : LockFreeMPMCQueue τ} {list : BoundedList τ}, Words w exponent ring list →
      ((ring.words w).session calls = some (list.session (2 ^ exponent) calls) ↔
        list.AnswersAll (2 ^ exponent) w calls) := by
  induction calls with
  | nil => exact fun _ => iff_of_true rfl trivial
  | cons call rest ih =>
    intro ring list words
    obtain ⟨answer, after, made, kept, right⟩ := words.call call
    rw [BoundedList.AnswersAll, ← right, ← ih kept, WordRing.session, made]
    change Option.map (answer :: ·) _ = some (_ :: _) ↔ _
    rw [Option.map_eq_some_iff]
    constructor
    · rintro ⟨answers, found, same⟩
      cases same
      exact ⟨rfl, found⟩
    · rintro ⟨rfl, found⟩
      exact ⟨_, found, rfl⟩

/-- A ring of at most `2 ^ (w - 2)` cells is a bounded list for one thread, exactly when no `size()`
and no `empty()` comes between the wraps of the two positions, and no `isFull()` on a full ring. -/
theorem wrapped_ring_is_list_iff {w exponent : Nat} (two : 1 ≤ exponent) (small : exponent + 2 ≤ w)
    (calls : List (RingCall τ)) :
    ({ capacity := 2 ^ exponent } : WordRing w τ).session calls =
        some (BoundedList.session (2 ^ exponent) {} calls) ↔
      BoundedList.AnswersAll (2 ^ exponent) w {} calls := by
  have atLeastTwo : 2 ^ 1 ≤ 2 ^ exponent := Nat.pow_le_pow_right (by decide) two
  have fresh : Words w exponent (⟨2 ^ exponent, atLeastTwo, id, fun _ => none, 0, 0⟩ :
      LockFreeMPMCQueue τ) {} := by
    refine ⟨⟨⟨le_rfl, Nat.zero_le _, Multiset.nodup_zero, Multiset.nodup_zero, by simp, by simp,
      fun _ _ none => absurd none (Nat.not_lt_zero _), fun pos _ inside _ => ?_⟩, rfl, by simp⟩,
      rfl, rfl, small⟩
    exact Nat.mod_eq_of_lt (by simpa using inside)
  exact fresh.session calls

/-- Both positions wrap, after eight pushes and eight pops; `size()` comes after that. -/
theorem wrapped_ring_is_list_past_wraps :
    let calls := (List.replicate 8 [RingCall.tryPush 5, .tryPop]).flatten ++ [.tryPush 5, .size, .empty]
    ({ capacity := 2 } : WordRing 3 Nat).session calls = some (BoundedList.session 2 {} calls) ∧
      (BoundedList.session 2 {} calls).drop 17 = [.size 1, .flag false] := by
  refine ⟨(@wrapped_ring_is_list_iff Nat 3 1 (by decide) (by decide) _).mpr ?_, by decide⟩
  simp [BoundedList.AnswersAll, BoundedList.Answers, BoundedList.call, BoundedList.Even]

/-- After eight pushes and seven pops on three bits there is one item, and `size()` is zero. -/
theorem wrapped_size_is_zero :
    let calls := (List.replicate 7 [RingCall.tryPush 5, .tryPop]).flatten ++ [.tryPush 5, .size, .empty]
    (({ capacity := 2 } : WordRing 3 Nat).session calls).map (List.drop 15) =
        some [.size 0, .flag true] ∧
      (BoundedList.session 2 {} calls).drop 15 = [.size 1, .flag false] := by
  decide +kernel

end AiPipe
