import Mathlib.Data.Fin.Tuple.Sort
import Mathlib.Order.Interval.Finset.Fin
import Mathlib.Data.Fintype.Card

/-!
Merging ranked lanes.  A sweep takes the heads when they are within reach of each other, and
otherwise discards every head out of reach of another one.  Along ordered lanes no other choice
of disjoint selections is larger than the one that it takes.
-/

namespace Merge

open List

variable {ι α : Type} [LinearOrder α]

structure Lanes (ι α : Type) where
  size : ι → ℕ
  rank : ι → ℕ → α

namespace Lanes

variable (lanes : Lanes ι α) (reach : α → α)

def Ordered : Prop :=
  ∀ lane first second, first ≤ second → second < lanes.size lane →
    lanes.rank lane first ≤ lanes.rank lane second

def Within (choice : ι → ℕ) : Prop :=
  (∀ lane, choice lane < lanes.size lane) ∧
    ∀ lane other, lanes.rank lane (choice lane) ≤ reach (lanes.rank other (choice other))

def Stale (cursor : ι → ℕ) (lane : ι) : Prop :=
  ∃ other, reach (lanes.rank lane (cursor lane)) < lanes.rank other (cursor other)

end Lanes

inductive Event (ι : Type) where
  | take (choice : ι → ℕ)
  | discard (lane : ι) (position : ℕ)

namespace Event

def Takes (lane : ι) (position : ℕ) : Event ι → Prop
  | .take choice => choice lane = position
  | .discard _ _ => False

def isTake : Event ι → Bool
  | .take _ => true
  | .discard _ _ => false

def removes [DecidableEq ι] (lane : ι) : Event ι → List ℕ
  | .take choice => [choice lane]
  | .discard other position => if other = lane then [position] else []

end Event

variable [DecidableEq ι]

def advance (stale : List ι) (cursor : ι → ℕ) (lane : ι) : ℕ :=
  if lane ∈ stale then cursor lane + 1 else cursor lane

inductive Sweep (lanes : Lanes ι α) (reach : α → α) : (ι → ℕ) → List (Event ι) → (ι → ℕ) → Prop
  | stop {cursor : ι → ℕ} (dry : Nonempty ι → ∃ lane, lanes.size lane ≤ cursor lane) :
      Sweep lanes reach cursor [] cursor
  | take {cursor final : ι → ℕ} {events : List (Event ι)} (some : Nonempty ι)
      (within : lanes.Within reach cursor)
      (rest : Sweep lanes reach (fun lane => cursor lane + 1) events final) :
      Sweep lanes reach cursor (.take cursor :: events) final
  | discard {cursor final : ι → ℕ} {events : List (Event ι)} {stale : List ι}
      (inside : ∀ lane, cursor lane < lanes.size lane) (distinct : stale.Nodup)
      (exactly : ∀ lane, lane ∈ stale ↔ lanes.Stale reach cursor lane)
      (rest : Sweep lanes reach (advance stale cursor) events final) :
      Sweep lanes reach cursor (stale.map (fun lane => .discard lane (cursor lane)) ++ events) final

section Sound

variable {lanes : Lanes ι α} {reach : α → α} {cursor final : ι → ℕ} {events : List (Event ι)}

section

variable (sweep : Sweep lanes reach cursor events final)
include sweep

theorem Sweep.within : ∀ choice, Event.take choice ∈ events → lanes.Within reach choice := by
  intro choice taken
  induction sweep with
  | stop => exact absurd taken not_mem_nil
  | take _ within _ ih =>
    rcases mem_cons.mp taken with same | later
    · rw [Event.take.inj same]
      exact within
    · exact ih later
  | discard _ _ _ _ ih =>
    rcases mem_append.mp taken with dropped | later
    · simp at dropped
    · exact ih later

theorem Sweep.bounded (start : ∀ lane, cursor lane ≤ lanes.size lane) :
    ∀ lane, final lane ≤ lanes.size lane := by
  induction sweep with
  | stop => exact start
  | take _ within _ ih => exact ih within.1
  | discard inside _ _ _ ih =>
    refine ih fun lane => ?_
    have bound := inside lane
    unfold advance
    split <;> omega

theorem Sweep.nonempty : ∀ choice, Event.take choice ∈ events → Nonempty ι := by
  intro choice taken
  induction sweep with
  | stop => exact absurd taken not_mem_nil
  | take some _ _ _ => exact some
  | discard _ _ _ _ ih =>
    rcases mem_append.mp taken with dropped | later
    · simp at dropped
    · exact ih later

theorem Sweep.dry : Nonempty ι → ∃ lane, lanes.size lane ≤ final lane := by
  induction sweep with
  | stop dry => exact dry
  | take _ _ _ ih => exact ih
  | discard _ _ _ _ ih => exact ih

end

omit [DecidableEq ι] in
theorem Lanes.Stale.hopeless (ordered : lanes.Ordered) {lane : ι}
    (stale : lanes.Stale reach cursor lane) {choice : ι → ℕ} (within : lanes.Within reach choice)
    (later : ∀ lane, cursor lane ≤ choice lane) : cursor lane ≠ choice lane := by
  obtain ⟨other, far⟩ := stale
  intro same
  rw [same] at far
  have near := within.2 other lane
  have older := ordered other _ _ (later other) (within.1 other)
  exact lt_irrefl _ (far.trans_le (older.trans near))

theorem advance_le {stale : List ι} {choice : ι → ℕ} (later : ∀ lane, cursor lane ≤ choice lane)
    (spared : ∀ lane ∈ stale, cursor lane ≠ choice lane) :
    ∀ lane, advance stale cursor lane ≤ choice lane := by
  intro lane
  have bound := later lane
  unfold advance
  split
  next here =>
    have apart := spared lane here
    omega
  next => exact bound

theorem Sweep.discarded (ordered : lanes.Ordered)
    (sweep : Sweep lanes reach cursor events final) {choice : ι → ℕ}
    (within : lanes.Within reach choice) (later : ∀ lane, cursor lane ≤ choice lane) :
    ∀ before lane after, events = before ++ .discard lane (choice lane) :: after →
      ∃ event ∈ before, ∃ other, event.Takes other (choice other) := by
  induction sweep with
  | stop => intro before lane after split; simp at split
  | @take cursor _ _ _ _ _ ih =>
    intro before lane after split
    cases before with
    | nil => simp at split
    | cons event before =>
      obtain ⟨rfl, others⟩ := List.cons.inj split
      by_cases meets : ∃ other, cursor other = choice other
      · obtain ⟨other, same⟩ := meets
        exact ⟨_, mem_cons_self, other, same⟩
      · have beyond : ∀ lane, cursor lane + 1 ≤ choice lane := by
          intro lane
          have bound := later lane
          have apart : cursor lane ≠ choice lane := fun same => meets ⟨lane, same⟩
          omega
        obtain ⟨event, here, taken⟩ := ih beyond before lane after others
        exact ⟨event, mem_cons_of_mem _ here, taken⟩
  | @discard cursor _ _ stale _ _ exactly _ ih =>
    intro before lane after split
    have spared : ∀ lane ∈ stale, cursor lane ≠ choice lane := fun lane here =>
      ((exactly lane).mp here).hopeless ordered within later
    have beyond := advance_le later spared
    rcases append_eq_append_iff.mp split with ⟨more, rfl, others⟩ | ⟨more, dropped, others⟩
    · obtain ⟨event, here, taken⟩ := ih beyond more lane after others
      exact ⟨event, mem_append_right _ here, taken⟩
    · cases more with
      | nil =>
        obtain ⟨event, here, -⟩ := ih beyond [] lane after others.symm
        exact absurd here not_mem_nil
      | cons event more =>
        obtain ⟨rfl, -⟩ := List.cons.inj others
        have member : Event.discard lane (choice lane) ∈
            stale.map fun lane => Event.discard lane (cursor lane) := by
          rw [dropped]
          exact mem_append_right _ mem_cons_self
        obtain ⟨other, here, same⟩ := mem_map.mp member
        obtain ⟨rfl, equal⟩ := Event.discard.inj same
        exact absurd equal (spared other here)

theorem removes_discards {stale : List ι} (distinct : stale.Nodup) (cursor : ι → ℕ) (lane : ι) :
    (stale.map fun lane => Event.discard lane (cursor lane)).flatMap (Event.removes lane) =
      if lane ∈ stale then [cursor lane] else [] := by
  induction stale with
  | nil => rfl
  | cons first stale ih =>
    obtain ⟨new, distinct⟩ := nodup_cons.mp distinct
    rw [map_cons, flatMap_cons, ih distinct]
    by_cases same : first = lane
    · subst same
      simp [Event.removes, new]
    · simp [Event.removes, same, Ne.symm same]

theorem Sweep.removed (sweep : Sweep lanes reach cursor events final) (lane : ι) :
    cursor lane ≤ final lane ∧
      events.flatMap (Event.removes lane) = List.range' (cursor lane) (final lane - cursor lane) := by
  induction sweep with
  | stop => simp
  | take _ _ _ ih =>
    obtain ⟨bound, removed⟩ := ih
    dsimp only at bound removed
    refine ⟨by omega, ?_⟩
    rw [flatMap_cons, removed, Event.removes, singleton_append, ← List.range'_succ]
    congr 1
    omega
  | @discard cursor final _ stale _ distinct _ _ ih =>
    obtain ⟨bound, removed⟩ := ih
    rw [flatMap_append, removes_discards distinct, removed]
    unfold advance at bound ⊢
    by_cases here : lane ∈ stale
    · simp only [here, ↓reduceIte] at bound ⊢
      refine ⟨by omega, ?_⟩
      rw [singleton_append, ← List.range'_succ]
      congr 1
      omega
    · simp only [here, ↓reduceIte, nil_append] at bound ⊢
      exact ⟨bound, trivial⟩

end Sound

/-! No choice of disjoint selections is larger than the one that a sweep takes. -/

structure Family (lanes : Lanes ι α) (reach : α → α) (cursor : ι → ℕ) {count : ℕ}
    (choices : Fin count → ι → ℕ) : Prop where
  within : ∀ set, lanes.Within reach (choices set)
  later : ∀ set lane, cursor lane ≤ choices set lane
  apart : ∀ lane, Function.Injective fun set => choices set lane

section Optimal

variable {lanes : Lanes ι α} {reach : α → α} {cursor final : ι → ℕ} {events : List (Event ι)}
  {count : ℕ} {choices : Fin count → ι → ℕ}

def sorted (choices : Fin count → ι → ℕ) (set : Fin count) (lane : ι) : ℕ :=
  choices (Tuple.sort (fun set => choices set lane) set) lane

omit [DecidableEq ι] in
theorem sorted_strict (apart : ∀ lane, Function.Injective fun set => choices set lane) (lane : ι) :
    StrictMono fun set => sorted choices set lane := by
  have increasing := Tuple.monotone_sort fun set => choices set lane
  refine increasing.strictMono_of_injective ?_
  exact (apart lane).comp (Equiv.injective _)

omit [DecidableEq ι] in
/-- The sorted rows are selections again: were two items of row `set` out of reach, then `set + 1`
items of one lane would have their partners among the `set` items before it. -/
theorem Family.sorted (ordered : lanes.Ordered) (mono : Monotone reach)
    (family : Family lanes reach cursor choices) :
    Family lanes reach cursor (Merge.sorted choices) := by
  have strict := sorted_strict family.apart
  refine ⟨fun set => ⟨fun lane => (family.within _).1 lane, fun lane other => ?_⟩,
    fun set lane => family.later _ lane, fun lane => (strict lane).injective⟩
  by_contra far
  rw [not_le] at far
  let place := Tuple.sort fun set => choices set lane
  let partner := Tuple.sort fun set => choices set other
  have early : ∀ row ∈ Finset.Iic set, place.symm (partner row) ∈ Finset.Iio set := by
    intro row before
    have row_le : Merge.sorted choices row other ≤ Merge.sorted choices set other :=
      (strict other).monotone (Finset.mem_Iic.mp before)
    have lower := ordered other _ _ row_le ((family.within _).1 other)
    have near := (family.within (partner row)).2 lane other
    have less : lanes.rank lane (choices (partner row) lane) <
        lanes.rank lane (Merge.sorted choices set lane) :=
      (near.trans (mono lower)).trans_lt far
    have position : choices (partner row) lane < Merge.sorted choices set lane := by
      by_contra after
      exact absurd (ordered lane _ _ (not_lt.mp after) ((family.within _).1 lane)) (not_le.mpr less)
    rw [Finset.mem_Iio, ← (strict lane).lt_iff_lt]
    simpa [Merge.sorted, place] using position
  have fewer := Finset.card_le_card_of_injOn (fun row => place.symm (partner row)) early
    (fun first _ second _ same => partner.injective (place.symm.injective same))
  rw [Fin.card_Iic, Fin.card_Iio] at fewer
  omega

theorem Sweep.optimal (ordered : lanes.Ordered) (mono : Monotone reach) (some : Nonempty ι)
    (sweep : Sweep lanes reach cursor events final)
    (family : Family lanes reach cursor choices) : count ≤ events.countP Event.isTake := by
  induction sweep generalizing count with
  | stop dry =>
    obtain ⟨lane, used⟩ := dry some
    cases count with
    | zero => exact Nat.zero_le _
    | succ count =>
      have inside := (family.within 0).1 lane
      have later := family.later 0 lane
      omega
  | @take cursor _ _ _ _ _ ih =>
    cases count with
    | zero => exact Nat.zero_le _
    | succ count =>
      have rows := family.sorted ordered mono
      have strict := sorted_strict family.apart
      have rest : Family lanes reach (fun lane => cursor lane + 1)
          (fun set => Merge.sorted choices set.succ) := by
        refine ⟨fun set => rows.within _, fun set lane => ?_, fun lane => ?_⟩
        · have first := rows.later 0 lane
          have next := strict lane (Fin.succ_pos set)
          exact Nat.succ_le_of_lt (first.trans_lt next)
        · exact (strict lane).injective.comp (Fin.succ_injective count)
      have bound := ih rest
      rw [countP_cons]
      simp only [Event.isTake, ↓reduceIte]
      omega
  | @discard cursor _ _ stale _ _ exactly _ ih =>
    have rest : Family lanes reach (advance stale cursor) choices := by
      refine ⟨family.within, fun set => advance_le (family.later set) fun lane here => ?_,
        family.apart⟩
      exact ((exactly lane).mp here).hopeless ordered (family.within set) (family.later set)
    have bound := ih rest
    rw [countP_append]
    omega

end Optimal

/-! Equal ranks only: a sweep computes the intersection of its lanes. -/

def taken : List (Event ι) → List (ι → ℕ) :=
  List.filterMap fun
    | .take choice => some choice
    | .discard _ _ => none

omit [DecidableEq ι] in
theorem mem_taken {events : List (Event ι)} {choice : ι → ℕ} :
    choice ∈ taken events ↔ Event.take choice ∈ events := by
  unfold taken
  rw [mem_filterMap]
  constructor
  · rintro ⟨event, here, same⟩
    cases event with
    | take other =>
      obtain rfl := Option.some.inj same
      exact here
    | discard => cases same
  · intro here
    exact ⟨_, here, rfl⟩

omit [DecidableEq ι] in
theorem length_taken (events : List (Event ι)) :
    (taken events).length = events.countP Event.isTake := by
  induction events with
  | nil => rfl
  | cons event rest ih =>
    cases event with
    | take choice =>
      rw [countP_cons_of_pos rfl, ← ih]
      rfl
    | discard lane position =>
      rw [countP_cons_of_neg (by simp [Event.isTake]), ← ih]
      rfl

def Lanes.Strict (lanes : Lanes ι α) : Prop :=
  ∀ lane first second, first < second → second < lanes.size lane →
    lanes.rank lane first < lanes.rank lane second

section Intersection

variable {lanes : Lanes ι α} {cursor final : ι → ℕ} {events : List (Event ι)}

omit [DecidableEq ι] in
theorem Lanes.Strict.ordered (strict : lanes.Strict) : lanes.Ordered := by
  intro lane first second le inside
  rcases le.eq_or_lt with rfl | lt
  · exact le_refl _
  · exact (strict lane first second lt inside).le

omit [DecidableEq ι] in
theorem Lanes.Strict.position_eq (strict : lanes.Strict) {lane : ι} {first second : ℕ}
    (inside : first < lanes.size lane) (inside' : second < lanes.size lane)
    (same : lanes.rank lane first = lanes.rank lane second) : first = second := by
  rcases lt_trichotomy first second with less | equal | more
  · exact absurd same (strict lane _ _ less inside').ne
  · exact equal
  · exact absurd same (strict lane _ _ more inside).ne'

omit [DecidableEq ι] in
theorem Lanes.Within.equal {choice : ι → ℕ} (within : lanes.Within id choice) (lane other : ι) :
    lanes.rank lane (choice lane) = lanes.rank other (choice other) :=
  le_antisymm (within.2 lane other) (within.2 other lane)

variable {reach : α → α} {position : ℕ}

section

variable (sweep : Sweep lanes reach cursor events final)
include sweep

theorem Sweep.inside {lane : ι} (dropped : Event.discard lane position ∈ events) :
    position < lanes.size lane := by
  induction sweep with
  | stop => exact absurd dropped not_mem_nil
  | take _ _ _ ih => exact ih (by simpa using dropped)
  | discard inside _ _ _ ih =>
    rcases mem_append.mp dropped with first | later
    · obtain ⟨other, -, same⟩ := mem_map.mp first
      obtain ⟨rfl, rfl⟩ := Event.discard.inj same
      exact inside other
    · exact ih later

theorem Sweep.increasing :
    (taken events).Pairwise (fun first second => ∀ lane, first lane < second lane) ∧
      ∀ choice ∈ taken events, ∀ lane, cursor lane ≤ choice lane := by
  induction sweep with
  | stop => exact ⟨Pairwise.nil, fun _ here => absurd here not_mem_nil⟩
  | take _ _ _ ih =>
    obtain ⟨pairs, later⟩ := ih
    refine ⟨pairwise_cons.mpr ⟨fun choice here lane => ?_, pairs⟩, ?_⟩
    · exact later choice here lane
    · intro choice here lane
      rcases mem_cons.mp here with rfl | here
      · exact le_refl _
      · exact (Nat.le_succ _).trans (later choice here lane)
  | @discard cursor _ _ stale _ _ _ _ ih =>
    obtain ⟨pairs, later⟩ := ih
    have none : taken (stale.map fun lane => Event.discard lane (cursor lane)) = [] := by
      simp [taken]
    rw [taken, filterMap_append]
    change (taken (stale.map _) ++ taken _).Pairwise _ ∧ ∀ choice ∈ taken (stale.map _) ++ taken _, _
    rw [none, nil_append]
    refine ⟨pairs, fun choice here lane => le_trans ?_ (later choice here lane)⟩
    unfold advance
    split <;> omega

theorem Sweep.not_taken_before {before after : List (Event ι)} {lane : ι}
    (split : events = before ++ .discard lane position :: after) {choice : ι → ℕ}
    (here : Event.take choice ∈ before) : choice lane ≠ position := by
  intro same
  have removed := (sweep.removed lane).2
  have once : (events.flatMap (Event.removes lane)).Nodup := by
    rw [removed]
    exact nodup_range'
  rw [split, flatMap_append, nodup_append] at once
  refine once.2.2 position ?_ position ?_ rfl
  · exact mem_flatMap.mpr ⟨_, here, by simp [Event.removes, same]⟩
  · exact mem_flatMap.mpr ⟨_, mem_cons_self, by simp [Event.removes]⟩

end

variable (strict : lanes.Strict) (sweep : Sweep lanes id (fun _ => 0) events final)
include strict sweep

theorem Sweep.missing {lane : ι} (dropped : Event.discard lane position ∈ events) :
    ∃ other, ∀ place < lanes.size other, lanes.rank other place ≠ lanes.rank lane position := by
  by_contra everywhere
  push Not at everywhere
  choose choice inside same using everywhere
  have here : choice lane = position :=
    strict.position_eq (inside lane) (sweep.inside dropped) (same lane)
  have within : lanes.Within id choice :=
    ⟨inside, fun first second => ((same first).trans (same second).symm).le⟩
  obtain ⟨before, after, split⟩ := append_of_mem dropped
  rw [← here] at split
  obtain ⟨event, member, other, takes⟩ :=
    sweep.discarded strict.ordered within (fun _ => Nat.zero_le _) before lane after split
  cases event with
  | discard => exact takes
  | take chosen =>
    have chosenWithin := sweep.within chosen (by rw [split]; exact mem_append_left _ member)
    have rank : lanes.rank lane (chosen lane) = lanes.rank lane (choice lane) := by
      rw [chosenWithin.equal lane other, show chosen other = choice other from takes]
      exact within.equal other lane
    refine sweep.not_taken_before split member ?_
    exact strict.position_eq (chosenWithin.1 lane) (inside lane) rank

theorem Sweep.common (some : Nonempty ι) (rank : α)
    (everywhere : ∀ lane, ∃ position < lanes.size lane, lanes.rank lane position = rank) :
    ∃ choice ∈ taken events, ∀ lane, lanes.rank lane (choice lane) = rank := by
  choose choice inside same using everywhere
  have within : lanes.Within id choice :=
    ⟨inside, fun first second => ((same first).trans (same second).symm).le⟩
  suffices found : ∃ event ∈ events, ∃ other, event.Takes other (choice other) by
    obtain ⟨event, here, other, takes⟩ := found
    cases event with
    | discard => exact takes.elim
    | take chosen =>
      refine ⟨chosen, mem_taken.mpr here, fun lane => ?_⟩
      rw [(sweep.within chosen here).equal lane other, show chosen other = choice other from takes]
      exact same other
  obtain ⟨lane, dry⟩ := sweep.dry some
  have gone : choice lane ∈ events.flatMap (Event.removes lane) := by
    rw [(sweep.removed lane).2, mem_range'_1]
    have bound := inside lane
    omega
  obtain ⟨event, here, removes⟩ := mem_flatMap.mp gone
  cases event with
  | take chosen =>
    have equal : choice lane = chosen lane := by simpa [Event.removes] using removes
    exact ⟨_, here, lane, equal.symm⟩
  | discard other position =>
    simp only [Event.removes] at removes
    split at removes
    next equal =>
      subst equal
      obtain rfl : choice other = position := by simpa using removes
      obtain ⟨before, after, split⟩ := append_of_mem here
      obtain ⟨event, member, takes⟩ :=
        sweep.discarded strict.ordered within (fun _ => Nat.zero_le _) before other after split
      exact ⟨event, by rw [split]; exact mem_append_left _ member, takes⟩
    next => exact absurd removes not_mem_nil

end Intersection

end Merge
