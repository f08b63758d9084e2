import AiPipe.Queue.Accounting

/-!
The window of the KeepLatest policy.  A push that has read a small size, or has found nothing to
evict, holds a ticket to add one item.  `Window` bounds the positions together with the tickets
and the loads that may still become one.
-/

namespace AiPipe

open Concurrency PortFrame Multiset

variable {τ : Type}

namespace PortFrame

def loads : PortFrame τ → List Nat
  | .loaded enqueued _ => [enqueued]
  | _ => []

def deciding : PortFrame τ → Nat
  | .checking _ | .loaded _ _ => 1
  | _ => 0

def ticketed : PortFrame τ → Nat
  | .ticket _ => 1
  | _ => 0

variable (frames : Multiset (PortFrame τ))

theorem stages :
    total deciding frames + total ticketed frames + Multiset.card (collect unpublished frames) ≤
      total flying frames := by
  rw [card_collect, ← total_sum, ← total_sum]
  refine total_mono (fun frame => ?_) frames
  cases frame <;> simp [deciding, ticketed, unpublished, flying]

theorem loads_le : Multiset.card (collect loads frames) ≤ total deciding frames := by
  rw [card_collect]
  refine total_mono (fun frame => ?_) frames
  cases frame <;> simp [deciding, loads]

end PortFrame

def rank (bound : Nat) (values : Multiset Nat) : Nat :=
  Multiset.card (values.filter fun value => value ≤ bound)

theorem rank_cons (bound value : Nat) (values : Multiset Nat) :
    rank bound (value ::ₘ values) = rank bound values + if value ≤ bound then 1 else 0 := by
  by_cases small : value ≤ bound <;> simp [rank, small]

theorem rank_le_card (bound : Nat) (values : Multiset Nat) : rank bound values ≤ Multiset.card values :=
  card_le_card (filter_le ..)

theorem rank_mono {bound bound' : Nat} (less : bound ≤ bound') (values : Multiset Nat) :
    rank bound values ≤ rank bound' values :=
  card_le_card (monotone_filter_right _ fun _ small => small.trans less)

/-- A window of `keep` items that `producers` pushes share: `tickets` of them may add an item
each, and `loads` are the tails that others have read and will compare with the head. -/
structure Narrow (keep producers tail head tickets : Nat) (loads : Multiset Nat) : Prop where
  ahead : ∀ load ∈ loads, load ≤ tail
  bounded : tail + tickets + 1 ≤ head + keep + producers
  races : ∀ load ∈ loads,
    tail + tickets + rank load loads + 1 ≤ max (load + 1) (head + keep) + producers

namespace Narrow

variable {keep producers tail head tickets : Nat} {loads : Multiset Nat}

theorem load (narrow : Narrow keep producers tail head tickets loads)
    (room : tickets + Multiset.card loads + 1 ≤ producers) :
    Narrow keep producers tail head tickets (tail ::ₘ loads) := by
  refine ⟨fun value member => ?_, narrow.bounded, fun value member => ?_⟩
  · rcases mem_cons.mp member with rfl | earlier
    · exact le_rfl
    · exact narrow.ahead value earlier
  · have ranked := rank_le_card value loads
    rw [rank_cons]
    split
    · omega
    case isFalse behind =>
      have race := narrow.races value ((mem_cons.mp member).resolve_left (by omega))
      omega

theorem forget {value : Nat} (narrow : Narrow keep producers tail head tickets (value ::ₘ loads)) :
    Narrow keep producers tail head tickets loads := by
  refine ⟨fun other member => narrow.ahead other (mem_cons_of_mem member),
    narrow.bounded, fun other member => ?_⟩
  have race := narrow.races other (mem_cons_of_mem member)
  rw [rank_cons] at race
  omega

/-- A tail that was read turns into a ticket: the tails that were read before it and are
still compared would do so too. -/
theorem grant {value : Nat} (narrow : Narrow keep producers tail head tickets (value ::ₘ loads))
    (low : value < head + keep) : Narrow keep producers tail head (tickets + 1) loads := by
  have race := narrow.races value (mem_cons_self ..)
  rw [rank_cons, if_pos le_rfl] at race
  refine ⟨narrow.forget.ahead, by omega, fun other member => ?_⟩
  have later := narrow.races other (mem_cons_of_mem member)
  rw [rank_cons] at later
  split at later
  · omega
  case isFalse less =>
    have ranked := rank_mono (Nat.le_of_not_le less) loads
    omega

theorem claim (narrow : Narrow keep producers tail head (tickets + 1) loads) :
    Narrow keep producers (tail + 1) head tickets loads := by
  obtain ⟨ahead, bounded, races⟩ := narrow
  refine ⟨fun value member => Nat.le_succ_of_le (ahead value member), by omega,
    fun value member => ?_⟩
  have race := races value member
  omega

theorem take (narrow : Narrow keep producers tail head tickets loads) :
    Narrow keep producers tail (head + 1) tickets loads := by
  obtain ⟨ahead, bounded, races⟩ := narrow
  refine ⟨ahead, by omega, fun value member => ?_⟩
  have race := races value member
  omega

theorem refill (narrow : Narrow keep producers tail head tickets loads) (empty : tail = head)
    (positive : 0 < keep) (room : tickets + Multiset.card loads + 1 ≤ producers) :
    Narrow keep producers tail head (tickets + 1) loads := by
  refine ⟨narrow.ahead, by omega, fun value member => ?_⟩
  have ranked := rank_le_card value loads
  omega

end Narrow

structure Window (keep producers : Nat) (view : QueueView τ) (frames : Multiset (PortFrame τ)) :
    Prop where
  few : view.history.inFlight ≤ producers
  narrow : Narrow keep producers view.ring.enqueuePos view.ring.dequeuePos
    (total PortFrame.ticketed frames) (collect PortFrame.loads frames)

structure Alone (keep : Nat) (view : QueueView τ) (frames : Multiset (PortFrame τ)) : Prop where
  single : total PortFrame.flying frames ≤ 1
  fresh : ∀ load ∈ collect PortFrame.loads frames, load = view.ring.enqueuePos
  decided : total PortFrame.deciding frames = 0 →
    view.ring.enqueuePos + total PortFrame.ticketed frames ≤ view.ring.dequeuePos + keep

section Steps

variable {config : NodeQueueConfig τ} {port keep producers : Nat}
variable {label : QueueLabel} {view view' : QueueView τ} {others frames : Multiset (PortFrame τ)}
variable {top top' : List (PortFrame τ)} {item : τ}

theorem RingSound.missed {pos : Nat}
    (sound : RingSound view (others + (([.popAt pos, .checking item] : List (PortFrame τ)) :
      Multiset _)))
    (low : view.ring.tag pos < pos + 1) (calm : view.unpublished = 0) :
    view.ring.enqueuePos = view.ring.dequeuePos := by
  have coherent := sound.coherent
  rw [card_eq_zero.mp (sound.counted.symm.trans calm)] at coherent
  exact coherent.empty (sound.topFits _ List.mem_cons_self) low

theorem CallBooks.room (calls : CallBooks view (others + top))
    (few : view.history.inFlight ≤ producers)
    (decides : (top.map PortFrame.deciding).sum = 1) :
    total PortFrame.ticketed others + Multiset.card (collect PortFrame.loads others) + 1 ≤
      producers := by
  have stages := stages (others + (top : Multiset _))
  have fewer := loads_le others
  rw [← calls.flying, total_add, total_add, decides] at stages
  omega

theorem CallBooks.calm (calls : CallBooks view (others + top))
    (sound : RingSound view (others + top))
    (few : view.history.inFlight ≤ 1) (decides : (top.map PortFrame.deciding).sum = 1) :
    view.unpublished = 0 := by
  have stages := stages (others + (top : Multiset _))
  rw [← calls.flying, total_add, decides, ← sound.counted] at stages
  omega

theorem Window.swap (window : Window keep producers view (others + top))
    (few : view'.history.inFlight ≤ producers)
    (enqueued : view'.ring.enqueuePos = view.ring.enqueuePos)
    (dequeued : view'.ring.dequeuePos = view.ring.dequeuePos)
    (loads : top'.flatMap PortFrame.loads = top.flatMap PortFrame.loads)
    (tickets : (top'.map PortFrame.ticketed).sum = (top.map PortFrame.ticketed).sum) :
    Window keep producers view' (others + top') := by
  refine ⟨few, ?_⟩
  rw [total_add, tickets, ← total_add, collect_same loads, enqueued, dequeued]
  exact window.narrow

theorem Window.move (positive : 0 < config.targetKeep)
    (moved : PortMove config port label view top view' top')
    (begins : label = .begin port → view.history.inFlight < producers)
    (calm : label = .evict port → producers ≤ 1 ∨ view.unpublished = 0)
    (sound : RingSound view (others + top))
    (calls : CallBooks view (others + top))
    (window : Window config.targetKeep producers view (others + top)) :
    Window config.targetKeep producers view' (others + top') := by
  have few := window.few
  have narrow := window.narrow
  rw [total_add] at narrow
  cases moved with
  | quiet => exact window
  | peak => exact ⟨few, window.narrow⟩
  | begin => exact window.swap (begins rfl) rfl rfl rfl rfl
  | finish => exact window.swap ((Nat.sub_le _ _).trans few) rfl rfl rfl rfl
  | loadSize =>
    rw [collect_none rfl] at narrow
    refine ⟨few, ?_⟩
    rw [total_add, collect_one rfl]
    exact narrow.load (calls.room few rfl)
  | small low =>
    rw [collect_one rfl] at narrow
    refine ⟨few, ?_⟩
    rw [total_add, collect_none rfl]
    exact narrow.grant low
  | large =>
    rw [collect_one rfl] at narrow
    refine ⟨few, ?_⟩
    rw [total_add, collect_none rfl]
    exact narrow.forget
  | miss low =>
    have quiet : view.unpublished = 0 :=
      (calm rfl).elim (fun single => calls.calm sound (few.trans single) rfl) id
    rw [collect_none rfl] at narrow
    refine ⟨few, ?_⟩
    rw [total_add, collect_none rfl]
    exact narrow.refill (sound.missed low quiet) positive (calls.room few rfl)
  | claim =>
    rw [collect_none rfl] at narrow
    refine ⟨few, ?_⟩
    rw [total_add, collect_none rfl]
    exact narrow.claim
  | take =>
    rw [collect_none rfl] at narrow
    refine ⟨few, ?_⟩
    rw [total_add, collect_none rfl]
    exact narrow.take
  | _ => exact window.swap few rfl rfl rfl rfl

theorem Window.ghost (policy : config.dropPolicy = .keepLatest)
    (shifted : PortGhost config false top top')
    (window : Window keep producers view (others + top)) :
    Window keep producers view (others + top') := by
  cases shifted with
  | ready other => exact absurd policy other
  | reject other => cases policy.symm.trans other
  | leaveFull raw | leave raw | keep raw => cases raw
  | _ => exact window.swap window.few rfl rfl rfl rfl

theorem Alone.swap (alone : Alone keep view (others + top))
    (enqueued : view'.ring.enqueuePos = view.ring.enqueuePos)
    (dequeued : view.ring.dequeuePos ≤ view'.ring.dequeuePos)
    (single : (top'.map PortFrame.flying).sum ≤ (top.map PortFrame.flying).sum)
    (loads : top'.flatMap PortFrame.loads = top.flatMap PortFrame.loads)
    (decides : (top'.map PortFrame.deciding).sum = (top.map PortFrame.deciding).sum)
    (tickets : (top'.map PortFrame.ticketed).sum = (top.map PortFrame.ticketed).sum) :
    Alone keep view' (others + top') := by
  refine ⟨?_, ?_, ?_⟩
  · have before := alone.single
    rw [total_add] at before ⊢
    omega
  · rw [collect_same loads, enqueued]
    exact alone.fresh
  · rw [total_add, decides, ← total_add, total_add _ _ top', tickets, ← total_add, enqueued]
    exact fun none => (alone.decided none).trans (Nat.add_le_add_right dequeued _)

theorem Alone.stage (single : total PortFrame.flying (others + (top : Multiset _)) ≤ 1)
    (flies : (top.map PortFrame.flying).sum = 1) (flies' : (top'.map PortFrame.flying).sum = 1)
    (fresh : ∀ load ∈ top'.flatMap PortFrame.loads, load = view.ring.enqueuePos)
    (decided : (top'.map PortFrame.deciding).sum = 0 →
      view.ring.enqueuePos + (top'.map PortFrame.ticketed).sum ≤ view.ring.dequeuePos + keep) :
    Alone keep view (others + top') := by
  have stages := stages others
  have fewer := loads_le others
  rw [total_add, flies] at single
  have unread : collect loads others = 0 := card_eq_zero.mp (by omega)
  have free : total ticketed others = 0 := by omega
  refine ⟨?_, ?_, ?_⟩
  · rw [total_add, flies']
    exact single
  · rw [collect_add, unread, zero_add]
    exact fresh
  · rw [total_add, total_add, free, Nat.zero_add]
    exact fun none => decided (Nat.eq_zero_of_add_eq_zero_left none)

theorem Alone.ticket (alone : Alone keep view (others + top))
    (ticket : (top.map PortFrame.ticketed).sum = 1) :
    view.ring.enqueuePos + 1 ≤ view.ring.dequeuePos + keep := by
  have stages := stages (others + (top : Multiset _))
  have single := alone.single
  have decided := alone.decided
  rw [total_add ticketed, ticket] at stages decided
  have small := decided (by omega)
  omega

theorem Alone.move (positive : 0 < config.targetKeep)
    (moved : PortMove config port label view top view' top')
    (sound : RingSound view (others + top))
    (calls : CallBooks view (others + top))
    (alone : view.history.crowded = false →
      Alone config.targetKeep view (others + top))
    (uncrowded : view'.history.crowded = false) :
    Alone config.targetKeep view' (others + top') := by
  cases moved with
  | begin item =>
    have nobody : view.history.inFlight = 0 := by
      simpa [QueueHistory.begin] using uncrowded
    rw [calls.flying, total_add] at nobody
    have single : total flying (others + (([.checking item] : List (PortFrame τ)) :
        Multiset _)) ≤ 1 := by
      rw [total_add]
      exact Nat.add_le_add_right (Nat.le_of_eq (Nat.eq_zero_of_add_eq_zero_right nobody)) 1
    exact .stage single rfl rfl (by simp [loads]) (fun none => by cases none)
  | loadSize =>
    exact .stage (alone uncrowded).single rfl rfl (by simp [loads])
      (fun none => by cases none)
  | @small _ enqueued _ low =>
    have alone := alone uncrowded
    have here : enqueued = view.ring.enqueuePos := by
      refine alone.fresh enqueued ?_
      rw [collect_one rfl]
      exact mem_cons_self ..
    exact .stage alone.single rfl rfl (by simp [loads]) fun _ => here ▸ low
  | large =>
    exact .stage (alone uncrowded).single rfl rfl (by simp [loads])
      (fun none => by cases none)
  | miss low =>
    have single := (alone uncrowded).single
    have empty := sound.missed low (calls.calm sound (calls.flying ▸ single) rfl)
    refine .stage single rfl rfl (by simp [loads]) fun _ => ?_
    change view.ring.enqueuePos + 1 ≤ view.ring.dequeuePos + config.targetKeep
    omega
  | claim =>
    have alone := alone uncrowded
    exact .stage alone.single rfl rfl (by simp [loads]) fun _ => alone.ticket rfl
  | take => exact (alone uncrowded).swap rfl (Nat.le_succ _) le_rfl rfl rfl rfl
  | quiet => exact alone uncrowded
  | peak =>
    obtain ⟨single, fresh, decided⟩ := alone uncrowded
    exact ⟨single, fresh, decided⟩
  | finish => exact (alone uncrowded).swap rfl le_rfl (Nat.zero_le _) rfl rfl rfl
  | _ => exact (alone uncrowded).swap rfl le_rfl le_rfl rfl rfl rfl

theorem Alone.ghost (policy : config.dropPolicy = .keepLatest)
    (shifted : PortGhost config false top top')
    (alone : Alone keep view (others + top)) :
    Alone keep view (others + top') := by
  cases shifted with
  | ready other => exact absurd policy other
  | reject other => cases policy.symm.trans other
  | leaveFull raw | leave raw | keep raw => cases raw
  | _ => exact alone.swap rfl le_rfl le_rfl rfl rfl rfl

end Steps

section Runs

variable (configs : Nat → NodeQueueConfig τ) {port : Nat} {capacity : Nat}
variable (atLeastTwo : 2 ≤ capacity) (tracked : Bool)
variable {rules : Rules (Ports τ) QueueLabel (QueueProc τ) QueueChoice}
variable {config : Config (Ports τ) QueueLabel (QueueProc τ) QueueChoice (QueueAnswer τ)}

theorem alone_of_run (policy : (configs port).dropPolicy = .keepLatest)
    (callers : ∀ procedure ports, rules.starts procedure ports → Calls port false procedure)
    (run : Reaches (QueueCode.bodyWith configs) rules
      ⟨Ports.unused τ capacity atLeastTwo tracked, []⟩ config) :
    ∃ frames, (config.shared.ring port).capacity = capacity ∧
      RingSound (config.shared.viewAt port) frames ∧
      CallBooks (config.shared.viewAt port) frames ∧
      ((config.shared.history port).crowded = false →
        Alone (configs port).targetKeep (config.shared.viewAt port) frames) := by
  have positive := (configs port).targetKeep_pos
  obtain ⟨entries, kept, _⟩ := port_invariant configs callers
    (fun view frames => view.ring.capacity = capacity ∧ RingSound view frames ∧
      CallBooks view frames ∧
      (view.history.crowded = false → Alone (configs port).targetKeep view frames))
    (fun _ _ _ _ _ _ _ _ moved ⟨size, sound, calls, alone⟩ =>
      ⟨moved.capacity.trans size, sound.move moved, calls.move moved,
        Alone.move positive moved sound calls alone⟩)
    (fun _ _ _ _ shifted ⟨size, sound, calls, alone⟩ =>
      ⟨size, sound.ghost shifted, calls.ghost shifted,
        fun uncrowded => (alone uncrowded).ghost policy shifted⟩)
    (fun _ _ _ raw => nomatch raw)
    ⟨rfl, .unused capacity atLeastTwo tracked, ⟨rfl, rfl⟩, fun _ => ⟨Nat.zero_le _,
      fun _ member => absurd member (notMem_zero _), fun _ => Nat.zero_le _⟩⟩ run
  exact ⟨allFrames entries, kept⟩

theorem window_of_run (policy : (configs port).dropPolicy = .keepLatest) {producers : Nat}
    (callers : ∀ procedure ports, rules.starts procedure ports → Calls port false procedure)
    (begins : ∀ choice ports, rules.allows (.begin port) choice ports →
      (ports.history port).inFlight < producers)
    (calm : producers ≤ 1 ∨ ∀ choice ports, rules.allows (.evict port) choice ports →
      ports.unpublished port = 0)
    (run : Reaches (QueueCode.bodyWith configs) rules
      ⟨Ports.unused τ capacity atLeastTwo tracked, []⟩ config) :
    ∃ frames, Window (configs port).targetKeep producers (config.shared.viewAt port) frames := by
  have positive := (configs port).targetKeep_pos
  obtain ⟨entries, ⟨_, _, kept⟩, _⟩ := port_invariant configs callers
    (fun view frames => RingSound view frames ∧ CallBooks view frames ∧
      Window (configs port).targetKeep producers view frames)
    (fun label choice ports _ _ _ _ allowed moved ⟨sound, calls, window⟩ =>
      ⟨sound.move moved, calls.move moved,
        window.move positive moved (fun here => begins choice ports (here ▸ allowed))
          (fun here => calm.imp_right fun calm => calm choice ports (here ▸ allowed)) sound calls⟩)
    (fun _ _ _ _ shifted ⟨sound, calls, window⟩ =>
      ⟨sound.ghost shifted, calls.ghost shifted, window.ghost policy shifted⟩)
    (fun _ _ _ raw => nomatch raw)
    ⟨.unused capacity atLeastTwo tracked, ⟨rfl, rfl⟩, Nat.zero_le _,
      fun _ member => absurd member (notMem_zero _), by
        change 0 + 0 + 1 ≤ 0 + _ + _
        omega, fun _ member => absurd member (notMem_zero _)⟩ run
  exact ⟨allFrames entries, kept⟩

/-- Pushes under KeepLatest with the window `N`.  The size is at most `N` after a push that ran
alone, and with one producer, or if no push stands before its publishing store whenever an
eviction loads a sequence, at most `N + producers - 1` always. -/
theorem keepLatest_window (policy : (configs port).dropPolicy = .keepLatest) {producers : Nat}
    (callers : ∀ procedure ports, rules.starts procedure ports → Calls port false procedure)
    (begins : ∀ choice ports, rules.allows (.begin port) choice ports →
      (ports.history port).inFlight < producers)
    (run : Reaches (QueueCode.bodyWith configs) rules
      ⟨Ports.unused τ capacity atLeastTwo tracked, []⟩ config) :
    let size := (config.shared.ring port).size
    let window := max (configs port).keepLatestN 1
    size ≤ capacity ∧
    ((config.shared.history port).inFlight = 0 → (config.shared.history port).crowded = false →
      size ≤ window) ∧
    ((producers ≤ 1 ∨ ∀ choice ports, rules.allows (.evict port) choice ports →
      ports.unpublished port = 0) → size ≤ min (window + producers - 1) capacity) := by
  obtain ⟨frames, size, sound, calls, alone⟩ :=
    alone_of_run configs atLeastTwo tracked policy callers run
  have bounded := sound.coherent.bounded
  have ordered := sound.coherent.ordered
  have flying := calls.flying
  simp only [Ports.viewAt, size] at bounded ordered flying
  have positions : (config.shared.ring port).size =
      (config.shared.ring port).enqueuePos - (config.shared.ring port).dequeuePos := if_pos ordered
  have fits : (config.shared.ring port).size ≤ capacity := by omega
  rw [← (configs port).targetKeep_eq]
  refine ⟨fits, fun landed uncrowded => ?_, fun calm => le_min ?_ fits⟩
  · have stages := stages frames
    have small := (alone uncrowded).decided (by omega)
    simp only [Ports.viewAt] at small
    omega
  · obtain ⟨frames, window⟩ :=
      window_of_run configs atLeastTwo tracked policy callers begins calm run
    have small := window.narrow.bounded
    simp only [Ports.viewAt] at small
    omega

end Runs

def latestQueue (_port : Nat) : NodeQueueConfig Nat where
  dropPolicy := .keepLatest

/-- Two producers; `watchful` evictions load a sequence only while nothing is unpublished. -/
def pairOfProducers (watchful : Bool) : QueueLabel → Ports Nat → Bool
  | .begin _, ports => (ports.history 0).inFlight < 2
  | .evict _, ports => !watchful || ports.unpublished 0 == 0
  | _, _ => true

theorem keepLatest_window_pair : ∃ config,
    Reaches (QueueCode.bodyWith latestQueue) (callReferee false (pairOfProducers true)).rules
      ⟨Ports.unused Nat 4 (by decide) false, []⟩ config ∧
    (config.shared.ring 0).size = 2 ∧ (config.shared.ring 0).size ≤ min (max 1 1 + 2 - 1) 4 := by
  obtain ⟨config, run, passed⟩ := played_reaches (QueueCode.bodyWith latestQueue)
    (callReferee false (pairOfProducers true)) ⟨Ports.unused Nat 4 (by decide) false, []⟩
    ([.start (.pushCall 0 5), .start (.pushCall 0 6)] ++
      portTurns 0 3 ++ portTurns 1 3 ++ portTurns 0 8 ++ portTurns 1 8)
    (fun config => (config.shared.ring 0).size = 2) (by decide +kernel)
  have begins : ∀ choice ports,
      (callReferee false (pairOfProducers true)).rules.allows (.begin 0) choice ports →
      (ports.history 0).inFlight < 2 := fun choice ports allowed => of_decide_eq_true allowed
  have bounded :=
    keepLatest_window latestQueue (by decide) false rfl callReferee_starts begins run
  refine ⟨config, run, passed, bounded.2.2 (.inr fun choice ports allowed => ?_)⟩
  simpa [callReferee, pairOfProducers, Referee.rules] using allowed

/-- One producer stops between its compare-exchange and its publishing store.  The other
then finds nothing to evict, and each of its pushes adds an item: three items for a window
of one and two producers. -/
theorem unpublished_head_widens : ∃ config,
    Reaches (QueueCode.bodyWith latestQueue) (callReferee false (pairOfProducers false)).rules
      ⟨Ports.unused Nat 4 (by decide) false, []⟩ config ∧
    min (max 1 1 + 2 - 1) 4 < (config.shared.ring 0).size :=
  played_reaches _ _ _
    (.start (.pushCall 0 5) :: portTurns 0 6 ++ .start (.pushCall 0 6) :: portTurns 1 15 ++
      .start (.pushCall 0 7) :: portTurns 2 15) _ (by decide +kernel)

end AiPipe
