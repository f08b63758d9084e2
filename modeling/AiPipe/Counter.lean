import AiPipe.Protocol.Clients
import Mathlib.Data.Multiset.Range

/-!
The count of active tasks.  An announced task is in the hands of one thread until it is counted
out; the counter is exact as long as no thread loses a task on the way.
-/

namespace AiPipe

open Concurrency Multiset

variable {π : Type}

def Frame.opened : Frame π → List Nat
  | .task id _ _ => [id]
  | _ => []

def Frame.settled : Frame π → List Nat
  | .settling id _ => [id]
  | .reporting id _ _ => [id]
  | _ => []

structure Books where
  announced : Nat
  decremented : List Nat
  ended : List Nat
  active : Int

def View.books (seen : View π) : Books where
  announced := seen.tasks.length
  decremented := seen.decremented
  ended := seen.ended
  active := seen.active

@[mk_iff] structure Books.Balanced (books : Books) (opened settled : Multiset Nat) : Prop where
  opened : opened + books.decremented = Multiset.range books.announced
  settled : (books.decremented : Multiset Nat) = settled + books.ended
  active : books.active = books.announced - books.decremented.length

inductive Books.Step : Books → List Nat → List Nat → Books → List Nat → List Nat → Prop
  | quiet {books opened settled} : Step books opened settled books opened settled
  | announce {books : Books} :
      Step books [] [] { books with
        announced := books.announced + 1
        active := books.active + 1 } [books.announced] []
  | decrement {books : Books} {id} :
      Step books [id] [] { books with
        active := books.active - 1
        decremented := books.decremented ++ [id] } [] [id]
  | finish {books : Books} {id} :
      Step books [] [id] { books with ended := books.ended ++ [id] } [] []
  | clear {books : Books} :
      (∀ id < books.announced, id ∈ books.decremented ∨ id ∈ books.ended) →
      Step books [] [] { books with active := 0 } [] []

theorem Books.Balanced.allOut {books : Books} {opened settled : Multiset Nat}
    (balanced : books.Balanced opened settled)
    (out : ∀ id < books.announced, id ∈ books.decremented ∨ id ∈ books.ended) :
    books.decremented.length = books.announced := by
  have decremented : ∀ id < books.announced, id ∈ books.decremented := by
    intro id bound
    rcases out id bound with here | ended
    · exact here
    · rw [← mem_coe, balanced.settled]
      exact mem_add.mpr (.inr ended)
  have none : opened = 0 := by
    refine eq_zero_of_forall_notMem fun id here => ?_
    have known : id ∈ Multiset.range books.announced := by
      rw [← balanced.opened]
      exact mem_add.mpr (.inl here)
    have twice := congrArg (Multiset.count id) balanced.opened
    have once := nodup_iff_count_le_one.mp (nodup_range books.announced) id
    have first := one_le_count_iff_mem.mpr here
    have second := List.one_le_count_iff.mpr (decremented id (mem_range.mp known))
    rw [count_add, coe_count] at twice
    omega
  have card := congrArg card balanced.opened
  simpa [none] using card

theorem Books.Balanced.step {books books' : Books} {opened opened' settled settled' : List Nat}
    (stepped : Books.Step books opened settled books' opened' settled')
    (others others' : Multiset Nat)
    (before : books.Balanced (others + opened) (others' + settled)) :
    books'.Balanced (others + opened') (others' + settled') := by
  cases stepped with
  | quiet => exact before
  | announce =>
    obtain ⟨opened, settled, active⟩ := before
    refine ⟨?_, settled, ?_⟩
    · rw [range_succ, ← opened, coe_singleton, coe_nil]
      simp only [← singleton_add]
      abel
    · simp only [active]
      omega
  | @decrement id =>
    obtain ⟨opened, settled, active⟩ := before
    simp only [coe_singleton, coe_nil, add_zero] at opened settled
    refine ⟨?_, ?_, ?_⟩
    · simp only [← coe_add, coe_singleton, coe_nil, ← opened]
      abel
    · simp only [← coe_add, coe_singleton, settled]
      abel
    · simp only [active, List.length_append, List.length_singleton]
      omega
  | @finish id =>
    obtain ⟨opened, settled, active⟩ := before
    refine ⟨opened, ?_, active⟩
    simp only [← coe_add, coe_singleton, coe_nil, settled]
    abel
  | clear out =>
    have length := before.allOut out
    obtain ⟨opened, settled, active⟩ := before
    exact ⟨opened, settled, by simp only [length, sub_self]⟩

def BooksMove (seen : View π) (top : List (Frame π)) (seen' : View π) (top' : List (Frame π)) :
    Prop :=
  Books.Step seen.books (top.flatMap Frame.opened) (top.flatMap Frame.settled)
    seen'.books (top'.flatMap Frame.opened) (top'.flatMap Frame.settled)

section Steps

variable {env : Env} {label : Label π} {choice : Choice π} {seen seen' : View π}
  {top top' : List (Frame π)}

theorem Move.keepsBooks (moved : Move env label choice seen top seen' top') (sound : .crashed ∉ top)
    (reset : top.any Frame.resets = true → label = .resetCounter →
      ∀ id < seen.tasks.length, id ∈ seen.decremented ∨ id ∈ seen.ended) :
    BooksMove seen top seen' top' := by
  cases moved with
  | control moved =>
    cases moved
    case wipe life target rest =>
      cases target
      case counter => exact .clear (reset rfl rfl)
      all_goals exact .quiet
    all_goals exact .quiet
  | schedule moved =>
    cases moved
    case announce =>
      have announced := @Books.Step.announce seen.books
      simpa [BooksMove, View.books, Frame.opened, Frame.settled] using announced
    all_goals exact .quiet
  | process moved =>
    cases moved
    case restoreFailed quit => cases quit <;> exact .quiet
    case fail quit => cases quit <;> exact .quiet
    all_goals exact .quiet
  | settle moved =>
    cases moved
    case decrement => exact .decrement
    case decrementRefused => exact .decrement
    case finish => exact .finish
    case finishCrashed => simp at sound
    all_goals exact .quiet
  | _ moved => cases moved <;> exact .quiet

theorem Ghost.keepsBooks (rewritten : Ghost env top top') (sound : .crashed ∉ top) :
    BooksMove seen top seen top' := by
  cases rewritten
  case unwind => simp at sound
  all_goals exact .quiet

end Steps

def State.openTasks (state : State π) : List Nat :=
  (List.range state.history.tasks.length).filter fun id =>
    id ∉ state.history.decremented ∧ id ∉ state.history.ended

theorem State.openTasks_eq_nil {state : State π} : state.openTasks = [] ↔
    ∀ id < state.history.tasks.length,
      id ∈ state.history.decremented ∨ id ∈ state.history.ended := by
  simp only [openTasks, List.filter_eq_nil_iff, List.mem_range, decide_eq_true_eq]
  refine forall₂_congr fun id _ => ?_
  tauto

section Run

variable {env : Env}

/-- Nothing that the engine calls unguarded throws, and the counter is set to zero only
while no task is open. -/
def guardedCalls : EngineRules π where
  allows label choice state :=
    (label = .external → choice.throws = false) ∧ (label = .resetCounter → state.openTasks = [])
  starts procedure _ := procedure.isInterface = true

def Counted (state : State π) (frames : Multiset (Frame π)) : Prop :=
  .crashed ∉ frames ∧
    (view state).books.Balanced (collect Frame.opened frames) (collect Frame.settled frames)

theorem Counted.step {rules : EngineRules π} (calm : NoThrows rules) {state state' : State π}
    (others : Multiset (Frame π)) {top top' : List (Frame π)}
    (reset : top.any Frame.resets = true → ∀ choice, rules.allows .resetCounter choice state →
      state.openTasks = [])
    (rewritten : Rewrites env.protocol view rules state top state' top')
    (before : Counted state (others + top)) :
    Counted state' (others + top') := by
  obtain ⟨sound, balanced⟩ := before
  simp only [mem_add, mem_coe, not_or] at sound
  have still : .crashed ∉ top' := sound_step calm rewritten sound.2
  refine ⟨by simpa using ⟨sound.1, still⟩, ?_⟩
  rw [collect_add, collect_add] at balanced ⊢
  cases rewritten with
  | move allowed moved =>
    refine balanced.step (Move.keepsBooks moved sound.2 fun resets same => ?_) _ _
    exact State.openTasks_eq_nil.mp (reset resets _ (same ▸ allowed))
  | ghost shifted => exact balanced.step (Ghost.keepsBooks shifted sound.2) _ _
  | fork forked => cases forked <;> exact balanced.step .quiet _ _
  | start allowed entered => cases entered; exact balanced.step .quiet _ _

def State.Idle (state : State π) : Prop :=
  state.activeTasks = 0 ∧ state.history.tasks = [] ∧ state.history.decremented = [] ∧
    state.history.ended = []

variable {state : State π}

theorem counted_origin (idle : state.Idle) : Counted state 0 := by
  obtain ⟨active, tasks, decremented, ended⟩ := idle
  refine ⟨by simp, ?_⟩
  constructor <;> simp [collect, View.books, view, active, tasks, decremented, ended]

theorem Books.Balanced.open_length {opened settled : Multiset Nat}
    (balanced : (view state).books.Balanced opened settled) :
    state.activeTasks = state.openTasks.length := by
  obtain ⟨counted, out, active⟩ := balanced
  simp only [View.books, view] at counted out active
  have remaining : (state.openTasks : Multiset Nat) = opened := by
    have nodup := nodup_range state.history.tasks.length
    rw [← counted] at nodup
    have apart := (nodup_add.mp nodup).2.2
    have ended : ∀ id ∈ state.history.ended, id ∈ state.history.decremented := by
      intro id here
      rw [← mem_coe, out]
      exact mem_add.mpr (.inr here)
    rw [State.openTasks, ← filter_coe, coe_range, ← counted,
      filter_add, filter_eq_self.mpr, filter_eq_nil.mpr, add_zero]
    · intro id here
      simp [mem_coe.mp here]
    · intro id here
      have absent : id ∉ state.history.decremented := fun other =>
        disjoint_left.mp apart here other
      simpa [absent] using fun other => absent (ended id other)
  have card := congrArg card counted
  rw [← remaining] at card
  simp only [card_add, coe_card, card_range] at card
  omega

theorem Counted.no_tasks {frames : Multiset (Frame π)}
    (counted : Counted state frames) (zero : state.activeTasks = 0) (id node : Nat)
    (stage : Stage π) : .task id node stage ∉ frames := by
  intro member
  obtain ⟨opened, -, active⟩ := counted.2
  have card := congrArg card opened
  have present : id ∈ collect Frame.opened frames :=
    mem_bind.mpr ⟨_, member, by simp [Frame.opened]⟩
  have some := card_pos_iff_exists_mem.mpr ⟨id, present⟩
  simp only [View.books, view, card_add, coe_card, card_range] at card active
  omega

theorem active_tasks_exact (env : Env) (origin : State π) (idle : origin.Idle)
    (config : EngineThreads π) (run : env.RunsTo guardedCalls origin config) :
    config.shared.activeTasks = config.shared.openTasks.length ∧
      config.shared.history.decremented.Nodup ∧
      (∀ id ∈ config.shared.history.decremented, id < config.shared.history.tasks.length) ∧
      ∀ id ∈ config.shared.history.ended, id ∈ config.shared.history.decremented := by
  have calm : NoThrows (guardedCalls (π := π)) := fun _ _ allowed => allowed.1 rfl
  obtain ⟨frames, -, balanced⟩ := engine_invariant
    (fun _ _ starts => Proc.standsAlone_of_isInterface starts) run (counted_origin idle)
    fun _ _ others _ _ => Counted.step calm others fun _ _ allowed => allowed.2 rfl
  refine ⟨balanced.open_length, ?_⟩
  obtain ⟨counted, out, -⟩ := balanced
  simp only [View.books, view] at counted out
  refine ⟨?_, fun id here => ?_, fun id here => ?_⟩
  · have nodup := nodup_range config.shared.history.tasks.length
    rw [← counted] at nodup
    exact coe_nodup.mp (nodup_add.mp nodup).2.1
  · rw [← mem_range, ← counted]
    exact mem_add.mpr (.inr here)
  · rw [← mem_coe, out]
    exact mem_add.mpr (.inr here)

def guardedReferee : Referee (State π) (Label π) (Proc π) (Choice π) where
  allows
    | .external, choice, _ => !choice.throws
    | .resetCounter, _, _ => false
    | _, _, _ => true
  starts procedure _ := procedure.isInterface

theorem active_tasks_exact_open : ∃ config, soloEngine.RunsTo guardedCalls ({} : State Unit) config ∧
    config.shared.openTasks = [0] ∧
    (config.shared.activeTasks = config.shared.openTasks.length ∧
      config.shared.history.decremented.Nodup ∧
      (∀ id ∈ config.shared.history.decremented, id < config.shared.history.tasks.length) ∧
      ∀ id ∈ config.shared.history.ended, id ∈ config.shared.history.decremented) := by
  obtain ⟨config, run, opened⟩ := soloEngine.played guardedCalls guardedReferee
    (fun label choice _ allowed => by
      refine ⟨?_, ?_⟩
      · rintro rfl
        simpa [guardedReferee] using allowed
      · rintro rfl
        cases allowed)
    (fun _ _ starts => starts) ({} : State Unit)
    (.start (.startStreaming none) :: turns 0 11 {} ++
      .start (.pushInput "camera" "" (some ⟨0, 0, 0, ()⟩)) :: turns 1 23 {})
    (fun config => config.shared.openTasks = [0]) (by decide +kernel)
  exact ⟨config, run, opened,
    active_tasks_exact soloEngine {} ⟨rfl, rfl, rfl, rfl⟩ config run⟩

def tracedEngine : Env := { soloEngine with traceSink := true }

/-- The sink throws on the first event of a task.  The pool is done with the task, but it
stays counted, and every waiter for zero waits forever. -/
theorem throwing_sink_leaks : ∃ config, tracedEngine.RunsTo unrestricted ({} : State Unit) config ∧
    config.shared.openTasks = [] ∧ config.shared.history.ended = [0] ∧
    config.shared.history.decremented = [] ∧ config.shared.activeTasks = 1 :=
  tracedEngine.playedFreely _
    (.start (.startStreaming none) :: turns 0 11 {} ++
      .start (.pushInput "camera" "" (some ⟨0, 0, 0, ()⟩)) :: turns 1 24 {} ++
      turns 2 2 { throws := true })
    _ (by decide +kernel)

end Run

end AiPipe
