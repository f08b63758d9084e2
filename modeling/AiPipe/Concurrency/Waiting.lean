import AiPipe.Concurrency.Modes

/-!
Who waits for whom.  A thread waits for a mutex when its next access is blocked and would go
through if the mutex were free, and joins a thread when it would go through if that one had
ended.  Where the modes can be ranked there is no cycle.
-/

namespace Concurrency

open List

variable {σ ι κ χ ρ α μ M ν : Type}

def Prog.passes (choice : χ) (state : σ) : Prog σ ι κ χ ρ α → Bool
  | .act _ effect _ => (effect choice state).isSome
  | _ => false

def Prog.HeldUp (program : Prog σ ι κ χ ρ α) (state state' : σ) : Prop :=
  ∃ choice, program.passes choice state = false ∧ program.passes choice state' = true

theorem Prog.HeldUp.unfinished {program : Prog σ ι κ χ ρ α} {state state' : σ}
    (held : program.HeldUp state state') : program.finished = false := by
  obtain ⟨choice, -, passed⟩ := held
  cases program with
  | act | call | spawn => rfl
  | ret | throw => cases passed

/-- The mutexes that threads share, and what is left behind by a thread that has ended. -/
structure Locks (σ κ μ : Type) where
  taken : μ → σ → Bool
  free : μ → σ → σ
  finish : κ → σ → σ

section WaitsFor

variable (body : κ → Prog σ ι κ χ ρ ρ) (locks : Locks σ κ μ)

def Holds (mutex : μ) (program : Prog σ ι κ χ ρ α) : Prop :=
  Leads body
    (fun _ state state' => locks.taken mutex state = true ∧ locks.taken mutex state' = true)
    (fun _ state state' => locks.taken mutex state = true ∧ locks.taken mutex state' = false)
    program

/-- The first thread waits for a mutex that the second one holds, or joins it.  A join of several
threads at once is one of each: with the others at their end it is still blocked. -/
inductive Awaits (state : σ) (first second : Thread σ ι κ χ ρ) : Prop
  | mutex (mutex : μ) : first.program.HeldUp state (locks.free mutex state) →
      Holds body locks mutex second.program → Awaits state first second
  | join (others : List κ) :
      first.program.HeldUp (others.foldr locks.finish state)
        (locks.finish second.procedure (others.foldr locks.finish state)) →
      Awaits state first second

def WaitsFor (config : Config σ ι κ χ ρ) (index index' : Nat) : Prop :=
  ∃ first second, config.threads[index]? = some first ∧ config.threads[index']? = some second ∧
    Awaits body locks config.shared first second

def Deadlocked (config : Config σ ι κ χ ρ) : Prop :=
  ∃ index, Relation.TransGen (WaitsFor body locks config) index index

variable {body locks}

theorem Awaits.unfinished {state : σ} {first second : Thread σ ι κ χ ρ}
    (awaits : Awaits body locks state first second) : first.program.finished = false := by
  cases awaits with
  | mutex _ held => exact held.unfinished
  | join _ held => exact held.unfinished

end WaitsFor

/-- A relation has no cycle when a rank falls along every edge to a place with edges of its
own. -/
theorem not_transGen_of_rank {relation : α → α → Prop} (rank : α → Nat)
    (falls : ∀ first second third, relation first second → relation second third →
      rank second < rank first) (start : α) : ¬ Relation.TransGen relation start start := by
  have along {first last : α} (path : Relation.TransGen relation first last) :
      ∀ next, relation last next → rank last < rank first := by
    induction path with
    | single edge => exact fun next => falls _ _ next edge
    | tail _ edge ih =>
      intro next onward
      exact Nat.lt_trans (falls _ _ next edge onward) (ih _ edge)
  intro cycle
  obtain ⟨next, edge, -⟩ := Relation.TransGen.head'_iff.mp cycle
  exact Nat.lt_irrefl _ (along cycle next edge)

section Tests

variable (body : κ → Prog σ ι κ χ ρ ρ) (locks : Locks σ κ μ)

def Prog.givesBack (taken : σ → Bool) (choice : χ) : Nat → σ → Prog σ ι κ χ ρ α → Bool
  | fuel + 1, state, .act _ effect next =>
    match effect choice state with
    | none => false
    | some (answer, state') =>
      taken state && (!taken state' || Prog.givesBack taken choice fuel state' (next answer))
  | fuel + 1, state, .call procedure next =>
    Prog.givesBack taken choice fuel state ((body procedure).onExit next)
  | fuel + 1, state, .spawn _ next => Prog.givesBack taken choice fuel state next
  | _, _, _ => false

variable {choice : χ}

theorem Prog.givesBack_holds {mutex : μ} {fuel : Nat} {state : σ} {program : Prog σ ι κ χ ρ α}
    (passed : program.givesBack body (locks.taken mutex) choice fuel state = true) :
    Holds body locks mutex program := by
  induction fuel generalizing state program with
  | zero => simp [Prog.givesBack] at passed
  | succ fuel ih =>
    cases program with
    | ret | throw => simp [Prog.givesBack] at passed
    | call procedure next => exact .call (ih passed)
    | spawn procedure next => exact .spawn (ih passed)
    | act label effect next =>
      simp only [Prog.givesBack] at passed
      cases made : effect choice state with
      | none => simp [made] at passed
      | some outcome =>
        obtain ⟨answer, state'⟩ := outcome
        simp only [made, Bool.and_eq_true] at passed
        obtain ⟨before, left⟩ := passed
        by_cases still : locks.taken mutex state' = true
        · rw [still, Bool.not_true, Bool.false_or] at left
          exact .later made ⟨before, still⟩ (ih left)
        · exact .here made ⟨before, by simpa using still⟩

def waitsOnMutex (mutex : μ) (choice : χ) (fuel : Nat) (state later : σ)
    (first second : Thread σ ι κ χ ρ) : Bool :=
  !first.program.passes choice state && first.program.passes choice (locks.free mutex state) &&
    second.program.givesBack body (locks.taken mutex) choice fuel later

def joinsThread (choice : χ) (state : σ) (first second : Thread σ ι κ χ ρ) : Bool :=
  !first.program.passes choice state &&
    first.program.passes choice (locks.finish second.procedure state)

variable {body locks} {first second : Thread σ ι κ χ ρ}

theorem waitsOnMutex_awaits {mutex : μ} {fuel : Nat} {state later : σ}
    (passed : waitsOnMutex body locks mutex choice fuel state later first second = true) :
    Awaits body locks state first second := by
  simp only [waitsOnMutex, Bool.and_eq_true, Bool.not_eq_true'] at passed
  obtain ⟨⟨blocked, released⟩, holder⟩ := passed
  exact .mutex mutex ⟨choice, blocked, released⟩ (Prog.givesBack_holds body locks holder)

theorem joinsThread_awaits {state : σ}
    (passed : joinsThread locks choice state first second = true) :
    Awaits body locks state first second := by
  simp only [joinsThread, Bool.and_eq_true, Bool.not_eq_true'] at passed
  exact .join [] ⟨choice, passed.1, passed.2⟩

end Tests

structure Discipline (κ μ M ν : Type) where
  role : M → ν
  holds : M → μ → Prop
  awaits : M → μ → Prop
  joins : M → κ → Prop

/-- An access within the discipline.  It does not change the role, is blocked only by what the
mode may wait for, and gives back or takes over no mutex that another thread has taken. -/
structure WaitLaw (locks : Locks σ κ μ) (discipline : Discipline κ μ M ν) (mode : M) (label : ι)
    (β : Type) (effect : χ → σ → Option (β × σ)) (after : β → M) : Prop where
  role : ∀ answer, discipline.role (after answer) = discipline.role mode
  awaits : ∀ mutex choice state, effect choice state = none →
    (effect choice (locks.free mutex state)).isSome = true → discipline.awaits mode mutex
  joins : ∀ procedure choice state, effect choice state = none →
    (effect choice (locks.finish procedure state)).isSome = true → discipline.joins mode procedure
  keeps : ∀ mutex choice state answer state', effect choice state = some (answer, state') →
    locks.taken mutex state = true → ¬ discipline.holds mode mutex →
    locks.taken mutex state' = true ∧ ¬ discipline.holds (after answer) mutex

section Runs

variable {locks : Locks σ κ μ} {discipline : Discipline κ μ M ν} {terms : Terms κ ρ M}
  {starts : κ → M → Prop} {body : κ → Prog σ ι κ χ ρ ρ}

theorem Prog.HeldUp.access {program : Prog σ ι κ χ ρ α} {state state' : σ} {mode : M}
    {post : Option α → M → Prop} (held : program.HeldUp state state')
    (obeys : Obeys (WaitLaw (ι := ι) (χ := χ) locks discipline) terms starts program mode post) :
    ∃ (label : ι) (β : Type) (effect : χ → σ → Option (β × σ)) (after : β → M) (choice : χ),
      WaitLaw locks discipline mode label β effect after ∧ effect choice state = none ∧
        (effect choice state').isSome = true := by
  obtain ⟨choice, blocked, passed⟩ := held
  cases program with
  | ret | throw | call | spawn => cases passed
  | act label effect next =>
    obtain ⟨after, kept, -⟩ := obeys
    have none : effect choice state = none := by simpa [Prog.passes] using blocked
    exact ⟨label, _, effect, after, choice, kept, none, passed⟩

section

variable (lawful : Lawful (WaitLaw (ι := ι) (χ := χ) locks discipline) terms starts body)
include lawful

theorem Lawful.not_holds {mutex : μ}
    {program : Prog σ ι κ χ ρ α} {mode : M} {post : Option α → M → Prop}
    (obeys : Obeys (WaitLaw locks discipline) terms starts program mode post)
    (free : ¬ discipline.holds mode mutex) : ¬ Holds body locks mutex program := by
  let away : M → Prop := fun mode => ¬ discipline.holds mode mutex
  have here : away mode := free
  refine lawful.not_leads ?_ obeys here
  intro mode label β effect after choice state answer state' outside kept made
  refine ⟨fun given => ?_, fun passed => (kept.keeps _ _ _ _ _ made passed.1 outside).2⟩
  have still := (kept.keeps _ _ _ _ _ made given.1 outside).1
  rw [given.2] at still
  cases still

theorem Awaits.modes {state : σ} {first second : Thread σ ι κ χ ρ} {mode mode' : M}
    (awaits : Awaits body locks state first second)
    (stands : Stands (WaitLaw locks discipline) terms starts (first, mode))
    (stands' : Stands (WaitLaw locks discipline) terms starts (second, mode')) :
    (∃ mutex, discipline.awaits mode mutex ∧ discipline.holds mode' mutex) ∨
      discipline.joins mode second.procedure := by
  cases awaits with
  | mutex mutex held holder =>
    obtain ⟨_, _, _, _, choice, kept, blocked, passed⟩ := held.access stands
    refine .inl ⟨mutex, kept.awaits mutex choice _ blocked passed, ?_⟩
    exact Classical.byContradiction fun free => lawful.not_holds stands' free holder
  | join others held =>
    obtain ⟨_, _, _, _, choice, kept, blocked, passed⟩ := held.access stands
    exact .inr (kept.joins _ choice _ blocked passed)

theorem Lawful.roles {τ : Type} [LE τ] {rules : τ → Rules σ ι κ χ}
    {meets : Config σ ι κ χ ρ → Config σ ι κ χ ρ → Prop} {origin config : Config σ ι κ χ ρ}
    {first time : τ} (kind : κ → ν)
    (kinds : ∀ procedure mode, starts procedure mode → discipline.role mode = kind procedure)
    (begun : ∀ time procedure state, (rules time).starts procedure state →
      ∃ mode, starts procedure mode)
    (run : Unfolds body rules meets origin first time config) (alone : origin.threads = []) :
    ∃ entries : List (Thread σ ι κ χ ρ × M), entries.map Prod.fst = config.threads ∧
      (∀ entry ∈ entries, Stands (WaitLaw locks discipline) terms starts entry) ∧
      ∀ entry ∈ entries, discipline.role entry.2 = kind entry.1.procedure := by
  refine lawful.invariant (fun _ _ entries => ∀ entry ∈ entries,
    discipline.role entry.2 = kind entry.1.procedure) begun (fun _ _ _ _ _ kept => kept) ?_ run alone
    (forall_mem_nil _)
  intro time state entries state' entries' _ _ moved _ kept
  cases moved with
  | act _ _ lawful =>
    simp only [forall_mem_append, forall_mem_cons] at kept ⊢
    exact ⟨kept.1, (lawful.role _).trans kept.2.1, kept.2.2⟩
  | call =>
    simp only [forall_mem_append, forall_mem_cons] at kept ⊢
    exact kept
  | spawn started =>
    simp only [forall_mem_append, forall_mem_cons] at kept ⊢
    exact ⟨⟨kept.1, kept.2.1, kept.2.2⟩, kinds _ _ started, forall_mem_nil _⟩
  | start _ started =>
    simp only [forall_mem_append, forall_mem_cons] at kept ⊢
    exact ⟨kept, kinds _ _ started, forall_mem_nil _⟩

end

/-- A thread after a step was there before it, and then not yet at its end if it is not now; or
it has made no step of its own. -/
theorem Step.earlier {rules : Rules σ ι κ χ} {config config' : Config σ ι κ χ ρ}
    (step : Step body rules config config') {current : Thread σ ι κ χ ρ}
    (member : current ∈ config'.threads) (unfinished : current.program.finished = false) :
    (∃ before ∈ config.threads, before.procedure = current.procedure ∧
      before.program.finished = false) ∨ current = thread body current.procedure := by
  cases step with
  | act _ _ =>
    simp only [mem_append, mem_cons] at member
    rcases member with here | rfl | here
    · exact .inl ⟨current, by simp [here], rfl, unfinished⟩
    · exact .inl ⟨_, mem_append_right _ mem_cons_self, rfl, rfl⟩
    · exact .inl ⟨current, by simp [here], rfl, unfinished⟩
  | call =>
    simp only [mem_append, mem_cons] at member
    rcases member with here | rfl | here
    · exact .inl ⟨current, by simp [here], rfl, unfinished⟩
    · exact .inl ⟨_, mem_append_right _ mem_cons_self, rfl, rfl⟩
    · exact .inl ⟨current, by simp [here], rfl, unfinished⟩
  | spawn =>
    simp only [mem_append, mem_cons, not_mem_nil, or_false] at member
    rcases member with (here | rfl | here) | new
    · exact .inl ⟨current, by simp [here], rfl, unfinished⟩
    · exact .inl ⟨_, mem_append_right _ mem_cons_self, rfl, rfl⟩
    · exact .inl ⟨current, by simp [here], rfl, unfinished⟩
    · exact .inr (by rw [new]; rfl)
  | start _ =>
    simp only [mem_append, mem_singleton] at member
    rcases member with here | new
    · exact .inl ⟨current, here, rfl, unfinished⟩
    · exact .inr (by rw [new]; rfl)

end Runs

end Concurrency
