import AiPipe.Concurrency.Program

/-!
One thread to its end.  `Returns` says that it returns with a postcondition for every sequence
of choices that takes a costly one at most so many times.
-/

namespace Concurrency

open List

variable {σ ι κ χ ρ α β : Type}

/-- The program with the choices of its accesses in order; `none` when it throws, is
blocked, starts a thread or has not returned within the fuel. -/
def exec (body : κ → Prog σ ι κ χ ρ ρ) :
    Nat → (Nat → χ) → Prog σ ι κ χ ρ α → σ → Option (α × σ)
  | _, _, .ret value, state => some (value, state)
  | fuel + 1, choices, .act _ effect next, state =>
    match effect (choices 0) state with
    | some (answer, state') =>
      exec body fuel (fun index => choices (index + 1)) (next answer) state'
    | none => none
  | fuel + 1, choices, .call procedure next, state =>
    exec body fuel choices ((body procedure).onExit next) state
  | _, _, _, _ => none

def Affords (costly : χ → Bool) (budget : Nat) (choices : Nat → χ) : Prop :=
  ∀ count, (List.range count).countP (fun index => costly (choices index)) ≤ budget

variable {costly : χ → Bool} {choices : Nat → χ}

theorem Affords.first {budget : Nat}
    (affords : Affords costly budget choices) (dear : costly (choices 0) = true) : 0 < budget := by
  have one := affords 1
  rw [range_one, countP_singleton, if_pos dear] at one
  exact one

theorem Affords.rest {budget : Nat} (affords : Affords costly budget choices) :
    Affords costly (if costly (choices 0) then budget - 1 else budget)
      fun index => choices (index + 1) := by
  intro count
  have more := affords (count + 1)
  rw [range_succ_eq_map, countP_cons, countP_map] at more
  change (List.range count).countP (fun index => costly (choices (index + 1))) + _ ≤ budget at more
  split
  · simp_all
    omega
  · simp_all

theorem affords_of_tail {last : Nat}
    (cheap : ∀ index, last ≤ index → costly (choices index) = false) :
    Affords costly last choices := by
  intro count
  suffices bounded : (List.range count).countP (fun index => costly (choices index)) ≤
      min count last from Nat.le_trans bounded (Nat.min_le_right _ _)
  induction count with
  | zero => simp
  | succ count ih =>
    rw [range_succ, countP_append, countP_singleton]
    by_cases late : last ≤ count
    · rw [cheap count late]
      simp
      omega
    · split <;> omega

section Returns

variable (body : κ → Prog σ ι κ χ ρ ρ) (costly : χ → Bool)

inductive Returns (post : α → σ → Prop) : Nat → Prog σ ι κ χ ρ α → σ → Prop
  | ret {budget : Nat} {value : α} {state : σ} : post value state → Returns post budget (.ret value) state
  | act {budget : Nat} {β : Type} {label : ι} {effect : χ → σ → Option (β × σ)}
      {next : β → Prog σ ι κ χ ρ α} {state : σ} (answer : χ → β) (after : χ → σ) :
      (∀ choice, (costly choice = true → 0 < budget) →
        effect choice state = some (answer choice, after choice)) →
      (∀ choice, (costly choice = true → 0 < budget) →
        Returns post (if costly choice then budget - 1 else budget) (next (answer choice))
          (after choice)) →
      Returns post budget (.act label effect next) state
  | call {budget : Nat} {procedure : κ} {next : Option ρ → Prog σ ι κ χ ρ α} {state : σ} :
      Returns post budget ((body procedure).onExit next) state →
      Returns post budget (.call procedure next) state

variable {body costly} {budget : Nat} {state : σ}

theorem Returns.exec {post : α → σ → Prop} {program : Prog σ ι κ χ ρ α}
    (returns : Returns body costly post budget program state) {choices : Nat → χ}
    (affords : Affords costly budget choices) :
    ∃ fuel value state', Concurrency.exec body fuel choices program state = some (value, state') ∧
      post value state' := by
  induction returns generalizing choices with
  | @ret _ value state holds => exact ⟨0, value, state, rfl, holds⟩
  | act answer after enabled _ ih =>
    have dear : costly (choices 0) = true → _ := affords.first
    obtain ⟨fuel, value, state', ran, holds⟩ := ih (choices 0) dear affords.rest
    refine ⟨fuel + 1, value, state', ?_, holds⟩
    rw [Concurrency.exec, enabled (choices 0) dear]
    exact ran
  | call _ ih =>
    obtain ⟨fuel, value, state', ran, holds⟩ := ih affords
    exact ⟨fuel + 1, value, state', ran, holds⟩

variable {post : β → σ → Prop}

theorem Returns.onExit {middle : α → σ → Prop}
    {first : Prog σ ι κ χ ρ α} {next : Option α → Prog σ ι κ χ ρ β}
    (returns : Returns body costly middle budget first state)
    (normal : ∀ budget value state', middle value state' →
      Returns body costly post budget (next (some value)) state') :
    Returns body costly post budget (first.onExit next) state := by
  induction returns with
  | ret holds => exact normal _ _ _ holds
  | act answer after enabled _ ih => exact .act answer after enabled ih
  | call _ ih =>
    rw [Prog.onExit_onExit] at ih
    exact .call ih

variable {effect : χ → σ → Option (α × σ)} {next : α → Prog σ ι κ χ ρ β}

theorem Returns.access {label : ι} {state after : σ} {answer : α}
    (enabled : ∀ choice, effect choice state = some (answer, after))
    (rest : ∀ left, left ≤ budget → Returns body costly post left (next answer) after) :
    Returns body costly post budget ((.act label effect .ret : Prog σ ι κ χ ρ α) >>= next) state :=
  .act (fun _ => answer) (fun _ => after) (fun choice _ => enabled choice)
    fun choice _ => rest _ (by split <;> omega)

theorem Returns.attempt {label : ι} (failure success : α × σ)
    (enabled : ∀ choice, effect choice state = some (if costly choice then failure else success))
    (fails : ∀ left, left < budget → Returns body costly post left (next failure.1) failure.2)
    (succeeds : Returns body costly post budget (next success.1) success.2) :
    Returns body costly post budget ((.act label effect .ret : Prog σ ι κ χ ρ α) >>= next) state := by
  refine .act (fun choice => (if costly choice then failure else success).1)
    (fun choice => (if costly choice then failure else success).2)
    (fun choice _ => enabled choice) fun choice affordable => ?_
  cases dear : costly choice with
  | true =>
    have positive := affordable dear
    exact fails _ (by simp; omega)
  | false => exact succeeds

theorem Returns.invoke {procedure : κ} {leaves : ρ → σ → Prop}
    (returns : Returns body costly leaves budget (body procedure) state) :
    Returns body costly leaves budget (Prog.invoke procedure : Prog σ ι κ χ ρ ρ) state :=
  .call (returns.onExit fun _ _ _ holds => .ret holds)

/-- However often a costly choice is taken, if only finitely often. -/
def Always (body : κ → Prog σ ι κ χ ρ ρ) (costly : χ → Bool) (program : Prog σ ι κ χ ρ α)
    (state : σ) (post : α → σ → Prop) : Prop :=
  ∀ budget, Returns body costly post budget program state

namespace Always

variable {middle : α → σ → Prop} {post : β → σ → Prop} {state : σ} {program : Prog σ ι κ χ ρ β}

theorem spend {budget : Nat} (always : Always body costly program state post) :
    Returns body costly post budget program state := always budget

theorem ret {value : β} (holds : post value state) :
    Always body costly (.ret value) state post := fun _ => .ret holds

variable {next : α → Prog σ ι κ χ ρ β}

theorem bind {first : Prog σ ι κ χ ρ α} (returns : Always body costly first state middle)
    (normal : ∀ value state', middle value state' →
      Always body costly (next value) state' post) :
    Always body costly (first >>= next) state post :=
  fun budget => (returns budget).onExit fun budget value state' holds =>
    normal value state' holds budget

theorem mono {program : Prog σ ι κ χ ρ α} {stronger : α → σ → Prop}
    (returns : Always body costly program state stronger)
    (weaker : ∀ value state', stronger value state' → middle value state') :
    Always body costly program state middle := by
  rw [← Prog.bind_ret program]
  exact returns.bind fun value state' holds => ret (weaker value state' holds)

theorem act {label : ι} {effect : χ → σ → Option (α × σ)}
    {answer : α} {after : σ} (enabled : ∀ choice, effect choice state = some (answer, after))
    (rest : Always body costly (next answer) after post) :
    Always body costly ((.act label effect .ret : Prog σ ι κ χ ρ α) >>= next) state post :=
  fun _ => .access enabled fun left _ => rest left

theorem invoke {procedure : κ} {leaves : ρ → σ → Prop}
    (returns : Always body costly (body procedure) state leaves) :
    Always body costly (Prog.invoke procedure : Prog σ ι κ χ ρ ρ) state leaves :=
  fun budget => (returns budget).invoke

theorem retry
    (again : ∀ budget, (∀ left, left < budget → Returns body costly post left program state) →
      Returns body costly post budget program state) : Always body costly program state post := by
  intro budget
  induction budget using Nat.strongRecOn with
  | ind budget ih => exact again budget ih

end Always

end Returns

end Concurrency
