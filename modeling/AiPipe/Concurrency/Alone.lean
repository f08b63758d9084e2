import AiPipe.Concurrency.Threads

/-!
One thread on its own, while the threads that it starts wait.  `Ends` says that it returns
with a postcondition whatever the choices, and `Completes` is the induction that proves it.
-/

namespace Concurrency

variable {σ ι κ χ ρ α β γ : Type}

def alone (body : κ → Prog σ ι κ χ ρ ρ) :
    Nat → (Nat → χ) → Prog σ ι κ χ ρ α → σ → Option (α × σ)
  | _, _, .ret value, state => some (value, state)
  | fuel + 1, choices, .act _ effect next, state =>
    match effect (choices 0) state with
    | some (answer, after) =>
      alone body fuel (fun index => choices (index + 1)) (next answer) after
    | none => none
  | fuel + 1, choices, .call procedure next, state =>
    alone body fuel choices ((body procedure).onExit next) state
  | fuel + 1, choices, .spawn _ next, state => alone body fuel choices next state
  | _, _, _, _ => none

variable {body : κ → Prog σ ι κ χ ρ ρ} {program : Prog σ ι κ χ ρ α} {choices : Nat → χ} {fuel : Nat}

variable {state : σ}

theorem alone_more
    {result : α × σ} (ran : alone body fuel choices program state = some result) (extra : Nat) :
    alone body (fuel + extra) choices program state = some result := by
  induction fuel generalizing choices program state with
  | zero =>
    cases program with
    | ret => rw [← ran]; simp only [alone]
    | _ => cases ran
  | succ fuel ih =>
    rw [Nat.succ_add_eq_add_succ]
    cases program with
    | ret => rw [← ran]; simp only [alone]
    | throw => cases ran
    | act label effect next =>
      simp only [alone] at ran ⊢
      cases moved : effect (choices 0) state with
      | none => rw [moved] at ran; cases ran
      | some pair =>
        rw [moved] at ran
        exact ih ran
    | call procedure next => exact ih ran
    | spawn procedure next => exact ih ran

theorem alone_agree {fuel fuel' : Nat}
    {result result' : α × σ} (ran : alone body fuel choices program state = some result)
    (ran' : alone body fuel' choices program state = some result') : result = result' := by
  have one := alone_more ran fuel'
  have other := alone_more ran' fuel
  rw [Nat.add_comm] at other
  exact Option.some.inj (one.symm.trans other)

theorem alone_bind {first : Prog σ ι κ χ ρ α} {next : α → Prog σ ι κ χ ρ β} {result : β × σ}
    (ran : alone body fuel choices (first >>= next) state = some result) :
    ∃ value middle rest used, alone body fuel choices first state = some (value, middle) ∧
      alone body rest (fun index => choices (used + index)) (next value) middle = some result := by
  induction fuel generalizing choices first state with
  | zero =>
    cases first with
    | ret value => exact ⟨value, state, 0, 0, rfl, by simp only [Nat.zero_add]; exact ran⟩
    | _ => cases ran
  | succ fuel ih =>
    cases first with
    | ret value => exact ⟨value, state, fuel + 1, 0, rfl, by simp only [Nat.zero_add]; exact ran⟩
    | throw => cases ran
    | act label effect rest =>
      change (match effect (choices 0) state with
        | some (answer, after) => alone body fuel (fun index => choices (index + 1))
            (rest answer >>= next) after
        | none => none) = some result at ran
      cases moved : effect (choices 0) state with
      | none => rw [moved] at ran; cases ran
      | some pair =>
        rw [moved] at ran
        obtain ⟨value, middle, left, used, one, two⟩ := ih ran
        refine ⟨value, middle, left, used + 1, ?_, ?_⟩
        · simp only [alone, moved]
          exact one
        · simp only [Nat.add_right_comm used 1]
          exact two
    | call procedure rest =>
      have same : ((body procedure).onExit rest >>= next) =
          (body procedure).onExit fun answer => rest answer >>= next := Prog.onExit_onExit _ _ _
      change alone body fuel choices
        ((body procedure).onExit fun answer => rest answer >>= next) state = some result at ran
      rw [← same] at ran
      exact ih ran
    | spawn procedure rest => exact ih ran

section Ends

variable (body) (may : χ → Prop)

def Ends (program : Prog σ ι κ χ ρ α) (state : σ) (post : α → σ → Prop) : Prop :=
  ∀ choices : Nat → χ, (∀ index, may (choices index)) → ∃ fuel value after,
    alone body fuel choices program state = some (value, after) ∧ post value after

inductive Completes (post : α → σ → Prop) : Prog σ ι κ χ ρ α → σ → Prop
  | ret {value : α} {state : σ} : post value state → Completes post (.ret value) state
  | act {β : Type} {label : ι} {effect : χ → σ → Option (β × σ)} {next : β → Prog σ ι κ χ ρ α}
      {state : σ} : (∀ choice, may choice → (effect choice state).isSome = true) →
      (∀ choice, may choice → ∀ answer after, effect choice state = some (answer, after) →
        Completes post (next answer) after) →
      Completes post (.act label effect next) state
  | call {procedure : κ} {next : Option ρ → Prog σ ι κ χ ρ α} {state : σ} :
      Completes post ((body procedure).onExit next) state →
      Completes post (.call procedure next) state
  | spawn {procedure : κ} {next : Prog σ ι κ χ ρ α} {state : σ} :
      Completes post next state → Completes post (.spawn procedure next) state

end Ends

variable {may : χ → Prop}

namespace Completes

variable {middle : α → σ → Prop} {post : β → σ → Prop} {state : σ} {program : Prog σ ι κ χ ρ α}

theorem ends (completes : Completes body may middle program state) :
    Ends body may program state middle := by
  intro choices fair
  induction completes generalizing choices with
  | @ret value state holds => exact ⟨0, value, state, rfl, holds⟩
  | @act _ _ effect next state enabled _ ih =>
    obtain ⟨⟨answer, after⟩, moved⟩ := Option.isSome_iff_exists.mp (enabled _ (fair 0))
    obtain ⟨fuel, value, last, ran, holds⟩ :=
      ih _ (fair 0) answer after moved _ fun index => fair (index + 1)
    refine ⟨fuel + 1, value, last, ?_, holds⟩
    simp only [alone, moved]
    exact ran
  | _ _ ih =>
    obtain ⟨fuel, value, last, ran, holds⟩ := ih choices fair
    exact ⟨fuel + 1, value, last, ran, holds⟩

variable {first : Prog σ ι κ χ ρ α}

theorem onExit {next : Option α → Prog σ ι κ χ ρ β}
    (completes : Completes body may middle first state)
    (normal : ∀ value after, middle value after → Completes body may post (next (some value)) after) :
    Completes body may post (first.onExit next) state := by
  induction completes with
  | ret holds => exact normal _ _ holds
  | act enabled _ ih => exact .act enabled ih
  | call _ ih =>
    rw [Prog.onExit_onExit] at ih
    exact .call ih
  | spawn _ ih => exact .spawn ih

variable {next : α → Prog σ ι κ χ ρ β}

theorem bind (completes : Completes body may middle first state)
    (normal : ∀ value after, middle value after → Completes body may post (next value) after) :
    Completes body may post (first >>= next) state :=
  completes.onExit normal

theorem mono {stronger : α → σ → Prop} (completes : Completes body may stronger program state)
    (weaker : ∀ value after, stronger value after → middle value after) :
    Completes body may middle program state := by
  rw [← Prog.bind_ret program]
  exact completes.bind fun value after holds => .ret (weaker value after holds)

theorem restrict {fewer : χ → Prop}
    (completes : Completes body may middle program state) (among : ∀ choice, fewer choice → may choice) :
    Completes body fewer middle program state := by
  induction completes with
  | ret holds => exact .ret holds
  | act enabled _ ih =>
    exact .act (fun choice rare => enabled choice (among choice rare))
      fun choice rare => ih choice (among choice rare)
  | call _ ih => exact .call ih
  | spawn _ ih => exact .spawn ih

theorem access {label : ι} {effect : χ → σ → Option (α × σ)}
    {answer : α} {after : σ} (moved : ∀ choice, may choice → effect choice state = some (answer, after))
    (rest : Completes body may post (next answer) after) :
    Completes body may post (.act label effect next) state := by
  refine .act (fun choice fair => by rw [moved choice fair]; rfl) fun choice fair value last ran => ?_
  obtain ⟨rfl, rfl⟩ := Prod.mk.inj (Option.some.inj ((moved choice fair).symm.trans ran))
  exact rest

theorem invoke {procedure : κ} {leaves : ρ → σ → Prop}
    (completes : Completes body may leaves (body procedure) state) :
    Completes body may leaves (Prog.invoke procedure : Prog σ ι κ χ ρ ρ) state :=
  .call (completes.onExit fun _ _ holds => .ret holds)

end Completes

namespace Ends

variable {program : Prog σ ι κ χ ρ α} {state : σ} {post other : α → σ → Prop}

section

variable (ends : Ends body may program state post)
include ends

theorem mono (weaker : ∀ value after, post value after → other value after) :
    Ends body may program state other := by
  intro choices fair
  obtain ⟨fuel, value, after, ran, holds⟩ := ends choices fair
  exact ⟨fuel, value, after, ran, weaker value after holds⟩

theorem result {choices : Nat → χ}
    (fair : ∀ index, may (choices index)) {fuel : Nat} {value : α} {after : σ}
    (ran : alone body fuel choices program state = some (value, after)) : post value after := by
  obtain ⟨fuel', value', after', ran', holds⟩ := ends choices fair
  obtain ⟨rfl, rfl⟩ := Prod.mk.inj (alone_agree ran ran')
  exact holds

theorem iff_of {choice : χ} (fair : may choice)
    {condition : Prop} (same : ∀ value after, post value after → (other value after ↔ condition)) :
    Ends body may program state other ↔ condition := by
  constructor
  · intro also
    obtain ⟨fuel, value, after, ran, holds⟩ := ends (fun _ => choice) fun _ => fair
    exact (same value after holds).mp (also.result (fun _ => fair) ran)
  · intro holds
    exact ends.mono fun value after before => (same value after before).mpr holds

end

end Ends

end Concurrency
