import Mathlib.Logic.Relation

/-!
Programs of one thread over a shared state.  An `act` is one atomic access, given a choice by
the environment and blocked when it answers `none`.  Recursion goes through named procedures,
so a program is a finite tree.
-/

namespace Concurrency

inductive Prog (σ ι κ χ ρ : Type) (α : Type) : Type 1 where
  | ret (value : α)
  | throw
  | act {β : Type} (label : ι) (effect : χ → σ → Option (β × σ)) (next : β → Prog σ ι κ χ ρ α)
  | call (procedure : κ) (next : Option ρ → Prog σ ι κ χ ρ α)
  | spawn (procedure : κ) (next : Prog σ ι κ χ ρ α)

namespace Prog

variable {σ ι κ χ ρ α β γ : Type}

/-- The next access of the program, in whatever state it is made, changes the state as given. -/
def AboutTo (change : χ → σ → σ → Prop) : Prog σ ι κ χ ρ α → Prop
  | act _ effect _ => ∀ choice state answer state',
      effect choice state = some (answer, state') → change choice state state'
  | _ => False

theorem AboutTo.imp {program : Prog σ ι κ χ ρ α} {change change' : χ → σ → σ → Prop}
    (about : program.AboutTo change)
    (weaker : ∀ choice state state', change choice state state' → change' choice state state') :
    program.AboutTo change' := by
  cases program with
  | act label effect next =>
    exact fun choice state answer state' made => weaker _ _ _ (about choice state answer state' made)
  | _ => exact about

def onExit : Prog σ ι κ χ ρ α → (Option α → Prog σ ι κ χ ρ β) → Prog σ ι κ χ ρ β
  | ret value, next => next (some value)
  | throw, next => next none
  | act label effect rest, next => act label effect fun answer => (rest answer).onExit next
  | call procedure rest, next => call procedure fun answer => (rest answer).onExit next
  | spawn procedure rest, next => spawn procedure (rest.onExit next)

def bind (first : Prog σ ι κ χ ρ α) (next : α → Prog σ ι κ χ ρ β) : Prog σ ι κ χ ρ β :=
  first.onExit fun
    | some value => next value
    | none => throw

instance : Monad (Prog σ ι κ χ ρ) where
  pure := ret
  bind := bind

def invoke (procedure : κ) : Prog σ ι κ χ ρ ρ :=
  call procedure fun
    | some answer => ret answer
    | none => throw

def forEach (body : γ → Prog σ ι κ χ ρ Unit) : List γ → Prog σ ι κ χ ρ Unit
  | [] => ret ()
  | item :: rest => do
      body item
      forEach body rest

@[simp] theorem pure_eq (value : α) : (pure value : Prog σ ι κ χ ρ α) = ret value := rfl

variable (first : Prog σ ι κ χ ρ α)

@[simp] theorem bind_eq (next : α → Prog σ ι κ χ ρ β) :
    (first >>= next) = bind first next := rfl

theorem onExit_onExit (second : Option α → Prog σ ι κ χ ρ β) (third : Option β → Prog σ ι κ χ ρ γ) :
    (first.onExit second).onExit third = first.onExit fun exit => (second exit).onExit third := by
  induction first with
  | ret value => rfl
  | throw => rfl
  | act label effect next ih => simp only [onExit, ih]
  | call procedure next ih => simp only [onExit, ih]
  | spawn procedure next ih => simp only [onExit, ih]

theorem bind_ret (program : Prog σ ι κ χ ρ α) : program.bind .ret = program := by
  unfold bind
  induction program with
  | ret value => rfl
  | throw => rfl
  | act label effect next ih => simp only [onExit, ih]
  | call procedure next ih => simp only [onExit, ih]
  | spawn procedure next ih => simp only [onExit, ih]

end Prog

end Concurrency
