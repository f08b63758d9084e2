import AiPipe.Concurrency.Program

/-!
Interleaving semantics.  A step is one atomic access of one thread, the unfolding of a call, the
creation of a thread, or a call that the environment makes; `Rules` says what the environment
may choose.
-/

namespace Concurrency

open Relation

variable {σ ι κ χ ρ : Type}

structure Thread (σ ι κ χ ρ : Type) where
  procedure : κ
  program : Prog σ ι κ χ ρ Unit

structure Config (σ ι κ χ ρ : Type) where
  shared : σ
  threads : List (Thread σ ι κ χ ρ)

/-- What the environment may do: answer an access with a choice, start a procedure. -/
structure Rules (σ ι κ χ : Type) where
  allows : ι → χ → σ → Prop
  starts : κ → σ → Prop

def thread (body : κ → Prog σ ι κ χ ρ ρ) (procedure : κ) : Thread σ ι κ χ ρ :=
  ⟨procedure, (body procedure).onExit fun _ => .ret ()⟩

inductive Step (body : κ → Prog σ ι κ χ ρ ρ) (rules : Rules σ ι κ χ) :
    Config σ ι κ χ ρ → Config σ ι κ χ ρ → Prop
  | act {before after : List (Thread σ ι κ χ ρ)} {name : κ} {β : Type} {label : ι}
      {effect : χ → σ → Option (β × σ)} {next : β → Prog σ ι κ χ ρ Unit}
      {choice : χ} {state state' : σ} {answer : β} :
      rules.allows label choice state → effect choice state = some (answer, state') →
      Step body rules ⟨state, before ++ ⟨name, .act label effect next⟩ :: after⟩
        ⟨state', before ++ ⟨name, next answer⟩ :: after⟩
  | call {before after : List (Thread σ ι κ χ ρ)} {name procedure : κ}
      {next : Option ρ → Prog σ ι κ χ ρ Unit} {state : σ} :
      Step body rules ⟨state, before ++ ⟨name, .call procedure next⟩ :: after⟩
        ⟨state, before ++ ⟨name, (body procedure).onExit next⟩ :: after⟩
  | spawn {before after : List (Thread σ ι κ χ ρ)} {name procedure : κ}
      {next : Prog σ ι κ χ ρ Unit} {state : σ} :
      Step body rules ⟨state, before ++ ⟨name, .spawn procedure next⟩ :: after⟩
        ⟨state, before ++ ⟨name, next⟩ :: after ++ [thread body procedure]⟩
  | start {threads : List (Thread σ ι κ χ ρ)} {procedure : κ} {state : σ} :
      rules.starts procedure state →
      Step body rules ⟨state, threads⟩ ⟨state, threads ++ [thread body procedure]⟩

def Reaches (body : κ → Prog σ ι κ χ ρ ρ) (rules : Rules σ ι κ χ) :
    Config σ ι κ χ ρ → Config σ ι κ χ ρ → Prop :=
  Relation.ReflTransGen (Step body rules)

theorem Reaches.mono {body : κ → Prog σ ι κ χ ρ ρ} {rules rules' : Rules σ ι κ χ}
    {config config' : Config σ ι κ χ ρ} (run : Reaches body rules config config')
    (allows : ∀ label choice state, rules.allows label choice state →
      rules'.allows label choice state)
    (starts : ∀ procedure state, rules.starts procedure state → rules'.starts procedure state) :
    Reaches body rules' config config' := by
  refine ReflTransGen.mono (fun before after step => ?_) _ _ run
  cases step with
  | act allowed made => exact .act (allows _ _ _ allowed) made
  | call => exact .call
  | spawn => exact .spawn
  | start allowed => exact .start (starts _ _ allowed)

def Prog.finished {α : Type} : Prog σ ι κ χ ρ α → Bool
  | .ret _ => true
  | .throw => true
  | _ => false

inductive Turn (κ χ : Type) where
  | run (index : Nat) (choice : χ)
  | start (procedure : κ)

structure Referee (σ ι κ χ : Type) where
  allows : ι → χ → σ → Bool
  starts : κ → σ → Bool

def Referee.rules (referee : Referee σ ι κ χ) : Rules σ ι κ χ where
  allows label choice state := referee.allows label choice state = true
  starts procedure state := referee.starts procedure state = true

def unfoldCalls (body : κ → Prog σ ι κ χ ρ ρ) : Nat → Prog σ ι κ χ ρ Unit → Prog σ ι κ χ ρ Unit
  | fuel + 1, .call procedure next => unfoldCalls body fuel ((body procedure).onExit next)
  | _, program => program

def access (referee : Referee σ ι κ χ) (choice : χ) (state : σ) :
    Prog σ ι κ χ ρ Unit → Option (σ × Prog σ ι κ χ ρ Unit × List κ)
  | .act label effect next =>
    if referee.allows label choice state then
      (effect choice state).map fun answer => (answer.2, next answer.1, [])
    else none
  | .spawn procedure next => some (state, next, [procedure])
  | _ => none

def turn (body : κ → Prog σ ι κ χ ρ ρ) (referee : Referee σ ι κ χ) (config : Config σ ι κ χ ρ) :
    Turn κ χ → Option (Config σ ι κ χ ρ)
  | .start procedure =>
    if referee.starts procedure config.shared then
      some ⟨config.shared, config.threads ++ [thread body procedure]⟩
    else none
  | .run index choice => do
      let current ← config.threads[index]?
      let (state, next, spawned) ←
        access referee choice config.shared (unfoldCalls body 8 current.program)
      some ⟨state, config.threads.set index ⟨current.procedure, next⟩ ++ spawned.map (thread body)⟩

def play (body : κ → Prog σ ι κ χ ρ ρ) (referee : Referee σ ι κ χ) (config : Config σ ι κ χ ρ) :
    List (Turn κ χ) → Option (Config σ ι κ χ ρ)
  | [] => some config
  | first :: rest => do play body referee (← turn body referee config first) rest

section Play

variable (body : κ → Prog σ ι κ χ ρ ρ) (referee : Referee σ ι κ χ)

theorem unfoldCalls_reaches (state : σ) (before after : List (Thread σ ι κ χ ρ)) (name : κ)
    (fuel : Nat) (program : Prog σ ι κ χ ρ Unit) :
    Reaches body referee.rules ⟨state, before ++ ⟨name, program⟩ :: after⟩
      ⟨state, before ++ ⟨name, unfoldCalls body fuel program⟩ :: after⟩ := by
  induction fuel generalizing program with
  | zero => exact ReflTransGen.refl
  | succ fuel ih =>
    cases program with
    | call procedure next => exact ReflTransGen.head Step.call (ih _)
    | _ => exact ReflTransGen.refl

theorem access_step (choice : χ) (state state' : σ) (before after : List (Thread σ ι κ χ ρ))
    (name : κ) (program next : Prog σ ι κ χ ρ Unit) (spawned : List κ)
    (made : access referee choice state program = some (state', next, spawned)) :
    Step body referee.rules ⟨state, before ++ ⟨name, program⟩ :: after⟩
      ⟨state', before ++ ⟨name, next⟩ :: after ++ spawned.map (thread body)⟩ := by
  cases program with
  | ret | throw | call => simp [access] at made
  | act label effect rest =>
    simp only [access] at made
    split at made
    · rename_i allowed
      obtain ⟨answer, accessed, same⟩ := Option.map_eq_some_iff.mp made
      simp only [Prod.mk.injEq] at same
      obtain ⟨rfl, rfl, rfl⟩ := same
      rw [List.map_nil, List.append_nil]
      exact Step.act allowed accessed
    · simp at made
  | spawn procedure rest =>
    simp only [access, Option.some.injEq, Prod.mk.injEq] at made
    obtain ⟨rfl, rfl, rfl⟩ := made
    exact Step.spawn

variable (config config' : Config σ ι κ χ ρ)

theorem turn_reaches (move : Turn κ χ) (turned : turn body referee config move = some config') :
    Reaches body referee.rules config config' := by
  cases move with
  | start procedure =>
    simp only [turn] at turned
    split at turned
    · rename_i allowed
      obtain rfl := Option.some.inj turned
      exact ReflTransGen.single (Step.start allowed)
    · simp at turned
  | run index choice =>
    obtain ⟨current, found, rest⟩ := Option.bind_eq_some_iff.mp turned
    obtain ⟨⟨state, next, spawned⟩, accessed, rest⟩ := Option.bind_eq_some_iff.mp rest
    obtain rfl := Option.some.inj rest
    obtain ⟨bound, same⟩ := List.getElem?_eq_some_iff.mp found
    have split : config.threads =
        config.threads.take index ++ current :: config.threads.drop (index + 1) := by
      rw [← same, List.getElem_cons_drop, List.take_append_drop]
    have unfolded := unfoldCalls_reaches body referee config.shared
      (config.threads.take index) (config.threads.drop (index + 1)) current.procedure 8
      current.program
    rw [← split] at unfolded
    rw [List.set_eq_take_append_cons_drop, if_pos bound]
    exact unfolded.tail (access_step body referee choice _ _ _ _ _ _ _ _ accessed)

theorem play_reaches (schedule : List (Turn κ χ))
    (played : play body referee config schedule = some config') :
    Reaches body referee.rules config config' := by
  induction schedule generalizing config with
  | nil =>
    obtain rfl := Option.some.inj played
    exact ReflTransGen.refl
  | cons first rest ih =>
    obtain ⟨middle, turned, remaining⟩ := Option.bind_eq_some_iff.mp played
    exact (turn_reaches body referee config middle first turned).trans (ih middle remaining)

theorem played_reaches (config : Config σ ι κ χ ρ) (schedule : List (Turn κ χ))
    (test : Config σ ι κ χ ρ → Prop) [DecidablePred test]
    (passed : (play body referee config schedule).any (test ·)) :
    ∃ config', Reaches body referee.rules config config' ∧ test config' := by
  cases played : play body referee config schedule with
  | none => simp [played] at passed
  | some config' =>
    rw [played, Option.any_some, decide_eq_true_eq] at passed
    exact ⟨config', play_reaches body referee config config' schedule played, passed⟩

end Play

end Concurrency
