import AiPipe.Concurrency.Threads

/-!
Threads with modes.  A law says what a thread in some mode may have as its next access, and
the mode that each answer leads to.  It speaks of the access as a whole, so it can also say
that the access is never blocked.
-/

namespace Concurrency

open List

variable {σ ι κ χ ρ α β τ : Type} {M : Type}

abbrev Law (σ ι χ M : Type) := M → ι → (β : Type) → (χ → σ → Option (β × σ)) → (β → M) → Prop

abbrev Terms (κ ρ M : Type) := κ → M → (Option ρ → M → Prop) → Prop

section Obeys

variable (law : Law σ ι χ M) (terms : Terms κ ρ M) (starts : κ → M → Prop)

/-- A program that is begun in a mode obeys the law; `post` holds of its value and its last
mode, and has no value where it throws. -/
def Obeys : Prog σ ι κ χ ρ α → M → (Option α → M → Prop) → Prop
  | .ret value, mode, post => post (some value) mode
  | .throw, mode, post => post none mode
  | .act label effect next, mode, post =>
    ∃ after, law mode label _ effect after ∧
      ∀ answer, Obeys (next answer) (after answer) post
  | .call procedure next, mode, post =>
    ∃ leaves, terms procedure mode leaves ∧
      ∀ exit mode', leaves exit mode' → Obeys (next exit) mode' post
  | .spawn procedure next, mode, post =>
    (∃ mode', starts procedure mode') ∧ Obeys next mode post

variable {law terms starts}

namespace Obeys

variable {mode : M} {middle : Option α → M → Prop} {post : Option β → M → Prop}

variable {first : Prog σ ι κ χ ρ α}

theorem onExit {next : Option α → Prog σ ι κ χ ρ β}
    (obeys : Obeys law terms starts first mode middle)
    (rest : ∀ exit mode', middle exit mode' → Obeys law terms starts (next exit) mode' post) :
    Obeys law terms starts (first.onExit next) mode post := by
  induction first generalizing mode with
  | ret value => exact rest _ _ obeys
  | throw => exact rest _ _ obeys
  | act label effect continued ih =>
    obtain ⟨after, lawful, each⟩ := obeys
    exact ⟨after, lawful, fun answer => ih answer (each answer)⟩
  | call procedure continued ih =>
    obtain ⟨leaves, called, each⟩ := obeys
    exact ⟨leaves, called, fun exit mode' left => ih exit (each exit mode' left)⟩
  | spawn procedure continued ih => exact ⟨obeys.1, ih obeys.2⟩

theorem bind {next : α → Prog σ ι κ χ ρ β} (obeys : Obeys law terms starts first mode middle)
    (normal : ∀ value mode', middle (some value) mode' →
      Obeys law terms starts (next value) mode' post)
    (thrown : ∀ mode', middle none mode' → post none mode') :
    Obeys law terms starts (first >>= next) mode post := by
  refine obeys.onExit fun exit mode' left => ?_
  cases exit with
  | none => exact thrown mode' left
  | some value => exact normal value mode' left

theorem mono {program : Prog σ ι κ χ ρ α} {post post' : Option α → M → Prop}
    (obeys : Obeys law terms starts program mode post)
    (weaker : ∀ exit mode', post exit mode' → post' exit mode') :
    Obeys law terms starts program mode post' := by
  induction program generalizing mode with
  | ret value => exact weaker _ _ obeys
  | throw => exact weaker _ _ obeys
  | act label effect continued ih =>
    obtain ⟨after, lawful, each⟩ := obeys
    exact ⟨after, lawful, fun answer => ih answer (each answer)⟩
  | call procedure continued ih =>
    obtain ⟨leaves, called, each⟩ := obeys
    exact ⟨leaves, called, fun exit mode' left => ih exit (each exit mode' left)⟩
  | spawn procedure continued ih => exact ⟨obeys.1, ih obeys.2⟩

theorem invoke {procedure : κ} {leaves : Option ρ → M → Prop}
    (called : terms procedure mode leaves) :
    Obeys law terms starts (Prog.invoke procedure : Prog σ ι κ χ ρ ρ) mode leaves := by
  refine ⟨leaves, called, fun exit mode' left => ?_⟩
  cases exit with
  | none => exact left
  | some answer => exact left

end Obeys

end Obeys

section Within

variable {ε κ' : Type}

def beside (effect : χ → σ → Option (β × σ)) (choice : χ) (state : σ × ε) : Option (β × (σ × ε)) :=
  (effect choice state.1).map fun made => (made.1, made.2, state.2)

def Prog.within (name : κ → κ') : Prog σ ι κ χ ρ α → Prog (σ × ε) ι κ' χ ρ α
  | .ret value => .ret value
  | .throw => .throw
  | .act label effect next => .act label (beside effect) fun answer => (next answer).within name
  | .call procedure next => .call (name procedure) fun exit => (next exit).within name
  | .spawn procedure next => .spawn (name procedure) (next.within name)

theorem Obeys.within {law : Law σ ι χ M} {terms : Terms κ ρ M} {starts : κ → M → Prop}
    {law' : Law (σ × ε) ι χ M} {terms' : Terms κ' ρ M} {starts' : κ' → M → Prop} {name : κ → κ'}
    (accesses : ∀ mode label β (effect : χ → σ → Option (β × σ)) after,
      law mode label β effect after → law' mode label β (beside effect) after)
    (calls : ∀ procedure mode leaves, terms procedure mode leaves →
      terms' (name procedure) mode leaves)
    (begins : ∀ procedure mode, starts procedure mode → starts' (name procedure) mode)
    {program : Prog σ ι κ χ ρ α} {mode : M} {post : Option α → M → Prop}
    (obeys : Obeys law terms starts program mode post) :
    Obeys law' terms' starts' (program.within name) mode post := by
  induction program generalizing mode with
  | ret value => exact obeys
  | throw => exact obeys
  | act label effect continued ih =>
    obtain ⟨after, lawful, each⟩ := obeys
    exact ⟨after, accesses _ _ _ _ _ lawful, fun answer => ih answer (each answer)⟩
  | call procedure continued ih =>
    obtain ⟨leaves, called, each⟩ := obeys
    exact ⟨leaves, calls _ _ _ called, fun exit mode' left => ih exit (each exit mode' left)⟩
  | spawn procedure continued ih =>
    obtain ⟨⟨first, started⟩, rest⟩ := obeys
    exact ⟨⟨first, begins _ _ started⟩, ih rest⟩

end Within

section Leads

variable (body : κ → Prog σ ι κ χ ρ ρ) (passes reaches : ι → σ → σ → Prop)

inductive Leads : Prog σ ι κ χ ρ α → Prop
  | here {β : Type} {label : ι} {effect : χ → σ → Option (β × σ)} {next : β → Prog σ ι κ χ ρ α}
      {choice : χ} {state state' : σ} {answer : β} :
      effect choice state = some (answer, state') → reaches label state state' →
      Leads (.act label effect next)
  | later {β : Type} {label : ι} {effect : χ → σ → Option (β × σ)} {next : β → Prog σ ι κ χ ρ α}
      {choice : χ} {state state' : σ} {answer : β} :
      effect choice state = some (answer, state') → passes label state state' →
      Leads (next answer) → Leads (.act label effect next)
  | call {procedure : κ} {next : Option ρ → Prog σ ι κ χ ρ α} :
      Leads ((body procedure).onExit next) → Leads (.call procedure next)
  | spawn {procedure : κ} {next : Prog σ ι κ χ ρ α} : Leads next → Leads (.spawn procedure next)

end Leads

section Runs

variable (law : Law σ ι χ M) (terms : Terms κ ρ M) (starts : κ → M → Prop)
  (body : κ → Prog σ ι κ χ ρ ρ)

structure Lawful : Prop where
  keeps : ∀ procedure mode leaves, terms procedure mode leaves →
    Obeys law terms starts (body procedure) mode leaves
  begins : ∀ procedure mode, starts procedure mode → ∃ leaves, terms procedure mode leaves

def Stands (entry : Thread σ ι κ χ ρ × M) : Prop :=
  Obeys law terms starts entry.1.program entry.2 fun _ _ => True

inductive Moves (rules : Rules σ ι κ χ) : σ → List (Thread σ ι κ χ ρ × M) → σ →
    List (Thread σ ι κ χ ρ × M) → Prop
  | act {before after : List (Thread σ ι κ χ ρ × M)} {name : κ} {mode : M} {β : Type} {label : ι}
      {effect : χ → σ → Option (β × σ)} {next : β → Prog σ ι κ χ ρ Unit} {leads : β → M}
      {choice : χ} {state state' : σ} {answer : β} :
      rules.allows label choice state → effect choice state = some (answer, state') →
      law mode label _ effect leads →
      Moves rules state (before ++ (⟨name, .act label effect next⟩, mode) :: after)
        state' (before ++ (⟨name, next answer⟩, leads answer) :: after)
  | call {before after : List (Thread σ ι κ χ ρ × M)} {name procedure : κ} {mode : M}
      {next : Option ρ → Prog σ ι κ χ ρ Unit} {state : σ} :
      Moves rules state (before ++ (⟨name, .call procedure next⟩, mode) :: after)
        state (before ++ (⟨name, (body procedure).onExit next⟩, mode) :: after)
  | spawn {before after : List (Thread σ ι κ χ ρ × M)} {name procedure : κ} {mode first : M}
      {next : Prog σ ι κ χ ρ Unit} {state : σ} :
      starts procedure first →
      Moves rules state (before ++ (⟨name, .spawn procedure next⟩, mode) :: after)
        state (before ++ (⟨name, next⟩, mode) :: after ++ [(thread body procedure, first)])
  | start {entries : List (Thread σ ι κ χ ρ × M)} {procedure : κ} {first : M} {state : σ} :
      rules.starts procedure state → starts procedure first →
      Moves rules state entries state (entries ++ [(thread body procedure, first)])

/-- A run under rules that depend on a time, which never goes back; every step meets a
condition. -/
inductive Unfolds [LE τ] (rules : τ → Rules σ ι κ χ)
    (meets : Config σ ι κ χ ρ → Config σ ι κ χ ρ → Prop) (origin : Config σ ι κ χ ρ) (first : τ) :
    τ → Config σ ι κ χ ρ → Prop
  | start : Unfolds rules meets origin first first origin
  | step {time later : τ} {config config' : Config σ ι κ χ ρ} :
      Unfolds rules meets origin first time config → time ≤ later →
      Step body (rules later) config config' → meets config config' →
      Unfolds rules meets origin first later config'

variable {law terms starts body}

theorem Reaches.unfolds [LE τ] {rules : τ → Rules σ ι κ χ} {time : τ} (still : time ≤ time)
    {origin config : Config σ ι κ χ ρ} (run : Reaches body (rules time) origin config) :
    Unfolds body rules (fun _ _ => True) origin time time config := by
  induction run with
  | refl => exact .start
  | tail _ last ih => exact .step ih still last trivial

theorem Step.length_le {rules : Rules σ ι κ χ} {config config' : Config σ ι κ χ ρ}
    (step : Step body rules config config') : config.threads.length ≤ config'.threads.length := by
  cases step <;> simp

namespace Lawful

variable (lawful : Lawful law terms starts body)
include lawful

theorem thread_stands {procedure : κ} {mode : M} (started : starts procedure mode) :
    Stands law terms starts (thread body procedure, mode) := by
  obtain ⟨leaves, begun⟩ := lawful.begins procedure mode started
  exact (lawful.keeps procedure mode leaves begun).onExit fun _ _ _ => trivial

variable {post : Option α → M → Prop}

theorem unfold {procedure : κ} {next : Option ρ → Prog σ ι κ χ ρ α} {mode : M}
    (obeys : Obeys law terms starts (.call procedure next) mode post) :
    Obeys law terms starts ((body procedure).onExit next) mode post := by
  obtain ⟨leaves, called, each⟩ := obeys
  exact (lawful.keeps procedure mode leaves called).onExit each

theorem not_leads {passes reaches : ι → σ → σ → Prop} {away : M → Prop}
    (stays : ∀ mode label β (effect : χ → σ → Option (β × σ)) after choice state answer state',
      away mode → law mode label β effect after → effect choice state = some (answer, state') →
      ¬ reaches label state state' ∧ (passes label state state' → away (after answer)))
    {program : Prog σ ι κ χ ρ α} {mode : M}
    (obeys : Obeys law terms starts program mode post) (here : away mode) :
    ¬ Leads body passes reaches program := by
  intro leads
  induction leads generalizing mode with
  | here made reached =>
    obtain ⟨after, kept, -⟩ := obeys
    exact (stays _ _ _ _ _ _ _ _ _ here kept made).1 reached
  | later made passed _ ih =>
    obtain ⟨after, kept, each⟩ := obeys
    exact ih (each _) ((stays _ _ _ _ _ _ _ _ _ here kept made).2 passed)
  | call _ ih => exact ih (lawful.unfold obeys) here
  | spawn _ ih => exact ih obeys.2 here

theorem step {rules : Rules σ ι κ χ} {config config' : Config σ ι κ χ ρ}
    (begun : ∀ procedure state, rules.starts procedure state → ∃ mode, starts procedure mode)
    (stepped : Step body rules config config') {entries : List (Thread σ ι κ χ ρ × M)}
    (same : entries.map Prod.fst = config.threads)
    (stand : ∀ entry ∈ entries, Stands law terms starts entry) :
    ∃ entries', entries'.map Prod.fst = config'.threads ∧
      (∀ entry ∈ entries', Stands law terms starts entry) ∧
      Moves law starts body rules config.shared entries config'.shared entries' := by
  cases stepped with
  | act allowed made =>
    obtain ⟨before, tail, rfl, first, rest⟩ := map_eq_append_iff.mp same
    obtain ⟨⟨_, mode⟩, after, rfl, rfl, last⟩ := map_eq_cons_iff.mp rest
    simp only [forall_mem_append, forall_mem_cons] at stand
    obtain ⟨leads, kept, each⟩ := stand.2.1
    refine ⟨_, ?_, ?_, .act allowed made kept⟩
    · rw [map_append, map_cons, first, last]
    · simp only [forall_mem_append, forall_mem_cons]
      exact ⟨stand.1, each _, stand.2.2⟩
  | call =>
    obtain ⟨before, tail, rfl, first, rest⟩ := map_eq_append_iff.mp same
    obtain ⟨⟨_, mode⟩, after, rfl, rfl, last⟩ := map_eq_cons_iff.mp rest
    simp only [forall_mem_append, forall_mem_cons] at stand
    refine ⟨_, ?_, ?_, .call⟩
    · rw [map_append, map_cons, first, last]
    · simp only [forall_mem_append, forall_mem_cons]
      exact ⟨stand.1, lawful.unfold stand.2.1, stand.2.2⟩
  | spawn =>
    obtain ⟨before, tail, rfl, first, rest⟩ := map_eq_append_iff.mp same
    obtain ⟨⟨_, mode⟩, after, rfl, rfl, last⟩ := map_eq_cons_iff.mp rest
    simp only [forall_mem_append, forall_mem_cons] at stand
    obtain ⟨⟨mode', started⟩, continued⟩ := stand.2.1
    refine ⟨_, ?_, ?_, .spawn started⟩
    · rw [map_append, map_append, map_cons, first, last]
      rfl
    · simp only [forall_mem_append, forall_mem_cons]
      exact ⟨⟨stand.1, continued, stand.2.2⟩, lawful.thread_stands started, nofun⟩
  | start allowed =>
    obtain ⟨mode, started⟩ := begun _ _ allowed
    refine ⟨_, ?_, ?_, .start allowed started⟩
    · rw [map_append, same]
      rfl
    · simp only [forall_mem_append, forall_mem_singleton]
      exact ⟨stand, lawful.thread_stands started⟩

theorem invariant [LE τ] {rules : τ → Rules σ ι κ χ}
    {meets : Config σ ι κ χ ρ → Config σ ι κ χ ρ → Prop} {origin config : Config σ ι κ χ ρ}
    {first time : τ} (holds : τ → σ → List (Thread σ ι κ χ ρ × M) → Prop)
    (begun : ∀ time procedure state, (rules time).starts procedure state →
      ∃ mode, starts procedure mode)
    (waits : ∀ time later state entries, time ≤ later → holds time state entries →
      holds later state entries)
    (steps : ∀ time state entries state' entries',
      (∀ entry ∈ entries, Stands law terms starts entry) →
      (∀ entry ∈ entries', Stands law terms starts entry) →
      Moves law starts body (rules time) state entries state' entries' →
      meets ⟨state, entries.map Prod.fst⟩ ⟨state', entries'.map Prod.fst⟩ →
      holds time state entries → holds time state' entries')
    (run : Unfolds body rules meets origin first time config) (alone : origin.threads = [])
    (initial : holds first origin.shared []) :
    ∃ entries, entries.map Prod.fst = config.threads ∧
      (∀ entry ∈ entries, Stands law terms starts entry) ∧ holds time config.shared entries := by
  induction run with
  | start => exact ⟨[], alone.symm, nofun, initial⟩
  | @step earlier later config config' _ passed stepped met ih =>
    obtain ⟨entries, same, stand, kept⟩ := ih
    obtain ⟨entries', same', stand', moved⟩ := lawful.step (begun later) stepped same stand
    refine ⟨entries', same', stand', ?_⟩
    refine steps later _ _ _ _ stand stand' moved ?_ (waits earlier later _ _ passed kept)
    rw [same, same']
    exact met

end Lawful

end Runs

end Concurrency
