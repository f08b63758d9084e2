import AiPipe.Protocol.Clients

/-!
The shape of single stacks: which frames stand on which, and what is left of them when nothing
is in progress.
-/

namespace AiPipe

open Concurrency Multiset List AiPipe.Frame

variable {π : Type} {env : Env}

def Frame.SitsOn : Frame π → List (Frame π) → Prop
  | .emit node _ _, below => (∃ id rest, below = .task id node .emitting :: rest) ∨
      ∃ rest, below = .eos node .emitting :: rest
  | .pushing _ _ _ route _, below => ∀ node edge, route = .edge node edge →
      ∃ outputs left rest, below = .emit node outputs (.routing left) :: rest
  | .loose node _ _, below => ∃ id progress rest, below = .task id node (.gathering progress) :: rest
  | _, _ => True

def Stacked : List (Frame π) → Prop
  | [] => True
  | frame :: below => frame.SitsOn below ∧ Stacked below

def Frame.floats : Frame π → Bool
  | .eval _ _ => true
  | .check _ _ => true
  | .flushed _ => true
  | .decided _ _ => true
  | .claimed _ _ => true
  | .eos _ _ => true
  | .emit _ _ _ => true
  | .pushing _ _ _ _ _ => true
  | .loose _ _ _ => true
  | .condemned _ => true
  | .counted _ => true
  | .owing _ => true
  | _ => false

def Frame.isClient : Frame π → Bool
  | .api (.joinTimeoutWatchdogLoop _) => false
  | .api _ => true
  | .resetting => true
  | .call _ _ _ => true
  | .feed _ => true
  | _ => false

def Frame.carries : Frame π → Bool
  | .task _ _ (.calling _) => false
  | .task _ _ _ => true
  | .watching => true
  | .api (.pushInput _ _ _) => true
  | .api (.signalEndOfStream _ _) => true
  | .api (.deferTimerLoop _) => true
  | .call _ _ (.distributing _) => true
  | _ => false

/-- The task of a node that the pool runs. -/
def Frame.runs : Frame π → List Nat
  | .task _ _ .announced => []
  | .task _ _ .refused => []
  | .task _ _ .rolledBack => []
  | .task _ node _ => [node]
  | _ => []

def grounded : List (Frame π) → Bool
  | [] => true
  | frame :: below => (!frame.floats || below.any Frame.carries) && grounded below

variable {stack : List (Frame π)}

theorem grounded_still (ground : grounded stack = true)
    (still : stack.any Frame.carries = false) {frame : Frame π} (here : frame ∈ stack) :
    frame.floats = false := by
  induction stack with
  | nil => simp at here
  | cons top below ih =>
    simp only [grounded, any_cons, Bool.and_eq_true, Bool.or_eq_true, Bool.not_eq_true',
      Bool.or_eq_false_iff] at ground still
    rcases mem_cons.mp here with rfl | later
    · simpa [still.2] using ground.1
    · exact ih ground.2 still.2 later

theorem grounded_below {top tail : List (Frame π)} (ground : grounded (top ++ tail) = true) :
    grounded tail = true := by
  induction top with
  | nil => exact ground
  | cons frame top ih =>
    simp only [cons_append, grounded, Bool.and_eq_true] at ground
    exact ih ground.2

theorem grounded_carried (ground : grounded stack = true) {frame : Frame π}
    (here : frame ∈ stack) (floats : frame.floats = true) :
    ∃ carrier ∈ stack, carrier.carries = true := by
  by_contra none
  have still : stack.any carries = false := by
    rw [any_eq_false]
    exact fun carrier member carries => none ⟨carrier, member, carries⟩
  rw [grounded_still ground still here] at floats
  cases floats

section Steps

variable {label : Label π} {choice : Choice π} {seen seen' : View π}
  {top top' tail : List (Frame π)}

theorem Move.stacked (moved : Move env label choice seen top seen' top')
    (before : Stacked (top ++ tail)) : Stacked (top' ++ tail) := by
  cases moved with
  | process moved =>
    cases moved
    case restoreFailed quit => cases quit <;> simp_all [Stacked, SitsOn, afterFailure]
    case fail quit => cases quit <;> simp_all [Stacked, SitsOn, afterFailure]
    all_goals simp_all [Stacked, SitsOn]
  | _ moved => cases moved <;> simp_all [Stacked, SitsOn]

theorem Ghost.stacked (rewritten : Ghost env top top') (before : Stacked (top ++ tail)) :
    Stacked (top' ++ tail) := by
  cases rewritten <;> simp_all [Stacked, SitsOn]

attribute [local simp] AiPipe.grounded Frame.floats Frame.carries Frame.isClient

theorem Move.grounded (moved : Move env label choice seen top seen' top')
    (before : AiPipe.grounded (top ++ tail) = true) : AiPipe.grounded (top' ++ tail) = true := by
  cases moved with
  | process moved =>
    cases moved
    case restoreFailed quit => cases quit <;> simp_all [afterFailure]
    case fail quit => cases quit <;> simp_all [afterFailure]
    all_goals simp_all
  | eos moved =>
    cases moved
    case signal signals latched =>
      obtain ⟨name, port, rfl, -⟩ := signals
      simp_all
    all_goals simp_all
  | _ moved => cases moved <;> simp_all

theorem Ghost.grounded (rewritten : Ghost env top top')
    (before : AiPipe.grounded (top ++ tail) = true) : AiPipe.grounded (top' ++ tail) = true := by
  cases rewritten <;> simp_all

theorem Move.isClient (moved : Move env label choice seen top seen' top')
    (before : top.any Frame.isClient = false) : top'.any Frame.isClient = false := by
  cases moved with
  | process moved =>
    cases moved
    case restoreFailed quit => cases quit <;> simp_all [afterFailure]
    case fail quit => cases quit <;> simp_all [afterFailure]
    all_goals simp_all
  | _ moved => cases moved <;> simp_all

theorem Ghost.isClient (rewritten : Ghost env top top')
    (before : top.any Frame.isClient = false) : top'.any Frame.isClient = false := by
  cases rewritten <;> simp_all

theorem Move.runs (moved : Move env label choice seen top seen' top') :
    top'.flatMap Frame.runs ⊆ top.flatMap Frame.runs := by
  cases moved with
  | process moved =>
    cases moved
    case restoreFailed quit => cases quit <;> simp [Frame.runs, afterFailure]
    case fail quit => cases quit <;> simp [Frame.runs, afterFailure]
    all_goals simp [Frame.runs]
  | _ moved => cases moved <;> simp [Frame.runs]

theorem Ghost.runs (rewritten : Ghost env top top') :
    top'.flatMap Frame.runs ⊆ top.flatMap Frame.runs := by
  cases rewritten <;> simp [Frame.runs]

def prompt (stack : List (Frame π)) : Bool := stack.tail.all fun frame => !frame.urgent

theorem Move.prompt (moved : Move env label choice seen top seen' top') :
    AiPipe.prompt top' = true := by
  cases moved with
  | process moved =>
    cases moved
    case restoreFailed quit => cases quit <;> rfl
    case fail quit => cases quit <;> rfl
    all_goals rfl
  | _ moved => cases moved <;> rfl

theorem Ghost.prompt (rewritten : Ghost env top top') : AiPipe.prompt top' = true := by
  cases rewritten
  case stopping frame stops => cases frame <;> first | rfl | cases stops
  all_goals rfl

theorem prompt_append (above : AiPipe.prompt top = true)
    (below : tail.all (fun frame => !frame.urgent) = true) : AiPipe.prompt (top ++ tail) = true := by
  cases top with
  | nil =>
    cases tail with
    | nil => rfl
    | cons frame rest => exact (Bool.and_eq_true_iff.mp below).2
  | cons frame rest =>
    rw [AiPipe.prompt, cons_append, tail_cons, all_append, below, Bool.and_true]
    exact above

theorem calm_below (free : top = [] → env.protocol.Free tail)
    (before : AiPipe.prompt (top ++ tail) = true) :
    tail.all (fun frame => !frame.urgent) = true := by
  cases top with
  | nil =>
    cases tail with
    | nil => rfl
    | cons frame rest =>
      have first : frame.urgent = false := (free rfl).calm frame rfl
      exact Bool.and_eq_true_iff.mpr ⟨by simp [first], before⟩
  | cons frame rest =>
    rw [AiPipe.prompt, cons_append, tail_cons, all_append] at before
    exact (Bool.and_eq_true_iff.mp before).2

theorem prompt_engine : Prompt env.protocol (env.Keeps (π := π)) where
  ghosts top top' rewritten := by
    cases rewritten
    case stopping frame stops =>
      exact ⟨by simp, .cons (by cases frame <;> first | rfl | cases stops)⟩
    all_goals exact ⟨by simp, .cons rfl⟩
  forks procedure top top' child forked := by cases forked <;> exact ⟨by simp, .cons rfl⟩
  calls procedure top leaves called := by cases called <;> exact .cons rfl
  crash := rfl

end Steps

section Counts

def Frame.emits : Frame π → List Nat
  | .emit node _ _ => [node]
  | _ => []

def Frame.emitting : Frame π → List Nat
  | .task _ node .emitting => [node]
  | .eos node .emitting => [node]
  | _ => []

def Frame.pushes : Frame π → List Nat
  | .pushing _ _ _ (.edge node _) _ => [node]
  | _ => []

def Frame.loosens : Frame π → List Nat
  | .loose node _ _ => [node]
  | _ => []

def Frame.gathers : Frame π → List Nat
  | .task _ node (.gathering _) => [node]
  | _ => []

/-- Whoever hands on the outputs of a node, pushes one of them or has popped one of its
inputs is the thread that keeps the node busy. -/
structure Supported (frames : Multiset (Frame π)) : Prop where
  emits : collect Frame.emits frames ≤ collect Frame.emitting frames
  pushes : collect Frame.pushes frames ≤ collect Frame.emits frames
  loosens : collect Frame.loosens frames ≤ collect Frame.gathers frames

theorem supported_nil : Supported (0 : Multiset (Frame π)) :=
  ⟨by simp [collect], by simp [collect], by simp [collect]⟩

theorem Supported.cons {frame : Frame π} {below : List (Frame π)}
    (supported : Supported (below : Multiset (Frame π))) (emits : frame.emits = [])
    (pushes : frame.pushes = []) (loosens : frame.loosens = []) :
    Supported ((frame :: below : List (Frame π)) : Multiset (Frame π)) := by
  constructor
  · rw [collect_skip emits, collect_cons]
    exact supported.emits.trans (le_add_left _ _)
  · rw [collect_skip emits, collect_skip pushes]
    exact supported.pushes
  · rw [collect_skip loosens, collect_cons]
    exact supported.loosens.trans (le_add_left _ _)

theorem Stacked.supported {stack : List (Frame π)} (stacked : Stacked stack) :
    ∀ top tail, stack = top ++ tail → Supported (tail : Multiset (Frame π)) := by
  induction stack with
  | nil =>
    intro top tail parts
    obtain ⟨-, rfl⟩ := append_eq_nil_iff.mp parts.symm
    exact supported_nil
  | cons frame below ih =>
    obtain ⟨sits, ordered⟩ := stacked
    have under := ih ordered
    intro top tail parts
    rcases cons_eq_append_iff.mp parts with ⟨-, rfl⟩ | ⟨top', -, rfl⟩
    swap
    · exact under top' tail rfl
    have all := under [] below rfl
    -- The frames that need support stand on a frame that supports nothing else.
    cases frame with
    | emit node outputs left =>
      have inner (owner : Frame π) (rest : List (Frame π)) (own : owner.emitting = [node])
          (emits : owner.emits = []) (pushes : owner.pushes = [])
          (same : below = owner :: rest) :
          Supported ((.emit node outputs left :: below : List (Frame π)) : Multiset (Frame π)) := by
        have deeper := under [owner] rest same
        constructor
        · rw [same, collect_cons, collect_skip emits, collect_skip rfl, collect_cons, own]
          exact add_le_add le_rfl deeper.emits
        · rw [same, collect_skip rfl, collect_skip pushes, collect_cons, collect_skip emits]
          exact deeper.pushes.trans (le_add_left _ _)
        · rw [collect_skip rfl, collect_skip rfl]
          exact all.loosens
      rcases sits with ⟨id, rest, same⟩ | ⟨rest, same⟩
      · exact inner _ rest rfl rfl rfl same
      · exact inner _ rest rfl rfl rfl same
    | pushing node port data route pressure =>
      cases route with
      | edge source edge =>
        obtain ⟨outputs, left, rest, same⟩ := sits source edge rfl
        have deeper := under [_] rest same
        constructor
        · rw [collect_skip rfl, collect_skip rfl]
          exact all.emits
        · rw [same, collect_cons, collect_skip rfl, collect_skip rfl, collect_cons]
          exact add_le_add le_rfl deeper.pushes
        · rw [collect_skip rfl, collect_skip rfl]
          exact all.loosens
      | _ => exact all.cons rfl rfl rfl
    | loose node packet =>
      obtain ⟨id, progress, rest, same⟩ := sits
      have deeper := under [_] rest same
      constructor
      · rw [collect_skip rfl, collect_skip rfl]
        exact all.emits
      · rw [collect_skip rfl, collect_skip rfl]
        exact all.pushes
      · rw [same, collect_cons, collect_skip rfl, collect_skip rfl, collect_cons]
        exact add_le_add le_rfl deeper.loosens
    | _ => exact all.cons rfl rfl rfl

structure Nested (frames : Multiset (Frame π)) : Prop extends Supported frames where
  carried : ∀ frame ∈ frames, frame.floats = true → ∃ carrier ∈ frames, carrier.carries = true

theorem nested_additive : Additive (Nested (π := π)) where
  none := ⟨supported_nil, by simp⟩
  add first second one two := by
    refine ⟨⟨?_, ?_, ?_⟩, fun frame member floats => ?_⟩
    · simpa only [collect, add_bind] using add_le_add one.emits two.emits
    · simpa only [collect, add_bind] using add_le_add one.pushes two.pushes
    · simpa only [collect, add_bind] using add_le_add one.loosens two.loosens
    · rcases mem_add.mp member with here | here
      · obtain ⟨carrier, known, carries⟩ := one.carried frame here floats
        exact ⟨carrier, mem_add.mpr (.inl known), carries⟩
      · obtain ⟨carrier, known, carries⟩ := two.carried frame here floats
        exact ⟨carrier, mem_add.mpr (.inr known), carries⟩

end Counts

section Runs

def Proc.isBackground : Proc π → Bool
  | .runTask _ _ _ => true
  | .joinTimeoutWatchdogLoop _ => true
  | _ => false

structure Shaped (procedure : Proc π) (stack : List (Frame π)) : Prop where
  stacked : Stacked stack
  grounded : grounded stack = true
  prompt : prompt stack = true
  background : procedure.isBackground = true → stack.any Frame.isClient = false
  runs : ∀ node ∈ stack.flatMap Frame.runs, ∃ id context, procedure = .runTask id node context

theorem Shaped.nested {procedure : Proc π} {stack : List (Frame π)} (shaped : Shaped procedure stack)
    (top tail : List (Frame π)) (parts : stack = top ++ tail) :
    Nested (tail : Multiset (Frame π)) := by
  subst parts
  refine ⟨shaped.stacked.supported top tail rfl, fun frame here floats => ?_⟩
  exact grounded_carried (grounded_below shaped.grounded) here floats

/-- What a rewrite of the top has to keep for the whole stack to keep its shape. -/
theorem Shaped.rewrite {procedure : Proc π} {top top' tail : List (Frame π)}
    (shaped : Shaped procedure (top ++ tail)) (free : top = [] → env.protocol.Free tail)
    (stacked : Stacked (top' ++ tail)) (grounds : AiPipe.grounded (top' ++ tail) = true)
    (prompts : AiPipe.prompt top' = true)
    (clients : top.any Frame.isClient = false → top'.any Frame.isClient = false)
    (runs : top'.flatMap Frame.runs ⊆ top.flatMap Frame.runs) :
    Shaped procedure (top' ++ tail) := by
  refine ⟨stacked, grounds, prompt_append prompts (calm_below free shaped.prompt), ?_, ?_⟩
  · intro background
    have before := shaped.background background
    rw [any_append, Bool.or_eq_false_iff] at before ⊢
    exact ⟨clients before.1, before.2⟩
  · intro node member
    refine shaped.runs node ?_
    rw [flatMap_append, mem_append] at member ⊢
    exact member.imp_left fun here => runs here

variable {rules : EngineRules π}

theorem soup_shaped {soup soup' : Soup (State π) (Proc π) (Frame π)}
    (run : SoupReaches env.protocol view rules soup soup')
    (initial : ∀ entry ∈ soup.entries, Shaped entry.1 entry.2) :
    ∀ entry ∈ soup'.entries, Shaped entry.1 entry.2 := by
  refine run.shape Shaped ?_ ?_ ?_ ?_ initial
  · intro name label choice state state' top top' tail free moved shaped
    exact shaped.rewrite free (Move.stacked moved shaped.stacked)
      (Move.grounded moved shaped.grounded) (Move.prompt moved) (Move.isClient moved)
      (Move.runs moved)
  · intro name top top' tail rewritten shaped
    have some : top = [] → env.protocol.Free tail := fun none =>
      absurd none (prompt_engine.ghosts top top' rewritten).1
    exact shaped.rewrite some
      (Ghost.stacked rewritten shaped.stacked) (Ghost.grounded rewritten shaped.grounded)
      (Ghost.prompt rewritten) (Ghost.isClient rewritten) (Ghost.runs rewritten)
  · intro name procedure top top' child tail forked shaped
    have stacked := shaped.stacked
    have grounds := shaped.grounded
    have some : top = [] → env.protocol.Free tail := fun none =>
      absurd none (prompt_engine.forks procedure top top' child forked).1
    refine ⟨shaped.rewrite some ?_ ?_ ?_ ?_ ?_, ?_⟩
    all_goals cases forked <;> simp_all [Stacked, SitsOn, AiPipe.grounded, floats, isClient,
      Frame.runs, AiPipe.prompt, Frame.urgent]
    all_goals exact ⟨by simp [Stacked, SitsOn], rfl, rfl, fun background => by
      first | rfl | exact Bool.noConfusion background, by simp [Frame.runs]⟩
  · intro procedure stack entered
    cases entered with
    | api alone =>
      refine ⟨⟨trivial, trivial⟩, rfl, rfl, fun background => ?_, by simp [Frame.runs]⟩
      cases procedure <;>
        first | rfl | exact Bool.noConfusion background | exact Bool.noConfusion alone

variable {holds : State π → Multiset (Frame π) → Prop} {config : EngineThreads π}

/-- The stacks on which the programs of the threads stand. -/
structure Env.Stands (env : Env) (threads : List (EngineThread π))
    (entries : List (Proc π × List (Frame π))) : Prop where
  settled : List.Forall₂ (Settled env.protocol view env.Keeps) threads entries
  shaped : ∀ entry ∈ entries, Shaped entry.1 entry.2

section

variable (clients : ∀ procedure state, rules.starts procedure state → procedure.standsAlone = true)
include clients

theorem engine_soup {origin : EngineThreads π} {stacked : List (Proc π × List (Frame π))}
    (stands : env.Stands origin.threads stacked) (run : Reaches env.body rules origin config)
    (initial : holds origin.shared (allFrames stacked))
    (step : ∀ state state' (others : Multiset (Frame π)) (top top' : List (Frame π)),
      Nested others → Nested (others + (top : Multiset _)) →
      Rewrites env.protocol view rules state top state' top' →
      holds state (others + top) → holds state' (others + top')) :
    ∃ entries, env.Stands config.threads entries ∧ holds config.shared (allFrames entries) := by
  obtain ⟨entries, reached, settled⟩ := (engine_verified rules clients).settledFrom
    (stands.settled.imp fun _ _ both => both.1) run
  refine ⟨entries, ⟨settled, soup_shaped reached stands.shaped⟩, ?_⟩
  refine reached.invariant nested_additive step (fun middle before entry member => ?_) initial
  exact (soup_shaped before stands.shaped entry member).nested

omit clients in
/-- When every thread has returned or works in the background, and neither the watchdog nor a task
is about to do anything, nothing is in motion. -/
theorem Env.Stands.still {entries : List (Proc π × List (Frame π))}
    (stands : env.Stands config.threads entries)
    (returned : ∀ thread ∈ config.threads,
      thread.procedure.isBackground = true ∨ thread.program.finished = true)
    (sound : .crashed ∉ allFrames entries)
    (idle : ∀ frame ∈ allFrames entries, frame.carries = true → frame.isClient = true) :
    ∀ frame ∈ allFrames entries, frame.floats = false ∧ frame.carries = false := by
  intro frame present
  have inside {frame : Frame π} {entry : Proc π × List (Frame π)} (member : entry ∈ entries)
      (here : frame ∈ entry.2) : frame ∈ allFrames entries :=
    mem_coe.mpr (mem_flatMap.mpr ⟨entry, member, here⟩)
  obtain ⟨entry, member, here⟩ := mem_flatMap.mp (mem_coe.mp present)
  obtain ⟨thread, known, ⟨same, -⟩, ended⟩ := forall₂_preimage stands.settled member
  have shape := stands.shaped entry member
  have bare (still : entry.2.any carries = false) :
      frame.floats = false ∧ frame.carries = false :=
    ⟨grounded_still shape.grounded still here, by simpa using any_eq_false.mp still frame here⟩
  rcases returned thread known with background | finished
  · refine bare (any_eq_false.mpr fun other there carries => ?_)
    exact any_eq_false.mp (shape.background (same ▸ background)) other there
      (idle other (inside member there) carries)
  · rcases ended finished with empty | ⟨rest, crash⟩
    · simp [empty] at here
    · exact absurd (inside member (crash ▸ mem_cons_self ..)) sound

/-- An invariant of a run from a state without threads. -/
theorem engine_run {origin : State π} (run : env.RunsTo rules origin config) (initial : holds origin 0)
    (step : ∀ state state' (others : Multiset (Frame π)) (top top' : List (Frame π)),
      Nested others → Nested (others + (top : Multiset _)) →
      Rewrites env.protocol view rules state top state' top' →
      holds state (others + top) → holds state' (others + top')) :
    ∃ entries, env.Stands config.threads entries ∧ holds config.shared (allFrames entries) := by
  have nobody : env.Stands (⟨origin, []⟩ : EngineThreads π).threads [] := ⟨.nil, by simp⟩
  exact engine_soup clients nobody run initial step

end

/-- What the frames of a thread say of it: a task that holds packets runs in the pool, and a drop
that has begun goes on with the thread's next access. -/
structure Tied (env : Env) (thread : EngineThread π) (stack : List (Frame π)) : Prop where
  ended : thread.program.finished = true → stack = []
  stacked : Stacked stack
  runs : ∀ node ∈ stack.flatMap Frame.runs, ∃ id context, thread.procedure = .runTask id node context
  prompt : ∀ frame ∈ stack, frame.urgent = true →
    thread.program.AboutTo fun choice state state' => ∃ label more top',
      Move env label choice (view state) (frame :: more) (view state') top'

theorem Env.Stands.tied {threads : List (EngineThread π)} {entries : List (Proc π × List (Frame π))}
    (stands : env.Stands threads entries) (sound : .crashed ∉ allFrames entries) :
    List.Forall₂ (Tied env) threads (entries.map Prod.snd) := by
  rw [forall₂_map_right_iff]
  have settled := stands.settled
  rw [forall₂_iff_zip] at settled ⊢
  refine ⟨settled.1, fun {thread entry} pair => ?_⟩
  obtain ⟨⟨same, conforms⟩, ended⟩ := settled.2 pair
  have member := (of_mem_zip pair).2
  have shape := stands.shaped entry member
  refine ⟨fun finished => ?_, shape.stacked, same ▸ shape.runs, fun frame here urgent => ?_⟩
  · rcases ended finished with empty | ⟨rest, crash⟩
    · exact empty
    · exact absurd (mem_coe.mpr (mem_flatMap.mpr ⟨entry, member, crash ▸ mem_cons_self⟩)) sound
  · obtain ⟨name, stack⟩ := entry
    cases stack with
    | nil => cases here
    | cons first rest =>
      rcases mem_cons.mp here with rfl | below
      · exact prompt_engine.aboutTo urgent conforms
      · have calm := all_eq_true.mp shape.prompt frame below
        simp [urgent] at calm

end Runs

end AiPipe
