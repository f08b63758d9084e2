import AiPipe.Ownership

/-!
Undisturbed streaming: no stop request and no cancellation, the pool accepts every task
and no foreign code throws.  In such a run no thread ever leaves the streaming paths.
-/

namespace AiPipe

open Concurrency AiPipe.Frame Multiset

variable {π : Type} {env : Env}

def Proc.streams : Proc π → Bool
  | .pushInput _ _ _ => true
  | .execute _ _ _ _ => true
  | .signalEndOfStream _ _ => true
  | .joinTimeoutWatchdogLoop _ => true
  | _ => false

theorem Proc.standsAlone_of_streams {procedure : Proc π} (streams : procedure.streams = true) :
    procedure.standsAlone = true := by
  cases procedure <;> first | rfl | cases streams

structure Streams (rules : EngineRules π) : Prop where
  calm : NoThrows rules
  posts : ∀ node choice state, rules.allows (.post node) choice state → choice.posted = true
  cancels : ∀ context choice state, ¬ rules.allows (.cancel context) choice state
  starts : ∀ procedure state, rules.starts procedure state → procedure.streams = true

def Frame.steady : Frame π → Bool
  | .crashed => false
  | .halted => false
  | .batched => false
  | .stopping => false
  | .resetting => false
  | .api (.deferTimerLoop _) => true
  | .api procedure => procedure.streams
  | .task _ _ .refused => false
  | .task _ _ .rolledBack => false
  | .call _ _ .entered => true
  | .call _ _ (.answer _) => true
  | .call _ _ _ => false
  | .engineLock lock => lock.wipes.isNone
  | _ => true

@[mk_iff] structure View.Streaming (seen : View π) : Prop where
  stop : seen.stop = false
  streaming : seen.streaming = true
  cancelled : ∀ context, seen.cancelled context = false

section Steps

variable {label : Label π} {choice : Choice π} {seen seen' : View π}
  {top top' : List (Frame π)}

attribute [local simp] Frame.steady Proc.streams

theorem Move.steady (moved : Move env label choice seen top seen' top')
    (streaming : seen.Streaming) (before : top.all Frame.steady = true)
    (calm : label = .external → choice.throws = false)
    (posts : ∀ node, label = .post node → choice.posted = true)
    (cancels : ∀ context, label ≠ .cancel context) :
    seen'.Streaming ∧ top'.all Frame.steady = true := by
  obtain ⟨stop, streams, cancelled⟩ := streaming
  cases moved with
  | control moved =>
    cases moved
    case uncancel context =>
      refine ⟨⟨stop, streams, fun other => ?_⟩, rfl⟩
      by_cases same : other = context <;> simp [same, cancelled]
    all_goals simp_all [View.streaming_iff]
  | process moved =>
    refine ⟨?_, ?_⟩
    · cases moved <;> exact ⟨stop, streams, cancelled⟩
    · cases moved
      case restoreFailed quit => cases quit <;> simp_all [afterFailure]
      all_goals simp_all
  | call moved => cases moved <;> simp_all [View.streaming_iff]
  | _ moved =>
    refine ⟨?_, ?_⟩
    · cases moved <;> exact ⟨stop, streams, cancelled⟩
    · cases moved <;> simp_all

theorem Ghost.steady (rewritten : Ghost env top top') (before : top.all Frame.steady = true) :
    top'.all Frame.steady = true := by
  cases rewritten
  case stopping frame stops =>
    cases frame with
    | api procedure => cases procedure <;> simp_all [Stops]
    | _ => simp_all [Stops]
  all_goals simp_all

end Steps

structure Steady (seen : View π) (frames : Multiset (Frame π)) : Prop where
  streaming : seen.Streaming
  frames : ∀ frame ∈ frames, frame.steady = true

theorem Steady.crashed {seen : View π} {frames : Multiset (Frame π)} (steady : Steady seen frames) :
    .crashed ∉ frames := fun member => by cases steady.frames _ member

theorem Steady.step {rules : EngineRules π} (streams : Streams rules) {state state' : State π}
    {others : Multiset (Frame π)} {top top' : List (Frame π)}
    (rewritten : Rewrites env.protocol view rules state top state' top')
    (before : Steady (view state) (others + top)) :
    Steady (view state') (others + top') := by
  obtain ⟨streaming, all⟩ := before
  have here := all_of_mem_add all
  cases rewritten with
  | move allowed moved =>
    have both := Move.steady moved streaming here (fun same => streams.calm _ _ (same ▸ allowed))
      (fun node same => streams.posts node _ _ (same ▸ allowed))
      (fun context same => streams.cancels context _ _ (same ▸ allowed))
    exact ⟨both.1, mem_add_of_all all both.2⟩
  | ghost shifted => exact ⟨streaming, mem_add_of_all all (Ghost.steady shifted here)⟩
  | fork forked =>
    refine ⟨streaming, mem_add_of_all all ?_⟩
    cases forked <;> simp_all [steady, Proc.streams]
  | @start procedure _ _ allowed entered =>
    refine ⟨streaming, mem_add_of_all all ?_⟩
    have streamed := streams.starts _ _ allowed
    cases entered
    cases procedure <;> simp_all [steady, Proc.streams]

section Endless

def Obs.endless : Obs → Bool
  | .latched _ true => false
  | _ => true

def Frame.endless : Frame π → Bool
  | .eval _ observed => observed.all Obs.endless
  | .check _ observed => observed.all Obs.endless
  | .eos _ _ => false
  | .flushed _ => false
  | .api (.signalEndOfStream _ _) => false
  | _ => true

structure Endless (seen : View π) (frames : Multiset (Frame π)) : Prop where
  unlatched : ∀ node port, seen.latched node port = false
  frames : ∀ frame ∈ frames, frame.endless = true

variable {label : Label π} {choice : Choice π} {seen seen' : View π}
  {top top' : List (Frame π)}

theorem Obs.Holds.endless {observation : Obs} {node : Nat} (holds : observation.Holds seen node)
    (unlatched : ∀ node port, seen.latched node port = false) : observation.endless = true := by
  cases observation with
  | latched port value => cases value <;> simp_all [Obs.Holds, Obs.endless]
  | _ => rfl

theorem Env.AllDrained.not_endless {node : Nat} {observed : List Obs}
    (drained : env.AllDrained node observed) : observed.all Obs.endless = false := by
  have read : .latched 0 true ∈ observed :=
    (drained.2 0 (Nat.pos_of_ne_zero drained.1)).subset (by simp)
  rw [List.all_eq_false]
  exact ⟨_, read, by simp [Obs.endless]⟩

attribute [local simp] Frame.endless

theorem Move.endless (moved : Move env label choice seen top seen' top')
    (unlatched : ∀ node port, seen.latched node port = false)
    (before : top.all Frame.endless = true) :
    (∀ node port, seen'.latched node port = false) ∧ top'.all Frame.endless = true := by
  cases moved with
  | control moved =>
    cases moved
    case wipe life target rest =>
      cases target
      case eosMask node =>
        refine ⟨fun other port => ?_, before⟩
        by_cases same : other = node <;> simp [View.wipe, same, unlatched]
      all_goals exact ⟨unlatched, before⟩
    all_goals exact ⟨unlatched, by simp⟩
  | schedule moved =>
    cases moved
    case observe holds => exact ⟨unlatched, by simpa [holds.endless unlatched] using before⟩
    all_goals exact ⟨unlatched, by simp⟩
  | process moved =>
    cases moved
    case restoreFailed quit => cases quit <;> exact ⟨unlatched, by simp [afterFailure]⟩
    case fail quit => cases quit <;> exact ⟨unlatched, by simp [afterFailure]⟩
    all_goals exact ⟨unlatched, by simp⟩
  | eos moved =>
    cases moved
    case observe holds => exact ⟨unlatched, by simpa [holds.endless unlatched] using before⟩
    case claim drained _ =>
      rw [List.all_cons, endless, drained.not_endless] at before
      simp at before
    case signal signals _ =>
      obtain ⟨name, port, rfl, -⟩ := signals
      simp at before
    case signalAgain signals _ =>
      obtain ⟨name, port, rfl, -⟩ := signals
      simp at before
    all_goals first | exact Bool.noConfusion before | exact ⟨unlatched, rfl⟩
  | _ moved => cases moved <;> exact ⟨unlatched, by simp⟩

theorem Ghost.endless (rewritten : Ghost env top top') (before : top.all Frame.endless = true) :
    top'.all Frame.endless = true := by
  cases rewritten
  case unwind => rfl
  case stopping => simpa using before
  all_goals simp_all

theorem Endless.step {rules : EngineRules π}
    (starts : ∀ name port state, ¬ rules.starts (.signalEndOfStream name port) state)
    {state state' : State π} {others : Multiset (Frame π)} {top top' : List (Frame π)}
    (rewritten : Rewrites env.protocol view rules state top state' top')
    (before : Endless (view state) (others + top)) :
    Endless (view state') (others + top') := by
  obtain ⟨unlatched, all⟩ := before
  have here := all_of_mem_add all
  cases rewritten with
  | move allowed moved =>
    have both := Move.endless moved unlatched here
    exact ⟨both.1, mem_add_of_all all both.2⟩
  | ghost shifted => exact ⟨unlatched, mem_add_of_all all (Ghost.endless shifted here)⟩
  | fork forked => refine ⟨unlatched, mem_add_of_all all ?_⟩; cases forked <;> simp
  | @start procedure _ _ allowed entered =>
    refine ⟨unlatched, mem_add_of_all all ?_⟩
    cases entered
    cases procedure <;> first | rfl | exact absurd allowed (starts _ _ _)

end Endless

section Watchdog

def Frame.ticks : Frame π → List Unit
  | .watching => [()]
  | _ => []

inductive WatchStep : Bool → Nat → Bool → Nat → Prop
  | quiet {watching ticks} : WatchStep watching ticks watching ticks
  | tick : WatchStep false 0 true 1
  | untick {watching} : WatchStep watching 1 false 0

theorem WatchStep.counted {watching watching' : Bool} {ticks ticks' : Nat}
    (stepped : WatchStep watching ticks watching' ticks') (others : Nat)
    (before : others + ticks = watching.toNat) : others + ticks' = watching'.toNat := by
  cases stepped with
  | quiet => exact before
  | tick => simpa using before
  | untick => cases watching <;> simp_all

variable {label : Label π} {choice : Choice π} {seen seen' : View π}
  {top top' : List (Frame π)}

def WatchMove (seen : View π) (top : List (Frame π)) (seen' : View π) (top' : List (Frame π)) :
    Prop :=
  WatchStep seen.watching (top.flatMap Frame.ticks).length
    seen'.watching (top'.flatMap Frame.ticks).length

theorem Move.watches (moved : Move env label choice seen top seen' top') :
    WatchMove seen top seen' top' := by
  cases moved with
  | control moved =>
    cases moved
    case tick unwatched =>
      rw [WatchMove, unwatched]
      exact .tick
    case untick => exact .untick
    case wipe life target rest => cases target <;> exact .quiet
    all_goals exact .quiet
  | process moved =>
    cases moved
    case restoreFailed quit => cases quit <;> exact .quiet
    case fail quit => cases quit <;> exact .quiet
    all_goals exact .quiet
  | _ moved => cases moved <;> exact .quiet

theorem Ghost.watches (rewritten : Ghost env top top') (sound : .crashed ∉ top) :
    WatchMove seen top seen top' := by
  cases rewritten
  case unwind => simp at sound
  all_goals exact .quiet

def Watched (seen : View π) (frames : Multiset (Frame π)) : Prop :=
  (collect Frame.ticks frames).card = seen.watching.toNat

theorem Watched.step {rules : EngineRules π} {state state' : State π}
    {others : Multiset (Frame π)} {top top' : List (Frame π)} (sound : .crashed ∉ top)
    (rewritten : Rewrites env.protocol view rules state top state' top')
    (before : Watched (view state) (others + top)) :
    Watched (view state') (others + top') := by
  rw [Watched, collect_add, card_add, coe_card] at before ⊢
  cases rewritten with
  | move allowed moved => exact (Move.watches moved).counted _ before
  | ghost shifted => exact (Ghost.watches shifted sound).counted _ before
  | fork forked => cases forked <;> exact before
  | start allowed entered => cases entered; exact before

theorem Watched.unlocked {seen : View π} {frames : Multiset (Frame π)}
    (watched : Watched seen frames) (free : seen.watching = false) : .watching ∉ frames := by
  intro member
  rw [Watched, free, Bool.toNat_false, card_eq_zero] at watched
  have present : () ∈ collect ticks frames :=
    mem_bind.mpr ⟨_, member, by simp [ticks]⟩
  simp [watched] at present

end Watchdog

end AiPipe
