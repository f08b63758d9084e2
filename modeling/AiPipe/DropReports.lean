import AiPipe.Joins

/-!
Who hears of a dropped frame.  A packet that leaves a queue of a tracked node without being
delivered is counted, named to the callback and told to the sync strategy; a push that a full
`DropTail` queue turns away is reported without an id, and not to the strategy.
-/

namespace AiPipe

open Concurrency List Env

variable {π : Type} {env : Env}

structure FrameKey where
  node : String
  frame : Nat
  deriving DecidableEq

def Env.keyOf (env : Env) (discard : Discard) : FrameKey :=
  ⟨env.graph.name discard.node, discard.frame⟩

def DropReport.key (report : DropReport) : FrameKey := ⟨report.node, report.frame⟩

def SyncEvent.key : SyncEvent → Option FrameKey
  | .dropped node frame _ => some ⟨node, frame⟩
  | _ => none

def Env.Tracks (env : Env) (key : FrameKey) : Prop :=
  env.sync.isEnabled = true ∧ env.sync.tracksNode key.node = true ∧ key.frame ≠ kInvalidFrameId

structure Ledger where
  named : List FrameKey
  told : List FrameKey

def View.ledger (seen : View π) : Ledger where
  named := seen.dropCallbacks.map DropReport.key
  told := seen.syncEvents.filterMap SyncEvent.key

def Frame.owed (env : Env) : Frame π → List FrameKey
  | .owing discard => [env.keyOf discard]
  | _ => []

namespace Ledger

inductive Step (tracks : FrameKey → Prop) : Ledger → List FrameKey → Ledger → List FrameKey → Prop
  | quiet {ledger owed} : Step tracks ledger owed ledger owed
  | name {ledger : Ledger} (key : FrameKey) :
      Step tracks ledger [] { ledger with named := ledger.named ++ [key] } [key]
  | tell {ledger : Ledger} (key : FrameKey) :
      Step tracks ledger [key] { ledger with told := ledger.told ++ [key] } []
  | untracked {ledger : Ledger} (key : FrameKey) : ¬ tracks key →
      Step tracks ledger [] { ledger with named := ledger.named ++ [key] } []

def Balanced (tracks : FrameKey → Prop) (ledger : Ledger) (owed : Multiset FrameKey) : Prop :=
  ∀ key, tracks key → ledger.named.count key = ledger.told.count key + owed.count key

theorem Balanced.step {tracks : FrameKey → Prop} {ledger ledger' : Ledger}
    {owed owed' : List FrameKey} (stepped : Step tracks ledger owed ledger' owed')
    (others : Multiset FrameKey) (before : ledger.Balanced tracks (others + owed)) :
    ledger'.Balanced tracks (others + owed') := by
  intro other tracked
  have even := before other tracked
  simp only [Multiset.count_add, Multiset.coe_count] at even ⊢
  cases stepped with
  | quiet => exact even
  | name key | tell key =>
    simp only [count_append, count_nil] at even ⊢
    omega
  | untracked key free =>
    have apart : List.count other [key] = 0 := by
      refine count_eq_zero.mpr fun member => free ?_
      exact mem_singleton.mp member ▸ tracked
    simp only [count_append, count_nil] at even ⊢
    omega

end Ledger

structure Env.Heeds (env : Env) (discard : Discard) : Prop where
  tells : env.Tracks (env.keyOf discard) → discard.tells = true
  placed : discard.place = none → env.syncTracked discard.node = false

def Frame.Heeds (env : Env) : Frame π → Prop
  | .asked _ _ => False
  | .pushing node _ _ _ pressure => pressure = .full → env.syncTracked node = true →
      (env.queueConfig node).dropPolicy ≠ .dropTail
  | .condemned discard => env.Heeds discard
  | .counted discard => env.Heeds discard
  | _ => True

section Steps

variable {label : Label π} {choice : Choice π} {seen seen' : View π}
  {top top' : List (Frame π)}

theorem Env.Tracks.syncTracked {node frame : Nat}
    (tracked : env.Tracks ⟨env.graph.name node, frame⟩) :
    env.syncTracked node = true ∧ frame ≠ kInvalidFrameId := by
  obtain ⟨enabled, tracks, known⟩ := tracked
  exact ⟨by simp [Env.syncTracked, enabled, tracks], known⟩

def Env.Accepts (env : Env) (label : Label π) (choice : Choice π) (queues : Queues π)
    (events : List SyncEvent) : Prop :=
  (∀ node port route, label = .enqueue node port route → env.syncTracked node = true →
    (env.queueConfig node).dropPolicy = .dropTail →
    choice.refuses = false ∧ (queues node port).size < (env.queueConfig node).capacity) ∧
  ∀ node frame, label = .askDrop node frame →
    env.sync.shouldDrop events (env.graph.name node) frame = false

theorem Env.Heeds.tracked {discard : Discard} (heeds : env.Heeds discard)
    (tells : discard.tells = false) : ¬ env.Tracks (env.keyOf discard) := by
  intro tracked
  rw [heeds.tells tracked] at tells
  cases tells

theorem Move.heeds (moved : Move env label choice seen top seen' top')
    (accepts : env.Accepts label choice seen.queue seen.syncEvents)
    (grants : env.Grants label choice)
    (informed : ∀ frame ∈ top, frame.Informed env seen.queue)
    (before : ∀ frame ∈ top, frame.Heeds env) : ∀ frame ∈ top', frame.Heeds env := by
  cases moved with
  | control moved =>
    cases moved
    all_goals simp [Frame.Heeds]
  | gather moved =>
    cases moved
    case ask node frame tracked drops => simp [accepts.2 node frame rfl] at drops
    case discard id node port progress data head reason joins peeked found =>
      simp only [forall_mem_cons, not_mem_nil, false_implies, implies_true, and_true]
      refine ⟨⟨fun tracked => ?_, by simp [staleDiscard]⟩, trivial⟩
      have known : env.syncTracked node = true ∧ frameIdOf head.data ≠ kInvalidFrameId :=
        Tracks.syncTracked tracked
      simp [staleDiscard, known.1, known.2]
    case discardDry id node port progress head reason joins peeked none =>
      simp only [forall_mem_singleton] at informed
      exact absurd none (informed.not_dry grants 0 peeked (.inr rfl))
    case discardAsked =>
      have none : False := before (.asked _ _) mem_cons_self
      exact none.elim
    case discardAskedDry =>
      have none : False := before (.asked _ _) mem_cons_self
      exact none.elim
    case countDrop =>
      simp only [forall_mem_singleton] at before ⊢
      exact before
    all_goals simp [Frame.Heeds]
  | push moved =>
    cases moved
    case full node port data route pressure full =>
      simp only [forall_mem_singleton]
      intro _ tracked tail
      obtain ⟨granted, room⟩ := accepts.1 node port route rfl tracked tail
      rcases full with refused | crammed
      · exact Bool.noConfusion (granted.symm.trans refused)
      · omega
    case evict node port data route pressure head reason _ evicts found =>
      simp only [forall_mem_cons, not_mem_nil, false_implies, implies_true, and_true]
      refine ⟨⟨fun tracked => ?_, by simp [evictedDiscard]⟩, fun _ _ => evicts⟩
      obtain ⟨enabled, -, identified⟩ := tracked
      change (env.sync.isEnabled && _) = true
      rw [enabled]
      simpa [keyOf, evictedDiscard] using identified
    all_goals simp [Frame.Heeds]
  | process moved =>
    cases moved
    case restoreFailed quit => cases quit <;> simp [afterFailure, Frame.Heeds]
    case fail quit => cases quit <;> simp [afterFailure, Frame.Heeds]
    all_goals simp [Frame.Heeds]
  | _ moved => cases moved <;> simp [Frame.Heeds]

theorem Ghost.heeds (rewritten : Ghost env top top')
    (before : ∀ frame ∈ top, frame.Heeds env) : ∀ frame ∈ top', frame.Heeds env := by
  cases rewritten
  case condemn =>
    have none : False := before (.asked _ _) mem_cons_self
    exact none.elim
  case reject node port data route tail =>
    simp only [forall_mem_singleton] at before ⊢
    refine ⟨fun tracked => absurd rfl tracked.2.2, fun _ => ?_⟩
    by_contra tracked
    exact before rfl (Bool.eq_true_of_not_eq_false tracked) tail
  case stopping frame stops => simpa [Frame.Heeds] using before
  all_goals simp_all [Frame.Heeds]

def Env.LedgerStep (env : Env) (seen : View π) (top : List (Frame π)) (seen' : View π)
    (top' : List (Frame π)) : Prop :=
  Ledger.Step env.Tracks seen.ledger (top.flatMap (Frame.owed env)) seen'.ledger
    (top'.flatMap (Frame.owed env))

theorem View.ledger_mark {event : SyncEvent}
    (silent : ∀ node frame reason, event ≠ .dropped node frame reason) :
    ({ seen with syncEvents := seen.syncEvents ++ [event] } : View π).ledger = seen.ledger := by
  have none : event.key = none := by
    cases event with
    | dropped node frame reason => exact absurd rfl (silent node frame reason)
    | _ => rfl
  simp [View.ledger, none]

theorem View.ledger_tell (discard : Discard) :
    ({ seen with syncEvents := seen.syncEvents ++
      [.dropped (env.graph.name discard.node) discard.frame discard.reason] } : View π).ledger =
      { seen.ledger with told := seen.ledger.told ++ [env.keyOf discard] } := by
  simp [View.ledger, SyncEvent.key, keyOf]

theorem View.ledger_name (discard : Discard) :
    ({ seen with
        dropCallbacks := seen.dropCallbacks ++ [env.dropReport discard] } : View π).ledger =
      { seen.ledger with named := seen.ledger.named ++ [env.keyOf discard] } := by
  simp [View.ledger, DropReport.key, keyOf, dropReport]

theorem Move.ledger (moved : Move env label choice seen top seen' top')
    (calm : label = .external → choice.throws = false) (heeds : ∀ frame ∈ top, frame.Heeds env) :
    env.LedgerStep seen top seen' top' := by
  cases moved with
  | control moved =>
    cases moved
    case mark event silent =>
      rw [LedgerStep, View.ledger_mark silent]
      exact .quiet
    case wipe life target rest => cases target <;> exact .quiet
    all_goals exact .quiet
  | gather moved =>
    cases moved
    case callBack discard quiet =>
      simp only [forall_mem_singleton] at heeds
      rw [LedgerStep, View.ledger_name]
      exact .untracked (env.keyOf discard) (Heeds.tracked heeds quiet)
    case callBackOwing discard _ =>
      rw [LedgerStep, View.ledger_name]
      exact .name (env.keyOf discard)
    case tell discard =>
      rw [LedgerStep, View.ledger_tell]
      exact .tell (env.keyOf discard)
    case tellThrows throws => simp [calm rfl] at throws
    all_goals exact .quiet
  | process moved =>
    cases moved
    case restoreFailed quit => cases quit <;> exact .quiet
    case fail quit => cases quit <;> exact .quiet
    all_goals exact .quiet
  | _ moved => cases moved <;> exact .quiet

theorem Ghost.owed (rewritten : Ghost env top top') (sound : .crashed ∉ top) :
    top'.flatMap (Frame.owed env) = top.flatMap (Frame.owed env) := by
  cases rewritten
  case unwind => simp at sound
  all_goals rfl

theorem Move.tells {discard : Discard} {more : List (Frame π)}
    (moved : Move env label choice seen (.owing discard :: more) seen' top') :
    choice.throws = true ∨ seen'.syncEvents = seen.syncEvents ++
      [.dropped (env.graph.name discard.node) discard.frame discard.reason] := by
  cases moved with
  | gather moved =>
    cases moved
    case tell => exact .inr rfl
    case tellThrows throws => exact .inl throws
  | _ moved => cases moved

def Env.RejectsUntracked (env : Env) (reports : List DropReport) : Prop :=
  ∀ report ∈ reports, report.place = none →
    (env.sync.isEnabled && env.sync.tracksNode report.node) = false

theorem Move.rejects (moved : Move env label choice seen top seen' top')
    (heeds : ∀ frame ∈ top, frame.Heeds env) (before : env.RejectsUntracked seen.dropCallbacks) :
    env.RejectsUntracked seen'.dropCallbacks := by
  have reported {discard : Discard} (heeds : env.Heeds discard) :
      env.RejectsUntracked (seen.dropCallbacks ++ [env.dropReport discard]) := by
    intro report member none
    rcases mem_append.mp member with earlier | new
    · exact before report earlier none
    · obtain rfl := mem_singleton.mp new
      exact heeds.placed none
  cases moved with
  | control moved =>
    cases moved
    case wipe life target rest => cases target <;> exact before
    all_goals exact before
  | gather moved =>
    cases moved
    case callBack => exact reported (heeds _ (mem_singleton_self _))
    case callBackOwing => exact reported (heeds _ (mem_singleton_self _))
    all_goals exact before
  | _ moved => cases moved <;> exact before

end Steps

section Runs

/-- No packet is lost by a gather, the heads of executing joins stay where they are, no push to a
tracked node is turned away, and the strategy asks for no drop. -/
def toldDrops (env : Env) : EngineRules π where
  allows label choice state := completeGathers.allows label choice state ∧
    (steadyHeads env).allows label choice state ∧
    env.Accepts label choice state.queue state.syncEvents
  starts procedure _ := procedure.isInterface = true

theorem steadies_toldDrops : env.Steadies (toldDrops (π := π) env) where
  calm _ _ allowed := allowed.1.1 rfl
  resets node _ _ allowed := allowed.2.1.2.1 node rfl
  leaves _ _ _ allowed := allowed.2.1.2.2

structure Reported (env : Env) (seen : View π) (frames : Multiset (Frame π)) : Prop where
  accounted : Accounted env seen frames
  joined : Joined env seen frames
  heeds : ∀ frame ∈ frames, frame.Heeds env
  rejects : env.RejectsUntracked seen.dropCallbacks
  balanced : seen.ledger.Balanced env.Tracks (collect (Frame.owed env) frames)

theorem Reported.step {state state' : State π} {others : Multiset (Frame π)}
    {top top' : List (Frame π)}
    (rewritten : Rewrites env.protocol view (toldDrops env) state top state' top')
    (before : Reported env (view state) (others + top)) :
    Reported env (view state') (others + top') := by
  obtain ⟨accounted, joined, heeds, rejects, balanced⟩ := before
  have complete : ∀ label choice state, (toldDrops (π := π) env).allows label choice state →
      completeGathers.allows label choice state := fun _ _ _ allowed => allowed.1
  have informed : ∀ frame ∈ top, frame.Informed env (view state).queue := fun frame here =>
    joined.steady.informed frame (Multiset.mem_add.mpr (.inr here))
  have here : ∀ frame ∈ top, frame.Heeds env := fun frame here =>
    heeds frame (Multiset.mem_add.mpr (.inr here))
  have sound : .crashed ∉ top := fun crash =>
    accounted.owned.sound (Multiset.mem_add.mpr (.inr crash))
  have after : ∀ frame ∈ top', frame.Heeds env := by
    cases rewritten with
    | move allowed moved => exact Move.heeds moved allowed.2.2 allowed.2.1.2.2.2 informed here
    | ghost shifted => exact Ghost.heeds shifted here
    | fork forked => cases forked <;> simp [Frame.Heeds]
    | start allowed entered => cases entered; simp [Frame.Heeds]
  refine ⟨accounted.step complete rewritten, joined.step steadies_toldDrops rewritten,
    fun frame member => ?_, ?_, ?_⟩
  · rcases Multiset.mem_add.mp member with other | new
    · exact heeds frame (Multiset.mem_add.mpr (.inl other))
    · exact after frame new
  · cases rewritten with
    | move allowed moved => exact Move.rejects moved here rejects
    | _ => exact rejects
  · rw [collect_add] at balanced ⊢
    cases rewritten with
    | move allowed moved => exact balanced.step (Move.ledger moved allowed.1.1 here) _
    | ghost shifted => rwa [Ghost.owed shifted sound]
    | fork forked => cases forked <;> exact balanced
    | start allowed entered => cases entered; exact balanced

theorem reported_origin {origin : State π} (untouched : origin.Untouched)
    (untold : origin.syncEvents = []) : Reported env (view origin) 0 := by
  have unreported : (view origin).dropCallbacks = [] := untouched.2.2.2
  have silent : (view origin).syncEvents = [] := untold
  refine ⟨accounted_origin untouched, joined_origin ?_, by simp, ?_, fun key _ => ?_⟩
  · exact ⟨fun node => (untouched.2.1 node).1, fun node => (untouched.2.1 node).2.1, unreported⟩
  · simp [RejectsUntracked, unreported]
  · simp [collect, View.ledger, unreported, silent]

/-- What a thread still has to tell the strategy.  Its next access does, unless the strategy
throws. -/
structure OwedBy (owed : Multiset FrameKey) (thread : EngineThread π) : Prop where
  ended : thread.program.finished = true → owed = 0
  told : ∀ key ∈ owed, thread.program.AboutTo fun choice before after =>
    choice.throws = true ∨ ∃ reason, after.syncEvents =
      before.syncEvents ++ [.dropped key.node key.frame reason]

theorem Tied.owedBy {thread : EngineThread π} {stack : List (Frame π)}
    (tied : Tied env thread stack) :
    OwedBy (collect (Frame.owed env) (stack : Multiset (Frame π))) thread := by
  refine ⟨fun finished => by simp [tied.ended finished, collect], fun key member => ?_⟩
  obtain ⟨frame, here, owed⟩ := Multiset.mem_bind.mp member
  cases frame with
  | owing discard =>
    obtain rfl := mem_singleton.mp owed
    refine (tied.prompt _ here rfl).imp ?_
    rintro choice before after ⟨label, more, top', moved⟩
    exact (Move.tells moved).imp_right fun told => ⟨discard.reason, told⟩
  | _ => cases owed

/-- Every packet is queued, delivered, dropped or in hand, and a drop is called back about.  The
callback names the packet's node and frame.  No report is about a push that a tracked node turned
away.  And the strategy is told of every callback that names a tracked frame, or about to be. -/
structure Env.TellsDrops (env : Env) (config : EngineThreads π) : Prop where
  conserves : config.Conserves
  faithful : ∀ report ∈ config.shared.history.dropCallbacks,
    env.Faithful config.shared.queue report
  rejects : env.RejectsUntracked config.shared.history.dropCallbacks
  told : ∃ owed : List (Multiset FrameKey),
    List.Forall₂ (fun thread owed => OwedBy owed thread) config.threads owed ∧
    ∀ key, env.Tracks key →
      (config.shared.history.dropCallbacks.map DropReport.key).count key =
        (config.shared.syncEvents.filterMap SyncEvent.key).count key + owed.sum.count key

theorem drops_told (env : Env) (origin : State π) (untouched : origin.Untouched)
    (untold : origin.syncEvents = []) (config : EngineThreads π)
    (run : env.RunsTo (toldDrops env) origin config) : env.TellsDrops config := by
  obtain ⟨entries, stands, reported⟩ := engine_run
    (fun _ _ starts => Proc.standsAlone_of_isInterface starts) run
    (reported_origin untouched untold) fun _ _ _ _ _ _ _ => Reported.step
  refine ⟨reported.accounted.conserves stands, reported.joined.faithful, reported.rejects,
    (entries.map Prod.snd).map fun stack : List (Frame π) =>
      collect (Frame.owed env) (stack : Multiset (Frame π)), ?_, fun key tracked => ?_⟩
  · rw [forall₂_map_right_iff]
    exact (stands.tied reported.accounted.owned.sound).imp fun _ _ => Tied.owedBy
  · have whole : allFrames entries = ((entries.map Prod.snd).flatten : List (Frame π)) := rfl
    rw [← collect_flatten, ← whole]
    exact reported.balanced key tracked

def toldReferee (env : Env) : Referee (State π) (Label π) (Proc π) (Choice π) where
  allows label choice state := gatherReferee.allows label choice state &&
    (steadyReferee env).allows label choice state &&
    match label with
    | .enqueue node port _ =>
      !choice.refuses && decide ((state.queue node port).size < (env.queueConfig node).capacity) ||
        !env.syncTracked node || (env.queueConfig node).dropPolicy != .dropTail
    | .askDrop node frame => !env.sync.shouldDrop state.syncEvents (env.graph.name node) frame
    | _ => true
  starts procedure _ := procedure.isInterface

theorem toldReferee_allows {label : Label π} {choice : Choice π} {state : State π}
    (allowed : (toldReferee env).allows label choice state = true) :
    (toldDrops (π := π) env).allows label choice state := by
  simp only [toldReferee, Bool.and_eq_true] at allowed
  obtain ⟨⟨complete, steady⟩, accepts⟩ := allowed
  refine ⟨gatherReferee_allows complete, steadyReferee_allows steady, ?_, ?_⟩
  · rintro node port route rfl tracked tail
    simpa [tracked, tail] using accepts
  · rintro node frame rfl
    simpa using accepts

def leftOverflows : List (Turn (Proc Unit) (Choice Unit)) :=
  .start (.startStreaming none) :: turns 0 11 {} ++
    .start (.pushInput "join" "left" (numbered 1)) :: turns 1 23 {} ++
    .start (.pushInput "join" "left" (numbered 2)) :: turns 3 9 {} ++
    [.start (.pushInput "join" "left" (numbered 3))]

theorem drops_told_pair : ∃ config,
    (syncedPair .dropHead).RunsTo (toldDrops (syncedPair .dropHead)) ({} : State Unit) config ∧
    config.shared.history.dropCallbacks.map DropReport.key = [⟨"join", 1⟩] ∧
    config.shared.syncEvents.filterMap SyncEvent.key = [⟨"join", 1⟩] ∧
    (syncedPair .dropHead).TellsDrops config := by
  obtain ⟨config, run, named, told⟩ := (syncedPair .dropHead).played
    (toldDrops (syncedPair .dropHead)) (toldReferee (syncedPair .dropHead))
    (fun _ _ _ => toldReferee_allows) (fun _ _ starts => starts) ({} : State Unit)
    (leftOverflows ++ turns 4 14 {})
    (fun config => config.shared.history.dropCallbacks.map DropReport.key = [⟨"join", 1⟩] ∧
      config.shared.syncEvents.filterMap SyncEvent.key = [⟨"join", 1⟩]) (by decide +kernel)
  exact ⟨config, run, named, told,
    drops_told (syncedPair .dropHead) {} untouched_fresh rfl config run⟩

def Proc.pushedFrame : Proc π → Option Nat
  | .pushInput _ _ data => some (frameIdOf data)
  | _ => none

/-- Frame 3 is turned away by the full queue of the tracked node.  The callback is called
without its id, and the strategy is told nothing. -/
theorem rejection_untold : ∃ config,
    (syncedPair .dropTail).RunsTo unrestricted ({} : State Unit) config ∧
    (syncedPair .dropTail).syncTracked 0 = true ∧
    config.shared.history.dropCallbacks =
      [⟨"join", kInvalidFrameId, "DropTail queue full", none⟩] ∧
    config.shared.syncEvents = [] ∧
    (config.threads.getLast?.map fun thread =>
      (thread.procedure.pushedFrame, thread.program.finished)) = some (some 3, true) :=
  Env.playedFreely _ _ (leftOverflows ++ turns 4 6 {}) _ (by decide +kernel)

end Runs

end AiPipe
