import AiPipe.Heads
import AiPipe.Packets

/-!
Joins get aligned sets.  An eviction between the peek and the pop breaks the alignment and the
id under which a drop is reported.
-/

namespace AiPipe

open Concurrency List

variable {π : Type} {env : Env}

/-- A report names the packet that was taken out; one without a packet tells of a push that
was turned away. -/
def Env.Faithful (env : Env) (queues : Queues π) (report : DropReport) : Prop :=
  match report.place with
  | some place => report.node = env.graph.name place.node ∧
      (queues.packetAt place).map frameIdOf = some report.frame
  | none => report.reason = "DropTail queue full"

theorem Env.Faithful.later {queues queues' : Queues π} {report : DropReport}
    (grow : queues.Grow queues') (before : env.Faithful queues report) :
    env.Faithful queues' report := by
  unfold Env.Faithful at before ⊢
  split
  next place same =>
    rw [same] at before
    obtain ⟨data, found, named⟩ := Option.map_eq_some_iff.mp before.2
    exact ⟨before.1, by rw [grow place data found, Option.map_some, named]⟩
  next none =>
    rw [none] at before
    exact before

theorem Discard.Accurate.faithful {discard : Discard} {queues : Queues π}
    (accurate : discard.Accurate queues) : env.Faithful queues (env.dropReport discard) := by
  unfold Env.Faithful
  split
  next place same =>
    obtain ⟨here, data, found, named⟩ := accurate.names place same
    refine ⟨congrArg env.graph.name here.symm, ?_⟩
    rw [found, Option.map_some, named]
    rfl
  next none =>
    change discard.reason = _
    rw [accurate.rejects none]
    rfl

def Env.Aligned (env : Env) (calls : Nat → List (List (Taken π))) : Prop :=
  ∀ node, env.Aligns node → ∀ call ∈ calls node,
    env.framePolicy.aligned (call.map Taken.data) = true

section Steps

variable {label : Label π} {choice : Choice π} {seen seen' : View π}
  {top top' : List (Frame π)}

theorem Move.aligned (moved : Move env label choice seen top seen' top')
    (informed : ∀ frame ∈ top, frame.Informed env seen.queue) (before : env.Aligned seen.calls) :
    env.Aligned seen'.calls := by
  cases moved with
  | control moved =>
    cases moved
    case wipe life target rest => cases target <;> exact before
    all_goals exact before
  | process moved =>
    cases moved
    case callBegin id node progress covers =>
      simp only [forall_mem_singleton] at informed
      intro other aligns call member
      by_cases here : other = node
      · subst here
        simp only [Function.update_self, mem_append, mem_singleton] at member
        rcases member with earlier | rfl
        · exact before other aligns call earlier
        · exact Env.aligned_subset (map_subset _ (informed.held aligns)) informed.aligned
      · simp only [Function.update_of_ne here] at member
        exact before other aligns call member
    all_goals exact before
  | _ moved => cases moved <;> exact before

theorem Move.faithful (moved : Move env label choice seen top seen' top')
    (informed : ∀ frame ∈ top, frame.Informed env seen.queue)
    (before : ∀ report ∈ seen.dropCallbacks, env.Faithful seen.queue report) :
    ∀ report ∈ seen'.dropCallbacks, env.Faithful seen'.queue report := by
  have kept : ∀ report ∈ seen.dropCallbacks, env.Faithful seen'.queue report :=
    fun report member => (before report member).later moved.grow
  have reported {discard : Discard} (accurate : discard.Accurate seen.queue) :
      ∀ report ∈ seen.dropCallbacks ++ [env.dropReport discard],
        env.Faithful seen.queue report := by
    intro report member
    rcases mem_append.mp member with earlier | new
    · exact before report earlier
    · exact mem_singleton.mp new ▸ accurate.faithful
  cases moved with
  | control moved =>
    cases moved
    case wipe life target rest => cases target <;> exact kept
    all_goals exact kept
  | gather moved =>
    cases moved
    case callBack => exact reported (informed _ (mem_singleton_self _))
    case callBackOwing => exact reported (informed _ (mem_singleton_self _))
    all_goals exact kept
  | _ moved => cases moved <;> exact kept

end Steps

section Runs

/-- No strategy and no trace sink throws, a node is reset only while it is idle, and while a
join executes nothing is evicted from it, none of its queues is cleared, and no pop is refused. -/
def steadyHeads (env : Env) : EngineRules π where
  allows label choice state := (label = .external → choice.throws = false) ∧
    (∀ node, label = .resetNode node → ¬ (state.exec node).Busy) ∧
    env.LeavesHeads label state.exec ∧ env.Grants label choice
  starts procedure _ := procedure.isInterface = true

theorem steadies_steadyHeads : env.Steadies (steadyHeads (π := π) env) where
  calm _ _ allowed := allowed.1 rfl
  resets node _ _ allowed := allowed.2.1 node rfl
  leaves _ _ _ allowed := allowed.2.2

structure Joined (env : Env) (seen : View π) (frames : Multiset (Frame π)) : Prop where
  steady : Attentive env seen frames
  aligned : env.Aligned seen.calls
  faithful : ∀ report ∈ seen.dropCallbacks, env.Faithful seen.queue report

theorem Joined.step {rules : EngineRules π} (steadies : env.Steadies rules)
    {state state' : State π} {others : Multiset (Frame π)} {top top' : List (Frame π)}
    (rewritten : Rewrites env.protocol view rules state top state' top')
    (before : Joined env (view state) (others + top)) :
    Joined env (view state') (others + top') := by
  obtain ⟨steady, aligned, faithful⟩ := before
  have informed : ∀ frame ∈ top, frame.Informed env (view state).queue := fun frame here =>
    steady.informed frame (Multiset.mem_add.mpr (.inr here))
  refine ⟨steady.step steadies rewritten, ?_, ?_⟩
  · cases rewritten with
    | move allowed moved => exact Move.aligned moved informed aligned
    | _ => exact aligned
  · cases rewritten with
    | move allowed moved => exact Move.faithful moved informed faithful
    | _ => exact faithful

def State.Unheard (state : State π) : Prop :=
  (∀ node, ¬ (state.exec node).Busy) ∧ (∀ node, (state.node node).calls = []) ∧
    state.history.dropCallbacks = []

theorem joined_origin {origin : State π} (unheard : origin.Unheard) :
    Joined env (view origin) 0 := by
  obtain ⟨idle, uncalled, untold⟩ := unheard
  refine ⟨attentive_origin idle, fun node _ call member => ?_, fun report member => ?_⟩
  · have none : (view origin).calls node = [] := uncalled node
    simp [none] at member
  · have none : (view origin).dropCallbacks = [] := untold
    simp [none] at member

theorem joins_aligned (env : Env) (origin : State π) (unheard : origin.Unheard)
    (config : EngineThreads π) (run : env.RunsTo (steadyHeads env) origin config) :
    (∀ node, env.Aligns node → ∀ call ∈ (config.shared.node node).calls,
      env.framePolicy.aligned (call.map Taken.data) = true) ∧
    ∀ report ∈ config.shared.history.dropCallbacks,
      env.Faithful config.shared.queue report := by
  obtain ⟨frames, joined⟩ := engine_invariant
    (fun _ _ starts => Proc.standsAlone_of_isInterface starts) run (joined_origin unheard)
    fun _ _ _ _ _ => Joined.step steadies_steadyHeads
  exact ⟨joined.aligned, joined.faithful⟩

def steadyReferee (env : Env) : Referee (State π) (Label π) (Proc π) (Choice π) where
  allows
    | .external, choice, _ => !choice.throws
    | .resetNode _, _, _ => false
    | .clearQueue _ _, _, _ => false
    | .evict node _, _, state => decide (env.portCount node ≤ 1) || state.exec node != .executing
    | .gatherPop _ _ _, choice, _ => !choice.refuses
    | .discardPop _ _, choice, _ => !choice.refuses
    | _, _, _ => true
  starts procedure _ := procedure.isInterface

theorem steadyReferee_allows {label : Label π} {choice : Choice π} {state : State π}
    (allowed : (steadyReferee env).allows label choice state = true) :
    (steadyHeads (π := π) env).allows label choice state := by
  refine ⟨?_, ?_, ?_, ?_⟩
  · rintro rfl
    simpa [steadyReferee] using allowed
  · rintro node rfl
    cases allowed
  · rintro node port several (rfl | rfl)
    · simp only [steadyReferee, Bool.or_eq_true, decide_eq_true_eq, bne_iff_ne] at allowed
      exact allowed.resolve_left (Nat.not_le.mpr several)
    · cases allowed
  · rintro node port held - (rfl | rfl) <;> simpa [steadyReferee] using allowed

def watchfulSync : SyncStrategy where
  isEnabled := true
  tracksNode _ := true
  shouldDrop _ _ _ := false

theorem small_le : 2 ≤ 2 := le_rfl

def smallQueue (dropPolicy : LockFreeDropPolicy) : QueueConfig where
  capacity := 2
  dropPolicy := dropPolicy
  keepLatestN := 1
  twoLe := small_le

def syncedPair (dropPolicy : LockFreeDropPolicy) : Env :=
  { pairEngine with
    sync := watchfulSync
    queueConfig := fun _ => smallQueue dropPolicy }

def numbered (id : Nat) : PortDataPtr Unit := some ⟨id, 0, 0, ()⟩

def bothPushed : List (Turn (Proc Unit) (Choice Unit)) :=
  .start (.startStreaming none) :: turns 0 11 {} ++
    .start (.pushInput "join" "left" (numbered 1)) :: turns 1 23 {} ++
    .start (.pushInput "join" "right" (numbered 1)) :: turns 3 9 {}

theorem joins_aligned_pair : ∃ config,
    (syncedPair .dropHead).RunsTo (steadyHeads (syncedPair .dropHead)) ({} : State Unit) config ∧
    (config.shared.node 0).calls.length = 1 ∧
    (∀ node, (syncedPair .dropHead).Aligns node → ∀ call ∈ (config.shared.node node).calls,
      (syncedPair .dropHead).framePolicy.aligned (call.map Taken.data) = true) ∧
    ∀ report ∈ config.shared.history.dropCallbacks,
      (syncedPair .dropHead).Faithful config.shared.queue report := by
  obtain ⟨config, run, called⟩ := (syncedPair .dropHead).played (steadyHeads (syncedPair .dropHead))
    (steadyReferee (syncedPair .dropHead)) (fun _ _ _ => steadyReferee_allows)
    (fun _ _ starts => starts) ({} : State Unit) (bothPushed ++ turns 2 17 {})
    (fun config => (config.shared.node 0).calls.length = 1) (by decide +kernel)
  exact ⟨config, run, called, joins_aligned (syncedPair .dropHead) {}
    ⟨fun _ => by simp [State.exec, NodeExecutionState.Busy], fun _ => rfl, rfl⟩ config run⟩

/-- The task has peeked frame 1 on both ports and popped the left one.  Two pushes to the
right port evict its head, and the task pops frame 2 there. -/
theorem eviction_unaligns : ∃ config,
    (syncedPair .dropHead).RunsTo unrestricted ({} : State Unit) config ∧
    (syncedPair .dropHead).Aligns 0 ∧ ∃ call ∈ (config.shared.node 0).calls,
      call.map (fun packet => frameIdOf packet.data) = [1, 2] ∧
      (syncedPair .dropHead).framePolicy.aligned (call.map Taken.data) = false := by
  obtain ⟨config, run, unaligned⟩ := (syncedPair .dropHead).playedFreely ({} : State Unit)
    (bothPushed ++ turns 2 12 {} ++
      .start (.pushInput "join" "right" (numbered 2)) :: turns 4 9 {} ++
      .start (.pushInput "join" "right" (numbered 3)) :: turns 5 14 {} ++ turns 2 5 {})
    (fun config => ∃ call ∈ (config.shared.node 0).calls,
      call.map (fun packet => frameIdOf packet.data) = [1, 2] ∧
      (syncedPair .dropHead).framePolicy.aligned (call.map Taken.data) = false) (by decide +kernel)
  exact ⟨config, run, ⟨by decide, .inr rfl⟩, unaligned⟩

end Runs

end AiPipe
