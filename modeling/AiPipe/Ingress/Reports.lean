import AiPipe.Ingress.Calls

/-!
What `pushInput` answers, against what became of the queues.  Its status says whether some
queue rejected the packet, but not whether one made room by evicting another.
-/

namespace AiPipe

open Concurrency Env PortQueue List

variable {π : Type}

namespace Env

variable (env : Env)

def evicts (state : State π) (target : Nat × String) : Bool :=
  match env.portIndex target.1 target.2 with
  | none => false
  | some index => (env.queueConfig target.1).dropPolicy != .dropTail &&
      decide ((env.queueConfig target.1).limit ≤ (state.queue target.1 index).size)

def Accepted (state after : State π) (target : Nat × String) : Prop :=
  ∃ index data, env.portIndex target.1 target.2 = some index ∧
    (after.queue target.1 index).pushed = (state.queue target.1 index).pushed ++ [data]

def Evicted (state after : State π) (target : Nat × String) : Prop :=
  ∃ index, env.portIndex target.1 target.2 = some index ∧
    (state.queue target.1 index).dequeuePos < (after.queue target.1 index).dequeuePos

end Env

/-- The answer says what became of the packet. -/
structure Env.Reports (env : Env) (state : State π) (name port : String)
    (answer : Except Error PushStatus) (after : State π) : Prop where
  dropped : outcomeOf answer = some .dropped ↔
    (∃ target ∈ env.pushTargets name port, env.Accepted state after target) ∧
    ∃ target ∈ env.pushTargets name port,
      ¬ env.Accepted state after target ∨ env.Evicted state after target
  enqueued : outcomeOf answer = some .enqueued ↔ env.pushTargets name port ≠ [] ∧
    ∀ target ∈ env.pushTargets name port,
      env.Accepted state after target ∧ ¬ env.Evicted state after target
  error : outcomeOf answer = none ↔
    ∀ target ∈ env.pushTargets name port, ¬ env.Accepted state after target

section Served

variable {env : Env} {may : Choice π → Prop} {state after : State π} {data : PortDataPtr π}
  {target : Nat × String} {name port : String} {answer : Except Error PushStatus}

theorem Env.limit_pos (env : Env) (node : Nat) : 0 < (env.queueConfig node).limit := by
  have positive := env.capacity_pos node
  unfold QueueConfig.limit
  split
  · omega
  · exact positive

theorem Env.Served.accepted (served : env.Served state data after target) :
    env.Accepted state after target ↔ env.accepts state target = true := by
  unfold Accepted accepts
  cases named : env.portIndex target.1 target.2 with
  | none => simp
  | some index =>
    dsimp only
    rw [← offer_isSome _ _ data]
    have queue := served index named
    cases offered : (state.queue target.1 index).offer (env.queueConfig target.1) data with
    | none =>
      rw [offered] at queue
      simp [queue]
    | some pushed =>
      rw [offered] at queue
      unfold offer at offered
      split at offered
      · cases offered
      · obtain rfl := Option.some.inj offered
        simp only [Option.isSome_some, iff_true]
        exact ⟨index, data, rfl, by rw [queue]; rfl⟩

theorem Env.Served.evicted (served : env.Served state data after target) :
    env.Evicted state after target ↔ env.evicts state target = true := by
  unfold Evicted evicts
  cases named : env.portIndex target.1 target.2 with
  | none => simp
  | some index =>
    have queue := served index named
    have positive := env.limit_pos target.1
    have bounded := (state.queue target.1 index).bounded
    simp only [Option.some.injEq, exists_eq_left', Bool.and_eq_true, bne_iff_ne, ne_eq,
      decide_eq_true_eq]
    rw [queue]
    unfold offer
    split
    · rename_i full
      simp [full.1]
    · rename_i room
      change _ < max (state.queue target.1 index).dequeuePos _ ↔ _
      unfold size at room ⊢
      by_cases tail : (env.queueConfig target.1).dropPolicy = .dropTail
      · have limit : (env.queueConfig target.1).limit = (env.queueConfig target.1).capacity := by
          rw [QueueConfig.limit, tail]
        simp only [tail, true_and, not_true_eq_false, false_and, iff_false] at room ⊢
        omega
      · simp only [tail, not_false_eq_true, true_and]
        omega

theorem Env.accepts_of_evicts (gone : env.evicts state target = true) :
    env.accepts state target = true := by
  unfold evicts at gone
  unfold accepts
  cases named : env.portIndex target.1 target.2 with
  | none =>
    rw [named] at gone
    cases gone
  | some index =>
    rw [named] at gone
    simp only [Bool.and_eq_true, bne_iff_ne, ne_eq] at gone
    simp [gone.1]

theorem Env.not_accepted (same : ∀ index, env.portIndex target.1 target.2 = some index →
    after.queue target.1 index = state.queue target.1 index) :
    ¬ env.Accepted state after target ∧ ¬ env.Evicted state after target := by
  constructor
  · rintro ⟨index, data, named, grown⟩
    rw [same index named] at grown
    simp at grown
  · rintro ⟨index, named, gone⟩
    rw [same index named] at gone
    omega

theorem Env.Pushes.taken (pushes : env.Pushes may state name port data answer after)
    (member : target ∈ env.pushTargets name port) :
    (env.Accepted state after target ↔
      env.pushReaches state name port = true ∧ env.accepts state target = true) ∧
    (env.Evicted state after target ↔
      env.pushReaches state name port = true ∧ env.evicts state target = true) := by
  have enters := pushes.enters
  cases reaches : env.pushReaches state name port with
  | false =>
    rw [reaches] at enters
    have same (index : Nat) (named : env.portIndex target.1 target.2 = some index) :
        after.queue target.1 index = state.queue target.1 index :=
      queue_of_spares enters.spares not_mem_nil named
    simp [not_accepted same]
  | true =>
    rw [reaches, if_pos rfl] at enters
    obtain ⟨choice, -, served, -⟩ := enters.served
    rw [(served target member).accepted, (served target member).evicted]
    simp

end Served

section Answers

variable {env : Env} {may : Choice π → Prop} {state after : State π} {data : PortDataPtr π}
  {name port : String} {answer : Except Error PushStatus}

/-- If the packet gets to the queues, then one of them rejects it or none of them makes room. -/
def Env.EvictsNothing (env : Env) (state : State π) (name port : String) : Prop :=
  env.pushReaches state name port = true →
    (∃ target ∈ env.pushTargets name port, env.accepts state target = false) ∨
      ∀ target ∈ env.pushTargets name port, env.evicts state target = false

theorem Env.Reports.of_none (outcome : outcomeOf answer = none)
    (refused : ∀ target ∈ env.pushTargets name port, ¬ env.Accepted state after target) :
    env.Reports state name port answer after := by
  refine ⟨?_, ?_, ?_⟩ <;> rw [outcome]
  · refine ⟨nofun, ?_⟩
    rintro ⟨⟨target, member, taken⟩, -⟩
    exact absurd taken (refused target member)
  · refine ⟨nofun, ?_⟩
    rintro ⟨some, all⟩
    obtain ⟨target, member⟩ := exists_mem_of_ne_nil _ some
    exact absurd (all target member).1 (refused target member)
  · exact ⟨fun _ => refused, fun _ => rfl⟩

theorem Env.Reports.of_dropped (outcome : outcomeOf answer = some .dropped)
    {first other : Nat × String} (here : first ∈ env.pushTargets name port)
    (taken : env.Accepted state after first) (there : other ∈ env.pushTargets name port)
    (refused : ¬ env.Accepted state after other) : env.Reports state name port answer after := by
  refine ⟨?_, ?_, ?_⟩ <;> rw [outcome]
  · exact ⟨fun _ => ⟨⟨first, here, taken⟩, other, there, .inl refused⟩, fun _ => rfl⟩
  · exact ⟨nofun, fun holds => absurd (holds.2 other there).1 refused⟩
  · exact ⟨nofun, fun nobody => absurd taken (nobody first here)⟩

theorem Env.reports_enqueued_iff (outcome : outcomeOf answer = some .enqueued)
    (some : env.pushTargets name port ≠ [])
    (taken : ∀ target ∈ env.pushTargets name port, env.Accepted state after target) :
    env.Reports state name port answer after ↔
      ∀ target ∈ env.pushTargets name port, ¬ env.Evicted state after target := by
  constructor
  · intro reports target member
    exact ((reports.enqueued.mp outcome).2 target member).2
  · intro kept
    refine ⟨?_, ?_, ?_⟩ <;> rw [outcome]
    · refine ⟨nofun, ?_⟩
      rintro ⟨-, target, member, refused | gone⟩
      · exact absurd (taken target member) refused
      · exact absurd gone (kept target member)
    · exact ⟨fun _ => ⟨some, fun target member => ⟨taken target member, kept target member⟩⟩,
        fun _ => rfl⟩
    · obtain ⟨target, member⟩ := exists_mem_of_ne_nil _ some
      exact ⟨nofun, fun nobody => absurd (taken target member) (nobody target member)⟩

theorem Env.Pushes.reports_iff (pushes : env.Pushes may state name port data answer after) :
    env.Reports state name port answer after ↔ env.EvictsNothing state name port := by
  have outcome := pushes.outcome
  have accepted (target : Nat × String) (member : target ∈ env.pushTargets name port) :=
    (pushes.taken member).1
  have evicted (target : Nat × String) (member : target ∈ env.pushTargets name port) :=
    (pushes.taken member).2
  unfold EvictsNothing
  cases reaches : env.pushReaches state name port with
  | false =>
    rw [pushOutcome, reaches, Bool.false_and, if_neg (by decide)] at outcome
    refine ⟨fun _ reached => absurd reached Bool.false_ne_true,
      fun _ => .of_none outcome fun target member taken => ?_⟩
    rw [accepted target member, reaches] at taken
    cases taken.1
  | true =>
    rw [pushOutcome, reaches, Bool.true_and] at outcome
    simp only [reaches, true_and] at accepted evicted
    have refused {target : Nat × String} (member : target ∈ env.pushTargets name port)
        (rejects : ¬ env.accepts state target = true) : ¬ env.Accepted state after target :=
      fun taken => rejects ((accepted target member).mp taken)
    by_cases somebody : ∃ first ∈ env.pushTargets name port, env.accepts state first = true
    · obtain ⟨first, here, accepts⟩ := somebody
      rw [if_pos (any_eq_true.mpr ⟨first, here, accepts⟩)] at outcome
      by_cases everybody : ∀ target ∈ env.pushTargets name port, env.accepts state target = true
      · rw [if_pos (all_eq_true.mpr everybody)] at outcome
        rw [reports_enqueued_iff outcome (ne_nil_of_mem here) fun target member =>
          (accepted target member).mpr (everybody target member)]
        constructor
        · intro kept _
          refine .inr fun target member => ?_
          rw [← Bool.not_eq_true, ← evicted target member]
          exact kept target member
        · intro nothing target member gone
          rw [evicted target member] at gone
          rcases nothing rfl with ⟨other, there, rejects⟩ | none
          · rw [everybody other there] at rejects
            cases rejects
          · rw [none target member] at gone
            cases gone
      · rw [if_neg fun all => everybody (all_eq_true.mp all)] at outcome
        push Not at everybody
        obtain ⟨other, there, rejects⟩ := everybody
        refine ⟨fun _ _ => .inl ⟨other, there, Bool.not_eq_true _ ▸ rejects⟩, fun _ => ?_⟩
        exact .of_dropped outcome here ((accepted first here).mpr accepts) there
          (refused there rejects)
    · rw [if_neg fun any => somebody (any_eq_true.mp any)] at outcome
      push Not at somebody
      refine ⟨fun _ _ => .inr fun target member => ?_, fun _ => .of_none outcome
        fun target member => refused member (somebody target member)⟩
      rw [← Bool.not_eq_true]
      exact fun evicts => somebody target member (accepts_of_evicts evicts)

/-- The status of a call by itself reports what became of the queues exactly where no older
packet is evicted without a rejection that covers it. -/
theorem push_status_reports (env : Env) (state : State π) (name port : String)
    (data : PortDataPtr π) (free : state.engineMutex = false) :
    Ends env.body Choice.Calm (env.pushInput name port data) state
      (env.Reports state name port) ↔ env.EvictsNothing state name port := by
  have calm : Choice.Calm ({} : Choice π) := ⟨rfl, rfl⟩
  exact (pushInput_completes (fun _ calm => calm) ⟨{}, calm⟩ free).ends.iff_of calm
    fun _ _ pushes => pushes.reports_iff

def branchGraph : Graph where
  nodes := [⟨"camera", [], ["out"]⟩, ⟨"left", ["in"], []⟩, ⟨"right", ["in"], []⟩]
  edges := [⟨0, "out", 1, "in"⟩, ⟨0, "out", 2, "in"⟩]
  namesNodup := by decide
  portsNodup := by decide
  edgesNodup := by decide
  edgesDeclared := by simp [Edge.declared]

def branchEngine : Env :=
  { Env.ofGraph branchGraph (by decide) (streamSchedulerStrategy {}) with
    queueConfig := fun _ =>
      { capacity := 2, dropPolicy := .dropTail, keepLatestN := 1, twoLe := Nat.le_refl 2 } }

def leftFull : State Unit :=
  streamingState.updateQueue 1 0 fun queue =>
    (queue.push (some { id := 1, payload := () })).push (some { id := 2, payload := () })

/-- The left branch turns the packet away and the right one takes it. -/
theorem push_status_reports_camera :
    branchEngine.pushReaches leftFull "camera" "out" = true ∧
    (branchEngine.pushTargets "camera" "out").map (branchEngine.accepts leftFull) = [false, true] ∧
    Ends branchEngine.body Choice.Calm (branchEngine.pushInput "camera" "out" (some { payload := () }))
      leftFull (branchEngine.Reports leftFull "camera" "out") := by
  refine ⟨by decide +kernel, by decide +kernel,
    (push_status_reports branchEngine leftFull "camera" "out" _ rfl).mpr fun _ => .inl ?_⟩
  exact ⟨(1, "in"), by decide +kernel, by decide +kernel⟩

end Answers

def crowdedEngine : Env :=
  { soloEngine with
    queueConfig := fun _ =>
      { capacity := 2, dropPolicy := .dropHead, keepLatestN := 1, twoLe := by decide } }

def crowdedState : State Unit :=
  streamingState.updateQueue 0 0 fun queue =>
    (queue.push (some { id := 1, timestamp := 1, payload := () })).push
      (some { id := 2, timestamp := 2, payload := () })

/-- The push of a third frame evicts the first one, and answers `Enqueued`. -/
theorem eviction_reported_as_enqueued :
    ¬ Ends crowdedEngine.body Choice.Calm
      (crowdedEngine.pushInput "camera" "frame" (some { payload := () })) crowdedState
      (crowdedEngine.Reports crowdedState "camera" "frame") := by
  intro ends
  obtain ⟨fuel, answer, after, ran, reports⟩ := ends (fun _ => {}) fun _ => ⟨rfl, rfl⟩
  have played : (alone crowdedEngine.body 60 (fun _ => {})
      (crowdedEngine.pushInput "camera" "frame" (some { payload := () })) crowdedState).map
      (fun run => (outcomeOf run.1, (run.2.queue 0 0).dequeuePos)) = some (some .enqueued, 1) := by
    decide
  obtain ⟨⟨answer', after'⟩, ran', same⟩ := Option.map_eq_some_iff.mp played
  obtain ⟨rfl, rfl⟩ := Prod.mk.inj (alone_agree ran ran')
  obtain ⟨enqueued, position⟩ := Prod.mk.inj same
  have kept := ((reports.enqueued.mp enqueued).2 (0, "frame") (by decide)).2
  exact kept ⟨0, by decide, by rw [position]; decide⟩

end AiPipe
