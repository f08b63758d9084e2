import AiPipe.Protocol.Ghosts
import Mathlib.Tactic.SplitIfs

/-!
Rules for showing that the engine's programs follow the protocol: how the state's
updates look in the view, and one rule for each primitive access.
-/

namespace AiPipe

open Concurrency Function State

variable {π : Type}

section Views

variable (state : State π) (node port : Nat)

theorem view_updateNode (change : NodeState π → NodeState π) (entry : NodeState π)
    (changed : change (state.node node) = entry) :
    view (state.updateNode node change) =
      { view state with
        exec := update (view state).exec node entry.execState
        executions := update (view state).executions node entry.executionCount
        latched := update (view state).latched node fun port =>
          decide (port < kMaxEosPorts) && entry.eosMask port
        propagated := update (view state).propagated node entry.eosPropagated
        degrade := update (view state).degrade node entry.degradePending
        queue := update (view state).queue node entry.queues
        calls := update (view state).calls node entry.calls
        processing := update (view state).processing node entry.processing
        flushes := update (view state).flushes node entry.flushes
        flushing := update (view state).flushing node entry.flushing
        flushed := update (view state).flushed node entry.flushed
        finishing := update (view state).finishing node entry.finishing } := by
  have field {β : Type} (project : NodeState π → β) :
      (fun index => project (update state.node node entry index)) =
        update (fun index => project (state.node index)) node (project entry) :=
    comp_update project state.node node entry
  simp only [view, updateNode, latched, changed, field]
  congr 1
  · exact field fun other port => decide (port < kMaxEosPorts) && other.eosMask port
  · exact field NodeState.queues

theorem view_setExec (value : NodeExecutionState) :
    view (state.setExec node value) = (view state).setExec node value := by
  rw [State.setExec, view_updateNode state node _ _ rfl]
  simp [view, View.setExec, latched]

theorem view_updateQueue (change : PortQueue π → PortQueue π) :
    view (state.updateQueue node port change) =
      (view state).setQueue node port (change (state.queue node port)) := by
  rw [updateQueue, view_updateNode state node _ _ rfl]
  simp [view, View.setQueue, latched, queue]

theorem view_latch (bounded : port < kMaxEosPorts) :
    view (state.updateNode node fun entry =>
      { entry with eosMask := update entry.eosMask port true }) =
      (view state).latch node port := by
  have row : (fun index => decide (index < kMaxEosPorts) &&
        update (state.node node).eosMask port true index) =
      update ((view state).latched node) port true := by
    funext index
    by_cases same : index = port
    · subst same
      simp [bounded]
    · simp [same, view, latched]
  rw [view_updateNode state node _ _ rfl]
  simp only [row]
  simp [view, View.latch]

theorem view_wipe (target : Wipe) : view (target.apply state) = (view state).wipe target := by
  cases target with
  | beginClear | beginRun | counter | completionReported | frameIds | sinksAtEos | endOfStream
  | streamFrameIds | results | stopFlag | streamingMode | engineState | endClear => rfl
  | exec node => exact view_setExec state node .waiting
  | queue node port => exact view_updateQueue state node port PortQueue.clear
  | executionCount node | joinWait node | degradePending node | eosMask node
  | eosPropagated node =>
    simp only [Wipe.apply, View.wipe]
    rw [view_updateNode state node _ _ rfl]
    simp [view, latched]

end Views

def Env.Advance (env : Env) (label : Label π) (choice : Choice π) (seen : View π)
    (stack : List (Frame π)) (seen' : View π) (stack' : List (Frame π)) : Prop :=
  ∃ top top' tail, (top = [] → env.protocol.Free tail) ∧ Move env label choice seen top seen' top' ∧
    stack = top ++ tail ∧ stack' = top' ++ tail

abbrev Env.Follows {α : Type} (env : Env) (program : Code π α) (stack : List (Frame π))
    (post : α → List (Frame π) → Prop) : Prop :=
  Conforms env.protocol view env.Keeps program stack post

def Env.Silent {α : Type} (env : Env) (program : Code π α) : Prop :=
  env.Follows program [] fun _ stack => stack = []

section Rules

variable {env : Env} {α β : Type} {label : Label π} {top top' : List (Frame π)} {choice : Choice π}

variable (tail : List (Frame π))

theorem Move.above {seen seen' : View π} (moved : Move env label choice seen top seen' top')
    [free : env.protocol.Free tail] :
    env.Advance label choice seen (top ++ tail) seen' (top' ++ tail) :=
  ⟨top, top', tail, fun _ => free, moved, rfl, rfl⟩

theorem Move.advance {seen seen' : View π} (moved : Move env label choice seen top seen' top') :
    env.Advance label choice seen top seen' top' :=
  ⟨top, top', [], fun _ => .nil, moved, (List.append_nil top).symm, (List.append_nil top').symm⟩

variable {stack : List (Frame π)}

theorem Env.Advance.idle {seen : View π}
    [free : env.protocol.Free stack] :
    env.Advance label choice seen stack seen stack :=
  ⟨[], [], stack, fun _ => free, .control .idle, rfl, rfl⟩

variable {post : α → List (Frame π) → Prop}

theorem follows_ghost {program : Code π α} (rewritten : Ghost env top top')
    (conforms : env.Follows program (top' ++ tail) post) :
    env.Follows program (top ++ tail) post :=
  .ghost rewritten conforms

variable {effect : Choice π → State π → Option (α × State π)}

theorem follows_access
    (each : ∀ choice state answer state', effect choice state = some (answer, state') →
      ∃ stack', env.Advance label choice (view state) stack (view state') stack' ∧
        post answer stack') :
    env.Follows (.act label effect .ret) stack post := by
  intro choice state answer state' made
  obtain ⟨stack', ⟨top, top', tail, free, moved, rfl, rfl⟩, left⟩ :=
    each choice state answer state' made
  exact ⟨top, tail, top', .refl, free, moved, .ret left⟩

variable {field : State π → α}

theorem follows_read (each : ∀ choice state, ∃ stack',
      env.Advance .internal choice (view state) stack (view state) stack' ∧
        post (field state) stack') :
    env.Follows (read field) stack post := by
  refine follows_access fun choice state answer state' made => ?_
  cases made
  exact each choice state

variable {stack stack' : List (Frame π)}

/-- A load after which the thread goes another way where a test holds. -/
theorem follows_test (test : α → Prop) [DecidablePred test]
    (gone : ∀ choice state, test (field state) →
      Move env .internal choice (view state) stack (view state) stack')
    [free : env.protocol.Free stack] :
    env.Follows (read field) stack fun answer left =>
      left = if test answer then stack' else stack := by
  refine follows_read fun choice state => ?_
  by_cases holds : test (field state)
  · exact ⟨_, (gone choice state holds).advance, by rw [if_pos holds]⟩
  · exact ⟨_, .idle, by rw [if_neg holds]⟩

variable {change : State π → State π}

theorem follows_storeAs
    (each : ∀ choice state, Move env label choice (view state) stack (view (change state)) stack') :
    env.Follows (storeAs label change) stack fun _ left => left = stack' := by
  refine follows_access fun choice state answer state' made => ?_
  cases made
  exact ⟨stack', (each choice state).advance, rfl⟩

theorem follows_store (each : ∀ choice state,
      Move env .internal choice (view state) stack (view (change state)) stack') :
    env.Follows (store change) stack fun _ left => left = stack' :=
  follows_storeAs each

theorem follows_storeOn {next : Unit → Code π α} (top tail : List (Frame π)) {top' : List (Frame π)}
    (each : ∀ choice state, Move env label choice (view state) top (view (change state)) top')
    (rest : env.Follows (next ()) (top' ++ tail) post)
    [free : env.protocol.Free (top ++ tail)] :
    env.Follows (storeAs label change >>= next) (top ++ tail) post :=
  .store top tail (fun bare => by rwa [bare] at free) each rest

theorem follows_setExec {node : Nat} {value : NodeExecutionState} (each : ∀ choice seen,
      Move env .internal choice seen stack (seen.setExec node value) stack') :
    env.Follows (setExec node value) stack fun _ left => left = stack' := by
  refine follows_store fun choice state => ?_
  rw [view_setExec]
  exact each choice (view state)

theorem follows_wipe {target : Wipe} (each : ∀ choice seen,
      Move env target.label choice seen stack (seen.wipe target) stack') :
    env.Follows (wipe target) stack fun _ left => left = stack' := by
  refine follows_storeAs fun choice state => ?_
  rw [view_wipe]
  exact each choice (view state)

theorem follows_casExec {node : Nat} {expected desired : NodeExecutionState}
    {post : Bool → List (Frame π) → Prop}
    (won : ∀ choice seen, seen.exec node = expected → ∃ stack',
      env.Advance label choice seen stack (seen.setExec node desired) stack' ∧
        post true stack')
    (lost : ∀ choice seen, seen.exec node ≠ expected → ∃ stack',
      env.Advance label choice seen stack seen stack' ∧ post false stack') :
    env.Follows (casExecAs label node expected desired) stack post := by
  refine follows_access fun choice state answer state' made => ?_
  split at made
  next same =>
    cases made
    rw [view_setExec]
    exact won choice (view state) same
  next different =>
    cases made
    exact lost choice (view state) different

theorem silent_access
    (unseen : ∀ choice state answer state', effect choice state = some (answer, state') →
      view state' = view state) :
    env.Silent (.act label effect .ret) := by
  refine follows_access fun choice state answer state' made => ⟨[], ?_, rfl⟩
  rw [unseen choice state answer state' made]
  exact .idle

theorem silent_read (field : State π → α) : env.Silent (read field) :=
  follows_read fun _ _ => ⟨[], .idle, rfl⟩

theorem silent_store
    (unseen : ∀ state, view (change state) = view state) : env.Silent (store change) := by
  refine follows_store fun choice state => ?_
  rw [unseen]
  exact .control .idle

variable {condition : State π → Bool}

theorem silent_await : env.Silent (await label condition) := by
  refine silent_access fun choice state answer state' made => ?_
  split at made
  · cases made
    rfl
  · simp at made

theorem silent_awaitOrExpire : env.Silent (awaitOrExpire label condition) := by
  refine silent_access fun choice state answer state' made => ?_
  split_ifs at made <;>
    · cases made
      rfl

theorem silent_clock : env.Silent (clock : Code π Int) := by
  refine silent_access fun choice state answer state' made => ?_
  cases made
  rfl

theorem silent_ret (value : α) : env.Silent (.ret value : Code π α) :=
  ⟨[], .refl, rfl⟩

/-- A call of foreign code returns, or it throws and the thread unwinds. -/
theorem silent_external : env.Silent (external : Code π Unit) := by
  intro choice state answer state' made
  cases made
  by_cases throws : choice.throws = true
  · refine ⟨[], [], [.crashed], .refl, fun _ => .nil, .control (.throws throws), ?_⟩
    rw [throws]
    exact .thrown []
  · refine ⟨[], [], [], .refl, fun _ => .nil, .control .idle, ?_⟩
    rw [Bool.eq_false_iff.mpr throws]
    exact .ret rfl

variable {next : α → Code π β}

theorem Env.Silent.andThen {first : Code π α}
    {post : β → List (Frame π) → Prop} (silent : env.Silent first)
    (rest : ∀ value, env.Follows (next value) stack post)
    [free : env.protocol.Free stack] :
    env.Follows (first >>= next) stack post := by
  refine .bindFrame stack silent fun value own left => ?_
  subst left
  exact rest value

theorem Env.Silent.under {program : Code π α} (silent : env.Silent program)
    (stack : List (Frame π))
    [free : env.protocol.Free stack] :
    env.Follows program stack fun _ left => left = stack := by
  rw [← Prog.bind_ret program]
  exact silent.andThen fun _ => .ret rfl

theorem Env.Silent.bind {first : Code π α} (silent : env.Silent first)
    (rest : ∀ value, env.Silent (next value)) : env.Silent (first >>= next) :=
  silent.andThen rest

theorem silent_forEach {body : β → Code π Unit} {items : List β}
    (each : ∀ item ∈ items, env.Silent (body item)) : env.Silent (Prog.forEach body items) := by
  refine .forEach (fun _ stack => stack = []) rfl ?_
  intro item rest stack member left
  subst left
  exact each item member

theorem silent_count (change : Statistics → Statistics) : env.Silent (π := π) (count change) :=
  silent_store fun _ => rfl

theorem silent_emitTrace : env.Silent (π := π) env.emitTrace := by
  unfold Env.emitTrace
  split
  · exact silent_external
  · exact silent_ret ()

/-- A scope under the engine lock; the lock lies on top of the frames of the caller. -/
theorem follows_withEngineLock {body : Code π α}
    (conforms : env.Follows body (.engineLock {} :: stack) fun value left => ∃ life rest,
      left = .engineLock ⟨life, none⟩ :: rest ∧ (life = .plain ∨ life = .up) ∧ post value rest)
    [free : env.protocol.Free stack] :
    env.Follows (withEngineLock body) stack post := by
  have locks : env.Follows (π := π) lockEngine [] fun _ left => left = [.engineLock {}] := by
    refine follows_access fun choice state answer state' made => ?_
    split at made
    · simp at made
    next free =>
      cases made
      exact ⟨_, Move.advance (.control (.lock (Bool.eq_false_iff.mpr free))), rfl⟩
  refine .seqFrame stack locks fun _ => ?_
  rw [← List.append_nil (_ ++ stack)]
  refine conforms.onExit [] (fun value own left => ?_) fun rest => ?_
  · obtain ⟨life, rest, rfl, done, holds⟩ := left
    rw [List.append_nil]
    exact follows_storeOn [.engineLock ⟨life, none⟩] rest
      (fun _ _ => .control (.unlock rfl done)) (.ret holds)
  · change env.Follows (unlockEngine >>= fun _ => .throw) ([.crashed] ++ (rest ++ [])) post
    exact follows_storeOn [.crashed] _ (fun _ _ => .control .unlockCrashed) (.thrown (rest ++ []))

theorem Env.Silent.withEngineLock {body : Code π α} (silent : env.Silent body) :
    env.Silent (AiPipe.withEngineLock body) := by
  refine follows_withEngineLock ((silent.under [.engineLock {}]).mono ?_)
  rintro value left rfl
  exact ⟨.plain, [], rfl, .inl rfl, rfl⟩

end Rules

end AiPipe
