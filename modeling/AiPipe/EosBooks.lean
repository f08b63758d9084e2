import AiPipe.EngineLock

/-!
The books of the end of stream: `m_sinksAtEos`, `m_endOfStreamReached`, the latches and the
calls of the callback.  A handling that has set a node's flag still has to flush and count it.
-/

namespace AiPipe

open Concurrency Multiset AiPipe.Frame Function

variable {π : Type} {env : Env}

structure EosTally where
  propagated : Nat → Bool
  flushed : Nat → Bool
  sinksAtEos : Nat
  endReached : Bool
  runEnds : Nat

def View.eosTally (seen : View π) : EosTally where
  propagated := seen.propagated
  flushed := seen.flushed
  sinksAtEos := seen.sinksAtEos
  endReached := seen.endReached
  runEnds := seen.runEnds

def Env.sinkOf (env : Env) (node : Nat) : List Nat := if env.graph.isSink node then [node] else []

def Env.uncounted (env : Env) : Frame π → List Nat
  | .eos node .winning => env.sinkOf node
  | .eos node .flushing => env.sinkOf node
  | .eos node (.flushed _) => env.sinkOf node
  | .eos node .emitting => env.sinkOf node
  | .eos node (.cascading _) => env.sinkOf node
  | _ => []

def Frame.unflushed : Frame π → List Nat
  | .eos node .winning => [node]
  | .eos node .flushing => [node]
  | _ => []

def Frame.reached : Frame π → List Nat
  | .eos _ (.counted reached) => [reached]
  | _ => []

def Frame.ends : Frame π → List Nat
  | .eos node .ending => [node]
  | _ => []

structure EosHands where
  uncounted : List Nat := []
  unflushed : List Nat := []
  reached : List Nat := []
  ends : List Nat := []

def Env.eosHands (env : Env) (frames : List (Frame π)) : EosHands where
  uncounted := frames.flatMap env.uncounted
  unflushed := frames.flatMap Frame.unflushed
  reached := frames.flatMap Frame.reached
  ends := frames.flatMap Frame.ends

inductive Env.EosStep (env : Env) : EosTally → EosHands → EosTally → EosHands → Prop
  | quiet {tally hands} : env.EosStep tally hands tally hands
  | win {tally : EosTally} (node : Nat) : node < env.graph.nodeCount →
      tally.propagated node = false →
      env.EosStep tally {} { tally with propagated := Function.update tally.propagated node true }
        { uncounted := env.sinkOf node, unflushed := [node] }
  | flush {tally : EosTally} {uncounted} (node : Nat) :
      env.EosStep tally { uncounted, unflushed := [node] }
        { tally with flushed := Function.update tally.flushed node true } { uncounted }
  | count {tally : EosTally} (node : Nat) :
      env.EosStep tally { uncounted := [node] }
        { tally with sinksAtEos := tally.sinksAtEos + 1 } { reached := [tally.sinksAtEos + 1] }
  | forget {tally} (reached : Nat) : env.EosStep tally { reached := [reached] } tally {}
  | reach {tally : EosTally} (node reached : Nat) : env.graph.sinkNodes.length ≤ reached →
      tally.endReached = false →
      env.EosStep tally { reached := [reached] } { tally with endReached := true }
        { ends := [node] }
  | announce {tally : EosTally} (node : Nat) :
      env.EosStep tally { ends := [node] } { tally with runEnds := tally.runEnds + 1 } {}

structure EosTally.Agrees (tally : EosTally) (env : Env)
    (uncounted unflushed reached ends : Multiset Nat) : Prop where
  counted : tally.sinksAtEos + uncounted.card = env.graph.sinkNodes.countP tally.propagated
  flushed : ∀ node ∈ env.graph.sinkNodes, tally.propagated node = true →
    tally.flushed node = true ∨ node ∈ unflushed
  bounded : ∀ number ∈ reached, number ≤ tally.sinksAtEos
  complete : tally.endReached = true → env.graph.sinkNodes.length ≤ tally.sinksAtEos
  announced : tally.runEnds + ends.card = tally.endReached.toNat

variable {node : Nat}

theorem countP_update (items : List Nat) {flag : Nat → Bool} (unset : flag node = false) :
    items.countP (Function.update flag node true) = items.countP flag + items.count node := by
  induction items with
  | nil => rfl
  | cons item rest ih =>
    rw [List.countP_cons, List.countP_cons, List.count_cons, ih]
    by_cases same : item = node
    · subst same
      simp [unset]
      omega
    · simp [same]
      omega

theorem Env.mem_sinkNodes :
    node ∈ env.graph.sinkNodes ↔ node < env.graph.nodeCount ∧ env.graph.isSink node = true := by
  rw [compile_sinkNodes env.compiled, List.mem_filter, List.mem_range]

theorem Env.count_sinkNodes (inside : node < env.graph.nodeCount) :
    env.graph.sinkNodes.count node = (env.sinkOf node).length := by
  have distinct : env.graph.sinkNodes.Nodup := by
    rw [compile_sinkNodes env.compiled]
    exact List.nodup_range.filter _
  unfold Env.sinkOf
  by_cases sink : env.graph.isSink node = true
  · rw [if_pos sink, List.count_eq_one_of_mem distinct (Env.mem_sinkNodes.mpr ⟨inside, sink⟩)]
    rfl
  · rw [if_neg sink, List.count_eq_zero_of_not_mem fun here => sink (Env.mem_sinkNodes.mp here).2]
    rfl

theorem EosTally.Agrees.step {tally tally' : EosTally} {hands hands' : EosHands}
    (stepped : env.EosStep tally hands tally' hands')
    {uncounted unflushed reached ends : Multiset Nat}
    (before : tally.Agrees env (uncounted + hands.uncounted) (unflushed + hands.unflushed)
      (reached + hands.reached) (ends + hands.ends)) :
    tally'.Agrees env (uncounted + hands'.uncounted) (unflushed + hands'.unflushed)
      (reached + hands'.reached) (ends + hands'.ends) := by
  cases stepped with
  | quiet => exact before
  | win node inside unset =>
    obtain ⟨counted, flushed, bounded, complete, announced⟩ := before
    refine ⟨?_, fun other sink set => ?_, bounded, complete, announced⟩
    · have more := countP_update env.graph.sinkNodes unset
      rw [Env.count_sinkNodes inside] at more
      simp only [card_add, coe_card, List.length_nil] at counted ⊢
      omega
    · by_cases same : other = node
      · subst same
        exact .inr (by simp)
      · simp only [update_of_ne same] at set
        exact (flushed other sink set).imp_right fun here => by
          simpa using Or.inl (mem_add.mp here)
  | flush node =>
    obtain ⟨counted, flushed, bounded, complete, announced⟩ := before
    refine ⟨counted, fun other sink set => ?_, bounded, complete, announced⟩
    by_cases same : other = node
    · subst same
      exact .inl (by simp)
    · simp only [update_of_ne same]
      exact (flushed other sink set).imp_right fun here => by simpa [same] using here
  | count node =>
    obtain ⟨counted, flushed, bounded, complete, announced⟩ := before
    refine ⟨?_, flushed, fun number here => ?_, fun ended => ?_, announced⟩
    · simp only [card_add, coe_card, List.length_nil, List.length_cons]
        at counted ⊢
      omega
    · simp only [mem_add, mem_coe, List.mem_singleton] at here
      rcases here with earlier | rfl
      · exact Nat.le_succ_of_le (bounded number (by simpa using earlier))
      · exact Nat.le_refl _
    · exact Nat.le_succ_of_le (complete ended)
  | forget number =>
    obtain ⟨counted, flushed, bounded, complete, announced⟩ := before
    refine ⟨counted, flushed, fun number here => ?_, complete, announced⟩
    exact bounded number (mem_add.mpr (.inl (by simpa using here)))
  | reach node number enough unset =>
    obtain ⟨counted, flushed, bounded, complete, announced⟩ := before
    refine ⟨counted, flushed, fun number here => ?_, fun _ => ?_, ?_⟩
    · exact bounded number (mem_add.mpr (.inl (by simpa using here)))
    · exact enough.trans (bounded number (by simp))
    · simp only [unset, card_add, coe_card, List.length_nil, List.length_cons,
        Bool.toNat_false, Bool.toNat_true] at announced ⊢
      omega
  | announce node =>
    obtain ⟨counted, flushed, bounded, complete, announced⟩ := before
    refine ⟨counted, flushed, bounded, complete, ?_⟩
    simp only [card_add, coe_card, List.length_nil, List.length_cons]
      at announced ⊢
    omega

section Resets

structure Env.ClearOrder (env : Env) (order middle : List Wipe) : Prop where
  whole : order = .beginClear :: (middle ++ [.endClear])
  begun : .beginClear ∉ middle
  ended : .endClear ∉ middle
  sinksAtEos : .sinksAtEos ∈ middle
  endOfStream : .endOfStream ∈ middle
  eosPropagated : ∀ node < env.graph.nodeCount, .eosPropagated node ∈ middle

theorem Env.clearOrder_wipes : ∃ middle, env.ClearOrder env.wipes middle := by
  refine ⟨[.beginRun, .counter, .completionReported, .frameIds, .sinksAtEos, .endOfStream,
    .streamFrameIds, .results] ++ (List.range env.graph.nodeCount).flatMap fun node =>
      [.exec node, .executionCount node, .joinWait node, .degradePending node, .eosMask node,
        .eosPropagated node] ++ (env.ports node).map fun port => .queue node port, ?_⟩
  constructor <;> simp [Env.wipes]

theorem Env.clearOrder_clears : ∃ middle, env.ClearOrder env.clears middle := by
  refine ⟨((List.range env.graph.nodeCount).flatMap fun node =>
      [.exec node, .executionCount node, .eosMask node, .eosPropagated node] ++
        (env.ports node).map fun port => .queue node port) ++
    [.results, .counter, .completionReported, .stopFlag, .streamingMode, .sinksAtEos,
      .endOfStream, .engineState], ?_⟩
  constructor <;> simp [Env.clears]

def Env.Left (env : Env) (rest : List Wipe) : Prop :=
  ∃ order middle, env.ClearOrder order middle ∧ rest <:+ order

variable {target : Wipe}

theorem Env.Left.tail {rest : List Wipe} (left : env.Left (target :: rest)) : env.Left rest := by
  obtain ⟨order, middle, ordered, suffix⟩ := left
  exact ⟨order, middle, ordered, (List.suffix_cons target rest).trans suffix⟩

theorem Env.Left.next {rest : List Wipe} (left : env.Left (target :: rest)) :
    ∃ order middle, env.ClearOrder order middle ∧
      (target = .beginClear ∧ rest = middle ++ [.endClear] ∨ target = .endClear ∧ rest = [] ∨
        target ∈ middle ∧ ∃ stores, rest = stores ++ [.endClear] ∧ stores ⊆ middle) := by
  obtain ⟨order, middle, ordered, suffix⟩ := left
  refine ⟨order, middle, ordered, ?_⟩
  rw [ordered.whole, List.suffix_cons_iff] at suffix
  rcases suffix with all | later
  · obtain ⟨rfl, rfl⟩ := List.cons.inj all
    exact .inl ⟨rfl, rfl⟩
  · rw [List.suffix_concat_iff] at later
    rcases later with none | ⟨stores, shape, within⟩
    · cases none
    · cases stores with
      | nil =>
        obtain ⟨rfl, rfl⟩ := List.cons.inj shape
        exact .inr (.inl ⟨rfl, rfl⟩)
      | cons first stores =>
        obtain ⟨rfl, rfl⟩ := List.cons.inj shape
        have all := within.subset
        exact .inr (.inr ⟨all List.mem_cons_self, stores, rfl,
          fun store here => all (List.mem_cons_of_mem _ here)⟩)

def midway : List Wipe → Bool
  | [] => false
  | .beginClear :: _ => false
  | _ :: _ => true

theorem midway_append {stores : List Wipe} (begun : .beginClear ∉ stores) :
    midway (stores ++ [.endClear]) = true := by
  cases stores with
  | nil => rfl
  | cons store rest =>
    cases store
    case beginClear => simp at begun
    all_goals rfl

def Frame.midway : Frame π → List (List Wipe)
  | .engineLock lock => lock.wipes.toList.filter AiPipe.midway
  | _ => []

def Env.eosTargets (env : Env) : List Wipe :=
  [.sinksAtEos, .endOfStream] ++ (List.range env.graph.nodeCount).map .eosPropagated

def EosTally.Cleared (tally : EosTally) : Wipe → Prop
  | .sinksAtEos => tally.sinksAtEos = 0
  | .endOfStream => tally.endReached = false ∧ tally.runEnds = 0
  | .eosPropagated node => tally.propagated node = false
  | _ => True

theorem Env.ClearOrder.targets {order middle : List Wipe} (ordered : env.ClearOrder order middle)
    (here : target ∈ env.eosTargets) : target ∈ middle := by
  simp only [Env.eosTargets, List.mem_append, List.mem_cons, List.not_mem_nil, or_false,
    List.mem_map, List.mem_range] at here
  rcases here with (rfl | rfl) | ⟨node, inside, rfl⟩
  · exact ordered.sinksAtEos
  · exact ordered.endOfStream
  · exact ordered.eosPropagated node inside

theorem View.cleared_wipe (seen : View π) (target : Wipe) :
    (seen.wipe target).eosTally.Cleared target := by
  cases target <;> first | trivial | rfl | exact ⟨rfl, rfl⟩ | simp [EosTally.Cleared, View.wipe,
    View.eosTally]

theorem View.cleared_still {seen : View π} (target : Wipe) {other : Wipe}
    (cleared : seen.eosTally.Cleared other) : (seen.wipe target).eosTally.Cleared other := by
  cases target
  case eosPropagated node =>
    cases other
    case eosPropagated node' =>
      by_cases same : node' = node
      · subst same
        exact update_self ..
      · exact (update_of_ne same ..).trans cleared
    all_goals exact cleared
  case sinksAtEos => cases other <;> first | rfl | exact cleared
  case endOfStream => cases other <;> first | exact ⟨rfl, rfl⟩ | exact cleared
  all_goals cases other <;> exact cleared

theorem EosTally.agrees_cleared {tally : EosTally}
    (cleared : ∀ target ∈ env.eosTargets, tally.Cleared target) : tally.Agrees env 0 0 0 0 := by
  have none : ∀ node ∈ env.graph.sinkNodes, tally.propagated node = false := by
    intro node sink
    refine cleared (.eosPropagated node) ?_
    simpa [Env.eosTargets] using (Env.mem_sinkNodes.mp sink).1
  have zero : tally.sinksAtEos = 0 := cleared .sinksAtEos (by simp [Env.eosTargets])
  obtain ⟨unended, uncalled⟩ : tally.endReached = false ∧ tally.runEnds = 0 :=
    cleared .endOfStream (by simp [Env.eosTargets])
  refine ⟨?_, fun node sink set => ?_, by simp, fun ended => ?_, by simp [unended, uncalled]⟩
  · rw [zero, eq_comm, card_zero, Nat.add_zero, List.countP_eq_zero]
    intro node sink
    simp [none node sink]
  · rw [none node sink] at set
    cases set
  · rw [unended] at ended
    cases ended

end Resets

section Steps

variable {label : Label π} {choice : Choice π} {seen seen' : View π}
  {top top' : List (Frame π)}

structure Env.PlainStep (env : Env) (label : Label π) (seen : View π) (top : List (Frame π))
    (seen' : View π) (top' : List (Frame π)) : Prop where
  clearing : seen'.clearing = seen.clearing
  midway : top'.flatMap Frame.midway = top.flatMap Frame.midway
  stepped : env.EosStep seen.eosTally (env.eosHands top) seen'.eosTally (env.eosHands top')
  idle : top.flatMap Frame.finishes = [] → (∀ node, label ≠ .claimEos node) →
    top'.flatMap Frame.finishes = [] ∧ seen'.eosTally = seen.eosTally

theorem EosMove.plain (moved : EosMove env label choice seen top seen' top')
    (inside : ∀ node ∈ top.flatMap Frame.finishes, node < env.graph.nodeCount) :
    env.PlainStep label seen top seen' top' := by
  have busy {node : Nat} {P : Prop} (none : [node] = []) : P := absurd none (List.cons_ne_nil _ _)
  cases moved
  case claim node observed drained idle =>
    exact ⟨rfl, rfl, .quiet, fun _ unclaimed => absurd rfl (unclaimed node)⟩
  case win node observed unset =>
    have known := inside node (by simp [finishes])
    have hands : env.eosHands (π := π) [.eos node .winning] =
        { uncounted := env.sinkOf node, unflushed := [node] } := by
      simp [Env.eosHands, Env.uncounted, unflushed, reached, ends]
    refine ⟨rfl, rfl, ?_, fun none _ => busy none⟩
    rw [hands]
    exact .win node known unset
  case lose node observed set =>
    have same : update seen.propagated node true = seen.propagated := by
      rw [← set, update_eq_self]
    rw [same]
    exact ⟨rfl, rfl, .quiet, fun none _ => busy none⟩
  case flushEnd node => exact ⟨rfl, rfl, .flush node, fun none _ => busy none⟩
  case countSink node sink =>
    have hands : env.eosHands (π := π) [.eos node (.cascading [])] = { uncounted := [node] } := by
      simp [Env.eosHands, Env.uncounted, Env.sinkOf, sink, unflushed, reached, ends]
    refine ⟨rfl, rfl, ?_, fun none _ => busy none⟩
    rw [hands]
    exact .count node
  case reach node reached some enough unset =>
    exact ⟨rfl, rfl, .reach node reached enough unset, fun none _ => busy none⟩
  case reachAgain node reached some enough set =>
    have same : ({ seen with endReached := true } : View π) = seen := by rw [← set]
    rw [same]
    exact ⟨rfl, rfl, .forget reached, fun none _ => busy none⟩
  case announceEnd node => exact ⟨rfl, rfl, .announce node, fun none _ => busy none⟩
  case yield | flushBegin | complete | latch | finish =>
    exact ⟨rfl, rfl, .quiet, fun none _ => busy none⟩
  all_goals exact ⟨rfl, rfl, .quiet, fun _ _ => ⟨rfl, rfl⟩⟩

theorem Move.wipesOrPlain (moved : Move env label choice seen top seen' top')
    (inside : ∀ node ∈ top.flatMap Frame.finishes, node < env.graph.nodeCount) :
    (∃ life target rest, label = Wipe.label target ∧
      top = [.engineLock ⟨life, some (target :: rest)⟩] ∧ seen' = seen.wipe target ∧
      top' = [.engineLock ⟨life, some rest⟩]) ∨ env.PlainStep label seen top seen' top' := by
  cases moved with
  | control moved =>
    cases moved
    case wipe life target rest => exact .inl ⟨life, target, rest, rfl, rfl, rfl, rfl⟩
    case unlock lock none phase =>
      refine .inr ⟨rfl, ?_, .quiet, fun _ _ => ⟨rfl, rfl⟩⟩
      simp [Frame.midway, none]
    all_goals exact .inr ⟨rfl, rfl, .quiet, fun _ _ => ⟨rfl, rfl⟩⟩
  | process moved =>
    cases moved
    case restoreFailed quit =>
      cases quit <;> exact .inr ⟨rfl, rfl, .quiet, fun _ _ => ⟨rfl, rfl⟩⟩
    case fail quit => cases quit <;> exact .inr ⟨rfl, rfl, .quiet, fun _ _ => ⟨rfl, rfl⟩⟩
    all_goals exact .inr ⟨rfl, rfl, .quiet, fun _ _ => ⟨rfl, rfl⟩⟩
  | eos moved => exact .inr (EosMove.plain moved inside)
  | _ moved => cases moved <;> exact .inr ⟨rfl, rfl, .quiet, fun _ _ => ⟨rfl, rfl⟩⟩

theorem Ghost.plain (rewritten : Ghost env top top') (sound : .crashed ∉ top) :
    env.PlainStep label seen top seen top' := by
  cases rewritten
  case unwind => simp at sound
  case notSink node inner =>
    have hands : env.eosHands (π := π) [.eos node (.cascading [])] = {} := by
      simp [Env.eosHands, Env.uncounted, Env.sinkOf, inner, unflushed, reached, ends]
    refine ⟨rfl, rfl, ?_, fun none _ => ⟨none, rfl⟩⟩
    rw [hands]
    exact .quiet
  case notLast node reached early => exact ⟨rfl, rfl, .forget reached, fun none _ => ⟨none, rfl⟩⟩
  all_goals exact ⟨rfl, rfl, .quiet, fun none _ => ⟨none, rfl⟩⟩

def Frame.wipes : Frame π → List (List Wipe)
  | .engineLock lock => lock.wipes.toList
  | _ => []

theorem Move.left (moved : Move env label choice seen top seen' top')
    (before : ∀ rest ∈ top.flatMap Frame.wipes, env.Left rest) :
    ∀ rest ∈ top'.flatMap Frame.wipes, env.Left rest := by
  cases moved with
  | control moved =>
    cases moved
    case wipe life target rest =>
      have left := before (target :: rest) (by simp [wipes])
      simpa [wipes] using left.tail
    all_goals first | exact before | simp
  | process moved =>
    cases moved
    case restoreFailed quit => cases quit <;> simp [wipes, afterFailure]
    case fail quit => cases quit <;> simp [wipes, afterFailure]
    all_goals simp [wipes]
  | _ moved => cases moved <;> simp [wipes]

theorem Ghost.left (rewritten : Ghost env top top')
    (before : ∀ rest ∈ top.flatMap Frame.wipes, env.Left rest) :
    ∀ rest ∈ top'.flatMap Frame.wipes, env.Left rest := by
  cases rewritten
  case beginWipe =>
    obtain ⟨middle, ordered⟩ := env.clearOrder_wipes
    simpa [wipes] using ⟨_, middle, ordered, List.suffix_rfl⟩
  case beginClear =>
    obtain ⟨middle, ordered⟩ := env.clearOrder_clears
    simpa [wipes] using ⟨_, middle, ordered, List.suffix_rfl⟩
  case wiped | cleared => simp [wipes]
  all_goals first | exact before | simp_all [wipes]

theorem Move.finishing (moved : Move env label choice seen top seen' top') :
    EnterStep seen.finishing (top.flatMap Frame.finishes)
      seen'.finishing (top'.flatMap Frame.finishes) := by
  cases moved with
  | control moved =>
    cases moved
    case wipe life target rest => cases target <;> exact .quiet
    all_goals exact .quiet
  | process moved =>
    cases moved
    case restoreFailed quit => cases quit <;> exact .quiet
    case fail quit => cases quit <;> exact .quiet
    all_goals exact .quiet
  | eos moved =>
    cases moved
    case claim node observed drained idle => exact .enter node
    case yield node => exact .leave node
    case finish node => exact .leave node
    all_goals exact .quiet
  | _ moved => cases moved <;> exact .quiet

theorem Ghost.finishing (rewritten : Ghost env top top') (sound : .crashed ∉ top) :
    top'.flatMap Frame.finishes = top.flatMap Frame.finishes := by
  cases rewritten
  case unwind => simp at sound
  all_goals rfl

end Steps

/-- Nothing throws; no node is claimed for its end of stream while a reset makes its
stores, and no reset begins them while an end-of-stream handling is under way. -/
def Env.settledResets (env : Env) : EngineRules π where
  allows label choice state := (label = .external → choice.throws = false) ∧
    (∀ node, label = .claimEos node → state.history.clearing = 0) ∧
    (label = .beginClear → ∀ node < env.graph.nodeCount, (state.node node).finishing = 0)
  starts procedure _ := procedure.isInterface = true

def EosBooks (env : Env) (seen : View π) (frames : Multiset (Frame π)) : Prop :=
  seen.eosTally.Agrees env (collect env.uncounted frames) (collect Frame.unflushed frames)
    (collect Frame.reached frames) (collect Frame.ends frames)

structure EosSettled (env : Env) (seen : View π) (frames : Multiset (Frame π)) : Prop where
  clearing : seen.clearing = (collect Frame.midway frames).card
  books : seen.clearing = 0 → EosBooks env seen frames
  cleared : ∀ rest ∈ collect Frame.midway frames, collect Frame.finishes frames = 0 ∧
    ∀ target ∈ env.eosTargets, target ∉ rest → seen.eosTally.Cleared target

structure EosKept (env : Env) (seen : View π) (frames : Multiset (Frame π)) : Prop extends
    EosSettled env seen frames where
  sound : .crashed ∉ frames
  locked : Locked seen frames
  inside : ∀ node ∈ collect Frame.finishes frames, node < env.graph.nodeCount
  finishing : ∀ node, seen.finishing node = (collect Frame.finishes frames).count node
  left : ∀ rest ∈ collect Frame.wipes frames, env.Left rest

section Invariant

variable {seen seen' : View π} {others : Multiset (Frame π)} {top top' : List (Frame π)}

theorem EosBooks.step
    (stepped : env.EosStep seen.eosTally (env.eosHands top) seen'.eosTally (env.eosHands top'))
    (before : EosBooks env seen (others + top)) :
    EosBooks env seen' (others + top') := by
  unfold EosBooks at before ⊢
  simp only [collect_add] at before ⊢
  exact before.step stepped

theorem eosHands_idle {frames : Multiset (Frame π)} (idle : collect Frame.finishes frames = 0) :
    collect env.uncounted frames = 0 ∧ collect Frame.unflushed frames = 0 ∧
      collect Frame.reached frames = 0 ∧ collect Frame.ends frames = 0 := by
  have none (part : Frame π → List Nat) (within : ∀ frame : Frame π, frame.finishes = [] →
      part frame = []) : collect part frames = 0 := by
    refine eq_zero_of_forall_notMem fun item member => ?_
    obtain ⟨frame, here, inside⟩ := mem_bind.mp member
    rw [mem_coe, within frame (collect_eq_nil idle here)] at inside
    cases inside
  refine ⟨none _ fun frame finished => ?_, none _ fun frame finished => ?_,
    none _ fun frame finished => ?_, none _ fun frame finished => ?_⟩ <;>
    cases frame <;> first | rfl | exact absurd finished (List.cons_ne_nil _ _)

theorem EosSettled.plain {label : Label π} (plain : env.PlainStep label seen top seen' top')
    (unclaimed : ∀ node, label = .claimEos node → seen.clearing = 0)
    (before : EosSettled env seen (others + top)) :
    EosSettled env seen' (others + top') := by
  have same : collect Frame.midway (others + (top' : Multiset _)) =
      collect Frame.midway (others + (top : Multiset _)) := by
    rw [collect_add, collect_add, plain.midway]
  refine ⟨by rw [same, plain.clearing, before.clearing], fun outside => ?_, fun rest here => ?_⟩
  · rw [plain.clearing] at outside
    exact (before.books outside).step plain.stepped
  rw [same] at here
  obtain ⟨idle, cleared⟩ := before.cleared rest here
  rw [collect_add] at idle
  have unfinished := le_zero.mp (idle ▸ le_add_right _ _)
  have none := le_zero.mp (idle ▸ le_add_left _ _)
  have resets : seen.clearing ≠ 0 := by
    rw [before.clearing]
    exact fun zero => notMem_zero rest (card_eq_zero.mp zero ▸ here)
  obtain ⟨still, tally⟩ := plain.idle (coe_eq_zero _ |>.mp none) fun node claims =>
    resets (unclaimed node claims)
  rw [collect_add, unfinished, still, tally]
  exact ⟨rfl, cleared⟩

theorem midway_of_alone (alone : collect Frame.locks others = 0) :
    collect Frame.midway others = 0 := by
  refine eq_zero_of_forall_notMem fun rest member => ?_
  obtain ⟨frame, here, inside⟩ := mem_bind.mp member
  have unlocked := collect_eq_nil alone here
  cases frame with
  | engineLock lock => cases unlocked
  | _ => cases inside

theorem View.clearing_wipe {target : Wipe} (begun : target ≠ .beginClear)
    (ended : target ≠ .endClear) : (seen.wipe target).clearing = seen.clearing := by
  cases target <;> first | rfl | exact absurd rfl begun | exact absurd rfl ended

theorem EosKept.wipe {life : LifePhase} {target : Wipe} {rest : List Wipe}
    (shape : top = [.engineLock ⟨life, some (target :: rest)⟩])
    (shape' : top' = [.engineLock ⟨life, some rest⟩])
    (begins : target = .beginClear →
      collect Frame.finishes (others + (top : Multiset _)) = 0)
    (before : EosKept env seen (others + top)) :
    EosSettled env (seen.wipe target) (others + top') := by
  subst shape shape'
  have alone := midway_of_alone (before.locked.alone rfl)
  have held (rest : List Wipe) : collect Frame.midway (others +
      (([.engineLock ⟨life, some rest⟩] : List (Frame π)) : Multiset (Frame π))) =
      if midway rest then {rest} else 0 := by
    rw [collect_add, alone]
    cases shape : midway rest <;> simp [Frame.midway, shape]
  have finishes (rest : List Wipe) : collect Frame.finishes (others +
      (([.engineLock ⟨life, some rest⟩] : List (Frame π)) : Multiset (Frame π))) =
      collect Frame.finishes others := by
    rw [collect_add]
    exact add_zero _
  have counted := before.clearing
  have cleared := before.cleared
  rw [held] at counted cleared
  simp only [finishes] at begins cleared
  obtain ⟨order, middle, ordered, next⟩ :=
    (before.left (target :: rest) (by rw [collect_add]; simp [Frame.wipes])).next
  rcases next with ⟨rfl, rfl⟩ | ⟨rfl, rfl⟩ | ⟨here, stores, rfl, within⟩
  · have shape := midway_append ordered.begun
    have zero : seen.clearing = 0 := counted
    refine ⟨?_, fun outside => ?_, fun left member => ⟨?_, fun other known absent => ?_⟩⟩
    · rw [held, if_pos shape, card_singleton]
      simp [View.wipe, zero]
    · simp [View.wipe] at outside
    · exact (finishes _).trans (begins rfl)
    · rw [held, if_pos shape] at member
      rw [mem_singleton.mp member] at absent
      exact absurd (List.mem_append_left _ (ordered.targets known)) absent
  · obtain ⟨idle, done⟩ := cleared _ (mem_singleton_self _)
    have one : seen.clearing = 1 := counted
    refine ⟨?_, fun _ => ?_, fun left member => ?_⟩
    · rw [held]
      simp [View.wipe, one, midway]
    · have agrees : (seen.wipe .endClear).eosTally.Agrees env 0 0 0 0 :=
        EosTally.agrees_cleared fun other known => done other known fun absent => by
          rw [List.mem_singleton.mp absent] at known
          exact ordered.ended (ordered.targets known)
      have none := @eosHands_idle π env _ ((finishes []).trans idle)
      unfold EosBooks
      rw [none.1, none.2.1, none.2.2.1, none.2.2.2]
      exact agrees
    · rw [held] at member
      exact absurd member (notMem_zero _)
  · have begun : target ≠ .beginClear := fun same => ordered.begun (same ▸ here)
    have ended : target ≠ .endClear := fun same => ordered.ended (same ▸ here)
    have shape := midway_append fun first => ordered.begun (within first)
    have earlier : midway (target :: (stores ++ [.endClear])) = true := by
      cases target <;> first | rfl | exact absurd rfl begun
    rw [if_pos earlier] at counted cleared
    obtain ⟨idle, done⟩ := cleared _ (mem_singleton_self _)
    have one : (seen.wipe target).clearing = 1 := (View.clearing_wipe begun ended).trans counted
    refine ⟨?_, fun outside => ?_, fun left member => ⟨(finishes _).trans idle, ?_⟩⟩
    · rw [held, if_pos shape, one]
      rfl
    · rw [one] at outside
      cases outside
    intro other known absent
    rw [held, if_pos shape] at member
    rw [mem_singleton.mp member] at absent
    by_cases same : other = target
    · exact same ▸ View.cleared_wipe seen target
    · exact View.cleared_still target (done other known (by simp_all))

end Invariant

theorem EosKept.step {state state' : State π} {others : Multiset (Frame π)}
    {top top' : List (Frame π)}
    (rewritten : Rewrites env.protocol view env.settledResets state top state' top')
    (before : EosKept env (view state) (others + top)) :
    EosKept env (view state') (others + top') := by
  obtain ⟨settled, sound, locked, inside, finishing, left⟩ := before
  have calm : NoThrows (env.settledResets (π := π)) := fun _ _ allowed => allowed.1 rfl
  have intact : .crashed ∉ top := fun here => sound (mem_add.mpr (.inr here))
  have known : ∀ node ∈ top.flatMap finishes, node < env.graph.nodeCount := fun node here =>
    inside node (by rw [collect_add]; exact mem_add.mpr (.inr here))
  refine ⟨?_, ?_, locked.step intact rewritten, finishes_step rewritten inside, ?_, ?_⟩
  · cases rewritten with
    | move allowed moved =>
      rcases Move.wipesOrPlain moved known with ⟨life, target, rest, same, shape, seen, shape'⟩ | plain
      · rw [seen]
        refine EosKept.wipe shape shape' (fun begins => ?_)
          ⟨settled, sound, locked, inside, finishing, left⟩
        refine eq_zero_of_forall_notMem fun node member => ?_
        have idle : (view state).finishing node = 0 :=
          allowed.2.2 (by rw [same, begins]; rfl) node (inside node member)
        rw [finishing node] at idle
        exact count_eq_zero.mp idle member
      · exact settled.plain plain allowed.2.1
    | ghost shifted =>
      have plain : env.PlainStep .internal (view state) top (view state) top' :=
        Ghost.plain shifted intact
      exact settled.plain plain (by simp)
    | @fork procedure _ rest child _ forked =>
      have plain : env.PlainStep .internal (view state) top (view state) (rest ++ child) := by
        cases forked <;> exact ⟨rfl, rfl, .quiet, fun _ _ => ⟨rfl, rfl⟩⟩
      exact settled.plain plain (by simp)
    | start allowed entered =>
      have plain : env.PlainStep .internal (view state) [] (view state) top' := by
        cases entered
        exact ⟨rfl, rfl, .quiet, fun _ _ => ⟨rfl, rfl⟩⟩
      exact settled.plain plain (by simp)
  · have still := sound_step calm rewritten intact
    simp only [mem_add, mem_coe, not_or] at sound ⊢
    exact ⟨sound.1, still⟩
  · simp only [collect_add] at finishing ⊢
    cases rewritten with
    | move allowed moved => exact (Move.finishing moved).counts _ finishing
    | ghost shifted => exact Ghost.finishing shifted intact ▸ finishing
    | fork forked => cases forked <;> exact finishing
    | start allowed entered => cases entered; exact finishing
  · simp only [collect_add, mem_add, mem_coe] at left ⊢
    have here : ∀ rest ∈ top.flatMap wipes, env.Left rest := fun rest member =>
      left rest (.inr member)
    rintro rest (earlier | new)
    · exact left rest (.inl earlier)
    · cases rewritten with
      | move allowed moved => exact Move.left moved here rest new
      | ghost shifted => exact Ghost.left shifted here rest new
      | fork forked => cases forked <;> exact here rest new
      | start allowed entered => cases entered; cases new

section Sessions

def State.EosCleared (state : State π) : Prop :=
  state.sinksAtEos = 0 ∧ state.endOfStreamReached = false

theorem eosKept_initial {state : State π} (nodes : ∀ node, state.node node = {})
    (unlocked : state.engineMutex = false) (settled : state.history.clearing = 0)
    (cleared : state.EosCleared) (uncalled : state.history.runEndCallbacks = 0) :
    EosKept env (view state) 0 := by
  obtain ⟨zero, unended⟩ := cleared
  refine ⟨⟨?_, fun _ => ?_, by simp [collect]⟩, by simp, ?_, by simp [collect], fun node => ?_,
    by simp [collect]⟩
  · exact settled
  · refine EosTally.agrees_cleared fun target known => ?_
    simp only [Env.eosTargets, List.mem_append, List.mem_cons, List.not_mem_nil, or_false,
      List.mem_map] at known
    rcases known with (rfl | rfl) | ⟨node, -, rfl⟩
    · exact zero
    · exact ⟨unended, uncalled⟩
    · simp [EosTally.Cleared, View.eosTally, view, nodes node]
  · simp [Locked, collect, view, unlocked]
  · simp [collect, view, nodes node]

theorem EosKept.run {origin : State π} (initial : EosKept env (view origin) 0)
    {config : EngineThreads π} (run : env.RunsTo env.settledResets origin config) :
    ∃ entries, env.Stands config.threads entries ∧
      EosKept env (view config.shared) (allFrames entries) :=
  @engine_run _ _ _ (fun state frames => EosKept env (view state) frames) _
    (fun _ _ starts => Proc.standsAlone_of_isInterface starts) _ run initial
    fun _ _ _ _ _ _ _ => EosKept.step

theorem Session.eosKept {origin : State π}
    (session : Session Env.settledResets State.EosCleared env origin) :
    EosKept env (view origin) 0 := by
  induction session with
  | first env => exact eosKept_initial (fun _ => rfl) rfl rfl ⟨rfl, rfl⟩ rfl
  | again earlier run finished last torn cleared ih =>
    obtain ⟨entries, stands, kept⟩ := ih.run run
    rw [allFrames_eq_zero stands.settled finished kept.sound] at kept
    have settled : _ = 0 := kept.clearing
    have announced := (kept.books settled).announced
    have unended : (view _).endReached = false := cleared.2
    simp only [View.eosTally, unended] at announced
    refine eosKept_initial (fun _ => rfl) ?_ settled cleared (Nat.eq_zero_of_add_eq_zero_right announced)
    have unlocked : 0 = Bool.toNat _ := kept.locked
    exact Bool.toNat_eq_zero.mp unlocked.symm

variable {frames : Multiset (Frame π)}

theorem unflushed_uncounted {node : Nat}
    (sink : env.graph.isSink node = true) (here : node ∈ collect Frame.unflushed frames) :
    node ∈ collect env.uncounted frames := by
  obtain ⟨frame, member, inside⟩ := mem_bind.mp here
  refine mem_bind.mpr ⟨frame, member, ?_⟩
  cases frame with
  | eos owner stage =>
    cases stage <;>
      simp_all [unflushed, Env.uncounted, Env.sinkOf]
  | _ => cases inside

theorem EosBooks.allFlushed {seen : View π}
    (books : EosBooks env seen frames) (ended : seen.endReached = true) :
    ∀ node ∈ env.graph.sinkNodes, seen.flushed node = true := by
  have enough : env.graph.sinkNodes.length ≤ seen.sinksAtEos := books.complete ended
  have counted : seen.sinksAtEos + (collect env.uncounted frames).card =
    env.graph.sinkNodes.countP seen.propagated := books.counted
  have bound : env.graph.sinkNodes.countP seen.propagated ≤ env.graph.sinkNodes.length :=
    List.countP_le_length
  have none : collect env.uncounted frames = 0 := card_eq_zero.mp (by omega)
  have all := List.countP_eq_length.mp (show env.graph.sinkNodes.countP seen.propagated =
    env.graph.sinkNodes.length by omega)
  intro node sink
  rcases books.flushed node sink (all node sink) with flushed | pending
  · exact flushed
  · have waits := @unflushed_uncounted π env _ _ (Env.mem_sinkNodes.mp sink).2 pending
    rw [none] at waits
    exact absurd waits (notMem_zero _)

/-- `m_sinksAtEos` counts the flagged sinks, but for those whose end-of-stream handling is
under way, `m_endOfStreamReached` says that every sink is flushed, and the callback is called
at most once. -/
structure Env.BooksRight (env : Env) (state : State π) : Prop where
  bounded : state.sinksAtEos ≤
    env.graph.sinkNodes.countP fun node => (state.node node).eosPropagated
  counted : (∀ node < env.graph.nodeCount, (state.node node).finishing = 0) → state.sinksAtEos =
    env.graph.sinkNodes.countP fun node => (state.node node).eosPropagated
  flushed : state.endOfStreamReached = true →
    ∀ node ∈ env.graph.sinkNodes, (state.node node).flushed = true
  once : state.history.runEndCallbacks ≤ 1

theorem eos_books_right (env : Env) (origin : State π)
    (session : Session Env.settledResets State.EosCleared env origin) (config : EngineThreads π)
    (run : env.RunsTo env.settledResets origin config)
    (outside : config.shared.history.clearing = 0) : env.BooksRight config.shared := by
  obtain ⟨entries, -, kept⟩ := session.eosKept.run run
  have books := kept.books outside
  have counted : config.shared.sinksAtEos + _ = _ := books.counted
  refine ⟨Nat.le.intro counted, fun idle => ?_, books.allFlushed, ?_⟩
  · have none : collect Frame.finishes (allFrames entries) = 0 := by
      refine eq_zero_of_forall_notMem fun node member => ?_
      have zero : (view config.shared).finishing node = 0 := idle node (kept.inside node member)
      rw [kept.finishing node] at zero
      exact count_eq_zero.mp zero member
    rw [(@eosHands_idle π env _ none).1, card_zero] at counted
    exact counted
  · have announced : config.shared.history.runEndCallbacks + _ = _ := books.announced
    have bound := (view config.shared).eosTally.endReached.toNat_le
    omega

def Env.settledReferee (env : Env) : Referee (State π) (Label π) (Proc π) (Choice π) where
  allows
    | .external, choice, _ => !choice.throws
    | .claimEos _, _, state => state.history.clearing == 0
    | .beginClear, _, state => (List.range env.graph.nodeCount).all fun node =>
      (state.node node).finishing == 0
    | _, _, _ => true
  starts procedure _ := procedure.isInterface

theorem Env.settledReferee_allows {label : Label π} {choice : Choice π} {state : State π}
    (allowed : env.settledReferee.allows label choice state = true) :
    env.settledResets.allows label choice state := by
  refine ⟨?_, ?_, ?_⟩
  · rintro rfl
    simpa [settledReferee] using allowed
  · rintro node rfl
    simpa [settledReferee] using allowed
  · rintro rfl
    simpa [settledReferee] using allowed

def endedStream : List (Turn (Proc Unit) (Choice Unit)) :=
  .start (.startStreaming none) :: turns 0 11 {} ++
    .start (.signalEndOfStream "camera" "") :: turns 1 17 {}

theorem eos_books_right_twice : ∃ (origin : State Unit) (config : EngineThreads Unit),
    Session Env.settledResets State.EosCleared soloEngine origin ∧
    soloEngine.RunsTo soloEngine.settledResets origin config ∧
    config.shared.history.endOfStreamCallbacks = 2 ∧ config.shared.endOfStreamReached = true ∧
    soloEngine.BooksRight config.shared := by
  obtain ⟨first, run, tested⟩ := soloEngine.played soloEngine.settledResets
    soloEngine.settledReferee (fun _ _ _ => Env.settledReferee_allows) (fun _ _ starts => starts)
    ({} : State Unit)
    (endedStream ++ .start .reset :: turns 2 36 {} ++ .start .releaseGraph :: turns 3 7 {})
    (fun config => released config = true ∧ (config.shared.sinksAtEos = 0 ∧
      config.shared.endOfStreamReached = false) ∧
      (play soloEngine.body soloEngine.settledReferee ⟨config.shared.initialized, []⟩
        endedStream).any fun config => config.shared.history.endOfStreamCallbacks = 2 ∧
          config.shared.endOfStreamReached = true ∧ config.shared.history.clearing = 0)
    (by decide +kernel)
  obtain ⟨ready, cleared, played⟩ := tested
  obtain ⟨config, run', twice, ended, settled⟩ := soloEngine.played soloEngine.settledResets
    soloEngine.settledReferee (fun _ _ _ => Env.settledReferee_allows) (fun _ _ starts => starts)
    _ _ _ played
  have session : Session Env.settledResets State.EosCleared soloEngine first.shared.initialized :=
    .of_released soloEngine (.first soloEngine) run ready cleared
  exact ⟨_, config, session, run', twice, ended,
    eos_books_right soloEngine _ session config run' settled⟩

/-- The stream ends and the engine is initialized again without a reset: it counts a sink
at its end of stream and says that the end is reached, and no node of the new graph has even
been set up. -/
theorem initialize_keeps_books : ∃ origin : State Unit,
    Session (fun _ => unrestricted) (fun _ => True) soloEngine origin ∧
    origin.sinksAtEos = 1 ∧ origin.endOfStreamReached = true ∧
    soloEngine.graph.sinkNodes.countP (fun node => (origin.node node).eosPropagated) = 0 ∧
    (∀ node, (origin.node node).flushed = false) := by
  obtain ⟨config, run, ready, one, ended⟩ := soloEngine.playedFreely ({} : State Unit)
    (endedStream ++ .start .releaseGraph :: turns 2 8 {})
    (fun config => released config = true ∧ config.shared.sinksAtEos = 1 ∧
      config.shared.endOfStreamReached = true) (by decide +kernel)
  refine ⟨config.shared.initialized, .of_released soloEngine (.first soloEngine) run ready trivial,
    one, ended, ?_, fun _ => rfl⟩
  rw [List.countP_eq_zero]
  intro node _
  simp [State.initialized]

end Sessions

end AiPipe
