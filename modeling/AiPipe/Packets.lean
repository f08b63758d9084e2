import AiPipe.Ownership

/-!
The fate of packets.  An accepted packet is queued, delivered, dropped, or in the hands of one
thread.  A gather that finds a port empty after it has popped another forgets what it holds.
-/

namespace AiPipe

open Concurrency AiPipe.Frame Multiset View PortQueue

variable {π : Type} {env : Env}

def Taken.place (node : Nat) (packet : Taken π) : Place := ⟨node, packet.port, packet.position⟩

def Frame.popped : Frame π → List Place
  | .loose node packet _ => [packet.place node]
  | .task _ node (.gathering progress) => progress.held.map (Taken.place node)
  | .condemned discard => discard.place.toList
  | _ => []

def Frame.untold : Frame π → List Place
  | .counted discard => discard.place.toList
  | _ => []

structure Fates where
  position : Nat → Nat → Nat
  deliveries : Place → Nat
  drops : Place → Nat
  reports : Place → Nat

def deliveriesOf (calls : Nat → List (List (Taken π))) (place : Place) : Nat :=
  ((calls place.node).flatten.map (Taken.place place.node)).count place

def View.fates (seen : View π) : Fates where
  position node port := (seen.queue node port).dequeuePos
  deliveries := deliveriesOf seen.calls
  drops place := seen.dropCounts.count (some place)
  reports place := (seen.dropCallbacks.map DropReport.place).count (some place)

namespace Fates

variable (fates : Fates)

def taken (place : Place) : Bool := decide (place.position < fates.position place.node place.port)

def pop (node port : Nat) : Fates :=
  { fates with
    position := Function.update fates.position node
      (Function.update (fates.position node) port (fates.position node port + 1)) }

inductive Step : Fates → List Place → List Place → Fates → List Place → List Place → Prop
  | quiet {fates held held' untold} : held.Perm held' → Step fates held untold fates held' untold
  | pop {fates : Fates} {held untold} (node port : Nat) :
      Step fates held untold (fates.pop node port)
        (⟨node, port, fates.position node port⟩ :: held) untold
  | deliver {fates : Fates} {held} :
      Step fates held [] { fates with
        deliveries := fun place => fates.deliveries place + held.count place } [] []
  | drop {fates : Fates} {held} :
      Step fates held [] { fates with
        drops := fun place => fates.drops place + held.count place } [] held
  | report {fates : Fates} {untold} :
      Step fates [] untold { fates with
        reports := fun place => fates.reports place + untold.count place } [] []

structure Balanced (held untold : Multiset Place) : Prop where
  held : ∀ place, held.count place + fates.deliveries place + fates.drops place =
    (fates.taken place).toNat
  untold : ∀ place, fates.drops place = fates.reports place + untold.count place

theorem taken_pop (node port : Nat) (place : Place) :
    ((fates.pop node port).taken place).toNat = (fates.taken place).toNat +
      [(⟨node, port, fates.position node port⟩ : Place)].count place := by
  obtain ⟨node', port', position⟩ := place
  simp only [taken, pop, List.count_singleton, beq_iff_eq, Place.mk.injEq]
  by_cases same : node' = node ∧ port' = port
  · obtain ⟨rfl, rfl⟩ := same
    rcases Nat.lt_trichotomy position (fates.position node' port') with below | rfl | above
    · simp [below, Nat.lt_succ_of_lt below, Nat.ne_of_gt below]
    · simp
    · simp [Nat.not_lt_of_gt above, Nat.not_lt.mpr above, Nat.ne_of_lt above]
  · have kept : Function.update fates.position node
        (Function.update (fates.position node) port (fates.position node port + 1)) node' port' =
        fates.position node' port' := by
      by_cases here : node' = node
      · subst here
        have different : port' ≠ port := fun other => same ⟨rfl, other⟩
        simp [different]
      · simp [here]
    have apart : ¬ (node = node' ∧ port = port' ∧ fates.position node port = position) := by
      rintro ⟨rfl, rfl, -⟩
      exact same ⟨rfl, rfl⟩
    simp only [kept, if_neg apart, add_zero]

variable {fates}

theorem Balanced.step {fates' : Fates} {held held' untold untold' : List Place}
    (stepped : Step fates held untold fates' held' untold') (others others' : Multiset Place)
    (before : fates.Balanced (others + held) (others' + untold)) :
    fates'.Balanced (others + held') (others' + untold') := by
  obtain ⟨one, two⟩ := before
  simp only [count_add, coe_count] at one two
  cases stepped with
  | quiet perm =>
    refine ⟨fun place => ?_, fun place => ?_⟩ <;>
      simp only [count_add, coe_count]
    · rw [← perm.count_eq]
      exact one place
    · exact two place
  | pop node port =>
    refine ⟨fun place => ?_, fun place => ?_⟩
    · have counted := one place
      have new := fates.taken_pop node port place
      simp only [count_add, coe_count]
      rw [new, ← counted, List.count_cons, List.count_singleton]
      simp only [pop]
      omega
    · simpa [pop] using two place
  | _ =>
    refine ⟨fun place => ?_, fun place => ?_⟩
    · have counted := one place
      simp only [count_add, coe_count, List.count_nil, taken] at counted ⊢
      omega
    · have counted := two place
      simp only [count_add, coe_count, List.count_nil] at counted ⊢
      omega

end Fates

section Steps

variable {label : Label π} {choice : Choice π} {seen seen' : View π}
  {top top' : List (Frame π)}

def FatesMove (seen : View π) (top : List (Frame π)) (seen' : View π) (top' : List (Frame π)) :
    Prop :=
  Fates.Step seen.fates (top.flatMap Frame.popped) (top.flatMap Frame.untold)
    seen'.fates (top'.flatMap Frame.popped) (top'.flatMap Frame.untold)

theorem View.fates_pop {node port : Nat} {data : PortDataPtr π}
    (head : (seen.queue node port).head? = some data) :
    (seen.pop node port).fates = seen.fates.pop node port := by
  have bound := (List.getElem?_eq_some_iff.mp head).1
  simp only [fates, Fates.pop, View.pop, setQueue, Fates.mk.injEq, and_true]
  funext node' port'
  by_cases here : node' = node
  · subst here
    by_cases same : port' = port
    · subst same
      simp [PortQueue.pop, Nat.min_eq_left bound]
    · simp [same]
  · simp [here]

theorem View.fates_callBegin (node : Nat) (held : List (Taken π)) (processing : Nat → Nat) :
    ({ seen with
        calls := Function.update seen.calls node (seen.calls node ++ [held])
        processing := processing } : View π).fates =
      { seen.fates with
        deliveries := fun place => seen.fates.deliveries place +
          (held.map (Taken.place node)).count place } := by
  simp only [fates, Fates.mk.injEq, and_true, true_and]
  funext place
  by_cases here : place.node = node
  · subst here
    simp [deliveriesOf]
  · have apart : (held.map (Taken.place node)).count place = 0 := by
      rw [List.count_eq_zero]
      intro member
      obtain ⟨packet, -, rfl⟩ := List.mem_map.mp member
      exact here rfl
    simp [deliveriesOf, here, apart]

theorem FatesMove.pop {node port : Nat} {data : PortDataPtr π}
    (head : (seen.queue node port).head? = some data)
    (held : (top'.flatMap Frame.popped) = seen.headPlace node port :: top.flatMap Frame.popped)
    (untold : top'.flatMap Frame.untold = top.flatMap Frame.untold) :
    FatesMove seen top (seen.pop node port) top' := by
  rw [FatesMove, held, untold, fates_pop head]
  exact .pop node port

theorem FatesMove.countDrop {discard : Discard} :
    FatesMove seen [.condemned discard]
      { seen with dropCounts := seen.dropCounts ++ [discard.place] } [.counted discard] := by
  have counted : ({ seen with dropCounts := seen.dropCounts ++ [discard.place] } : View π).fates =
      { seen.fates with
        drops := fun other => seen.fates.drops other + discard.place.toList.count other } := by
    simp only [fates, Fates.mk.injEq, true_and, and_true]
    funext other
    cases discard.place <;> simp [List.count_singleton]
  have dropped := @Fates.Step.drop seen.fates discard.place.toList
  rw [← counted] at dropped
  simpa [FatesMove, popped, untold] using dropped

theorem FatesMove.callBack {discard : Discard} {report : DropReport}
    (about : report.place = discard.place) {left : List (Frame π)}
    (held : left.flatMap Frame.popped = []) (untold : left.flatMap Frame.untold = []) :
    FatesMove seen [.counted discard]
      { seen with dropCallbacks := seen.dropCallbacks ++ [report] } left := by
  have reported : ({ seen with
        dropCallbacks := seen.dropCallbacks ++ [report] } : View π).fates =
      { seen.fates with
        reports := fun other => seen.fates.reports other + discard.place.toList.count other } := by
    simp only [fates, Fates.mk.injEq, true_and]
    funext other
    rw [List.map_append, List.count_append, List.map_singleton, about]
    cases discard.place <;> simp [List.count_singleton]
  have told := @Fates.Step.report seen.fates discard.place.toList
  rw [← reported] at told
  rw [FatesMove, held, untold]
  simpa [Frame.popped, Frame.untold] using told

theorem Fates.Step.same {fates : Fates} {held untold : List Place} :
    Fates.Step fates held untold fates held untold := .quiet (.refl _)

theorem PortQueue.clear_of_empty {queue : PortQueue π} (empty : queue.empty = true) :
    queue.clear.dequeuePos = queue.dequeuePos := by
  have bounded := queue.bounded
  simp only [PortQueue.empty, PortQueue.size, PortQueue.clear, beq_iff_eq] at empty ⊢
  omega

theorem View.fates_wipe {target : Wipe}
    (empty : ∀ node port, target = .queue node port → (seen.queue node port).empty = true) :
    (seen.wipe target).fates = seen.fates := by
  cases target
  case queue node port =>
    have kept := clear_of_empty (empty node port rfl)
    simp only [wipe, fates, setQueue, Fates.mk.injEq, and_true]
    funext node' port'
    by_cases here : node' = node
    · subst here
      by_cases same : port' = port
      · subst same
        simpa using kept
      · simp [same]
    · simp [here]
  all_goals rfl

def Frame.clean : Frame π → Bool
  | .task _ _ (.gathering progress) => !progress.dry || progress.held.isEmpty
  | _ => true

theorem held_of_clean {id node : Nat} {progress : Gathering π}
    (clean : top.all Frame.clean = true) (here : .task id node (.gathering progress) ∈ top)
    (dry : progress.dry = true) : progress.held = [] := by
  simpa [Frame.clean, dry] using List.all_eq_true.mp clean _ here

theorem Move.fates (moved : Move env label choice seen top seen' top')
    (sound : .crashed ∉ top) (clean : top.all Frame.clean = true)
    (clear : ∀ node port, label = .clearQueue node port → (seen.queue node port).empty = true) :
    FatesMove seen top seen' top' := by
  have wiped {target : Wipe} {top' : List (Frame π)} (same : label = Wipe.label target)
      (held : top'.flatMap popped = top.flatMap popped)
      (untold : top'.flatMap untold = top.flatMap untold) :
      FatesMove seen top (seen.wipe target) top' := by
    rw [FatesMove, held, untold, fates_wipe]
    · exact .same
    · rintro node port rfl
      exact clear node port same
  cases moved with
  | control moved =>
    cases moved
    case wipe => exact wiped rfl rfl rfl
    all_goals exact .same
  | gather moved =>
    cases moved
    case pop head => exact .pop head rfl rfl
    case discard head => exact .pop head rfl rfl
    case discardAsked head => exact .pop head rfl rfl
    case countDrop discard => exact .countDrop
    case callBack discard quiet => exact .callBack rfl rfl rfl
    case callBackOwing discard tells => exact .callBack rfl rfl rfl
    all_goals exact .same
  | push moved =>
    cases moved
    case enqueue node port data route pressure room =>
      have same : (seen.push node port data).fates = seen.fates := by
        simp only [fates, View.push, setQueue, Fates.mk.injEq, and_true]
        funext node' port'
        by_cases here : node' = node
        · subst here
          by_cases same : port' = port
          · subst same
            simp [PortQueue.push]
          · simp [same]
        · simp [here]
      rw [FatesMove, same]
      exact .same
    case evict head => exact .pop head rfl rfl
    all_goals exact .same
  | process moved =>
    cases moved
    case callBegin id node progress covered =>
      rw [FatesMove, fates_callBegin]
      simpa [popped, untold] using Fates.Step.deliver
    case mayRetry id node progress dry streaming =>
      have none := held_of_clean clean (List.mem_singleton_self _) dry
      simpa [FatesMove, popped, untold, none] using Fates.Step.same
    case restoreFailed quit => cases quit <;> exact .same
    case fail quit => cases quit <;> exact .same
    all_goals exact .same
  | _ moved => cases moved <;> exact .same

theorem Ghost.fates (rewritten : Ghost env top top') (sound : .crashed ∉ top)
    (clean : top.all Frame.clean = true) : FatesMove seen top seen top' := by
  cases rewritten
  case unwind => simp at sound
  case keep id node packet progress =>
    refine .quiet ?_
    simpa [popped, Gathering.keep] using (List.perm_append_singleton _ _).symm
  case quitBatch id node progress dry =>
    have none := held_of_clean clean (.tail _ (List.mem_singleton_self _)) dry
    simpa [FatesMove, popped, untold, none] using Fates.Step.same
  all_goals exact .same

theorem Move.clean (moved : Move env label choice seen top seen' top')
    (granted : ∀ node port held, label = .gatherPop node port held → held ≠ 0 →
      choice.offered (seen.queue node port) ≠ none)
    (before : top.all Frame.clean = true) : top'.all Frame.clean = true := by
  cases moved with
  | gather moved =>
    cases moved
    case popDry id node port progress planned none =>
      have held : progress.held = [] := by
        by_contra some
        exact granted node port _ rfl (by simpa using some) none
      simp [clean, held]
    all_goals first | rfl | exact before
  | process moved =>
    cases moved
    case restoreFailed quit => cases quit <;> rfl
    case fail quit => cases quit <;> rfl
    all_goals rfl
  | eos moved =>
    cases moved
    case signal => simp [clean]
    all_goals rfl
  | _ moved => cases moved <;> rfl

theorem Ghost.clean (rewritten : Ghost env top top') (before : top.all Frame.clean = true) :
    top'.all Frame.clean = true := by
  cases rewritten
  case dryHands id node progress none _ => simp [clean, none]
  case stopping frame stops => simpa [clean] using before
  all_goals simp_all [clean, Gathering.keep]

end Steps

section Runs

/-- Nothing that the engine calls unguarded throws, a gather that already holds a packet only pops
ports that have one and do not refuse it, only empty queues are cleared and only idle nodes
are reset. -/
def completeGathers : EngineRules π where
  allows label choice state := (label = .external → choice.throws = false) ∧
    (∀ node port held, label = .gatherPop node port held → held ≠ 0 →
      choice.offered (state.queue node port) ≠ none) ∧
    (∀ node port, label = .clearQueue node port → (state.queue node port).empty = true) ∧
    ∀ node, label = .resetNode node → ¬ (state.exec node).Busy
  starts procedure _ := procedure.isInterface = true

structure Conserved (seen : View π) (frames : Multiset (Frame π)) : Prop where
  sound : .crashed ∉ frames
  clean : ∀ frame ∈ frames, frame.clean = true
  balanced : seen.fates.Balanced (collect Frame.popped frames) (collect Frame.untold frames)

section

variable {rules : EngineRules π} (complete : ∀ label choice state,
  rules.allows label choice state → completeGathers.allows label choice state)
include complete

theorem Conserved.step {state state' : State π} {others : Multiset (Frame π)}
    {top top' : List (Frame π)}
    (rewritten : Rewrites env.protocol view rules state top state' top')
    (before : Conserved (view state) (others + top)) :
    Conserved (view state') (others + top') := by
  obtain ⟨sound, clean, balanced⟩ := before
  simp only [mem_add, mem_coe, not_or] at sound
  have calm : NoThrows rules := fun _ _ allowed => (complete _ _ _ allowed).1 rfl
  have here := all_of_mem_add clean
  have still : .crashed ∉ top' := sound_step calm rewritten sound.2
  refine ⟨by simpa using ⟨sound.1, still⟩, mem_add_of_all clean ?_, ?_⟩
  · cases rewritten with
    | move allowed moved => exact Move.clean moved (complete _ _ _ allowed).2.1 here
    | ghost shifted => exact Ghost.clean shifted here
    | fork forked => cases forked <;> rfl
    | start allowed entered => cases entered; rfl
  · rw [collect_add, collect_add] at balanced ⊢
    cases rewritten with
    | move allowed moved =>
      exact balanced.step (Move.fates moved sound.2 here (complete _ _ _ allowed).2.2.1) _ _
    | ghost shifted => exact balanced.step (Ghost.fates shifted sound.2 here) _ _
    | fork forked => cases forked <;> exact balanced.step .same _ _
    | start allowed entered => cases entered; exact balanced.step .same _ _

structure Accounted (env : Env) (seen : View π) (frames : Multiset (Frame π)) : Prop where
  owned : Owned env seen frames
  entered : Entered seen frames
  conserved : Conserved seen frames

theorem Accounted.step {state state' : State π} {others : Multiset (Frame π)}
    {top top' : List (Frame π)}
    (rewritten : Rewrites env.protocol view rules state top state' top')
    (before : Accounted env (view state) (others + top)) :
    Accounted env (view state') (others + top') := by
  have sound : .crashed ∉ top := fun here =>
    before.owned.sound (mem_add.mpr (.inr (mem_coe.mpr here)))
  have calm : NoThrows rules := fun _ _ allowed => (complete _ _ _ allowed).1 rfl
  refine ⟨before.owned.step calm (fun _ node _ allowed => ?_) rewritten,
    before.entered.step sound rewritten, before.conserved.step complete rewritten⟩
  exact (complete _ _ _ allowed).2.2.2 node rfl

end

theorem Accounted.gathering {seen : View π} {frames : Multiset (Frame π)} {id node : Nat}
    {progress : Gathering π} (accounted : Accounted env seen frames)
    (here : .task id node (.gathering progress) ∈ frames) :
    seen.exec node = .executing ∧ seen.processing node = 0 := by
  obtain ⟨others, rfl⟩ := exists_cons_of_mem here
  have works := accounted.owned.held.work node
  have inside := accounted.entered.processing node
  simp only [collect, cons_bind] at works inside
  rw [count_add] at works inside
  have own : Multiset.count node
      ((Frame.task id node (.gathering progress)).working : Multiset Nat) = 1 := by
    simp [working]
  have none : Multiset.count node
      ((Frame.task id node (.gathering progress)).processed : Multiset Nat) = 0 := rfl
  have fewer : (collect processed others).count node ≤ (collect working others).count node := by
    refine count_le_of_le node (collect_mono (fun frame => ?_) others)
    cases frame with
    | task id node stage => cases stage <;> first | exact List.Sublist.refl _ | exact List.nil_sublist _
    | _ => exact List.nil_sublist _
  have most : (seen.exec node).works ≤ 1 := by cases seen.exec node <;> decide
  simp only [collect] at fewer
  exact ⟨accounted.owned.works here (List.mem_singleton_self _), by omega⟩

structure Hand where
  popped : Multiset Place
  untold : Multiset Place

def State.deliveries (state : State π) (place : Place) : Nat :=
  deliveriesOf (fun node => (state.node node).calls) place

def State.accepted (state : State π) (place : Place) : Prop :=
  place.position < (state.queue place.node place.port).pushed.length

instance (state : State π) (place : Place) : Decidable (state.accepted place) :=
  inferInstanceAs (Decidable (_ < _))

def State.queued (state : State π) (place : Place) : Bool :=
  decide ((state.queue place.node place.port).dequeuePos ≤ place.position)

theorem State.queued_or_taken (state : State π) (place : Place) :
    (state.queued place).toNat + ((view state).fates.taken place).toNat = 1 := by
  have same : (view state).fates.taken place = !state.queued place := by
    change decide (place.position < (state.queue place.node place.port).dequeuePos) = !decide _
    rw [← decide_not]
    simp only [not_le]
  rw [same]
  cases state.queued place <;> rfl

def State.Untouched (state : State π) : Prop :=
  (∀ node port, (state.queue node port).dequeuePos = 0) ∧
    (∀ node, ¬ (state.exec node).Busy ∧ (state.node node).calls = [] ∧
      (state.node node).processing = 0 ∧ (state.node node).flushing = 0) ∧
    state.history.dropCounts = [] ∧ state.history.dropCallbacks = []

theorem accounted_origin {origin : State π} (untouched : origin.Untouched) :
    Accounted env (view origin) 0 := by
  obtain ⟨positions, nodes, counts, reports⟩ := untouched
  have zero (node : Nat) := NodeExecutionState.idle_counts (nodes node).1
  refine ⟨⟨by simp, by simp [collect], fun node => (zero node).1.symm, fun node => (zero node).2.symm⟩,
    ⟨fun node => (nodes node).2.2.1, fun node => (nodes node).2.2.2⟩,
    by simp, by simp, fun place => ?_, fun place => ?_⟩
  · have position : ((view origin).queue place.node place.port).dequeuePos = 0 :=
      positions place.node place.port
    have none : (view origin).calls place.node = [] := (nodes place.node).2.1
    have kept : (view origin).dropCounts = [] := counts
    simp [collect, fates, Fates.taken, deliveriesOf, position, none, kept]
  · have kept : (view origin).dropCounts = [] := counts
    have told : (view origin).dropCallbacks = [] := reports
    simp [collect, fates, kept, told]

def handOf (stack : List (Frame π)) : Hand :=
  ⟨collect Frame.popped (stack : Multiset (Frame π)),
    collect Frame.untold (stack : Multiset (Frame π))⟩

/-- What a thread may have in hand: the inputs that the task of a node has gathered for a
`process()` that has not begun, a packet that its next access counts as dropped, and one that its
next access calls back about.  When it has returned it has nothing. -/
structure Hand.HeldBy (hand : Hand) (state : State π) (thread : EngineThread π) : Prop where
  ended : thread.program.finished = true → hand.popped = 0 ∧ hand.untold = 0
  popped : ∀ place ∈ hand.popped,
    ((∃ id context, thread.procedure = .runTask id place.node context) ∧
      state.exec place.node = .executing ∧ (state.node place.node).processing = 0) ∨
    thread.program.AboutTo fun _ before after =>
      after.history.dropCounts = before.history.dropCounts ++ [some place]
  untold : ∀ place ∈ hand.untold, thread.program.AboutTo fun _ before after =>
    ∃ report, report.place = some place ∧
      after.history.dropCallbacks = before.history.dropCallbacks ++ [report]

theorem Stacked.gathers {stack : List (Frame π)} {node : Nat} {packet : Taken π}
    {plan : List (Taken π)} (stacked : Stacked stack) (here : .loose node packet plan ∈ stack) :
    ∃ id progress, .task id node (.gathering progress) ∈ stack := by
  induction stack with
  | nil => cases here
  | cons frame below ih =>
    rcases List.mem_cons.mp here with rfl | later
    · obtain ⟨id, progress, rest, rfl⟩ := stacked.1
      exact ⟨id, progress, by simp⟩
    · obtain ⟨id, progress, member⟩ := ih stacked.2 later
      exact ⟨id, progress, .tail _ member⟩

section Hands

variable {thread : EngineThread π} {stack : List (Frame π)} {discard : Discard}

theorem Move.counts {label : Label π} {choice : Choice π} {seen seen' : View π}
    {more top' : List (Frame π)}
    (moved : Move env label choice seen (.condemned discard :: more) seen' top') :
    seen'.dropCounts = seen.dropCounts ++ [discard.place] := by
  cases moved with
  | gather moved => cases moved; rfl
  | _ moved => cases moved

theorem Move.callsBack {label : Label π} {choice : Choice π} {seen seen' : View π}
    {more top' : List (Frame π)}
    (moved : Move env label choice seen (.counted discard :: more) seen' top') :
    seen'.dropCallbacks = seen.dropCallbacks ++ [env.dropReport discard] := by
  cases moved with
  | gather moved => cases moved <;> rfl
  | _ moved => cases moved

theorem Accounted.heldBy {state : State π} {frames : Multiset (Frame π)}
    (accounted : Accounted env (view state) frames) (inside : ∀ frame ∈ stack, frame ∈ frames)
    (tied : Tied env thread stack) : (handOf stack).HeldBy state thread := by
  have gathers {id node : Nat} {progress : Gathering π} {place : Place}
      (here : .task id node (.gathering progress) ∈ stack) (same : place.node = node) :
      (∃ id context, thread.procedure = .runTask id place.node context) ∧
        state.exec place.node = .executing ∧ (state.node place.node).processing = 0 := by
    subst same
    exact ⟨tied.runs _ (List.mem_flatMap.mpr ⟨_, here, List.mem_singleton_self _⟩),
      accounted.gathering (inside _ here)⟩
  refine ⟨fun finished => by simp [handOf, tied.ended finished, collect], ?_, ?_⟩
  · intro place (member : place ∈ collect Frame.popped (stack : Multiset (Frame π)))
    obtain ⟨frame, here, popped⟩ := mem_bind.mp member
    cases frame with
    | loose node packet plan =>
      obtain rfl := List.mem_singleton.mp popped
      obtain ⟨id, progress, below⟩ := tied.stacked.gathers here
      exact .inl (gathers below rfl)
    | task id node stage =>
      cases stage with
      | gathering progress =>
        obtain ⟨packet, -, rfl⟩ := List.mem_map.mp popped
        exact .inl (gathers here rfl)
      | _ => cases popped
    | condemned discard =>
      have placed : discard.place = some place := Option.mem_toList.mp popped
      refine .inr ((tied.prompt _ here rfl).imp ?_)
      rintro choice before after ⟨label, more, top', moved⟩
      exact placed ▸ Move.counts moved
    | _ => cases popped
  · intro place (member : place ∈ collect Frame.untold (stack : Multiset (Frame π)))
    obtain ⟨frame, here, untold⟩ := mem_bind.mp member
    cases frame with
    | counted discard =>
      have placed : discard.place = some place := Option.mem_toList.mp untold
      refine (tied.prompt _ here rfl).imp ?_
      rintro choice before after ⟨label, more, top', moved⟩
      exact ⟨_, placed, Move.callsBack moved⟩
    | _ => cases untold

end Hands

/-- Every accepted packet is queued, delivered to one `process()`, counted as dropped, or in the
hands of one thread; and every counted drop is called back about, or about to be. -/
def EngineThreads.Conserves (config : EngineThreads π) : Prop :=
  ∃ hands : List Hand,
    List.Forall₂ (fun thread hand => hand.HeldBy config.shared thread) config.threads hands ∧
    ∀ place, config.shared.accepted place →
      (config.shared.queued place).toNat + config.shared.deliveries place +
          config.shared.history.dropCounts.count (some place) +
          (hands.map Hand.popped).sum.count place = 1 ∧
        config.shared.history.dropCounts.count (some place) =
          (config.shared.history.dropCallbacks.map DropReport.place).count (some place) +
            (hands.map Hand.untold).sum.count place

theorem Accounted.conserves {config : EngineThreads π} {entries : List (Proc π × List (Frame π))}
    (stands : env.Stands config.threads entries)
    (accounted : Accounted env (view config.shared) (allFrames entries)) :
    EngineThreads.Conserves config := by
  refine ⟨(entries.map Prod.snd).map handOf, ?_, fun place _ => ?_⟩
  · have tied := stands.tied accounted.owned.sound
    rw [List.forall₂_map_right_iff]
    rw [List.forall₂_iff_zip] at tied ⊢
    refine ⟨tied.1, fun {thread stack} pair => ?_⟩
    refine accounted.heldBy (fun frame here => ?_) (tied.2 pair)
    obtain ⟨entry, member, rfl⟩ := List.mem_map.mp (List.of_mem_zip pair).2
    exact mem_coe.mpr (List.mem_flatMap.mpr ⟨entry, member, here⟩)
  · have first := accounted.conserved.balanced.held place
    have second := accounted.conserved.balanced.untold place
    have whole : allFrames entries = ((entries.map Prod.snd).flatten : List (Frame π)) := rfl
    rw [whole, collect_flatten] at first second
    have popped : ((entries.map Prod.snd).map handOf).map Hand.popped =
        (entries.map Prod.snd).map fun stack : List (Frame π) =>
          collect Frame.popped (stack : Multiset (Frame π)) :=
      List.map_map
    have untold : ((entries.map Prod.snd).map handOf).map Hand.untold =
        (entries.map Prod.snd).map fun stack : List (Frame π) =>
          collect Frame.untold (stack : Multiset (Frame π)) :=
      List.map_map
    rw [popped, untold]
    refine ⟨?_, second⟩
    have either := config.shared.queued_or_taken place
    have delivered : (view config.shared).fates.deliveries place =
      config.shared.deliveries place := rfl
    have dropped : (view config.shared).fates.drops place =
      config.shared.history.dropCounts.count (some place) := rfl
    omega

theorem packets_conserved (env : Env) (origin : State π) (untouched : origin.Untouched)
    (config : EngineThreads π) (run : env.RunsTo completeGathers origin config) :
    config.Conserves := by
  obtain ⟨entries, stands, accounted⟩ := engine_run
    (fun _ _ starts => Proc.standsAlone_of_isInterface starts) run (accounted_origin untouched)
    fun _ _ _ _ _ _ _ => Accounted.step fun _ _ _ allowed => allowed
  exact accounted.conserves stands

def pairGraph : Graph where
  nodes := [⟨"join", ["left", "right"], ["out"]⟩]
  edges := []
  namesNodup := by decide
  portsNodup := by decide
  edgesNodup := soloGraph.edgesNodup
  edgesDeclared := by simp

def pairEngine : Env := .ofGraph pairGraph (by decide) (streamSchedulerStrategy {})

def gatherReferee : Referee (State π) (Label π) (Proc π) (Choice π) where
  allows
    | .external, choice, _ => !choice.throws
    | .gatherPop node port held, choice, state =>
      held == 0 || (choice.offered (state.queue node port)).isSome
    | .clearQueue node port, _, state => (state.queue node port).empty
    | .resetNode _, _, _ => false
    | _, _, _ => true
  starts procedure _ := procedure.isInterface

theorem gatherReferee_allows {label : Label π} {choice : Choice π} {state : State π}
    (allowed : gatherReferee.allows label choice state = true) :
    (completeGathers (π := π)).allows label choice state := by
  refine ⟨?_, ?_, ?_, ?_⟩
  · rintro rfl
    simpa [gatherReferee] using allowed
  · rintro node port held rfl some
    simpa [gatherReferee, some, Option.isSome_iff_ne_none] using allowed
  · rintro node port rfl
    exact allowed
  · rintro node rfl
    cases allowed

theorem untouched_fresh : ({} : State π).Untouched :=
  ⟨fun _ _ => rfl, fun _ => ⟨waiting_idle rfl, rfl, rfl, rfl⟩, rfl, rfl⟩

theorem packets_conserved_pair : ∃ config,
    pairEngine.RunsTo completeGathers ({} : State Unit) config ∧
    config.shared.deliveries ⟨0, 0, 0⟩ = 1 ∧ config.shared.deliveries ⟨0, 1, 0⟩ = 1 ∧
    config.Conserves := by
  obtain ⟨config, run, delivered⟩ := pairEngine.played completeGathers gatherReferee
    (fun _ _ _ => gatherReferee_allows) (fun _ _ starts => starts) ({} : State Unit)
    (.start (.startStreaming none) :: turns 0 11 {} ++
      .start (.pushInput "join" "left" (some ⟨0, 0, 0, ()⟩)) :: turns 1 25 {} ++
      .start (.pushInput "join" "right" (some ⟨0, 0, 0, ()⟩)) :: turns 3 11 {} ++ turns 2 41 {})
    (fun config => config.shared.deliveries ⟨0, 0, 0⟩ = 1 ∧
      config.shared.deliveries ⟨0, 1, 0⟩ = 1) (by decide +kernel)
  exact ⟨config, run, delivered.1, delivered.2,
    packets_conserved pairEngine {} untouched_fresh config run⟩

/-- The node is a source, so one packet on its left port is enough to schedule it.  The
gather pops that packet, finds the right port empty and gives up; nothing is left of it. -/
theorem failed_gather_loses : ∃ config,
    pairEngine.RunsTo unrestricted ({} : State Unit) config ∧
    config.threads.all (fun thread => thread.program.finished) = true ∧
    config.shared.accepted ⟨0, 0, 0⟩ ∧ config.shared.queued ⟨0, 0, 0⟩ = false ∧
    config.shared.deliveries ⟨0, 0, 0⟩ = 0 ∧ config.shared.history.dropCounts = [] ∧
    config.shared.history.dropCallbacks = [] :=
  pairEngine.playedFreely _
    (.start (.startStreaming none) :: turns 0 11 {} ++
      .start (.pushInput "join" "left" (some ⟨0, 0, 0, ()⟩)) :: turns 1 25 {} ++ turns 2 30 {})
    _ (by decide +kernel)

end Runs

end AiPipe
