import AiPipe.Queue.Fifo

/-!
The statistics of a queue against what its threads did.  Each counter lags behind a
position or a log by the calls that are still on their way to it, so that the books close
when no call is in progress.
-/

namespace AiPipe

open Concurrency LockFreeMPMCQueue QueueHistory

variable {τ : Type}

namespace PortFrame

def flying : PortFrame τ → Nat
  | .checking _ | .loaded _ _ | .ticket _ | .claimed _ _ | .written _ _ | .owed _ | .rejected _
  | .settled _ _ => 1
  | _ => 0

def placed : PortFrame τ → Nat
  | .claimed _ _ | .written _ _ | .owed _ => 1
  | _ => 0

def uncounted : PortFrame τ → Nat
  | .settled _ _ => 0
  | frame => frame.flying

def leaving : PortFrame τ → Nat
  | .taken _ | .emptied _ _ | .gone _ => 1
  | _ => 0

def unreported : PortFrame τ → Nat
  | .dropping _ => 1
  | _ => 0

def enqueued : PortFrame τ → List τ
  | .written _ item | .owed item | .settled item true => [item]
  | _ => []

def refused : PortFrame τ → Nat
  | .rejected _ | .settled _ false => 1
  | _ => 0

end PortFrame

structure CallBooks (view : QueueView τ) (frames : Multiset (PortFrame τ)) : Prop where
  flying : view.history.inFlight = total PortFrame.flying frames
  returned : view.history.begun = view.history.returned.length + total PortFrame.flying frames

structure StatBooks (view : QueueView τ) (frames : Multiset (PortFrame τ)) : Prop where
  tracked : view.tracked = true
  pushed : view.ring.enqueuePos = view.stats.totalPushed + total PortFrame.placed frames
  popped : view.ring.dequeuePos =
    view.stats.totalPopped + view.stats.totalDropped + total PortFrame.leaving frames
  dropped : view.stats.totalDropped = view.history.drops.length + total PortFrame.unreported frames
  called : view.history.begun =
    view.stats.totalPushed + view.stats.totalRejected + total PortFrame.uncounted frames

def writtenItems (log : List (CellAccess τ)) : List τ :=
  log.filterMap fun
    | .write _ item => some item
    | .read _ _ => none

def QueueHistory.accepted (history : QueueHistory τ) : List τ :=
  (history.returned.filter Prod.snd).map Prod.fst

def ItemBooks (view : QueueView τ) (frames : Multiset (PortFrame τ)) : Prop :=
  (writtenItems view.history.log : Multiset τ) =
    collect PortFrame.enqueued frames + (view.history.accepted : Multiset τ)

structure Unrefused (view : QueueView τ) (frames : Multiset (PortFrame τ)) : Prop where
  returned : ∀ call ∈ view.history.returned, call.2 = true
  refused : total PortFrame.refused frames = 0

section Steps

variable {config : NodeQueueConfig τ} {port : Nat} {label : QueueLabel}
variable {view view' : QueueView τ} {others frames : Multiset (PortFrame τ)}
variable {top top' : List (PortFrame τ)}

theorem CallBooks.move (moved : PortMove config port label view top view' top')
    (books : CallBooks view (others + top)) :
    CallBooks view' (others + top') := by
  cases moved with
  | quiet => exact books
  | peak => exact ⟨books.flying, books.returned⟩
  | _ =>
    obtain ⟨flying, returned⟩ := books
    rw [total_add] at flying returned
    constructor
    all_goals
      rw [total_add]
      simp [PortFrame.flying, QueueView.count, QueueView.claim, QueueView.write,
        QueueView.publish, QueueView.read, QueueView.report, begin,
        finish] at flying returned ⊢
      omega

theorem StatBooks.move (moved : PortMove config port label view top view' top')
    (books : StatBooks view (others + top)) :
    StatBooks view' (others + top') := by
  cases moved with
  | quiet => exact books
  | peak => exact ⟨books.tracked, books.pushed, books.popped, books.dropped, books.called⟩
  | skipPush off | skipReject off | skipPop off | skipDrop off =>
    exact Bool.noConfusion (off.symm.trans books.tracked)
  | _ =>
    obtain ⟨tracked, pushed, popped, dropped, called⟩ := books
    rw [total_add] at pushed popped dropped called
    refine ⟨tracked, ?_, ?_, ?_, ?_⟩
    all_goals
      rw [total_add]
      simp [PortFrame.flying, PortFrame.placed, PortFrame.uncounted, PortFrame.leaving,
        PortFrame.unreported, QueueView.count, QueueView.claim, QueueView.write,
        QueueView.publish, QueueView.read, QueueView.report, begin,
        finish, claim, take,
        publish, release, storeSequence,
        storeData] at pushed popped dropped called ⊢
      omega

theorem ItemBooks.swap (books : ItemBooks view (others + top))
    (written : writtenItems view'.history.log = writtenItems view.history.log)
    (accepted : view'.history.accepted = view.history.accepted)
    (same : top'.flatMap PortFrame.enqueued = top.flatMap PortFrame.enqueued) :
    ItemBooks view' (others + top') := by
  unfold ItemBooks
  rw [written, accepted, collect_same same]
  exact books

theorem writtenItems_concat (log : List (CellAccess τ)) (made : CellAccess τ) :
    writtenItems (log ++ [made]) = writtenItems log ++ writtenItems [made] :=
  List.filterMap_append ..

theorem accepted_finish (history : QueueHistory τ) (item : τ) (pushed : Bool) :
    (history.finish item pushed).accepted = history.accepted ++ if pushed then [item] else [] := by
  cases pushed <;> simp [accepted, finish]

theorem ItemBooks.move (moved : PortMove config port label view top view' top')
    (books : ItemBooks view (others + top)) :
    ItemBooks view' (others + top') := by
  cases moved with
  | quiet => exact books
  | peak => exact books
  | @write _ pos item =>
    have after : collect PortFrame.enqueued
        (others + (([.written pos item] : List (PortFrame τ)) : Multiset _)) =
        item ::ₘ collect PortFrame.enqueued
          (others + (([.claimed pos item] : List (PortFrame τ)) : Multiset _)) := collect_gain rfl
    have written : writtenItems (view.history.log ++ [.write pos item]) =
        writtenItems view.history.log ++ [item] := writtenItems_concat _ _
    refine (congrArg _ written).trans ?_
    rw [coe_concat, after, Multiset.cons_add]
    exact congrArg _ books
  | empty => exact books.swap ((writtenItems_concat _ _).trans (List.append_nil _)) rfl rfl
  | @finish _ item pushed =>
    cases pushed with
    | false =>
      refine books.swap rfl ((accepted_finish _ item false).trans (List.append_nil _)) rfl
    | true =>
      have before : collect PortFrame.enqueued
          (others + (([.settled item true] : List (PortFrame τ)) : Multiset _)) =
          item ::ₘ collect PortFrame.enqueued
            (others + (([] : List (PortFrame τ)) : Multiset _)) := collect_gain rfl
      refine books.trans ?_
      rw [before, accepted_finish, if_pos rfl, coe_concat, Multiset.cons_add, Multiset.add_cons]
  | _ => exact books.swap rfl rfl rfl

theorem Unrefused.move (moved : PortMove config port label view top view' top')
    (unrefused : Unrefused view (others + top)) :
    Unrefused view' (others + top') := by
  obtain ⟨returned, refused⟩ := unrefused
  rw [total_add, Nat.add_eq_zero_iff] at refused
  obtain ⟨clear, mine⟩ := refused
  have keep {view' : QueueView τ} {top' : List (PortFrame τ)}
      (same : view'.history.returned = view.history.returned)
      (none : (top'.map PortFrame.refused).sum = 0) :
      Unrefused view' (others + top') :=
    ⟨same ▸ returned, by rw [total_add, clear, none]⟩
  cases moved with
  | quiet => exact keep rfl mine
  | peak => exact keep rfl mine
  | countReject | skipReject => cases mine
  | @finish _ item pushed =>
    cases pushed with
    | false => cases mine
    | true =>
      refine ⟨fun call member => ?_, by rw [total_add, clear]; rfl⟩
      rcases List.mem_append.mp member with earlier | last
      · exact returned call earlier
      · rw [List.mem_singleton.mp last]
  | _ => exact keep rfl rfl

variable {direct : Bool}

theorem CallBooks.ghost (shifted : PortGhost config false top top')
    (books : CallBooks view (others + top)) :
    CallBooks view (others + top') := by
  have same : (top'.map PortFrame.flying).sum = (top.map PortFrame.flying).sum := by
    cases shifted <;> first | rfl | contradiction
  obtain ⟨flying, returned⟩ := books
  rw [total_add, ← same, ← total_add] at flying returned
  exact ⟨flying, returned⟩

theorem StatBooks.ghost (installed : config.dropCallback = true)
    (shifted : PortGhost config false top top')
    (books : StatBooks view (others + top)) :
    StatBooks view (others + top') := by
  have same : ∀ weight ∈ [PortFrame.placed, PortFrame.leaving, PortFrame.unreported,
      PortFrame.uncounted], (top'.map weight).sum = (top.map weight).sum := by
    cases shifted with
    | silent absent => exact Bool.noConfusion (absent.symm.trans installed)
    | leaveFull raw | leave raw | keep raw => cases raw
    | _ =>
      simp [PortFrame.placed, PortFrame.leaving, PortFrame.unreported, PortFrame.uncounted,
        PortFrame.flying]
  obtain ⟨tracked, pushed, popped, dropped, called⟩ := books
  rw [total_add, ← same _ (by simp), ← total_add] at pushed popped dropped called
  exact ⟨tracked, pushed, popped, dropped, called⟩

theorem ItemBooks.ghost (shifted : PortGhost config false top top')
    (books : ItemBooks view (others + top)) :
    ItemBooks view (others + top') := by
  cases shifted with
  | leaveFull raw | leave raw | keep raw => cases raw
  | _ => exact books.swap rfl rfl rfl

theorem Unrefused.ghost (policy : config.dropPolicy ≠ .dropTail)
    (shifted : PortGhost config direct top top')
    (unrefused : Unrefused view (others + top)) :
    Unrefused view (others + top') := by
  refine ⟨unrefused.returned, ?_⟩
  have refused := unrefused.refused
  rw [total_add] at refused ⊢
  cases shifted with
  | reject tail => exact absurd tail policy
  | _ => exact refused

end Steps

/-- Any number of threads that push to and pop from one queue.  When no call is in progress, what
was pushed has been popped, dropped or is queued; every drop was reported; every push was
counted; and under DropHead and KeepLatest every push has succeeded once. -/
theorem drops_accounted (configs : Nat → NodeQueueConfig τ) {port : Nat} {capacity : Nat}
    (atLeastTwo : 2 ≤ capacity) (installed : (configs port).dropCallback = true)
    {rules : Rules (Ports τ) QueueLabel (QueueProc τ) QueueChoice}
    (callers : ∀ procedure ports, rules.starts procedure ports → Calls port false procedure)
    {config : Config (Ports τ) QueueLabel (QueueProc τ) QueueChoice (QueueAnswer τ)}
    (run : Reaches (QueueCode.bodyWith configs) rules
      ⟨Ports.unused τ capacity atLeastTwo true, []⟩ config)
    (idle : ∀ thread ∈ config.threads, thread.program.finished = true) :
    let stats := (config.shared.queue port).stats
    let history := config.shared.history port
    stats.totalPushed = stats.totalPopped + stats.totalDropped + (config.shared.ring port).size ∧
    stats.totalDropped = history.drops.length ∧
    stats.totalPushed + stats.totalRejected = history.begun ∧
    history.returned.length = history.begun ∧
    ((configs port).dropPolicy ≠ .dropTail →
      (∀ call ∈ history.returned, call.2 = true) ∧
      (writtenItems history.log).Perm (history.returned.map Prod.fst)) := by
  obtain ⟨entries, ⟨sound, calls, books, items, unrefused⟩, settled⟩ :=
    port_invariant configs callers
      (fun view frames => RingSound view frames ∧ CallBooks view frames ∧ StatBooks view frames ∧
        ItemBooks view frames ∧ ((configs port).dropPolicy ≠ .dropTail → Unrefused view frames))
      (fun _ _ _ _ _ _ _ _ moved ⟨sound, calls, books, items, unrefused⟩ =>
        ⟨sound.move moved, calls.move moved, books.move moved, items.move moved,
          fun policy => (unrefused policy).move moved⟩)
      (fun _ _ _ _ shifted ⟨sound, calls, books, items, unrefused⟩ =>
        ⟨sound.ghost shifted, calls.ghost shifted, books.ghost installed shifted,
          items.ghost shifted, fun policy => (unrefused policy).ghost policy shifted⟩)
      (fun _ _ _ raw => nomatch raw)
      ⟨.unused capacity atLeastTwo true, ⟨rfl, rfl⟩, ⟨rfl, rfl, rfl, rfl, rfl⟩, rfl,
        fun _ => ⟨fun _ member => (nomatch member), rfl⟩⟩ run
  have nobody := settled idle sound.intact
  rw [nobody] at calls books items unrefused
  have ordered := sound.coherent.ordered
  have pushed : (config.shared.ring port).enqueuePos = _ := books.pushed
  have popped : (config.shared.ring port).dequeuePos = _ := books.popped
  have size : (config.shared.ring port).size =
      (config.shared.ring port).enqueuePos - (config.shared.ring port).dequeuePos := if_pos ordered
  refine ⟨?_, books.dropped, books.called.symm, calls.returned.symm, fun policy => ?_⟩
  · change (config.shared.ring port).dequeuePos ≤ (config.shared.ring port).enqueuePos at ordered
    change (config.shared.ring port).enqueuePos = (config.shared.queue port).stats.totalPushed + 0
      at pushed
    change (config.shared.ring port).dequeuePos = (config.shared.queue port).stats.totalPopped +
      (config.shared.queue port).stats.totalDropped + 0 at popped
    omega
  · have all := (unrefused policy).returned
    refine ⟨all, ?_⟩
    rw [ItemBooks, accepted, List.filter_eq_self.mpr all] at items
    simpa [collect, Ports.viewAt] using items

def reportingQueue (policy : LockFreeDropPolicy) (_port : Nat) : NodeQueueConfig Nat where
  dropPolicy := policy
  dropCallback := true
  frameIdAccessor := some some

theorem drops_accounted_eviction : ∃ config,
    Reaches (QueueCode.bodyWith (reportingQueue .dropHead))
      (callReferee false fun _ _ => true).rules ⟨Ports.unused Nat 2 le_rfl true, []⟩ config ∧
    (config.shared.history 0).drops.map DropEvent.frameId = [5] ∧
    (config.shared.queue 0).stats.totalPushed = (config.shared.queue 0).stats.totalPopped +
      (config.shared.queue 0).stats.totalDropped + (config.shared.ring 0).size ∧
    (∀ call ∈ (config.shared.history 0).returned, call.2 = true) := by
  obtain ⟨config, run, passed⟩ := played_reaches (QueueCode.bodyWith (reportingQueue .dropHead))
    (callReferee false fun _ _ => true) ⟨Ports.unused Nat 2 le_rfl true, []⟩
    ([.start (.pushCall 0 5), .start (.pushCall 0 6), .start (.pushCall 0 7), .start (.popCall 0)] ++
      portTurns 0 14 ++ portTurns 1 14 ++ portTurns 2 18 ++ portTurns 3 7 ++ portTurns 2 12)
    (fun config => (config.shared.history 0).drops.map DropEvent.frameId = [5] ∧
      ∀ thread ∈ config.threads, thread.program.finished = true)
    (by decide +kernel)
  obtain ⟨balance, _, _, _, kept⟩ := drops_accounted (reportingQueue .dropHead) le_rfl rfl
    callReferee_starts run passed.2
  exact ⟨config, run, passed.1, balance, (kept (by decide)).1⟩

end AiPipe
