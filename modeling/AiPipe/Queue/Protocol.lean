import AiPipe.Concurrency.Adequacy
import AiPipe.Queue.Code

/-!
Calls on one queue as a protocol.  A push in progress stands on one of the frames `checking`,
`loaded`, `ticket`, `claimed`, `written`, `owed`, `rejected` and `settled`, a pop or an eviction
that has its position on `taken`, `emptied`, `gone` and `dropping`.
-/

namespace AiPipe

open Concurrency

inductive PortFrame (τ : Type) where
  /-- A push that has not compared the size with its window, then one that has loaded
  `m_enqueuePos` for `size()`, then one that goes on to `tryPush`. -/
  | checking (item : τ)
  | loaded (enqueued : Nat) (item : τ)
  | ticket (item : τ)
  | pushAt (pos : Nat)
  | pushReady (pos : Nat)
  | claimed (pos : Nat) (item : τ)
  | written (pos : Nat) (item : τ)
  /-- A push that is over but for the statistics, and one that has counted itself. -/
  | owed (item : τ)
  | rejected (item : τ)
  | settled (item : τ) (pushed : Bool)
  | popAt (pos : Nat)
  | popReady (pos : Nat)
  | taken (pos : Nat)
  | emptied (pos : Nat) (item : Option τ)
  /-- An item that has left the ring and is not counted, and an evicted one that is
  counted and not reported. -/
  | gone (item : Option τ)
  | dropping (item : Option τ)
  | crashed

structure QueueView (τ : Type) where
  ring : LockFreeMPMCQueue τ
  tracked : Bool
  stats : LockFreeQueueStatistics
  history : QueueHistory τ
  unpublished : Nat

variable {τ : Type}

def Ports.viewAt (port : Nat) (ports : Ports τ) : QueueView τ where
  ring := ports.ring port
  tracked := (ports.queue port).trackStatistics
  stats := (ports.queue port).stats
  history := ports.history port
  unpublished := ports.unpublished port

namespace QueueHistory

def begin (history : QueueHistory τ) : QueueHistory τ :=
  { history with
    begun := history.begun + 1
    inFlight := history.inFlight + 1
    crowded := 0 < history.inFlight }

def finish (history : QueueHistory τ) (item : τ) (pushed : Bool) : QueueHistory τ :=
  { history with
    inFlight := history.inFlight - 1
    returned := history.returned ++ [(item, pushed)] }

end QueueHistory

namespace QueueView

def count (view : QueueView τ) (change : LockFreeQueueStatistics → LockFreeQueueStatistics) :
    QueueView τ :=
  { view with stats := change view.stats }

def claim (view : QueueView τ) : QueueView τ :=
  { view with ring := view.ring.claim, unpublished := view.unpublished + 1 }

def write (view : QueueView τ) (pos : Nat) (item : τ) : QueueView τ :=
  { view with
    ring := view.ring.storeData pos (some item)
    history := { view.history with log := view.history.log ++ [.write pos item] } }

def publish (view : QueueView τ) (pos : Nat) : QueueView τ :=
  { view with ring := view.ring.publish pos, unpublished := view.unpublished - 1 }

def cell (view : QueueView τ) (pos : Nat) : Option τ := view.ring.data (view.ring.slot pos)

def read (view : QueueView τ) (pos : Nat) : QueueView τ :=
  { view with
    ring := view.ring.storeData pos none
    history := { view.history with log := view.history.log ++ [.read pos (view.cell pos)] } }

def report (view : QueueView τ) (event : DropEvent) : QueueView τ :=
  { view with history := { view.history with drops := view.history.drops ++ [event] } }

end QueueView

section Protocol

-- `direct`: the ring's own `tryPush` and `tryPop` are called as well
variable (config : NodeQueueConfig τ) (port : Nat) (direct : Bool)

inductive PortMove : QueueLabel → QueueView τ → List (PortFrame τ) → QueueView τ →
    List (PortFrame τ) → Prop
  | quiet {label view top} : PortMove label view top view top
  | peak {label view top} (value : Nat) :
      PortMove label view top (view.count fun stats => { stats with peakSize := value }) top
  | begin {view} (item : τ) :
      PortMove (.begin port) view [] { view with history := view.history.begin } [.checking item]
  | loadSize {view item} :
      PortMove .internal view [.checking item] view [.loaded view.ring.enqueuePos item]
  | small {view enqueued item} : enqueued < view.ring.dequeuePos + config.targetKeep →
      PortMove .internal view [.loaded enqueued item] view [.ticket item]
  | large {view enqueued item} : PortMove .internal view [.loaded enqueued item] view [.checking item]
  | loadTail {view} : PortMove .internal view [] view [.pushAt view.ring.enqueuePos]
  | free {view pos} : view.ring.tag pos = pos →
      PortMove .internal view [.pushAt pos] view [.pushReady pos]
  | lost {view pos} :
      PortMove .internal view [.pushReady pos] view [.pushAt view.ring.enqueuePos]
  | claim {view pos item} : view.ring.enqueuePos = pos →
      PortMove .internal view [.pushReady pos, .ticket item] view.claim [.claimed pos item]
  | write {view pos item} :
      PortMove .internal view [.claimed pos item] (view.write pos item) [.written pos item]
  | publish {view pos item} :
      PortMove .internal view [.written pos item] (view.publish pos) [.owed item]
  | loadHead {view} : PortMove .internal view [] view [.popAt view.ring.dequeuePos]
  | full {label view pos} : view.ring.tag pos = pos + 1 →
      PortMove label view [.popAt pos] view [.popReady pos]
  | lostHead {view pos} :
      PortMove .internal view [.popReady pos] view [.popAt view.ring.dequeuePos]
  | nothing {label view pos} : PortMove label view [.popAt pos] view []
  /-- An eviction of a push under KeepLatest that finds nothing ends its loop. -/
  | miss {view pos item} : view.ring.tag pos < pos + 1 →
      PortMove (.evict port) view [.popAt pos, .checking item] view [.ticket item]
  | take {view pos} : view.ring.dequeuePos = pos →
      PortMove .internal view [.popReady pos] { view with ring := view.ring.take } [.taken pos]
  | empty {view pos} :
      PortMove .internal view [.taken pos] (view.read pos) [.emptied pos (view.cell pos)]
  | release {view pos item} :
      PortMove .internal view [.emptied pos item] { view with ring := view.ring.release pos }
        [.gone item]
  | countPush {view item} : PortMove .internal view [.owed item]
      (view.count fun stats => { stats with totalPushed := stats.totalPushed + 1 })
      [.settled item true]
  | countReject {view item} : PortMove .internal view [.rejected item]
      (view.count fun stats => { stats with totalRejected := stats.totalRejected + 1 })
      [.settled item false]
  | countPop {view item} : PortMove .internal view [.gone item]
      (view.count fun stats => { stats with totalPopped := stats.totalPopped + 1 }) []
  | countDrop {view item} : PortMove .internal view [.gone item]
      (view.count fun stats => { stats with totalDropped := stats.totalDropped + 1 })
      [.dropping item]
  | skipPush {view item} : view.tracked = false →
      PortMove .internal view [.owed item] view [.settled item true]
  | skipReject {view item} : view.tracked = false →
      PortMove .internal view [.rejected item] view [.settled item false]
  | skipPop {view item} : view.tracked = false → PortMove .internal view [.gone item] view []
  | skipDrop {view item} : view.tracked = false →
      PortMove .internal view [.gone item] view [.dropping item]
  | report {view item} (event : DropEvent) :
      PortMove .internal view [.dropping item] (view.report event) []
  | finish {view item pushed} : PortMove .internal view [.settled item pushed]
      { view with history := view.history.finish item pushed } []

inductive PortGhost : List (PortFrame τ) → List (PortFrame τ) → Prop
  | forgetTail {pos} : PortGhost [.pushAt pos] []
  | forgetHead {pos} : PortGhost [.popAt pos] []
  | ready {item} : config.dropPolicy ≠ .keepLatest → PortGhost [.checking item] [.ticket item]
  | reject {item} : config.dropPolicy = .dropTail → PortGhost [.ticket item] [.rejected item]
  | silent {item} : config.dropCallback = false → PortGhost [.dropping item] []
  | leaveFull {item} : direct = true → PortGhost [.ticket item] []
  | leave {item} : direct = true → PortGhost [.owed item] []
  | keep {item} : direct = true → PortGhost [.gone item] []

def portProtocol : Protocol (QueueView τ) QueueLabel (QueueProc τ) QueueChoice (PortFrame τ) where
  move label _ := PortMove config port label
  ghost := PortGhost config direct
  fork _ _ _ _ := False
  entry procedure stack := match procedure with
    | .pushCall _ _ | .popCall _ | .ringPop _ => stack = []
    | .ringPush _ item => direct = true ∧ stack = [.ticket item]
    | _ => False
  crashed := .crashed

instance (stack : List (PortFrame τ)) : (portProtocol config port direct).Free stack :=
  ⟨fun _ _ => rfl⟩

def Popped (tail miss : List (PortFrame τ)) (answer : QueueAnswer τ)
    (left : List (PortFrame τ)) : Prop :=
  ∃ found item, answer = .popped found item ∧ left = if found then .gone item :: tail else miss

inductive PortContract : QueueProc τ → List (PortFrame τ) →
    (QueueAnswer τ → List (PortFrame τ) → Prop) → Prop
  | claimSlot {item pos} : PortContract (.claimSlot port item pos) [.pushAt pos, .ticket item]
      fun answer left => ∃ pushed, answer = .flag pushed ∧
        left = [if pushed then .owed item else .ticket item]
  | takeSlot {pos} : PortContract (.takeSlot port pos) [.popAt pos] (Popped [] [])
  | evictSlot {pos} : PortContract (.evictSlot port pos) [.popAt pos] (Popped [] [])
  | evictHead {pos item} : PortContract (.evictSlot port pos) [.popAt pos, .checking item]
      (Popped [.checking item] [.ticket item])
  | raisePeak {current peak} : PortContract (.raisePeak port current peak) []
      fun _ left => left = []
  | pushFallback {item reason} : PortContract (.pushFallback port item reason) [.ticket item]
      fun _ left => left = [.owed item]
  | evictToWindow {item currentSize} : PortContract (.evictToWindow port currentSize)
      [if config.targetKeep ≤ currentSize then .checking item else .ticket item]
      fun _ left => left = [.ticket item]
  | pushCall {item} : PortContract (.pushCall port item) [] fun _ left => left = []
  | popCall : PortContract (.popCall port) [] fun _ left => left = []
  | ringPush {item} : direct = true →
      PortContract (.ringPush port item) [.ticket item] fun _ left => left = []
  | ringPop : direct = true → PortContract (.ringPop port) [] fun _ left => left = []

abbrev PortFollows {α : Type} (program : QueueCode τ α) (stack : List (PortFrame τ))
    (post : α → List (PortFrame τ) → Prop) : Prop :=
  Conforms (portProtocol config port direct) (Ports.viewAt port)
    (PortContract config port direct) program stack post

end Protocol

namespace Ports

variable (ports : Ports τ) (port : Nat)

theorem viewAt_setRing (ring : LockFreeMPMCQueue τ) :
    (ports.setRing port ring).viewAt port = { ports.viewAt port with ring := ring } := by
  simp [viewAt, setRing, Ports.ring]

theorem viewAt_updateStats (change : LockFreeQueueStatistics → LockFreeQueueStatistics) :
    (ports.updateStats port change).viewAt port = (ports.viewAt port).count change := by
  simp [viewAt, updateStats, Ports.ring, QueueView.count]

theorem viewAt_setHeadMutex (held : Bool) :
    (ports.setHeadMutex port held).viewAt port = ports.viewAt port := by
  simp [viewAt, setHeadMutex, Ports.ring]

theorem viewAt_updateHistory (change : QueueHistory τ → QueueHistory τ) :
    (ports.updateHistory port change).viewAt port =
      { ports.viewAt port with history := change (ports.history port) } := by
  simp [viewAt, updateHistory, Ports.ring]

theorem viewAt_claim : (ports.claim port).viewAt port = (ports.viewAt port).claim := by
  simp [viewAt, claim, setRing, Ports.ring, QueueView.claim]

variable (pos : Nat)

theorem viewAt_publish :
    (ports.publish port pos).viewAt port = (ports.viewAt port).publish pos := by
  simp [viewAt, publish, setRing, Ports.ring, QueueView.publish]

theorem viewAt_writeCell (item : τ) :
    (ports.writeCell port pos item).viewAt port = (ports.viewAt port).write pos item := by
  simp [viewAt, writeCell, access, updateHistory, setRing, Ports.ring, QueueView.write]

theorem viewAt_readCell : (ports.readCell port pos).viewAt port = (ports.viewAt port).read pos := by
  simp [viewAt, readCell, access, updateHistory, setRing, Ports.ring, cell, QueueView.read,
    QueueView.cell]

end Ports

/-! Every program follows the protocol. -/

namespace PortFollows

open QueueCode

variable {config : NodeQueueConfig τ} {port : Nat} {direct : Bool}
variable {α β : Type} {stack : List (PortFrame τ)} {post : α → List (PortFrame τ) → Prop}

variable {next : β → QueueCode τ α} {label : QueueLabel}

theorem act {effect : QueueChoice → Ports τ → Option (β × Ports τ)}
    (moved : ∀ choice ports answer ports', effect choice ports = some (answer, ports') →
      ∃ top tail top', stack = top ++ tail ∧
        PortMove config port label (ports.viewAt port) top (ports'.viewAt port) top' ∧
        PortFollows config port direct (next answer) (top' ++ tail) post) :
    PortFollows config port direct ((.act label effect .ret : QueueCode τ β) >>= next)
      stack post := by
  intro choice ports answer ports' made
  obtain ⟨top, tail, top', rfl, move, rest⟩ := moved choice ports answer ports' made
  exact ⟨top, tail, top', .refl, fun _ => inferInstance, move, rest⟩

variable {field : Ports τ → β}

theorem load (moved : ∀ ports : Ports τ, ∃ top tail top', stack = top ++ tail ∧
      PortMove config port label (ports.viewAt port) top (ports.viewAt port) top' ∧
        PortFollows config port direct (next (field ports)) (top' ++ tail) post) :
    PortFollows config port direct (loadAs label field >>= next) stack post := by
  refine act fun choice ports answer ports' made => ?_
  cases made
  exact moved ports

variable {top' : List (PortFrame τ)}

theorem store {change : Ports τ → Ports τ} {next : Unit → QueueCode τ α}
    {effect : QueueView τ → QueueView τ} (top tail : List (PortFrame τ))
    (seen : ∀ ports, (change ports).viewAt port = effect (ports.viewAt port))
    (moved : ∀ view, PortMove config port .internal view top (effect view) top')
    (rest : PortFollows config port direct (next ()) (top' ++ tail) post) :
    PortFollows config port direct (QueueCode.store change >>= next) (top ++ tail) post :=
  Conforms.store top tail (fun _ => inferInstance) (fun _ ports => by rw [seen]; exact moved _) rest

theorem ghost {program : QueueCode τ α} {top top' : List (PortFrame τ)} (tail : List (PortFrame τ))
    (rewritten : PortGhost config direct top top')
    (follows : PortFollows config port direct program (top' ++ tail) post) :
    PortFollows config port direct program (top ++ tail) post :=
  .shift (.ghost tail rewritten) follows

theorem read (rest : ∀ value, PortFollows config port direct (next value) stack post) :
    PortFollows config port direct (loadAs label field >>= next) stack post :=
  load fun _ => ⟨[], stack, [], rfl, .quiet, rest _⟩

variable (stack : List (PortFrame τ))

theorem size :
    PortFollows config port direct (QueueCode.size .internal port) stack
      fun _ left => left = stack :=
  read fun _ => read fun _ => .ret rfl

theorem claimSlot (item : τ) (pos : Nat) :
    PortFollows config port direct (QueueCode.claimSlot port item pos) [.pushAt pos, .ticket item]
      fun answer left => ∃ pushed, answer = .flag pushed ∧
        left = [if pushed then .owed item else .ticket item] := by
  refine load fun ports => ?_
  split
  case isTrue free =>
    refine ⟨[.pushAt pos], [.ticket item], _, rfl, .free free, act ?_⟩
    intro choice ports answer ports' made
    split at made
    case isTrue claims =>
      cases made
      have same : (ports.ring port).enqueuePos = pos := by
        simp only [Bool.and_eq_true, beq_iff_eq] at claims
        exact claims.2
      refine ⟨[.pushReady pos, .ticket item], [], [.claimed pos item], rfl, ?_, ?_⟩
      · rw [ports.viewAt_claim]
        exact .claim same
      refine store [.claimed pos item] [] (fun ports => ports.viewAt_writeCell port pos item)
        (fun _ => .write) ?_
      exact store [.written pos item] [] (fun ports => ports.viewAt_publish port pos)
        (fun _ => .publish) (.ret ⟨true, rfl, rfl⟩)
    case isFalse =>
      cases made
      exact ⟨[.pushReady pos], [.ticket item], _, rfl, .lost, .invoke .claimSlot⟩
  case isFalse =>
    refine ⟨[], [.pushAt pos, .ticket item], [], rfl, .quiet, ?_⟩
    refine ghost [.ticket item] .forgetTail ?_
    split
    · exact .ret ⟨false, rfl, rfl⟩
    · exact load fun ports => ⟨[], [.ticket item], _, rfl, .loadTail, .invoke .claimSlot⟩

theorem tryPush (item : τ) :
    PortFollows config port direct (QueueCode.tryPush port item) [.ticket item]
      fun pushed left => left = [if pushed then .owed item else .ticket item] := by
  refine load fun ports => ⟨[], [.ticket item], _, rfl, .loadTail, ?_⟩
  refine .bind (.invoke .claimSlot) fun answer left => ?_
  rintro ⟨pushed, rfl, rfl⟩
  exact .ret rfl

/-- `tail` is the push on whose behalf the loop runs, and `miss` what becomes of it when
there is nothing to take. -/
theorem takeSlotAs {again : Nat → QueueProc τ} {tail miss : List (PortFrame τ)} {pos : Nat}
    (low : ∀ view : QueueView τ, view.ring.tag pos < pos + 1 → ∃ top below top',
      .popAt pos :: tail = top ++ below ∧ PortMove config port label view top view top' ∧
      top' ++ below = miss)
    (calls : ∀ current, PortContract config port direct (again current) (.popAt current :: tail)
      (Popped tail miss)) :
    PortFollows config port direct (QueueCode.takeSlotAs label again port pos)
      (.popAt pos :: tail) (Popped tail miss) := by
  refine load fun ports => ?_
  split
  case isTrue full =>
    refine ⟨[.popAt pos], tail, _, rfl, .full full, act ?_⟩
    intro choice ports answer ports' made
    split at made
    case isTrue same =>
      split at made
      · cases made
        refine ⟨[.popReady pos], tail, [.popAt pos], rfl, ?_, .invoke (calls pos)⟩
        exact same ▸ PortMove.lostHead
      · cases made
        refine ⟨[.popReady pos], tail, [.taken pos], rfl, ?_, act ?_⟩
        · rw [ports.viewAt_setRing]
          exact .take same
        intro choice ports item ports' made
        cases made
        refine ⟨[.taken pos], tail, [.emptied pos (ports.cell port pos)], rfl, ?_, ?_⟩
        · rw [ports.viewAt_readCell]
          exact .empty
        exact store [.emptied pos _] tail (fun ports => ports.viewAt_setRing port _)
          (fun _ => .release) (.ret ⟨true, _, rfl, rfl⟩)
    case isFalse other =>
      cases made
      exact ⟨[.popReady pos], tail, _, rfl, .lostHead, .invoke (calls _)⟩
  case isFalse other =>
    split
    case isTrue below =>
      obtain ⟨top, below, top', here, moved, rfl⟩ := low (ports.viewAt port) below
      exact ⟨top, below, top', here, moved, .ret ⟨false, none, rfl, rfl⟩⟩
    case isFalse =>
      refine ⟨[.popAt pos], tail, _, rfl, .quiet, ghost tail .forgetHead (act ?_)⟩
      intro choice ports answer ports' made
      cases made
      exact ⟨[], tail, _, rfl, .loadHead, .invoke (calls _)⟩

variable (pos : Nat)

theorem takeSlot :
    PortFollows config port direct (QueueCode.takeSlot port pos) [.popAt pos] (Popped [] []) := by
  refine takeSlotAs (fun view _ => ?_) fun _ => .takeSlot
  exact ⟨[.popAt pos], [], [], rfl, .nothing, rfl⟩

theorem evictSlot :
    PortFollows config port direct (QueueCode.evictSlot port pos) [.popAt pos] (Popped [] []) := by
  refine takeSlotAs (fun view _ => ?_) fun _ => .evictSlot
  exact ⟨[.popAt pos], [], [], rfl, .nothing, rfl⟩

theorem evictHead (item : τ) :
    PortFollows config port direct (QueueCode.evictSlot port pos) [.popAt pos, .checking item]
      (Popped [.checking item] [.ticket item]) :=
  takeSlotAs (fun _ low => ⟨_, [], _, (List.append_nil _).symm, .miss low, rfl⟩) fun _ => .evictHead

theorem countStats {change : LockFreeQueueStatistics → LockFreeQueueStatistics}
    (top : List (PortFrame τ)) (tail : List (PortFrame τ))
    (counts : ∀ view, PortMove config port .internal view top (view.count change) top')
    (skips : ∀ view, view.tracked = false → PortMove config port .internal view top view top') :
    PortFollows config port direct (QueueCode.countStats port change) (top ++ tail)
      fun _ left => left = top' ++ tail := by
  refine load fun ports => ?_
  split
  · refine ⟨[], top ++ tail, [], rfl, .quiet, ?_⟩
    rw [← Prog.bind_ret (QueueCode.store _)]
    exact store top tail (fun ports => ports.viewAt_updateStats port change) counts (.ret rfl)
  case isFalse untracked =>
    exact ⟨top, tail, top', rfl, skips _ (Bool.eq_false_iff.mpr untracked), .ret rfl⟩

theorem raisePeak (current peak : Nat) :
    PortFollows config port direct (QueueCode.raisePeak port current peak) []
      fun _ left => left = [] := by
  unfold QueueCode.raisePeak
  split
  · refine act fun choice ports answer ports' made => ?_
    dsimp only at made
    split at made
    · cases made
      refine ⟨[], [], [], rfl, ?_, .ret rfl⟩
      rw [ports.viewAt_updateStats]
      exact .peak current
    · cases made
      exact ⟨[], [], [], rfl, .quiet, .invoke .raisePeak⟩
  · exact .ret rfl

theorem updatePeakSize :
    PortFollows config port direct (QueueCode.updatePeakSize port) stack
      fun _ left => left = stack := by
  refine read fun tracked => ?_
  split
  · refine (size stack).seq fun current => read fun peak => ?_
    have raises : PortFollows config port direct (Prog.invoke (.raisePeak port current peak)) []
        fun _ left => left = [] := .invoke .raisePeak
    exact raises.seqFrame stack fun _ => .ret rfl
  · exact .ret rfl

theorem recordPush (item : τ) :
    PortFollows config port direct (QueueCode.recordPush port) [.owed item]
      fun _ left => left = [.settled item true] :=
  (updatePeakSize _).seq fun _ => countStats [.owed item] [] (fun _ => .countPush) fun _ => .skipPush

theorem notifyDrop (dropped : Option τ) (reason : String) (sizeBefore : Nat)
    (tail : List (PortFrame τ)) :
    PortFollows config port direct (QueueCode.notifyDrop config port dropped reason sizeBefore)
      (.dropping dropped :: tail) fun _ left => left = tail := by
  unfold QueueCode.notifyDrop
  split
  case isTrue =>
    refine (size _).seq fun sizeAfter => read fun total => ?_
    rw [← Prog.bind_ret (QueueCode.store _)]
    exact store [.dropping dropped] tail (fun ports => ports.viewAt_updateHistory port _)
      (fun _ => .report _) (.ret rfl)
  case isFalse uninstalled =>
    exact ghost tail (.silent (Bool.eq_false_iff.mpr uninstalled)) (.ret rfl)

/-- `tail` and `miss` as for `takeSlotAs`. -/
theorem evictAndNotify (reason : String) (sizeBefore : Nat) (tail miss : List (PortFrame τ))
    (evicts : ∀ pos, PortFollows config port direct (Prog.invoke (.evictSlot port pos))
      (.popAt pos :: tail) (Popped tail miss)) :
    PortFollows config port direct (QueueCode.evictAndNotify config port reason sizeBefore) tail
      fun found left => left = if found then tail else miss := by
  have evictOne : PortFollows config port direct (QueueCode.evictOne port) tail
      fun answer left => left = if answer.1 then .gone answer.2 :: tail else miss := by
    refine act fun choice ports answer ports' made => ?_
    split at made
    · cases made
    cases made
    refine ⟨[], tail, [], rfl, ?_, load fun ports => ⟨[], tail, _, rfl, .loadHead, ?_⟩⟩
    · rw [ports.viewAt_setHeadMutex]
      exact .quiet
    refine .bind (evicts _) fun answer left => ?_
    rintro ⟨found, item, rfl, rfl⟩
    refine store [] _ (fun ports => ports.viewAt_setHeadMutex port false) (fun _ => .quiet) ?_
    cases found <;> exact .ret rfl
  refine evictOne.seq fun ⟨found, dropped⟩ => ?_
  cases found with
  | true =>
    refine (countStats [.gone dropped] tail (fun _ => .countDrop) fun _ => .skipDrop).seq
      fun _ => ?_
    exact (notifyDrop dropped reason sizeBefore tail).seq fun _ => .ret rfl
  | false => exact .ret rfl

section

variable (item : τ)
include item

variable (reason : String)

theorem assist (sizeBefore : Nat) :
    PortFollows config port direct (QueueCode.evictAndNotify config port reason sizeBefore)
      [.ticket item] fun _ left => left = [.ticket item] := by
  refine (evictAndNotify reason sizeBefore [] [] fun pos => ?_).above [.ticket item] |>.mono ?_
  · exact .invoke .evictSlot
  · intro found left ends
    rw [ends]
    cases found <;> rfl

theorem spinPush (spins : Nat) :
    PortFollows config port direct (QueueCode.spinPush port item spins) [.ticket item]
      fun pushed left => left = [if pushed then .owed item else .ticket item] := by
  induction spins with
  | zero => exact .ret rfl
  | succ spins ih =>
    refine (tryPush item).seq fun pushed => ?_
    cases pushed with
    | true => exact .ret rfl
    | false => exact ih

theorem pushFallback :
    PortFollows config port direct (QueueCode.pushFallback config port item reason) [.ticket item]
      fun _ left => left = [.owed item] := by
  refine (tryPush item).seq fun pushed => ?_
  cases pushed with
  | true => exact .ret rfl
  | false =>
    refine (size _).seq fun sizeBefore => (assist item reason sizeBefore).seq fun _ => ?_
    exact .invoke .pushFallback

theorem evictionRounds (rounds : Nat) :
    PortFollows config port direct (QueueCode.evictionRounds config port item rounds)
      [.ticket item] fun pushed left => left = [if pushed then .owed item else .ticket item] := by
  induction rounds with
  | zero => exact .ret rfl
  | succ rounds ih =>
    refine (size _).seq fun sizeBefore => (assist item _ sizeBefore).seq fun _ => ?_
    refine (spinPush item 128).seq fun pushed => ?_
    cases pushed with
    | true => exact .ret rfl
    | false => exact ih

theorem fallBack :
    PortFollows config port direct
      (do
        let _ ← Prog.invoke (.pushFallback port item reason)
        QueueCode.recordPush port
        .ret true) [.ticket item] fun pushed left => left = [.settled item pushed] := by
  refine .bind (.invoke .pushFallback) fun _ left ends => ?_
  rw [ends]
  exact (recordPush item).seq fun _ => .ret rfl

theorem pushDropTail (policy : config.dropPolicy = .dropTail) :
    PortFollows config port direct (QueueCode.pushDropTail port item) [.ticket item]
      fun pushed left => left = [.settled item pushed] := by
  refine (tryPush item).seq fun pushed => ?_
  cases pushed with
  | true =>
    refine (updatePeakSize _).seq fun _ => ?_
    refine (countStats [.owed item] [] (fun _ => .countPush) fun _ => .skipPush).seq fun _ => ?_
    exact .ret rfl
  | false =>
    refine ghost [] (.reject policy) ?_
    refine (countStats [.rejected item] [] (fun _ => .countReject) fun _ => .skipReject).seq
      fun _ => ?_
    exact .ret rfl

theorem pushDropHead :
    PortFollows config port direct (QueueCode.pushDropHead config port item) [.ticket item]
      fun pushed left => left = [.settled item pushed] := by
  refine (tryPush item).seq fun pushed => ?_
  cases pushed with
  | true => exact (recordPush item).seq fun _ => .ret rfl
  | false =>
    refine (evictionRounds item 4).seq fun pushed => ?_
    cases pushed with
    | true => exact (recordPush item).seq fun _ => .ret rfl
    | false => exact fallBack item _

theorem checkSize :
    PortFollows config port direct (QueueCode.size .internal port) [.checking item]
      fun size left =>
        left = [if config.targetKeep ≤ size then .checking item else .ticket item] := by
  refine load fun ports => ⟨[.checking item], [], _, rfl, .loadSize, ?_⟩
  change PortFollows config port direct _ [.loaded (ports.ring port).enqueuePos item] _
  generalize (ports.ring port).enqueuePos = enqueued
  refine load fun ports => ?_
  have same : (if (ports.ring port).dequeuePos ≤ enqueued then
      enqueued - (ports.ring port).dequeuePos else 0) = enqueued - (ports.ring port).dequeuePos := by
    split <;> omega
  rw [same]
  by_cases large : config.targetKeep ≤ enqueued - (ports.ring port).dequeuePos
  · refine ⟨[.loaded enqueued item], [], [.checking item], rfl, .large, .ret ?_⟩
    rw [if_pos large]
    rfl
  · have small : enqueued < (ports.viewAt port).ring.dequeuePos + config.targetKeep := by
      change enqueued < (ports.ring port).dequeuePos + config.targetKeep
      omega
    refine ⟨[.loaded enqueued item], [], [.ticket item], rfl, .small small, .ret ?_⟩
    rw [if_neg large]
    rfl

theorem evictToWindow (currentSize : Nat) :
    PortFollows config port direct (QueueCode.evictToWindow config port currentSize)
      [if config.targetKeep ≤ currentSize then .checking item else .ticket item]
      fun _ left => left = [.ticket item] := by
  unfold QueueCode.evictToWindow
  split
  · refine (evictAndNotify _ currentSize [.checking item] [.ticket item] fun pos =>
      .invoke .evictHead).seq fun found => ?_
    cases found with
    | true => exact (checkSize item).seq fun size => .invoke .evictToWindow
    | false => exact .ret rfl
  · exact .ret rfl

theorem pushKeepLatest :
    PortFollows config port direct (QueueCode.pushKeepLatest config port item) [.checking item]
      fun pushed left => left = [.settled item pushed] := by
  refine (checkSize item).seq fun currentSize => ?_
  refine .bind (.invoke .evictToWindow) fun _ left ends => ?_
  rw [ends]
  refine (tryPush item).seq fun pushed => ?_
  cases pushed with
  | true => exact (recordPush item).seq fun _ => .ret rfl
  | false =>
    refine (size _).seq fun sizeBefore => (assist item _ sizeBefore).seq fun _ => ?_
    refine (spinPush item 128).seq fun pushed => ?_
    cases pushed with
    | true => exact (recordPush item).seq fun _ => .ret rfl
    | false => exact fallBack item _

theorem push :
    PortFollows config port direct (QueueCode.push config port item) [.checking item]
      fun pushed left => left = [.settled item pushed] := by
  unfold QueueCode.push
  cases policy : config.dropPolicy with
  | dropTail => exact ghost [] (.ready (by rw [policy]; decide)) (pushDropTail item policy)
  | dropHead => exact ghost [] (.ready (by rw [policy]; decide)) (pushDropHead item)
  | keepLatest => exact pushKeepLatest item

theorem pushCall :
    PortFollows config port direct (QueueCode.pushCall config port item) []
      fun _ left => left = [] := by
  refine act fun choice ports answer ports' made => ?_
  cases made
  refine ⟨[], [], [.checking item], rfl, ?_, (push item).seq fun pushed => ?_⟩
  · rw [ports.viewAt_updateHistory]
    exact .begin item
  · exact store [.settled item pushed] [] (fun ports => ports.viewAt_updateHistory port _)
      (fun _ => .finish) (.ret rfl)

end

theorem tryPop :
    PortFollows config port direct (QueueCode.tryPop port) [] fun _ left => left = [] := by
  refine load fun ports => ⟨[], [], _, rfl, .loadHead, ?_⟩
  refine .bind (.invoke .takeSlot) fun answer left => ?_
  rintro ⟨found, item, rfl, rfl⟩
  cases found with
  | true =>
    refine (countStats [.gone item] [] (fun _ => .countPop) fun _ => .skipPop).seq fun _ => ?_
    exact .ret rfl
  | false => exact .ret rfl

theorem tryPopRing (raw : direct = true) :
    PortFollows config port direct (QueueCode.tryPopRing port) [] fun _ left => left = [] := by
  refine load fun ports => ⟨[], [], _, rfl, .loadHead, ?_⟩
  refine .bind (.invoke .takeSlot) fun answer left => ?_
  rintro ⟨found, item, rfl, rfl⟩
  cases found with
  | true => exact ghost [] (.keep raw) (.ret rfl)
  | false => exact .ret rfl

theorem body (configs : Nat → NodeQueueConfig τ) (procedure : QueueProc τ)
    (top : List (PortFrame τ)) (leaves : QueueAnswer τ → List (PortFrame τ) → Prop)
    (called : PortContract (configs port) port direct procedure top leaves) :
    PortFollows (configs port) port direct (QueueCode.bodyWith configs procedure) top leaves := by
  cases called with
  | claimSlot => exact claimSlot _ _
  | takeSlot => exact takeSlot _
  | evictSlot => exact evictSlot _
  | evictHead => exact evictHead _ _
  | raisePeak => exact raisePeak _ _
  | pushFallback => exact pushFallback _ _
  | evictToWindow => exact evictToWindow _ _
  | pushCall => exact pushCall _
  | popCall => exact tryPop.seq fun _ => .ret rfl
  | ringPush raw =>
    refine (tryPush _).seq fun pushed => ?_
    cases pushed with
    | true => exact ghost [] (.leave raw) (.ret rfl)
    | false => exact ghost [] (.leaveFull raw) (.ret rfl)
  | ringPop raw => exact (tryPopRing raw).seq fun _ => .ret rfl

end PortFollows

inductive Calls (port : Nat) (direct : Bool) : QueueProc τ → Prop
  | push (item : τ) : Calls port direct (.pushCall port item)
  | pop : Calls port direct (.popCall port)
  | ringPush (item : τ) : direct = true → Calls port direct (.ringPush port item)
  | ringPop : direct = true → Calls port direct (.ringPop port)

variable {rules : Rules (Ports τ) QueueLabel (QueueProc τ) QueueChoice} {direct : Bool}

variable (configs : Nat → NodeQueueConfig τ)

theorem port_verified {port : Nat}
    (callers : ∀ procedure ports, rules.starts procedure ports → Calls port direct procedure) :
    Verified (portProtocol (configs port) port direct) (Ports.viewAt port)
      (PortContract (configs port) port direct) (QueueCode.bodyWith configs) rules where
  keeps := PortFollows.body configs
  starts procedure ports started := by
    cases callers procedure ports started with
    | push => exact ⟨[], _, rfl, .pushCall, fun _ _ left => left⟩
    | pop => exact ⟨[], _, rfl, .popCall, fun _ _ left => left⟩
    | ringPush item raw => exact ⟨_, _, ⟨raw, rfl⟩, .ringPush raw, fun _ _ left => left⟩
    | ringPop raw => exact ⟨[], _, rfl, .ringPop raw, fun _ _ left => left⟩

def QueueView.unused (capacity : Nat) (atLeastTwo : 2 ≤ capacity) (tracked : Bool) :
    QueueView τ where
  ring := { capacity := capacity, atLeastTwo := atLeastTwo }
  tracked := tracked
  stats := {}
  history := {}
  unpublished := 0

def Ports.unused (τ : Type) (capacity : Nat) (atLeastTwo : 2 ≤ capacity) (tracked : Bool) :
    Ports τ where
  queue _ :=
    { ring := { capacity := capacity, atLeastTwo := atLeastTwo }, trackStatistics := tracked }

/-- What every access keeps, with all frames of the calls in progress, holds whenever the
queue is looked at. -/
theorem port_invariant {port : Nat}
    (callers : ∀ procedure ports, rules.starts procedure ports → Calls port direct procedure)
    (holds : QueueView τ → Multiset (PortFrame τ) → Prop)
    (moves : ∀ label choice ports view' (others : Multiset (PortFrame τ)) (top top' : List _),
      rules.allows label choice ports →
      PortMove (configs port) port label (ports.viewAt port) top view' top' →
      holds (ports.viewAt port) (others + top) → holds view' (others + top'))
    (ghosts : ∀ view (others : Multiset (PortFrame τ)) (top top' : List _),
      PortGhost (configs port) direct top top' → holds view (others + top) →
      holds view (others + top'))
    (enters : ∀ view (others : Multiset (PortFrame τ)) item, direct = true → holds view others →
      holds view (others + ([.ticket item] : List (PortFrame τ))))
    {capacity : Nat} {atLeastTwo : 2 ≤ capacity} {tracked : Bool}
    (initial : holds (QueueView.unused capacity atLeastTwo tracked) 0)
    {config : Config (Ports τ) QueueLabel (QueueProc τ) QueueChoice (QueueAnswer τ)}
    (run : Reaches (QueueCode.bodyWith configs) rules
      ⟨Ports.unused τ capacity atLeastTwo tracked, []⟩ config) :
    ∃ entries : List (QueueProc τ × List (PortFrame τ)),
      holds (config.shared.viewAt port) (allFrames entries) ∧
      ((∀ thread ∈ config.threads, thread.program.finished = true) →
        .crashed ∉ allFrames entries → allFrames entries = 0) := by
  obtain ⟨entries, reached, settled⟩ := (port_verified configs callers).settledFrom .nil run
  refine ⟨entries, ?_, fun returned intact => allFrames_eq_zero settled returned intact⟩
  have additive : Additive fun _ : Multiset (PortFrame τ) => True := ⟨trivial, fun _ _ _ _ => trivial⟩
  let seen : Ports τ → Multiset (PortFrame τ) → Prop := fun ports => holds (ports.viewAt port)
  have initially : seen (Ports.unused τ capacity atLeastTwo tracked) 0 := initial
  refine reached.invariant additive (fun ports ports' others top top' _ _ rewritten before => ?_)
    (fun _ _ _ _ _ _ _ => trivial) initially
  cases rewritten with
  | move allowed moved => exact moves _ _ _ _ others top top' allowed moved before
  | ghost shifted => exact ghosts _ others top top' shifted before
  | fork forked => exact forked.elim
  | @start procedure _ _ _ entered =>
    rw [Multiset.coe_nil, add_zero] at before
    cases procedure with
    | pushCall | popCall | ringPop =>
      obtain rfl : top' = [] := entered
      rw [Multiset.coe_nil, add_zero]
      exact before
    | ringPush other item =>
      obtain ⟨raw, rfl⟩ := entered
      exact enters _ others item raw before
    | _ => exact entered.elim

def callReferee (direct : Bool) (allows : QueueLabel → Ports Nat → Bool) :
    Referee (Ports Nat) QueueLabel (QueueProc Nat) QueueChoice where
  allows label _ := allows label
  starts
    | .pushCall 0 _, _ | .popCall 0, _ => true
    | .ringPush 0 _, _ | .ringPop 0, _ => direct
    | _, _ => false

theorem callReferee_starts {allows : QueueLabel → Ports Nat → Bool}
    (procedure : QueueProc Nat) (ports : Ports Nat)
    (started : (callReferee direct allows).rules.starts procedure ports) :
    Calls 0 direct procedure := by
  unfold Referee.rules callReferee at started
  dsimp only at started
  split at started
  · exact .push _
  · exact .pop
  · exact .ringPush _ started
  · exact .ringPop started
  · exact Bool.noConfusion started

def portTurns (thread count : Nat) : List (Turn (QueueProc Nat) QueueChoice) :=
  List.replicate count (.run thread {})

end AiPipe
