import AiPipe.Concurrency.Sequential
import AiPipe.Queue.Code
import AiPipe.Queue.Rounding

/-!
A queue in the hands of one thread is a list.  `ListQueue` says what each call does to the list
under each drop policy.
-/

namespace AiPipe

open Concurrency List Multiset LockFreeMPMCQueue

variable {τ : Type}

inductive QueueCall (τ : Type) where
  | push (item : τ)
  | tryPop
  | tryPeek
  | size

inductive CallAnswer (τ : Type) where
  | pushed (accepted : Bool)
  | found (item : Option τ)
  | size (value : Nat)

/-! What the policies are for. -/

structure ListStep (τ : Type) where
  answer : CallAnswer τ
  items : List τ
  removed : List τ := []

namespace ListQueue

def excess (window : Nat) (items : List τ) : Nat := items.length - (window - 1)

def push (policy : LockFreeDropPolicy) (keepLatestN capacity : Nat) (items : List τ) (item : τ) :
    ListStep τ :=
  match policy with
  | .dropTail =>
    if items.length < capacity then { answer := .pushed true, items := items ++ [item] }
    else { answer := .pushed false, items := items }
  | .dropHead =>
    if items.length < capacity then { answer := .pushed true, items := items ++ [item] }
    else
      { answer := .pushed true, items := items.tail ++ [item], removed := items.take 1 }
  | .keepLatest =>
    let surplus := excess (min (max keepLatestN 1) capacity) items
    { answer := .pushed true, items := items.drop surplus ++ [item],
      removed := items.take surplus }

def step (policy : LockFreeDropPolicy) (keepLatestN capacity : Nat) (items : List τ) :
    QueueCall τ → ListStep τ
  | .push item => push policy keepLatestN capacity items item
  | .tryPop => { answer := .found items.head?, items := items.tail }
  | .tryPeek => { answer := .found items.head?, items := items }
  | .size => { answer := .size items.length, items := items }

def run (policy : LockFreeDropPolicy) (keepLatestN capacity : Nat) :
    List τ → List (QueueCall τ) → List (CallAnswer τ) × List τ × List τ
  | items, [] => ([], items, [])
  | items, call :: rest =>
    let first := step policy keepLatestN capacity items call
    let (answers, last, removed) := run policy keepLatestN capacity first.items rest
    (first.answer :: answers, last, first.removed ++ removed)

end ListQueue

namespace QueueCode

def perform (config : NodeQueueConfig τ) (port : Nat) : QueueCall τ → QueueCode τ (CallAnswer τ)
  | .push item => do
      let accepted ← push config port item
      .ret (.pushed accepted)
  | .tryPop => do
      let (found, item) ← tryPop port
      .ret (.found (if found then item else none))
  | .tryPeek => do
      let (found, item) ← tryPeek port
      .ret (.found (if found then item else none))
  | .size => do
      let value ← size .internal port
      .ret (.size value)

def session (config : NodeQueueConfig τ) (port : Nat) :
    List (QueueCall τ) → QueueCode τ (List (CallAnswer τ))
  | [] => .ret []
  | call :: rest => do
      let answer ← perform config port call
      let answers ← session config port rest
      .ret (answer :: answers)

end QueueCode

structure Represents (ring : LockFreeMPMCQueue τ) (items : List τ) : Prop where
  coherent : ring.Coherent 0 0
  length : ring.enqueuePos = ring.dequeuePos + items.length
  stored : ∀ index item, items[index]? = some item →
    ring.data (ring.slot (ring.dequeuePos + index)) = some item

namespace Represents

variable {ring : LockFreeMPMCQueue τ} {items : List τ} {item : τ}

section

variable (represents : Represents ring items)
include represents

theorem bounded : items.length ≤ ring.capacity := by
  have bounded := represents.coherent.bounded
  have length := represents.length
  omega

theorem free (room : items.length < ring.capacity) :
    ring.tag ring.enqueuePos = ring.enqueuePos := by
  refine represents.coherent.free _ le_rfl ?_ fun _ member => absurd member (notMem_zero _)
  rw [represents.length]
  omega

theorem full (full : ¬ items.length < ring.capacity) :
    ring.tag ring.enqueuePos + ring.capacity = ring.enqueuePos + 1 := by
  have bounded := represents.bounded
  have two := ring.atLeastTwo
  have length := represents.length
  have same : ring.enqueuePos = ring.dequeuePos + ring.capacity := by omega
  have head := represents.coherent.filled ring.dequeuePos le_rfl (by omega) (notMem_zero _)
  have wraps : ring.tag ring.enqueuePos = ring.tag ring.dequeuePos := by
    rw [tag, same, ring.slot_add_capacity]
    rfl
  omega

theorem push (room : items.length < ring.capacity) :
    Represents ((ring.claim.storeData ring.enqueuePos (some item)).publish ring.enqueuePos)
      (items ++ [item]) := by
  have free := represents.free room
  have length := represents.length
  have claimed : (ring.claim.storeData ring.enqueuePos (some item)).Coherent
      (ring.enqueuePos ::ₘ 0) 0 :=
    (represents.coherent.claim free).congr rfl (fun _ => rfl) rfl rfl
  have published := claimed.publish (Multiset.mem_cons_self _ _)
  rw [Multiset.erase_cons_head] at published
  refine ⟨published, ?_, fun index other found => ?_⟩
  · change ring.enqueuePos + 1 = ring.dequeuePos + (items ++ [item]).length
    rw [length_append, length_singleton]
    omega
  · change Function.update ring.data (ring.slot ring.enqueuePos) (some item)
      (ring.slot (ring.dequeuePos + index)) = some other
    rcases Nat.lt_or_ge index items.length with old | new
    · rw [getElem?_append_left old] at found
      have apart : ring.slot (ring.dequeuePos + index) ≠ ring.slot ring.enqueuePos := by
        intro same
        have far := ring.apart same (by omega)
        omega
      rw [Function.update_of_ne apart]
      exact represents.stored index other found
    · have last : index = items.length := by
        have inside := (List.getElem?_eq_some_iff.mp found).1
        rw [length_append, length_singleton] at inside
        omega
      subst last
      rw [getElem?_append_right le_rfl, Nat.sub_self] at found
      rw [← length, Function.update_self]
      exact found

end

theorem full_head (represents : Represents ring (item :: items)) : ring.HeadFull := by
  have length := represents.length
  rw [length_cons] at length
  exact represents.coherent.filled _ le_rfl (by omega) (notMem_zero _)

theorem empty_head (represents : Represents ring []) :
    ring.tag ring.dequeuePos = ring.dequeuePos := by
  have length := represents.length
  have two := ring.atLeastTwo
  rw [length_nil, Nat.add_zero] at length
  exact represents.coherent.free _ length.le (by omega) fun _ member =>
    absurd member (notMem_zero _)

theorem head (represents : Represents ring (item :: items)) :
    ring.data (ring.slot ring.dequeuePos) = some item := represents.stored 0 item rfl

theorem pop (represents : Represents ring (item :: items)) :
    Represents ((ring.take.storeData ring.dequeuePos none).release ring.dequeuePos) items := by
  have full := represents.full_head
  have length := represents.length
  have bounded := represents.bounded
  rw [length_cons] at length bounded
  have taken : (ring.take.storeData ring.dequeuePos none).Coherent 0 (ring.dequeuePos ::ₘ 0) :=
    (represents.coherent.take full).congr rfl (fun _ => rfl) rfl rfl
  have released := taken.release (Multiset.mem_cons_self _ _)
  rw [Multiset.erase_cons_head] at released
  refine ⟨released, ?_, fun index other found => ?_⟩
  · change ring.enqueuePos = ring.dequeuePos + 1 + items.length
    omega
  · change Function.update ring.data (ring.slot ring.dequeuePos) none
      (ring.slot (ring.dequeuePos + 1 + index)) = some other
    have inside := (List.getElem?_eq_some_iff.mp found).1
    have apart : ring.slot (ring.dequeuePos + 1 + index) ≠ ring.slot ring.dequeuePos := by
      intro same
      have far := ring.apart same.symm (by omega)
      omega
    rw [Function.update_of_ne apart, Nat.add_assoc, Nat.add_comm 1 index]
    exact represents.stored (index + 1) other found

end Represents

structure QueueHolds (config : NodeQueueConfig τ) (port capacity : Nat) (held : Bool)
    (items dropped : List τ) (ports : Ports τ) : Prop where
  ring : Represents (ports.ring port) items
  capacity : (ports.ring port).capacity = capacity
  mutex : (ports.queue port).headMutex = held
  drops : (ports.history port).drops.map DropEvent.frameId =
    dropped.map fun item => config.frameIdOf (some item)

abbrev Performs (configs : Nat → NodeQueueConfig τ) {α : Type} (program : QueueCode τ α)
    (ports : Ports τ) (post : α → Ports τ → Prop) : Prop :=
  Always (QueueCode.bodyWith configs) QueueChoice.spurious program ports post

namespace QueueHolds

variable {config : NodeQueueConfig τ} {port capacity : Nat} {held : Bool}
variable {items dropped : List τ} {item : τ} {ports ports' : Ports τ}

section

variable (holds : QueueHolds config port capacity held items dropped ports)
include holds

theorem congr (ring : ports'.ring port = ports.ring port)
    (mutex : (ports'.queue port).headMutex = (ports.queue port).headMutex)
    (drops : (ports'.history port).drops = (ports.history port).drops) :
    QueueHolds config port capacity held items dropped ports' := by
  obtain ⟨represents, size, locked, reported⟩ := holds
  exact ⟨ring ▸ represents, ring ▸ size, mutex.trans locked, drops ▸ reported⟩

theorem updateStats (change : LockFreeQueueStatistics → LockFreeQueueStatistics) :
    QueueHolds config port capacity held items dropped (ports.updateStats port change) := by
  refine holds.congr ?_ ?_ rfl <;> simp [Ports.updateStats, Ports.ring]

theorem setHeadMutex (locked : Bool) :
    QueueHolds config port capacity locked items dropped (ports.setHeadMutex port locked) := by
  obtain ⟨represents, size, _, reported⟩ := holds
  refine ⟨?_, ?_, ?_, reported⟩
  · simpa [Ports.setHeadMutex, Ports.ring] using represents
  · simpa [Ports.setHeadMutex, Ports.ring] using size
  · simp [Ports.setHeadMutex]

theorem push (room : items.length < capacity) {pos : Nat} (here : (ports.ring port).enqueuePos = pos) :
    QueueHolds config port capacity held (items ++ [item]) dropped
      (((ports.claim port).writeCell port pos item).publish port pos) := by
  subst here
  obtain ⟨represents, size, locked, reported⟩ := holds
  have ring : ((((ports.claim port).writeCell port (ports.ring port).enqueuePos item).publish port
      (ports.ring port).enqueuePos).ring port) =
      (((ports.ring port).claim.storeData (ports.ring port).enqueuePos (some item)).publish
        (ports.ring port).enqueuePos) := by
    simp [Ports.claim, Ports.writeCell, Ports.publish, Ports.access, Ports.updateHistory,
      Ports.setRing, Ports.ring]
  refine ⟨?_, ?_, ?_, ?_⟩
  · rw [ring]
    exact represents.push (size ▸ room)
  · rw [ring]
    exact size
  · simpa [Ports.claim, Ports.writeCell, Ports.publish, Ports.access, Ports.updateHistory,
      Ports.setRing] using locked
  · simpa [Ports.claim, Ports.writeCell, Ports.publish, Ports.access, Ports.updateHistory,
      Ports.setRing] using reported

end

theorem pop (holds : QueueHolds config port capacity held (item :: items) dropped ports) {pos : Nat}
    (here : (ports.ring port).dequeuePos = pos) :
    let taken := (ports.setRing port (ports.ring port).take).readCell port pos
    QueueHolds config port capacity held items dropped
      (taken.setRing port ((taken.ring port).release pos)) := by
  subst here
  obtain ⟨represents, size, locked, reported⟩ := holds
  have ring : ((ports.setRing port (ports.ring port).take).readCell port
      (ports.ring port).dequeuePos).ring port =
      (ports.ring port).take.storeData (ports.ring port).dequeuePos none := by
    simp [Ports.readCell, Ports.access, Ports.updateHistory, Ports.setRing, Ports.ring]
  refine ⟨?_, ?_, ?_, ?_⟩
  · rw [ring, Ports.ring_setRing_self]
    exact represents.pop
  · rw [ring, Ports.ring_setRing_self]
    exact size
  · simpa [Ports.readCell, Ports.access, Ports.updateHistory, Ports.setRing] using locked
  · simpa [Ports.readCell, Ports.access, Ports.updateHistory, Ports.setRing] using reported

end QueueHolds

/-! What each program does to the list. -/

namespace Performs

open QueueCode

variable {configs : Nat → NodeQueueConfig τ} {port capacity : Nat} {held : Bool}
variable {items dropped : List τ} {item : τ} {ports : Ports τ} {α β : Type}
variable {post : α → Ports τ → Prop}

theorem load {label : QueueLabel} {field : Ports τ → β} {next : β → QueueCode τ α}
    (rest : Performs configs (next (field ports)) ports post) :
    Performs configs (loadAs label field >>= next) ports post :=
  .act (fun _ => rfl) rest

theorem store {change : Ports τ → Ports τ} {next : Unit → QueueCode τ α}
    (rest : Performs configs (next ()) (change ports) post) :
    Performs configs (QueueCode.store change >>= next) ports post :=
  .act (fun _ => rfl) rest

variable (configs)

section Held

variable (holds : QueueHolds (configs port) port capacity held items dropped ports)
include holds

theorem claimSlot :
    Performs configs (QueueCode.claimSlot port item (ports.ring port).enqueuePos) ports
      fun answer ports' => answer = .flag (items.length < capacity) ∧
        QueueHolds (configs port) port capacity held
          (if items.length < capacity then items ++ [item] else items) dropped ports' := by
  refine .retry fun budget again => .access (fun _ => rfl) fun left less => ?_
  have size := holds.capacity
  by_cases room : items.length < capacity
  · rw [if_pos (holds.ring.free (size ▸ room))]
    refine .attempt (some (ports.ring port).enqueuePos, ports) (none, ports.claim port)
      (fun choice => ?_) (fun left' less' => ?_) ?_
    · cases choice.spurious <;> simp
    · exact (again left' (by omega)).invoke
    · refine Always.spend (store (store (.ret ⟨by simp [room], ?_⟩)))
      rw [if_pos room]
      exact holds.push room rfl
  · have full := holds.ring.full (size ▸ room)
    have below : (ports.ring port).tag (ports.ring port).enqueuePos <
        (ports.ring port).enqueuePos := by
      have two := (ports.ring port).atLeastTwo
      omega
    rw [if_neg below.ne, if_pos below]
    exact .ret ⟨by simp [room], by simpa [room] using holds⟩

theorem tryPush :
    Performs configs (QueueCode.tryPush port item) ports fun pushed ports' =>
      pushed = decide (items.length < capacity) ∧ QueueHolds (configs port) port capacity held
        (if items.length < capacity then items ++ [item] else items) dropped ports' := by
  refine load (.bind (.invoke (claimSlot configs holds)) ?_)
  rintro answer ports' ⟨rfl, after⟩
  exact .ret ⟨rfl, after⟩

theorem takeSlotAs {label : QueueLabel} {again : Nat → QueueProc τ}
    (calls : ∀ pos, bodyWith configs (again pos) = QueueCode.takeSlotAs label again port pos) :
    Performs configs (QueueCode.takeSlotAs label again port (ports.ring port).dequeuePos) ports
      fun answer ports' => answer = .popped items.head?.isSome items.head? ∧
        QueueHolds (configs port) port capacity held items.tail dropped ports' := by
  refine .retry fun budget once => .access (fun _ => rfl) fun left less => ?_
  dsimp only
  cases items with
  | nil =>
    have tagged := holds.ring.empty_head
    rw [if_neg (by omega), if_pos (by omega)]
    exact .ret ⟨rfl, holds⟩
  | cons item items =>
    have full : (ports.ring port).tag (ports.ring port).dequeuePos = _ := holds.ring.full_head
    rw [if_pos full]
    refine .attempt (some (ports.ring port).dequeuePos, ports)
      (none, ports.setRing port (ports.ring port).take) (fun choice => ?_)
      (fun left' less' => ?_) ?_
    · cases choice.spurious <;> simp
    · refine .invoke ?_
      rw [calls]
      exact once left' (by omega)
    · refine Always.spend (.act (fun _ => rfl) (store (.ret ⟨?_, holds.pop rfl⟩)))
      have head : (ports.setRing port (ports.ring port).take).cell port
          (ports.ring port).dequeuePos = some item := by
        unfold Ports.cell
        rw [Ports.ring_setRing_self]
        exact holds.ring.head
      rw [head]
      rfl

theorem size :
    Performs configs (QueueCode.size .internal port) ports
      fun value ports' => value = items.length ∧ ports' = ports := by
  refine load (load (.ret ⟨?_, rfl⟩))
  have length := holds.ring.length
  rw [if_pos (by omega)]
  omega

theorem countStats (change : LockFreeQueueStatistics → LockFreeQueueStatistics) :
    Performs configs (QueueCode.countStats port change) ports
      fun _ ports' => QueueHolds (configs port) port capacity held items dropped ports' := by
  refine load ?_
  split
  · rw [← Prog.bind_ret (QueueCode.store _)]
    exact store (.ret (holds.updateStats change))
  · exact .ret holds

theorem raisePeak (current : Nat) :
    Performs configs (QueueCode.raisePeak port current (ports.queue port).stats.peakSize) ports
      fun _ ports' => QueueHolds (configs port) port capacity held items dropped ports' := by
  refine .retry fun budget again => ?_
  have before := again
  unfold QueueCode.raisePeak at again ⊢
  split
  case isTrue higher =>
    refine .attempt (some (ports.queue port).stats.peakSize, ports)
      (none, ports.updateStats port fun stats => { stats with peakSize := current })
      (fun choice => ?_) (fun left less => ?_) ?_
    · cases choice.spurious <;> simp
    · exact (before left less).invoke
    · exact Always.spend (.ret (holds.updateStats fun stats => { stats with peakSize := current }))
  case isFalse => exact .ret holds

theorem updatePeakSize :
    Performs configs (QueueCode.updatePeakSize port) ports
      fun _ ports' => QueueHolds (configs port) port capacity held items dropped ports' := by
  refine load ?_
  split
  · refine .bind (size configs holds) ?_
    rintro current _ ⟨_, rfl⟩
    refine load (.bind (.invoke (raisePeak configs holds current)) fun _ _ after => ?_)
    exact .ret after
  · exact .ret holds

theorem recordPush :
    Performs configs (QueueCode.recordPush port) ports
      fun _ ports' => QueueHolds (configs port) port capacity held items dropped ports' :=
  .bind (updatePeakSize configs holds) fun _ _ after => countStats configs after _

theorem tryPop :
    Performs configs (QueueCode.tryPop port) ports
      fun answer ports' => answer = (items.head?.isSome, items.head?) ∧
        QueueHolds (configs port) port capacity held items.tail dropped ports' := by
  refine load (.bind (.invoke (takeSlotAs configs holds fun _ => rfl)) ?_)
  rintro answer ports' ⟨rfl, after⟩
  cases items with
  | nil => exact .ret ⟨rfl, after⟩
  | cons item items => exact .bind (countStats configs after _) fun _ _ later => .ret ⟨rfl, later⟩

theorem spinPush (room : items.length < capacity) (spins : Nat) :
    Performs configs (QueueCode.spinPush port item (spins + 1)) ports fun pushed ports' =>
      pushed = true ∧ QueueHolds (configs port) port capacity held (items ++ [item]) dropped ports' := by
  refine .bind (tryPush configs holds) ?_
  rintro pushed ports' ⟨rfl, after⟩
  rw [if_pos room] at after
  rw [decide_eq_true room]
  exact .ret ⟨rfl, after⟩

end Held

theorem unlockHead {next : Unit → QueueCode τ α}
    (rest : Performs configs (next ()) (ports.setHeadMutex port false) post) :
    Performs configs (QueueCode.unlockHead port >>= next) ports post :=
  .act (fun _ => rfl) rest

section Free

variable (holds : QueueHolds (configs port) port capacity false items dropped ports)
include holds

theorem lockHead {next : Unit → QueueCode τ α}
    (rest : Performs configs (next ()) (ports.setHeadMutex port true) post) :
    Performs configs (QueueCode.lockHead port >>= next) ports post := by
  refine .act (fun _ => ?_) rest
  rw [holds.mutex]
  rfl

theorem tryPeek :
    Performs configs (QueueCode.tryPeek port) ports
      fun answer ports' => answer = (items.head?.isSome, items.head?) ∧
        QueueHolds (configs port) port capacity false items dropped ports' := by
  have locked := holds.setHeadMutex true
  refine lockHead configs holds (load (load ?_))
  cases items with
  | nil =>
    have tagged := locked.ring.empty_head
    rw [if_neg (by omega)]
    exact unlockHead configs (.ret ⟨rfl, locked.setHeadMutex false⟩)
  | cons item items =>
    have full : tag _ _ = _ := locked.ring.full_head
    have head := locked.ring.head
    rw [if_pos full]
    refine load (unlockHead configs (.ret ⟨?_, locked.setHeadMutex false⟩))
    exact congrArg (Prod.mk true) head

theorem evictOne :
    Performs configs (QueueCode.evictOne port) ports
      fun answer ports' => answer = (items.head?.isSome, items.head?) ∧
        QueueHolds (configs port) port capacity false items.tail dropped ports' := by
  refine lockHead configs holds (load ?_)
  refine .bind (.invoke (takeSlotAs configs (holds.setHeadMutex true) fun _ => rfl)) ?_
  rintro answer ports' ⟨rfl, after⟩
  refine unlockHead configs ?_
  cases items <;> exact .ret ⟨rfl, after.setHeadMutex false⟩

theorem pushDropTail :
    Performs configs (QueueCode.pushDropTail port item) ports fun pushed ports' =>
      pushed = decide (items.length < capacity) ∧ QueueHolds (configs port) port capacity false
        (if items.length < capacity then items ++ [item] else items) dropped ports' := by
  refine .bind (tryPush configs holds) ?_
  rintro pushed ports' ⟨rfl, after⟩
  by_cases room : items.length < capacity
  · rw [decide_eq_true room]
    refine .bind (updatePeakSize configs after) fun _ _ peaked => ?_
    exact .bind (countStats configs peaked _) fun _ _ counted => .ret ⟨rfl, counted⟩
  · rw [decide_eq_false room]
    exact .bind (countStats configs after _) fun _ _ counted => .ret ⟨rfl, counted⟩

end Free

section Reported

variable (installed : (configs port).dropCallback = true)
  (holds : QueueHolds (configs port) port capacity false items dropped ports)
include installed holds

theorem notifyDrop (reason : String) (sizeBefore : Nat) :
    Performs configs (QueueCode.notifyDrop (configs port) port (some item) reason sizeBefore) ports
      fun _ ports' => QueueHolds (configs port) port capacity false items (dropped ++ [item]) ports' := by
  unfold QueueCode.notifyDrop
  rw [if_pos installed]
  refine .bind (size configs holds) ?_
  rintro sizeAfter _ ⟨_, rfl⟩
  refine load ?_
  rw [← Prog.bind_ret (QueueCode.store _)]
  refine store (.ret ⟨holds.ring, holds.capacity, holds.mutex, ?_⟩)
  simp [Ports.updateHistory, holds.drops]

theorem evictAndNotify (reason : String) (sizeBefore : Nat) :
    Performs configs (QueueCode.evictAndNotify (configs port) port reason sizeBefore) ports
      fun found ports' => found = items.head?.isSome ∧
        QueueHolds (configs port) port capacity false items.tail (dropped ++ items.take 1) ports' := by
  refine .bind (evictOne configs holds) ?_
  rintro _ ports' ⟨rfl, after⟩
  cases items with
  | nil => exact .ret ⟨rfl, by simpa using after⟩
  | cons item items =>
    refine .bind (countStats configs after _) fun _ _ counted => ?_
    refine .bind (notifyDrop configs installed counted reason sizeBefore) fun _ _ told => ?_
    exact .ret ⟨rfl, told⟩

theorem evictionRounds (nonempty : 0 < items.length) (rounds : Nat) :
    Performs configs (QueueCode.evictionRounds (configs port) port item (rounds + 1)) ports
      fun pushed ports' => pushed = true ∧ QueueHolds (configs port) port capacity false
        (items.tail ++ [item]) (dropped ++ items.take 1) ports' := by
  refine .bind (size configs holds) ?_
  rintro sizeBefore _ ⟨_, rfl⟩
  refine .bind (evictAndNotify configs installed holds _ sizeBefore) ?_
  rintro _ evicted ⟨_, after⟩
  have bounded := holds.capacity ▸ holds.ring.bounded
  have room : items.tail.length < capacity := by
    rw [length_tail]
    omega
  refine .bind (spinPush configs after room 127) ?_
  rintro _ ports' ⟨rfl, pushed⟩
  exact .ret ⟨rfl, pushed⟩

theorem evictToWindow :
    Performs configs (QueueCode.evictToWindow (configs port) port items.length) ports
      fun _ ports' => QueueHolds (configs port) port capacity false
        (items.drop (ListQueue.excess (configs port).targetKeep items))
        (dropped ++ items.take (ListQueue.excess (configs port).targetKeep items)) ports' := by
  have positive := (configs port).targetKeep_pos
  induction items generalizing dropped ports with
  | nil =>
    rw [QueueCode.evictToWindow, if_neg (by simpa using positive.ne')]
    exact .ret (by simpa using holds)
  | cons item items ih =>
    rw [QueueCode.evictToWindow]
    split
    case isTrue large =>
      have one : ListQueue.excess (configs port).targetKeep (item :: items) =
          ListQueue.excess (configs port).targetKeep items + 1 := by
        unfold ListQueue.excess
        rw [length_cons] at large ⊢
        omega
      refine .bind (evictAndNotify configs installed holds _ _) ?_
      rintro _ evicted ⟨rfl, after⟩
      refine .bind (size configs after) ?_
      rintro _ _ ⟨rfl, rfl⟩
      refine .invoke (.mono (ih after) fun _ ports' later => ?_)
      rw [one]
      simpa using later
    case isFalse small =>
      have none : ListQueue.excess (configs port).targetKeep (item :: items) = 0 := by
        unfold ListQueue.excess
        omega
      exact .ret (by simpa [none] using holds)

theorem pushDropHead :
    Performs configs (QueueCode.pushDropHead (configs port) port item) ports fun pushed ports' =>
      pushed = true ∧ if items.length < capacity then
        QueueHolds (configs port) port capacity false (items ++ [item]) dropped ports'
      else QueueHolds (configs port) port capacity false (items.tail ++ [item])
        (dropped ++ items.take 1) ports' := by
  refine .bind (tryPush configs holds) ?_
  rintro pushed ports' ⟨rfl, after⟩
  by_cases room : items.length < capacity
  · rw [if_pos room] at after
    rw [decide_eq_true room]
    simp only [if_pos room]
    exact .bind (recordPush configs after) fun _ _ counted => .ret ⟨rfl, counted⟩
  · rw [if_neg room] at after
    rw [decide_eq_false room]
    simp only [if_neg room]
    have two := (ports.ring port).atLeastTwo
    rw [holds.capacity] at two
    refine .bind (evictionRounds configs installed after (by omega) 3) ?_
    rintro _ evicted ⟨rfl, pushed⟩
    exact .bind (recordPush configs pushed) fun _ _ counted => .ret ⟨rfl, counted⟩

theorem pushKeepLatest :
    Performs configs (QueueCode.pushKeepLatest (configs port) port item) ports
      fun pushed ports' => pushed = true ∧ QueueHolds (configs port) port capacity false
        (items.drop (ListQueue.excess (min (configs port).targetKeep capacity) items) ++ [item])
        (dropped ++ items.take (ListQueue.excess (min (configs port).targetKeep capacity) items))
        ports' := by
  have positive := (configs port).targetKeep_pos
  have bounded := holds.capacity ▸ holds.ring.bounded
  have two := holds.capacity ▸ (ports.ring port).atLeastTwo
  refine .bind (size configs holds) ?_
  rintro _ _ ⟨rfl, rfl⟩
  refine .bind (.invoke (evictToWindow configs installed holds)) fun _ trimmed after => ?_
  refine .bind (tryPush configs after) ?_
  rintro pushed ports' ⟨rfl, later⟩
  have length : (items.drop (ListQueue.excess (configs port).targetKeep items)).length =
      items.length - (items.length - ((configs port).targetKeep - 1)) := length_drop
  by_cases room : (items.drop (ListQueue.excess (configs port).targetKeep items)).length < capacity
  · have same : ListQueue.excess (min (configs port).targetKeep capacity) items =
        ListQueue.excess (configs port).targetKeep items := by
      unfold ListQueue.excess
      omega
    rw [if_pos room] at later
    rw [decide_eq_true room, same]
    exact .bind (recordPush configs later) fun _ _ counted => .ret ⟨rfl, counted⟩
  · -- the window is wider than the ring, and the ring is full
    have whole : ListQueue.excess (configs port).targetKeep items = 0 := by
      unfold ListQueue.excess
      omega
    have one : ListQueue.excess (min (configs port).targetKeep capacity) items = 1 := by
      unfold ListQueue.excess
      omega
    rw [if_neg room, whole, drop_zero, take_zero, append_nil] at later
    rw [decide_eq_false room, one, drop_one]
    refine .bind (size configs later) ?_
    rintro sizeBefore _ ⟨_, rfl⟩
    refine .bind (evictAndNotify configs installed later _ sizeBefore) ?_
    rintro _ evicted ⟨_, gone⟩
    have shorter : items.tail.length < capacity := by
      rw [length_tail]
      omega
    refine .bind (spinPush configs gone shorter 127) ?_
    rintro _ spun ⟨rfl, placed⟩
    exact .bind (recordPush configs placed) fun _ _ counted => .ret ⟨rfl, counted⟩

theorem push :
    let step := ListQueue.push (configs port).dropPolicy (configs port).keepLatestN capacity items item
    Performs configs (QueueCode.push (configs port) port item) ports fun pushed ports' =>
      .pushed pushed = step.answer ∧
        QueueHolds (configs port) port capacity false step.items (dropped ++ step.removed) ports' := by
  unfold QueueCode.push ListQueue.push
  cases (configs port).dropPolicy with
  | dropTail =>
    refine .mono (pushDropTail configs holds) ?_
    rintro _ ports' ⟨rfl, after⟩
    by_cases room : items.length < capacity <;> simpa [room] using after
  | dropHead =>
    refine .mono (pushDropHead configs installed holds) ?_
    rintro _ ports' ⟨rfl, after⟩
    by_cases room : items.length < capacity <;> simpa [room] using after
  | keepLatest =>
    refine .mono (pushKeepLatest configs installed holds) ?_
    rintro _ ports' ⟨rfl, after⟩
    rw [(configs port).targetKeep_eq] at after
    exact ⟨rfl, after⟩

theorem perform (call : QueueCall τ) :
    let step := ListQueue.step (configs port).dropPolicy (configs port).keepLatestN capacity items call
    Performs configs (QueueCode.perform (configs port) port call) ports fun answer ports' =>
      answer = step.answer ∧
        QueueHolds (configs port) port capacity false step.items (dropped ++ step.removed) ports' := by
  have answered : ∀ head : Option τ, (if head.isSome then head else none) = head := by
    intro head
    cases head <;> rfl
  cases call with
  | push item => exact .bind (push configs installed holds) fun _ _ after => .ret after
  | tryPop =>
    refine .bind (tryPop configs holds) ?_
    rintro _ ports' ⟨rfl, after⟩
    exact .ret ⟨congrArg CallAnswer.found (answered _), by simpa [ListQueue.step] using after⟩
  | tryPeek =>
    refine .bind (tryPeek configs holds) ?_
    rintro _ ports' ⟨rfl, after⟩
    exact .ret ⟨congrArg CallAnswer.found (answered _), by simpa [ListQueue.step] using after⟩
  | size =>
    refine .bind (size configs holds) ?_
    rintro _ _ ⟨rfl, rfl⟩
    exact .ret ⟨rfl, by simpa [ListQueue.step] using holds⟩

theorem session (calls : List (QueueCall τ)) :
    let outcome :=
      ListQueue.run (configs port).dropPolicy (configs port).keepLatestN capacity items calls
    Performs configs (QueueCode.session (configs port) port calls) ports fun answers ports' =>
      answers = outcome.1 ∧
        QueueHolds (configs port) port capacity false outcome.2.1 (dropped ++ outcome.2.2) ports' := by
  induction calls generalizing items dropped ports with
  | nil => exact .ret ⟨rfl, by simpa [ListQueue.run] using holds⟩
  | cons call rest ih =>
    refine .bind (perform configs installed holds call) ?_
    rintro _ middle ⟨rfl, first⟩
    refine .bind (ih first) ?_
    rintro _ ports' ⟨rfl, last⟩
    exact .ret ⟨rfl, by simpa [ListQueue.run] using last⟩

end Reported

end Performs

def Ports.around (ring : LockFreeMPMCQueue τ) (tracked : Bool) : Ports τ where
  queue _ := { ring := ring, trackStatistics := tracked }

/-- One thread and a queue of any capacity, policy and window.  Exactly when the rounded capacity can
be addressed there is a ring; then all calls return, answer what the list answers, and the
callback has had the ids of the removed items in order.  Positions are numbers without a bound
here, and 64-bit words in the code. -/
theorem policies_refine (configs : Nat → NodeQueueConfig τ) (port : Nat) (tracked : Bool)
    (installed : (configs port).dropCallback = true) (cellSize requested : Nat)
    (aligned : 64 ≤ cellSize) (word : requested < 2 ^ 64) :
    (∃ ring, LockFreeMPMCQueue.construct τ cellSize requested = some ring ∧
      (∀ pos, ring.slot pos = pos &&& (ring.capacity - 1)) ∧
      ∀ (calls : List (QueueCall τ)) (choices : Nat → QueueChoice),
        (∃ last, ∀ index, last ≤ index → (choices index).spurious = false) →
        let outcome := ListQueue.run (configs port).dropPolicy (configs port).keepLatestN
          (roundedCapacity requested) [] calls
        ∃ fuel ports,
          exec (QueueCode.bodyWith configs) fuel choices
            (QueueCode.session (configs port) port calls) (Ports.around ring tracked) =
            some (outcome.1, ports) ∧
          outcome.2.1.length ≤ roundedCapacity requested ∧
          (ports.history port).drops.map DropEvent.frameId =
            outcome.2.2.map fun item => (configs port).frameIdOf (some item)) ↔
      cellSize * roundedCapacity requested < 2 ^ 64 := by
  refine ⟨fun ⟨ring, constructed, _⟩ => fits_of_construct word constructed,
    fun fits => ?_⟩
  refine ⟨_, construct_eq aligned fits, fun pos =>
    slot_eq_mask _ rfl pos, fun calls choices ⟨last, settled⟩ => ?_⟩
  have start : QueueHolds (configs port) port (roundedCapacity requested) false ([] : List τ) []
      (Ports.around { capacity := roundedCapacity requested,
                      atLeastTwo := two_le_roundedCapacity requested } tracked) := by
    refine ⟨⟨?_, rfl, by simp⟩, rfl, rfl, rfl⟩
    exact
      { ordered := le_rfl
        bounded := Nat.zero_le _
        claimedNodup := nodup_zero
        takenNodup := nodup_zero
        claimedOpen := by simp
        takenOpen := by simp
        filled := fun pos _ below => absurd below (Nat.not_lt_zero pos)
        free := fun pos _ below _ => Nat.mod_eq_of_lt (by simpa [Ports.around, Ports.ring] using below) }
  obtain ⟨fuel, answers, ports, ran, rfl, holds⟩ :=
    (Performs.session configs installed start calls last).exec (affords_of_tail settled)
  refine ⟨fuel, ports, ran, ?_, by simpa using holds.drops⟩
  exact holds.capacity ▸ holds.ring.bounded

theorem policies_refine_overflow : ∃ ring,
    LockFreeMPMCQueue.construct Nat 64 3 = some ring ∧ ∃ fuel ports,
      exec (QueueCode.bodyWith fun _ => { dropCallback := true, frameIdAccessor := some some })
        fuel (fun _ => {})
        (QueueCode.session { dropCallback := true, frameIdAccessor := some some } 0
          [.push 1, .push 2, .push 3, .push 4, .push 5, .tryPeek, .tryPop, .size])
        (Ports.around ring true) =
        some ([.pushed true, .pushed true, .pushed true, .pushed true, .pushed true,
          .found (some 2), .found (some 2), .size 3], ports) ∧
      (ports.history 0).drops.map DropEvent.frameId = [1] := by
  have rounded : roundedCapacity 3 = 4 :=
    (@roundUpPowerOf2_eq 3 (by decide)).symm.trans (by decide +kernel)
  have refines := (policies_refine
    (fun _ => { dropCallback := true, frameIdAccessor := some some } : Nat → NodeQueueConfig Nat)
    0 true rfl 64 3 le_rfl (by decide)).mpr (by rw [rounded]; decide)
  rw [rounded] at refines
  obtain ⟨ring, constructed, _, runs⟩ := refines
  obtain ⟨fuel, ports, ran, _, dropped⟩ := runs
    [.push 1, .push 2, .push 3, .push 4, .push 5, .tryPeek, .tryPop, .size] (fun _ => {})
    ⟨0, fun _ _ => rfl⟩
  exact ⟨ring, constructed, fuel, ports, ran, dropped⟩

/-- The largest request is rounded up to zero: there is no ring. -/
theorem largest_request_has_no_ring :
    roundUpPowerOf2 (2 ^ 64 - 1) = 0 ∧
      (LockFreeMPMCQueue.construct Nat 64 (2 ^ 64 - 1)).isNone = true := by
  decide +kernel

end AiPipe
