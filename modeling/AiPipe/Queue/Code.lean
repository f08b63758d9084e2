import AiPipe.Concurrency.Threads
import AiPipe.Queue.Ring
import AiPipe.Types

/-!
The programs on the ring and of `LockFreeNodeQueue`, one step for each atomic load,
compare-exchange and store, and a consumer that asks for emptiness and pops as it likes.
-/

namespace AiPipe

open Concurrency

structure LockFreeQueueStatistics where
  totalPushed : Nat := 0
  totalPopped : Nat := 0
  totalDropped : Nat := 0
  totalRejected : Nat := 0
  peakSize : Nat := 0
  deriving DecidableEq, Repr

/-- Without the time and the stream, which no program here looks at. -/
structure DropEvent where
  frameId : Nat
  nodeName : String
  portName : String
  reason : String
  queueSizeBefore : Nat
  queueSizeAfter : Nat
  totalDrops : Nat
  deriving DecidableEq, Repr

structure NodeQueueConfig (τ : Type) where
  dropPolicy : LockFreeDropPolicy := .dropHead
  keepLatestN : Nat := 1
  nodeName : String := ""
  portName : String := ""
  dropCallback : Bool := false
  frameIdAccessor : Option (τ → Option Nat) := none

def NodeQueueConfig.frameIdOf {τ : Type} (config : NodeQueueConfig τ) (item : Option τ) : Nat :=
  (config.frameIdAccessor.bind fun accessor => item.bind accessor).getD kInvalidFrameId

def NodeQueueConfig.targetKeep {τ : Type} (config : NodeQueueConfig τ) : Nat :=
  if 0 < config.keepLatestN then config.keepLatestN else 1

theorem NodeQueueConfig.targetKeep_pos {τ : Type} (config : NodeQueueConfig τ) :
    0 < config.targetKeep := by
  unfold NodeQueueConfig.targetKeep
  split <;> omega

theorem NodeQueueConfig.targetKeep_eq {τ : Type} (config : NodeQueueConfig τ) :
    config.targetKeep = max config.keepLatestN 1 := by
  unfold NodeQueueConfig.targetKeep
  split <;> omega

structure LockFreeNodeQueue (τ : Type) where
  ring : LockFreeMPMCQueue τ
  trackStatistics : Bool := true
  stats : LockFreeQueueStatistics := {}
  headMutex : Bool := false

inductive CellAccess (τ : Type) where
  | write (pos : Nat) (item : τ)
  | read (pos : Nat) (item : Option τ)
  deriving DecidableEq

/-- History of one queue: the accesses to its cells, the calls of `push` begun, in flight, crowded
by another one and returned, and the calls of the drop callback. -/
structure QueueHistory (τ : Type) where
  log : List (CellAccess τ) := []
  begun : Nat := 0
  inFlight : Nat := 0
  crowded : Bool := false
  returned : List (τ × Bool) := []
  drops : List DropEvent := []

/-- The queues of a node, and history: the producers between their compare-exchange and their
publishing store, the ports that the consumer has seen a packet on, whether a pop of such a
port came back empty, and the restarts of pops that no spurious failure explains. -/
structure Ports (τ : Type) where
  queue : Nat → LockFreeNodeQueue τ
  history : Nat → QueueHistory τ := fun _ => {}
  unpublished : Nat → Nat := fun _ => 0
  observed : Nat → Bool := fun _ => false
  refused : Bool := false
  restarts : Nat := 0

inductive QueueLabel where
  | internal
  /-- The load of `m_enqueuePos` by the consumer's `empty()`. -/
  | observe (port : Nat)
  /-- A call of `push` begins. -/
  | begin (port : Nat)
  /-- The load of a cell's sequence by `evictOne`. -/
  | evict (port : Nat)

inductive Request where
  | look (port : Nat)
  | pop (port : Nat)

/-- A weak compare-exchange may fail for no reason; the consumer does what it likes. -/
structure QueueChoice where
  spurious : Bool := false
  request : Request := .look 0

inductive QueueProc (τ : Type) where
  | push (port : Nat) (item : τ)
  | claimSlot (port : Nat) (item : τ) (pos : Nat)
  | takeSlot (port pos : Nat)
  | raisePeak (port current peak : Nat)
  | consume
  | evictSlot (port pos : Nat)
  | pushFallback (port : Nat) (item : τ) (reason : String)
  | evictToWindow (port currentSize : Nat)
  /-- Calls from outside: of `LockFreeNodeQueue::push` and `tryPop`, and of the ring's own
  `tryPush` and `tryPop`. -/
  | pushCall (port : Nat) (item : τ)
  | popCall (port : Nat)
  | ringPush (port : Nat) (item : τ)
  | ringPop (port : Nat)

inductive QueueAnswer (τ : Type) where
  | done
  | flag (value : Bool)
  | popped (found : Bool) (item : Option τ)

abbrev QueueCode (τ : Type) :=
  Prog (Ports τ) QueueLabel (QueueProc τ) QueueChoice (QueueAnswer τ)

variable {τ : Type}

namespace Ports

def ring (ports : Ports τ) (port : Nat) : LockFreeMPMCQueue τ := (ports.queue port).ring

def setRing (ports : Ports τ) (port : Nat) (ring : LockFreeMPMCQueue τ) : Ports τ :=
  { ports with queue := Function.update ports.queue port { ports.queue port with ring := ring } }

theorem ring_setRing_self (ports : Ports τ) (port : Nat) (ring : LockFreeMPMCQueue τ) :
    (ports.setRing port ring).ring port = ring := by
  simp [setRing, Ports.ring]

def updateStats (ports : Ports τ) (port : Nat)
    (change : LockFreeQueueStatistics → LockFreeQueueStatistics) : Ports τ :=
  { ports with
    queue := Function.update ports.queue port
      { ports.queue port with stats := change (ports.queue port).stats } }

def claim (ports : Ports τ) (port : Nat) : Ports τ :=
  { ports.setRing port (ports.ring port).claim with
    unpublished := Function.update ports.unpublished port (ports.unpublished port + 1) }

def publish (ports : Ports τ) (port pos : Nat) : Ports τ :=
  { ports.setRing port ((ports.ring port).publish pos) with
    unpublished := Function.update ports.unpublished port (ports.unpublished port - 1) }

def observe (ports : Ports τ) (port : Nat) (seen : Bool) : Ports τ :=
  { ports with observed := Function.update ports.observed port seen }

def updateHistory (ports : Ports τ) (port : Nat) (change : QueueHistory τ → QueueHistory τ) :
    Ports τ :=
  { ports with history := Function.update ports.history port (change (ports.history port)) }

def access (ports : Ports τ) (port : Nat) (made : CellAccess τ) : Ports τ :=
  ports.updateHistory port fun history => { history with log := history.log ++ [made] }

def writeCell (ports : Ports τ) (port pos : Nat) (item : τ) : Ports τ :=
  (ports.setRing port ((ports.ring port).storeData pos (some item))).access port (.write pos item)

def cell (ports : Ports τ) (port pos : Nat) : Option τ :=
  (ports.ring port).data ((ports.ring port).slot pos)

/-- `item = std::move(cell->data)` leaves nothing in the cell. -/
def readCell (ports : Ports τ) (port pos : Nat) : Ports τ :=
  (ports.setRing port ((ports.ring port).storeData pos none)).access port
    (.read pos (ports.cell port pos))

def setHeadMutex (ports : Ports τ) (port : Nat) (held : Bool) : Ports τ :=
  { ports with queue := Function.update ports.queue port { ports.queue port with headMutex := held } }

end Ports

namespace QueueCode

def loadAs {β : Type} (label : QueueLabel) (field : Ports τ → β) : QueueCode τ β :=
  .act label (fun _ ports => some (field ports, ports)) .ret

def load {β : Type} (field : Ports τ → β) : QueueCode τ β := loadAs .internal field

def store (change : Ports τ → Ports τ) : QueueCode τ Unit :=
  .act .internal (fun _ ports => some ((), change ports)) .ret

/-- `m_enqueuePos.compare_exchange_weak(pos, pos + 1)`: nothing on success, the position
that stands there on failure. -/
def claimEnqueue (port pos : Nat) : QueueCode τ (Option Nat) :=
  .act .internal (fun choice ports =>
    if !choice.spurious && (ports.ring port).enqueuePos == pos then
      some (none, ports.claim port)
    else some (some (ports.ring port).enqueuePos, ports)) .ret

def claimDequeue (port pos : Nat) : QueueCode τ (Option Nat) :=
  .act .internal (fun choice ports =>
    if (ports.ring port).dequeuePos = pos then
      if choice.spurious then some (some pos, ports)
      else some (none, ports.setRing port (ports.ring port).take)
    else some (some (ports.ring port).dequeuePos, { ports with restarts := ports.restarts + 1 }))
    .ret

def claimSlot (port : Nat) (item : τ) (pos : Nat) : QueueCode τ (QueueAnswer τ) := do
  let sequence ← load fun ports => (ports.ring port).tag pos
  if sequence = pos then do
    match ← claimEnqueue port pos with
    | none => do
        store fun ports => ports.writeCell port pos item
        store fun ports => ports.publish port pos
        .ret (.flag true)
    | some current => Prog.invoke (.claimSlot port item current)
  else if sequence < pos then .ret (.flag false)
  else do
    let current ← load fun ports => (ports.ring port).enqueuePos
    Prog.invoke (.claimSlot port item current)

def tryPush (port : Nat) (item : τ) : QueueCode τ Bool := do
  let pos ← load fun ports => (ports.ring port).enqueuePos
  match ← Prog.invoke (.claimSlot port item pos) with
  | .flag pushed => .ret pushed
  | _ => .ret false

/-- The loop of `tryPop`; `again` is how it starts over. -/
def takeSlotAs (label : QueueLabel) (again : Nat → QueueProc τ) (port pos : Nat) :
    QueueCode τ (QueueAnswer τ) := do
  let sequence ← loadAs label fun ports => (ports.ring port).tag pos
  if sequence = pos + 1 then do
    match ← claimDequeue port pos with
    | none => do
        let item ← .act .internal (fun _ ports =>
          some (ports.cell port pos, ports.readCell port pos)) .ret
        store fun ports => ports.setRing port ((ports.ring port).release pos)
        .ret (.popped true item)
    | some current => Prog.invoke (again current)
  else if sequence < pos + 1 then .ret (.popped false none)
  else do
    let current ← .act .internal (fun _ ports =>
      some ((ports.ring port).dequeuePos, { ports with restarts := ports.restarts + 1 })) .ret
    Prog.invoke (again current)

def takeSlot (port pos : Nat) : QueueCode τ (QueueAnswer τ) :=
  takeSlotAs .internal (.takeSlot port) port pos

def evictSlot (port pos : Nat) : QueueCode τ (QueueAnswer τ) :=
  takeSlotAs (.evict port) (.evictSlot port) port pos

def countStats (port : Nat) (change : LockFreeQueueStatistics → LockFreeQueueStatistics) :
    QueueCode τ Unit := do
  if ← load fun ports => (ports.queue port).trackStatistics then
    store fun ports => ports.updateStats port change
  else .ret ()

/-- `LockFreeNodeQueue::tryPop`: whether a packet was popped, and the packet. -/
def tryPop (port : Nat) : QueueCode τ (Bool × Option τ) := do
  let pos ← load fun ports => (ports.ring port).dequeuePos
  match ← Prog.invoke (.takeSlot port pos) with
  | .popped true item => do
      countStats port fun stats => { stats with totalPopped := stats.totalPopped + 1 }
      .ret (true, item)
  | _ => .ret (false, none)

def size (label : QueueLabel) (port : Nat) : QueueCode τ Nat := do
  let enqueued ← loadAs label fun ports => (ports.ring port).enqueuePos
  let dequeued ← load fun ports => (ports.ring port).dequeuePos
  .ret (if dequeued ≤ enqueued then enqueued - dequeued else 0)

def empty (label : QueueLabel) (port : Nat) : QueueCode τ Bool := do
  let size ← size label port
  .ret (size == 0)

def raisePeak (port current peak : Nat) : QueueCode τ (QueueAnswer τ) :=
  if peak < current then do
    let standing ← .act .internal (fun choice ports =>
      let standing := (ports.queue port).stats.peakSize
      if !choice.spurious && standing == peak then
        some (none, ports.updateStats port fun stats => { stats with peakSize := current })
      else some (some standing, ports)) .ret
    match standing with
    | none => .ret .done
    | some standing => Prog.invoke (.raisePeak port current standing)
  else .ret .done

def updatePeakSize (port : Nat) : QueueCode τ Unit := do
  if ← load fun ports => (ports.queue port).trackStatistics then do
    let current ← size .internal port
    let peak ← load fun ports => (ports.queue port).stats.peakSize
    let _ ← Prog.invoke (.raisePeak port current peak)
    .ret ()
  else .ret ()

def pushDropTail (port : Nat) (item : τ) : QueueCode τ Bool := do
  if ← tryPush port item then do
    updatePeakSize port
    countStats port fun stats => { stats with totalPushed := stats.totalPushed + 1 }
    .ret true
  else do
    countStats port fun stats => { stats with totalRejected := stats.totalRejected + 1 }
    .ret false

def lockHead (port : Nat) : QueueCode τ Unit :=
  .act .internal (fun _ ports =>
    if (ports.queue port).headMutex then none else some ((), ports.setHeadMutex port true)) .ret

def unlockHead (port : Nat) : QueueCode τ Unit := store fun ports => ports.setHeadMutex port false

def tryPopRing (port : Nat) : QueueCode τ (Bool × Option τ) := do
  let pos ← load fun ports => (ports.ring port).dequeuePos
  match ← Prog.invoke (.takeSlot port pos) with
  | .popped true item => .ret (true, item)
  | _ => .ret (false, none)

def evictOne (port : Nat) : QueueCode τ (Bool × Option τ) := do
  lockHead port
  let pos ← load fun ports => (ports.ring port).dequeuePos
  let answer ← Prog.invoke (.evictSlot port pos)
  unlockHead port
  match answer with
  | .popped true item => .ret (true, item)
  | _ => .ret (false, none)

/-- `LockFreeNodeQueue::tryPeek` over that of the ring: whether there is a head, and it. -/
def tryPeek (port : Nat) : QueueCode τ (Bool × Option τ) := do
  lockHead port
  let pos ← load fun ports => (ports.ring port).dequeuePos
  let sequence ← load fun ports => (ports.ring port).tag pos
  if sequence = pos + 1 then do
    let item ← load fun ports => ports.cell port pos
    unlockHead port
    .ret (true, item)
  else do
    unlockHead port
    .ret (false, none)

def notifyDrop (config : NodeQueueConfig τ) (port : Nat) (dropped : Option τ) (reason : String)
    (sizeBefore : Nat) : QueueCode τ Unit :=
  if config.dropCallback then do
    let sizeAfter ← size .internal port
    let total ← load fun ports => (ports.queue port).stats.totalDropped
    store fun ports => ports.updateHistory port fun history =>
      { history with
        drops := history.drops ++
          [{ frameId := config.frameIdOf dropped
             nodeName := config.nodeName
             portName := config.portName
             reason := reason
             queueSizeBefore := sizeBefore
             queueSizeAfter := sizeAfter
             totalDrops := total }] }
  else .ret ()

def evictAndNotify (config : NodeQueueConfig τ) (port : Nat) (reason : String)
    (sizeBefore : Nat) : QueueCode τ Bool := do
  let (found, dropped) ← evictOne port
  if found then do
    countStats port fun stats => { stats with totalDropped := stats.totalDropped + 1 }
    notifyDrop config port dropped reason sizeBefore
    .ret true
  else .ret false

def recordPush (port : Nat) : QueueCode τ Unit := do
  updatePeakSize port
  countStats port fun stats => { stats with totalPushed := stats.totalPushed + 1 }

def spinPush (port : Nat) (item : τ) : Nat → QueueCode τ Bool
  | 0 => .ret false
  | spins + 1 => do
      if ← tryPush port item then .ret true else spinPush port item spins

def pushFallback (config : NodeQueueConfig τ) (port : Nat) (item : τ) (reason : String) :
    QueueCode τ (QueueAnswer τ) := do
  if ← tryPush port item then .ret .done
  else do
    let sizeBefore ← size .internal port
    let _ ← evictAndNotify config port reason sizeBefore
    Prog.invoke (.pushFallback port item reason)

def evictionRounds (config : NodeQueueConfig τ) (port : Nat) (item : τ) : Nat → QueueCode τ Bool
  | 0 => .ret false
  | rounds + 1 => do
      let sizeBefore ← size .internal port
      let _ ← evictAndNotify config port "DropHead overflow" sizeBefore
      if ← spinPush port item 128 then .ret true else evictionRounds config port item rounds

def pushDropHead (config : NodeQueueConfig τ) (port : Nat) (item : τ) : QueueCode τ Bool := do
  if ← tryPush port item then do
    recordPush port
    .ret true
  else if ← evictionRounds config port item 4 then do
    recordPush port
    .ret true
  else do
    let _ ← Prog.invoke (.pushFallback port item "DropHead overflow (fallback)")
    recordPush port
    .ret true

def evictToWindow (config : NodeQueueConfig τ) (port currentSize : Nat) :
    QueueCode τ (QueueAnswer τ) :=
  if config.targetKeep ≤ currentSize then do
    if ← evictAndNotify config port "KeepLatest overflow" currentSize then do
      let currentSize ← size .internal port
      Prog.invoke (.evictToWindow port currentSize)
    else .ret .done
  else .ret .done

def pushKeepLatest (config : NodeQueueConfig τ) (port : Nat) (item : τ) : QueueCode τ Bool := do
  let currentSize ← size .internal port
  let _ ← Prog.invoke (.evictToWindow port currentSize)
  if ← tryPush port item then do
    recordPush port
    .ret true
  else do
    let sizeBefore ← size .internal port
    let _ ← evictAndNotify config port "KeepLatest force overflow" sizeBefore
    if ← spinPush port item 128 then do
      recordPush port
      .ret true
    else do
      let _ ← Prog.invoke (.pushFallback port item "KeepLatest overflow (fallback)")
      recordPush port
      .ret true

def push (config : NodeQueueConfig τ) (port : Nat) (item : τ) : QueueCode τ Bool :=
  match config.dropPolicy with
  | .dropTail => pushDropTail port item
  | .dropHead => pushDropHead config port item
  | .keepLatest => pushKeepLatest config port item

def pushCall (config : NodeQueueConfig τ) (port : Nat) (item : τ) :
    QueueCode τ (QueueAnswer τ) := do
  .act (.begin port) (fun _ ports =>
    some ((), ports.updateHistory port fun history =>
      { history with
        begun := history.begun + 1
        inFlight := history.inFlight + 1
        crowded := 0 < history.inFlight })) .ret
  let pushed ← push config port item
  store fun ports => ports.updateHistory port fun history =>
    { history with
      inFlight := history.inFlight - 1
      returned := history.returned ++ [(item, pushed)] }
  .ret (.flag pushed)

/-- The consumer takes note of what `empty()` told it, and of a pop that came back empty
although the last answer was that the queue is not. -/
def consume : QueueCode τ (QueueAnswer τ) := do
  let request ← .act .internal (fun choice ports => some (choice.request, ports)) .ret
  match request with
  | .look port => do
      let nothing ← empty (.observe port) port
      store fun ports => ports.observe port (!nothing)
  | .pop port => do
      let expected ← .act .internal (fun _ ports =>
        some (ports.observed port, ports.observe port false)) .ret
      let (found, _) ← tryPop port
      store fun ports => { ports with refused := ports.refused || (expected && !found) }
  Prog.invoke .consume

def bodyWith (config : Nat → NodeQueueConfig τ) : QueueProc τ → QueueCode τ (QueueAnswer τ)
  | .push port item => do
      let pushed ← push (config port) port item
      .ret (.flag pushed)
  | .claimSlot port item pos => claimSlot port item pos
  | .takeSlot port pos => takeSlot port pos
  | .raisePeak port current peak => raisePeak port current peak
  | .consume => consume
  | .evictSlot port pos => evictSlot port pos
  | .pushFallback port item reason => pushFallback (config port) port item reason
  | .evictToWindow port currentSize => evictToWindow (config port) port currentSize
  | .pushCall port item => pushCall (config port) port item
  | .popCall port => do
      let (found, item) ← tryPop port
      .ret (.popped found item)
  | .ringPush port item => do
      let pushed ← tryPush port item
      .ret (.flag pushed)
  | .ringPop port => do
      let (found, item) ← tryPopRing port
      .ret (.popped found item)

end QueueCode

end AiPipe
