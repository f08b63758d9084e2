import AiPipe.Queue.Protocol

/-!
The ring as a bounded first-in, first-out queue.  `RingSound` ties the ring to the calls in
progress, and `Orderly` the accesses to its cells to the two positions.
-/

namespace AiPipe

open Concurrency Multiset

variable {τ : Type}

def Justified {α : Type} (justifies : List α → α → Prop) (log : List α) : Prop :=
  ∀ before entry after, log = before ++ entry :: after → justifies before entry

theorem Justified.concat {α : Type} {justifies : List α → α → Prop} {log : List α} {entry : α}
    (justified : Justified justifies log) (new : justifies log entry) :
    Justified justifies (log ++ [entry]) := by
  intro before other after same
  rcases List.eq_nil_or_concat after with rfl | ⟨after, last, rfl⟩
  · obtain ⟨rfl, alike⟩ := List.append_inj' same rfl
    rw [← List.head_eq_of_cons_eq alike]
    exact new
  · rw [List.concat_eq_append, ← List.cons_append, ← List.append_assoc] at same
    exact justified before other after (List.append_inj' same rfl).1

namespace PortFrame

def unwritten : PortFrame τ → List Nat
  | .claimed pos _ => [pos]
  | _ => []

def unpublished : PortFrame τ → List Nat
  | .claimed pos _ | .written pos _ => [pos]
  | _ => []

def unread : PortFrame τ → List Nat
  | .taken pos => [pos]
  | _ => []

def unreleased : PortFrame τ → List Nat
  | .taken pos | .emptied pos _ => [pos]
  | _ => []

def Fits (ring : LockFreeMPMCQueue τ) : PortFrame τ → Prop
  | .pushAt pos => pos ≤ ring.enqueuePos
  | .pushReady pos => pos ≤ ring.enqueuePos ∧ (pos = ring.enqueuePos → ring.tag pos = pos)
  | .popAt pos => pos ≤ ring.dequeuePos
  | .popReady pos => pos ≤ ring.dequeuePos ∧ (pos = ring.dequeuePos → ring.tag pos = pos + 1)
  | .crashed => False
  | _ => True

variable {ring : LockFreeMPMCQueue τ} {claimed taken : Multiset Nat} {frame : PortFrame τ}

theorem Fits.claim (fits : frame.Fits ring) : frame.Fits ring.claim := by
  cases frame with
  | pushAt pos => exact Nat.le_succ_of_le fits
  | pushReady pos =>
    refine ⟨Nat.le_succ_of_le fits.1, fun (same : pos = ring.enqueuePos + 1) => ?_⟩
    have below := fits.1
    omega
  | _ => exact fits

theorem Fits.take (fits : frame.Fits ring) : frame.Fits ring.take := by
  cases frame with
  | popAt pos => exact Nat.le_succ_of_le fits
  | popReady pos =>
    refine ⟨Nat.le_succ_of_le fits.1, fun (same : pos = ring.dequeuePos + 1) => ?_⟩
    have below := fits.1
    omega
  | _ => exact fits

variable {pos : Nat}

theorem Fits.publish (coherent : ring.Coherent claimed taken) (mine : pos ∈ claimed)
    (fits : frame.Fits ring) : frame.Fits (ring.publish pos) := by
  cases frame with
  | pushReady other =>
    refine ⟨fits.1, fun (same : other = ring.enqueuePos) => ?_⟩
    subst same
    exact coherent.publish_next mine (fits.2 rfl)
  | popReady other => exact ⟨fits.1, fun same => coherent.publish_full mine (fits.2 same)⟩
  | _ => exact fits

theorem Fits.release (coherent : ring.Coherent claimed taken) (mine : pos ∈ taken)
    (fits : frame.Fits ring) : frame.Fits (ring.release pos) := by
  cases frame with
  | pushReady other =>
    refine ⟨fits.1, fun (same : other = ring.enqueuePos) => ?_⟩
    subst same
    exact coherent.release_next mine (fits.2 rfl)
  | popReady other =>
    refine ⟨fits.1, fun (same : other = ring.dequeuePos) => ?_⟩
    subst same
    exact coherent.release_head mine (fits.2 rfl)
  | _ => exact fits

variable {frames : Multiset (PortFrame τ)}

theorem mem_unpublished
    (here : pos ∈ collect unwritten frames) : pos ∈ collect unpublished frames := by
  obtain ⟨frame, member, within⟩ := mem_bind.mp here
  refine mem_bind.mpr ⟨frame, member, ?_⟩
  cases frame <;> simp_all [unwritten, unpublished]

theorem mem_unreleased (here : pos ∈ collect unread frames) : pos ∈ collect unreleased frames := by
  obtain ⟨frame, member, within⟩ := mem_bind.mp here
  refine mem_bind.mpr ⟨frame, member, ?_⟩
  cases frame <;> simp_all [unread, unreleased]

end PortFrame

structure RingSound (view : QueueView τ) (frames : Multiset (PortFrame τ)) : Prop where
  coherent : view.ring.Coherent (collect PortFrame.unpublished frames)
    (collect PortFrame.unreleased frames)
  counted : view.unpublished = Multiset.card (collect PortFrame.unpublished frames)
  fits : ∀ frame ∈ frames, frame.Fits view.ring

namespace RingSound

variable {config : NodeQueueConfig τ} {port : Nat} {direct : Bool} {label : QueueLabel}
variable {view view' : QueueView τ} {others : Multiset (PortFrame τ)} {top top' : List (PortFrame τ)}
variable {pos : Nat} {item : τ}

theorem topFits (sound : RingSound view (others + top)) : ∀ frame ∈ top, frame.Fits view.ring :=
  fun frame member => sound.fits frame (mem_add.mpr (.inr member))

theorem othersFit (sound : RingSound view (others + top)) :
    ∀ frame ∈ others, frame.Fits view.ring :=
  fun frame member => sound.fits frame (mem_add.mpr (.inl member))

theorem fits_append {ring : LockFreeMPMCQueue τ} (othersFit : ∀ frame ∈ others, frame.Fits ring)
    (topFits : ∀ frame ∈ top, frame.Fits ring) :
    ∀ frame ∈ others + top, frame.Fits ring := by
  intro frame member
  rcases mem_add.mp member with other | here
  · exact othersFit frame other
  · exact topFits frame here

section

variable (sound : RingSound view (others + top))
include sound

theorem swap {data : Nat → Option τ} (ring : view'.ring = { view.ring with data := data })
    (unpublished : view'.unpublished = view.unpublished)
    (holds : top'.flatMap PortFrame.unpublished = top.flatMap PortFrame.unpublished)
    (drains : top'.flatMap PortFrame.unreleased = top.flatMap PortFrame.unreleased)
    (fits : ∀ frame ∈ top', frame.Fits view.ring) :
    RingSound view' (others + top') where
  coherent := by
    rw [collect_add, collect_add, holds, drains, ← collect_add, ← collect_add, ring]
    exact sound.coherent.congr rfl (fun _ => rfl) rfl rfl
  counted := by
    rw [collect_add, holds, ← collect_add, unpublished]
    exact sound.counted
  fits := by
    rw [ring]
    exact fits_append sound.othersFit fits

theorem claim (free : view.ring.tag view.ring.enqueuePos = view.ring.enqueuePos)
    (holds : top'.flatMap PortFrame.unpublished =
      view.ring.enqueuePos :: top.flatMap PortFrame.unpublished)
    (drains : top'.flatMap PortFrame.unreleased = top.flatMap PortFrame.unreleased)
    (fits : ∀ frame ∈ top', frame.Fits view.ring.claim) :
    RingSound view.claim (others + top') where
  coherent := by
    rw [collect_gain holds, collect_same drains]
    exact sound.coherent.claim free
  counted := by
    rw [collect_gain holds, card_cons, ← sound.counted]
    rfl
  fits := fits_append (fun frame member => (sound.othersFit frame member).claim) fits

theorem publish (holds : top.flatMap PortFrame.unpublished = pos :: top'.flatMap PortFrame.unpublished)
    (drains : top'.flatMap PortFrame.unreleased = top.flatMap PortFrame.unreleased)
    (fits : ∀ frame ∈ top', frame.Fits (view.ring.publish pos)) :
    RingSound (view.publish pos) (others + top') := by
  have coherent := sound.coherent
  have counted := sound.counted
  rw [collect_gain holds] at coherent counted
  have mine := mem_cons_self pos
    (collect PortFrame.unpublished (others + (top' : Multiset _)))
  refine ⟨?_, ?_, fits_append (fun frame member =>
    (sound.othersFit frame member).publish coherent mine) fits⟩
  · have published := coherent.publish mine
    rw [erase_cons_head, ← collect_same drains] at published
    exact published
  · rw [card_cons] at counted
    exact Nat.sub_eq_of_eq_add counted

theorem take (full : view.ring.HeadFull)
    (holds : top'.flatMap PortFrame.unpublished = top.flatMap PortFrame.unpublished)
    (drains : top'.flatMap PortFrame.unreleased =
      view.ring.dequeuePos :: top.flatMap PortFrame.unreleased)
    (fits : ∀ frame ∈ top', frame.Fits view.ring.take) :
    RingSound { view with ring := view.ring.take } (others + top') where
  coherent := by
    rw [collect_gain drains, collect_same holds]
    exact sound.coherent.take full
  counted := by
    rw [collect_same holds]
    exact sound.counted
  fits := fits_append (fun frame member => (sound.othersFit frame member).take) fits

theorem release (holds : top'.flatMap PortFrame.unpublished = top.flatMap PortFrame.unpublished)
    (drains : top.flatMap PortFrame.unreleased = pos :: top'.flatMap PortFrame.unreleased)
    (fits : ∀ frame ∈ top', frame.Fits (view.ring.release pos)) :
    RingSound { view with ring := view.ring.release pos }
      (others + top') := by
  have coherent := sound.coherent
  rw [collect_gain drains] at coherent
  have mine := mem_cons_self pos
    (collect PortFrame.unreleased (others + (top' : Multiset _)))
  refine ⟨?_, ?_, fits_append (fun frame member =>
    (sound.othersFit frame member).release coherent mine) fits⟩
  · have released := coherent.release mine
    rw [erase_cons_head, ← collect_same holds] at released
    exact released
  · rw [collect_same holds]
    exact sound.counted

end

theorem move (moved : PortMove config port label view top view' top')
    (sound : RingSound view (others + top)) :
    RingSound view' (others + top') := by
  have fits := sound.topFits
  cases moved with
  | quiet => exact sound
  | peak value => exact ⟨sound.coherent, sound.counted, sound.fits⟩
  | claim here =>
    subst here
    have free := (fits _ List.mem_cons_self).2 rfl
    exact sound.claim free rfl rfl (by simp [PortFrame.Fits])
  | publish => exact sound.publish rfl rfl (by simp [PortFrame.Fits])
  | take here =>
    subst here
    have full := (fits _ List.mem_cons_self).2 rfl
    exact sound.take full rfl rfl (by simp [PortFrame.Fits])
  | release => exact sound.release rfl rfl (by simp [PortFrame.Fits])
  | loadTail => exact sound.swap rfl rfl rfl rfl (by simp [PortFrame.Fits])
  | free free =>
    have below := fits _ List.mem_cons_self
    exact sound.swap rfl rfl rfl rfl (List.forall_mem_singleton.mpr ⟨below, fun _ => free⟩)
  | full full =>
    have below := fits _ List.mem_cons_self
    exact sound.swap rfl rfl rfl rfl (List.forall_mem_singleton.mpr ⟨below, fun _ => full⟩)
  | _ => exact sound.swap rfl rfl rfl rfl (by simp [PortFrame.Fits])

theorem ghost (shifted : PortGhost config direct top top') (sound : RingSound view (others + top)) :
    RingSound view (others + top') := by
  cases shifted <;> exact sound.swap rfl rfl rfl rfl (by simp [PortFrame.Fits])

theorem enter (sound : RingSound view others) :
    RingSound view (others + ([.ticket item] : List (PortFrame τ))) := by
  have alone : RingSound view (others + (([] : List (PortFrame τ)) : Multiset (PortFrame τ))) := by
    rw [coe_nil, add_zero]
    exact sound
  exact alone.swap rfl rfl rfl rfl (by simp [PortFrame.Fits])

theorem unused (capacity : Nat) (atLeastTwo : 2 ≤ capacity) (tracked : Bool) :
    RingSound (QueueView.unused capacity atLeastTwo tracked : QueueView τ) 0 where
  coherent :=
    { ordered := le_rfl
      bounded := Nat.zero_le _
      claimedNodup := by simp [collect]
      takenNodup := by simp [collect]
      claimedOpen := by simp [collect]
      takenOpen := by simp [collect]
      filled := fun pos _ below => absurd below (Nat.not_lt_zero pos)
      free := fun pos _ below _ => Nat.mod_eq_of_lt (by simpa [QueueView.unused] using below) }
  counted := by simp [collect, QueueView.unused]
  fits := by simp

theorem claimed_once
    (sound : RingSound view (others + (([.claimed pos item] : List (PortFrame τ)) : Multiset _))) :
    pos ∉ collect PortFrame.unwritten
      (others + (([.written pos item] : List (PortFrame τ)) : Multiset _)) := by
  have split : collect PortFrame.unpublished
      (others + (([.claimed pos item] : List (PortFrame τ)) : Multiset _)) =
      pos ::ₘ collect PortFrame.unpublished (others + (([] : List (PortFrame τ)) : Multiset _)) :=
    collect_gain rfl
  have alike : collect PortFrame.unwritten
      (others + (([.written pos item] : List (PortFrame τ)) : Multiset _)) =
      collect PortFrame.unwritten (others + (([] : List (PortFrame τ)) : Multiset _)) :=
    collect_same rfl
  have nodup := sound.coherent.claimedNodup
  rw [split, nodup_cons] at nodup
  rw [alike]
  exact fun again => nodup.1 (PortFrame.mem_unpublished again)

theorem taken_once {popped : Option τ}
    (sound : RingSound view (others + (([.taken pos] : List (PortFrame τ)) : Multiset _))) :
    pos ∉ collect PortFrame.unread
      (others + (([.emptied pos popped] : List (PortFrame τ)) : Multiset _)) := by
  have split : collect PortFrame.unreleased
      (others + (([.taken pos] : List (PortFrame τ)) : Multiset _)) =
      pos ::ₘ collect PortFrame.unreleased (others + (([] : List (PortFrame τ)) : Multiset _)) :=
    collect_gain rfl
  have alike : collect PortFrame.unread
      (others + (([.emptied pos popped] : List (PortFrame τ)) : Multiset _)) =
      collect PortFrame.unread (others + (([] : List (PortFrame τ)) : Multiset _)) :=
    collect_same rfl
  have nodup := sound.coherent.takenNodup
  rw [split, nodup_cons] at nodup
  rw [alike]
  exact fun again => nodup.1 (PortFrame.mem_unreleased again)

theorem intact {frames : Multiset (PortFrame τ)} (sound : RingSound view frames) :
    .crashed ∉ frames := fun crash => sound.fits _ crash

end RingSound

def writes (log : List (CellAccess τ)) : List Nat :=
  log.filterMap fun
    | .write pos _ => some pos
    | .read _ _ => none

def reads (log : List (CellAccess τ)) : List Nat :=
  log.filterMap fun
    | .write _ _ => none
    | .read pos _ => some pos

theorem mem_writes {log : List (CellAccess τ)} {pos : Nat} :
    pos ∈ writes log ↔ ∃ item, .write pos item ∈ log := by
  rw [writes, List.mem_filterMap]
  constructor
  · rintro ⟨made, member, same⟩
    cases made with
    | write other item =>
      obtain rfl := Option.some.inj same
      exact ⟨item, member⟩
    | read => cases same
  · rintro ⟨item, member⟩
    exact ⟨_, member, rfl⟩

/-- What must have happened before an access: a read finds what was written at its
position, and a cell is written again only after it has been read. -/
def CellAccess.Follows (capacity : Nat) (before : List (CellAccess τ)) : CellAccess τ → Prop
  | .read pos item => ∃ pushed, item = some pushed ∧ .write pos pushed ∈ before
  | .write pos _ => ∀ earlier ∈ writes before, earlier % capacity = pos % capacity →
      earlier ∈ reads before

structure Orderly (view : QueueView τ) (frames : Multiset (PortFrame τ)) : Prop where
  writesNodup : (writes view.history.log).Nodup
  readsNodup : (reads view.history.log).Nodup
  written : ∀ pos, pos ∈ writes view.history.log ↔
    pos < view.ring.enqueuePos ∧ pos ∉ collect PortFrame.unwritten frames
  readOut : ∀ pos, pos ∈ reads view.history.log ↔
    pos < view.ring.dequeuePos ∧ pos ∉ collect PortFrame.unread frames
  stored : ∀ pos item, .write pos item ∈ view.history.log → pos ∉ reads view.history.log →
    view.cell pos = some item
  justified : Justified (CellAccess.Follows view.ring.capacity) view.history.log

namespace Orderly

variable {config : NodeQueueConfig τ} {port : Nat} {direct : Bool} {label : QueueLabel}
variable {view view' : QueueView τ} {others frames : Multiset (PortFrame τ)}
variable {top top' : List (PortFrame τ)} {pos : Nat} {item : τ}

theorem swap (orderly : Orderly view (others + top))
    {sequence : Nat → Nat} (ring : view'.ring = { view.ring with sequence := sequence })
    (log : view'.history.log = view.history.log)
    (holds : top'.flatMap PortFrame.unwritten = top.flatMap PortFrame.unwritten)
    (drains : top'.flatMap PortFrame.unread = top.flatMap PortFrame.unread) :
    Orderly view' (others + top') := by
  obtain ⟨writesNodup, readsNodup, written, readOut, stored, justified⟩ := orderly
  refine ⟨?_, ?_, ?_, ?_, ?_, ?_⟩
  · rw [log]
    exact writesNodup
  · rw [log]
    exact readsNodup
  · rw [log, ring, collect_same holds]
    exact written
  · rw [log, ring, collect_same drains]
    exact readOut
  · rw [log]
    unfold QueueView.cell
    rw [ring]
    exact stored
  · rw [log, ring]
    exact justified

theorem claim (orderly : Orderly view (others + top)) (holds : top'.flatMap PortFrame.unwritten =
      view.ring.enqueuePos :: top.flatMap PortFrame.unwritten)
    (drains : top'.flatMap PortFrame.unread = top.flatMap PortFrame.unread) :
    Orderly view.claim (others + top') where
  writesNodup := orderly.writesNodup
  readsNodup := orderly.readsNodup
  written other := by
    refine (orderly.written other).trans ?_
    rw [collect_gain holds, mem_cons, not_or]
    change _ ↔ other < view.ring.enqueuePos + 1 ∧ _
    constructor
    · rintro ⟨below, unclaimed⟩
      exact ⟨by omega, by omega, unclaimed⟩
    · rintro ⟨below, different, unclaimed⟩
      exact ⟨by omega, unclaimed⟩
  readOut other := by
    rw [collect_same drains]
    exact orderly.readOut other
  stored := orderly.stored
  justified := orderly.justified

theorem take (orderly : Orderly view (others + top))
    (holds : top'.flatMap PortFrame.unwritten = top.flatMap PortFrame.unwritten)
    (drains : top'.flatMap PortFrame.unread =
      view.ring.dequeuePos :: top.flatMap PortFrame.unread) :
    Orderly { view with ring := view.ring.take } (others + top') where
  writesNodup := orderly.writesNodup
  readsNodup := orderly.readsNodup
  written other := by
    rw [collect_same holds]
    exact orderly.written other
  readOut other := by
    refine (orderly.readOut other).trans ?_
    rw [collect_gain drains, mem_cons, not_or]
    change _ ↔ other < view.ring.dequeuePos + 1 ∧ _
    constructor
    · rintro ⟨below, untaken⟩
      exact ⟨by omega, by omega, untaken⟩
    · rintro ⟨below, different, untaken⟩
      exact ⟨by omega, untaken⟩
  stored := orderly.stored
  justified := orderly.justified

theorem unread_recent (orderly : Orderly view frames) (sound : RingSound view frames)
    (unread : pos ∉ reads view.history.log) : view.ring.enqueuePos ≤ pos + view.ring.capacity := by
  by_cases taken : pos ∈ collect PortFrame.unread frames
  · exact (sound.coherent.takenOpen pos (PortFrame.mem_unreleased taken)).2.1
  · have bounded := sound.coherent.bounded
    have passed : ¬ pos < view.ring.dequeuePos := fun below =>
      unread ((orderly.readOut pos).mpr ⟨below, taken⟩)
    omega

theorem slot_ne (orderly : Orderly view frames) (sound : RingSound view frames) {other : Nat}
    (different : other ≠ pos) (claimed : pos < view.ring.enqueuePos)
    (claimed' : other < view.ring.enqueuePos) (unread : pos ∉ reads view.history.log)
    (unread' : other ∉ reads view.history.log) : view.ring.slot other ≠ view.ring.slot pos := by
  intro same
  have recent := orderly.unread_recent sound unread
  have recent' := orderly.unread_recent sound unread'
  rcases Nat.lt_or_gt_of_ne different with less | more
  · have far := view.ring.apart same less
    omega
  · have far := view.ring.apart same.symm more
    omega

theorem cell_storeData (view : QueueView τ) (pos other : Nat) (value : Option τ) :
    (view.ring.storeData pos value).data ((view.ring.storeData pos value).slot other) =
      if view.ring.slot other = view.ring.slot pos then value else view.cell other := by
  change Function.update view.ring.data (view.ring.slot pos) value (view.ring.slot other) = _
  rw [Function.update_apply]
  rfl

variable (log : List (CellAccess τ)) (made : CellAccess τ)

theorem writes_concat :
    writes (log ++ [made]) = writes log ++ writes [made] := List.filterMap_append ..

theorem reads_concat :
    reads (log ++ [made]) = reads log ++ reads [made] := List.filterMap_append ..

theorem nodup_concat {positions : List Nat} (nodup : positions.Nodup) (fresh : pos ∉ positions) :
    (positions ++ [pos]).Nodup := by
  rw [← List.concat_eq_append]
  exact nodup.concat fresh

theorem mem_concat {positions : List Nat} {pending pending' : Multiset Nat} {bound : Nat}
    (before : ∀ other, other ∈ positions ↔ other < bound ∧ other ∉ pending)
    (leaves : pending = pos ::ₘ pending') (once : pos ∉ pending') (below : pos < bound)
    (other : Nat) : other ∈ positions ++ [pos] ↔ other < bound ∧ other ∉ pending' := by
  rw [List.mem_append, List.mem_singleton, before, leaves, mem_cons, not_or]
  by_cases same : other = pos
  · subst same
    exact ⟨fun _ => ⟨below, once⟩, fun _ => .inr rfl⟩
  · simp [same]

theorem write (orderly : Orderly view (others + top)) (sound : RingSound view (others + top))
    (holds : top.flatMap PortFrame.unwritten = pos :: top'.flatMap PortFrame.unwritten)
    (drains : top'.flatMap PortFrame.unread = top.flatMap PortFrame.unread)
    (once : pos ∉ collect PortFrame.unwritten (others + (top' : Multiset _))) :
    Orderly (view.write pos item) (others + top') := by
  have leaves : collect PortFrame.unwritten (others + (top : Multiset _)) = pos ::ₘ _ :=
    collect_gain holds
  have mine := leaves ▸ mem_cons_self pos _
  obtain ⟨low, high, _⟩ := sound.coherent.claimedOpen pos (PortFrame.mem_unpublished mine)
  have fresh : pos ∉ writes view.history.log := fun again => ((orderly.written pos).mp again).2 mine
  have unread : pos ∉ reads view.history.log := fun again => by
    have below := ((orderly.readOut pos).mp again).1
    omega
  have apart : ∀ other ∈ writes view.history.log, other ∉ reads view.history.log →
      view.ring.slot other ≠ view.ring.slot pos := fun other member unread' =>
    orderly.slot_ne sound (fun same => fresh (same ▸ member)) high
      ((orderly.written other).mp member).1 unread unread'
  have same : reads (view.history.log ++ [.write pos item]) = reads view.history.log := by
    rw [reads_concat]
    exact List.append_nil _
  refine ⟨?_, ?_, ?_, ?_, ?_, ?_⟩
  · change (writes (_ ++ [_])).Nodup
    rw [writes_concat]
    exact nodup_concat orderly.writesNodup fresh
  · change (reads (_ ++ [_])).Nodup
    rw [same]
    exact orderly.readsNodup
  · change ∀ other, other ∈ writes (_ ++ [_]) ↔ _
    rw [writes_concat]
    exact mem_concat orderly.written leaves once high
  · change ∀ other, other ∈ reads (_ ++ [_]) ↔ _
    rw [same, collect_same drains]
    exact orderly.readOut
  · change ∀ other value, _ ∈ _ ++ [_] → other ∉ reads (_ ++ [_]) → _
    rw [same]
    intro other value member unread'
    refine (cell_storeData view pos other (some item)).trans ?_
    rcases List.mem_append.mp member with old | new
    · rw [if_neg (apart other (mem_writes.mpr ⟨value, old⟩) unread')]
      exact orderly.stored other value old unread'
    · obtain ⟨rfl, rfl⟩ := CellAccess.write.inj (List.mem_singleton.mp new)
      exact if_pos rfl
  · refine orderly.justified.concat fun earlier member same => ?_
    by_contra unread'
    exact apart earlier member unread' same

theorem read (orderly : Orderly view (others + top)) (sound : RingSound view (others + top))
    (holds : top'.flatMap PortFrame.unwritten = top.flatMap PortFrame.unwritten)
    (drains : top.flatMap PortFrame.unread = pos :: top'.flatMap PortFrame.unread)
    (once : pos ∉ collect PortFrame.unread (others + (top' : Multiset _))) :
    Orderly (view.read pos) (others + top') := by
  have leaves : collect PortFrame.unread (others + (top : Multiset _)) = pos ::ₘ _ :=
    collect_gain drains
  have mine := leaves ▸ mem_cons_self pos _
  obtain ⟨low, high, _⟩ := sound.coherent.takenOpen pos (PortFrame.mem_unreleased mine)
  have ordered := sound.coherent.ordered
  have unread : pos ∉ reads view.history.log := fun again => ((orderly.readOut pos).mp again).2 mine
  have written : pos ∈ writes view.history.log := by
    refine (orderly.written pos).mpr ⟨by omega, fun claimed => ?_⟩
    have open_ := (sound.coherent.claimedOpen pos (PortFrame.mem_unpublished claimed)).1
    omega
  have same : writes (view.history.log ++ [.read pos (view.cell pos)]) =
      writes view.history.log := by
    rw [writes_concat]
    exact List.append_nil _
  obtain ⟨pushed, member⟩ := mem_writes.mp written
  refine ⟨?_, ?_, ?_, ?_, ?_, ?_⟩
  · change (writes (_ ++ [_])).Nodup
    rw [same]
    exact orderly.writesNodup
  · change (reads (_ ++ [_])).Nodup
    rw [reads_concat]
    exact nodup_concat orderly.readsNodup unread
  · change ∀ other, other ∈ writes (_ ++ [_]) ↔ _
    rw [same, collect_same holds]
    exact orderly.written
  · change ∀ other, other ∈ reads (_ ++ [_]) ↔ _
    rw [reads_concat]
    exact mem_concat orderly.readOut leaves once low
  · change ∀ other value, _ ∈ _ ++ [_] → other ∉ reads (_ ++ [_]) → _
    rw [reads_concat]
    intro other value member unread'
    rw [List.mem_append, not_or] at unread'
    have old : .write other value ∈ view.history.log := by simpa using member
    have claimed := ((orderly.written other).mp (mem_writes.mpr ⟨value, old⟩)).1
    have different : other ≠ pos := fun same => unread'.2 (List.mem_singleton.mpr same)
    refine (cell_storeData view pos other none).trans ?_
    rw [if_neg (orderly.slot_ne sound different (by omega) claimed unread unread'.1)]
    exact orderly.stored other value old unread'.1
  · exact orderly.justified.concat ⟨pushed, orderly.stored pos pushed member unread, member⟩

theorem move (moved : PortMove config port label view top view' top')
    (sound : RingSound view (others + top))
    (orderly : Orderly view (others + top)) :
    Orderly view' (others + top') := by
  cases moved with
  | quiet => exact orderly
  | claim here =>
    subst here
    exact orderly.claim rfl rfl
  | take here =>
    subst here
    exact orderly.take rfl rfl
  | write => exact orderly.write sound rfl rfl sound.claimed_once
  | empty => exact orderly.read sound rfl rfl sound.taken_once
  | _ =>
    exact orderly.swap rfl rfl rfl rfl

theorem ghost (shifted : PortGhost config direct top top') (orderly : Orderly view (others + top)) :
    Orderly view (others + top') := by
  cases shifted <;> exact orderly.swap rfl rfl rfl rfl

theorem enter (orderly : Orderly view others) :
    Orderly view (others + (([.ticket item] : List (PortFrame τ)) : Multiset _)) := by
  have alone : Orderly view (others + (([] : List (PortFrame τ)) : Multiset _)) := by
    rw [coe_nil, add_zero]
    exact orderly
  exact alone.swap rfl rfl rfl rfl

theorem unused (capacity : Nat) (atLeastTwo : 2 ≤ capacity) (tracked : Bool) :
    Orderly (QueueView.unused capacity atLeastTwo tracked : QueueView τ) 0 where
  writesNodup := List.nodup_nil
  readsNodup := List.nodup_nil
  written pos := by simp [QueueView.unused, writes]
  readOut pos := by simp [QueueView.unused, reads]
  stored pos item member := by simp [QueueView.unused] at member
  justified before made after same := by simp [QueueView.unused] at same

theorem occupancy (orderly : Orderly view frames) (sound : RingSound view frames) :
    view.ring.enqueuePos ≤ (reads view.history.log).length + view.ring.capacity := by
  have older : List.range (view.ring.enqueuePos - view.ring.capacity) ⊆ reads view.history.log := by
    intro pos member
    rw [List.mem_range] at member
    by_contra unread
    have recent := orderly.unread_recent sound unread
    omega
  have fewer := (List.subperm_of_subset List.nodup_range older).length_le
  rw [List.length_range] at fewer
  omega

end Orderly

theorem PortMove.capacity {config : NodeQueueConfig τ} {port : Nat} {label : QueueLabel}
    {view view' : QueueView τ} {top top' : List (PortFrame τ)}
    (moved : PortMove config port label view top view' top') :
    view'.ring.capacity = view.ring.capacity := by
  cases moved <;> rfl

/-- Any number of threads on one ring or the queue around it.  No position is written or read
twice, what is read is what was written there before, a cell is written again only after it
has been read, and what is claimed and not read fits the capacity. -/
theorem ring_fifo (configs : Nat → NodeQueueConfig τ) {port : Nat} {capacity : Nat}
    (atLeastTwo : 2 ≤ capacity) (tracked : Bool)
    {rules : Rules (Ports τ) QueueLabel (QueueProc τ) QueueChoice}
    (callers : ∀ procedure ports, rules.starts procedure ports → Calls port true procedure)
    {config : Config (Ports τ) QueueLabel (QueueProc τ) QueueChoice (QueueAnswer τ)}
    (run : Reaches (QueueCode.bodyWith configs) rules
      ⟨Ports.unused τ capacity atLeastTwo tracked, []⟩ config) :
    let log := (config.shared.history port).log
    let ring := config.shared.ring port
    (writes log).Nodup ∧ (reads log).Nodup ∧
    (∀ before pos item after, log = before ++ .read pos item :: after →
      ∃ pushed, item = some pushed ∧ .write pos pushed ∈ before) ∧
    (∀ before pos item after, log = before ++ .write pos item :: after →
      ∀ earlier ∈ writes before, earlier % capacity = pos % capacity → earlier ∈ reads before) ∧
    ring.dequeuePos ≤ ring.enqueuePos ∧ ring.enqueuePos ≤ ring.dequeuePos + capacity ∧
    ring.enqueuePos ≤ (reads log).length + capacity := by
  obtain ⟨entries, ⟨size, sound, orderly⟩, _⟩ := port_invariant configs callers
    (fun view frames =>
      view.ring.capacity = capacity ∧ RingSound view frames ∧ Orderly view frames)
    (fun _ _ _ _ _ _ _ _ moved ⟨size, sound, orderly⟩ =>
      ⟨moved.capacity.trans size, sound.move moved, orderly.move moved sound⟩)
    (fun _ _ _ _ shifted ⟨size, sound, orderly⟩ =>
      ⟨size, sound.ghost shifted, orderly.ghost shifted⟩)
    (fun _ _ _ _ ⟨size, sound, orderly⟩ => ⟨size, sound.enter, orderly.enter⟩)
    ⟨rfl, .unused capacity atLeastTwo tracked, .unused capacity atLeastTwo tracked⟩ run
  change (config.shared.ring port).capacity = capacity at size
  have occupancy := orderly.occupancy sound
  have bounded := sound.coherent.bounded
  have justified := orderly.justified
  simp only [Ports.viewAt, size] at occupancy bounded justified
  exact ⟨orderly.writesNodup, orderly.readsNodup,
    fun before pos item after same => justified before _ after same,
    fun before pos item after same => justified before _ after same,
    sound.coherent.ordered, bounded, occupancy⟩

theorem ring_fifo_race : ∃ config,
    Reaches (QueueCode.bodyWith fun _ => {}) (callReferee true fun _ _ => true).rules
      ⟨Ports.unused Nat 2 le_rfl true, []⟩ config ∧
    (config.shared.history 0).log = [.write 1 8, .write 0 7, .read 0 (some 7)] ∧
    (writes (config.shared.history 0).log).Nodup ∧
    (config.shared.ring 0).enqueuePos ≤ (reads (config.shared.history 0).log).length + 2 := by
  obtain ⟨config, run, logged⟩ := played_reaches (QueueCode.bodyWith fun _ => {})
    (callReferee true fun _ _ => true) ⟨Ports.unused Nat 2 le_rfl true, []⟩
    ([.start (.ringPush 0 7), .start (.ringPush 0 8), .start (.ringPop 0)] ++
      portTurns 0 2 ++ portTurns 1 2 ++ portTurns 0 1 ++ portTurns 1 5 ++ portTurns 0 2 ++
      portTurns 2 5)
    (fun config => (config.shared.history 0).log = [.write 1 8, .write 0 7, .read 0 (some 7)])
    (by decide +kernel)
  obtain ⟨once, _, _, _, _, _, bounded⟩ :=
    ring_fifo (fun _ => {}) le_rfl true callReferee_starts run
  exact ⟨config, run, logged, once, bounded⟩

end AiPipe
