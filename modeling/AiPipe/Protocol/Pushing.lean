import AiPipe.Protocol.Follows

/-! The push side of the queues follows the protocol, under each of the drop policies. -/

namespace AiPipe

open Concurrency

variable {π : Type} {env : Env}

theorem PortQueue.empty_eq_false {queue : PortQueue π} : queue.empty = false ↔ 0 < queue.size := by
  simp [PortQueue.empty, Nat.pos_iff_ne_zero]

section Drops

variable (discard : Discard)

theorem follows_countDrop :
    env.Follows (Env.countDrop (π := π) discard.place) [.condemned discard]
      fun _ left => left = [.counted discard] :=
  follows_store fun _ _ => .gather .countDrop

theorem follows_invokeDropCallback :
    env.Follows (Env.invokeDropCallback (π := π) (env.dropReport discard)) [.counted discard]
      fun _ left => left = if discard.tells then [.owing discard] else [] := by
  refine follows_store fun _ _ => ?_
  split
  next tells => exact .gather (.callBackOwing tells)
  next quiet => exact .gather (.callBack (Bool.eq_false_iff.mpr quiet))

theorem follows_reportDrop :
    env.Follows (π := π) (env.reportDrop discard.node discard.frame discard.reason)
      [.owing discard] fun _ left => left = [] := by
  intro choice state throws state' made
  cases made
  refine ⟨[.owing discard], [], ?_⟩
  cases throws : choice.throws with
  | true => exact ⟨[.crashed], .refl, by simp, .gather (.tellThrows throws), .thrown []⟩
  | false => exact ⟨[], .refl, by simp, .gather .tell, .ret rfl⟩

theorem follows_recordDrop :
    env.Follows (π := π) (do
        Env.countDrop discard.place
        Env.invokeDropCallback (env.dropReport discard)) [.condemned discard]
      fun _ left => left = if discard.tells then [.owing discard] else [] :=
  .seq (follows_countDrop discard) fun _ => follows_invokeDropCallback discard

theorem follows_tellStrategy :
    env.Follows (π := π)
      (if discard.tells then env.reportDrop discard.node discard.frame discard.reason else .ret ())
      (if discard.tells then [.owing discard] else []) fun _ left => left = [] := by
  cases tells : discard.tells with
  | true => exact follows_reportDrop discard
  | false => exact .ret rfl

theorem follows_notifyDrop (node : Nat) (dropped : Taken π) (reason : String) :
    env.Follows (env.notifyDrop node dropped reason)
      [.condemned (env.evictedDiscard node ⟨node, dropped.port, dropped.position⟩ dropped.data
        reason)] fun _ left => left = [] := by
  refine .seq (follows_countDrop (env.evictedDiscard ..)) fun _ => ?_
  refine .seq (follows_invokeDropCallback (env.evictedDiscard ..)) fun _ => ?_
  exact follows_tellStrategy (env.evictedDiscard ..)

end Drops

section Push

variable {node port : Nat} {data : PortDataPtr π} {route : Route} {pressure : Pressure}

theorem follows_tryPush :
    env.Follows (env.tryPush node port data route) [.pushing node port data route pressure]
      fun accepted left => left =
        if accepted then [.eval node []] else [.pushing node port data route .full] := by
  refine follows_access fun choice state answer state' made => ?_
  split at made
  next full =>
    cases made
    exact ⟨_, Move.advance (.push (.full full)), rfl⟩
  next room =>
    cases made
    rw [view_updateQueue]
    exact ⟨_, Move.advance (.push (.enqueue (Nat.lt_of_not_le (not_or.mp room).2))), rfl⟩

theorem follows_tryPop {label : Label π} {stack : List (Frame π)}
    {post : Option (Taken π) → List (Frame π) → Prop}
    (dry : ∀ choice seen, choice.offered (seen.queue node port) = none → ∃ stack',
      env.Advance label choice seen stack seen stack' ∧ post none stack')
    (took : ∀ choice seen data, (seen.queue node port).head? = some data → ∃ stack',
      env.Advance label choice seen stack (seen.pop node port) stack' ∧
        post (some (seen.headTaken node port data)) stack') :
    env.Follows (Env.tryPop label node port) stack post := by
  refine follows_access fun choice state answer state' made => ?_
  split at made
  next none =>
    cases made
    exact dry choice (view state) none
  next data some =>
    cases made
    rw [view_updateQueue]
    exact took choice (view state) data (Choice.head?_of_offered some)

theorem follows_evictAndNotify (reason : String) (pressed : pressure ≠ .calm)
    (evicts : (env.queueConfig node).dropPolicy ≠ .dropTail) :
    env.Follows (env.evictAndNotify node port reason) [.pushing node port data route pressure]
      fun _ left => left = [.pushing node port data route pressure] := by
  have popped : env.Follows (Env.tryPop (.evict node port) node port)
      [.pushing node port data route pressure] fun taken left =>
        left = taken.elim [.pushing node port data route pressure] fun dropped =>
          [.condemned (env.evictedDiscard node ⟨node, dropped.port, dropped.position⟩ dropped.data
            reason), .pushing node port data route pressure] := by
    refine follows_tryPop (fun choice seen dry => ?_) fun choice seen head some => ?_
    · exact ⟨_, .idle, rfl⟩
    · exact ⟨_, Move.advance (.push (.evict reason pressed evicts some)), rfl⟩
  refine .seq popped fun taken => ?_
  cases taken with
  | none => exact .ret rfl
  | some dropped =>
    refine .seqFrame [.pushing node port data route pressure]
      (follows_notifyDrop node dropped reason) fun _ => ?_
    exact .ret rfl

def afterPush (node port : Nat) (data : PortDataPtr π) (route : Route) (accepted : Bool) :
    List (Frame π) :=
  if accepted then [.eval node []] else [.pushing node port data route .full]

theorem follows_spinPush (spins : Nat) :
    env.Follows (env.spinPush node port data route spins)
      [.pushing node port data route .full] fun accepted left =>
        left = afterPush node port data route accepted := by
  induction spins with
  | zero => exact .ret rfl
  | succ spins ih =>
    refine .seq follows_tryPush fun accepted => ?_
    cases accepted with
    | true => exact .ret rfl
    | false => exact ih

theorem follows_pushFallback (reason : String)
    (evicts : (env.queueConfig node).dropPolicy ≠ .dropTail) :
    env.Follows (env.pushFallback node port data route reason)
      [.pushing node port data route pressure] fun _ left => left = [.eval node []] := by
  refine .seq follows_tryPush fun accepted => ?_
  cases accepted with
  | true => exact .ret rfl
  | false =>
    refine .seq (follows_evictAndNotify reason (by simp) evicts) fun _ => ?_
    exact .invoke (.pushFallback evicts)

theorem follows_evictionRounds (rounds : Nat)
    (evicts : (env.queueConfig node).dropPolicy ≠ .dropTail) :
    env.Follows (env.evictionRounds node port data route rounds)
      [.pushing node port data route .full] fun accepted left =>
        accepted = true ∧ left = [.eval node []] := by
  induction rounds with
  | zero =>
    refine .seq (.invoke (.pushFallback evicts)) fun _ => ?_
    exact .ret ⟨rfl, rfl⟩
  | succ rounds ih =>
    refine .seq (follows_evictAndNotify _ (by simp) evicts) fun _ => ?_
    refine .seq (follows_spinPush 128) fun accepted => ?_
    cases accepted with
    | true => exact .ret ⟨rfl, rfl⟩
    | false => exact ih

theorem follows_evictToWindow {keep : Nat} (positive : 0 < keep)
    (evicts : (env.queueConfig node).dropPolicy ≠ .dropTail) :
    env.Follows (env.evictToWindow node port keep) [.pushing node port data route pressure]
      fun _ left => ∃ pressure', left = [.pushing node port data route pressure'] := by
  have measured : env.Follows (read fun state => (state.queue node port).size)
      [.pushing node port data route pressure] fun size left =>
        left = [.pushing node port data route (if keep ≤ size then .crowded else pressure)] := by
    refine follows_read fun choice state => ?_
    by_cases excess : keep ≤ (state.queue node port).size
    · have crowded : ((view state).queue node port).empty = false :=
        PortQueue.empty_eq_false.mpr (Nat.lt_of_lt_of_le positive excess)
      exact ⟨_, Move.advance (.push (.crowd crowded)), by simp only [if_pos excess]⟩
    · exact ⟨_, .idle, by simp only [if_neg excess]⟩
  refine .seq measured fun size => ?_
  by_cases excess : keep ≤ size
  · rw [if_pos excess, if_pos excess]
    refine .seq (follows_evictAndNotify _ (by simp) evicts) fun evicted => ?_
    split
    · exact .invoke (.evictToWindow positive evicts)
    · exact .ret ⟨_, rfl⟩
  · rw [if_neg excess, if_neg excess]
    exact .ret ⟨_, rfl⟩

theorem follows_pushDropHead (evicts : (env.queueConfig node).dropPolicy ≠ .dropTail) :
    env.Follows (env.pushDropHead node port data route) [.pushing node port data route pressure]
      fun accepted left => accepted = true ∧ left = [.eval node []] := by
  refine .seq follows_tryPush fun accepted => ?_
  cases accepted with
  | true => exact .ret ⟨rfl, rfl⟩
  | false => exact follows_evictionRounds 4 evicts

theorem follows_pushKeepLatest (evicts : (env.queueConfig node).dropPolicy ≠ .dropTail) :
    env.Follows (env.pushKeepLatest node port data route) [.pushing node port data route pressure]
      fun accepted left => accepted = true ∧ left = [.eval node []] := by
  have window : 0 < max (env.queueConfig node).keepLatestN 1 :=
    lt_max_of_lt_right Nat.one_pos
  refine .bind (.invoke (.evictToWindow window evicts)) fun _ stack left => ?_
  obtain ⟨pressure', rfl⟩ := left
  refine .seq follows_tryPush fun accepted => ?_
  cases accepted with
  | true => exact .ret ⟨rfl, rfl⟩
  | false =>
    refine .seq (follows_evictAndNotify _ (by simp) evicts) fun _ => ?_
    refine .seq (follows_spinPush 128) fun accepted => ?_
    cases accepted with
    | true => exact .ret ⟨rfl, rfl⟩
    | false =>
      refine .seq (.invoke (.pushFallback evicts)) fun _ => ?_
      exact .ret ⟨rfl, rfl⟩

theorem follows_push :
    env.Follows (env.push node port data route) [.pushing node port data route pressure]
      fun accepted left => left = afterPush node port data route accepted ∧
        (accepted = false → (env.queueConfig node).dropPolicy = .dropTail) := by
  have accepts : ∀ accepted (left : List (Frame π)), accepted = true ∧ left = [.eval node []] →
      left = afterPush node port data route accepted ∧
        (accepted = false → (env.queueConfig node).dropPolicy = .dropTail) := by
    rintro accepted left ⟨rfl, rfl⟩
    exact ⟨rfl, by simp⟩
  unfold Env.push
  split
  next tail => exact follows_tryPush.mono fun _ _ same => ⟨same, fun _ => tail⟩
  next head =>
    have evicts : (env.queueConfig node).dropPolicy ≠ .dropTail := by simp [head]
    exact (follows_pushDropHead evicts).mono accepts
  next latest =>
    have evicts : (env.queueConfig node).dropPolicy ≠ .dropTail := by simp [latest]
    exact (follows_pushKeepLatest evicts).mono accepts

theorem follows_recordQueueRejection (rejects : (env.queueConfig node).dropPolicy = .dropTail) :
    env.Follows (env.recordQueueRejection node) [.pushing node port data route .full]
      fun _ left => left = [] := by
  refine (silent_count _).andThen fun _ => ?_
  exact follows_ghost [] (.reject rejects) (follows_recordDrop (rejection node))

theorem follows_pushToQueue {name : String} (found : env.portIndex node name = some port) :
    env.Follows (env.pushToQueue node name data route) [.pushing node port data route pressure]
      fun accepted left => left = if accepted then [.eval node []] else [] := by
  unfold Env.pushToQueue
  rw [found]
  refine .bind follows_push fun accepted left pushed => ?_
  obtain ⟨rfl, rejects⟩ := pushed
  cases accepted with
  | true =>
    change env.Follows _ [.eval node []] _
    exact silent_emitTrace.andThen fun _ => .ret rfl
  | false => exact .seq (follows_recordQueueRejection (rejects rfl)) fun _ => .ret rfl

end Push

theorem silent_takeFrameId (streamId : Nat) : env.Silent (π := π) (env.takeFrameId streamId) := by
  refine silent_access fun choice state answer state' made => ?_
  split at made <;>
    · cases made
      rfl

theorem follows_stampIncomingFrame (data : PortDataPtr π) :
    env.Follows (env.stampIncomingFrame data) [] fun stamped left =>
      Stamps data stamped ∧ left = [] := by
  cases data with
  | none => exact .ret ⟨rfl, rfl⟩
  | some packet =>
    by_cases known : packet.hasFrameId = true
    · simp only [Env.stampIncomingFrame, known, if_true]
      exact .ret ⟨by simp [Stamps, known], rfl⟩
    · simp only [Env.stampIncomingFrame, known]
      refine (silent_takeFrameId _).andThen fun id => ?_
      refine silent_clock.andThen fun now => ?_
      have stamps : Stamps (some packet) (some { packet with
          id := id, timestamp := if packet.timestamp = 0 then now else packet.timestamp }) := by
        rw [Stamps, if_neg known]
        exact ⟨id, now, rfl⟩
      exact .ret ⟨stamps, rfl⟩

theorem silent_getQueueSize (node : Nat) (name : String) :
    env.Silent (π := π) (env.getQueueSize node name) := by
  unfold Env.getQueueSize
  split
  · exact silent_ret 0
  · exact silent_read _

end AiPipe
