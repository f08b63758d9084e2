import AiPipe.Alignment
import Mathlib.Algebra.BigOperators.Group.Finset.Basic
import Mathlib.Algebra.Order.BigOperators.Group.Finset
import Mathlib.Logic.Function.Basic

/-!
The loop of `frame_alignment.hpp` over any policy and any caller, filled in with finite queues
that nobody else touches.  `none` is a loop that has not ended within the given passes, or
arithmetic that the language leaves undefined.
-/

namespace AiPipe.FrameAlignment

open List Option

variable {π σ : Type}

abbrev Run (σ : Type) := StateT σ Option

structure Policy (π : Type) where
  dropReason : String
  aligned : List (PortDataPtr π) → Option Bool
  stale : List (PortDataPtr π) → Option (List Nat)

def exactly (policy : FramePolicy π) : Policy π where
  dropReason := policy.dropReason
  aligned heads := some (policy.aligned heads)
  stale heads := some (policy.stale heads)

structure Callbacks (σ π : Type) where
  peek : Nat → Run σ (Option (PortDataPtr π))
  pop : Nat → Run σ Bool
  drop : Nat → PortDataPtr π → String → Run σ Unit
  closed : Nat → Run σ Bool

inductive Exit where
  | delivered
  | dryPort
  | allClosed
  | popFailed
  | nothingDropped
  deriving DecidableEq, Repr

def Exit.result : Exit → Bool
  | .delivered => true
  | _ => false

def peekHeads (callbacks : Callbacks σ π) :
    List Nat → List (Bool × PortDataPtr π) → Run σ (Option (List (Bool × PortDataPtr π)))
  | [], heads => pure (some heads)
  | port :: rest, heads => do
      if ← callbacks.closed port then
        peekHeads callbacks rest (heads ++ [(true, none)])
      else
        match ← callbacks.peek port with
        | none => pure none
        | some head => peekHeads callbacks rest (heads ++ [(false, head)])

def popHeads (callbacks : Callbacks σ π) : List Nat → Run σ Bool
  | [] => pure true
  | port :: rest => do
      if ← callbacks.pop port then popHeads callbacks rest else pure false

def dropHeads (callbacks : Callbacks σ π) (heads : List (PortDataPtr π)) (reason : String) :
    List Nat → Run σ Unit
  | [] => pure ()
  | port :: rest => do
      callbacks.drop port (heads.getD port none) reason
      dropHeads callbacks heads reason rest

def gatherAligned (portCount : Nat) (policy : Policy π) (callbacks : Callbacks σ π) :
    Nat → Run σ Exit
  | 0 => failure
  | passes + 1 => do
      match ← peekHeads callbacks (List.range portCount) [] with
      | none => pure .dryPort
      | some heads =>
        let packets := heads.map Prod.snd
        if heads.all Prod.fst then pure .allClosed
        else if ← policy.aligned packets then
          let openPorts := (List.range portCount).filter fun port => !(heads.getD port (true, none)).1
          if ← popHeads callbacks openPorts then pure .delivered else pure .popFailed
        else
          match ← policy.stale packets with
          | [] => pure .nothingDropped
          | port :: rest => do
              dropHeads callbacks packets policy.dropReason (port :: rest)
              gatherAligned portCount policy callbacks passes

/-! Finite queues: a port's packets stay where they are, and a cursor passes over them. -/

inductive Removal where
  | set (inputs : List (Nat × Nat))
  | discard (port position : Nat)
  deriving DecidableEq, Repr

structure Ports where
  cursor : Nat → Nat := fun _ => 0
  inputs : List (Nat × Nat) := []
  removals : List Removal := []

namespace Ports

def pop (ports : Ports) (port : Nat) : Ports :=
  { ports with
    cursor := Function.update ports.cursor port (ports.cursor port + 1)
    inputs := ports.inputs ++ [(port, ports.cursor port)] }

def discard (ports : Ports) (port : Nat) : Ports :=
  { ports with
    cursor := Function.update ports.cursor port (ports.cursor port + 1)
    removals := ports.removals ++ [.discard port (ports.cursor port)] }

def deliver (ports : Ports) : Ports :=
  { ports with inputs := [], removals := ports.removals ++ [.set ports.inputs] }

end Ports

def queueCallbacks (queue : Nat → List (PortDataPtr π)) : Callbacks Ports π where
  peek port := do return (queue port)[(← get).cursor port]?
  pop port := do
    match (queue port)[(← get).cursor port]? with
    | none => return false
    | some _ => do
        modify (·.pop port)
        return true
  drop port _ _ := modify (·.discard port)
  closed _ := return false

def gatherAll (portCount : Nat) (policy : Policy π) (queue : Nat → List (PortDataPtr π))
    (passes : Nat) : Nat → Run Ports Exit
  | 0 => failure
  | calls + 1 => do
      let exit ← gatherAligned portCount policy (queueCallbacks queue) passes
      if exit.result then do
        modify Ports.deliver
        gatherAll portCount policy queue passes calls
      else return exit

section Passes

variable (queue : Nat → List (PortDataPtr π))

def headsAt (cursor : Nat → Nat) : List Nat → Option (List (PortDataPtr π))
  | [] => some []
  | port :: rest => (queue port)[cursor port]?.bind fun head =>
    (headsAt cursor rest).map (head :: ·)

theorem peekHeads_run (rest : List Nat) (heads : List (Bool × PortDataPtr π)) (ports : Ports) :
    (peekHeads (queueCallbacks queue) rest heads).run ports =
      some ((headsAt queue ports.cursor rest).map fun packets =>
        heads ++ packets.map (Prod.mk false), ports) := by
  induction rest generalizing heads with
  | nil =>
    rw [headsAt, map_some, map_nil, append_nil]
    rfl
  | cons port rest ih =>
    rw [headsAt]
    have step : (peekHeads (queueCallbacks queue) (port :: rest) heads).run ports =
        match (queue port)[ports.cursor port]? with
        | none => some (none, ports)
        | some head => (peekHeads (queueCallbacks queue) rest (heads ++ [(false, head)])).run ports := by
      rw [peekHeads]
      change (match (queue port)[ports.cursor port]? with
        | none => _
        | some head => _ : Run _ _).run ports = _
      cases (queue port)[ports.cursor port]? <;> rfl
    rw [step]
    cases (queue port)[ports.cursor port]? with
    | none => rfl
    | some head =>
      simp only [ih, Option.bind_some, Option.map_map]
      cases headsAt queue ports.cursor rest with
      | none => rfl
      | some packets => simp

variable {heads : List (PortDataPtr π)} {cursor : Nat → Nat} {ports : List Nat}

theorem headsAt_length
    (found : headsAt queue cursor ports = some heads) : heads.length = ports.length := by
  induction ports generalizing heads with
  | nil =>
    obtain rfl := Option.some.inj found
    rfl
  | cons port rest ih =>
    obtain ⟨head, -, others⟩ := bind_eq_some_iff.mp found
    obtain ⟨packets, later, rfl⟩ := map_eq_some_iff.mp others
    rw [length_cons, length_cons, ih later]

theorem headsAt_update {port value : Nat} (other : port ∉ ports) :
    headsAt queue (Function.update cursor port value) ports = headsAt queue cursor ports := by
  induction ports with
  | nil => rfl
  | cons first rest ih =>
    rw [mem_cons, not_or] at other
    rw [headsAt, headsAt, ih other.2, Function.update_of_ne (Ne.symm other.1)]

theorem popHeads_run {rest : List Nat} (distinct : rest.Nodup) {ports : Ports}
    (found : headsAt queue ports.cursor rest = some heads) :
    (popHeads (queueCallbacks queue) rest).run ports = some (true, rest.foldl Ports.pop ports) := by
  induction rest generalizing ports heads with
  | nil => rfl
  | cons port rest ih =>
    obtain ⟨new, distinct⟩ := nodup_cons.mp distinct
    obtain ⟨head, here, others⟩ := bind_eq_some_iff.mp found
    obtain ⟨packets, later, -⟩ := map_eq_some_iff.mp others
    have step : (popHeads (queueCallbacks queue) (port :: rest)).run ports =
        (popHeads (queueCallbacks queue) rest).run (ports.pop port) := by
      rw [popHeads]
      change ((match (queue port)[ports.cursor port]? with
        | none => _
        | some _ => _ : Run Ports Bool).run ports).bind _ = _
      rw [here]
      rfl
    have kept : headsAt queue (ports.pop port).cursor rest = some packets := by
      rw [Ports.pop, headsAt_update queue new]
      exact later
    rw [step, foldl_cons]
    exact ih distinct kept

theorem dropHeads_run (heads : List (PortDataPtr π)) (reason : String) (rest : List Nat)
    (ports : Ports) :
    (dropHeads (queueCallbacks queue) heads reason rest).run ports =
      some ((), rest.foldl Ports.discard ports) := by
  induction rest generalizing ports with
  | nil => rfl
  | cons port rest ih => exact ih (ports.discard port)

theorem gatherAligned_pass (portCount : Nat) (policy : Policy π) (passes : Nat) (ports : Ports) :
    (gatherAligned portCount policy (queueCallbacks queue) (passes + 1)).run ports =
      match headsAt queue ports.cursor (List.range portCount) with
      | none => some (.dryPort, ports)
      | some heads =>
        if portCount = 0 then some (.allClosed, ports)
        else match policy.aligned heads with
          | none => none
          | some true => some (.delivered, (List.range portCount).foldl Ports.pop ports)
          | some false => match policy.stale heads with
              | none => none
              | some [] => some (.nothingDropped, ports)
              | some (port :: rest) => (gatherAligned portCount policy (queueCallbacks queue)
                  passes).run ((port :: rest).foldl Ports.discard ports) := by
  rw [gatherAligned, StateT.run_bind, peekHeads_run]
  cases found : headsAt queue ports.cursor (List.range portCount) with
  | none => rfl
  | some heads =>
    have long := headsAt_length queue found
    rw [length_range] at long
    have snds : (heads.map (Prod.mk false)).map Prod.snd = heads := by
      rw [List.map_map]
      exact map_id heads
    have allOpen : ((List.range portCount).filter fun port =>
        !((heads.map (Prod.mk false)).getD port (true, none)).1) = List.range portCount := by
      refine filter_eq_self.mpr fun port here => ?_
      have bound := mem_range.mp here
      simp [getD_eq_getElem?_getD, long, bound]
    simp only [map_some, nil_append, bind_eq_bind, bind_some, snds, allOpen]
    by_cases none : portCount = 0
    · subst none
      obtain rfl := length_eq_zero_iff.mp long
      rfl
    · have some : (heads.map (Prod.mk false)).all Prod.fst = false := by
        obtain ⟨head, rest, rfl⟩ := exists_cons_of_length_pos (l := heads) (by omega)
        rfl
      rw [some, if_neg none, if_neg Bool.false_ne_true]
      cases policy.aligned heads with
      | none => rfl
      | some aligned =>
        cases aligned with
        | true =>
          change ((popHeads (queueCallbacks queue) (List.range portCount)).run ports).bind _ = _
          rw [popHeads_run queue nodup_range found]
          rfl
        | false =>
          cases policy.stale heads with
          | none => rfl
          | some stale =>
            cases stale with
            | nil => rfl
            | cons port rest =>
              change ((dropHeads (queueCallbacks queue) heads policy.dropReason
                (port :: rest)).run ports).bind _ = _
              rw [dropHeads_run]
              rfl

theorem headsAt_some (found : headsAt queue cursor ports = some heads) :
    ∀ port ∈ ports, cursor port < (queue port).length := by
  induction ports generalizing heads with
  | nil => exact fun _ here => absurd here not_mem_nil
  | cons first rest ih =>
    obtain ⟨head, present, others⟩ := bind_eq_some_iff.mp found
    obtain ⟨packets, later, -⟩ := map_eq_some_iff.mp others
    intro port here
    rcases mem_cons.mp here with rfl | member
    · exact (List.getElem?_eq_some_iff.mp present).1
    · exact ih later port member

def remaining (portCount : Nat) (cursor : Nat → Nat) : Nat :=
  ∑ port ∈ Finset.range portCount, ((queue port).length - cursor port)

end Passes

theorem foldl_discard {stale : List Nat} (distinct : stale.Nodup) (ports : Ports) :
    stale.foldl Ports.discard ports =
      { cursor := fun port => if port ∈ stale then ports.cursor port + 1 else ports.cursor port
        inputs := ports.inputs
        removals := ports.removals ++ stale.map fun port => .discard port (ports.cursor port) } := by
  induction stale generalizing ports with
  | nil => simp
  | cons first rest ih =>
    obtain ⟨new, distinct⟩ := nodup_cons.mp distinct
    rw [foldl_cons, ih distinct]
    simp only [Ports.discard, mem_cons, Ports.mk.injEq, true_and, map_cons,
      append_assoc, singleton_append, append_cancel_left_eq, List.cons.injEq]
    constructor
    · funext port
      by_cases same : port = first
      · subst same
        simp [new]
      · simp [same]
    · refine map_congr_left fun port here => ?_
      have apart : port ≠ first := fun same => new (same ▸ here)
      rw [Function.update_of_ne apart]

theorem foldl_pop {popped : List Nat} (distinct : popped.Nodup) (ports : Ports) :
    popped.foldl Ports.pop ports =
      { cursor := fun port => if port ∈ popped then ports.cursor port + 1 else ports.cursor port
        inputs := ports.inputs ++ popped.map fun port => (port, ports.cursor port)
        removals := ports.removals } := by
  induction popped generalizing ports with
  | nil => simp
  | cons first rest ih =>
    obtain ⟨new, distinct⟩ := nodup_cons.mp distinct
    rw [foldl_cons, ih distinct]
    simp only [Ports.pop, mem_cons, Ports.mk.injEq, and_true, map_cons,
      append_assoc, singleton_append, append_cancel_left_eq, List.cons.injEq,
      true_and]
    constructor
    · funext port
      by_cases same : port = first
      · subst same
        simp [new]
      · simp [same]
    · refine map_congr_left fun port here => ?_
      have apart : port ≠ first := fun same => new (same ▸ here)
      rw [Function.update_of_ne apart]

structure Moves (policy : Policy π) (heads : List (PortDataPtr π)) : Prop where
  decides : ∃ answer, policy.aligned heads = some answer
  names : policy.aligned heads = some false → ∃ stale, policy.stale heads = some stale ∧
    stale ≠ [] ∧ stale.Nodup ∧ ∀ port ∈ stale, port < heads.length

variable {queue : Nat → List (PortDataPtr π)}

theorem remaining_discard {portCount : Nat}
    {stale : List Nat} {ports : Ports} {heads : List (PortDataPtr π)} (distinct : stale.Nodup)
    (named : stale ≠ []) (inside : ∀ port ∈ stale, port < portCount)
    (found : headsAt queue ports.cursor (List.range portCount) = some heads) :
    remaining queue portCount (stale.foldl Ports.discard ports).cursor <
      remaining queue portCount ports.cursor := by
  rw [foldl_discard distinct]
  apply Finset.sum_lt_sum
  · intro port _
    dsimp only
    split <;> omega
  · obtain ⟨port, here⟩ := exists_mem_of_ne_nil stale named
    refine ⟨port, Finset.mem_range.mpr (inside port here), ?_⟩
    have available := headsAt_some queue found port (mem_range.mpr (inside port here))
    simp only [here, ↓reduceIte]
    omega

/-- With a policy that moves on, the loop makes at most one pass more than packets are queued,
and returns neither by the defensive exit nor because a pop fails. -/
theorem gatherAligned_returns {portCount : Nat} {policy : Policy π}
    (moves : ∀ cursor heads, headsAt queue cursor (List.range portCount) = some heads →
      Moves policy heads) :
    ∀ passes ports, remaining queue portCount ports.cursor < passes →
      ∃ exit after, (gatherAligned portCount policy (queueCallbacks queue) passes).run ports =
        some (exit, after) ∧ exit ≠ .nothingDropped ∧ exit ≠ .popFailed := by
  intro passes
  induction passes with
  | zero => intro ports few; exact absurd few (Nat.not_lt_zero _)
  | succ passes ih =>
    intro ports few
    rw [gatherAligned_pass]
    cases found : headsAt queue ports.cursor (List.range portCount) with
    | none => exact ⟨_, _, rfl, by decide, by decide⟩
    | some heads =>
      dsimp only
      by_cases none : portCount = 0
      · rw [if_pos none]
        exact ⟨_, _, rfl, by decide, by decide⟩
      rw [if_neg none]
      obtain ⟨⟨answer, decided⟩, names⟩ := moves _ _ found
      rw [decided] at names ⊢
      cases answer with
      | true => exact ⟨_, _, rfl, by decide, by decide⟩
      | false =>
        obtain ⟨stale, answer, named, distinct, inside⟩ := names rfl
        rw [answer]
        cases stale with
        | nil => exact absurd rfl named
        | cons port rest =>
          rw [headsAt_length queue found, length_range] at inside
          have fewer := remaining_discard distinct named inside found
          exact ih _ (by omega)

end AiPipe.FrameAlignment
