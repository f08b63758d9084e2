import AiPipe.Ownership

/-!
The engine lock.  One thread at a time holds `m_engineMutex`, and only its holder makes the
stores of a reset, which it makes in one fixed order.
-/

namespace AiPipe

open Concurrency Multiset

variable {π : Type} {env : Env}

def Frame.locks : Frame π → List Lock
  | .engineLock lock => [lock]
  | _ => []

inductive LockStep : Bool → List Lock → Bool → List Lock → Prop
  | quiet {locked locks} : LockStep locked locks locked locks
  | acquire {lock} : LockStep false [] true [lock]
  | release {locked lock} : LockStep locked [lock] false []
  | turn {locked lock lock'} : LockStep locked [lock] locked [lock']

theorem LockStep.counted {locked locked' : Bool} {locks locks' : List Lock}
    (stepped : LockStep locked locks locked' locks') (others : Multiset Lock)
    (before : (others + (locks : Multiset Lock)).card = locked.toNat) :
    (others + (locks' : Multiset Lock)).card = locked'.toNat := by
  cases stepped with
  | quiet => exact before
  | acquire | turn => simpa using before
  | release =>
    have bound := locked.toNat_le
    simp only [card_add, coe_card, List.length_singleton, List.length_nil,
      Bool.toNat_false] at before ⊢
    omega

section Steps

variable {label : Label π} {choice : Choice π} {seen seen' : View π}
  {top top' : List (Frame π)}

theorem Move.locks (moved : Move env label choice seen top seen' top') (sound : .crashed ∉ top) :
    LockStep seen.locked (top.flatMap Frame.locks) seen'.locked (top'.flatMap Frame.locks) := by
  cases moved with
  | control moved =>
    cases moved
    case lock free =>
      rw [free]
      exact .acquire
    case unlock => exact .release
    case unlockCrashed => simp at sound
    case wipe life target rest => cases target <;> exact .turn
    case run | report | stream | unstop | beginStop | unstream => exact .quiet
    case sawDown | sawUp | setUp | setupFails | beginTeardown | tear | torn => exact .turn
    all_goals exact .quiet
  | process moved =>
    cases moved
    case restoreFailed quit => cases quit <;> exact .quiet
    case fail quit => cases quit <;> exact .quiet
    all_goals exact .quiet
  | _ moved => cases moved <;> exact .quiet

theorem Ghost.locks (rewritten : Ghost env top top') (sound : .crashed ∉ top) (locked : Bool) :
    LockStep locked (top.flatMap Frame.locks) locked (top'.flatMap Frame.locks) := by
  cases rewritten
  case unwind => simp at sound
  case beginSetup | allUp | beginWipe | wiped | beginClear | cleared => exact .turn
  all_goals exact .quiet

def Locked (seen : View π) (frames : Multiset (Frame π)) : Prop :=
  (collect Frame.locks frames).card = seen.locked.toNat

variable {others : Multiset (Frame π)}

theorem Locked.step {rules : EngineRules π} {state state' : State π} (sound : .crashed ∉ top)
    (rewritten : Rewrites env.protocol view rules state top state' top')
    (before : Locked (view state) (others + top)) :
    Locked (view state') (others + top') := by
  unfold Locked at before ⊢
  rw [collect_add] at before ⊢
  cases rewritten with
  | move allowed moved => exact (Move.locks moved sound).counted _ before
  | ghost shifted => exact (Ghost.locks shifted sound _).counted _ before
  | fork forked => cases forked <;> exact before
  | start allowed entered => cases entered; exact before

theorem Locked.alone {lock : Lock} (locked : Locked seen (others + top))
    (here : top.flatMap Frame.locks = [lock]) : collect Frame.locks others = 0 := by
  have bound := seen.locked.toNat_le
  unfold Locked at locked
  rw [collect_add, here, card_add, coe_card, List.length_singleton] at locked
  exact card_eq_zero.mp (by omega)

end Steps

end AiPipe
