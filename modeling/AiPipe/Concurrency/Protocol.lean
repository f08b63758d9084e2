import AiPipe.Concurrency.Threads

/-!
Protocols.  What a thread is in the middle of is a stack of frames, and a protocol says how
each access may change the shared state and the top of the stack.  `Conforms` relates one
program to a protocol.
-/

namespace Concurrency

open List

variable {σ γ ι κ χ ρ φ : Type}

/-- A `move` is one access, a `ghost` rewrites frames without any access, a `fork` splits off the
stack of a new thread, and an `entry` is the stack of a procedure that the environment starts.
A thread with an `urgent` frame on top does nothing else before it has dealt with it. -/
structure Protocol (γ ι κ χ φ : Type) where
  move : ι → χ → γ → List φ → γ → List φ → Prop
  ghost : List φ → List φ → Prop
  fork : κ → List φ → List φ → List φ → Prop
  entry : κ → List φ → Prop
  crashed : φ
  urgent : φ → Bool := fun _ => false

namespace Protocol

/-- No urgent frame lies on top. -/
class Free (protocol : Protocol γ ι κ χ φ) (stack : List φ) : Prop where
  calm : ∀ frame ∈ stack.head?, protocol.urgent frame = false

def Shift (protocol : Protocol γ ι κ χ φ) : List φ → List φ → Prop :=
  Relation.ReflTransGen fun stack stack' =>
    ∃ top top' tail, protocol.ghost top top' ∧ stack = top ++ tail ∧ stack' = top' ++ tail

variable {protocol : Protocol γ ι κ χ φ}

instance Free.nil : protocol.Free [] := ⟨by simp⟩

theorem Free.cons {frame : φ} {stack : List φ} (calm : protocol.urgent frame = false) :
    protocol.Free (frame :: stack) := ⟨by simpa using calm⟩

instance Free.cons_append {frame : φ} {stack tail : List φ}
    [above : protocol.Free (frame :: stack)] : protocol.Free (frame :: stack ++ tail) :=
  .cons (above.calm frame rfl)

instance Free.append {stack tail : List φ} [above : protocol.Free stack]
    [below : protocol.Free tail] : protocol.Free (stack ++ tail) := by
  cases stack with
  | nil => exact below
  | cons frame rest => exact .cons_append

instance Free.ite {test : Prop} [Decidable test] {stack stack' : List φ}
    [yes : protocol.Free stack] [no : protocol.Free stack'] :
    protocol.Free (if test then stack else stack') := by
  split
  · exact yes
  · exact no

theorem Shift.refl {stack : List φ} :
    protocol.Shift stack stack := Relation.ReflTransGen.refl

theorem Shift.trans {first second third : List φ}
    (before : protocol.Shift first second) (after : protocol.Shift second third) :
    protocol.Shift first third := Relation.ReflTransGen.trans before after

theorem Shift.ghost {top top' : List φ} (tail : List φ)
    (rewritten : protocol.ghost top top') : protocol.Shift (top ++ tail) (top' ++ tail) :=
  Relation.ReflTransGen.single ⟨top, top', tail, rewritten, rfl, rfl⟩

theorem Shift.append {stack stack' : List φ}
    (shifted : protocol.Shift stack stack') (tail : List φ) :
    protocol.Shift (stack ++ tail) (stack' ++ tail) := by
  induction shifted with
  | refl => exact .refl
  | tail _ last ih =>
    obtain ⟨top, top', rest, rewritten, rfl, rfl⟩ := last
    refine ih.trans ?_
    rw [append_assoc, append_assoc]
    exact Shift.ghost _ rewritten

end Protocol

/-- What a procedure does to the stack it is called with: its answers and the stacks that
it may leave. -/
abbrev Contract (κ ρ φ : Type) := κ → List φ → (ρ → List φ → Prop) → Prop

section Conforms

variable (protocol : Protocol γ ι κ χ φ) (view : σ → γ) (contract : Contract κ ρ φ)

/-- A program that starts with a stack follows the protocol, and leaves a stack that
satisfies `post`; when it throws, the top of the stack is `crashed`. -/
def Conforms {α : Type} : Prog σ ι κ χ ρ α → List φ → (α → List φ → Prop) → Prop
  | .ret value, stack, post => ∃ stack', protocol.Shift stack stack' ∧ post value stack'
  | .throw, stack, _ => ∃ rest, protocol.Shift stack (protocol.crashed :: rest)
  | .act label effect next, stack, post =>
    ∀ choice state answer state', effect choice state = some (answer, state') →
      ∃ top tail top', protocol.Shift stack (top ++ tail) ∧ (top = [] → protocol.Free tail) ∧
        protocol.move label choice (view state) top (view state') top' ∧
        Conforms (next answer) (top' ++ tail) post
  | .call procedure next, stack, post =>
    ∃ top tail leaves, protocol.Shift stack (top ++ tail) ∧ protocol.Free tail ∧
      contract procedure top leaves ∧
      (∀ answer top', leaves answer top' → Conforms (next (some answer)) (top' ++ tail) post) ∧
      ∀ rest, Conforms (next none) (protocol.crashed :: rest ++ tail) post
  | .spawn procedure next, stack, post =>
    ∃ top tail top' child leaves, protocol.Shift stack (top ++ tail) ∧
      protocol.fork procedure top top' child ∧ contract procedure child leaves ∧
      (∀ answer stack', leaves answer stack' → stack' = []) ∧
      Conforms next (top' ++ tail) post

variable {protocol view contract}

namespace Conforms

variable {α β δ : Type} {post : α → List φ → Prop} {program : Prog σ ι κ χ ρ α}

theorem shift {stack stack' : List φ} (shifted : protocol.Shift stack stack')
    (conforms : Conforms protocol view contract program stack' post) :
    Conforms protocol view contract program stack post := by
  cases program with
  | ret value =>
    obtain ⟨last, later, holds⟩ := conforms
    exact ⟨last, shifted.trans later, holds⟩
  | throw =>
    obtain ⟨rest, later⟩ := conforms
    exact ⟨rest, shifted.trans later⟩
  | act label effect next =>
    intro choice state answer state' made
    obtain ⟨top, tail, top', later, rest⟩ := conforms choice state answer state' made
    exact ⟨top, tail, top', shifted.trans later, rest⟩
  | call procedure next =>
    obtain ⟨top, tail, leaves, later, rest⟩ := conforms
    exact ⟨top, tail, leaves, shifted.trans later, rest⟩
  | spawn procedure next =>
    obtain ⟨top, tail, top', child, leaves, later, rest⟩ := conforms
    exact ⟨top, tail, top', child, leaves, shifted.trans later, rest⟩

theorem ghost {top top' tail : List φ} (rewritten : protocol.ghost top top')
    (conforms : Conforms protocol view contract program (top' ++ tail) post) :
    Conforms protocol view contract program (top ++ tail) post :=
  conforms.shift (.ghost tail rewritten)

variable {stack : List φ}

theorem ret {value : α} (holds : post value stack) :
    Conforms protocol view contract (.ret value) stack post :=
  ⟨stack, .refl, holds⟩

theorem mono {post post' : α → List φ → Prop}
    (conforms : Conforms protocol view contract program stack post)
    (weaker : ∀ value stack', post value stack' → post' value stack') :
    Conforms protocol view contract program stack post' := by
  induction program generalizing stack with
  | ret value =>
    obtain ⟨last, later, holds⟩ := conforms
    exact ⟨last, later, weaker _ _ holds⟩
  | throw => exact conforms
  | act label effect next ih =>
    intro choice state answer state' made
    obtain ⟨top, tail, top', later, free, moved, rest⟩ :=
      conforms choice state answer state' made
    exact ⟨top, tail, top', later, free, moved, ih answer rest⟩
  | call procedure next ih =>
    obtain ⟨top, tail, leaves, later, free, called, normal, thrown⟩ := conforms
    exact ⟨top, tail, leaves, later, free, called,
      fun answer top' left => ih (some answer) (normal answer top' left),
      fun rest => ih none (thrown rest)⟩
  | spawn procedure next ih =>
    obtain ⟨top, tail, top', child, leaves, later, forked, called, ends, rest⟩ := conforms
    exact ⟨top, tail, top', child, leaves, later, forked, called, ends, ih rest⟩

variable {first : Prog σ ι κ χ ρ α} {middle : α → List φ → Prop} (tail : List φ)

theorem onExit {next : Option α → Prog σ ι κ χ ρ β} {post : β → List φ → Prop}
    (conforms : Conforms protocol view contract first stack middle)
    (normal : ∀ value stack', middle value stack' →
      Conforms protocol view contract (next (some value)) (stack' ++ tail) post)
    (thrown : ∀ rest,
      Conforms protocol view contract (next none) (protocol.crashed :: rest ++ tail) post)
    [free : protocol.Free tail] :
    Conforms protocol view contract (first.onExit next) (stack ++ tail) post := by
  induction first generalizing stack with
  | ret value =>
    obtain ⟨last, later, holds⟩ := conforms
    exact (normal value last holds).shift (later.append tail)
  | throw =>
    obtain ⟨rest, later⟩ := conforms
    exact (thrown rest).shift (later.append tail)
  | act label effect rest ih =>
    intro choice state answer state' made
    obtain ⟨top, inner, top', later, above, moved, continued⟩ :=
      conforms choice state answer state' made
    refine ⟨top, inner ++ tail, top', ?_, fun bare => have := above bare; inferInstance, moved, ?_⟩
    · rw [← append_assoc]
      exact later.append tail
    · rw [← append_assoc]
      exact ih answer continued
  | call procedure rest ih =>
    obtain ⟨top, inner, leaves, later, above, called, returns, throws⟩ := conforms
    refine ⟨top, inner ++ tail, leaves, ?_, inferInstance, called, ?_, ?_⟩
    · rw [← append_assoc]
      exact later.append tail
    · intro answer top' left
      rw [← append_assoc]
      exact ih (some answer) (returns answer top' left)
    · intro crash
      rw [← append_assoc]
      exact ih none (throws crash)
  | spawn procedure rest ih =>
    obtain ⟨top, inner, top', child, leaves, later, forked, called, ends, continued⟩ := conforms
    refine ⟨top, inner ++ tail, top', child, leaves, ?_, forked, called, ends, ?_⟩
    · rw [← append_assoc]
      exact later.append tail
    · rw [← append_assoc]
      exact ih continued

theorem thrown (rest : List φ) :
    Conforms protocol view contract (.throw : Prog σ ι κ χ ρ α) (protocol.crashed :: rest) post :=
  ⟨rest, .refl⟩

variable {next : α → Prog σ ι κ χ ρ β}

theorem bindFrame {post : β → List φ → Prop}
    (conforms : Conforms protocol view contract first stack middle)
    (normal : ∀ value stack', middle value stack' →
      Conforms protocol view contract (next value) (stack' ++ tail) post)
    [free : protocol.Free tail] :
    Conforms protocol view contract (first >>= next) (stack ++ tail) post :=
  conforms.onExit tail normal fun rest => thrown (rest ++ tail)

theorem bind {post : β → List φ → Prop}
    (conforms : Conforms protocol view contract first stack middle)
    (normal : ∀ value stack', middle value stack' →
      Conforms protocol view contract (next value) stack' post) :
    Conforms protocol view contract (first >>= next) stack post := by
  rw [← append_nil stack]
  refine conforms.bindFrame [] fun value stack' left => ?_
  rw [append_nil]
  exact normal value stack' left

variable {leaves : α → List φ}

theorem seqFrame {post : β → List φ → Prop}
    (conforms : Conforms protocol view contract first stack fun value left => left = leaves value)
    (normal : ∀ value,
      Conforms protocol view contract (next value) (leaves value ++ tail) post)
    [free : protocol.Free tail] :
    Conforms protocol view contract (first >>= next) (stack ++ tail) post := by
  refine conforms.bindFrame tail fun value stack' left => ?_
  rw [left]
  exact normal value

theorem seq {post : β → List φ → Prop}
    (conforms : Conforms protocol view contract first stack fun value left => left = leaves value)
    (normal : ∀ value, Conforms protocol view contract (next value) (leaves value) post) :
    Conforms protocol view contract (first >>= next) stack post := by
  refine conforms.bind fun value stack' left => ?_
  rw [left]
  exact normal value

theorem via (leaves : α → List φ) {post : β → List φ → Prop}
    (conforms : Conforms protocol view contract first stack fun value left => left = leaves value)
    (normal : ∀ value, Conforms protocol view contract (next value) (leaves value) post) :
    Conforms protocol view contract (first >>= next) stack post :=
  conforms.seq normal

theorem above (conforms : Conforms protocol view contract program stack
      fun value left => left = leaves value)
    [free : protocol.Free tail] :
    Conforms protocol view contract program (stack ++ tail)
      fun value left => left = leaves value ++ tail := by
  rw [← Prog.bind_ret program]
  exact conforms.seqFrame tail fun value => .ret rfl

theorem invoke {procedure : κ} {top : List φ} {leaves : ρ → List φ → Prop}
    (called : contract procedure top leaves) :
    Conforms protocol view contract (Prog.invoke procedure : Prog σ ι κ χ ρ ρ) top leaves := by
  refine ⟨top, [], leaves, ?_, .nil, called, fun answer top' left => ?_, fun rest => ?_⟩
  · rw [append_nil]
    exact .refl
  · rw [append_nil]
    exact .ret left
  · exact thrown (rest ++ [])

variable {next : β → Prog σ ι κ χ ρ α} {label : ι} (top tail : List φ)
  (free : top = [] → protocol.Free tail)
include free

theorem act {effect : χ → σ → Option (β × σ)}
    (moved : ∀ choice state answer state', effect choice state = some (answer, state') →
      ∃ top', protocol.move label choice (view state) top (view state') top' ∧
        Conforms protocol view contract (next answer) (top' ++ tail) post) :
    Conforms protocol view contract ((.act label effect .ret : Prog σ ι κ χ ρ β) >>= next)
      (top ++ tail) post := by
  intro choice state answer state' made
  obtain ⟨top', move, rest⟩ := moved choice state answer state' made
  exact ⟨top, tail, top', .refl, free, move, rest⟩

theorem store {change : σ → σ} {next : Unit → Prog σ ι κ χ ρ α} {top' : List φ}
    (moved : ∀ choice state,
      protocol.move label choice (view state) top (view (change state)) top')
    (rest : Conforms protocol view contract (next ()) (top' ++ tail) post) :
    Conforms protocol view contract
      ((.act label (fun _ state => some ((), change state)) .ret : Prog σ ι κ χ ρ Unit) >>= next)
      (top ++ tail) post := by
  refine act top tail free fun choice state answer state' made => ?_
  cases made
  exact ⟨top', moved choice state, rest⟩

omit free

theorem forEach {body : δ → Prog σ ι κ χ ρ Unit} {items : List δ}
    (holds : List δ → List φ → Prop) (before : holds items stack)
    (each : ∀ item rest stack', item ∈ items → holds (item :: rest) stack' →
      Conforms protocol view contract (body item) stack' fun _ => holds rest) :
    Conforms protocol view contract (Prog.forEach body items) stack fun _ => holds [] := by
  induction items generalizing stack with
  | nil => exact .ret before
  | cons item rest ih =>
    refine (each item rest stack (mem_cons_self ..) before).bind fun _ stack' left => ?_
    exact ih left fun next later stack'' member => each next later stack'' (.tail _ member)

end Conforms

end Conforms

end Concurrency
