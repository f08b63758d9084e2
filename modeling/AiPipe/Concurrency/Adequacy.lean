import AiPipe.Concurrency.Protocol
import Mathlib.Algebra.Order.BigOperators.Group.Multiset
import Mathlib.Algebra.Order.Group.Multiset
import Mathlib.Algebra.Order.Group.Nat
import Mathlib.Data.Multiset.Bind
import Mathlib.Data.Multiset.Pairwise
import Mathlib.Data.List.Forall2
import Mathlib.Tactic.Abel

/-!
Adequacy.  Every run of threads whose procedures conform to a protocol is matched by a run of
the protocol over a soup of stacks, which gives invariant rules for all frames together and
for single stacks.
-/

namespace Concurrency

open Multiset

variable {σ γ ι κ χ ρ φ : Type}

structure Soup (σ κ φ : Type) where
  shared : σ
  entries : List (κ × List φ)

def allFrames (entries : List (κ × List φ)) : Multiset φ := (entries.flatMap Prod.snd : List φ)

def collect {β : Type} (part : φ → List β) (frames : Multiset φ) : Multiset β :=
  frames.bind fun frame => (part frame : Multiset β)

variable {β : Type} (part : φ → List β)

theorem collect_add (others : Multiset φ) (top : List φ) :
    collect part (others + top) = collect part others + (top.flatMap part : List β) := by
  rw [collect, add_bind, coe_bind, collect]

theorem coe_concat (items : List β) (item : β) :
    ((items ++ [item] : List β) : Multiset β) = item ::ₘ items :=
  coe_eq_coe.mpr (List.perm_append_singleton ..)

variable {part : φ → List β} {others : Multiset φ} {top top' : List φ}

theorem collect_same (same : top'.flatMap part = top.flatMap part) :
    collect part (others + top') = collect part (others + top) := by
  rw [collect_add, collect_add, same]

theorem collect_gain {item : β} (gained : top'.flatMap part = item :: top.flatMap part) :
    collect part (others + top') = item ::ₘ collect part (others + top) := by
  rw [collect_add, collect_add, gained, ← cons_coe, add_cons]

variable {top : List φ}

theorem collect_none (none : top.flatMap part = []) :
    collect part (others + top) = collect part others := by
  rw [collect_add, none, coe_nil, add_zero]

theorem collect_one {item : β} (one : top.flatMap part = [item]) :
    collect part (others + top) = item ::ₘ collect part others := by
  rw [collect_add, one, coe_singleton, add_comm, singleton_add]

theorem collect_mono {part part' : φ → List β}
    (less : ∀ frame, (part frame).Sublist (part' frame)) (frames : Multiset φ) :
    collect part frames ≤ collect part' frames := by
  induction frames using Multiset.induction_on with
  | empty => exact le_refl _
  | cons frame frames ih =>
    rw [collect, collect, cons_bind, cons_bind]
    exact add_le_add (coe_le.mpr (less frame).subperm) ih

variable {frames : Multiset φ}

theorem collect_unique
    (nodup : (collect part frames).Nodup) {first second : φ} (one : first ∈ frames)
    (other : second ∈ frames) {item : β} (here : item ∈ part first) (there : item ∈ part second) :
    first = second := by
  by_contra differ
  have symmetric : Std.Symm (Function.onFun Disjoint fun frame => (part frame : Multiset β)) :=
    ⟨fun _ _ apart => Disjoint.symm apart⟩
  have disjoint := (nodup_bind.mp nodup).2.forall one other differ
  exact disjoint_left.mp disjoint here there

def total (weight : φ → Nat) (frames : Multiset φ) : Nat := (frames.map weight).sum

theorem total_add (weight : φ → Nat) (others : Multiset φ) (top : List φ) :
    total weight (others + top) = total weight others + (top.map weight).sum := by
  simp [total]

theorem total_eq_zero {weight : φ → Nat}
    (none : ∀ frame ∈ frames, weight frame = 0) : total weight frames = 0 := by
  refine sum_eq_zero fun value member => ?_
  obtain ⟨frame, here, rfl⟩ := mem_map.mp member
  exact none frame here

theorem total_same {weight : φ → Nat} (same : (top'.map weight).sum = (top.map weight).sum) :
    total weight (others + top') = total weight (others + top) := by
  rw [total_add, total_add, same]

theorem card_collect (frames : Multiset φ) :
    Multiset.card (collect part frames) = total (fun frame => (part frame).length) frames := by
  rw [collect, total, card_bind]
  rfl

theorem total_sum (first second : φ → Nat) (frames : Multiset φ) :
    total (fun frame => first frame + second frame) frames =
      total first frames + total second frames :=
  sum_map_add ..

theorem total_mono {first second : φ → Nat} (less : ∀ frame, first frame ≤ second frame)
    (frames : Multiset φ) : total first frames ≤ total second frames :=
  sum_map_le_sum_map _ _ fun frame _ => less frame

theorem collect_cons (frame : φ) (frames : List φ) :
    collect part ((frame :: frames : List φ) : Multiset φ) =
      (part frame : Multiset β) + collect part frames := by
  rw [collect, ← cons_coe, cons_bind, collect]

theorem collect_skip {frame : φ} (none : part frame = []) (frames : List φ) :
    collect part ((frame :: frames : List φ) : Multiset φ) = collect part frames := by
  rw [collect_cons, none, coe_nil, zero_add]

theorem collect_flatten (groups : List (List φ)) :
    collect part (groups.flatten : Multiset φ) =
      (groups.map fun group : List φ => collect part (group : Multiset φ)).sum := by
  induction groups with
  | nil => rfl
  | cons first rest ih =>
    rw [List.map_cons, List.sum_cons, ← ih, List.flatten_cons, ← coe_add]
    exact add_bind ..

theorem collect_eq_nil
    (none : collect part frames = 0) {frame : φ} (here : frame ∈ frames) : part frame = [] := by
  refine List.eq_nil_iff_forall_not_mem.mpr fun item member => ?_
  have present : item ∈ collect part frames := mem_bind.mpr ⟨frame, here, member⟩
  simp [none] at present

theorem all_of_mem_add {good : φ → Bool}
    (all : ∀ frame ∈ others + top, good frame = true) : top.all good = true :=
  List.all_eq_true.mpr fun frame here => all frame (mem_add.mpr (.inr here))

theorem mem_add_of_all {good : φ → Bool} (all : ∀ frame ∈ others + top, good frame = true)
    (after : top'.all good = true) : ∀ frame ∈ others + top', good frame = true := by
  intro frame member
  rcases mem_add.mp member with other | new
  · exact all frame (mem_add.mpr (.inl other))
  · exact List.all_eq_true.mp after frame new

section Steps

variable (protocol : Protocol γ ι κ χ φ) (view : σ → γ) (rules : Rules σ ι κ χ)

inductive SoupStep : Soup σ κ φ → Soup σ κ φ → Prop
  | move {before after : List (κ × List φ)} {name : κ} {top top' tail : List φ} {label : ι}
      {choice : χ} {state state' : σ} :
      rules.allows label choice state → (top = [] → protocol.Free tail) →
      protocol.move label choice (view state) top (view state') top' →
      SoupStep ⟨state, before ++ (name, top ++ tail) :: after⟩
        ⟨state', before ++ (name, top' ++ tail) :: after⟩
  | ghost {before after : List (κ × List φ)} {name : κ} {top top' tail : List φ} {state : σ} :
      protocol.ghost top top' →
      SoupStep ⟨state, before ++ (name, top ++ tail) :: after⟩
        ⟨state, before ++ (name, top' ++ tail) :: after⟩
  | fork {before after : List (κ × List φ)} {name procedure : κ} {top top' child tail : List φ}
      {state : σ} :
      protocol.fork procedure top top' child →
      SoupStep ⟨state, before ++ (name, top ++ tail) :: after⟩
        ⟨state, before ++ (name, top' ++ tail) :: after ++ [(procedure, child)]⟩
  | start {entries : List (κ × List φ)} {procedure : κ} {stack : List φ} {state : σ} :
      rules.starts procedure state → protocol.entry procedure stack →
      SoupStep ⟨state, entries⟩ ⟨state, entries ++ [(procedure, stack)]⟩

def SoupReaches : Soup σ κ φ → Soup σ κ φ → Prop :=
  Relation.ReflTransGen (SoupStep protocol view rules)

inductive Rewrites : σ → List φ → σ → List φ → Prop
  | move {top top' : List φ} {label : ι} {choice : χ} {state state' : σ} :
      rules.allows label choice state →
      protocol.move label choice (view state) top (view state') top' →
      Rewrites state top state' top'
  | ghost {top top' : List φ} {state : σ} :
      protocol.ghost top top' → Rewrites state top state top'
  | fork {procedure : κ} {top top' child : List φ} {state : σ} :
      protocol.fork procedure top top' child → Rewrites state top state (top' ++ child)
  | start {procedure : κ} {stack : List φ} {state : σ} :
      rules.starts procedure state → protocol.entry procedure stack →
      Rewrites state [] state stack

end Steps

section Invariants

variable {protocol : Protocol γ ι κ χ φ} {view : σ → γ} {rules : Rules σ ι κ χ}

theorem allFrames_append (first second : List (κ × List φ)) :
    allFrames (first ++ second) = allFrames first + allFrames second := by
  simp [allFrames]

theorem allFrames_cons (name : κ) (stack : List φ) (rest : List (κ × List φ)) :
    allFrames ((name, stack) :: rest) = (stack : Multiset φ) + allFrames rest := by
  simp [allFrames]

theorem allFrames_zip (before after : List (κ × List φ)) (name : κ) (top tail : List φ) :
    allFrames (before ++ (name, top ++ tail) :: after) =
      allFrames before + (tail + allFrames after) + top := by
  rw [allFrames_append, allFrames_cons, ← coe_add]
  abel

/-- A property of frames that holds of every part of a stack below some frame, and of two
collections together when it holds of each. -/
structure Additive (fact : Multiset φ → Prop) : Prop where
  none : fact 0
  add : ∀ first second, fact first → fact second → fact (first + second)

variable {fact : Multiset φ → Prop}

theorem Additive.allFrames (additive : Additive fact)
    {entries : List (κ × List φ)} (each : ∀ entry ∈ entries, fact entry.2) :
    fact (Concurrency.allFrames entries) := by
  induction entries with
  | nil => exact additive.none
  | cons entry rest ih =>
    rw [List.forall_mem_cons] at each
    rw [allFrames_cons]
    exact additive.add _ _ each.1 (ih each.2)

variable {soup soup' : Soup σ κ φ}

theorem SoupStep.rewrites (step : SoupStep protocol view rules soup soup')
    (additive : Additive fact)
    (parts : ∀ entry ∈ soup.entries, ∀ top tail, entry.2 = top ++ tail → fact tail) :
    ∃ (others : Multiset φ) (top top' : List φ), fact others ∧
      allFrames soup.entries = others + top ∧ allFrames soup'.entries = others + top' ∧
      Rewrites protocol view rules soup.shared top soup'.shared top' := by
  have around {before after : List (κ × List φ)} {name : κ} {top tail : List φ}
      (parts : ∀ entry ∈ before ++ (name, top ++ tail) :: after, ∀ top tail,
        entry.2 = top ++ tail → fact tail) :
      fact (allFrames before + (tail + allFrames after)) := by
    simp only [List.forall_mem_append, List.forall_mem_cons] at parts
    refine additive.add _ _ (additive.allFrames fun entry member => ?_)
      (additive.add _ _ (parts.2.1 top tail rfl) (additive.allFrames fun entry member => ?_))
    · exact parts.1 entry member [] entry.2 rfl
    · exact parts.2.2 entry member [] entry.2 rfl
  cases step with
  | @move before after name top top' tail label choice state state' allowed free moved =>
    exact ⟨allFrames before + (tail + allFrames after), top, top', around parts,
      allFrames_zip .., allFrames_zip .., .move allowed moved⟩
  | @ghost before after name top top' tail state rewritten =>
    exact ⟨allFrames before + (tail + allFrames after), top, top', around parts,
      allFrames_zip .., allFrames_zip .., .ghost rewritten⟩
  | @fork before after name procedure top top' child tail state forked =>
    refine ⟨allFrames before + (tail + allFrames after), top, top' ++ child, around parts,
      allFrames_zip .., ?_, .fork forked⟩
    rw [allFrames_append, allFrames_zip, allFrames_cons, ← coe_add]
    simp only [allFrames, List.flatMap_nil, coe_nil, add_zero, add_assoc]
  | @start entries procedure stack state allowed entered =>
    refine ⟨allFrames entries, [], stack, ?_, by simp, ?_, .start allowed entered⟩
    · exact additive.allFrames fun entry member => parts entry member [] entry.2 rfl
    · rw [allFrames_append, allFrames_cons]
      simp [allFrames]

/-- An invariant of the shared state together with all frames.  A step may use what is
known of the frames that it does not touch. -/
theorem SoupReaches.invariant (additive : Additive fact) {holds : σ → Multiset φ → Prop}
    (step : ∀ state state' (others : Multiset φ) (top top' : List φ), fact others →
      fact (others + top) → Rewrites protocol view rules state top state' top' →
      holds state (others + top) → holds state' (others + top'))
    (run : SoupReaches protocol view rules soup soup')
    (parts : ∀ middle, SoupReaches protocol view rules soup middle →
      ∀ entry ∈ middle.entries, ∀ top tail, entry.2 = top ++ tail → fact tail)
    (initial : holds soup.shared (allFrames soup.entries)) :
    holds soup'.shared (allFrames soup'.entries) := by
  induction run with
  | refl => exact initial
  | tail before last ih =>
    obtain ⟨others, top, top', known, here, after, rewritten⟩ :=
      last.rewrites additive (parts _ before)
    have whole := additive.allFrames fun entry member => parts _ before entry member [] entry.2 rfl
    rw [after]
    rw [here] at ih whole
    exact step _ _ others top top' known whole rewritten ih

theorem SoupReaches.shape (shape : κ → List φ → Prop)
    (moves : ∀ name label choice state state' top top' tail, (top = [] → protocol.Free tail) →
      protocol.move label choice (view state) top (view state') top' →
      shape name (top ++ tail) → shape name (top' ++ tail))
    (ghosts : ∀ name top top' tail, protocol.ghost top top' →
      shape name (top ++ tail) → shape name (top' ++ tail))
    (forks : ∀ name procedure top top' child tail, protocol.fork procedure top top' child →
      shape name (top ++ tail) → shape name (top' ++ tail) ∧ shape procedure child)
    (entries : ∀ procedure stack, protocol.entry procedure stack → shape procedure stack)
    (run : SoupReaches protocol view rules soup soup')
    (initial : ∀ entry ∈ soup.entries, shape entry.1 entry.2) :
    ∀ entry ∈ soup'.entries, shape entry.1 entry.2 := by
  induction run with
  | refl => exact initial
  | tail _ last ih =>
    cases last with
    | move allowed free moved =>
      simp only [List.forall_mem_append, List.forall_mem_cons] at ih ⊢
      exact ⟨ih.1, moves _ _ _ _ _ _ _ _ free moved ih.2.1, ih.2.2⟩
    | ghost rewritten =>
      simp only [List.forall_mem_append, List.forall_mem_cons] at ih ⊢
      exact ⟨ih.1, ghosts _ _ _ _ rewritten ih.2.1, ih.2.2⟩
    | fork forked =>
      simp only [List.forall_mem_append, List.forall_mem_cons] at ih ⊢
      have kept := forks _ _ _ _ _ _ forked ih.2.1
      exact ⟨⟨ih.1, kept.1, ih.2.2⟩, kept.2, by simp⟩
    | start allowed entered =>
      simp only [List.forall_mem_append, List.forall_mem_cons]
      exact ⟨ih, entries _ _ entered, by simp⟩

end Invariants

section Adequacy

variable (protocol : Protocol γ ι κ χ φ) (view : σ → γ) (contract : Contract κ ρ φ)
variable (body : κ → Prog σ ι κ χ ρ ρ) (rules : Rules σ ι κ χ)

def Ended (stack : List φ) : Prop := stack = [] ∨ ∃ rest, stack = protocol.crashed :: rest

def Matches (thread : Thread σ ι κ χ ρ) (entry : κ × List φ) : Prop :=
  thread.procedure = entry.1 ∧
    Conforms protocol view contract thread.program entry.2 fun _ => Ended protocol

/-- The procedures keep their contracts, and those that the environment may start begin
with an entry stack and leave nothing behind. -/
structure Verified : Prop where
  keeps : ∀ procedure top leaves, contract procedure top leaves →
    Conforms protocol view contract (body procedure) top leaves
  starts : ∀ procedure state, rules.starts procedure state →
    ∃ stack leaves, protocol.entry procedure stack ∧ contract procedure stack leaves ∧
      ∀ answer stack', leaves answer stack' → stack' = []

variable {protocol view contract body rules}

theorem Verified.thread_matches (verified : Verified protocol view contract body rules)
    {procedure : κ} {stack : List φ} {leaves : ρ → List φ → Prop}
    (called : contract procedure stack leaves)
    (ends : ∀ answer stack', leaves answer stack' → stack' = []) :
    Matches protocol view contract (thread body procedure) (procedure, stack) := by
  refine ⟨rfl, ?_⟩
  have conforms := verified.keeps procedure stack leaves called
  rw [← List.append_nil stack]
  refine conforms.onExit [] (fun answer stack' left => ?_) fun rest => ?_
  · obtain rfl := ends answer stack' left
    exact .ret (.inl rfl)
  · exact .ret (.inr ⟨rest ++ [], rfl⟩)

theorem shift_reaches {top top' : List φ} (shifted : protocol.Shift top top') (state : σ)
    (before after : List (κ × List φ)) (name : κ) :
    SoupReaches protocol view rules ⟨state, before ++ (name, top) :: after⟩
      ⟨state, before ++ (name, top') :: after⟩ := by
  induction shifted with
  | refl => exact Relation.ReflTransGen.refl
  | tail _ last ih =>
    obtain ⟨first, first', rest, rewritten, rfl, rfl⟩ := last
    exact ih.tail (.ghost rewritten)

variable {α β : Type*} {before after : List α} {related : α → β → Prop}

theorem forall₂_split {item : α}
    {images : List β} (all : List.Forall₂ related (before ++ item :: after) images) :
    ∃ before' image after', images = before' ++ image :: after' ∧
      List.Forall₂ related before before' ∧ related item image ∧
      List.Forall₂ related after after' := by
  induction before generalizing images with
  | nil =>
    obtain ⟨image, after', here, later, rfl⟩ := List.forall₂_cons_left_iff.mp all
    exact ⟨[], image, after', rfl, .nil, here, later⟩
  | cons first before ih =>
    obtain ⟨image, rest, here, later, rfl⟩ := List.forall₂_cons_left_iff.mp all
    obtain ⟨before', image', after', rfl, matched, middle, last⟩ := ih later
    exact ⟨image :: before', image', after', rfl, .cons here matched, middle, last⟩

theorem forall₂_preimage {items : List α} {images : List β}
    (all : List.Forall₂ related items images) {image : β} (member : image ∈ images) :
    ∃ item ∈ items, related item image := by
  induction all with
  | nil => simp at member
  | cons here _ ih =>
    rcases List.mem_cons.mp member with rfl | later
    · exact ⟨_, List.mem_cons_self .., here⟩
    · obtain ⟨item, found, same⟩ := ih later
      exact ⟨item, .tail _ found, same⟩

theorem forall₂_join {item : α}
    {before' after' : List β} {image : β} (first : List.Forall₂ related before before')
    (middle : related item image) (last : List.Forall₂ related after after') :
    List.Forall₂ related (before ++ item :: after) (before' ++ image :: after') :=
  List.rel_append first (.cons middle last)

section

variable (verified : Verified protocol view contract body rules)
include verified

theorem Verified.step {config config' : Config σ ι κ χ ρ} (step : Step body rules config config')
    {entries : List (κ × List φ)}
    (matched : List.Forall₂ (Matches protocol view contract) config.threads entries) :
    ∃ entries', SoupReaches protocol view rules ⟨config.shared, entries⟩
        ⟨config'.shared, entries'⟩ ∧
      List.Forall₂ (Matches protocol view contract) config'.threads entries' := by
  cases step with
  | @act before after name β label effect next choice state state' answer allowed made =>
    obtain ⟨before', ⟨name', stack⟩, after', rfl, first, ⟨same, here⟩, last⟩ :=
      forall₂_split matched
    obtain ⟨top, tail, top', shifted, free, moved, continued⟩ :=
      here choice state answer state' made
    refine ⟨before' ++ (name', top' ++ tail) :: after', ?_,
      forall₂_join first ⟨same, continued⟩ last⟩
    exact (shift_reaches shifted state before' after' name').tail (.move allowed free moved)
  | @call before after name procedure next state =>
    obtain ⟨before', ⟨name', stack⟩, after', rfl, first, ⟨same, here⟩, last⟩ :=
      forall₂_split matched
    obtain ⟨top, tail, leaves, shifted, free, called, normal, thrown⟩ := here
    refine ⟨before' ++ (name', top ++ tail) :: after',
      shift_reaches shifted state before' after' name', forall₂_join first ⟨same, ?_⟩ last⟩
    exact (verified.keeps procedure top leaves called).onExit tail normal thrown
  | @spawn before after name procedure next state =>
    obtain ⟨before', ⟨name', stack⟩, after', rfl, first, ⟨same, here⟩, last⟩ :=
      forall₂_split matched
    obtain ⟨top, tail, top', child, leaves, shifted, forked, called, ends, continued⟩ := here
    have matched' : Matches protocol view contract ⟨name, next⟩ (name', top' ++ tail) :=
      ⟨same, continued⟩
    refine ⟨before' ++ (name', top' ++ tail) :: after' ++ [(procedure, child)], ?_,
      List.rel_append (forall₂_join first matched' last)
        (.cons (verified.thread_matches called ends) .nil)⟩
    exact (shift_reaches shifted state before' after' name').tail (.fork forked)
  | @start threads procedure state allowed =>
    obtain ⟨stack, leaves, entered, called, ends⟩ := verified.starts procedure state allowed
    exact ⟨entries ++ [(procedure, stack)], .single (.start allowed entered),
      List.rel_append matched (.cons (verified.thread_matches called ends) .nil)⟩

theorem Verified.runFrom {origin config : Config σ ι κ χ ρ} {stacked : List (κ × List φ)}
    (matches_ : List.Forall₂ (Matches protocol view contract) origin.threads stacked)
    (run : Reaches body rules origin config) :
    ∃ entries, SoupReaches protocol view rules ⟨origin.shared, stacked⟩ ⟨config.shared, entries⟩ ∧
      List.Forall₂ (Matches protocol view contract) config.threads entries := by
  induction run with
  | refl => exact ⟨stacked, .refl, matches_⟩
  | tail _ last ih =>
    obtain ⟨entries, reached, matched⟩ := ih
    obtain ⟨entries', moved, matched'⟩ := verified.step last matched
    exact ⟨entries', reached.trans moved, matched'⟩

end

variable (protocol view contract) in
def Settled (thread : Thread σ ι κ χ ρ) (entry : κ × List φ) : Prop :=
  Matches protocol view contract thread entry ∧
    (thread.program.finished = true → Ended protocol entry.2)

theorem Matches.settle {thread : Thread σ ι κ χ ρ} {entry : κ × List φ}
    (matched : Matches protocol view contract thread entry) :
    ∃ stack, protocol.Shift entry.2 stack ∧
      Matches protocol view contract thread (entry.1, stack) ∧
      (thread.program.finished = true → Ended protocol stack) := by
  obtain ⟨same, conforms⟩ := matched
  obtain ⟨procedure, program⟩ := thread
  cases program with
  | ret value =>
    obtain ⟨stack, shifted, ended⟩ := conforms
    exact ⟨stack, shifted, ⟨same, .ret ended⟩, fun _ => ended⟩
  | throw =>
    obtain ⟨rest, shifted⟩ := conforms
    exact ⟨_, shifted, ⟨same, .thrown rest⟩, fun _ => .inr ⟨rest, rfl⟩⟩
  | _ =>
    exact ⟨entry.2, .refl, ⟨same, conforms⟩, fun ended => by simp [Prog.finished] at ended⟩

variable {threads : List (Thread σ ι κ χ ρ)} {entries : List (κ × List φ)}

theorem settle_all (state : σ) (before : List (κ × List φ))
    (matched : List.Forall₂ (Matches protocol view contract) threads entries) :
    ∃ entries', SoupReaches protocol view rules ⟨state, before ++ entries⟩
        ⟨state, before ++ entries'⟩ ∧
      List.Forall₂ (Settled protocol view contract) threads entries' := by
  induction matched generalizing before with
  | nil => exact ⟨[], .refl, .nil⟩
  | @cons thread entry threads entries here _ ih =>
    obtain ⟨stack, shifted, matched, ended⟩ := here.settle
    obtain ⟨entries', reached, rest⟩ := ih (before ++ [(entry.1, stack)])
    refine ⟨(entry.1, stack) :: entries', ?_, .cons ⟨matched, ended⟩ rest⟩
    rw [List.append_assoc, List.append_assoc] at reached
    exact (shift_reaches shifted state before entries entry.1).trans reached

/-- The run of the protocol that belongs to a run of the threads, with the stacks of
finished threads settled. -/
theorem Verified.settledFrom (verified : Verified protocol view contract body rules)
    {origin config : Config σ ι κ χ ρ} {stacked : List (κ × List φ)}
    (matches_ : List.Forall₂ (Matches protocol view contract) origin.threads stacked)
    (run : Reaches body rules origin config) :
    ∃ entries, SoupReaches protocol view rules ⟨origin.shared, stacked⟩ ⟨config.shared, entries⟩ ∧
      List.Forall₂ (Settled protocol view contract) config.threads entries := by
  obtain ⟨entries, reached, matched⟩ := verified.runFrom matches_ run
  obtain ⟨entries', settled, matched'⟩ := settle_all config.shared [] matched
  exact ⟨entries', reached.trans settled, matched'⟩

theorem allFrames_eq_zero
    (settled : List.Forall₂ (Settled protocol view contract) threads entries)
    (returned : ∀ thread ∈ threads, thread.program.finished = true)
    (intact : protocol.crashed ∉ allFrames entries) : allFrames entries = 0 := by
  induction settled with
  | nil => rfl
  | @cons thread entry threads entries here _ ih =>
    rw [List.forall_mem_cons] at returned
    rw [allFrames_cons, mem_add, not_or] at intact
    rw [allFrames_cons, ih returned.2 intact.2, add_zero]
    rcases here.2 returned.1 with nothing | ⟨rest, crash⟩
    · rw [nothing, coe_nil]
    · exact absurd (crash ▸ List.mem_cons_self) intact.1

end Adequacy

section Urgent

variable (protocol : Protocol γ ι κ χ φ) (contract : Contract κ ρ φ)

/-- Nothing but an access deals with an urgent frame. -/
structure Prompt : Prop where
  ghosts : ∀ top top', protocol.ghost top top' → top ≠ [] ∧ protocol.Free top
  forks : ∀ procedure top top' child, protocol.fork procedure top top' child →
    top ≠ [] ∧ protocol.Free top
  calls : ∀ procedure top leaves, contract procedure top leaves → protocol.Free top
  crash : protocol.urgent protocol.crashed = false

variable {protocol contract} {view : σ → γ} {frame : φ} {rest : List φ}

theorem Protocol.Free.over {top : List φ} (tail : List φ) (free : top ≠ [] ∧ protocol.Free top) :
    protocol.Free (top ++ tail) := by
  obtain ⟨first, more, rfl⟩ := List.exists_cons_of_ne_nil free.1
  exact .cons (free.2.calm first rfl)

theorem not_free_of_urgent (rest : List φ) (urgent : protocol.urgent frame = true) :
    ¬ protocol.Free (frame :: rest) := fun free => by
  simp [free.calm frame rfl] at urgent

theorem Prompt.shift (prompt : Prompt protocol contract) (urgent : protocol.urgent frame = true)
    {stack : List φ} (shifted : protocol.Shift (frame :: rest) stack) : stack = frame :: rest := by
  induction shifted with
  | refl => rfl
  | tail _ last ih =>
    obtain ⟨top, top', tail, rewritten, same, -⟩ := last
    have free := Protocol.Free.over tail (prompt.ghosts top top' rewritten)
    rw [← same, ih] at free
    exact absurd free (not_free_of_urgent rest urgent)

theorem Prompt.aboutTo (prompt : Prompt protocol contract) (urgent : protocol.urgent frame = true)
    {α : Type} {program : Prog σ ι κ χ ρ α}
    (conforms : Conforms protocol view contract program (frame :: rest) fun _ => Ended protocol) :
    program.AboutTo fun choice state state' => ∃ label more top',
      protocol.move label choice (view state) (frame :: more) (view state') top' := by
  have bound := not_free_of_urgent rest urgent
  have uncrashed {below : List φ} (crash : protocol.crashed :: below = frame :: rest) : False := by
    obtain ⟨rfl, -⟩ := List.cons.inj crash
    simp [prompt.crash] at urgent
  cases program with
  | ret value =>
    obtain ⟨stack, shifted, ended⟩ := conforms
    obtain rfl := prompt.shift urgent shifted
    rcases ended with empty | ⟨below, crash⟩
    · cases empty
    · exact (uncrashed crash.symm).elim
  | throw =>
    obtain ⟨below, shifted⟩ := conforms
    exact (uncrashed (prompt.shift urgent shifted)).elim
  | act label effect next =>
    intro choice state answer state' made
    obtain ⟨top, tail, top', shifted, free, moved, -⟩ := conforms choice state answer state' made
    have same := prompt.shift urgent shifted
    cases top with
    | nil => exact absurd (same ▸ free rfl) bound
    | cons first more =>
      obtain ⟨rfl, -⟩ := List.cons.inj same
      exact ⟨label, more, top', moved⟩
  | call procedure next =>
    obtain ⟨top, tail, leaves, shifted, free, called, -⟩ := conforms
    have := prompt.calls procedure top leaves called
    have both : protocol.Free (top ++ tail) := inferInstance
    rw [prompt.shift urgent shifted] at both
    exact absurd both bound
  | spawn procedure next =>
    obtain ⟨top, tail, top', child, leaves, shifted, forked, -⟩ := conforms
    have free := Protocol.Free.over tail (prompt.forks procedure top top' child forked)
    rw [prompt.shift urgent shifted] at free
    exact absurd free bound

end Urgent

end Concurrency
