import AiPipe.Sync.Paths

/-!
The search for the fork of a join: a fork that is a direct predecessor of all predecessors, or
else the first fork that all of them come to backward, level by level.  `Explores` says how far
such a search has come and `MetFirst` what it may find.
-/

namespace AiPipe

open List

open Relation (ReflTransGen)

inductive Within (edges : List Edge) : Nat → Nat → Nat → Prop
  | refl (steps node : Nat) : Within edges steps node node
  | step {steps source next dest : Nat} : Adjacent edges source next → Within edges steps next dest →
      Within edges (steps + 1) source dest

def Branches (edges : List Edge) (node : Nat) : Prop :=
  ∃ first second, first ≠ second ∧ Adjacent edges node first ∧ Adjacent edges node second

structure ForkOf (edges : List Edge) (join fork : Nat) : Prop where
  branches : Branches edges fork
  leads : ∀ pred, Adjacent edges pred join → ReflTransGen (Adjacent edges) fork pred

def ParentFork (edges : List Edge) (join fork : Nat) : Prop :=
  Branches edges fork ∧ ∀ pred, Adjacent edges pred join → Adjacent edges fork pred

def ForkWithin (edges : List Edge) (join steps fork : Nat) : Prop :=
  Branches edges fork ∧ ∀ pred, Adjacent edges pred join → Within edges steps fork pred

def MetFirst (edges : List Edge) (join fork : Nat) : Prop :=
  ParentFork edges join fork ∨ (∀ other, ¬ ParentFork edges join other) ∧
    ∃ steps < 1000, ForkWithin edges join steps fork ∧
      ∀ fewer < steps, ∀ other, ¬ ForkWithin edges join fewer other

section Ways

variable {edges : List Edge} {join steps fork : Nat} {source dest : Nat}

theorem Within.leads (within : Within edges steps source dest) :
    ReflTransGen (Adjacent edges) source dest := by
  induction within with
  | refl => exact .refl
  | step adjacent _ ih => exact .head adjacent ih

theorem Within.succ (within : Within edges steps source dest) :
    Within edges (steps + 1) source dest := by
  induction within with
  | refl => exact .refl _ _
  | step adjacent _ ih => exact .step adjacent ih

theorem exists_metFirst (limit : steps < 1000) (within : ForkWithin edges join steps fork) :
    ∃ fork, MetFirst edges join fork := by
  by_cases parent : ∃ fork, ParentFork edges join fork
  · obtain ⟨fork, parent⟩ := parent
    exact ⟨fork, .inl parent⟩
  · induction steps using Nat.strongRecOn generalizing fork with
    | ind steps ih =>
      by_cases earlier : ∃ fewer < steps, ∃ other, ForkWithin edges join fewer other
      · obtain ⟨fewer, below, other, found⟩ := earlier
        exact ih fewer below (below.trans limit) found
      · refine ⟨fork, .inr ⟨not_exists.mp parent, steps, limit, within, ?_⟩⟩
        intro fewer below other found
        exact earlier ⟨fewer, below, other, found⟩

theorem MetFirst.forkOf (met : MetFirst edges join fork) : ForkOf edges join fork := by
  rcases met with parent | ⟨-, steps, -, within, -⟩
  · exact ⟨parent.1, fun pred linked => .single (parent.2 pred linked)⟩
  · exact ⟨within.1, fun pred linked => (within.2 pred linked).leads⟩

end Ways

def HashOrder.prefer (hash : HashOrder) (liked : Nat → Bool) : HashOrder where
  order inserted := (hash.order inserted).filter liked ++
    (hash.order inserted).filter fun node => !liked node
  perm inserted := (filter_append_perm _ _).trans (hash.perm inserted)

/-- A search of the container finds a node of the favored kind when there is one to find. -/
def HashOrder.Favors (hash : HashOrder) (favored : Nat → Prop) : Prop :=
  ∀ inserted (test : Nat → Bool), (∃ node ∈ inserted, test node = true ∧ favored node) →
    ∃ node, (hash.order inserted).find? test = some node ∧ favored node

theorem HashOrder.prefer_favors (hash : HashOrder) (liked : Nat → Bool) :
    (hash.prefer liked).Favors fun node => liked node = true := by
  rintro inserted test ⟨node, listed, passes, favored⟩
  have present : ((hash.order inserted).filter liked).find? test ≠ none := by
    rw [ne_eq, List.find?_eq_none]
    exact fun fails => fails node
      (mem_filter.mpr ⟨(hash.perm inserted).mem_iff.mpr listed, favored⟩) passes
  obtain ⟨found, first⟩ := Option.ne_none_iff_exists'.mp present
  refine ⟨found, ?_, (mem_filter.mp (mem_of_find?_eq_some first)).2⟩
  simp only [HashOrder.prefer, find?_append, first, Option.some_or]

/-- A narrower preference on top keeps the wider one. -/
theorem HashOrder.Favors.prefer {hash : HashOrder} {favored : Nat → Prop}
    (favors : hash.Favors favored) {liked : Nat → Bool}
    (narrower : ∀ node, liked node = true → favored node) : (hash.prefer liked).Favors favored := by
  intro inserted test passing
  simp only [HashOrder.prefer, find?_append]
  cases first : ((hash.order inserted).filter liked).find? test with
  | some found =>
    exact ⟨found, rfl, narrower found (mem_filter.mp (mem_of_find?_eq_some first)).2⟩
  | none =>
    obtain ⟨node, listed, passes, kind⟩ := passing
    have disliked : liked node = false := by
      rw [List.find?_eq_none] at first
      refine Bool.eq_false_iff.mpr fun likes => first node (mem_filter.mpr ⟨?_, likes⟩) passes
      exact (hash.perm inserted).mem_iff.mpr listed
    rw [Option.none_or, find?_filter]
    exact favors inserted _ ⟨node, listed, by simp [disliked, passes], kind⟩

theorem HashOrder.exists_favors {narrow wide : Nat → Prop} (narrower : ∀ node, narrow node → wide node) :
    ∃ hash : HashOrder, hash.Favors narrow ∧ hash.Favors wide := by
  classical
  have favors : (HashOrder.insertion.prefer fun node => decide (wide node)).Favors wide := by
    simpa using HashOrder.insertion.prefer_favors fun node => decide (wide node)
  refine ⟨HashOrder.prefer _ fun node => decide (narrow node), ?_,
    favors.prefer fun node liked => narrower node (of_decide_eq_true liked)⟩
  simpa using HashOrder.prefer_favors _ fun node => decide (narrow node)

theorem mem_foldl_pushUnique {value : Nat} (values seen : List Nat) :
    value ∈ values.foldl (fun seen value => pushUnique value seen) seen ↔
      value ∈ seen ∨ value ∈ values := by
  induction values generalizing seen with
  | nil => simp
  | cons first rest ih => rw [foldl_cons, ih, mem_pushUnique, mem_cons, or_assoc]

theorem count_flatMap_eq {lists : Nat → List Nat} (distinct : ∀ node, (lists node).Nodup)
    (nodes : List Nat) (value : Nat) :
    (nodes.flatMap lists).count value ≤ nodes.length ∧
      ((nodes.flatMap lists).count value = nodes.length ↔ ∀ node ∈ nodes, value ∈ lists node) := by
  induction nodes with
  | nil => simp
  | cons node nodes ih =>
    have once := nodup_iff_count_le_one.mp (distinct node) value
    rw [flatMap_cons, count_append, length_cons, forall_mem_cons, ← ih.2, ← count_pos_iff]
    omega

namespace CompiledGraph

def visit (search : BackwardSearch) (pred : Nat) : BackwardSearch :=
  if pred ∈ search.reached then search
  else { reached := search.reached ++ [pred], queue := search.queue ++ [pred] }

theorem visit_reached (preds : List Nat) (search : BackwardSearch) (node : Nat) :
    node ∈ (preds.foldl visit search).reached ↔ node ∈ search.reached ∨ node ∈ preds := by
  induction preds generalizing search with
  | nil => simp
  | cons pred preds ih =>
    rw [foldl_cons, ih, visit]
    split
    · rename_i known
      constructor
      · rintro (here | later)
        · exact .inl here
        · exact .inr (mem_cons_of_mem _ later)
      · rintro (here | later)
        · exact .inl here
        · rcases mem_cons.mp later with rfl | later
          · exact .inl known
          · exact .inr later
    · simp [or_assoc]

theorem visit_queue (preds : List Nat) (search : BackwardSearch) (node : Nat) :
    node ∈ (preds.foldl visit search).queue ↔
      node ∈ search.queue ∨ node ∈ preds ∧ node ∉ search.reached := by
  induction preds generalizing search with
  | nil => simp
  | cons pred preds ih =>
    rw [foldl_cons, ih, visit]
    by_cases known : pred ∈ search.reached
    · rw [if_pos known, mem_cons]
      by_cases same : node = pred
      · simp [same, known]
      · simp [same]
    · rw [if_neg known]
      by_cases same : node = pred
      · simp [same, known]
      · simp [same]

theorem expand_eq (graph : CompiledGraph) (search : BackwardSearch) :
    search.expand graph = (search.queue.flatMap graph.predecessors).foldl visit
      { search with queue := [] } := by
  rw [foldl_flatMap]
  rfl

variable {searches : List BackwardSearch}

theorem commonFork_spec {graph : CompiledGraph} {hash : HashOrder}
    {fork : Nat} (found : graph.commonFork hash searches = some fork) :
    (∀ search ∈ searches, fork ∈ search.reached) ∧ graph.isFork fork = true := by
  cases searches with
  | nil => simp [commonFork] at found
  | cons first rest =>
    have test := List.find?_some found
    have listed := mem_of_find?_eq_some found
    simp only [Bool.and_eq_true, all_eq_true, decide_eq_true_eq] at test
    refine ⟨fun search here => ?_, test.2⟩
    rcases mem_cons.mp here with rfl | later
    · exact (hash.perm _).mem_iff.mp listed
    · exact test.1 search later

theorem commonFork_isSome {graph : CompiledGraph} (hash : HashOrder)
    {fork : Nat} (some : searches ≠ [])
    (everywhere : ∀ search ∈ searches, fork ∈ search.reached) (forks : graph.isFork fork = true) :
    (graph.commonFork hash searches).isSome = true := by
  cases searches with
  | nil => exact absurd rfl some
  | cons first rest =>
    refine List.find?_isSome.mpr ⟨fork, ?_, ?_⟩
    · exact (hash.perm _).mem_iff.mpr (everywhere first mem_cons_self)
    · simp only [Bool.and_eq_true, all_eq_true, decide_eq_true_eq]
      exact ⟨fun search later => everywhere search (mem_cons_of_mem _ later), forks⟩

end CompiledGraph

theorem one_lt_length_iff {nodes : List Nat} (distinct : nodes.Nodup) :
    1 < nodes.length ↔ ∃ first second, first ≠ second ∧ first ∈ nodes ∧ second ∈ nodes := by
  constructor
  · intro several
    match nodes with
    | [] | [_] => simp at several
    | first :: second :: _ =>
      refine ⟨first, second, ?_, by simp, by simp⟩
      rintro rfl
      exact (nodup_cons.mp distinct).1 mem_cons_self
  · rintro ⟨first, second, different, here, here'⟩
    match nodes with
    | [] => simp at here
    | [only] =>
      rw [mem_singleton] at here here'
      exact absurd (here.trans here'.symm) different
    | _ :: _ :: _ => simp

open CompiledGraph

structure CompiledGraph.BackwardSearch.Explores (edges : List Edge) (level pred : Nat)
    (search : BackwardSearch) : Prop where
  reached : ∀ node, node ∈ search.reached ↔ Within edges level node pred
  waiting : ∀ node ∈ search.queue, node ∈ search.reached
  done : ∀ node ∈ search.reached, node ∉ search.queue → ∀ source, Adjacent edges source node →
    source ∈ search.reached

theorem explores_start (edges : List Edge) (pred : Nat) :
    BackwardSearch.Explores edges 0 pred { reached := [pred], queue := [pred] } where
  reached node := by
    rw [mem_singleton]
    constructor
    · rintro rfl
      exact .refl _ _
    · intro within
      cases within
      rfl
  waiting _ here := here
  done _ here absent := absurd here absent

theorem CompiledGraph.BackwardSearch.Explores.exhausted {edges : List Edge} {level pred : Nat}
    {search : BackwardSearch} (explores : search.Explores edges level pred)
    (empty : search.queue = []) {node : Nat}
    (leads : ReflTransGen (Adjacent edges) node pred) : Within edges level node pred := by
  rw [← explores.reached]
  induction leads using ReflTransGen.head_induction_on with
  | refl => exact (explores.reached pred).mpr (.refl _ _)
  | head adjacent _ ih => exact explores.done _ ih (by simp [empty]) _ adjacent

section Searching

variable {nodes : List NodeDecl} {edges : List Edge} {compiled : CompiledGraph}
  (succeeded : compileParts nodes edges = .ok compiled)
include succeeded

theorem isFork_iff_branches (node : Nat) : compiled.isFork node = true ↔ Branches edges node := by
  obtain ⟨distinct, members⟩ := compileParts_successors succeeded node
  rw [isFork, decide_eq_true_eq, one_lt_length_iff distinct]
  simp only [members, Branches, Adjacent]

theorem mem_predecessors (dest source : Nat) :
    source ∈ compiled.predecessors dest ↔ Adjacent edges source dest := by
  rw [(compileParts_predecessors succeeded dest).2 source]
  simp only [Adjacent, and_comm]

theorem CompiledGraph.BackwardSearch.Explores.expand {level pred : Nat} {search : BackwardSearch}
    (explores : search.Explores edges level pred) :
    (search.expand compiled).Explores edges (level + 1) pred := by
  have reached (node : Nat) : node ∈ (search.expand compiled).reached ↔
      node ∈ search.reached ∨ ∃ dest ∈ search.queue, Adjacent edges node dest := by
    rw [expand_eq, visit_reached]
    simp [mem_predecessors succeeded]
  have queue (node : Nat) : node ∈ (search.expand compiled).queue ↔
      (∃ dest ∈ search.queue, Adjacent edges node dest) ∧ node ∉ search.reached := by
    rw [expand_eq, visit_queue]
    simp [mem_predecessors succeeded]
  have behind : ∀ node ∈ search.reached, ∀ source, Adjacent edges source node →
      source ∈ (search.expand compiled).reached := by
    intro node here source adjacent
    rw [reached]
    by_cases waits : node ∈ search.queue
    · exact .inr ⟨node, waits, adjacent⟩
    · exact .inl (explores.done node here waits source adjacent)
  refine ⟨fun node => ⟨fun here => ?_, fun within => ?_⟩, fun node here => ?_, fun node here absent => ?_⟩
  · rcases (reached node).mp here with known | ⟨dest, waits, adjacent⟩
    · exact ((explores.reached node).mp known).succ
    · exact .step adjacent ((explores.reached dest).mp (explores.waiting dest waits))
  · cases within with
    | refl => exact (reached _).mpr (.inl ((explores.reached _).mpr (.refl _ _)))
    | step adjacent within => exact behind _ ((explores.reached _).mpr within) _ adjacent
  · exact (reached node).mpr (.inr ((queue node).mp here).1)
  · refine behind node ?_
    rcases (reached node).mp here with known | adjacent
    · exact known
    · exact Classical.byContradiction fun new => absent ((queue node).mpr ⟨adjacent, new⟩)

variable {join level : Nat} {search : Nat → BackwardSearch}
  (explores : ∀ pred ∈ compiled.predecessors join, (search pred).Explores edges level pred)
include explores

variable {fork : Nat}

theorem reached_everywhere_iff :
    ((∀ found ∈ (compiled.predecessors join).map search, fork ∈ found.reached) ∧
      compiled.isFork fork = true) ↔ ForkWithin edges join level fork := by
  rw [isFork_iff_branches succeeded, and_comm, ForkWithin, forall_mem_map]
  refine and_congr_right fun _ => ?_
  constructor
  · intro everywhere pred adjacent
    have listed := (mem_predecessors succeeded join pred).mpr adjacent
    exact ((explores pred listed).reached fork).mp (everywhere pred listed)
  · intro within pred listed
    exact ((explores pred listed).reached fork).mpr
      (within pred ((mem_predecessors succeeded join pred).mp listed))

theorem commonFork_some {hash : HashOrder}
    (found : compiled.commonFork hash ((compiled.predecessors join).map search) = some fork) :
    ForkWithin edges join level fork :=
  (reached_everywhere_iff succeeded explores).mp (commonFork_spec found)

theorem commonFork_none (several : compiled.predecessors join ≠ []) {hash : HashOrder}
    (missed : compiled.commonFork hash ((compiled.predecessors join).map search) = none) (fork : Nat) :
    ¬ ForkWithin edges join level fork := by
  intro within
  obtain ⟨everywhere, forks⟩ := (reached_everywhere_iff succeeded explores).mpr within
  have found := commonFork_isSome hash (by simpa using several) everywhere forks
  simp [missed] at found

theorem commonFork_favors {hash : HashOrder} {favored : Nat → Prop} (favors : hash.Favors favored)
    (liked : favored fork) (several : compiled.predecessors join ≠ [])
    (within : ForkWithin edges join level fork) :
    ∃ fork, compiled.commonFork hash ((compiled.predecessors join).map search) = some fork ∧
      favored fork := by
  obtain ⟨everywhere, forks⟩ := (reached_everywhere_iff succeeded explores).mpr within
  have some : (compiled.predecessors join).map search ≠ [] := by simpa using several
  generalize (compiled.predecessors join).map search = searches at everywhere some
  cases searches with
  | nil => exact absurd rfl some
  | cons first rest =>
    obtain ⟨here, later⟩ := forall_mem_cons.mp everywhere
    refine favors _ _ ⟨fork, here, ?_, liked⟩
    simpa [forks] using later

theorem forkWithin_of_exhausted
    (empty : ((compiled.predecessors join).map search).all (fun search => search.queue.isEmpty) = true)
    {steps fork : Nat} (within : ForkWithin edges join steps fork) :
    ForkWithin edges join level fork := by
  refine ⟨within.1, fun pred adjacent => ?_⟩
  have listed := (mem_predecessors succeeded join pred).mpr adjacent
  have none := all_eq_true.mp empty _ (mem_map_of_mem listed)
  exact (explores pred listed).exhausted (isEmpty_iff.mp none) (within.2 pred adjacent).leads

section

variable (several : compiled.predecessors join ≠ [])
include several

theorem searchFork_some {hash : HashOrder} {iterations fork : Nat}
    (found : compiled.searchFork hash iterations ((compiled.predecessors join).map search) = some fork) :
    ∃ steps, level ≤ steps ∧ steps < level + iterations ∧ ForkWithin edges join steps fork ∧
      ∀ fewer, level ≤ fewer → fewer < steps → ∀ other, ¬ ForkWithin edges join fewer other := by
  induction iterations generalizing level search with
  | zero => simp [searchFork] at found
  | succ iterations ih =>
    rw [searchFork] at found
    cases common : compiled.commonFork hash ((compiled.predecessors join).map search) with
    | some candidate =>
      rw [common] at found
      obtain rfl := Option.some.inj found
      refine ⟨level, le_rfl, by omega, commonFork_some succeeded explores common, ?_⟩
      intro fewer lower upper
      omega
    | none =>
      rw [common] at found
      dsimp only at found
      split at found
      next => cases found
      next =>
        rw [map_map] at found
        obtain ⟨steps, lower, upper, within, least⟩ :=
          ih (fun pred listed => (explores pred listed).expand succeeded) found
        refine ⟨steps, by omega, by omega, within, fun fewer above below => ?_⟩
        by_cases here : fewer = level
        · subst here
          exact commonFork_none succeeded explores several common
        · exact least fewer (by omega) below

theorem searchFork_favors {hash : HashOrder} {favored : Nat → Prop} (favors : hash.Favors favored)
    {iterations steps fork : Nat} (liked : favored fork) (lower : level ≤ steps)
    (upper : steps < level + iterations) (within : ForkWithin edges join steps fork)
    (least : ∀ fewer, level ≤ fewer → fewer < steps → ∀ other, ¬ ForkWithin edges join fewer other) :
    ∃ fork, compiled.searchFork hash iterations ((compiled.predecessors join).map search) =
      some fork ∧ favored fork := by
  induction iterations generalizing level search with
  | zero => omega
  | succ iterations ih =>
    rw [searchFork]
    by_cases here : steps = level
    · subst here
      obtain ⟨found, common, kind⟩ :=
        commonFork_favors succeeded explores favors liked several within
      rw [common]
      exact ⟨found, rfl, kind⟩
    · have missed : compiled.commonFork hash ((compiled.predecessors join).map search) = none := by
        refine Option.eq_none_iff_forall_not_mem.mpr fun other found => ?_
        exact least level le_rfl (by omega) other (commonFork_some succeeded explores found)
      have more : ¬ ((compiled.predecessors join).map search).all
          (fun search => search.queue.isEmpty) = true := fun empty =>
        least level le_rfl (by omega) fork
          (forkWithin_of_exhausted succeeded explores empty within)
      rw [missed]
      dsimp only
      rw [if_neg more, map_map]
      refine ih (fun pred listed => (explores pred listed).expand succeeded) (by omega) (by omega)
        fun fewer above below => least fewer (by omega) below

theorem searchFork_none {hash : HashOrder} {iterations : Nat}
    (missed : compiled.searchFork hash iterations ((compiled.predecessors join).map search) = none)
    {steps : Nat} (lower : level ≤ steps) (upper : steps < level + iterations) (fork : Nat) :
    ¬ ForkWithin edges join steps fork := by
  induction iterations generalizing level search with
  | zero => omega
  | succ iterations ih =>
    rw [searchFork] at missed
    cases common : compiled.commonFork hash ((compiled.predecessors join).map search) with
    | some candidate => simp [common] at missed
    | none =>
      have here := commonFork_none succeeded explores several common
      rw [common] at missed
      dsimp only at missed
      split at missed
      next empty =>
        exact fun within => here fork (forkWithin_of_exhausted succeeded explores empty within)
      next =>
        rw [map_map] at missed
        by_cases first : steps = level
        · subst first
          exact here fork
        · exact ih (fun pred listed => (explores pred listed).expand succeeded) missed
            (by omega) (by omega)

end

end Searching

section Finding

theorem ne_nil_of_several {nodes : List Nat} (several : 2 ≤ nodes.length) : nodes ≠ [] := by
  rintro rfl
  simp at several

theorem findLowestCommonFork_paths {compiled : CompiledGraph} {join : Nat} {hash : HashOrder}
    {result : ForkSearchResult}
    (found : compiled.findLowestCommonFork hash join = some result) :
    2 ≤ (compiled.predecessors join).length ∧
      result.paths = compiled.findAllPaths result.forkNode join := by
  unfold findLowestCommonFork at found
  dsimp only at found
  split at found
  next => cases found
  next many =>
    obtain ⟨fork, -, rfl⟩ := Option.map_eq_some_iff.mp found
    exact ⟨Nat.le_of_not_lt many, rfl⟩

variable {nodes : List NodeDecl} {edges : List Edge} {compiled : CompiledGraph}
  (succeeded : compileParts nodes edges = .ok compiled) {join : Nat}
include succeeded

variable {fork : Nat}

theorem parentFork_iff :
    (((compiled.predecessors join).flatMap compiled.predecessors).count fork ==
        (compiled.predecessors join).length && compiled.isFork fork) = true ↔
      ParentFork edges join fork := by
  have distinct (node : Nat) := (compileParts_predecessors succeeded node).1
  rw [Bool.and_eq_true, beq_iff_eq, (count_flatMap_eq distinct _ fork).2,
    isFork_iff_branches succeeded, and_comm, ParentFork]
  simp only [mem_predecessors succeeded]

theorem mem_parents (several : compiled.predecessors join ≠ [])
    (parent : ParentFork edges join fork) :
    fork ∈ ((compiled.predecessors join).flatMap compiled.predecessors).foldl
      (fun parents parent => pushUnique parent parents) [] := by
  obtain ⟨pred, listed⟩ := exists_mem_of_ne_nil _ several
  rw [mem_foldl_pushUnique, mem_flatMap]
  refine .inr ⟨pred, listed, ?_⟩
  rw [mem_predecessors succeeded] at listed ⊢
  exact parent.2 pred listed

variable (several : 2 ≤ (compiled.predecessors join).length)
include several

theorem findLowestCommonFork_metFirst {hash : HashOrder} {result : ForkSearchResult}
    (found : compiled.findLowestCommonFork hash join = some result) :
    MetFirst edges join result.forkNode := by
  have present := ne_nil_of_several several
  unfold findLowestCommonFork at found
  dsimp only at found
  rw [if_neg (Nat.not_lt.mpr several)] at found
  obtain ⟨fork, chosen, rfl⟩ := Option.map_eq_some_iff.mp found
  split at chosen
  next parent simple =>
    obtain rfl := Option.some.inj chosen
    have test := List.find?_some simple
    exact .inl ((parentFork_iff succeeded).mp test)
  next missed =>
    obtain ⟨steps, -, upper, within, least⟩ := searchFork_some succeeded
      (fun pred _ => explores_start edges pred) present chosen
    refine .inr ⟨fun other parent => ?_, steps, by omega, within,
      fun fewer below => least fewer (Nat.zero_le _) below⟩
    have listed := (hash.perm _).mem_iff.mpr (mem_parents succeeded present parent)
    exact List.find?_eq_none.mp missed other listed ((parentFork_iff succeeded).mpr parent)

theorem findLowestCommonFork_none {hash : HashOrder}
    (missed : compiled.findLowestCommonFork hash join = none) (fork : Nat) :
    ¬ MetFirst edges join fork := by
  have present := ne_nil_of_several several
  unfold findLowestCommonFork at missed
  dsimp only at missed
  rw [if_neg (Nat.not_lt.mpr several), Option.map_eq_none_iff] at missed
  split at missed
  next => cases missed
  next simple =>
    rintro (parent | ⟨-, steps, below, within, -⟩)
    · have listed := (hash.perm _).mem_iff.mpr (mem_parents succeeded present parent)
      exact List.find?_eq_none.mp simple fork listed ((parentFork_iff succeeded).mpr parent)
    · exact searchFork_none succeeded (fun pred _ => explores_start edges pred) present missed
        (Nat.zero_le _) (by omega) fork within

theorem findLowestCommonFork_favors {hash : HashOrder} {favored : Nat → Prop}
    (favors : hash.Favors favored) (liked : favored fork) (met : MetFirst edges join fork) :
    ∃ result, compiled.findLowestCommonFork hash join = some result ∧
      favored result.forkNode := by
  have present := ne_nil_of_several several
  unfold findLowestCommonFork
  dsimp only
  rw [if_neg (Nat.not_lt.mpr several)]
  rcases met with parent | ⟨noParent, steps, below, within, least⟩
  · obtain ⟨found, first, kind⟩ := favors _ (fun parent =>
      ((compiled.predecessors join).flatMap compiled.predecessors).count parent ==
        (compiled.predecessors join).length && compiled.isFork parent)
      ⟨fork, mem_parents succeeded present parent, (parentFork_iff succeeded).mpr parent, liked⟩
    rw [first]
    exact ⟨_, rfl, kind⟩
  · have missed : (hash.order
        (((compiled.predecessors join).flatMap compiled.predecessors).foldl
          (fun parents parent => pushUnique parent parents) [])).find? (fun parent =>
            ((compiled.predecessors join).flatMap compiled.predecessors).count parent ==
              (compiled.predecessors join).length && compiled.isFork parent) = none := by
      refine List.find?_eq_none.mpr fun other _ parent => ?_
      exact noParent other ((parentFork_iff succeeded).mp parent)
    rw [missed]
    dsimp only
    have upper : steps < 0 + 1000 := by omega
    obtain ⟨found, searched, kind⟩ := searchFork_favors succeeded
      (fun pred _ => explores_start edges pred) present favors liked (Nat.zero_le steps) upper
      within fun fewer _ below => least fewer below
    rw [searched]
    exact ⟨_, rfl, kind⟩

end Finding

end AiPipe
