import AiPipe.Sync.Coverage

/-!
How low the fork lies that the search finds.  A fork may be close to every predecessor and yet
lead to another that is close to one of them and far from the others.
-/

namespace AiPipe

open Relation (TransGen)

/-- Whatever the order of the hash containers, a lowest fork is found exactly where some fork is met
within the limit and none of those that may be met first leads to another. -/
theorem lowest_fork_found {nodes : List NodeDecl} {edges : List Edge} {compiled : CompiledGraph}
    (succeeded : compileParts nodes edges = .ok compiled) {join first second : Nat}
    (different : first ≠ second) (adjacent : Adjacent edges first join)
    (adjacent' : Adjacent edges second join) :
    (∀ hash, ((compiled.findLowestCommonFork hash join).isSome = true ↔
          ∃ fork, ForkOf edges join fork) ∧
        ∀ result, compiled.findLowestCommonFork hash join = some result →
          ForkOf edges join result.forkNode ∧
            ∀ other, TransGen (Adjacent edges) result.forkNode other → ¬ ForkOf edges join other) ↔
      ((∃ fork, ForkOf edges join fork) → ∃ fork, MetFirst edges join fork) ∧
        ∀ fork, MetFirst edges join fork →
          ∀ other, TransGen (Adjacent edges) fork other → ¬ ForkOf edges join other := by
  have several : 2 ≤ (compiled.predecessors join).length := by
    rw [← mem_predecessors succeeded] at adjacent adjacent'
    exact (one_lt_length_iff (compileParts_predecessors succeeded join).1).mpr
      ⟨first, second, different, adjacent, adjacent'⟩
  constructor
  · intro lowest
    refine ⟨fun some => ?_, fun fork met => ?_⟩
    · obtain ⟨result, found⟩ := Option.isSome_iff_exists.mp ((lowest .insertion).1.mpr some)
      exact ⟨_, findLowestCommonFork_metFirst succeeded several found⟩
    · obtain ⟨hash, favors, -⟩ := HashOrder.exists_favors fun node (same : node = fork) => same
      obtain ⟨result, found, rfl⟩ := findLowestCommonFork_favors succeeded several favors rfl met
      exact ((lowest hash).2 result found).2
  · rintro ⟨meets, low⟩ hash
    refine ⟨⟨fun found => ?_, fun some => ?_⟩, fun result found => ?_⟩
    · obtain ⟨result, found⟩ := Option.isSome_iff_exists.mp found
      exact ⟨_, (findLowestCommonFork_metFirst succeeded several found).forkOf⟩
    · obtain ⟨fork, met⟩ := meets some
      refine Option.isSome_iff_ne_none.mpr fun missed => ?_
      exact findLowestCommonFork_none succeeded several missed fork met
    · have met := findLowestCommonFork_metFirst succeeded several found
      exact ⟨met.forkOf, low _ met⟩

open JoinAwareSyncStrategy (deepGraph)

theorem lowest_fork_found_deep : ∃ compiled, compile deepGraph = .ok compiled ∧
    ∀ hash, ∃ result, compiled.findLowestCommonFork hash 5 = some result ∧
      ForkOf deepGraph.edges 5 result.forkNode ∧
        ∀ other, TransGen (Adjacent deepGraph.edges) result.forkNode other →
          ¬ ForkOf deepGraph.edges 5 other := by
  obtain ⟨compiled, succeeded, -⟩ := deepGraph.compiled_of (fun _ => True) (by decide +kernel)
  obtain ⟨fork, met⟩ := deepGraph_metFirst
  have forward {source dest : Nat} (path : TransGen (Adjacent deepGraph.edges) source dest) :
      source < dest := by
    have rises : TransGen (fun first second : Nat => first < second) source dest := by
      refine path.lift id fun first second adjacent => ?_
      have listed := deepGraph_adjacent.mp adjacent
      change first < second
      omega
    rwa [Relation.transGen_eq_self] at rises
  have low : ∀ fork, MetFirst deepGraph.edges 5 fork → ∀ other,
      TransGen (Adjacent deepGraph.edges) fork other → ¬ ForkOf deepGraph.edges 5 other := by
    intro fork met other path common
    have below := forward path
    have here := deepGraph_branches met.forkOf.branches
    have there := deepGraph_branches common.branches
    omega
  refine ⟨compiled, succeeded, fun hash => ?_⟩
  have left : Adjacent deepGraph.edges 3 5 := by simp [deepGraph_adjacent]
  have right : Adjacent deepGraph.edges 4 5 := by simp [deepGraph_adjacent]
  obtain ⟨valid, lowest⟩ := (lowest_fork_found succeeded (by decide) left right).mpr
    ⟨fun _ => ⟨fork, met⟩, low⟩ hash
  obtain ⟨result, found⟩ := Option.isSome_iff_exists.mp (valid.mpr ⟨fork, met.forkOf⟩)
  exact ⟨result, found, lowest result found⟩

def skippedForkGraph : Graph where
  nodes := [⟨"A", [], ["out"]⟩, ⟨"X", ["in"], ["out"]⟩, ⟨"Y", ["left", "right"], ["out"]⟩,
    ⟨"J", ["left", "right"], []⟩]
  edges := [⟨0, "out", 1, "in"⟩, ⟨0, "out", 2, "left"⟩, ⟨1, "out", 2, "right"⟩,
    ⟨1, "out", 3, "left"⟩, ⟨2, "out", 3, "right"⟩]
  namesNodup := by decide
  portsNodup := by decide
  edgesNodup := by decide
  edgesDeclared := by simp [Edge.declared]

/-- `A` is a direct predecessor of both and is taken, with `X` below it. -/
theorem lower_fork_is_skipped : ∃ compiled, compile skippedForkGraph = .ok compiled ∧
    (∃ result, compiled.findLowestCommonFork .insertion 3 = some result ∧ result.forkNode = 0) ∧
    Adjacent skippedForkGraph.edges 0 1 ∧ ForkOf skippedForkGraph.edges 3 1 := by
  obtain ⟨compiled, succeeded, found⟩ := skippedForkGraph.compiled_of (fun compiled =>
    ∃ result, compiled.findLowestCommonFork .insertion 3 = some result ∧ result.forkNode = 0)
    (by decide +kernel)
  have adjacent {source dest : Nat} : Adjacent skippedForkGraph.edges source dest ↔
      source = 0 ∧ dest = 1 ∨ source = 0 ∧ dest = 2 ∨ source = 1 ∧ dest = 2 ∨
        source = 1 ∧ dest = 3 ∨ source = 2 ∧ dest = 3 := by
    simp [Adjacent, skippedForkGraph, eq_comm]
  refine ⟨compiled, succeeded, found, by simp [adjacent],
    ⟨2, 3, by decide, by simp [adjacent], by simp [adjacent]⟩, fun pred linked => ?_⟩
  obtain rfl | rfl : pred = 1 ∨ pred = 2 := by
    have listed := adjacent.mp linked
    omega
  · exact .refl
  · exact .single (adjacent.mpr (by simp))

end AiPipe
