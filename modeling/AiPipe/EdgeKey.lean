import AiPipe.GraphObject
import Mathlib.Data.List.Induction

/-!
The key under which `addEdge` looks for an identical edge: the four names with NUL characters
between them.  A character of a name stands for a byte.
-/

namespace AiPipe

open List

open Loader (LogicNode)
open Loader.Graph (acceptsPort payloadsAgree edgeKey)

structure EdgeNames where
  sourceName : String
  sourcePort : String
  destName : String
  destPort : String
  deriving DecidableEq, Repr

namespace EdgeNames

def key (names : EdgeNames) : String :=
  edgeKey names.sourceName names.sourcePort names.destName names.destPort

def nuls (name : String) : Nat := name.toList.count '\x00'

def NulFree (names : EdgeNames) : Prop :=
  nuls names.sourceName = 0 ∧ nuls names.sourcePort = 0 ∧ nuls names.destName = 0 ∧
    nuls names.destPort = 0

theorem toList_key (names : EdgeNames) : names.key.toList = names.sourceName.toList ++ '\x00' ::
    (names.sourcePort.toList ++ '\x00' :: (names.destName.toList ++ '\x00' ::
      names.destPort.toList)) := by
  simp [key, edgeKey]

theorem append_nul_inj {first second rest rest' : List Char} (free : first.count '\x00' = 0)
    (free' : second.count '\x00' = 0) (same : first ++ '\x00' :: rest = second ++ '\x00' :: rest') :
    first = second ∧ rest = rest' := by
  induction first generalizing second with
  | nil =>
    cases second with
    | nil => exact ⟨rfl, (List.cons.inj same).2⟩
    | cons head tail =>
      obtain ⟨rfl, -⟩ := List.cons.inj same
      simp at free'
  | cons head tail ih =>
    cases second with
    | nil =>
      obtain ⟨rfl, -⟩ := List.cons.inj same
      simp at free
    | cons head' tail' =>
      obtain ⟨rfl, rest⟩ := List.cons.inj same
      rw [count_cons] at free free'
      obtain ⟨rfl, equal⟩ := ih (by omega) (by omega) rest
      exact ⟨rfl, equal⟩

/-- Without separators in its names a key is read back in one way. -/
theorem key_inj {names names' : EdgeNames} (free : names.NulFree) (same : names'.key = names.key) :
    names' = names := by
  have spelled := congrArg String.toList same
  rw [toList_key, toList_key] at spelled
  have counted := congrArg (List.count '\x00') spelled
  simp only [count_append, count_cons_self] at counted
  simp only [NulFree, nuls] at free
  obtain ⟨sourceName, afterName⟩ := append_nul_inj (by omega) (by omega) spelled
  obtain ⟨sourcePort, afterPort⟩ := append_nul_inj (by omega) (by omega) afterName
  obtain ⟨destName, destPort⟩ := append_nul_inj (by omega) (by omega) afterPort
  cases names
  cases names'
  simp_all [String.toList_inj]

theorem exists_split {name : String} (some : nuls name ≠ 0) :
    ∃ before after : String, name = before ++ "\x00" ++ after ∧
      before.length < name.length ∧ after.length < name.length := by
  obtain ⟨before, after, split⟩ :=
    append_of_mem (count_pos_iff.mp (Nat.pos_of_ne_zero some))
  have spelled : name = String.ofList before ++ "\x00" ++ String.ofList after := by
    rw [← String.toList_inj]
    simpa using split
  have length := congrArg List.length split
  simp only [String.length_toList, length_append, length_cons] at length
  exact ⟨_, _, spelled, by simp; omega, by simp; omega⟩

/-- A separator in a name can be taken for the one between two names. -/
theorem exists_same_key {names : EdgeNames} (nul : ¬ names.NulFree) :
    ∃ names' : EdgeNames, names'.key = names.key ∧ names' ≠ names := by
  obtain ⟨sourceName, sourcePort, destName, destPort⟩ := names
  have one : nuls sourceName ≠ 0 ∨ nuls sourcePort ≠ 0 ∨ nuls destName ≠ 0 ∨ nuls destPort ≠ 0 := by
    simp only [NulFree] at nul
    omega
  rcases one with some | some | some | some
  · obtain ⟨before, after, rfl, shorter, -⟩ := exists_split some
    refine ⟨⟨before, after, sourcePort, destName ++ "\x00" ++ destPort⟩, ?_, fun same => ?_⟩
    · simp [key, edgeKey, String.append_assoc]
    · exact shorter.ne (congrArg (String.length ∘ EdgeNames.sourceName) same)
  · obtain ⟨before, after, rfl, shorter, -⟩ := exists_split some
    refine ⟨⟨sourceName, before, after, destName ++ "\x00" ++ destPort⟩, ?_, fun same => ?_⟩
    · simp [key, edgeKey, String.append_assoc]
    · exact shorter.ne (congrArg (String.length ∘ EdgeNames.sourcePort) same)
  · obtain ⟨before, after, rfl, shorter, -⟩ := exists_split some
    refine ⟨⟨sourceName, sourcePort, before, after ++ "\x00" ++ destPort⟩, ?_, fun same => ?_⟩
    · simp [key, edgeKey, String.append_assoc]
    · exact shorter.ne (congrArg (String.length ∘ EdgeNames.destName) same)
  · obtain ⟨before, after, rfl, -, shorter⟩ := exists_split some
    refine ⟨⟨sourceName ++ "\x00" ++ sourcePort, destName, before, after⟩, ?_, fun same => ?_⟩
    · simp [key, edgeKey, String.append_assoc]
    · exact shorter.ne (congrArg (String.length ∘ EdgeNames.destPort) same)

end EdgeNames

namespace GraphObject

variable {NodePtr : Type} [DecidableEq NodePtr] (deref : NodePtr → LogicNode)
  (object : GraphObject NodePtr) (names : EdgeNames)

/-- The names are those of two nodes and of ports of theirs whose payloads agree. -/
structure Valid (source dest : NodePtr) : Prop where
  sourceNode : object.getNode names.sourceName = some source
  destNode : object.getNode names.destName = some dest
  sourcePort : acceptsPort (deref source).outputPorts names.sourcePort = true
  destPort : acceptsPort (deref dest).inputPorts names.destPort = true
  payload : payloadsAgree (deref source) names.sourcePort (deref dest) names.destPort = true

def connect : Bool × GraphObject NodePtr :=
  object.addEdge deref names.sourceName names.sourcePort names.destName names.destPort

variable {deref object names}

theorem connect_eq {source dest : NodePtr} (valid : object.Valid deref names source dest) :
    object.connect deref names = if names.key ∈ object.edgeKeys then (false, object)
      else (true, object.insertEdge names.key
        ⟨source, names.sourcePort, dest, names.destPort⟩) := by
  simp only [connect, addEdge, valid.sourceNode, valid.destNode, valid.sourcePort, valid.destPort,
    valid.payload, Bool.not_true, Bool.false_eq_true, if_false]
  rfl

theorem Represented.key_mem (represented : object.Represented deref) (free : names.NulFree)
    {source dest : NodePtr} (valid : object.Valid deref names source dest) :
    names.key ∈ object.edgeKeys ↔
      ⟨source, names.sourcePort, dest, names.destPort⟩ ∈ object.edges := by
  obtain ⟨atSource, sourceName⟩ := represented.getNode valid.sourceNode
  obtain ⟨atDest, destName⟩ := represented.getNode valid.destNode
  rw [represented.edgeKeys, mem_map]
  constructor
  · rintro ⟨edge, listed, same⟩
    have joins := represented.joins edge listed
    obtain rfl := EdgeNames.key_inj free (show EdgeNames.key ⟨_, _, _, _⟩ = _ from same)
    have ends {node other : NodePtr} (one : node ∈ object.nodes) (two : other ∈ object.nodes)
        (named : (deref node).name = (deref other).name) : node = other :=
      inj_on_of_nodup_map represented.names one two named
    rwa [ends atSource joins.source sourceName, ends atDest joins.dest destName]
  · intro listed
    refine ⟨_, listed, ?_⟩
    rw [keyOf, sourceName, destName]
    rfl

def portsNode (ports : List String) (name : String) : LogicNode :=
  { name := name, inputPorts := ports, outputPorts := ports }

theorem addNode_portsNode {ports : List String} {object : GraphObject String}
    (represented : object.Represented (portsNode ports)) (last : String) :
    let object' := (object.addNode (portsNode ports) (some last)).2
    object'.getNode last = some last ∧
      (∀ name, object.getNode name = some name → object'.getNode name = some name) ∧
      object'.edges = object.edges := by
  cases found : object.nodeMap last with
  | some node =>
    obtain rfl : node = last := (represented.getNode found).2
    have same : object.addNode (portsNode ports) (some node) = (false, object) :=
      if_pos (Option.isSome_iff_exists.mpr ⟨_, found⟩)
    rw [same]
    exact ⟨found, fun _ => id, rfl⟩
  | none =>
    simp only [addNode, portsNode, found, Option.isSome_none, Bool.false_eq_true, if_false, getNode,
      Function.update_self, true_and, and_true]
    intro name there
    have other : name ≠ last := fun same =>
      Option.some_ne_none _ ((same ▸ there).symm.trans found)
    rw [Function.update_of_ne other, there]

theorem built_addNodes (ports nodes : List String) :
    let object := built (portsNode ports) (nodes.map fun name => .addNode (some name))
    (∀ name ∈ nodes, object.getNode name = some name) ∧ object.edges = [] := by
  induction nodes using reverseRecOn with
  | nil => exact ⟨forall_mem_nil _, rfl⟩
  | append_singleton nodes last ih =>
    obtain ⟨here, others, edges⟩ := addNode_portsNode (built_represented
      (nodes.map fun name => .addNode (some name)) : Represented (portsNode ports) _) last
    rw [map_append, built, foldl_append, ← built]
    refine ⟨forall_mem_append.mpr ⟨fun name listed => others name (ih.1 name listed), ?_⟩,
      edges.trans ih.2⟩
    exact forall_mem_singleton.mpr here

/-- A call is answered exactly, after any other calls, when its names have no separator: then it
is refused just if the edge is there. -/
theorem duplicates_exact (names : EdgeNames) :
    (∀ (NodePtr : Type) [DecidableEq NodePtr] (deref : NodePtr → LogicNode)
      (calls : List (Call NodePtr)) (source dest : NodePtr),
      (built deref calls).Valid deref names source dest →
        (((built deref calls).connect deref names).1 = false ↔
          ⟨source, names.sourcePort, dest, names.destPort⟩ ∈ (built deref calls).edges)) ↔
      names.NulFree := by
  constructor
  · intro exact
    by_contra nul
    obtain ⟨names', same, different⟩ := EdgeNames.exists_same_key nul
    let ports := [names.sourcePort, names.destPort, names'.sourcePort, names'.destPort]
    let nodes := [names.sourceName, names.destName, names'.sourceName, names'.destName]
    obtain ⟨found, noEdges⟩ := built_addNodes ports nodes
    have represented := @built_represented _ _ (portsNode ports)
      (nodes.map fun name => .addNode (some name))
    have answers := exact String (portsNode ports)
      ((nodes.map fun name => .addNode (some name)) ++
        [.addEdge names'.sourceName names'.sourcePort names'.destName names'.destPort])
      names.sourceName names.destName
    rw [built, foldl_append, ← built] at answers
    generalize built (portsNode ports) (nodes.map fun name => .addNode (some name)) = object
      at found noEdges represented answers
    have valid : ∀ other ∈ [names, names'], object.Valid (portsNode ports) other other.sourceName
        other.destName := by
      intro other listed
      have either : other = names ∨ other = names' := by simpa using listed
      rcases either with rfl | rfl <;>
        exact ⟨found _ (by simp [nodes]), found _ (by simp [nodes]),
          by simp [portsNode, acceptsPort, ports], by simp [portsNode, acceptsPort, ports],
          by simp [portsNode, payloadsAgree]⟩
    have connected := connect_eq (valid names' (by simp))
    rw [represented.edgeKeys, noEdges, map_nil, if_neg not_mem_nil] at connected
    change Valid _ (object.connect _ names').2 names _ _ →
      (((object.connect _ names').2.connect _ names).1 = false ↔ _ ∈ (object.connect _ names').2.edges)
      at answers
    rw [connected] at answers
    have valid' : (object.insertEdge names'.key ⟨names'.sourceName, names'.sourcePort,
        names'.destName, names'.destPort⟩).Valid (portsNode ports) names names.sourceName
        names.destName := by
      obtain ⟨one, two, three, four, five⟩ := valid names (by simp)
      exact ⟨one, two, three, four, five⟩
    have listed := (answers valid').mp (by rw [connect_eq valid', if_pos (by simp [insertEdge, same])])
    simp [insertEdge, noEdges] at listed
    cases names
    cases names'
    simp_all
  · intro free NodePtr _ deref calls source dest valid
    rw [connect_eq valid, ← (built_represented calls).key_mem free valid]
    split <;> simp_all

/-- A second edge is refused as a duplicate of one from another port to another node. -/
theorem duplicates_collide :
    let ports := ["b", "b\x00c", "d\x00e", "e"]
    let object := built (portsNode ports) [.addNode (some "a"), .addNode (some "c"),
      .addNode (some "d"), .addEdge "a" "b" "c" "d\x00e"]
    object.edges = [⟨"a", "b", "c", "d\x00e"⟩] ∧
      object.Valid (portsNode ports) ⟨"a", "b\x00c", "d", "e"⟩ "a" "d" ∧
      (object.connect (portsNode ports) ⟨"a", "b\x00c", "d", "e"⟩).1 = false :=
  ⟨by decide +kernel, ⟨by decide +kernel, by decide +kernel, by decide, by decide, by decide⟩,
    by decide +kernel⟩

end GraphObject

end AiPipe
