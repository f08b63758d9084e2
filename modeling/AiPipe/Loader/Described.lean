import AiPipe.Loader.Building
import AiPipe.Loader.Endpoints

/-!
The graph that a document describes.  An accepted document has only keys of the schema outside
`options`, and its nodes and edges are those of the graph, in their order.
-/

namespace AiPipe.Loader

open Nlohmann Option Loader.Graph

/-! The text form of an endpoint. -/

def dotFree (name : String) : Prop := '.' ∉ name.toList

theorem findIdx?_dot_iff {characters : List Char} {dot : Nat} :
    characters.findIdx? (· == '.') = some dot ↔
      ∃ before after, characters = before ++ '.' :: after ∧ before.length = dot ∧
        '.' ∉ before := by
  induction characters generalizing dot with
  | nil => simp
  | cons first rest ih =>
    rw [List.findIdx?_cons]
    by_cases here : first = '.'
    · subst here
      simp only [beq_self_eq_true, ↓reduceIte, Option.some.injEq]
      constructor
      · intro zero
        exact ⟨[], rest, rfl, zero, List.not_mem_nil⟩
      · rintro ⟨before, after, split, rfl, free⟩
        cases before with
        | nil => rfl
        | cons other before =>
          obtain ⟨rfl, -⟩ := List.cons.inj split
          exact absurd List.mem_cons_self free
    · simp only [beq_eq_false_iff_ne.mpr here, Bool.false_eq_true, ↓reduceIte, map_eq_some_iff, ih]
      constructor
      · rintro ⟨_, ⟨before, after, rfl, rfl, free⟩, rfl⟩
        refine ⟨first :: before, after, rfl, rfl, ?_⟩
        simp [free, Ne.symm here]
      · rintro ⟨before, after, split, rfl, free⟩
        cases before with
        | nil => exact absurd (List.cons.inj split).1 here
        | cons other before =>
          obtain ⟨rfl, rfl⟩ := List.cons.inj split
          refine ⟨before.length, ⟨before, after, rfl, rfl, ?_⟩, rfl⟩
          exact fun again => free (List.mem_cons_of_mem _ again)

theorem splitEndpoint_iff {text node port : String} :
    splitEndpoint text = some (node, port) ↔ text = node ++ "." ++ port ∧
      dotFree node ∧ dotFree port ∧ node ≠ "" ∧ port ≠ "" := by
  simp only [splitEndpoint, bind_eq_bind, bind_eq_some_iff, guard_eq_some',
    findIdx?_dot_iff, Option.some.injEq, Prod.mk.injEq]
  constructor
  · rintro ⟨dot, ⟨before, after, split, rfl, free⟩, fromEnd, ⟨last, rest, reversed, rfl, clear⟩,
      -, ⟨single, some, some'⟩, rfl, rfl⟩
    have mirrored : text.toList = rest.reverse ++ '.' :: last.reverse := by
      rw [← List.reverse_reverse text.toList, reversed]
      simp
    have same := split.symm.trans mirrored
    have long : before.length = rest.reverse.length := by
      have lengths := congrArg List.length mirrored
      simp only [List.length_append, List.length_cons, List.length_reverse] at lengths ⊢
      omega
    obtain ⟨-, tails⟩ := List.append_inj same long
    have ending : after = last.reverse := (List.cons.inj tails).2
    rw [split] at single some' ⊢
    have later : '.' ∉ after := by simpa [ending] using clear
    refine ⟨?_, ?_, ?_, ?_, ?_⟩
    · apply String.toList_injective
      rw [split]
      simp
    · simpa [dotFree] using free
    · simpa [dotFree] using later
    · simpa using some
    · intro none
      have short := congrArg List.length (String.ofList_eq_empty_iff.mp none)
      rw [List.length_drop, List.length_nil] at short
      rw [List.length_append, List.length_cons] at some' short
      omega
  · rintro ⟨rfl, free, later, some, some'⟩
    refine ⟨node.toList.length, ⟨node.toList, port.toList, by simp, rfl, free⟩,
      port.toList.length, ⟨port.toList.reverse, node.toList.reverse, by simp, by simp, ?_⟩,
      (), ?_, ?_, ?_⟩
    · simpa [dotFree] using later
    · refine ⟨?_, by simpa using some, by simpa using some'⟩
      simp
      omega
    · simp
    · simp

theorem splitEndpoint_none {text : String}
    (fault : text.toList.count '.' ≠ 1 ∨ text.toList.head? = some '.' ∨
      text.toList.getLast? = some '.') : splitEndpoint text = none := by
  cases split : splitEndpoint text with
  | none => rfl
  | some parts =>
    obtain ⟨rfl, free, free', some, some'⟩ := splitEndpoint_iff.mp split
    rcases fault with several | first | last
    · refine absurd ?_ several
      have none := List.count_eq_zero.mpr free
      have none' := List.count_eq_zero.mpr free'
      simp [none, none']
    · refine absurd ?_ free
      cases chars : parts.1.toList with
      | nil => exact absurd (by simpa using chars) some
      | cons character rest => simp_all
    · refine absurd ?_ free'
      rcases List.eq_nil_or_concat parts.2.toList with chars | ⟨rest, character, chars⟩
      · exact absurd (by simpa using chars) some'
      · rw [List.concat_eq_append] at chars
        rw [String.toList_append, chars, ← List.append_assoc, List.getLast?_concat] at last
        rw [chars, Option.some.inj last]
        exact List.mem_append_right _ List.mem_cons_self

variable {parts : String × String}

theorem parseEndpoint_text_run (text side : String) (index : Nat)
    (split : splitEndpoint text = some parts) :
    (parseEndpoint (.string text) side index).run = .ok (.ok parts) := by
  obtain ⟨failure, ran⟩ := parseEndpoint_split text side index
  rwa [split] at ran

theorem parseEndpoint_text_refused (text side : String) (index : Nat)
    (split : splitEndpoint text = none) :
    ∃ failure, (parseEndpoint (.string text) side index).run = .ok (.error failure) := by
  cases parseEndpoint_text text side index with
  | misread misread => cases misread
  | accepted _ formed =>
    rw [wellFormedEndpoint, split] at formed
    cases formed
  | refused _ _ ran => exact ran

theorem parseEndpoint_object_run (node port side : String) (index : Nat) :
    (parseEndpoint (.object [("node", .string node), ("port", .string port)]) side index).run =
      .ok (.ok (node, port)) := rfl

/-! What a document describes. -/

def nodeEntries (document : Json) : List Json :=
  match document.find "nodes" with
  | some (.array entries) => entries
  | _ => []

def edgeEntries (document : Json) : List Json :=
  match document.find "edges" with
  | some (.array entries) => entries
  | _ => []

def endpointKeysKnown (entry : Json) (key : String) : Bool :=
  (entry.find key).all fun endpoint => !endpoint.isObject || knownKeys endpoint ["node", "port"]

def graphKeysKnown (document : Json) : Bool :=
  knownKeys document ["nodes", "edges", "options"] &&
  (nodeEntries document).all (knownKeys · ["type", "name", "config"]) &&
  (edgeEntries document).all fun entry => knownKeys entry ["from", "to"] &&
    endpointKeysKnown entry "from" && endpointKeysKnown entry "to"

def optionKeysKnown (document : Json) : Bool :=
  (document.find "options").all (knownKeys · optionKeys)

def DescribesNode (registry : NodeRegistry) (entry : Json) (node : LogicNode) : Prop :=
  ∃ typeName config, entry.find "type" = some (.string typeName) ∧
    entry.find "name" = some (.string node.name) ∧
    (parseConfig node.name entry).run = .ok (.ok config) ∧
    registry.create typeName node.name config = .ok (some node)

def DescribesEdge (graph : Graph) (entry : Json) (edge : Edge) : Prop :=
  ∃ source dest sourceName destName index, entry.find "from" = some source ∧
    entry.find "to" = some dest ∧
    (parseEndpoint source "from" index).run = .ok (.ok (sourceName, edge.sourcePort)) ∧
    (parseEndpoint dest "to" index).run = .ok (.ok (destName, edge.destPort)) ∧
    graph.getNode sourceName = some edge.sourceNode ∧
    graph.getNode destName = some edge.destNode

structure Described (registry : NodeRegistry) (document : Json) (graph : Graph) : Prop where
  keys : graphKeysKnown document = true
  nodes : List.Forall₂ (DescribesNode registry) (nodeEntries document) graph.nodes
  names : (graph.nodes.map fun node => node.name).Nodup
  edges : List.Forall₂ (DescribesEdge graph) (edgeEntries document) graph.edges
  declared : ∀ edge ∈ graph.edges, edge.declared graph.declarations
  acyclic : ∀ node, ¬Relation.TransGen (Adjacent graph.edges) node node

def NodeRegistry.Names (registry : NodeRegistry) : Prop :=
  ∀ typeName name config node, registry.create typeName name config = .ok (some node) →
    node.name = name

variable {entry : Json}

theorem stringMember_run {key : String} {text : String}
    (ran : (stringMember entry key).run = .ok (.ok (some text))) :
    entry.find key = some (.string text) := by
  unfold stringMember at ran
  split at ran
  next => cases ran
  next present =>
    obtain ⟨member, found, reads⟩ := Json.item_of_contains (by simpa using present)
    rw [run_bind_of_ok (item_run found)] at ran
    cases member with
    | string other =>
      obtain rfl : other = text := by
        injection ran with same
        injection same with same
        injection same
      exact found
    | _ => cases ran

variable {graph graph' : Graph} {registry : NodeRegistry}

theorem createNode_run {typeName name : String}
    {config : Params} (ran : (createNode registry graph typeName name config).run = .ok (.ok graph')) :
    ∃ node, registry.create typeName name config = .ok node ∧ graph.addNode node = some graph' := by
  unfold createNode at ran
  split at ran
  next => cases ran
  next node made =>
    refine ⟨node, made, ?_⟩
    split at ran
    next => cases ran
    next added =>
      rw [added]
      injection ran with same
      injection same with same
      rw [same]

theorem addNodeEntry_run (named : registry.Names)
    (ran : (addNodeEntry registry graph entry).run = .ok (.ok graph')) :
    knownKeys entry ["type", "name", "config"] = true ∧
      ∃ node, DescribesNode registry entry node ∧ graph.addNode (some node) = some graph' := by
  unfold addNodeEntry at ran
  split at ran
  next => cases ran
  next =>
    obtain ⟨_, checked, ran⟩ := run_bind_ok_iff.mp ran
    refine ⟨checkKnownKeys_ok_iff.mp checked, ?_⟩
    obtain ⟨typeName, typed, ran⟩ := run_bind_ok_iff.mp ran
    obtain ⟨name, called, ran⟩ := run_bind_ok_iff.mp ran
    cases typeName with
    | none => cases ran
    | some typeName =>
    cases name with
    | none => cases ran
    | some name =>
    dsimp only at ran
    split at ran
    next => cases ran
    next =>
      obtain ⟨config, parsed, ran⟩ := run_bind_ok_iff.mp ran
      obtain ⟨node, made, added⟩ := createNode_run ran
      obtain ⟨new, rfl, -, -⟩ := addNode_some added
      obtain rfl := named _ _ _ _ made
      exact ⟨new, ⟨typeName, config, stringMember_run typed, stringMember_run called, parsed, made⟩,
        added⟩

theorem addNodeEntries_run (named : registry.Names) {entries : List Json}
    (ran : (entries.foldlM (addNodeEntry registry) graph).run = .ok (.ok graph'))
    (built : graph.Built) : graph'.Built ∧
      entries.all (knownKeys · ["type", "name", "config"]) = true ∧ graph'.edges = graph.edges ∧
      ∃ nodes, graph'.nodes = graph.nodes ++ nodes ∧
        List.Forall₂ (DescribesNode registry) entries nodes := by
  induction entries generalizing graph with
  | nil =>
    obtain rfl : graph = graph' := by
      injection ran with same
      injection same
    exact ⟨built, rfl, rfl, [], (List.append_nil _).symm, .nil⟩
  | cons entry rest ih =>
    rw [List.foldlM_cons] at ran
    obtain ⟨middle, first, later⟩ := run_bind_ok_iff.mp ran
    obtain ⟨known, node, described, added⟩ := addNodeEntry_run named first
    obtain ⟨built', knowns, kept, nodes, rows, all⟩ := ih later (built.addNode added)
    obtain ⟨new, same, -, rfl⟩ := addNode_some added
    obtain rfl := Option.some.inj same
    refine ⟨built', ?_, kept, node :: nodes, ?_, .cons described all⟩
    · rw [List.all_cons, known, knowns]
      rfl
    · rw [rows]
      simp

variable {document : Json} {graph : Graph}

theorem parseNodes_run (named : registry.Names)
    (ran : (parseNodes registry document).run = .ok (.ok graph)) :
    graph.Built ∧ graph.edges = [] ∧
      (nodeEntries document).all (knownKeys · ["type", "name", "config"]) = true ∧
      List.Forall₂ (DescribesNode registry) (nodeEntries document) graph.nodes := by
  unfold parseNodes at ran
  split at ran
  next => cases ran
  next present =>
    obtain ⟨nodes, found, -⟩ := Json.item_of_contains (by simpa using present)
    rw [run_bind_of_ok (item_run found)] at ran
    split at ran
    next => cases ran
    next kind =>
      cases nodes with
      | array entries =>
        obtain ⟨built, known, kept, made, rows, all⟩ := addNodeEntries_run named ran .empty
        rw [nodeEntries, found, rows]
        exact ⟨built, kept, known, all⟩
      | _ => exact absurd rfl kind

theorem parseEndpoint_known {endpoint : Json} {side : String} {index : Nat}
    (ran : (parseEndpoint endpoint side index).run = .ok (.ok parts)) :
    (!endpoint.isObject || knownKeys endpoint ["node", "port"]) = true := by
  have formed := (parseEndpoint_accepts_iff endpoint side index).mp ⟨parts, ran⟩
  cases endpoint with
  | object entries =>
    simp only [wellFormedEndpoint, Bool.and_eq_true] at formed
    simpa [Json.isObject] using formed.1.1
  | _ => rfl

theorem addEdgeEntry_run {index : Nat}
    (ran : (addEdgeEntry graph index entry).run = .ok (.ok graph')) :
    (knownKeys entry ["from", "to"] && endpointKeysKnown entry "from" &&
        endpointKeysKnown entry "to") = true ∧
      ∃ edge keys, DescribesEdge graph entry edge ∧
        graph' = { graph with edges := graph.edges ++ [edge], edgeKeys := keys } ∧
        (graph.Built → graph'.Built) := by
  unfold addEdgeEntry at ran
  dsimp only at ran
  split at ran
  next => cases ran
  next =>
    obtain ⟨_, checked, ran⟩ := run_bind_ok_iff.mp ran
    have known := checkKnownKeys_ok_iff.mp checked
    split at ran
    next => cases ran
    next present =>
      simp only [Bool.or_eq_true, Bool.not_eq_true', not_or, Bool.not_eq_false] at present
      obtain ⟨source, here, -⟩ := Json.item_of_contains present.1
      obtain ⟨dest, there, -⟩ := Json.item_of_contains present.2
      rw [run_bind_of_ok (item_run here)] at ran
      obtain ⟨⟨sourceName, sourcePort⟩, first, ran⟩ := run_bind_ok_iff.mp ran
      rw [run_bind_of_ok (item_run there)] at ran
      obtain ⟨⟨destName, destPort⟩, second, ran⟩ := run_bind_ok_iff.mp ran
      dsimp only at ran
      split at ran
      next => cases ran
      next added =>
        obtain rfl : _ = graph' := by
          injection ran with same
          injection same
        refine ⟨?_, ?_⟩
        · rw [known, endpointKeysKnown, endpointKeysKnown, here, there, all_some,
            all_some, parseEndpoint_known first, parseEndpoint_known second]
          rfl
        · obtain ⟨sourceNode, destNode, keys, foundSource, foundDest, -, made⟩ :=
            addEdge_some added
          refine ⟨⟨sourceNode, sourcePort, destNode, destPort⟩, keys, ?_, made,
            fun built => built.addEdge added⟩
          exact ⟨source, dest, sourceName, destName, index, here, there, first, second,
            foundSource, foundDest⟩

theorem addEdgeEntries_run {entries : List Json}
    (ran : (addEdgeEntries graph entries).run = .ok (.ok graph')) (built : graph.Built) :
    graph'.Built ∧ graph'.nodes = graph.nodes ∧
      (entries.all fun entry => knownKeys entry ["from", "to"] &&
        endpointKeysKnown entry "from" && endpointKeysKnown entry "to") = true ∧
      ∃ edges, graph'.edges = graph.edges ++ edges ∧
        List.Forall₂ (DescribesEdge graph) entries edges := by
  unfold addEdgeEntries at ran
  generalize 0 = start at ran
  induction entries generalizing graph start with
  | nil =>
    obtain rfl : graph = graph' := by
      injection ran with same
      injection same
    exact ⟨built, rfl, rfl, [], (List.append_nil _).symm, .nil⟩
  | cons entry rest ih =>
    rw [List.zipIdx_cons, List.foldlM_cons] at ran
    obtain ⟨middle, first, later⟩ := run_bind_ok_iff.mp ran
    obtain ⟨known, edge, keys, described, rfl, keeps⟩ := addEdgeEntry_run first
    obtain ⟨built', same, knowns, edges, rows, all⟩ := ih (keeps built) _ later
    refine ⟨built', same, ?_, edge :: edges, ?_, .cons described all⟩
    · rw [List.all_cons, known, knowns]
      rfl
    · rw [rows]
      simp

theorem parseEdges_run
    (ran : (parseEdges document graph).run = .ok (.ok graph')) (built : graph.Built)
    (bare : graph.edges = []) : graph'.Built ∧ graph'.nodes = graph.nodes ∧
      ((edgeEntries document).all fun entry => knownKeys entry ["from", "to"] &&
        endpointKeysKnown entry "from" && endpointKeysKnown entry "to") = true ∧
      List.Forall₂ (DescribesEdge graph') (edgeEntries document) graph'.edges := by
  unfold parseEdges at ran
  split at ran
  next absent =>
    obtain rfl : graph = graph' := by
      injection ran with same
      injection same
    have none : document.find "edges" = none := by simpa [Json.contains] using absent
    rw [edgeEntries, none, bare]
    exact ⟨built, rfl, rfl, .nil⟩
  next present =>
    obtain ⟨edges, found, -⟩ := Json.item_of_contains (by simpa using present)
    rw [run_bind_of_ok (item_run found)] at ran
    split at ran
    next => cases ran
    next kind =>
      cases edges with
      | array entries =>
        obtain ⟨built', same, known, made, rows, all⟩ := addEdgeEntries_run ran built
        rw [edgeEntries, found, rows, bare, List.nil_append]
        refine ⟨built', same, known, all.imp fun entry edge => ?_⟩
        unfold DescribesEdge getNode
        rw [same]
        exact id
      | _ => exact absurd rfl kind

theorem acyclic_of_order (formed : graph.WellFormed)
    (ordered : graph.hasCycle = false) (node : Nat) :
    ¬Relation.TransGen (Adjacent graph.edges) node node := by
  have complete : (kahn graph.outEdges graph.nodes.length (fun node => graph.inDegree node,
      (List.range graph.nodes.length).filter fun node => graph.inDegree node = 0) []).length =
      graph.nodes.length := by
    simpa [hasCycle, beq_eq_decide] using ordered
  obtain ⟨perm, forward⟩ := kahn_order (fun edge here => formed.destNode_lt here)
    graph.outEdges_count (fun _ => rfl) complete
  exact acyclic_of_forward
    (idxOf_lt_of_forward (fun edge here => formed.destNode_lt here) perm forward) node

theorem assembleGraph_run (named : registry.Names)
    (ran : (assembleGraph document registry).run = .ok (.ok graph)) :
    Described registry document graph := by
  unfold assembleGraph at ran
  split at ran
  next => cases ran
  next =>
    obtain ⟨_, checked, ran⟩ := run_bind_ok_iff.mp ran
    obtain ⟨nodes, parsed, ran⟩ := run_bind_ok_iff.mp ran
    obtain ⟨edges, parsed', ran⟩ := run_bind_ok_iff.mp ran
    split at ran
    next => cases ran
    next ordered =>
      obtain rfl : edges = graph := by
        injection ran with same
        injection same
      obtain ⟨built, bare, knownNodes, described⟩ := parseNodes_run named parsed
      obtain ⟨built', same, knownEdges, described'⟩ := parseEdges_run parsed' built bare
      have formed := built'.wellFormed
      refine ⟨?_, ?_, formed.names, described', formed.declared,
        acyclic_of_order formed (by simpa using ordered)⟩
      · rw [graphKeysKnown, checkKnownKeys_ok_iff.mp checked, knownNodes, knownEdges]
        rfl
      · rw [same]
        exact described

/-- The graph of an accepted text is the described one, with no foreign key outside `options`;
the two notations of an endpoint agree, and no other text is an endpoint. -/
theorem loader_builds_described (parser : Parser) (registry : NodeRegistry)
    (named : registry.Names) :
    (∀ text graph, (loadGraphFromJson parser registry text).run = .ok (.ok graph) →
      ∃ document, parser.parse text = .ok document ∧ Described registry document graph) ∧
    (∀ node port side index, node ≠ "" → port ≠ "" → dotFree node → dotFree port →
      (parseEndpoint (.string (node ++ "." ++ port)) side index).run = .ok (.ok (node, port)) ∧
      (parseEndpoint (.object [("node", .string node), ("port", .string port)]) side index).run =
        .ok (.ok (node, port))) ∧
    ∀ text side index, text.toList.count '.' ≠ 1 ∨ text.toList.head? = some '.' ∨
        text.toList.getLast? = some '.' →
      ∃ failure, (parseEndpoint (.string text) side index).run = .ok (.error failure) := by
  refine ⟨?_, ?_, ?_⟩
  · intro text graph ran
    obtain ⟨document, parsed, assembled⟩ := run_bind_ok_iff.mp ran
    exact ⟨document, parseDocument_ok_iff.mp parsed, assembleGraph_run named assembled⟩
  · intro node port side index some some' free free'
    refine ⟨parseEndpoint_text_run _ side index ?_, parseEndpoint_object_run node port side index⟩
    exact splitEndpoint_iff.mpr ⟨rfl, free, free', some, some'⟩
  · intro text side index fault
    exact parseEndpoint_text_refused text side index (splitEndpoint_none fault)

def parserOf (text : List UInt8) (document : Json) : Parser where
  parse other := if other = text then .ok document else .error (.parseError "syntax error")
  overflows _ := False
  throws other exception reported := by
    split at reported
    · cases reported
    · exact .inl ⟨_, (Except.error.inj reported).symm⟩
  outOfRange _ := False.elim

theorem parserOf_parse (text : List UInt8) (document : Json) :
    (parserOf text document).parse text = .ok document := if_pos rfl

def returnsValue {α : Type} (program : Load α) : Bool :=
  match program.run with
  | .ok (.ok _) => true
  | _ => false

theorem returnsValue_iff {α : Type} {program : Load α} :
    returnsValue program = true ↔ ∃ value, program.run = .ok (.ok value) := by
  unfold returnsValue
  split
  case h_1 value ran => exact ⟨fun _ => ⟨value, ran⟩, fun _ => rfl⟩
  case h_2 other => exact ⟨nofun, fun ⟨value, ran⟩ => absurd ran (other value)⟩

theorem sampleRegistry_names : sampleRegistry.Names := by
  intro typeName name config node made
  simp only [NodeRegistry.create, sampleRegistry] at made
  split at made
  next => cases made
  next factory known =>
    split at known
    · obtain rfl := Option.some.inj known
      injection made with same
      rw [← Option.some.inj same]
    · cases known

def strayOptionText : List UInt8 :=
  bytes ("\x7b\"nodes\":[\x7b\"name\":\"a\",\"type\":\"T\"\x7d]," ++
    "\"options\":\x7b\"bogus\":true\x7d\x7d")

def strayOptionDocument : Json :=
  .object [("nodes", .array [.object [("name", .string "a"), ("type", .string "T")]]),
    ("options", .object [("bogus", .boolean true)])]

def chainText : List UInt8 :=
  bytes ("\x7b\"nodes\":[\x7b\"name\":\"a\",\"type\":\"T\"\x7d," ++
    "\x7b\"name\":\"b\",\"type\":\"T\"\x7d]," ++
    "\"edges\":[\x7b\"from\":\"a.out\",\"to\":\"b.in\"\x7d]\x7d")

def chainDocument : Json :=
  .object [("nodes", .array [.object [("name", .string "a"), ("type", .string "T")],
      .object [("name", .string "b"), ("type", .string "T")]]),
    ("edges", .array [.object [("from", .string "a.out"), ("to", .string "b.in")]])]

theorem loader_builds_described_chain : ∃ graph,
    (loadGraphFromJson (parserOf chainText chainDocument) sampleRegistry chainText).run =
      .ok (.ok graph) ∧ graph.edges.length = 1 ∧ Described sampleRegistry chainDocument graph := by
  obtain ⟨graph, ran⟩ := returnsValue_iff.mp (show returnsValue (loadGraphFromJson
    (parserOf chainText chainDocument) sampleRegistry chainText) = true by decide +kernel)
  obtain ⟨document, parsed, described⟩ := (loader_builds_described
    (parserOf chainText chainDocument) sampleRegistry sampleRegistry_names).1 _ graph ran
  obtain rfl : chainDocument = document := by
    rw [parserOf_parse] at parsed
    exact Except.ok.inj parsed
  exact ⟨graph, ran, described.edges.length_eq.symm, described⟩

/-- `loadGraphFromJson` never looks into `options`. -/
theorem stray_option_accepted : ∃ parser registry text document graph,
    NodeRegistry.Names registry ∧ parser.parse text = .ok document ∧
    (loadGraphFromJson parser registry text).run = .ok (.ok graph) ∧
    optionKeysKnown document = false := by
  obtain ⟨graph, ran⟩ := returnsValue_iff.mp (show returnsValue (loadGraphFromJson
    (parserOf strayOptionText strayOptionDocument) sampleRegistry strayOptionText) = true by
      decide +kernel)
  exact ⟨parserOf strayOptionText strayOptionDocument, sampleRegistry, strayOptionText,
    strayOptionDocument, graph, sampleRegistry_names, parserOf_parse _ _, ran,
    by decide⟩

end AiPipe.Loader
