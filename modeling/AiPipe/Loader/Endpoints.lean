import AiPipe.Loader.Quiet

/-!
Which texts make the loader throw: the `port` of an endpoint object is read as a text before its
kind is tested, and the report of a number out of range is not caught.
-/

namespace AiPipe.Loader

open Nlohmann Json ExceptT

variable {α β : Type} {next : α → Load β} {first : Load α}

theorem run_bind_ok_iff {value : β} :
    (first >>= next).run = .ok (.ok value) ↔
      ∃ middle, first.run = .ok (.ok middle) ∧ (next middle).run = .ok (.ok value) := by
  rw [run_bind]
  cases first.run with
  | error exception => exact ⟨nofun, nofun⟩
  | ok result =>
    cases result with
    | error failure => exact ⟨nofun, nofun⟩
    | ok middle =>
      refine ⟨fun later => ⟨middle, rfl, later⟩, fun ⟨other, same, later⟩ => ?_⟩
      obtain rfl : middle = other := by injection same with same; injection same
      exact later

theorem run_bind_of_ok {value : α}
    (ran : first.run = .ok (.ok value)) : (first >>= next).run = (next value).run := by
  rw [run_bind, ran]
  rfl

theorem quiet_bind_of_ok {value : α}
    (ran : first.run = .ok (.ok value)) : Quiet (first >>= next) ↔ Quiet (next value) := by
  rw [Quiet, run_bind_of_ok ran, Quiet]

theorem item_run {value found : Json} {key : String} (here : value.find key = some found) :
    (liftM (value.item key) : Load Json).run = .ok (.ok found) := by
  cases value with
  | object entries =>
    rw [Json.find] at here
    rw [item, here]
    rfl
  | _ => cases here

theorem find_string_of_any {value : Json} {key : String}
    (kind : (value.find key).any Json.isString = true) :
    ∃ text, value.find key = some (.string text) := by
  cases found : value.find key with
  | none => rw [found] at kind; cases kind
  | some member =>
    rw [found] at kind
    cases member with
    | string text => exact ⟨text, rfl⟩
    | _ => cases kind

def knownKeys (object : Json) (allowed : List String) : Bool :=
  object.items.all fun item => allowed.contains item.1

theorem checkKnownKeys_ok_iff {object : Json} {what : String} {allowed : List String} :
    (checkKnownKeys object what allowed).run = .ok (.ok ()) ↔ knownKeys object allowed = true := by
  unfold checkKnownKeys knownKeys
  induction object.items with
  | nil => exact ⟨fun _ => rfl, fun _ => rfl⟩
  | cons item rest ih =>
    rw [List.all_cons, Bool.and_eq_true, ← ih]
    refine run_bind_ok_iff.trans ⟨?_, ?_⟩
    · rintro ⟨_, first, later⟩
      dsimp only at first
      split at first
      case isTrue known => exact ⟨known, later⟩
      · cases first
    · rintro ⟨known, later⟩
      exact ⟨(), congrArg run (if_pos known), later⟩

/-- An endpoint object that passes every test before its `port` is read, with a `port` that
is not a text. -/
def misreadEndpoint (endpoint : Json) : Bool :=
  endpoint.isObject && knownKeys endpoint ["node", "port"] &&
    (endpoint.find "node").any Json.isString && !(endpoint.find "port").all Json.isString

def wellFormedEndpoint (endpoint : Json) : Bool :=
  match endpoint with
  | .string text => (splitEndpoint text).isSome
  | .object _ => knownKeys endpoint ["node", "port"] &&
      (endpoint.find "node").any Json.isString && (endpoint.find "port").all Json.isString
  | _ => false

def misreadEntry (entry : Json) : Bool :=
  entry.isObject && knownKeys entry ["from", "to"] &&
    (entry.find "from").any fun source => (entry.find "to").any fun dest =>
      misreadEndpoint source || wellFormedEndpoint source && misreadEndpoint dest

/-! An endpoint is misread, well formed or refused. -/

variable {endpoint : Json} {place name : String}

section

variable (known : knownKeys endpoint ["node", "port"] = true)
include known

section

variable (named : endpoint.find "node" = some (.string name))
include named

theorem parseEndpointObject_named :
    (parseEndpointObject endpoint place).run = ExceptT.run (show Load (String × String) from do
      let port ← endpoint.valueOr "port" ""
      if !endpoint.contains "port" then
        return (name, port)
      else if !(← endpoint.item "port").isString then
        err (place ++ ": 'port' must be a string")
      else
        return (name, port)) := by
  have present : endpoint.contains "node" = true := by rw [contains, named]; rfl
  obtain ⟨node, same, reads⟩ := item_of_contains present
  obtain rfl : string name = node := Option.some.inj (named.symm.trans same)
  unfold parseEndpointObject
  rw [run_bind_of_ok (checkKnownKeys_ok_iff.mpr known), present, reads]
  rfl

theorem parseEndpointObject_reads (port : (endpoint.find "port").all Json.isString = true) :
    ∃ parts, (parseEndpointObject endpoint place).run = .ok (.ok parts) := by
  rw [parseEndpointObject_named known named]
  cases endpoint with
  | object entries =>
    rw [Json.find] at port
    cases found : entries.lookup "port" with
    | none =>
      refine ⟨(name, ""), ?_⟩
      simp only [valueOr, contains, Json.find, found]
      rfl
    | some value =>
      rw [found] at port
      cases value with
      | string text =>
        refine ⟨(name, text), ?_⟩
        simp only [valueOr, contains, Json.find, item, found]
        rfl
      | _ => cases port
  | _ => cases named

theorem parseEndpointObject_throws (port : (endpoint.find "port").all Json.isString = false) :
    (parseEndpointObject endpoint place).run = .error .typeError := by
  rw [parseEndpointObject_named known named]
  cases endpoint with
  | object entries =>
    rw [Json.find] at port
    cases found : entries.lookup "port" with
    | none => rw [found] at port; cases port
    | some value =>
      rw [found] at port
      simp only [valueOr, found]
      cases value with
      | string => cases port
      | _ => rfl
  | _ => cases named

end

end

theorem parseEndpointObject_refuses {place : String}
    (fault : knownKeys endpoint ["node", "port"] = true →
      (endpoint.find "node").any Json.isString = false) :
    ∃ failure, (parseEndpointObject endpoint place).run = .ok (.error failure) := by
  obtain ⟨checked, ran⟩ := Quiet.checkKnownKeys endpoint place ["node", "port"]
  cases checked with
  | error failure =>
    refine ⟨failure, ?_⟩
    unfold parseEndpointObject
    rw [run_bind, ran]
    rfl
  | ok =>
    have unnamed := fault (checkKnownKeys_ok_iff.mp ran)
    refine ⟨⟨.invalidConfiguration, place ++ ": object form requires a string 'node'", ""⟩, ?_⟩
    unfold parseEndpointObject
    rw [run_bind_of_ok ran]
    by_cases present : endpoint.contains "node" = true
    · obtain ⟨node, same, reads⟩ := item_of_contains present
      rw [same, Option.any_some] at unnamed
      rw [present, reads, if_neg (by decide)]
      change run (if !node.isString then _ else _) = _
      rw [unnamed]
      rfl
    · rw [if_pos (by simpa using present)]
      rfl

inductive EndpointEnds (endpoint : Json) (program : Load (String × String)) : Prop where
  | misread (misread : misreadEndpoint endpoint = true)
      (formed : wellFormedEndpoint endpoint = false) (ran : program.run = .error .typeError)
  | accepted (misread : misreadEndpoint endpoint = false)
      (formed : wellFormedEndpoint endpoint = true) (ran : ∃ parts, program.run = .ok (.ok parts))
  | refused (misread : misreadEndpoint endpoint = false)
      (formed : wellFormedEndpoint endpoint = false)
      (ran : ∃ failure, program.run = .ok (.error failure))

theorem parseEndpoint_split (text side : String) (index : Nat) : ∃ failure,
    (parseEndpoint (.string text) side index).run =
      .ok ((splitEndpoint text).elim (.error failure) .ok) := by
  simp only [parseEndpoint, isString, if_true]
  rw [run_bind_of_ok
    (show (liftM (string text).getString : Load String).run = .ok (.ok text) from rfl)]
  cases splitEndpoint text with
  | none => exact ⟨_, rfl⟩
  | some parts => exact ⟨⟨.invalidConfiguration, "", ""⟩, rfl⟩

theorem parseEndpoint_text (text side : String) (index : Nat) :
    EndpointEnds (.string text) (parseEndpoint (.string text) side index) := by
  obtain ⟨failure, ran⟩ := parseEndpoint_split text side index
  cases split : splitEndpoint text with
  | none =>
    rw [split] at ran
    exact .refused rfl (by rw [wellFormedEndpoint, split]; rfl) ⟨failure, ran⟩
  | some parts =>
    rw [split] at ran
    exact .accepted rfl (by rw [wellFormedEndpoint, split]; rfl) ⟨parts, ran⟩

theorem parseEndpoint_object (entries : List (String × Json)) (side : String) (index : Nat) :
    EndpointEnds (.object entries) (parseEndpoint (.object entries) side index) := by
  change EndpointEnds _ (parseEndpointObject (.object entries) _)
  cases known : knownKeys (.object entries) ["node", "port"] with
  | false =>
    refine .refused ?_ ?_ (parseEndpointObject_refuses fun passed => ?_)
    · rw [misreadEndpoint, known]; rfl
    · rw [wellFormedEndpoint, known]; rfl
    · cases known.symm.trans passed
  | true =>
    cases named : ((object entries).find "node").any isString with
    | false =>
      refine .refused ?_ ?_ (parseEndpointObject_refuses fun _ => named)
      · rw [misreadEndpoint, known, named]; rfl
      · rw [wellFormedEndpoint, known, named]; rfl
    | true =>
      obtain ⟨name, found⟩ := find_string_of_any named
      cases port : ((object entries).find "port").all isString with
      | false =>
        refine .misread ?_ ?_ (parseEndpointObject_throws known found port)
        · rw [misreadEndpoint, known, named, port]; rfl
        · rw [wellFormedEndpoint, known, named, port]; rfl
      | true =>
        refine .accepted ?_ ?_ (parseEndpointObject_reads known found port)
        · rw [misreadEndpoint, known, named, port]; rfl
        · rw [wellFormedEndpoint, known, named, port]; rfl

theorem parseEndpoint_ends (endpoint : Json) (side : String) (index : Nat) :
    EndpointEnds endpoint (parseEndpoint endpoint side index) := by
  cases endpoint with
  | string text => exact parseEndpoint_text text side index
  | object entries => exact parseEndpoint_object entries side index
  | _ => exact .refused rfl rfl ⟨_, rfl⟩

variable {index : Nat}

theorem quiet_parseEndpoint_iff {side : String} :
    Quiet (parseEndpoint endpoint side index) ↔ misreadEndpoint endpoint = false := by
  cases parseEndpoint_ends endpoint side index with
  | misread misread formed ran =>
    refine ⟨fun ⟨result, other⟩ => ?_, fun never => ?_⟩
    · cases ran.symm.trans other
    · cases misread.symm.trans never
  | _ misread formed ran => exact ⟨fun _ => misread, fun _ => ran.imp' _ fun _ => id⟩

theorem parseEndpoint_accepts_iff (endpoint : Json) (side : String) (index : Nat) :
    (∃ parts, (parseEndpoint endpoint side index).run = .ok (.ok parts)) ↔
      wellFormedEndpoint endpoint = true := by
  cases parseEndpoint_ends endpoint side index with
  | misread misread formed ran =>
    refine ⟨fun ⟨parts, other⟩ => ?_, fun accepted => ?_⟩
    · cases ran.symm.trans other
    · cases formed.symm.trans accepted
  | accepted misread formed ran => exact ⟨fun _ => formed, fun _ => ran⟩
  | refused misread formed ran =>
    refine ⟨fun ⟨parts, other⟩ => ?_, fun accepted => ?_⟩
    · obtain ⟨failure, ran⟩ := ran
      cases ran.symm.trans other
    · cases formed.symm.trans accepted

theorem quiet_endpoints_iff {entry source dest : Json}
    {next : String × String → String × String → Load β}
    (rest : ∀ ends ends', Quiet (next ends ends'))
    (here : entry.find "from" = some source) (there : entry.find "to" = some dest) :
    Quiet (do
        let ends ← parseEndpoint (← entry.item "from") "from" index
        let ends' ← parseEndpoint (← entry.item "to") "to" index
        next ends ends') ↔
      (misreadEndpoint source || wellFormedEndpoint source && misreadEndpoint dest) = false := by
  have second (ends : String × String) :
      Quiet (do
        let ends' ← parseEndpoint (← entry.item "to") "to" index
        next ends ends') ↔ misreadEndpoint dest = false := by
    rw [quiet_bind_of_ok (item_run there), Quiet.bind_iff, quiet_parseEndpoint_iff]
    exact and_iff_left fun _ _ => rest _ _
  rw [quiet_bind_of_ok (item_run here), Quiet.bind_iff, quiet_parseEndpoint_iff]
  rw [Bool.or_eq_false_iff, Bool.and_eq_false_imp, ← parseEndpoint_accepts_iff source "from" index]
  refine and_congr_right fun _ => ⟨fun each ⟨parts, ran⟩ => ?_, fun all parts ran => ?_⟩
  · exact (second parts).mp (each parts ran)
  · exact (second parts).mpr (all ⟨parts, ran⟩)

variable {graph : Graph}

theorem quiet_addEdgeEntry_iff {entry : Json} :
    Quiet (addEdgeEntry graph index entry) ↔ misreadEntry entry = false := by
  unfold addEdgeEntry misreadEntry
  dsimp only
  cases kind : entry.isObject with
  | false => exact ⟨fun _ => rfl, fun _ => .err _⟩
  | true =>
  cases known : knownKeys entry ["from", "to"] with
  | false =>
    refine ⟨fun _ => rfl, fun _ => .bind (.checkKnownKeys _ _ _) fun _ passed => ?_⟩
    cases known.symm.trans (checkKnownKeys_ok_iff.mp passed)
  | true =>
  rw [if_neg (by decide), quiet_bind_of_ok (checkKnownKeys_ok_iff.mpr known)]
  cases here : entry.find "from" with
  | none =>
    rw [if_pos (by rw [contains, here]; rfl)]
    exact ⟨fun _ => rfl, fun _ => .err _⟩
  | some source =>
  cases there : entry.find "to" with
  | none =>
    rw [if_pos (by rw [contains, contains, here, there]; rfl)]
    exact ⟨fun _ => rfl, fun _ => .err _⟩
  | some dest =>
  rw [if_neg (by rw [contains, contains, here, there]; exact Bool.false_ne_true)]
  refine (quiet_endpoints_iff (fun ends ends' => ?_) here there).trans ?_
  · split
    · exact .err _
    · exact .pure _
  · rfl

theorem quiet_addEdgeEntries_iff {entries : List Json} :
    Quiet (addEdgeEntries graph entries) ↔
      ∀ before entry after reached, entries = before ++ entry :: after →
        (addEdgeEntries graph before).run = .ok (.ok reached) → misreadEntry entry = false := by
  unfold addEdgeEntries
  generalize 0 = start
  induction entries generalizing graph start with
  | nil =>
    refine ⟨fun _ before entry after reached same => ?_, fun _ => .pure graph⟩
    exact absurd same.symm (by simp)
  | cons entry rest ih =>
    rw [List.zipIdx_cons, List.foldlM_cons, Quiet.bind_iff, quiet_addEdgeEntry_iff]
    constructor
    · rintro ⟨first, later⟩ before other after reached same ran
      cases before with
      | nil => exact (List.cons.inj same).1 ▸ first
      | cons head before =>
        obtain ⟨rfl, others⟩ := List.cons.inj same
        rw [List.zipIdx_cons, List.foldlM_cons] at ran
        obtain ⟨middle, one, ran⟩ := run_bind_ok_iff.mp ran
        exact (ih _).mp (later middle one) before other after reached others ran
    · intro each
      refine ⟨each [] entry rest graph rfl rfl, fun middle one => (ih _).mpr ?_⟩
      intro before other after reached same ran
      refine each (entry :: before) other after reached (by rw [same]; rfl) ?_
      rw [List.zipIdx_cons, List.foldlM_cons]
      exact run_bind_ok_iff.mpr ⟨middle, one, ran⟩

def Reached (registry : NodeRegistry) (document entry : Json) : Prop :=
  document.isObject = true ∧ knownKeys document ["nodes", "edges", "options"] = true ∧
    ∃ nodes graph before after,
      (parseNodes registry document).run = .ok (.ok nodes) ∧
      document.find "edges" = some (.array (before ++ entry :: after)) ∧
      (addEdgeEntries nodes before).run = .ok (.ok graph)

variable {document : Json}

theorem quiet_parseEdges_iff :
    Quiet (parseEdges document graph) ↔
      ∀ before entry after reached,
        document.find "edges" = some (.array (before ++ entry :: after)) →
        (addEdgeEntries graph before).run = .ok (.ok reached) → misreadEntry entry = false := by
  unfold parseEdges
  cases here : document.find "edges" with
  | none =>
    rw [if_pos (by rw [contains, here]; rfl)]
    exact ⟨fun _ _ _ _ _ => nofun, fun _ => .pure graph⟩
  | some edges =>
    rw [if_neg (by rw [contains, here]; exact Bool.false_ne_true), quiet_bind_of_ok (item_run here)]
    cases edges with
    | array entries =>
      refine quiet_addEdgeEntries_iff.trans ?_
      simp only [Option.some.injEq, array.injEq]
      rfl
    | _ => exact ⟨fun _ _ _ _ _ => nofun, fun _ => .err _⟩

variable {registry : NodeRegistry}

theorem quiet_assembleGraph_iff :
    Quiet (assembleGraph document registry) ↔
      ∀ entry, Reached registry document entry → misreadEntry entry = false := by
  unfold assembleGraph Reached
  cases kind : document.isObject with
  | false => exact ⟨fun _ _ => nofun, fun _ => .err _⟩
  | true =>
  cases known : knownKeys document ["nodes", "edges", "options"] with
  | false =>
    refine ⟨fun _ _ => nofun, fun _ => .bind (.checkKnownKeys _ _ _) fun _ passed => ?_⟩
    cases known.symm.trans (checkKnownKeys_ok_iff.mp passed)
  | true =>
  rw [if_neg (by decide), quiet_bind_of_ok (checkKnownKeys_ok_iff.mpr known), Quiet.bind_iff]
  have rest (graph : Graph) :
      Quiet (do
        let graph ← parseEdges document graph
        if graph.hasCycle then
          throw ⟨.graphCycleDetected, "The described graph contains a cycle", ""⟩
        else
          return graph : Load Graph) ↔ Quiet (parseEdges document graph) := by
    refine Quiet.bind_iff.trans (and_iff_left fun graph _ => ?_)
    split
    · exact .throw _
    · exact .pure _
  constructor
  · rintro ⟨-, later⟩ entry ⟨-, -, nodes, graph, before, after, parsed, here, ran⟩
    have edges := (rest nodes).mp (later nodes parsed)
    exact quiet_parseEdges_iff.mp edges before entry after graph here ran
  · intro each
    refine ⟨.parseNodes registry document, fun nodes parsed => (rest nodes).mpr ?_⟩
    refine quiet_parseEdges_iff.mpr fun before entry after graph here ran => ?_
    exact each entry ⟨rfl, rfl, nodes, graph, before, after, parsed, here, ran⟩

variable {text : List UInt8} {parser : Parser}

theorem quiet_parseDocument_iff : Quiet (parseDocument parser text) ↔ ¬parser.overflows text := by
  unfold parseDocument
  constructor
  · rintro ⟨result, ran⟩ overflow
    rw [parser.outOfRange text overflow] at ran
    cases ran
  · intro finite
    split
    · exact .pure _
    · exact .err _
    case h_3 exception other reported =>
      rcases parser.throws text exception reported with ⟨what, rfl⟩ | ⟨-, overflow⟩
      · exact absurd rfl (other what)
      · exact absurd overflow finite

theorem parseDocument_ok_iff :
    (parseDocument parser text).run = .ok (.ok document) ↔ parser.parse text = .ok document := by
  unfold parseDocument
  constructor
  · intro parsed
    split at parsed
    case h_1 found here =>
      obtain rfl : found = document := by injection parsed with same; injection same
      exact here
    · cases parsed
    · cases parsed
  · intro parsed
    rw [parsed]
    rfl

theorem quiet_loadGraph_iff :
    Quiet (loadGraphFromJson parser registry text) ↔
      ¬parser.overflows text ∧ ∀ document entry, parser.parse text = .ok document →
        Reached registry document entry → misreadEntry entry = false := by
  unfold loadGraphFromJson
  rw [Quiet.bind_iff, quiet_parseDocument_iff]
  refine and_congr_right fun _ => ⟨fun each document entry parsed => ?_, ?_⟩
  · exact quiet_assembleGraph_iff.mp (each document (parseDocument_ok_iff.mpr parsed)) entry
  · intro each document ran
    have parsed := parseDocument_ok_iff.mp ran
    exact quiet_assembleGraph_iff.mpr fun entry => each document entry parsed

theorem quiet_loadPipeline_iff :
    Quiet (loadPipelineFromJson parser registry text) ↔
      Quiet (loadGraphFromJson parser registry text) := by
  unfold loadPipelineFromJson loadGraphFromJson
  rw [Quiet.bind_iff, Quiet.bind_iff]
  refine and_congr_right fun _ => forall_congr' fun document => imp_congr_right fun _ => ?_
  refine Quiet.bind_iff.trans (and_iff_left fun graph _ => ?_)
  exact .bind (.parseOptions document) fun _ _ => .pure _

/-- Both functions return a `Result` for exactly the texts whose first fault is not a number that
overflows `double`, and that have no endpoint object with a `port` that is not a string. -/
theorem loader_returns (parser : Parser) (registry : NodeRegistry) (text : List UInt8) :
    (Quiet (loadGraphFromJson parser registry text) ∧
      Quiet (loadPipelineFromJson parser registry text)) ↔
    ¬parser.overflows text ∧ ∀ document entry, parser.parse text = .ok document →
      Reached registry document entry → misreadEntry entry = false := by
  rw [quiet_loadPipeline_iff, and_self, quiet_loadGraph_iff]

/-! Three texts, and a parser that knows them. -/

def bytes (text : String) : List UInt8 := text.toUTF8.toList

def sampleText (endpoint : String) : List UInt8 :=
  bytes ("\x7b\"edges\":[\x7b\"from\":\x7b" ++ endpoint ++ "\x7d,\"to\":\"b.in\"\x7d]," ++
    "\"nodes\":[\x7b\"name\":\"a\",\"type\":\"T\"\x7d]\x7d")

def plainText : List UInt8 := sampleText "\"node\":\"a\""

def numberedText : List UInt8 := sampleText "\"node\":\"a\",\"port\":1"

def overflowingText : List UInt8 := bytes "[1e400]"

def sampleDocument (endpoint : List (String × Json)) : Json :=
  .object [("edges", .array [.object [("from", .object endpoint), ("to", .string "b.in")]]),
    ("nodes", .array [.object [("name", .string "a"), ("type", .string "T")]])]

def plainDocument : Json := sampleDocument [("node", .string "a")]

def numberedDocument : Json := sampleDocument [("node", .string "a"), ("port", .unsigned 1)]

def sampleParser : Parser where
  parse text :=
    if text = plainText then .ok plainDocument
    else if text = numberedText then .ok numberedDocument
    else if text = overflowingText then .error .outOfRange
    else .error (.parseError "syntax error")
  overflows text := text = overflowingText
  throws text exception reported := by
    split at reported
    · cases reported
    split at reported
    · cases reported
    split at reported
    case isTrue here => exact .inr ⟨(Except.error.inj reported).symm, here⟩
    · exact .inl ⟨_, (Except.error.inj reported).symm⟩
  outOfRange text overflow := by
    subst overflow
    rw [if_neg (by decide +kernel), if_neg (by decide +kernel), if_pos rfl]

def sampleRegistry : NodeRegistry := fun typeName =>
  if typeName = "T" then
    some fun name _ => .ok (some { name := name, inputPorts := ["in"], outputPorts := ["out"] })
  else none

theorem loader_returns_plain :
    Quiet (loadGraphFromJson sampleParser sampleRegistry plainText) ∧
      Quiet (loadPipelineFromJson sampleParser sampleRegistry plainText) := by
  have finite : plainText ≠ overflowingText := by decide +kernel
  refine (loader_returns sampleParser sampleRegistry plainText).mpr ⟨finite, ?_⟩
  rintro document entry parsed ⟨-, -, nodes, graph, before, after, -, here, -⟩
  have same : (.ok plainDocument : Throws Json) = .ok document := by
    rw [← parsed]
    exact (if_pos rfl).symm
  injection same with same
  subst same
  have all : (plainDocument.find "edges").all (fun edges => edges.elements.all (!misreadEntry ·)) =
      true := by decide +kernel
  rw [here, Option.all_some] at all
  simpa using List.all_eq_true.mp all entry (List.mem_append_right before (.head after))

def throwsException (program : Load α) (exception : Exception) : Bool :=
  match program.run with
  | .error thrown => thrown == exception
  | .ok _ => false

theorem throwsException_iff {program : Load α} {exception : Exception} :
    throwsException program exception = true ↔ program.run = .error exception := by
  unfold throwsException
  split
  case h_1 thrown ran => rw [ran, beq_iff_eq, Except.error.injEq]
  case h_2 result ran => rw [ran]; exact ⟨nofun, nofun⟩

/-- A number that overflows `double`, and a `port` that is a number, make both functions
throw. -/
theorem loader_throws :
    (loadGraphFromJson sampleParser sampleRegistry overflowingText).run = .error .outOfRange ∧
      (loadPipelineFromJson sampleParser sampleRegistry overflowingText).run = .error .outOfRange ∧
      (loadGraphFromJson sampleParser sampleRegistry numberedText).run = .error .typeError ∧
      (loadPipelineFromJson sampleParser sampleRegistry numberedText).run = .error .typeError := by
  simp only [← throwsException_iff]
  decide +kernel

end AiPipe.Loader
