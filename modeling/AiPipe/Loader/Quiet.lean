import AiPipe.Loader.Code

/-!
The parts of the loader that raise no exception.  A program of the loader is quiet when it
ends in a `Result`; every read of the options and of the nodes follows a test of its kind.
-/

namespace AiPipe.Loader

open Nlohmann Json

variable {α β : Type}

def Quiet (program : Load α) : Prop := ∃ result, program.run = .ok result

namespace Quiet

theorem pure (value : α) : Quiet (Pure.pure value : Load α) := ⟨.ok value, rfl⟩

theorem throw (error : Error) : Quiet (MonadExcept.throw error : Load α) := ⟨.error error, rfl⟩

theorem err (message : String) : Quiet (Loader.err message : Load α) := throw _

variable {next : α → Load β}

theorem bind_iff {first : Load α} :
    Quiet (first >>= next) ↔
      Quiet first ∧ ∀ value, first.run = .ok (.ok value) → Quiet (next value) := by
  unfold Quiet
  rw [ExceptT.run_bind]
  cases first.run with
  | error exception => exact ⟨nofun, nofun⟩
  | ok result =>
    cases result with
    | error failure => exact ⟨fun _ => ⟨⟨_, rfl⟩, nofun⟩, fun _ => ⟨.error failure, rfl⟩⟩
    | ok value =>
      refine ⟨fun later => ⟨⟨_, rfl⟩, fun other same => ?_⟩, fun both => both.2 value rfl⟩
      obtain rfl : value = other := by injection same with same; injection same
      exact later

theorem bind {first : Load α} (quiet : Quiet first)
    (rest : ∀ value, first.run = .ok (.ok value) → Quiet (next value)) :
    Quiet (first >>= next) := bind_iff.mpr ⟨quiet, rest⟩

theorem read {action : Throws α} {value : α} (reads : action = .ok value)
    (rest : Quiet (next value)) : Quiet ((liftM action : Load α) >>= next) := by
  subst reads
  exact rest

theorem forM {items : List α} {each : α → Load Unit} (quiet : ∀ item ∈ items, Quiet (each item)) :
    Quiet (items.forM each) := by
  induction items with
  | nil => exact pure ()
  | cons item rest ih =>
    exact bind (quiet item (.head _)) fun _ _ =>
      ih fun other member => quiet other (.tail _ member)

theorem foldlM {items : List α} {step : β → α → Load β} {start : β}
    (quiet : ∀ state, ∀ item ∈ items, Quiet (step state item)) :
    Quiet (items.foldlM step start) := by
  induction items generalizing start with
  | nil => exact pure start
  | cons item rest ih =>
    exact bind (quiet start item (.head _)) fun _ _ =>
      ih fun state other member => quiet state other (.tail _ member)

theorem checkKnownKeys (object : Json) (what : String) (allowed : List String) :
    Quiet (Loader.checkKnownKeys object what allowed) := by
  refine forM fun item _ => ?_
  split
  · exact pure ()
  · exact err _

theorem member {value : Json} {key : String} {next : Json → Load β}
    (present : value.contains key = true)
    (rest : ∀ found, value.find key = some found → Quiet (next found)) :
    Quiet ((liftM (value.item key) : Load Json) >>= next) := by
  obtain ⟨found, same, reads⟩ := item_of_contains present
  exact read reads (rest found same)

theorem vector {elements : List Json} {kind : Json → Bool} {get : Json → Throws α}
    {next : List α → Load β} (all : elements.all kind = true)
    (gets : ∀ element, kind element = true → ∃ value, get element = .ok value)
    (rest : ∀ values, Quiet (next values)) :
    Quiet ((liftM ((Json.array elements).getVector get) : Load (List α)) >>= next) := by
  obtain ⟨values, reads⟩ := getVector_ok fun element here =>
    gets element (List.all_eq_true.mp all element here)
  exact read reads (rest values)

theorem setArrayParam (config : Params) (key : String) (elements : List Json)
    {fail : String → Load Params} (fails : ∀ reason, Quiet (fail reason)) :
    Quiet (Loader.setArrayParam config fail key (.array elements)) := by
  unfold Loader.setArrayParam
  dsimp only
  split
  · exact fails _
  split
  case isTrue strings => exact vector strings (fun _ => getString_ok) fun _ => pure _
  split
  case isTrue ints => exact vector ints (fun _ => getInt64_ok) fun _ => pure _
  split
  case isTrue numbers => exact vector numbers (fun _ => getDouble_ok) fun _ => pure _
  · exact fails _

theorem setConfigParam (config : Params) (name key : String) (value : Json) :
    Quiet (Loader.setConfigParam config name key value) := by
  cases value with
  | boolean | integer | float | string => exact read rfl (pure _)
  | unsigned value =>
    refine read rfl ?_
    split
    · exact err _
    · exact read rfl (pure _)
  | array elements => exact setArrayParam config key elements fun _ => err _
  | null | object => exact err _

variable (value : Json) (key : String)

theorem parseUintOption (min max : Nat) : Quiet (Loader.parseUintOption value key min max) := by
  unfold Loader.parseUintOption
  split
  · exact err _
  case isFalse integer =>
    have kind : value.isNumberInteger = true := by
      cases value with
      | integer | unsigned => rfl
      | _ => exact absurd rfl integer
    obtain ⟨signed, readsSigned⟩ := getInt64_ok kind
    obtain ⟨unsigned, readsUnsigned⟩ := getUint64_ok kind
    refine read readsSigned ?_
    split
    · exact err _
    refine read readsUnsigned ?_
    split
    · exact err _
    · exact pure _

theorem withOption (source : Json) (key : String) (options : PipelineOptions)
    {change : Json → Load PipelineOptions} (changes : ∀ value, Quiet (change value)) :
    Quiet (Loader.withOption source key options change) := by
  unfold Loader.withOption
  split
  case isTrue present => exact member present fun found _ => changes found
  · exact pure options

theorem stringOption : Quiet (Loader.stringOption value key) := by
  unfold Loader.stringOption
  split
  · exact err _
  case isFalse kind =>
    obtain ⟨text, reads⟩ := getString_ok (by simpa using kind)
    exact ⟨.ok text, by rw [reads]; rfl⟩

theorem booleanOption : Quiet (Loader.booleanOption value key) := by
  unfold Loader.booleanOption
  split
  · exact err _
  case isFalse kind =>
    obtain ⟨flag, reads⟩ := getBool_ok (by simpa using kind)
    exact ⟨.ok flag, by rw [reads]; rfl⟩

theorem parseMode (mode : String) : Quiet (Loader.parseMode mode) := by
  unfold Loader.parseMode
  split
  · exact pure _
  split
  · exact pure _
  · exact err _

theorem parseAlignmentPolicy (policy : String) : Quiet (Loader.parseAlignmentPolicy policy) := by
  unfold Loader.parseAlignmentPolicy
  split
  · exact pure _
  split
  · exact pure _
  split
  · exact pure _
  · exact err _

theorem parseJoinTimeoutPolicy (policy : String) :
    Quiet (Loader.parseJoinTimeoutPolicy policy) := by
  unfold Loader.parseJoinTimeoutPolicy
  split
  · exact pure _
  split
  · exact pure _
  · exact err _

theorem overrideOptions (source : Json) (options : PipelineOptions) :
    Quiet (Loader.overrideOptions source options) := by
  have uint (options : PipelineOptions) (key : String) (min max : Nat)
      (change : Nat → PipelineOptions) :
      Quiet (Loader.withOption source key options fun value => do
        return change (← Loader.parseUintOption value key min max)) :=
    withOption source key options fun value =>
      bind (parseUintOption value key min max) fun _ _ => pure _
  have boolean (options : PipelineOptions) (key : String) (change : Bool → PipelineOptions) :
      Quiet (Loader.withOption source key options fun value => do
        return change (← Loader.booleanOption value key)) :=
    withOption source key options fun value => bind (booleanOption value key) fun _ _ => pure _
  refine bind (uint _ _ _ _ _) fun options _ => ?_
  refine bind (uint _ _ _ _ _) fun options _ => ?_
  refine bind (uint _ _ _ _ _) fun options _ => ?_
  refine bind ?_ fun options _ => bind (boolean _ _ _) fun options _ => ?_
  · exact withOption _ _ _ fun value => bind (stringOption value _) fun _ _ => pure _
  refine bind (boolean _ _ _) fun options _ => ?_
  refine bind ?_ fun options _ => bind (uint _ _ _ _ _) fun options _ => ?_
  · exact withOption _ _ _ fun value => bind (stringOption value _) fun policy _ =>
      bind (parseAlignmentPolicy policy) fun _ _ => pure _
  refine bind (uint _ _ _ _ _) fun options _ => ?_
  exact withOption _ _ _ fun value => bind (stringOption value _) fun policy _ =>
    bind (parseJoinTimeoutPolicy policy) fun _ _ => pure _

theorem parseOptions (document : Json) : Quiet (Loader.parseOptions document) := by
  unfold Loader.parseOptions
  split
  · exact pure _
  case isFalse present =>
    refine member (by simpa using present) fun source _ => ?_
    split
    · exact err _
    refine bind (checkKnownKeys _ _ _) fun _ _ => ?_
    refine bind ?_ fun options _ => overrideOptions source options
    exact withOption _ _ _ fun value => bind (stringOption value _) fun mode _ => parseMode mode

theorem stringMember (entry : Json) (key : String) : Quiet (Loader.stringMember entry key) := by
  unfold Loader.stringMember
  split
  · exact pure _
  case isFalse present =>
    refine member (by simpa using present) fun value _ => ?_
    split
    case isTrue kind =>
      obtain ⟨text, reads⟩ := getString_ok kind
      exact read reads (pure _)
    · exact pure _

theorem parseConfig (name : String) (entry : Json) : Quiet (Loader.parseConfig name entry) := by
  unfold Loader.parseConfig
  split
  · exact pure _
  case isFalse present =>
    refine member (by simpa using present) fun source _ => ?_
    split
    · exact err _
    · exact foldlM fun config item _ => setConfigParam config name item.1 item.2

variable (registry : NodeRegistry)

theorem createNode (graph : Graph) (typeName name : String)
    (config : Params) : Quiet (Loader.createNode registry graph typeName name config) := by
  unfold Loader.createNode
  split
  · exact err _
  split
  · exact err _
  · exact pure _

theorem addNodeEntry (graph : Graph) (entry : Json) :
    Quiet (Loader.addNodeEntry registry graph entry) := by
  unfold Loader.addNodeEntry
  split
  · exact err _
  refine bind (checkKnownKeys _ _ _) fun _ _ => bind (stringMember _ _) fun typeName _ =>
    bind (stringMember _ _) fun name _ => ?_
  split
  · split
    · exact err _
    · exact bind (parseConfig _ _) fun config _ => createNode _ _ _ _ _
  · exact err _

theorem parseNodes (document : Json) : Quiet (Loader.parseNodes registry document) := by
  unfold Loader.parseNodes
  split
  · exact err _
  case isFalse present =>
    refine member (by simpa using present) fun nodes _ => ?_
    split
    · exact err _
    · exact foldlM fun graph entry _ => addNodeEntry registry graph entry

end Quiet

end AiPipe.Loader
