import Mathlib.Data.List.AList
import Mathlib.Data.List.Sort
import Mathlib.Data.String.Basic

/-!
The plugin loader and the registry that it shares with the plugins.  What foreign code does is
part of each call's input: a library that opens has run its initializers, one that does not has
run nothing, and closing one does nothing to the registry.
-/

namespace AiPipe.Plugin

open List AList

inductive ErrorCode where
  | invalidArgument
  | pluginLoadFailed
  | pluginSymbolMissing
  | pluginVersionMismatch
  deriving DecidableEq

structure Error where
  code : ErrorCode
  message : String
  deriving DecidableEq

structure PluginDescriptor where
  abiVersion : Nat
  aiPipeVersion : Nat
  name : Option String
  version : Option String := none
  provider : Option String := none
  description : Option String := none
  capabilities : Option (Nat → Option String) := none
  capabilityCount : Nat := 0

def safeString (value : Option String) : String := value.getD ""

structure LoadedPlugin where
  path : String
  name : String
  version : String
  provider : String
  description : String
  capabilities : List String
  aiPipeVersion : Nat
  registeredTypes : List String
  deriving DecidableEq

def PluginDescriptor.loaded (descriptor : PluginDescriptor) (identity : String)
    (types : List String) : LoadedPlugin where
  path := identity
  name := safeString descriptor.name
  version := safeString descriptor.version
  provider := safeString descriptor.provider
  description := safeString descriptor.description
  capabilities := (List.range descriptor.capabilityCount).map fun index =>
    safeString (descriptor.capabilities.bind (· index))
  aiPipeVersion := descriptor.aiPipeVersion
  registeredTypes := types

def kPluginAbiVersion : Nat := 2

def aiPipeVersion : Nat := 0 * 10000 + 6 * 100 + 0

def frameworkVersionCompatible (pluginVersion : Nat) : Bool :=
  pluginVersion / 100 == aiPipeVersion / 100

def versionToString (version : Nat) : String :=
  toString (version / 10000) ++ "." ++ toString (version / 100 % 100) ++ "." ++
    toString (version % 100)

abbrev Registry (φ : Type) := AList fun _ : String => φ

variable {φ : Type}

/-- A null factory is `none`. -/
def registerFactory (registry : Registry φ) (typeName : String) (factory : Option φ) :
    Except Error Unit × Registry φ :=
  match factory with
  | none => (.error ⟨.invalidArgument, "Type name and factory must be non-empty"⟩, registry)
  | some factory =>
    if typeName = "" then
      (.error ⟨.invalidArgument, "Type name and factory must be non-empty"⟩, registry)
    else if typeName ∈ registry then
      (.error ⟨.invalidArgument, "Node type already registered: " ++ typeName⟩, registry)
    else (.ok (), registry.insert typeName factory)

/-- How a call of foreign code ends; an exception that is no `std::exception` has no text. -/
inductive Ending (α : Type) where
  | returned (value : α)
  | threw (what : Option String)

/-- A call of foreign code: what it asks the registry for, and how it ends. -/
structure Foreign (φ α : Type) where
  registrations : List (String × Option φ) := []
  ending : Ending α

/-- An opened library; a symbol that it does not export is `none`. -/
structure Library (φ : Type) where
  initializers : List (String × Option φ) := []
  descriptorEntry : Option (Foreign φ (Option PluginDescriptor)) := none
  registrationEntry : Option (Foreign φ Bool) := none

structure PluginLoader (φ : Type) where
  registry : Registry φ
  plugins : List LoadedPlugin := []

namespace PluginLoader

variable (loader : PluginLoader φ)

def registers (calls : List (String × Option φ)) : PluginLoader φ :=
  { loader with
    registry := calls.foldl (fun registry call => (registerFactory registry call.1 call.2).2)
      loader.registry }

def reject (snapshot : Registry φ) (code : ErrorCode) (message : String) :
    Except Error LoadedPlugin × PluginLoader φ :=
  (.error ⟨code, message⟩, { loader with registry := snapshot })

/-- `identity` is the canonical path; a library that does not open gives the platform's reason. -/
def load (identity : String) (opened : Except String (Library φ)) :
    Except Error LoadedPlugin × PluginLoader φ :=
  if loader.plugins.any (·.path == identity) then
    (.error ⟨.invalidArgument, "Plugin already loaded: " ++ identity⟩, loader)
  else match opened with
  | .error reason => (.error ⟨.pluginLoadFailed,
      "Failed to open shared library '" ++ identity ++ "': " ++ reason⟩, loader)
  | .ok library =>
    let snapshot := loader.registry
    let loader := loader.registers library.initializers
    match library.descriptorEntry with
    | none => loader.reject snapshot .pluginSymbolMissing
        ("'" ++ identity ++ "' is not an AI Pipe plugin (missing ai_pipe_plugin_descriptor)")
    | some entry =>
      let loader := loader.registers entry.registrations
      match entry.ending with
      | .threw _ => loader.reject snapshot .pluginLoadFailed
          ("Plugin descriptor threw for '" ++ identity ++ "'")
      | .returned none => loader.reject snapshot .pluginSymbolMissing
          ("'" ++ identity ++ "' returned a null plugin descriptor")
      | .returned (some descriptor) =>
        if descriptor.abiVersion ≠ kPluginAbiVersion then
          loader.reject snapshot .pluginVersionMismatch
            ("'" ++ identity ++ "' uses plugin ABI revision " ++ toString descriptor.abiVersion ++
              ", host expects " ++ toString kPluginAbiVersion)
        else if !frameworkVersionCompatible descriptor.aiPipeVersion then
          loader.reject snapshot .pluginVersionMismatch
            ("'" ++ identity ++ "' was built against ai_pipe " ++
              versionToString descriptor.aiPipeVersion ++ ", host is " ++
              versionToString aiPipeVersion ++ " (major.minor must match)")
        else if safeString descriptor.name = "" then
          loader.reject snapshot .pluginLoadFailed
            ("'" ++ identity ++ "' has an empty plugin name")
        else if loader.plugins.any (·.name == safeString descriptor.name) then
          loader.reject snapshot .invalidArgument
            ("Plugin name already loaded: " ++ safeString descriptor.name)
        else if 0 < descriptor.capabilityCount ∧ descriptor.capabilities.isNone then
          loader.reject snapshot .pluginLoadFailed
            ("'" ++ identity ++ "' has an invalid capability array")
        else match library.registrationEntry with
        | none => loader.reject snapshot .pluginSymbolMissing
            ("'" ++ identity ++ "' is missing ai_pipe_register_plugin_v1")
        | some entry =>
          let loader := loader.registers entry.registrations
          match entry.ending with
          | .threw what => loader.reject snapshot .pluginLoadFailed
              ("Plugin registration threw for '" ++ identity ++ "'" ++
                safeString (what.map (": " ++ ·)))
          | .returned registered =>
            let types := (loader.registry.keys.filter (· ∉ snapshot)).insertionSort (· ≤ ·)
            if !registered || types.isEmpty then
              loader.reject snapshot .pluginLoadFailed
                ("Plugin registration failed or registered no node types for '" ++ identity ++ "'")
            else
              let loaded := descriptor.loaded identity types
              (.ok loaded, { loader with plugins := loader.plugins ++ [loaded] })

def unload (identity : String) : Except Error Unit × PluginLoader φ :=
  match loader.plugins.find? fun loaded => loaded.path == identity with
  | none => (.error ⟨.invalidArgument, "Plugin not loaded: " ++ identity⟩, loader)
  | some plugin => (.ok (),
      { registry := plugin.registeredTypes.foldl (fun registry type => registry.erase type)
          loader.registry
        plugins := loader.plugins.eraseP fun loaded => loaded.path == identity })

end PluginLoader

namespace PluginLoader

/-- What the registry has gained since the snapshot, while the list of plugins stands. -/
structure Grown (loader current : PluginLoader φ) : Prop where
  plugins : current.plugins = loader.plugins
  kept : ∀ type ∈ loader.registry, current.registry.lookup type = loader.registry.lookup type

def Transacts (loader : PluginLoader φ) : Except Error LoadedPlugin × PluginLoader φ → Prop
  | (.error _, after) => after = loader
  | (.ok plugin, after) => after.plugins = loader.plugins ++ [plugin] ∧
      plugin.registeredTypes.Nodup ∧ plugin.registeredTypes ≠ [] ∧
      (∀ type, type ∈ plugin.registeredTypes ↔ type ∈ after.registry ∧ type ∉ loader.registry) ∧
      ∀ type ∈ loader.registry, after.registry.lookup type = loader.registry.lookup type

def Removes (loader : PluginLoader φ) (identity : String) : Except Error Unit × PluginLoader φ → Prop
  | (.error _, after) => after = loader ∧ ∀ plugin ∈ loader.plugins, plugin.path ≠ identity
  | (.ok _, after) => ∃ front plugin back, loader.plugins = front ++ plugin :: back ∧
      plugin.path = identity ∧ after.plugins = front ++ back ∧ ∀ type,
        after.registry.lookup type =
          if type ∈ plugin.registeredTypes then none else loader.registry.lookup type

/-- The loaders that calls of `load` and `unload` lead to. -/
inductive Reached (origin : Registry φ) : PluginLoader φ → Prop
  | start : Reached origin { registry := origin }
  | load {loader : PluginLoader φ} (identity : String) (opened : Except String (Library φ)) :
      Reached origin loader → Reached origin (loader.load identity opened).2
  | unload {loader : PluginLoader φ} (identity : String) :
      Reached origin loader → Reached origin (loader.unload identity).2

/-- The types beyond the origin are those of the loaded plugins, each of them of one. -/
structure Owned (origin : Registry φ) (loader : PluginLoader φ) : Prop where
  once : (loader.plugins.flatMap (·.registeredTypes)).Nodup
  provided : ∀ type, type ∈ loader.plugins.flatMap (·.registeredTypes) ↔
    type ∈ loader.registry ∧ type ∉ origin
  kept : ∀ type ∈ origin, loader.registry.lookup type = origin.lookup type

variable {loader current : PluginLoader φ}

theorem mem_of_lookup {registry other : Registry φ} {type : String}
    (same : other.lookup type = registry.lookup type) : type ∈ other ↔ type ∈ registry := by
  rw [← lookup_isSome, same, lookup_isSome]

theorem lookup_registerFactory (registry : Registry φ) (name : String) (factory : Option φ)
    {type : String} (here : type ∈ registry) :
    (registerFactory registry name factory).2.lookup type = registry.lookup type := by
  cases factory with
  | none => rfl
  | some factory =>
    unfold registerFactory
    dsimp only
    split
    next => rfl
    next =>
      split
      next => rfl
      next free =>
        refine lookup_insert_ne ?_
        rintro rfl
        exact free here

theorem Grown.registers (grown : loader.Grown current) (calls : List (String × Option φ)) :
    loader.Grown (current.registers calls) := by
  refine ⟨grown.plugins, fun type here => ?_⟩
  have kept := grown.kept type here
  rw [← kept]
  have present : type ∈ current.registry := (mem_of_lookup kept).mpr here
  clear kept here grown
  simp only [PluginLoader.registers]
  generalize current.registry = registry at present ⊢
  induction calls generalizing registry with
  | nil => rfl
  | cons call calls ih =>
    have same := lookup_registerFactory registry call.1 call.2 present
    rw [foldl_cons, ih _ ((mem_of_lookup same).mpr present), same]

theorem Grown.reject (grown : loader.Grown current) (code : ErrorCode) (message : String) :
    loader.Transacts (current.reject loader.registry code message) := by
  change ({ current with registry := loader.registry } : PluginLoader φ) = loader
  rw [grown.plugins]

theorem load_transacts (loader : PluginLoader φ) (identity : String)
    (opened : Except String (Library φ)) : loader.Transacts (loader.load identity opened) := by
  unfold load
  split
  next => rfl
  split
  next => rfl
  next library =>
    have same : loader.Grown loader := ⟨rfl, fun _ _ => rfl⟩
    have opened := same.registers library.initializers
    dsimp only
    split
    next => exact opened.reject _ _
    next entry _ =>
      have asked := opened.registers entry.registrations
      split
      next => exact asked.reject _ _
      next => exact asked.reject _ _
      next descriptor _ =>
        -- the five tests of the descriptor
        iterate 5
          split
          next => exact asked.reject _ _
        split
        next => exact asked.reject _ _
        next entry _ =>
          have grown := asked.registers entry.registrations
          split
          next => exact grown.reject _ _
          next =>
            split
            next => exact grown.reject _ _
            next accepted =>
              simp only [Bool.or_eq_true, List.isEmpty_iff, not_or] at accepted
              refine ⟨by rw [grown.plugins], ?_, accepted.2, fun type => ?_, grown.kept⟩
              · refine (List.perm_insertionSort ..).nodup_iff.mpr ?_
                exact (keys_nodup _).filter _
              · refine (List.mem_insertionSort ..).trans ?_
                rw [List.mem_filter, decide_eq_true_eq, ← AList.mem_keys]

theorem lookup_foldl_erase (types : List String) (registry : Registry φ) (type : String) :
    (types.foldl (fun registry type => registry.erase type) registry).lookup type =
      if type ∈ types then none else registry.lookup type := by
  induction types generalizing registry with
  | nil => rfl
  | cons first types ih =>
    rw [foldl_cons, ih]
    by_cases same : type = first
    · subst same
      simp [lookup_erase]
    · simp [same, lookup_erase_ne same]

theorem unload_removes (loader : PluginLoader φ) (identity : String) :
    loader.Removes identity (loader.unload identity) := by
  unfold unload
  split
  next none =>
    refine ⟨rfl, fun plugin listed same => ?_⟩
    exact List.find?_eq_none.mp none plugin listed (beq_iff_eq.mpr same)
  next plugin found =>
    obtain ⟨path, front, back, split, others⟩ := List.find?_eq_some_iff_append.mp found
    refine ⟨front, plugin, back, split, beq_iff_eq.mp path, ?_, fun type => ?_⟩
    · dsimp only
      rw [split, eraseP_append_right _ (by simpa using others)]
      exact congrArg (front ++ ·) (eraseP_cons_of_pos path)
    · exact lookup_foldl_erase _ _ type

namespace Owned

variable {origin : Registry φ} {after : PluginLoader φ} {plugin : LoadedPlugin}

theorem load (owned : Owned origin loader) (transacts : loader.Transacts (.ok plugin, after)) :
    Owned origin after := by
  obtain ⟨plugins, distinct, -, recorded, kept⟩ := transacts
  have own (type : String) (here : type ∈ origin) : type ∈ loader.registry :=
    (mem_of_lookup (owned.kept type here)).mpr here
  refine ⟨?_, fun type => ?_, fun type here => ?_⟩
  · rw [plugins, flatMap_append, flatMap_singleton]
    refine owned.once.append distinct fun type old new => ?_
    exact ((recorded type).mp new).2 ((owned.provided type).mp old).1
  · rw [plugins, flatMap_append, flatMap_singleton, mem_append, owned.provided, recorded]
    by_cases old : type ∈ loader.registry
    · simp [old, (mem_of_lookup (kept type old)).mpr old]
    · simp [old, mt (own type) old]
  · rw [kept type (own type here), owned.kept type here]

theorem unload {identity : String} (owned : Owned origin loader)
    (removes : loader.Removes identity (.ok (), after)) : Owned origin after := by
  obtain ⟨front, plugin, back, split, -, left, lookups⟩ := removes
  have once := owned.once
  have provided := owned.provided
  simp only [split, flatMap_append, flatMap_cons] at once provided
  rw [(perm_append_comm_assoc ..).nodup_iff, ← flatMap_append] at once
  obtain ⟨-, others, apart⟩ := nodup_append'.mp once
  refine ⟨left ▸ others, fun type => ?_, fun type here => ?_⟩
  · rw [left, ← lookup_isSome, lookups]
    by_cases recorded : type ∈ plugin.registeredTypes
    · simpa [recorded] using apart recorded
    · rw [if_neg recorded, lookup_isSome, ← provided]
      simp [recorded]
  · rw [lookups, if_neg, owned.kept type here]
    intro recorded
    exact ((provided type).mp (by simp [recorded])).2 here

end Owned

theorem Reached.owned {origin : Registry φ} (reached : Reached origin loader) :
    Owned origin loader := by
  induction reached with
  | start => exact ⟨nodup_nil, fun type => by simp, fun _ _ => rfl⟩
  | @load loader identity opened _ owned =>
    have transacts := loader.load_transacts identity opened
    revert transacts
    rcases loader.load identity opened with ⟨_ | plugin, after⟩
    · rintro rfl
      exact owned
    · exact owned.load
  | @unload loader identity _ owned =>
    have removes := loader.unload_removes identity
    revert removes
    rcases loader.unload identity with ⟨_ | _, after⟩
    · rintro ⟨rfl, -⟩
      exact owned
    · exact owned.unload

/-- A load changes everything or nothing, and an unload takes back what its plugin brought. -/
theorem loading_transactional (loader : PluginLoader φ) :
    (∀ identity opened, loader.Transacts (loader.load identity opened)) ∧
      (∀ identity, loader.Removes identity (loader.unload identity)) ∧
      ∀ origin, Reached origin loader → Owned origin loader :=
  ⟨loader.load_transacts, loader.unload_removes, fun _ reached => reached.owned⟩

def detectorPack : Library Nat where
  initializers := [("acme.reader", some 3)]
  descriptorEntry := some { ending := .returned (some ⟨2, 601, "pack", none, none, none, none, 0⟩) }
  registrationEntry := some { registrations := [("acme.detector", some 4)], ending := .returned true }

theorem loading_transactional_pack : ∃ loader : PluginLoader Nat, Reached ∅ loader ∧
    loader.plugins.map (·.registeredTypes) = [["acme.detector", "acme.reader"]] ∧
    Owned ∅ loader :=
  ⟨_, .load "pack.so" (.ok detectorPack) .start, by decide +kernel,
    (loading_transactional _).2.2 _ (.load "pack.so" (.ok detectorPack) .start)⟩

end PluginLoader

end AiPipe.Plugin
