import ModuleBuild.Bundle.Chunk
import ModuleBuild.Bundle.Graph
import ModuleBuild.Bundle.Resolver
import ModuleBuild.Plugin.Input
import ModuleBuild.Plugin.Output

/-!
# Bundling entries

A bundle starts from entries. Every module that they reach is loaded and compiled by the input plugin,
all are linked, and the exports of the entries become those of the chunk. The output plugin may compile
the finished chunk once more.

## Main definitions

* `BundleConfig`, `Bundle` — what to bundle, and the result.
* `linkEntries` — links all that entries reach.
* `Graph.parts` — the parts of the chunk.
* `bundle` — bundles entries.
-/

namespace ModuleBuild

open Linking Text

/-- What to bundle. -/
structure BundleConfig where
  entries : List Path := []
  /-- The directory that the helper module refers to. -/
  basePath : Path := ⟨"."⟩
  format : OutputFormat := .es
  /-- The global variable of the formats that have one. -/
  name : Option String := none
  /-- The name of the chunk. -/
  fileName : String := "bundle.js"
  deriving DecidableEq, Inhabited, Repr

/-- The global variable unless another one is named. -/
def defaultBundleName : String := "bundle"

/-- A finished bundle. -/
structure Bundle where
  code : String
  map : Option SourceMap
  /-- The modules, in the order of the chunk. -/
  modules : List String
  deriving DecidableEq, Inhabited, Repr

variable {m : Type → Type} [Monad m]

/-! ## Linking -/

/-- Links all that entries reach; gives the identifiers of the entries. -/
def linkEntries (project : Project m) (idOf : Path → Except BundleError String) (entries : List Path) :
    Linking m (List String) := do
  let ids ← entries.mapM fun entry => do
    let id ← ofAnswer (idOf entry)
    visit project project.depth id
    return id
  set (← ofAnswer ((← get).linkHelpers project))
  return ids

/-- Adds an export of a module to exports with their top-level names and modules. -/
def addExport (id : String) (found : List (String × String × String)) (e : String × String) :
    Except BundleError (List (String × String × String)) :=
  match found.lookup e.1 with
  | some (_, first) => if first == id then .ok found else .error (.nameConflict e.1 first id)
  | none => .ok (found ++ [(e.1, e.2, id)])

/-- The exports of entries, each with its top-level name. -/
def Graph.entryExports (g : Graph) (ids : List String) : Except BundleError (List (String × String)) := do
  let found ← ids.foldlM (fun found id =>
    (sortByName (((g.module? id).map (·.exports)).getD [])).foldlM (addExport id) found) []
  return found.map fun (exported, l, _) => (exported, l)

/-- The import declarations that stay, each once, if the format can hold any. -/
def Graph.keptExternals (g : Graph) (format : OutputFormat) : Except BundleError (List String) :=
  match g.externals with
  | [] => .ok []
  | (specifier, _) :: _ =>
    if format == .es then .ok (g.externals.map (·.2)).eraseDups
    else .error (.externalImport specifier format)

/-- The parts of the chunk in which these entries come together. -/
def Graph.parts (g : Graph) (ids : List String) (format : OutputFormat) :
    Except BundleError ChunkParts := do
  let exports ← g.entryExports ids
  let externals ← g.keptExternals format
  return { externals, exports, modules := g.order.map fun id => (id, ((g.module? id).map (·.code)).getD "") }

/-! ## Plugins -/

/-- The directory of modules that are not files. -/
def virtualReferrer (basePath : Path) : Path :=
  basePath.join ⟨"<virtual>"⟩

/-- Where a specifier leads, as seen from a module. -/
def InputPlugin.target (input : InputPlugin m) (resolver : ModuleResolver) (specifier importer : String) :
    Except BundleError ImportTarget :=
  match input.resolveId specifier with
  | some id => .ok (.module id)
  | none =>
    let referrer := if ModuleFilter.isVirtual importer then virtualReferrer resolver.basePath
      else ⟨importer⟩
    match resolver.resolve? specifier referrer with
    | some path => .ok (.module path.text)
    | none => if isBare specifier then .ok .outside else .error (.unresolvedImport specifier importer)

/-- The source of a module: made by the plugin, or read from a file. -/
def InputPlugin.source (input : InputPlugin m) (files : FileTree) (id : String) :
    Except BundleError String :=
  match input.load id with
  | some code => .ok code
  | none =>
    match files.readText ⟨id⟩ with
    | .ok code => .ok code
    | .error e => .error (.file e)

/-- The compiled text of a module. -/
def InputPlugin.loadCompiled (input : InputPlugin m) (files : FileTree) (id : String) :
    StateT BuildState m (Except BundleError String) := do
  match input.source files id with
  | .error e => return .error e
  | .ok code =>
    match ← (input.transform code id).run with
    | .error e => return .error (.plugin e)
    | .ok none => return .ok code
    | .ok (some output) => return .ok output.code

/-- The files as the input plugin compiles them. -/
def InputPlugin.project (input : InputPlugin m) (read : String → Option (List Script.ModuleItem))
    (files : FileTree) (basePath : Path) : Project (StateT BuildState m) where
  load := input.loadCompiled files
  resolve := input.target (.create files basePath input.config.extensions)
  read
  helperText := (input.load helperModuleId).getD ""
  depth := files.entries.length + 2

/-- Runs a step of the output plugin, if there is one. -/
def withOutput {α : Type} (output : Option (OutputPlugin m)) (fallback : α)
    (step : OutputPlugin m → Build m α) : ExceptT BundleError (StateT BuildState m) α := do
  match output with
  | none => return fallback
  | some plugin =>
    match ← ExceptT.lift (step plugin).run with
    | .ok a => return a
    | .error e => throw (.plugin e)

/-- Bundles entries. `read` finds the statements of a text. -/
def bundle (read : String → Option (List Script.ModuleItem)) (files : FileTree) (config : BundleConfig)
    (input : InputPlugin m) (output : Option (OutputPlugin m)) :
    ExceptT BundleError (StateT BuildState m) Bundle := do
  if config.entries.isEmpty then throw .noEntries
  withOutput output () fun plugin => plugin.renderStart config.format
  let idOf (entry : Path) : Except BundleError String :=
    match files.canonical entry with
    | .ok p => .ok p.text
    | .error e => .error (.file e)
  let project := input.project read files config.basePath
  let (linked, graph) ← ExceptT.lift ((linkEntries project idOf config.entries).run.run {})
  match linked.bind fun ids => graph.parts ids config.format with
  | .error e => throw e
  | .ok parts =>
    let code := parts.render (config.name.getD defaultBundleName) config.format
    let compiled ← withOutput output none fun plugin =>
      plugin.renderChunk config.format code config.fileName
    match compiled with
    | some result => return { code := result.code, map := result.map, modules := graph.order }
    | none => return { code, map := none, modules := graph.order }

end ModuleBuild
