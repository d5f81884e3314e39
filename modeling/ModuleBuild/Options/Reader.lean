import ModuleBuild.Json.Parser
import ModuleBuild.Options.Basic
import ModuleBuild.Error

/-!
# Reading options

Options as JSON. A record is an object, in which no known name may come twice, or an array of its
fields in order, in which fields may be missing at the end. Only optional fields may be `null`.

## Main definitions

* `PluginOptions.ofText`, `PluginOptions.ofFile` — the options of a bundler plugin.
* `CompilerOptions.ofJson?` — the options of one compile.
* `PluginItem.ofJson?` — an entry of a plugin list.
-/

namespace ModuleBuild

namespace Json

/-- The fields of a record, by name; an array gives them in the order of `names`. -/
def record? (names : List String) : Json → Option (List (String × Json))
  | object ms => some ms
  | array xs => if xs.length ≤ names.length then some (names.zip xs) else none
  | _ => none

/-- The field of a record as `read` sees it, and `fallback` where it is missing. It may not come
twice. -/
def field {α : Type} (ms : List (String × Json)) (name : String) (fallback : α)
    (read : Json → Option α) : Option α :=
  match ms.filter (·.1 == name) with
  | [] => some fallback
  | [(_, x)] => read x
  | _ => none

/-- Reads a value that may be `null`. -/
def optional {α : Type} (read : Json → Option α) : Json → Option (Option α)
  | null => some none
  | x => (read x).map some

/-- Reads every element of an array. -/
def list {α : Type} (read : Json → Option α) (x : Json) : Option (List α) := do
  (← x.items?).mapM read

end Json

open Json

/-- A kind of source, in lower case. -/
def SourceKind.ofJson? : Json → Option SourceKind
  | .text "module" => some .module
  | .text "script" => some .script
  | .object [("module", .null)] => some .module
  | .object [("script", .null)] => some .script
  | _ => none

/-- A name, or a pair of a name and any value. -/
def PluginSpec.ofJson? : Json → Option PluginSpec
  | .text name => some ⟨name, none⟩
  | .array [.text name, options] => some ⟨name, some options⟩
  | _ => none

/-- An entry of a plugin list. -/
def PluginItem.ofJson? (x : Json) : Option PluginItem :=
  (PluginSpec.ofJson? x).map .named

/-- A path. -/
def Path.ofJson? (x : Json) : Option Path :=
  x.text?.map .mk

namespace CompilerOptions

/-- The fields of the options of a compile, in order. -/
def fieldNames : List String :=
  ["filename", "root", "configFile", "sourceType", "plugins", "presets", "only", "ignore", "minify"]

/-- The options in the fields of a record. -/
def ofFields? (ms : List (String × Json)) : Option CompilerOptions := do
  let filename ← field ms "filename" none (optional Path.ofJson?)
  let root ← field ms "root" none (optional Path.ofJson?)
  let configFile ← field ms "configFile" none (optional flag?)
  let sourceType ← field ms "sourceType" none (optional SourceKind.ofJson?)
  let plugins ← field ms "plugins" [] (list PluginItem.ofJson?)
  let presets ← field ms "presets" [] (list PluginItem.ofJson?)
  let only ← field ms "only" [] (list text?)
  let ignore ← field ms "ignore" [] (list text?)
  let minify ← field ms "minify" false flag?
  return { filename, root, configFile, sourceType, plugins, presets, only, ignore, minify }

/-- The options of a compile that stand alone. -/
def ofJson? (x : Json) : Option CompilerOptions := do
  ofFields? (← record? fieldNames x)

end CompilerOptions

/-- What a record says about the caller. -/
def CallerOverrides.ofJson? (x : Json) : Option CallerOverrides := do
  let ms ← record?
    ["name", "supportsStaticESM", "supportsDynamicImport", "supportsTopLevelAwait"] x
  let name ← field ms "name" none (optional text?)
  let staticModules ← field ms "supportsStaticESM" none (optional flag?)
  let dynamicImport ← field ms "supportsDynamicImport" none (optional flag?)
  let topLevelAwait ← field ms "supportsTopLevelAwait" none (optional flag?)
  return { name, staticModules, dynamicImport, topLevelAwait }

namespace PluginOptions

/-- The options in an object. The options of the compile stand beside those of the plugin. -/
def ofJson? (x : Json) : Option PluginOptions := do
  let ms ← x.members?
  let extensions ← field ms "extensions" none (optional (list text?))
  let included ← field ms "include" none (optional (list text?))
  let excluded ← field ms "exclude" none (optional (list text?))
  let externalHelpers ← field ms "externalHelpers" false flag?
  let externalHelpersWhitelist ← field ms "externalHelpersWhitelist" none (optional (list text?))
  let runtimeHelpers ← field ms "runtimeHelpers" false flag?
  let allowAllFormats ← field ms "allowAllFormats" false flag?
  let sourceMapFlags ← ["sourcemap", "sourcemaps", "sourceMap", "sourceMaps"].mapM fun name =>
    field ms name none (optional flag?)
  let caller ← field ms "caller" {} CallerOverrides.ofJson?
  let compiler ← CompilerOptions.ofFields? ms
  return { extensions, included, excluded, externalHelpers, externalHelpersWhitelist,
           runtimeHelpers, allowAllFormats, sourceMapFlags, caller, compiler }

/-- The options that a text holds. -/
def ofText (content : String) : Except PluginError PluginOptions :=
  match (Json.parse? content).bind ofJson? with
  | some options => .ok options
  | none => .error (.config .json)

/-- The options that a file holds. -/
def ofFile (files : FileTree) (path : Path) : Except PluginError PluginOptions :=
  match files.readText path with
  | .error e => .error (.file e)
  | .ok content =>
    match (Json.parse? content).bind ofJson? with
    | some options => .ok options
    | none => .error (.config (.jsonFile path))

end PluginOptions

end ModuleBuild
