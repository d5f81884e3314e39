import ModuleBuild.Options.Reader
import ModuleBuild.Pattern.Parser

/-!
# Local configurations

A file `.viperrc.json` beside a source file, or in a directory above it up to the root, adds plugins,
presets and rules for the files below it.

## Main definitions

* `LocalConfig.find?` — the configuration file that applies to a file.
* `LocalConfig.ofFile` — its content.
* `LocalConfig.under` — options with a local configuration under them.
* `isExcluded` — whether the rules leave a file out.
-/

namespace ModuleBuild

open Json

/-- What a local configuration says. -/
structure LocalConfig where
  plugins : List PluginItem := []
  presets : List PluginItem := []
  only : List String := []
  ignore : List String := []
  deriving Inhabited

namespace LocalConfig

/-- The name of local configuration files. -/
def fileName : String := ".viperrc.json"

/-- The fields of a local configuration, in order. -/
def fieldNames : List String := ["plugins", "presets", "only", "ignore"]

/-- The configuration in a record without other fields. -/
def ofJson? (x : Json) : Option LocalConfig := do
  let ms ← record? fieldNames x
  if ms.any fun m => !fieldNames.contains m.1 then none
  let plugins ← field ms "plugins" [] (list PluginItem.ofJson?)
  let presets ← field ms "presets" [] (list PluginItem.ofJson?)
  let only ← field ms "only" [] (list text?)
  let ignore ← field ms "ignore" [] (list text?)
  return { plugins, presets, only, ignore }

/-- The configuration that a file holds. -/
def ofFile (files : FileTree) (path : Path) : Except CompileError LocalConfig :=
  match files.readText path with
  | .error e => .error (.file e)
  | .ok content =>
    match (Json.parse? content).bind ofJson? with
    | some config => .ok config
    | none => .error (.invalidConfigFile path)

/-- The nearest configuration file in the directories, which are searched in order up to the root. -/
def findIn? (isFile : Path → Bool) (root : Option Path) : List Path → Option Path
  | [] => none
  | directory :: above =>
    let candidate := directory.join ⟨fileName⟩
    if isFile candidate then some candidate
    else if root.any (·.same directory) then none
    else findIn? isFile root above

/-- The configuration file that applies to a file. The root itself is searched, what is above it is
not. -/
def find? (isFile : Path → Bool) (filename : Path) (root : Option Path) : Option Path :=
  findIn? isFile root filename.ancestors

/-- The options with a local configuration under them: its entries come first. -/
def under (config : LocalConfig) (options : CompilerOptions) : CompilerOptions :=
  { options with
    plugins := config.plugins ++ options.plugins
    presets := config.presets ++ options.presets
    only := config.only ++ options.only
    ignore := config.ignore ++ options.ignore }

end LocalConfig

/-- Reads the patterns of a rule; the first malformed one fails. -/
def readRules (texts : List String) : Except CompileError (List Pattern) :=
  texts.mapM fun text =>
    match Pattern.parse? text with
    | some p => .ok p
    | none => .error (.invalidOption (.pattern text))

/-- Whether the rules leave a file out: one of `ignore` occurs in its name, or there are `only` rules
and none of them does. -/
def isExcluded (filename : Path) (only ignore : List String) : Except CompileError Bool := do
  if (← readRules ignore).any (·.occursIn filename.text) then return true
  let only ← readRules only
  return !only.isEmpty && !only.any (·.occursIn filename.text)

end ModuleBuild
