import ModuleBuild.Compile.FileState
import ModuleBuild.Options.Reader

/-!
# Plugins of a compile

How the names in a configuration become plugins, and what each plugin does to the file being compiled.

## Main definitions

* `resolvePlugin`, `expandPreset`, `resolveAll` — from names to plugins.
* `CompilerPlugin.prepare` — what a plugin does before any code is visited.
* `CompilerPlugin.rewriteClass`, `CompilerPlugin.rewriteCall` — what it puts in place of a site.
-/

namespace ModuleBuild

open Json

/-- A class declaration in compiled code. -/
structure ClassSite where
  name : Option String
  /-- The text of the class extended. -/
  superClass : Option String
  deriving DecidableEq, Inhabited, Repr

/-- A call of the form `object.property(…)` in compiled code. -/
structure CallSite where
  object : String
  property : String
  deriving DecidableEq, Inhabited, Repr

/-! ## Resolution -/

/-- A name without `plugin-` or else `preset-` before it. -/
def plainName (name : String) : String :=
  let cut (lead : String) : Option String :=
    if lead.toList.isPrefixOf name.toList then
      some (String.ofList (name.toList.drop lead.toList.length))
    else none
  ((cut "plugin-").or (cut "preset-")).getD name

/-- The options beside a name, as `read` sees them; none may be given as `null`. -/
def PluginSpec.readOptions {α : Type} (spec : PluginSpec) (fallback : α)
    (read : Json → Option α) : Except CompileError α :=
  match spec.options with
  | none | some .null => .ok fallback
  | some options =>
    match read options with
    | some x => .ok x
    | none => .error (.invalidOption (.pluginOptions spec.name))

/-- The last member of each name. -/
def lastMembers (ms : List (String × Json)) : List (String × Json) :=
  ms.foldr (fun m rest => if rest.any (·.1 == m.1) then rest else m :: rest) []

/-- The options of the runtime plugin: the package, and whether its modules are used. -/
def readRuntimeOptions (x : Json) : Option (Option String × Option Bool) := do
  let ms := lastMembers (← record? ["moduleName", "useESModules"] x)
  let moduleName ← field ms "moduleName" none (optional text?)
  let useModules ← field ms "useESModules" none (optional flag?)
  return (moduleName, useModules)

/-- The plugin that a name stands for. -/
def resolvePlugin (spec : PluginSpec) : Except CompileError CompilerPlugin :=
  match plainName spec.name with
  | "transform-object-assign" => .ok .objectAssign
  | "modules-commonjs" | "transform-modules-commonjs" => .ok .commonJs
  | "transform-runtime" => do
    let (moduleName, useModules) ← spec.readOptions (none, none) readRuntimeOptions
    return .runtimeHelpers moduleName useModules
  | "external-helpers" => .ok .externalHelpers
  | other => .error (.unknownPlugin other)

/-- What the `env` preset is told about module syntax. -/
inductive EnvModules where
  | flag (value : Bool)
  | named (value : String)
  deriving DecidableEq, Inhabited, Repr

/-- The options of the `env` preset. -/
def readEnvOptions (x : Json) : Option (Option EnvModules) := do
  let ms := lastMembers (← record? ["modules"] x)
  field ms "modules" none <| optional fun
    | .bool b => some (.flag b)
    | .text s => some (.named s)
    | _ => none

/-- Whether the `env` preset rewrites module syntax for this caller. -/
def EnvModules.rewritesModules (caller : Caller) : Option EnvModules → Except CompileError Bool
  | some (.flag false) => .ok false
  | none | some (.flag true) => .ok (!caller.staticModules)
  | some (.named "auto") => .ok (!caller.staticModules)
  | some (.named "commonjs") | some (.named "cjs") => .ok true
  | some (.named other) => .error (.invalidOption (.envModules other))

/-- The plugins that a preset stands for. -/
def expandPreset (spec : PluginSpec) (caller : Caller) : Except CompileError (List CompilerPlugin) :=
  match plainName spec.name with
  | "env" => do
    let modules ← spec.readOptions none readEnvOptions
    let rewrites ← EnvModules.rewritesModules caller modules
    return .objectAssign :: (if rewrites then [.commonJs] else [])
  | other => .error (.unknownPlugin other)

/-- The plugin of an entry. -/
def PluginItem.resolve : PluginItem → Except CompileError CompilerPlugin
  | .named spec => resolvePlugin spec
  | .live plugin => .ok plugin

/-- The plugins of a preset. -/
def PluginItem.expand (caller : Caller) : PluginItem → Except CompileError (List CompilerPlugin)
  | .named spec => expandPreset spec caller
  | .live plugin => .ok [plugin]

/-- All plugins of a configuration. Those of presets come last. -/
def resolveAll (plugins presets : List PluginItem) (caller : Caller) :
    Except CompileError (List CompilerPlugin) := do
  let own ← plugins.mapM PluginItem.resolve
  let expanded ← presets.mapM (PluginItem.expand caller)
  return own ++ expanded.flatten

/-! ## What plugins do -/

/-- The package that runtime helpers come from unless another one is named. -/
def defaultRuntimeModule : String := "@babel/runtime"

namespace CompilerPlugin

/-- What a plugin does to a file before any code is visited. -/
def prepare (plugin : CompilerPlugin) (file : FileState) : FileState :=
  match plugin with
  | commonJs => { file with format := .commonJs }
  | runtimeHelpers moduleName useModules =>
    { file with
      mode := .runtime (moduleName.getD defaultRuntimeModule)
        (useModules.getD file.caller.staticModules) }
  | externalHelpers => { file with mode := .external }
  | importHelpers moduleId => { file with importer := some { moduleId } }
  | objectAssign | fallbackClass => file

/-- What a plugin puts in place of a class declaration; none if it leaves it. -/
def rewriteClass (plugin : CompilerPlugin) (file : FileState) (_site : ClassSite) :
    Except CompileError (Option String × FileState) :=
  match plugin with
  | fallbackClass => do
    let (reference, file) ← file.addHelper "inherits"
    return (some (reference ++ ";"), file)
  | _ => .ok (none, file)

/-- What a plugin puts in place of the function of a call; none if it leaves it. -/
def rewriteCall (plugin : CompilerPlugin) (file : FileState) (site : CallSite) :
    Except CompileError (Option String × FileState) :=
  match plugin with
  | objectAssign =>
    if site.object == "Object" && site.property == "assign" then do
      let (reference, file) ← file.addHelper "extends"
      return (some reference, file)
    else .ok (none, file)
  | _ => .ok (none, file)

end CompilerPlugin

end ModuleBuild
