import ModuleBuild.ModuleFilter
import ModuleBuild.Options.Derived
import ModuleBuild.Plugin.Unit

/-!
# The input plugin

Compiles modules as a bundler loads them. Each configuration is checked before its first use, and
helpers are imported from one module that all others share.

## Main definitions

* `InputPlugin` — the plugin, and `InputPlugin.create` to build one.
* `InputPlugin.resolveId`, `InputPlugin.load` — the shared helper module.
* `InputPlugin.check` — the strategy of the configuration of a module.
* `InputPlugin.transform` — compiles a module.
-/

namespace ModuleBuild

/-- The name under which the bundler plugins report themselves. -/
def pluginName : String := "viper-transform"

/-- The warning about configurations that still use the external helpers plugin. -/
def externalHelpersDeprecated : String :=
  "Using \"external-helpers\" plugin with viper-transform is deprecated, " ++
    "as it now automatically deduplicates your helpers."

/-- Compiles modules. -/
structure InputPlugin (m : Type → Type) where
  compiler : Compiler m
  overrides : Overrides m
  customOptions : Option Json
  config : InputConfig
  filter : ModuleFilter

namespace InputPlugin

open Build

variable {m : Type → Type} [Monad m]

/-- Builds the plugin for some options. -/
def create (compiler : Compiler m) (overrides : Overrides m) (options : PluginOptions) :
    m (Except PluginError (InputPlugin m)) := do
  match ← overrides.applyOptions options with
  | .error e => return .error e
  | .ok (customOptions, options) =>
    let config := InputConfig.ofOptions options compiler.defaultExtensions
    match ModuleFilter.ofPatterns config.extensions config.included config.excluded with
    | .error e => return .error e
    | .ok filter => return .ok { compiler, overrides, customOptions, config, filter }

/-- Claims the identifier of the shared helper module. -/
def resolveId (_plugin : InputPlugin m) (id : String) : Option String :=
  if id == helperModuleId then some id else none

/-- The text of the shared helper module. -/
def load (plugin : InputPlugin m) (id : String) : Option String :=
  if id == helperModuleId then
    some (plugin.compiler.helperBundle plugin.config.externalHelpersWhitelist .module)
  else none

/-- The options under which a module is compiled. -/
def optionsFor (plugin : InputPlugin m) (id : String) : CompilerOptions :=
  { plugin.config.compiler with filename := some ⟨id⟩ }

/-- The strategy of some options, from the cache or from a probe. -/
def classify (plugin : InputPlugin m) (options : CompilerOptions) : Build m HelperStrategy := do
  let (answer, cache) ← act ((← get).cache.classify plugin.compiler options)
  modify fun s => { s with cache }
  liftExcept answer
where
  /-- Fails as the answer does. -/
  liftExcept {α : Type} (answer : Except PluginError α) : Build m α :=
    match answer with
    | .ok a => pure a
    | .error e => throw e

/-- The strategy of the configuration of a module; none if its rules leave the module out. -/
def check (plugin : InputPlugin m) (id : String) : Build m (Option HelperStrategy) := do
  let some config ←
      attemptCompile id (plugin.compiler.loadPartialConfig (plugin.optionsFor id))
    | return none
  some <$> plugin.classify config.options

/-- Checks the options and adds the import of helpers. -/
def finalize (plugin : InputPlugin m) (options : CompilerOptions) : Build m CompilerOptions := do
  let strategy ← plugin.classify options
  if strategy == .external && !plugin.config.externalHelpers then
    warn externalHelpersDeprecated
  if strategy == .runtime && !plugin.config.runtimeHelpers then
    throw .runtimeHelpersNotEnabled
  if strategy != .runtime && !plugin.config.externalHelpers then
    return options.withPlugin (.live (.importHelpers helperModuleId))
  else return options

/-- Compiles a module; none if it is not for this plugin. -/
def transform (plugin : InputPlugin m) (code id : String) : Build m (Option CompileOutput) := do
  if id == helperModuleId || !plugin.filter.accepts id then return none
  else
    compileUnit plugin.compiler plugin.overrides plugin.customOptions id code
      (plugin.optionsFor id) plugin.finalize

end InputPlugin

end ModuleBuild
