import ModuleBuild.Options.Basic

/-!
# Compile options derived from plugin options

The options under which the two bundler plugins compile: what users say, over defaults that depend on
the caller and on the format of the chunk.

## Main definitions

* `InputConfig.ofOptions` — how modules are compiled.
* `PluginOptions.chunkOptions` — how a chunk of a format is compiled.
-/

namespace ModuleBuild

/-- The name under which this tool calls the compiler. -/
def callerName : String := "viper-transform"

/-- How the input plugin compiles modules. -/
structure InputConfig where
  extensions : List String
  included : List String
  excluded : List String
  externalHelpers : Bool
  externalHelpersWhitelist : Option (List String)
  runtimeHelpers : Bool
  /-- The options of each compile, up to the name of the module. -/
  compiler : CompilerOptions
  deriving Inhabited

/-- How modules are compiled under these options. -/
def InputConfig.ofOptions (options : PluginOptions) (defaultExtensions : List String) :
    InputConfig where
  extensions := options.extensions.getD defaultExtensions
  included := options.included.getD []
  excluded := options.excluded.getD []
  externalHelpers := options.externalHelpers
  externalHelpersWhitelist := options.externalHelpersWhitelist
  runtimeHelpers := options.runtimeHelpers
  compiler :=
    { options.compiler with
      sourceMaps := options.sourceMapsEnabled
      caller := options.caller.apply ⟨callerName, true, true, true⟩ }

/-- How a chunk of a format is compiled under these options. -/
def PluginOptions.chunkOptions (options : PluginOptions) (format : OutputFormat) :
    CompilerOptions :=
  let isModule := format == .es
  { options.compiler with
    configFile := some (options.compiler.configFile.getD false)
    sourceType := some (options.compiler.sourceType.getD (if isModule then .module else .script))
    sourceMaps := options.sourceMapsEnabled
    caller := options.caller.apply ⟨callerName, isModule, false, false⟩ }

end ModuleBuild
