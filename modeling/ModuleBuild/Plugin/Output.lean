import ModuleBuild.Options.Derived
import ModuleBuild.Plugin.Unit

/-!
# The output plugin

Compiles each chunk after the bundler rendered it.

## Main definitions

* `OutputPlugin` — the plugin, and `OutputPlugin.create` to build one.
* `OutputPlugin.renderStart` — checks the format before any chunk is rendered.
* `OutputPlugin.renderChunk` — compiles a chunk.
-/

namespace ModuleBuild

/-- The warning about options that make sense for modules only. -/
def moduleOnlyOptionsIgnored : String :=
  "The \"include\", \"exclude\" and \"extensions\" options are ignored when transforming the output."

/-- Compiles chunks. -/
structure OutputPlugin (m : Type → Type) where
  compiler : Compiler m
  overrides : Overrides m
  customOptions : Option Json
  options : PluginOptions

namespace OutputPlugin

open Build

variable {m : Type → Type} [Monad m]

/-- Builds the plugin for some options. -/
def create (compiler : Compiler m) (overrides : Overrides m) (options : PluginOptions) :
    m (Except PluginError (OutputPlugin m)) := do
  match ← overrides.applyOptions options with
  | .error e => return .error e
  | .ok (customOptions, options) => return .ok { compiler, overrides, customOptions, options }

/-- Whether chunks of a format have no wrapper that a compile could break. -/
def isPlainFormat (format : OutputFormat) : Bool :=
  format == .es || format == .cjs

/-- Checks the format of the chunks to come. -/
def renderStart (plugin : OutputPlugin m) (format : OutputFormat) : Build m Unit := do
  if plugin.options.hasModuleOnlyOptions then warn moduleOnlyOptionsIgnored
  if !isPlainFormat format && !plugin.options.allowAllFormats then
    throw (.unsupportedChunkFormat format)

/-- Compiles a chunk; none if the rules of its configuration leave it out. -/
def renderChunk (plugin : OutputPlugin m) (format : OutputFormat) (code fileName : String) :
    Build m (Option CompileOutput) :=
  compileUnit plugin.compiler plugin.overrides plugin.customOptions fileName code
    (plugin.options.chunkOptions format) pure

end OutputPlugin

end ModuleBuild
