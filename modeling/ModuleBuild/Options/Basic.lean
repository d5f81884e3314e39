import ModuleBuild.Json.Basic
import ModuleBuild.Path.Basic
import ModuleBuild.Text.LetterCase

/-!
# Options

What a build is told: the options of one compile, who asks for it, the plugins it runs, and the
options of the two bundler plugins from which compile options are derived.

## Main definitions

* `CompilerOptions` — the options of one compile.
* `CompilerPlugin`, `PluginItem` — the plugins of a compile, live or still named.
* `PluginOptions` — the options of a bundler plugin as users write them.
* `OutputFormat` — the module formats of chunks.
-/

namespace ModuleBuild

/-- Whether a unit is read as a module or as a classic script. -/
inductive SourceKind where
  | module
  | script
  deriving DecidableEq, Inhabited, Repr

/-- Who asks for a compile, and which module features it understands itself. -/
structure Caller where
  name : String := "unknown"
  staticModules : Bool := false
  dynamicImport : Bool := false
  topLevelAwait : Bool := false
  deriving DecidableEq, Inhabited, Repr

/-- A plugin or preset as configurations name it. -/
structure PluginSpec where
  name : String
  /-- The value beside the name, if the entry is a pair. -/
  options : Option Json := none
  deriving Inhabited

/-- The plugins that a compile can run. -/
inductive CompilerPlugin where
  /-- Rewrites `Object.assign` calls into the `extends` helper. -/
  | objectAssign
  /-- Rewrites module syntax into `require` and `exports`. -/
  | commonJs
  /-- Imports helpers from a runtime package. -/
  | runtimeHelpers (moduleName : Option String) (useModules : Option Bool)
  /-- Refers to helpers on the global namespace. -/
  | externalHelpers
  /-- Replaces class declarations by a reference to the `inherits` helper. -/
  | fallbackClass
  /-- Imports helpers from one module that all files share. -/
  | importHelpers (moduleId : String)
  deriving DecidableEq, Inhabited, Repr

/-- An entry of a plugin list. -/
inductive PluginItem where
  /-- Still to be resolved. -/
  | named (spec : PluginSpec)
  | live (plugin : CompilerPlugin)
  deriving Inhabited

/-- The name under which a plugin is reported. -/
def CompilerPlugin.name : CompilerPlugin → String
  | objectAssign => "transform-object-assign"
  | commonJs => "modules-commonjs"
  | runtimeHelpers .. => "transform-runtime"
  | externalHelpers => "external-helpers"
  | fallbackClass => "fallback-class-transform"
  | importHelpers _ => "import-helpers"

/-- The name of an entry. -/
def PluginItem.name : PluginItem → String
  | named spec => spec.name
  | live plugin => plugin.name

/-- The live plugin of an entry. -/
def PluginItem.live? : PluginItem → Option CompilerPlugin
  | named _ => none
  | live plugin => some plugin

/-- The options of one compile. -/
structure CompilerOptions where
  filename : Option Path := none
  /-- The directory where the search for a local configuration ends. -/
  root : Option Path := none
  /-- Whether to look for a local configuration; yes if nothing is said. -/
  configFile : Option Bool := none
  sourceType : Option SourceKind := none
  sourceMaps : Bool := false
  plugins : List PluginItem := []
  presets : List PluginItem := []
  only : List String := []
  ignore : List String := []
  minify : Bool := false
  caller : Caller := {}
  deriving Inhabited

namespace CompilerOptions

/-- The options with one more plugin at the end. -/
def withPlugin (options : CompilerOptions) (item : PluginItem) : CompilerOptions :=
  { options with plugins := options.plugins ++ [item] }

/-- The name that errors about the unit report. -/
def unitName (options : CompilerOptions) : String :=
  match options.filename with
  | some p => p.text
  | none => "<chunk>"

end CompilerOptions

/-- The module formats of chunks. -/
inductive OutputFormat where
  | es
  | cjs
  | amd
  | iife
  | umd
  | system
  deriving DecidableEq, Inhabited, Repr

namespace OutputFormat

/-- The usual name of a format. -/
def name : OutputFormat → String
  | es => "es"
  | cjs => "cjs"
  | amd => "amd"
  | iife => "iife"
  | umd => "umd"
  | system => "system"

/-- The module format a compile should produce in place of a wrapped chunk. -/
def recommended : OutputFormat → String
  | amd => "amd"
  | iife | umd => "umd"
  | system => "systemjs"
  | es | cjs => "<module format>"

/-- The format that a text names, in any case. -/
def ofText? (text : String) : Option OutputFormat :=
  match Text.lowercase text with
  | "es" | "esm" | "module" => some es
  | "cjs" | "commonjs" => some cjs
  | "amd" => some amd
  | "iife" => some iife
  | "umd" => some umd
  | "system" | "systemjs" => some system
  | _ => none

/-- The format of exactly this name. -/
def ofName? (text : String) : Option OutputFormat :=
  [es, cjs, amd, iife, umd, system].find? (·.name == text)

end OutputFormat

/-- What users may say about the caller. -/
structure CallerOverrides where
  name : Option String := none
  staticModules : Option Bool := none
  dynamicImport : Option Bool := none
  topLevelAwait : Option Bool := none
  deriving DecidableEq, Inhabited, Repr

/-- The caller with everything replaced that users say about it. -/
def CallerOverrides.apply (o : CallerOverrides) (c : Caller) : Caller where
  name := o.name.getD c.name
  staticModules := o.staticModules.getD c.staticModules
  dynamicImport := o.dynamicImport.getD c.dynamicImport
  topLevelAwait := o.topLevelAwait.getD c.topLevelAwait

/-- The options of a bundler plugin as users write them. -/
structure PluginOptions where
  extensions : Option (List String) := none
  /-- Patterns; if given, only identifiers that one of them occurs in are compiled. -/
  included : Option (List String) := none
  /-- Patterns of identifiers that are never compiled. -/
  excluded : Option (List String) := none
  externalHelpers : Bool := false
  externalHelpersWhitelist : Option (List String) := none
  runtimeHelpers : Bool := false
  allowAllFormats : Bool := false
  /-- The answers to the four spellings of the question for source maps. -/
  sourceMapFlags : List (Option Bool) := []
  caller : CallerOverrides := {}
  compiler : CompilerOptions := {}
  deriving Inhabited

namespace PluginOptions

/-- Source maps are on unless one of the spellings turns them off. -/
def sourceMapsEnabled (o : PluginOptions) : Bool :=
  o.sourceMapFlags.all (·.getD true)

/-- Whether options are given that make sense for modules only. -/
def hasModuleOnlyOptions (o : PluginOptions) : Bool :=
  o.extensions.isSome || o.included.isSome || o.excluded.isSome

end PluginOptions

end ModuleBuild
