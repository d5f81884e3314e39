import ModuleBuild.FileTree
import ModuleBuild.Options.Basic
import ModuleBuild.Text.Quoted

/-!
# Errors

The causes for which a compile, a plugin or a bundle fails, and how each is told. What another
program or the file system would add about the cause is left out of the texts.

## Main definitions

* `CompileError`, `PluginError`, `BundleError` — the causes, each level holding the one below.
* `CompileError.message`, `PluginError.message`, `BundleError.message` — their texts.
* `PluginError.code`, `BundleError.code`, `PluginError.help?`, `BundleError.help?` — how they are
  classified, and what to do about them.
-/

namespace ModuleBuild

open Text

/-- The name of a file error. -/
def FileError.name : FileError → String
  | notFound => "NotFound"
  | isDirectory => "IsADirectory"
  | notDirectory => "NotADirectory"
  | notText => "InvalidData"
  | linkLoop => "FilesystemLoop"

/-- The text of a file error. -/
def FileError.message (e : FileError) : String :=
  "IO error: " ++ e.name

/-- What is wrong with an option of a compile. -/
inductive OptionFault where
  | pattern (text : String)
  /-- The `env` preset knows no such module format. -/
  | envModules (value : String)
  /-- The options of this plugin or preset have the wrong shape. -/
  | pluginOptions (name : String)
  deriving DecidableEq, Inhabited, Repr

/-- The text of a fault. -/
def OptionFault.message : OptionFault → String
  | pattern text => "pattern " ++ debugQuote text ++ ": "
  | envModules value => "env: unsupported modules value \"" ++ value ++ "\""
  | pluginOptions name => name ++ ": "

/-- Why a compile fails. -/
inductive CompileError where
  | parse
  | transform (text : String)
  | unknownPlugin (name : String)
  | unknownHelper (name : String)
  | invalidConfigFile (path : Path)
  | invalidOption (fault : OptionFault)
  | file (error : FileError)
  deriving DecidableEq, Inhabited, Repr

/-- The text of a compile error. -/
def CompileError.message : CompileError → String
  | parse => "Failed to parse: "
  | transform text => "Failed to transform: " ++ text
  | unknownPlugin name => "Unknown plugin or preset: " ++ name
  | unknownHelper name => "Unknown helper: " ++ name
  | invalidConfigFile path => "Invalid configuration file " ++ path.text ++ ": "
  | invalidOption fault => "Invalid option: " ++ fault.message
  | file error => error.message

/-- What is wrong with the options of a bundler plugin. -/
inductive ConfigFault where
  | json
  | jsonFile (path : Path)
  | pattern (text : String)
  | outputFormat (text : String)
  /-- A hook gave up with this text. -/
  | hook (text : String)
  deriving DecidableEq, Inhabited, Repr

/-- The text of a fault. -/
def ConfigFault.message : ConfigFault → String
  | json => ""
  | jsonFile path => path.text ++ ": "
  | pattern text => "pattern " ++ debugQuote text ++ ": "
  | outputFormat text => "unknown output format '" ++ text ++ "'"
  | hook text => "hook: " ++ text

/-- Why a bundler plugin fails. -/
inductive PluginError where
  | moduleSyntaxStripped
  | unexpectedHelperStrategy
  | runtimeHelpersNotEnabled
  | unsupportedChunkFormat (format : OutputFormat)
  | asyncOptionsHook
  | compile (unit : String) (source : CompileError)
  | config (fault : ConfigFault)
  | file (error : FileError)
  deriving DecidableEq, Inhabited, Repr

namespace PluginError

/-- The text of a plugin error. -/
def message : PluginError → String
  | moduleSyntaxStripped =>
    "The bundler requires that your compiler configuration keeps ES module syntax intact. " ++
      "Unfortunately it looks like your configuration specifies a module transformer " ++
      "to replace ES modules with another module format. To continue you have to disable it."
  | unexpectedHelperStrategy =>
    "An unexpected situation arose: the compiler emitted helpers in a way this plugin " ++
      "does not recognize."
  | runtimeHelpersNotEnabled =>
    "Runtime helpers are not enabled. Either exclude the transform-runtime plugin " ++
      "or pass the `runtimeHelpers: true` option."
  | unsupportedChunkFormat format =>
    "Using the compiler on the generated chunks is strongly discouraged for formats other than " ++
      "\"es\" or \"cjs\" as it can easily break wrapper code and lead to accidentally created " ++
      "global variables. Instead, you should set the output format to \"es\" and let the compiler " ++
      "transform to another format, e.g. by adding \"presets: [['env', \x7b modules: '" ++
      format.recommended ++ "' \x7d]]\" to your compiler options. " ++
      "If you still want to proceed, add \"allowAllFormats: true\" to your plugin options."
  | asyncOptionsHook =>
    ".options hook can't be asynchronous. It should return " ++
      "`\x7b customOptions, pluginOptions \x7d` synchronously."
  | compile unit source => "Failed to compile " ++ unit ++ ": " ++ source.message
  | config fault => "Invalid plugin options: " ++ fault.message
  | file error => error.message

/-- The class under which a plugin error is reported, if it has one. -/
def code : PluginError → Option String
  | moduleSyntaxStripped => some "viper_transform::module_syntax"
  | unexpectedHelperStrategy => some "viper_transform::unexpected_helpers"
  | runtimeHelpersNotEnabled => some "viper_transform::runtime_helpers"
  | unsupportedChunkFormat _ => some "viper_transform::chunk_format"
  | asyncOptionsHook => some "viper_transform::async_options_hook"
  | compile .. => some "viper_transform::compile"
  | config _ => some "viper_transform::config"
  | file _ => none

/-- What users can do about a plugin error. -/
def help? : PluginError → Option String
  | moduleSyntaxStripped =>
    some <| "Most commonly it's a CommonJS transform added by the `env` preset - " ++
      "in such case you should disable it by adding the `modules: false` option to that preset, " ++
      "or remove the `modules-commonjs` plugin."
  | unexpectedHelperStrategy =>
    some <| "Check that the compiler version is supported by this plugin and report the " ++
      "configuration that triggered it."
  | _ => none

end PluginError

/-- The format that a text names. -/
def OutputFormat.ofText (text : String) : Except PluginError OutputFormat :=
  match ofText? text with
  | some format => .ok format
  | none => .error (.config (.outputFormat (lowercase text)))

/-- Why a bundle fails. -/
inductive BundleError where
  | noEntries
  | plugin (error : PluginError)
  | unresolvedImport (specifier importer : String)
  | missingExport (module name : String)
  | nameConflict (name first second : String)
  | circularImport (module importer : String)
  | parse (module : String)
  /-- The module uses syntax that cannot be linked. -/
  | unsupportedSyntax (module what : String)
  | externalImport (specifier : String) (format : OutputFormat)
  | file (error : FileError)
  deriving DecidableEq, Inhabited, Repr

namespace BundleError

/-- The text of a bundle error. -/
def message : BundleError → String
  | noEntries => "No entry points provided"
  | plugin error => error.message
  | unresolvedImport specifier importer =>
    "Could not resolve '" ++ specifier ++ "' from " ++ importer
  | missingExport module name => "'" ++ name ++ "' is not exported by " ++ module
  | nameConflict name first second =>
    "Top-level name '" ++ name ++ "' is declared by both " ++ first ++ " and " ++ second
  | circularImport module importer => "Circular import of " ++ module ++ " from " ++ importer
  | parse module => "Failed to parse " ++ module ++ ": "
  | unsupportedSyntax module what =>
    module ++ " uses " ++ what ++ ", which the bundler does not support"
  | externalImport specifier format =>
    "External import '" ++ specifier ++ "' cannot be kept in the \"" ++ format.name ++ "\" format"
  | file error => error.message

/-- The class under which a bundle error is reported, if it has one. -/
def code : BundleError → Option String
  | noEntries => some "viper_transform::bundle::no_entries"
  | plugin error => error.code
  | unresolvedImport .. => some "viper_transform::bundle::unresolved"
  | missingExport .. => some "viper_transform::bundle::missing_export"
  | nameConflict .. => some "viper_transform::bundle::name_conflict"
  | circularImport .. => some "viper_transform::bundle::circular"
  | parse _ => some "viper_transform::bundle::parse"
  | unsupportedSyntax .. => some "viper_transform::bundle::unsupported"
  | externalImport .. => some "viper_transform::bundle::external"
  | file _ => none

/-- What users can do about a bundle error. -/
def help? : BundleError → Option String
  | plugin error => error.help?
  | nameConflict .. =>
    some "Modules are concatenated into one scope; rename one of the bindings."
  | externalImport .. => some "Use the \"es\" format or make the import resolvable."
  | _ => none

end BundleError

end ModuleBuild
