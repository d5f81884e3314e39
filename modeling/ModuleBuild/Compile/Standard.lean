import ModuleBuild.Compile.CommonJs
import ModuleBuild.Compile.Compiler
import ModuleBuild.Compile.Toolchain
import ModuleBuild.Options.LocalConfig

/-!
# The standard compiler

A source becomes plain code first. Then plugins rewrite sites of the plain code, module syntax is
rewritten if a plugin asked for it, and the imports and helpers that plugins need are put before it.

## Main definitions

* `rewriteSites` — the edits of all plugins.
* `FileState.preamble` — what stands before the code.
* `Toolchain.compile` — a compile.
* `loadConfig` — the options of a file with its local configuration.
* `standardCompiler` — the compiler.
-/

namespace ModuleBuild

/-- What plugins put in place of something: the answer of the first one that has any. -/
def firstRewrite (rewrite : CompilerPlugin → FileState → Except CompileError (Option String × FileState)) :
    List CompilerPlugin → FileState → Except CompileError (Option String × FileState)
  | [], file => .ok (none, file)
  | plugin :: rest, file => do
    let (text, file) ← rewrite plugin file
    match text with
    | some text => return (some text, file)
    | none => firstRewrite rewrite rest file

/-- What plugins put in place of a site. -/
def Site.rewrite (plugins : List CompilerPlugin) (file : FileState) :
    Site → Except CompileError (Option String × FileState)
  | classDeclaration _ site => firstRewrite (fun p file => p.rewriteClass file site) plugins file
  | call _ site => firstRewrite (fun p file => p.rewriteCall file site) plugins file

/-- The edits of all sites, and the file that has what they need. -/
def rewriteSites (plugins : List CompilerPlugin) :
    List Site → FileState → Except CompileError (List Edit × FileState)
  | [], file => .ok ([], file)
  | site :: rest, file => do
    let (text, file) ← site.rewrite plugins file
    let (edits, file) ← rewriteSites plugins rest file
    let own := text.toList.map fun t => ⟨site.span.start, site.span.stop, t⟩
    return (own ++ edits, file)

/-- The edits of the module syntax, if the format of the file asks for any. -/
def FileState.moduleEdits (file : FileState) (items : List Script.ModuleItem) :
    Except CompileError (List Edit) :=
  match file.format with
  | .esm => .ok []
  | .commonJs => commonJsEdits items

/-- The lines that a script in place of a module starts with. -/
def FileState.formatLines (file : FileState) (items : List Script.ModuleItem) : List String :=
  match file.format with
  | .esm => []
  | .commonJs =>
    "\"use strict\";" ::
      (if hasExports items then
        ["Object.defineProperty(exports, \"__esModule\", \x7b value: true \x7d);"] else [])

/-- What stands before the code: the lines of the format, the imports and the helpers. -/
def FileState.preamble (file : FileState) (items : List Script.ModuleItem) : String :=
  String.join <| (file.formatLines items ++ file.imports.map (·.render file.format) ++
    file.inlineHelpers).map (· ++ "\n")

/-- The number of line ends in a text. -/
def lineEnds (s : String) : Nat :=
  s.toList.countP (· == '\n')

/-- The file that plugins have prepared before any code is visited. -/
def preparedFile (plugins : List CompilerPlugin) (options : CompilerOptions) (code : String) :
    FileState :=
  plugins.foldl (fun file plugin => plugin.prepare file)
    { filename := options.filename, caller := options.caller, code }

/-- The name of the source in maps. -/
def CompilerOptions.sourceName (options : CompilerOptions) : String :=
  match options.filename with
  | some p => p.text
  | none => "<chunk>.js"

/-- A compile. -/
def Toolchain.compile (toolchain : Toolchain) (code : String) (options : CompilerOptions) :
    Except CompileError CompileOutput := do
  let plugins ← resolveAll options.plugins options.presets options.caller
  let plain ← toolchain.plain? options code
  match toolchain.read? (options.sourceType != some .script) plain.code with
  | none => throw .parse
  | some unit =>
    let (edits, file) ← rewriteSites plugins unit.sites (preparedFile plugins options code)
    let moduleEdits ← file.moduleEdits unit.items
    let lead := file.preamble unit.items
    let map := if options.sourceMaps then
        some ((SourceMap.ofFile options.sourceName code plain.skip).shift (lineEnds lead))
      else none
    return { code := lead ++ applyEdits plain.code (edits ++ moduleEdits), map }

/-- The local configuration file that applies, unless the options say not to look for one. -/
def CompilerOptions.localConfig? (options : CompilerOptions) (files : FileTree) : Option Path :=
  if options.configFile == some false then none
  else options.filename.bind fun f => LocalConfig.find? files.isFile f options.root

/-- The options with the local configuration under them that this file holds. -/
def CompilerOptions.withLocal (options : CompilerOptions) (files : FileTree) :
    Option Path → Except CompileError CompilerOptions
  | none => .ok options
  | some path => do
    let config ← LocalConfig.ofFile files path
    return config.under options

/-- Whether the rules of the options leave their file out. -/
def CompilerOptions.excludesFile (options : CompilerOptions) : Except CompileError Bool :=
  match options.filename with
  | some filename => isExcluded filename options.only options.ignore
  | none => .ok false

/-- The options with all plugins live and no presets left. -/
def CompilerOptions.resolved (options : CompilerOptions) : Except CompileError CompilerOptions := do
  let plugins ← resolveAll options.plugins options.presets options.caller
  return { options with plugins := plugins.map .live, presets := [] }

/-- The options of a file with its local configuration; none if the rules leave the file out. -/
def loadConfig (files : FileTree) (options : CompilerOptions) :
    Except CompileError (Option PartialConfig) := do
  let configFile := options.localConfig? files
  let options ← options.withLocal files configFile
  if ← options.excludesFile then return none
  else
    let options ← options.resolved
    return some { options, configFile }

/-- The extensions of the files that the standard compiler takes. -/
def standardExtensions : List String :=
  [".js", ".jsx", ".es6", ".es", ".mjs", ".ts", ".tsx"]

/-- The standard compiler, which reads configurations from the files at hand. -/
def standardCompiler {m : Type → Type} [Monad m] (toolchain : Toolchain) (files : m FileTree) :
    Compiler m where
  loadPartialConfig options := do
    return loadConfig (← files) options
  compileProbe code options := pure (toolchain.compile code options)
  compile code options := pure (toolchain.compile code options)
  helperBundle := helperBundle helperRegistry
  defaultExtensions := standardExtensions

end ModuleBuild
