import ModuleBuild.Bundle.Entry
import ModuleBuild.Command.Help
import ModuleBuild.Compile.Standard

/-!
# Running commands

What each command reads, writes and prints. A run changes a snapshot of the files and the two texts
that the user sees, and keeps these changes when it fails.

## Main definitions

* `Console`, `Failure`, `Run` — what a run changes, why it fails, and runs.
* `Run.command` — the run of a command.
-/

namespace ModuleBuild

/-- What a run has done so far. -/
structure Console where
  files : FileTree
  /-- What was printed as the answer. -/
  output : String := ""
  /-- What was printed beside the answer. -/
  notes : String := ""
  deriving Inhabited

/-- Why a run fails, as users are told. -/
structure Failure where
  message : String
  code : Option String := none
  help : Option String := none
  deriving DecidableEq, Inhabited, Repr

/-- A run of a command. -/
abbrev Run (α : Type) : Type :=
  ExceptT Failure (StateM Console) α

namespace Run

/-- Fails with a file error. -/
def ofFile {α : Type} : Except FileError α → Run α
  | .ok a => pure a
  | .error e => throw { message := e.name }

/-- Fails with a plugin error. -/
def ofPlugin {α : Type} : Except PluginError α → Run α
  | .ok a => pure a
  | .error e => throw { message := e.message, code := e.code, help := e.help? }

/-- Fails with a bundle error. -/
def ofBundle {α : Type} : Except BundleError α → Run α
  | .ok a => pure a
  | .error e => throw { message := e.message, code := e.code, help := e.help? }

/-- Prints a line of the answer. -/
def print (line : String) : Run Unit :=
  modify fun c => { c with output := c.output ++ line ++ "\n" }

/-- Prints a line beside the answer. -/
def note (line : String) : Run Unit :=
  modify fun c => { c with notes := c.notes ++ line ++ "\n" }

/-- Writes a file. -/
def write (path : Path) (content : String) : Run Unit := do
  let files ← ofFile ((← get).files.write path content)
  modify fun c => { c with files }

/-- Runs a build of its own and prints its warnings. -/
def build {α : Type} (x : StateM BuildState α) : Run α := do
  let (a, state) := x.run {}
  for warning in state.told do note ("Warning: " ++ warning)
  return a

/-- The path of the map of a file. -/
def mapPath (path : Path) : Path :=
  ⟨path.text ++ ".map"⟩

/-- Writes the map of a file, if there is one. -/
def writeMap (path : Path) : Option SourceMap → Run Unit
  | some map => write (mapPath path) map.text
  | none => pure ()

/-- The toolchain of the program. -/
def toolchain : Toolchain :=
  .ofSettings {}

/-- The compiler of the program. -/
def compiler (files : FileTree) : Compiler Id :=
  standardCompiler toolchain (pure files)

/-- The options in a file; the usual ones if no file is named. -/
def readOptions (files : FileTree) : Option Path → Run PluginOptions
  | some path => ofPlugin (PluginOptions.ofFile files path)
  | none => pure {}

/-- The input plugin for the options in a file. -/
def inputPlugin (files : FileTree) (options : Option Path) : Run (InputPlugin Id) := do
  let options ← readOptions files options
  ofPlugin (InputPlugin.create (compiler files) {} options)

/-- The output plugin for the options in a file, if one is named. -/
def outputPlugin? (files : FileTree) : Option Path → Run (Option (OutputPlugin Id))
  | none => pure none
  | some path => do
    let options ← ofPlugin (PluginOptions.ofFile files path)
    some <$> ofPlugin (OutputPlugin.create (compiler files) {} options)

/-- Compiles one module. -/
def compileModule (input : Path) (output options : Option Path) (withMap : Bool) : Run Unit := do
  let files := (← get).files
  let plugin ← inputPlugin files options
  let id ← ofFile (files.canonical input)
  let source ← ofFile (files.readText id)
  match ← ofPlugin (← build (plugin.transform source id.text).run) with
  | none =>
    note ("Info: " ++ input.text ++ " is not handled by the configured filters")
    print source
  | some result =>
    match output with
    | none => print result.code
    | some path =>
      write path result.code
      if withMap then writeMap path result.map
      print ("Success: Compiled " ++ input.text ++ " -> " ++ path.text)

/-- Checks the configuration of a module. -/
def checkModule (input : Path) (options : Option Path) : Run Unit := do
  let files := (← get).files
  let plugin ← inputPlugin files options
  let id ← ofFile (files.canonical input)
  match ← ofPlugin (← build (plugin.check id.text).run) with
  | some strategy => print ("Success: " ++ input.text ++ " uses " ++ strategy.name ++ " helpers")
  | none => print ("Info: " ++ input.text ++ " is excluded by the compiler configuration")

/-- Writes a bundle where the user wants it. -/
def writeBundle (result : Bundle) : Option Path → Run Unit
  | none => print result.code
  | some path => do
    match path.parent? with
    | some directory =>
      if !directory.text.isEmpty then
        let files ← ofFile ((← get).files.createDirectories directory)
        modify fun c => { c with files }
    | none => pure ()
    write path result.code
    writeMap path result.map
    note ("Success: Bundle written to " ++ path.text)
    note ("  Modules: " ++ toString result.modules.length)
    note ("  Size: " ++ toString result.code.utf8ByteSize ++ " bytes")

/-- Bundles entries. -/
def bundleEntries (config : BundleConfig) (output options outputOptions : Option Path) : Run Unit := do
  let files := (← get).files
  let input ← inputPlugin files options
  let plugin ← outputPlugin? files outputOptions
  note "Info: Bundling..."
  note ("  Entry points: " ++ toString config.entries.length)
  note ("  Format: " ++ config.format.name)
  let result ← ofBundle (← build (bundle Script.readModule? files config input plugin).run)
  writeBundle result output

/-- The run of a command. -/
def command : Command → Run Unit
  | .transform input output options withMap => compileModule input output options withMap
  | .check input options => checkModule input options
  | .bundle entries output format name options outputOptions =>
    let fileName := (output.bind (·.fileName?)).getD ({} : BundleConfig).fileName
    bundleEntries { entries, format, name, fileName } output options outputOptions
  | .helpers whitelist shape => print (helperBundle helperRegistry whitelist shape)
  | .help topic => print topic.help
  | .version => print (programName ++ " " ++ programVersion)

end Run

end ModuleBuild
