import ModuleBuild.Error
import ModuleBuild.Helper.Importer
import ModuleBuild.Helper.Registry
import ModuleBuild.Helper.Bundle
import ModuleBuild.Text.Fresh
import ModuleBuild.Text.Quoted

/-!
# The state of one compile

A file state lives for one compile. It keeps how helpers are emitted, which ones are declared, and the
imports and declarations that the compile adds to the file.

## Main definitions

* `HelperMode`, `ModuleFormat` — how helpers are emitted, and the module system of the output.
* `InjectedImport` — an import that the compile adds.
* `FileState` — the state.
* `FileState.freshName`, `FileState.addNamedImport`, `FileState.addHelper` — what plugins ask of it.
-/

namespace ModuleBuild

open Text

/-- How helpers are emitted where no importer serves the file. -/
inductive HelperMode where
  /-- Definitions at the top of each file that needs them. -/
  | inline
  /-- References on the global namespace. -/
  | external
  /-- Default imports from a runtime package. -/
  | runtime (moduleName : String) (useModules : Bool)
  deriving DecidableEq, Inhabited, Repr

/-- The module system of the output of a compile. -/
inductive ModuleFormat where
  | esm
  | commonJs
  deriving DecidableEq, Inhabited, Repr

/-- An import that a compile adds. -/
inductive InjectedImport where
  | named (imported localName source : String)
  | default (localName source : String)
  deriving DecidableEq, Inhabited, Repr

namespace InjectedImport

/-- The binding that the import creates. -/
def localName : InjectedImport → String
  | named _ l _ | default l _ => l

/-- The module imported from. -/
def source : InjectedImport → String
  | named _ _ s | default _ s => s

/-- The statement of an import in a module system. -/
def render (format : ModuleFormat) : InjectedImport → String
  | named imported l source =>
    match format with
    | .esm =>
      "import \x7b " ++ imported ++ " as " ++ l ++ " \x7d from \"" ++ escapeSpecifier source ++ "\";"
    | .commonJs =>
      "var " ++ l ++ " = require(\"" ++ escapeSpecifier source ++ "\")[\"" ++ imported ++ "\"];"
  | default l source =>
    match format with
    | .esm => "import " ++ l ++ " from \"" ++ escapeSpecifier source ++ "\";"
    | .commonJs => "var " ++ l ++ " = require(\"" ++ escapeSpecifier source ++ "\").default;"

end InjectedImport

/-- The state of one compile. -/
structure FileState where
  filename : Option Path := none
  caller : Caller := {}
  /-- The source, whose identifiers fresh names avoid. -/
  code : String := ""
  mode : HelperMode := .inline
  format : ModuleFormat := .esm
  /-- Serves helper requests before the mode does. -/
  importer : Option HelperImporter := none
  /-- The references of the helpers declared so far. -/
  declared : List (String × String) := []
  /-- The declarations of inline helpers, in order. -/
  inlineHelpers : List String := []
  /-- The imports added so far, in order. -/
  imports : List InjectedImport := []
  /-- The fresh names given so far. -/
  names : List String := []
  deriving DecidableEq, Inhabited, Repr

namespace FileState

/-- Whether a name may not be used for a new binding. -/
def isTaken (file : FileState) (name : String) : Bool :=
  file.names.contains name || mentions file.code name

/-- A new binding named after `name`, and the state that reserves it. Each name passed over is a
reserved one or stands at a place of its own in the source. -/
def freshName (file : FileState) (name : String) : String × FileState :=
  let fresh := firstFree file.isTaken (helperLocal name)
    (file.names.length + file.code.length + 1) 1
  (fresh, { file with names := fresh :: file.names })

/-- Imports `name` from a module; gives the new binding. -/
def addNamedImport (file : FileState) (name source : String) : String × FileState :=
  let (fresh, file) := file.freshName name
  (fresh, { file with imports := file.imports ++ [.named name fresh source] })

/-- The file as an importer sees it. -/
def host : HelperHost FileState where
  available _ name := helperRegistry.has name
  addNamedImport := addNamedImport

/-- Records the reference of a helper. -/
def declare (file : FileState) (name reference : String) : FileState :=
  { file with declared := (name, reference) :: file.declared }

/-- The bindings that a helper's body mentions, under the names they have in this file. -/
def renames (file : FileState) (helper : Helper) (fresh : String) (name : String) : Option String :=
  if name == helper.localName then some fresh
  else (helper.dependencies.find? fun d => helperLocal d == name).bind fun d => file.declared.lookup d

/-- Declares a helper inline unless it is declared. -/
def addInline (file : FileState) (helper : Helper) : FileState :=
  if (file.declared.lookup helper.name).isSome then file
  else
    let (fresh, file) := file.freshName helper.name
    let text := rename (file.renames helper fresh) helper.body
    { file with inlineHelpers := file.inlineHelpers ++ [text] }.declare helper.name fresh

/-- Emits a helper the way the mode says. -/
def emitHelper (file : FileState) (name : String) : String × FileState :=
  match file.mode with
  | .external => (helperNamespace ++ "." ++ name, file)
  | .runtime moduleName useModules =>
    let (fresh, file) := file.freshName name
    let directory := if useModules && file.format == .esm then "esm/" else ""
    let source := moduleName ++ "/helpers/" ++ directory ++ name
    (fresh, { file with imports := file.imports ++ [.default fresh source] })
  | .inline =>
    let file := (helperRegistry.closure [name]).foldl addInline file
    ((file.declared.lookup name).getD (helperLocal name), file)

/-- The reference to a helper, which is emitted on the first request: a declared one first, then the
importer, then the mode. -/
def addHelper (file : FileState) (name : String) : Except CompileError (String × FileState) :=
  match file.declared.lookup name with
  | some reference => .ok (reference, file)
  | none =>
    let (imported, importer, file) := match file.importer with
      | some importer =>
        let (reference, importer, file) := importer.resolve host file name
        (reference, some importer, file)
      | none => (none, none, file)
    let file := { file with importer }
    match imported with
    | some reference => .ok (reference, file)
    | none =>
      if helperRegistry.has name then
        let (reference, file) := file.emitHelper name
        .ok (reference, file.declare name reference)
      else .error (.unknownHelper name)

end FileState

end ModuleBuild
