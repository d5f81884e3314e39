import ModuleBuild.Compile.Edit
import ModuleBuild.Error
import ModuleBuild.Script.Item
import ModuleBuild.Text.Letters
import ModuleBuild.Text.Quoted

/-!
# Module records

What linking needs from a module: its imports, exports and top-level names, and the edits that remove
its export syntax. Imports stay in the text until the modules they name are linked.

## Main definitions

* `ImportRecord`, `ModuleRecord` — the records.
* `ModuleRecord.ofItems` — the record of a module.
* `LinkedModule` — a module without module syntax.
* `LinkedModule.aliasLines` — what stands for an import of it.
-/

namespace ModuleBuild

open Script Text

/-- An import declaration. -/
structure ImportRecord where
  span : Span
  source : String
  bindings : List ImportBinding
  /-- The declaration as written. -/
  text : String
  deriving DecidableEq, Inhabited, Repr

/-- What linking needs from a module. -/
structure ModuleRecord where
  imports : List ImportRecord := []
  /-- The exported names with the top-level names that hold their values. -/
  exports : List (String × String) := []
  /-- The top-level names that the module declares. -/
  declared : List String := []
  edits : List Edit := []
  deriving DecidableEq, Inhabited, Repr

namespace ModuleRecord

/-- A record with all that another one says behind it. -/
def append (a b : ModuleRecord) : ModuleRecord where
  imports := a.imports ++ b.imports
  exports := a.exports ++ b.exports
  declared := a.declared ++ b.declared
  edits := a.edits ++ b.edits

/-- Whether the last character of a text that is not blank is a semicolon. -/
def endsWithSemicolon (text : List Char) : Bool :=
  (text.reverse.dropWhile isBlank).head? == some ';'

/-- What one statement adds to the record of a module. A default value without a name gets the name
`defaultLocal`. -/
def ofItem (id : String) (source : List Char) (defaultLocal : String) :
    ModuleItem → Except BundleError ModuleRecord
  | .importFrom span moduleName bindings =>
    .ok { imports := [⟨span, moduleName, bindings, String.ofList (sliceBytes span.start span.stop source)⟩] }
  | .exportDefault span valueStart (some name) =>
    .ok { exports := [("default", name)], declared := [name], edits := [⟨span.start, valueStart, ""⟩] }
  | .exportDefault span valueStart none =>
    let close : List Edit := if endsWithSemicolon (takeBytes span.stop source) then []
      else [⟨span.stop, span.stop, ";"⟩]
    .ok {
      exports := [("default", defaultLocal)]
      declared := [defaultLocal]
      edits := ⟨span.start, valueStart, "var " ++ defaultLocal ++ " = "⟩ :: close }
  | .exportDeclaration span declarationStart (some names) =>
    .ok {
      exports := names.map fun name => (name, name)
      declared := names
      edits := [⟨span.start, declarationStart, ""⟩] }
  | .exportDeclaration _ _ none => .error (.unsupportedSyntax id "exported destructuring patterns")
  | .exportList _ _ (some _) => .error (.unsupportedSyntax id "re-exports from another module")
  | .exportList span names none =>
    .ok { exports := names.map fun (l, exported) => (exported, l), edits := [⟨span.start, span.stop, ""⟩] }
  | .exportAll .. => .error (.unsupportedSyntax id "export * declarations")
  | .declaration _ names => .ok { declared := names.getD [] }
  | .other _ => .ok {}

/-- The record of statements. -/
def ofItems (id : String) (source : List Char) (defaultLocal : String) :
    List ModuleItem → Except BundleError ModuleRecord
  | [] => .ok {}
  | item :: rest => do
    let own ← ofItem id source defaultLocal item
    let more ← ofItems id source defaultLocal rest
    return own.append more

/-- The record of a module, whose statements `read` finds. -/
def ofText (read : String → Option (List ModuleItem)) (id code defaultLocal : String) :
    Except BundleError ModuleRecord :=
  match read code with
  | some items => ofItems id code.toList defaultLocal items
  | none => .error (.parse id)

end ModuleRecord

/-- A module without module syntax. -/
structure LinkedModule where
  code : String
  /-- The exported names, each once, with the top-level names that hold their values. -/
  exports : List (String × String)
  deriving DecidableEq, Inhabited, Repr

/-- The last pair of each name. -/
def lastOfEach : List (String × String) → List (String × String)
  | [] => []
  | (name, value) :: rest =>
    if rest.any (·.1 == name) then lastOfEach rest else (name, value) :: lastOfEach rest

/-- Pairs in the order of their names. -/
def sortByName (pairs : List (String × String)) : List (String × String) :=
  pairs.mergeSort fun a b => a.1 < b.1 || (a.1 == b.1 && a.2 ≤ b.2)

namespace LinkedModule

/-- The top-level name that holds an export. -/
def exportLocal (linked : LinkedModule) (id name : String) : Except BundleError String :=
  match linked.exports.lookup name with
  | some l => .ok l
  | none => .error (.missingExport id name)

/-- Exported names with their values, as the inside of an object. -/
def fieldList (pairs : List (String × String)) : String :=
  ", ".intercalate (pairs.map fun (exported, l) => quote exported ++ ": " ++ l)

/-- The module as an object. -/
def wholeObject (linked : LinkedModule) : String :=
  "Object.freeze(\x7b " ++ fieldList (sortByName linked.exports) ++ " \x7d)"

/-- What a binding of an import stands for. -/
def value (linked : LinkedModule) (id : String) : ImportBinding → Except BundleError String
  | .named imported _ => linked.exportLocal id imported
  | .byDefault _ => linked.exportLocal id "default"
  | .wholeModule _ => .ok linked.wholeObject

/-- The bindings that need a variable, because they have another name than their value. -/
def aliases (linked : LinkedModule) (id : String) :
    List ImportBinding → Except BundleError (List (String × String))
  | [] => .ok []
  | b :: rest => do
    let v ← linked.value id b
    let more ← linked.aliases id rest
    return if v == b.localName then more else (b.localName, v) :: more

/-- What stands for an import of the module. -/
def aliasLines (pairs : List (String × String)) : String :=
  "\n".intercalate (pairs.map fun (l, v) => "var " ++ l ++ " = " ++ v ++ ";")

end LinkedModule

end ModuleBuild
