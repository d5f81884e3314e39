import ModuleBuild.Compile.Edit
import ModuleBuild.Error
import ModuleBuild.Script.Item
import ModuleBuild.Text.Quoted

/-!
# Modules without module syntax

Imports become calls of `require`, and exports become properties of `exports`.

## Main definitions

* `importLines` — what stands for an import.
* `ModuleItem.commonJsEdits` — the edits of one statement.
* `commonJsEdits` — the edits of a module.
* `hasExports` — whether a module exports anything.
-/

namespace ModuleBuild

open Script Text

/-- A call that loads a module. -/
def requireCall (source : String) : String :=
  "require(" ++ quote source ++ ")"

/-- The variable that stands for a binding of an import. -/
def requireLine (source : String) : ImportBinding → String
  | .named imported l => "var " ++ l ++ " = " ++ requireCall source ++ "[" ++ quote imported ++ "];"
  | .byDefault l => "var " ++ l ++ " = " ++ requireCall source ++ ".default;"
  | .wholeModule l => "var " ++ l ++ " = " ++ requireCall source ++ ";"

/-- What stands for an import: one variable for each binding. -/
def importLines (source : String) (bindings : List ImportBinding) : List String :=
  match bindings with
  | [] => [requireCall source ++ ";"]
  | bindings => bindings.map (requireLine source)

/-- The assignment of an export by a name that may be any text. -/
def exportLine (exported value : String) : String :=
  "exports[" ++ quote exported ++ "] = " ++ value ++ ";"

/-- What stands for an export list. The module that it takes from, if there is one, is kept in a
variable with this number. -/
def exportListLines (number : Nat) (names : List (String × String)) (source : Option String) :
    List String :=
  match source with
  | none => names.map fun (l, exported) => exportLine exported l
  | some source =>
    let whole := "_reexport" ++ toString number
    ("var " ++ whole ++ " = " ++ requireCall source ++ ";") ::
      names.map fun (l, exported) => exportLine exported (whole ++ "[" ++ quote l ++ "]")

/-- What stands for an export of a whole module. -/
def exportAllText (exported : Option String) (source : String) : String :=
  match exported with
  | some name => exportLine name (requireCall source)
  | none =>
    "var _all = " ++ requireCall source ++ ";\nfor (var _key in _all) " ++
      "if (_key !== \"default\") exports[_key] = _all[_key];"

/-- The edits of one statement. `number` is the number of a module that it takes exports from. -/
def Script.ModuleItem.commonJsEdits (number : Nat) : ModuleItem → Except CompileError (List Edit)
  | .importFrom span source bindings =>
    .ok [⟨span.start, span.stop, "\n".intercalate (importLines source bindings)⟩]
  | .exportDefault span valueStart _ => .ok [⟨span.start, valueStart, "exports.default = "⟩]
  | .exportDeclaration span declarationStart names =>
    match names with
    | none => .error (.transform "modules-commonjs cannot export destructured bindings")
    | some names =>
      let assignments := names.map fun name => "\nexports." ++ name ++ " = " ++ name ++ ";"
      .ok [⟨span.start, declarationStart, ""⟩, ⟨span.stop, span.stop, String.join assignments⟩]
  | .exportList span names source =>
    .ok [⟨span.start, span.stop, "\n".intercalate (exportListLines number names source)⟩]
  | .exportAll span exported source => .ok [⟨span.start, span.stop, exportAllText exported source⟩]
  | .declaration .. | .other _ => .ok []

/-- Whether a statement takes exports from another module by their names. -/
def takesExports : ModuleItem → Bool
  | .exportList _ _ (some _) => true
  | _ => false

/-- The edits of statements, of which the first one that takes exports from a module gets this
number. -/
def commonJsEditsFrom : Nat → List ModuleItem → Except CompileError (List Edit)
  | _, [] => .ok []
  | number, item :: rest => do
    let edits ← item.commonJsEdits number
    let more ← commonJsEditsFrom (if takesExports item then number + 1 else number) rest
    return edits ++ more

/-- The edits that turn module syntax into calls and assignments. -/
def commonJsEdits (items : List ModuleItem) : Except CompileError (List Edit) :=
  commonJsEditsFrom 1 items

/-- Whether a module exports anything. -/
def hasExports (items : List ModuleItem) : Bool :=
  items.any (·.isExport)

end ModuleBuild
