import ModuleBuild.Helper.Registry

/-!
# Helpers as a unit of their own

The helpers that some files need, written as one module or script that provides them to the others.

## Main definitions

* `HelperBundleShape` — how the helpers are provided.
* `helperBundle` — the text of the unit.
-/

namespace ModuleBuild

/-- How a unit of helpers provides them. -/
inductive HelperBundleShape where
  /-- A module with one export per helper. -/
  | module
  /-- A script that adds the helpers to a global object. -/
  | global
  /-- A script with a variable of its own for them. -/
  | var
  deriving DecidableEq, Inhabited, Repr

/-- The global object that scripts find helpers on. -/
def helperNamespace : String := "babelHelpers"

/-- The shape of this name. -/
def HelperBundleShape.ofName? : String → Option HelperBundleShape
  | "module" => some .module
  | "global" => some .global
  | "var" => some .var
  | _ => none

/-- What stands before the helpers. -/
def HelperBundleShape.opening : HelperBundleShape → String
  | .module => ""
  | .global =>
    "(function (global) \x7b\nvar " ++ helperNamespace ++ " = global." ++ helperNamespace ++
      " = global." ++ helperNamespace ++ " || \x7b\x7d;\n"
  | .var => "(function (global) \x7b\nvar " ++ helperNamespace ++ " = \x7b\x7d;\n"

/-- What stands behind the helpers and provides these ones. -/
def HelperBundleShape.closing (shape : HelperBundleShape) (provided : List Helper) : String :=
  match shape with
  | .module =>
    "export \x7b " ++
      String.intercalate ", " (provided.map fun h => h.localName ++ " as " ++ h.name) ++ " \x7d;\n"
  | .global | .var =>
    String.join (provided.map fun h =>
      helperNamespace ++ "." ++ h.name ++ " = " ++ h.localName ++ ";\n") ++
      "\x7d)(typeof globalThis !== \"undefined\" ? globalThis : this);\n"

/-- The unit for the helpers of the whitelist, or for all of them: the helpers and what they need,
of which the ones asked for are provided. -/
def helperBundle (registry : Registry) (whitelist : Option (List String))
    (shape : HelperBundleShape) : String :=
  let requested := whitelist.getD (registry.map (·.name))
  let helpers := registry.closure requested
  shape.opening ++ String.join (helpers.map fun h => h.body ++ "\n") ++
    shape.closing (helpers.filter fun h => requested.contains h.name)

end ModuleBuild
