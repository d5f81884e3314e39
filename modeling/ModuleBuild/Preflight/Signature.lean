import ModuleBuild.Text.Search

/-!
# Signatures of compiled probes

What the text of a compiled probe tells about the configuration that compiled it.

## Main definitions

* `HelperStrategy` — how a configuration emits helpers.
* `hasClassDeclaration`, `keepsDefaultExport` — whether classes and module syntax came through.
* `matchStrategy` — the strategy that the text shows.
-/

namespace ModuleBuild

open Text

/-- How a configuration emits helpers. -/
inductive HelperStrategy where
  /-- Imports from a runtime package. -/
  | runtime
  /-- Definitions in each file. -/
  | inline
  /-- References on a global namespace. -/
  | external
  deriving DecidableEq, Inhabited, Repr

/-- The name of a strategy. -/
def HelperStrategy.name : HelperStrategy → String
  | runtime => "Runtime"
  | inline => "Inline"
  | external => "External"

/-- Whether a class came through, so that no helper can be seen yet. -/
def hasClassDeclaration (code : String) : Bool :=
  occurs "class " code

/-- The forms that a default export takes. -/
def defaultExportMarkers : List String :=
  ["export default", "export default Foo", "export \x7b Foo as default \x7d"]

/-- Whether the default export came through. -/
def keepsDefaultExport (code : String) : Bool :=
  defaultExportMarkers.any (occurs · code)

/-- Whether the `inherits` helper is imported from a runtime package. -/
def importsRuntimeHelper (code : String) : Bool :=
  occurs "/helpers/inherits" code || occurs "/helpers/esm/inherits" code

/-- The strategy that a text shows, the first of the three that matches. -/
def matchStrategy (code : String) : Option HelperStrategy :=
  if importsRuntimeHelper code then some .runtime
  else if occurs "function _inherits" code then some .inline
  else if occurs "babelHelpers" code then some .external
  else none

end ModuleBuild
