/-!
# Importing helpers from a shared module

In place of a copy of each helper in each file, a file imports helpers from one virtual module. An
importer serves one file: it asks for an import on the first request of a helper and repeats the same
reference after that.

## Main definitions

* `HelperHost` — what an importer needs from the file being compiled.
* `HelperImporter` — the shared module and the references given so far.
* `HelperImporter.resolve` — the reference to a helper.
-/

namespace ModuleBuild

/-- The identifier of the shared helper module. The NUL at its start keeps files from naming it, and
other plugins from touching it. -/
def helperModuleId : String := "\x00viperTransformHelpers.js"

/-- What an importer needs from a file with state `σ`. -/
structure HelperHost (σ : Type) where
  /-- Whether the compiler has a helper of this name. -/
  available : σ → String → Bool
  /-- Imports a name from a module; gives the binding of the import. -/
  addNamedImport : σ → (name source : String) → String × σ

/-- Serves the helper requests of one file. -/
structure HelperImporter where
  moduleId : String
  /-- The references given so far, by helper. -/
  references : List (String × String) := []
  deriving DecidableEq, Inhabited, Repr

namespace HelperImporter

/-- The reference to a helper, which is imported on the first request; none if the compiler does not
have it. -/
def resolve {σ : Type} (host : HelperHost σ) (importer : HelperImporter) (file : σ) (name : String) :
    Option String × HelperImporter × σ :=
  if !host.available file name then (none, importer, file)
  else
    match importer.references.lookup name with
    | some reference => (some reference, importer, file)
    | none =>
      let (reference, file) := host.addNamedImport file name importer.moduleId
      (some reference, { importer with references := (name, reference) :: importer.references }, file)

end HelperImporter

end ModuleBuild
