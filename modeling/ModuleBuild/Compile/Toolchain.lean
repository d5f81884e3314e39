import ModuleBuild.Compile.Site
import ModuleBuild.Script.Item
import ModuleBuild.Script.Plain

/-!
# Toolchains

What the standard compiler needs of a language: plain code for a source, and the structure of plain
code. The compiler itself looks at nothing else, so what it does can be stated for any toolchain.

## Main definitions

* `PlainUnit` — the structure of plain code.
* `Toolchain` — the two steps.
* `Toolchain.standard` — the toolchain for scripts, types and markup.
* `MarkupSettings`, `Toolchain.ofSettings` — what users may say about markup, and their toolchain.
-/

namespace ModuleBuild

open Script

/-- The structure of plain code. -/
structure PlainUnit where
  sites : List Site
  items : List ModuleItem
  deriving Inhabited

/-- The two steps that the standard compiler is built on. -/
structure Toolchain where
  /-- Plain code for a source; none if the source has no meaning. -/
  plain? : CompilerOptions → String → Except CompileError PlainProgram
  /-- The structure of plain code, read as a module or not. -/
  read? : (isModule : Bool) → String → Option PlainUnit

/-- The dialect of a file, by what stands behind the last point of its name. -/
def dialectOf (filename : Option Path) (kind : Option SourceKind) : Dialect :=
  let extension := (filename.bind (·.extension?)).getD ""
  { isModule := match kind with
      | some kind => kind == .module
      | none => !(["cjs", "cts"].contains extension)
    hasTypes := ["ts", "mts", "cts", "tsx"].contains extension
    hasMarkup := ["jsx", "tsx"].contains extension }

/-- The standard toolchain, in which markup calls the functions of a runtime. -/
def Toolchain.standard (markup : MarkupRuntime) : Toolchain where
  plain? options code :=
    match PlainProgram.ofSource? (dialectOf options.filename options.sourceType) markup
        options.minify code with
    | some p => .ok p
    | none => .error .parse
  read? isModule code :=
    (Program.parse? { isModule } code).map fun p => { sites := p.sites code, items := p.items }

/-- What users may say about markup. -/
structure MarkupSettings where
  /-- Whether elements become calls of functions that each file has itself. -/
  classic : Bool := false
  /-- The function for elements, and the value for fragments, of the classic runtime. -/
  element : Option String := none
  fragment : Option String := none
  /-- The package that the other runtime is imported from. -/
  package : Option String := none
  deriving DecidableEq, Inhabited, Repr

namespace MarkupSettings

/-- The runtime that settings describe. Each runtime refuses what only the other one has. -/
def runtime (settings : MarkupSettings) : Except CompileError MarkupRuntime :=
  if settings.classic then
    if settings.package.isSome then
      .error (.transform "importSource cannot be set when runtime is classic.")
    else
      .ok (.classic (settings.element.getD "React.createElement")
        (settings.fragment.getD "React.Fragment"))
  else if settings.element.isSome || settings.fragment.isSome then
    .error (.transform "pragma and pragmaFrag cannot be set when runtime is automatic.")
  else .ok (.automatic (settings.package.getD "react"))

end MarkupSettings

/-- The standard toolchain under settings. Settings that describe no runtime make every compile fail
behind the reading of its source. -/
def Toolchain.ofSettings (settings : MarkupSettings) : Toolchain :=
  match settings.runtime with
  | .ok markup => standard markup
  | .error e =>
    let fallback := standard (.automatic "")
    { fallback with plain? := fun options code => do
        let _ ← fallback.plain? options code
        throw e }

end ModuleBuild
