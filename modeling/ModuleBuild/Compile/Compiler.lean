import ModuleBuild.Compile.Plugins
import ModuleBuild.Compile.SourceMap
import ModuleBuild.Helper.Bundle

/-!
# Compilers

What the bundler plugins need from a compiler. They never look inside of one: they resolve a partial
configuration, compile, and ask for the unit of helpers.

## Main definitions

* `PartialConfig` — the options of one file with everything local merged in.
* `CompileOutput` — what a compile gives.
* `Compiler` — the interface, in any monad.
-/

namespace ModuleBuild

/-- The options of a file with its local configuration under them. -/
structure PartialConfig where
  options : CompilerOptions
  /-- The local configuration file that applies. -/
  configFile : Option Path := none
  deriving Inhabited

/-- What a compile gives. -/
structure CompileOutput where
  code : String
  map : Option SourceMap := none
  deriving DecidableEq, Inhabited, Repr

/-- A compiler whose calls are actions of `m`. -/
structure Compiler (m : Type → Type) where
  /-- The options of a file with its local configuration; none if the rules leave the file out. -/
  loadPartialConfig : CompilerOptions → m (Except CompileError (Option PartialConfig))
  /-- Compiles a probe. -/
  compileProbe : String → CompilerOptions → m (Except CompileError CompileOutput)
  /-- Compiles a module or chunk. -/
  compile : String → CompilerOptions → m (Except CompileError CompileOutput)
  /-- The unit of helpers. -/
  helperBundle : Option (List String) → HelperBundleShape → String
  /-- The extensions of the files that are compiled unless users say otherwise. -/
  defaultExtensions : List String

/-- The extensions of modules without types. -/
def plainExtensions : List String :=
  [".js", ".jsx", ".es6", ".es", ".mjs"]

end ModuleBuild
