import ModuleBuild.Plugin.Hooks
import ModuleBuild.Plugin.Warnings
import ModuleBuild.Preflight.Cache

/-!
# Compiling a unit

The compile of one module or chunk under its local configuration and the hooks of a custom plugin.

## Main definitions

* `BuildState`, `Build` — what builds change, and builds that may fail.
* `compileUnit` — compiles a unit, unless the rules leave it out.
-/

namespace ModuleBuild

/-- What a build changes: the answers kept about configurations, and the warnings. -/
structure BuildState where
  cache : PreflightCache := {}
  warnings : WarningSet := {}
  /-- The warnings that the one who asked for the build was told, in order. -/
  told : List String := []
  deriving Inhabited

/-- A build in the monad of the compiler. What it changed stays changed when it fails. -/
abbrev Build (m : Type → Type) (α : Type) : Type :=
  ExceptT PluginError (StateT BuildState m) α

namespace Build

variable {m : Type → Type} [Monad m] {α : Type}

/-- Runs an action of the compiler. -/
def act (x : m α) : Build m α :=
  ExceptT.lift (StateT.lift x)

/-- Runs an action that may fail. -/
def attempt (x : m (Except PluginError α)) : Build m α := do
  match ← act x with
  | .ok a => return a
  | .error e => throw e

/-- Runs an action that may fail to compile a unit. -/
def attemptCompile (unit : String) (x : m (Except CompileError α)) : Build m α := do
  match ← act x with
  | .ok a => return a
  | .error e => throw (.compile unit e)

/-- Reports a warning once. -/
def warn (message : String) : Build m Unit :=
  modify fun s =>
    let (_, warnings, told) := s.warnings.report s.told message
    { s with warnings, told }

end Build

open Build

variable {m : Type → Type} [Monad m]

/-- Compiles a unit; none if the rules of its configuration leave it out. `finalize` adjusts the
options after the hook did. -/
def compileUnit (compiler : Compiler m) (overrides : Overrides m) (customOptions : Option Json)
    (unit code : String) (options : CompilerOptions)
    (finalize : CompilerOptions → Build m CompilerOptions) : Build m (Option CompileOutput) := do
  let some config ← attemptCompile unit (compiler.loadPartialConfig options) | return none
  let adjusted ← match overrides.config with
    | some hook => attempt (HookOutput.resolve <$> hook config { code, customOptions })
    | none => pure config.options
  let compileOptions ← finalize adjusted
  let output ← attemptCompile unit (compiler.compile code compileOptions)
  match overrides.result with
  | some hook =>
    some <$> attempt (HookOutput.resolve <$>
      hook output { code, customOptions, config, compileOptions })
  | none => return some output

end ModuleBuild
