import ModuleBuild.Compile.Compiler
import ModuleBuild.Preflight.Signature

/-!
# Preflight

Before a file is first compiled, a fixed probe is compiled with the file's options. The output tells
whether these options keep module syntax, and how they emit helpers. The answer is kept by the name of
the file.

## Main definitions

* `probe` — compiles the probe and classifies the output.
* `PreflightCache` — the answers kept.
* `PreflightCache.classify` — the answer for some options, from the cache or from a probe.
-/

namespace ModuleBuild

/-- The source of the probe. -/
def probeSource : String := "class Foo extends Bar \x7b\x7d;\nexport default Foo;"

variable {m : Type → Type} [Monad m]

/-- What the output of a probe says. -/
def classifyOutput (code : String) : Except PluginError HelperStrategy :=
  if !keepsDefaultExport code then .error .moduleSyntaxStripped
  else
    match matchStrategy code with
    | some strategy => .ok strategy
    | none => .error .unexpectedHelperStrategy

/-- Compiles the probe; if a class comes through, once more with classes replaced by force. -/
def probe (compiler : Compiler m) (options : CompilerOptions) :
    m (Except PluginError HelperStrategy) := do
  let unit := options.unitName
  match ← compiler.compileProbe probeSource options with
  | .error e => return .error (.compile unit e)
  | .ok first =>
    if hasClassDeclaration first.code then
      match ← compiler.compileProbe probeSource (options.withPlugin (.live .fallbackClass)) with
      | .error e => return .error (.compile unit e)
      | .ok second => return classifyOutput second.code
    else return classifyOutput first.code

/-- The strategies found so far, by the name of the file. -/
structure PreflightCache where
  results : List (String × HelperStrategy) := []
  deriving DecidableEq, Inhabited, Repr

namespace PreflightCache

/-- The name under which an answer is kept. -/
def key (options : CompilerOptions) : String :=
  match options.filename with
  | some p => p.text
  | none => ""

/-- The answer kept for these options. -/
def get? (cache : PreflightCache) (options : CompilerOptions) : Option HelperStrategy :=
  cache.results.lookup (key options)

/-- The number of answers kept. -/
def size (cache : PreflightCache) : Nat :=
  cache.results.length

/-- Whether no answer is kept. -/
def isEmpty (cache : PreflightCache) : Bool :=
  cache.results.isEmpty

/-- Keeps an answer in place of an earlier one of the same name. -/
def insert (cache : PreflightCache) (options : CompilerOptions) (strategy : HelperStrategy) :
    PreflightCache :=
  ⟨(key options, strategy) :: cache.results.filter (·.1 != key options)⟩

/-- The answer for some options. Only a successful probe is kept. -/
def classify (cache : PreflightCache) (compiler : Compiler m) (options : CompilerOptions) :
    m (Except PluginError HelperStrategy × PreflightCache) := do
  match cache.get? options with
  | some strategy => return (.ok strategy, cache)
  | none =>
    match ← probe compiler options with
    | .ok strategy => return (.ok strategy, cache.insert options strategy)
    | .error e => return (.error e, cache)

end PreflightCache

end ModuleBuild
