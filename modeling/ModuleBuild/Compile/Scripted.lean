import ModuleBuild.Compile.Compiler
import ModuleBuild.Preflight.Signature

/-!
# Compilers that follow a script

A compiler whose answers are laid down before, for builds in which the code itself does not matter.

## Main definitions

* `CompilerScript` — the answers.
* `CompilerScript.compile` — a compile: the code with the helpers that the script asks for.
* `scriptedCompiler` — the compiler.
-/

namespace ModuleBuild

open Text

/-- The answers of a compiler. -/
structure CompilerScript where
  /-- What probes give, and what they give when classes are rewritten. -/
  probe : String := ""
  fallback : Option String := none
  /-- The helpers that each compile asks for. -/
  helperRequests : List String := []
  /-- Whether all files are left out. -/
  excluded : Bool := false
  /-- The texts with which the steps fail. -/
  configFailure : Option String := none
  probeFailure : Option String := none
  failure : Option String := none
  extensions : List String := plainExtensions
  deriving Inhabited

namespace CompilerScript

/-- Fails with the text, if there is one. -/
def failing {α : Type} (text : Option String) (answer : Except CompileError α) :
    Except CompileError α :=
  match text with
  | some text => .error (.transform text)
  | none => answer

/-- The options of a file. -/
def loadConfig (script : CompilerScript) (options : CompilerOptions) :
    Except CompileError (Option PartialConfig) :=
  failing script.configFailure (.ok (if script.excluded then none else some { options }))

/-- What a probe gives. -/
def compileProbe (script : CompilerScript) (options : CompilerOptions) :
    Except CompileError CompileOutput :=
  let rewritesClasses := options.plugins.any (·.name == CompilerPlugin.fallbackClass.name)
  let code := if rewritesClasses then script.fallback.getD script.probe else script.probe
  failing script.probeFailure (.ok { code })

/-- An import as a line. -/
def importLine : InjectedImport → String
  | .named imported l source => "named " ++ imported ++ " as " ++ l ++ " from " ++ debugQuote source
  | .default l source => "default " ++ l ++ " from " ++ debugQuote source

/-- Calls of helpers, and the file that has them. -/
def requestHelpers : List String → FileState → Except CompileError (List String × FileState)
  | [], file => .ok ([], file)
  | name :: rest, file => do
    let (reference, file) ← file.addHelper name
    let (calls, file) ← requestHelpers rest file
    return (("\n" ++ reference ++ "();") :: calls, file)

/-- A compile. -/
def compile (script : CompilerScript) (code : String) (options : CompilerOptions) :
    Except CompileError CompileOutput :=
  failing script.failure do
    let file : FileState := { filename := options.filename, caller := options.caller, code }
    let file := (options.plugins.filterMap (·.live?)).foldl (fun file p => p.prepare file) file
    let (calls, file) ← requestHelpers script.helperRequests file
    let lines := (file.imports.map importLine ++ file.inlineHelpers).map (· ++ "\n")
    return { code := String.join lines ++ code ++ String.join calls }

end CompilerScript

/-- The compiler that follows a script. -/
def scriptedCompiler {m : Type → Type} [Monad m] (script : CompilerScript) : Compiler m where
  loadPartialConfig options := pure (script.loadConfig options)
  compileProbe _ options := pure (script.compileProbe options)
  compile code options := pure (script.compile code options)
  helperBundle := helperBundle helperRegistry
  defaultExtensions := script.extensions

end ModuleBuild
