import ModuleBuild.Script.Erasure
import ModuleBuild.Script.Markup
import ModuleBuild.Script.Parse.Program
import ModuleBuild.Script.Print.Statements

/-!
# Plain programs

A source with types or markup written as a plain program.

## Main definitions

* `PlainProgram` — the text of a plain program.
* `PlainProgram.ofSource?` — the plain program of a source.
-/

namespace ModuleBuild.Script

/-- A program without types and markup, as text. -/
structure PlainProgram where
  code : String
  /-- The number of lines before the first one that comes from the source. -/
  skip : Nat
  deriving DecidableEq, Inhabited, Repr

/-- Whether a statement stands before those that are added to a program. -/
def leadsProgram : Node → Bool
  | .directive .. | .importModule .. => true
  | _ => false

/-- A program with statements added behind its leading imports. -/
def Program.adding (p : Program) (statements : List Node) : Program :=
  let lead := if statements.isEmpty then [] else p.body.takeWhile leadsProgram
  { p with body := lead ++ statements ++ p.body.drop lead.length }

/-- The plain program of a source; none if the source has no meaning. -/
def PlainProgram.ofSource? (dialect : Dialect) (markup : MarkupRuntime) (minify : Bool)
    (source : String) : Option PlainProgram := do
  let p ← Program.parse? dialect source
  let plan := markup.plan dialect.isModule p
  let p := if dialect.hasTypes then p.eraseTypes !plan.provided.isEmpty else p
  let (code, firstLine) := (p.adding plan.provided).print { minify, lower := plan.calls.lower }
  return { code, skip := firstLine.getD 0 }

end ModuleBuild.Script
