import ModuleBuild.Compile.Plugins
import ModuleBuild.Script.Syntax
import ModuleBuild.Text.Bytes

/-!
# Sites

The places in compiled code that plugins may rewrite: class declarations, and the function of calls of
the form `object.property(…)`.

## Main definitions

* `Site` — a place and what stands there.
* `Program.sites` — the sites of a program, in order.
-/

namespace ModuleBuild

open Script Text

/-- A place that plugins may rewrite. -/
inductive Site where
  | classDeclaration (span : Span) (site : ClassSite)
  | call (span : Span) (site : CallSite)
  deriving DecidableEq, Inhabited, Repr

/-- The place of a site. -/
def Site.span : Site → Span
  | classDeclaration s _ | call s _ => s

/-- The text at a place. -/
def textAt (source : List Char) (span : Span) : String :=
  String.ofList (sliceBytes span.start span.stop source)

/-- The site that a node is itself. -/
def siteAt (source : List Char) : Node → List Site
  | .decl (.cls span _ name superClass _) =>
    [.classDeclaration span { name, superClass := superClass.map fun s => textAt source s.span }]
  | .call _ (.member span (.ident _ object) property _) _ _ _ => [.call span { object, property }]
  | _ => []

/-- The sites of a program, each before the ones inside of it. -/
def Script.Program.sites (p : Program) (source : String) : List Site :=
  p.nodes.flatMap (siteAt source.toList)

end ModuleBuild
