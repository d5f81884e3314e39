import ModuleBuild.Script.Names

/-!
# Leaving types out

What remains of a program with types: imports and exports that only concern types go away, and a
program that was a module stays one.

## Main definitions

* `Program.eraseTypes` — the program without types.
-/

namespace ModuleBuild.Script

/-- What decides whether an import is used. -/
structure Usage where
  /-- The names that values refer to. -/
  values : List String
  /-- The names that types declare. -/
  types : List String
  deriving Inhabited

/-- The names that values of a statement refer to on the top level. -/
def valueNames (fuel : Nat) (n : Node) : List String :=
  match n with
  | .exportList _ specifiers none _ => specifiers.map (·.localName.text)
  | n => freeNames fuel n

/-- Whether a node is an element, or a fragment. -/
def isMarkup : Node → Bool
  | .markup .. => true
  | _ => false

/-- What a program refers to. Markup refers to the name that its functions usually have. -/
def Program.usage (p : Program) : Usage :=
  let fuel := p.depth
  let values := p.body.flatMap (valueNames fuel)
  let markup := if p.nodes.any isMarkup then ["React"] else []
  let types := p.body.filterMap fun
    | .erased _ _ name => name
    | _ => none
  let declared := p.body.flatMap fun
    | .exportDecl _ d => declaredNames fuel d
    | n => declaredNames fuel n
  { values := markup ++ values, types := without types declared }

/-- What remains of an import or export: none if it goes away. -/
def Usage.keep (u : Usage) (n : Node) : Option Node :=
  match n with
  | .importModule span d =>
    match d.specifiers with
    | none => some n
    | some [] => some (.importModule span { d with specifiers := none })
    | some specifiers =>
      let kept := specifiers.filter fun s => u.values.contains s.localName
      if kept.isEmpty then none
      else some (.importModule span { d with specifiers := some kept })
  | .exportList span specifiers none attributes =>
    let kept := specifiers.filter fun s => !u.types.contains s.localName.text
    if kept.isEmpty && !specifiers.isEmpty then none
    else some (.exportList span kept none attributes)
  | .exportDefault _ (.ident _ name) => if u.types.contains name then none else some n
  | .erased .. => none
  | n => some n

/-- Whether a statement is module syntax. -/
def isModuleSyntax : Node → Bool
  | .importModule .. | .exportDecl .. | .exportList .. | .exportAll .. | .exportDefault .. => true
  | .erased _ isModule _ => isModule
  | _ => false

/-- The program without types. A module that would be one no longer gets an empty export, unless other
imports are added. -/
def Program.eraseTypes (p : Program) (addsImports : Bool) : Program :=
  let u := p.usage
  let body := p.body.filterMap u.keep
  let lost := p.body.any fun n => isModuleSyntax n && (u.keep n).isNone
  let isModule := body.any isModuleSyntax
  let mark : List Node := if lost && !isModule && !addsImports then [.exportList default [] none []]
    else []
  { p with body := body ++ mark }

end ModuleBuild.Script
