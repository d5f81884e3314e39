import ModuleBuild.Script.Syntax

/-!
# Names in programs

## Main definitions

* `boundNames`, `declaredNames`, `exportedNames` — what patterns bind, what declarations declare, and
  what statements export.
* `freeNames` — the names that an expression or statement takes from around it.
* `identifiers` — all names of variables in a program.
-/

namespace ModuleBuild.Script

/-- The names that a pattern binds. `fuel` bounds how deep it is nested. -/
def boundNames : Nat → Node → List String
  | 0, _ => []
  | fuel + 1, n =>
    match n with
    | .binding _ name => [name]
    | .property _ _ _ value => boundNames fuel value
    | .withDefault _ pattern _ => boundNames fuel pattern
    | .arrayPattern .. | .objectPattern .. | .rest .. => n.children.flatMap (boundNames fuel)
    | _ => []

/-- The names that a declaration binds. -/
def declaredNames (fuel : Nat) : Node → List String
  | .var _ _ declarators => declarators.flatMap fun
    | .declarator _ pattern _ => boundNames fuel pattern
    | _ => []
  | .decl (.func _ _ name _ _) | .decl (.cls _ _ name _ _) => name.toList
  | _ => []

/-- The names under which a statement exports something. -/
def exportedNames (fuel : Nat) : Node → List String
  | .exportDecl _ declaration => declaredNames fuel declaration
  | .exportList _ specifiers _ _ => specifiers.map (·.exported.text)
  | .exportAll _ exported _ _ => exported.toList.map (·.text)
  | .exportDefault .. => ["default"]
  | _ => []

/-- The names that `var` declares for the function around a statement. -/
def hoistedNames : Nat → Node → List String
  | 0, _ => []
  | fuel + 1, n =>
    match n with
    | .func .. | .cls .. | .decl _ => []
    | .var _ .varDecl _ => declaredNames fuel n
    | n => n.children.flatMap (hoistedNames fuel)

/-- The names that are not among the ones bound here. -/
def without (names bound : List String) : List String :=
  names.filter (!bound.contains ·)

/-- The names that the head of a loop declares. -/
def headNames (fuel : Nat) (head : Option Node) : List String :=
  (head.map (declaredNames fuel)).getD []

/-- The names that a node takes from around it. -/
def freeNames : Nat → Node → List String
  | 0, _ => []
  | fuel + 1, n =>
    let inside : List String := n.children.flatMap (freeNames fuel)
    match n with
    | .ident _ name => [name]
    | .func _ shape name parameters inner =>
      let statements := match inner with
        | .body _ statements => statements
        | _ => []
      let own := if shape.isArrow then [] else "arguments" :: name.toList
      without inside (own ++ parameters.flatMap (boundNames fuel) ++ hoistedNames fuel inner ++
        statements.flatMap (declaredNames fuel))
    | .cls _ _ name _ _ => without inside name.toList
    | .block _ statements | .case _ _ statements =>
      without inside (statements.flatMap (declaredNames fuel))
    | .staticBlock _ statements =>
      without inside (statements.flatMap (declaredNames fuel) ++ hoistedNames fuel n)
    | .forLoop _ start _ _ _ => without inside (headNames fuel start)
    | .forIn _ head _ _ | .forOf _ _ head _ _ => without inside (headNames fuel (some head))
    | .tryBlock _ guarded parameter handler finalizer =>
      let caught := without (handler.toList.flatMap (freeNames fuel))
        (parameter.toList.flatMap (boundNames fuel))
      freeNames fuel guarded ++ parameter.toList.flatMap (freeNames fuel) ++ caught ++
        finalizer.toList.flatMap (freeNames fuel)
    | _ => inside

/-- The name of a variable that a node mentions or binds. -/
def ownIdentifier : Node → List String
  | .ident _ name | .binding _ name => [name]
  | .func _ _ name _ _ | .cls _ _ name _ _ => name.toList
  | .importModule _ d => (d.specifiers.getD []).map (·.localName)
  | _ => []

/-- All names of variables in a program. -/
def Program.identifiers (p : Program) : List String :=
  p.nodes.flatMap ownIdentifier

end ModuleBuild.Script
