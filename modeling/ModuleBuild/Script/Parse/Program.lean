import ModuleBuild.Script.Names
import ModuleBuild.Script.Parse.Markup
import ModuleBuild.Script.Parse.Statements

/-!
# Reading programs

All rules of the grammar tied together, and whole programs.

## Main definitions

* `grammar` — a parser for each rule.
* `Program.parse?` — a program from its text.
-/

namespace ModuleBuild.Script

open Text

/-- The rules of the grammar. Rules refer to each other at most `fuel` levels deep. -/
def grammar : Nat → {α : Type} → Rule α → Parse α
  | 0, _, _ => failure
  | fuel + 1, _, rule =>
    let rules : Rules := fun r => grammar fuel r
    match rule with
    | .expression => expressionRule rules
    | .assignment => assignmentRule rules
    | .unary => unaryRule rules
    | .access forNew => accessRule rules forNew
    | .statement => statementRule rules
    | .binding => bindingRule rules
    | .functionRest start shape name => functionRestRule rules start shape name
    | .classRest start decorators => classRule rules start decorators
    | .type => typeRule rules
    | .postfixType => postfixTypeRule rules
    | .markup => markupRule rules

/-- The first line of a source that starts with `#!`, behind these characters. -/
def hashbang? (cs : List Char) : Option (List Char) :=
  match cs with
  | '#' :: '!' :: rest => some (rest.takeWhile (!isLineEnd ·))
  | _ => none

/-- The state of a parser before the first token. -/
def ParseState.start (dialect : Dialect) (text : List Char) : ParseState :=
  let mark := text.takeWhile (· == '\ufeff') |>.take 1
  let line := hashbang? (text.drop mark.length)
  let cursor := (Cursor.mk 0 text).skip mark
  let next := match line with
    | some line => cursor.skip ('#' :: '!' :: line)
    | none => cursor
  { dialect
    scope := { isAsync := dialect.isModule }
    size := text.length
    token := default
    here := cursor
    next }

/-- Whether a node makes sense only as part of a pattern that it is not part of. -/
def isCover : Node → Bool
  | .cover .. => true
  | _ => false

/-- Whether no item comes twice. -/
def allDifferent : List String → Bool
  | [] => true
  | s :: rest => !rest.contains s && allDifferent rest

/-- The program of a text. -/
def Program.parse? (dialect : Dialect) (source : String) : Option Program := do
  let text := source.toList
  let start := ParseState.start dialect text
  let (body, s) ← (do
    advance
    let body ← statementList fun r => grammar (16 * text.length + 64) r
    require ((← token).kind == .eof)
    return body : Parse (List Node)).run start
  let comments := (s.comments.pending ++ s.comments.settled).reverse
  let p : Program := {
    hashbang := (hashbang? (text.dropWhile (· == '\ufeff'))).map String.ofList
    body
    comments
    size := byteLength text }
  if p.nodes.any isCover then none
  if !dialect.hasTypes && !allDifferent (body.flatMap (exportedNames (text.length + 1))) then none
  return p

end ModuleBuild.Script
