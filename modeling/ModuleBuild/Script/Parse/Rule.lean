import ModuleBuild.Script.Parse.Basic

/-!
# Rules of the grammar

The rules that other rules refer to. Each rule is written as a parser over all rules, whatever these
are; the grammar then ties them together. In this way rules stand in separate modules, and recursion
is in one place only.

## Main definitions

* `Rule` — the rules that are referred to, with the type of their result.
* `Rules` — a parser for each rule.
-/

namespace ModuleBuild.Script

/-- The rules that other rules refer to. -/
inductive Rule : Type → Type 1 where
  /-- Expressions between commas. -/
  | expression : Rule Node
  /-- An expression without commas. -/
  | assignment : Rule Node
  /-- An expression without binary operators. -/
  | unary : Rule Node
  /-- A value with its properties, indices and calls, as `new` expects it or not. -/
  | access (forNew : Bool) : Rule Node
  | statement : Rule Node
  /-- What a declaration binds, without a default. -/
  | binding : Rule Node
  /-- A function behind its name: parameters and body. -/
  | functionRest (start : Nat) (shape : FuncShape) (name : Option String) : Rule Node
  /-- A class, from its keyword or decorators. -/
  | classRest (start : Nat) (decorators : List Node) : Rule Node
  /-- A type, which leaves nothing. -/
  | type : Rule Unit
  /-- A type without `extends`, `|` and `&`. -/
  | postfixType : Rule Unit
  /-- Markup, from its opening bracket; the bracket that closes it stays at hand. -/
  | markup : Rule Node

/-- A parser for each rule. -/
abbrev Rules : Type 1 := {α : Type} → Rule α → Parse α

end ModuleBuild.Script
