import ModuleBuild.Script.Numeral
import ModuleBuild.Script.Print.Basic

/-!
# Printing literals

## Main definitions

* `cheapestQuote` — the quote that needs the fewest escapes.
* `stringBody` — the inside of a string.
* `printString`, `printNumber`, `printBigint` — literals.
-/

namespace ModuleBuild.Script

/-- What strings of each kind of quote need escapes for, in characters. -/
def quoteCost (quote : Char) : List Char → Int
  | [] => 0
  | '$' :: '\x7b' :: rest =>
    (if quote == '\x60' then 1 else 0) + quoteCost quote rest
  | c :: rest =>
    (if c == quote then 1 else if c == '\n' && quote == '\x60' then -1 else 0) + quoteCost quote rest

/-- The quote that needs the fewest escapes: a backtick where it may stand, or else a double quote, if
several are equally good. -/
def cheapestQuote (allowsBacktick : Bool) (cs : List Char) : Char :=
  let double := quoteCost '"' cs
  let single := quoteCost '\'' cs
  let plain := if single < double then '\'' else '"'
  if allowsBacktick && quoteCost '\x60' cs ≤ min single double then '\x60' else plain

/-- A character inside of a string; whether a digit follows matters for NUL. -/
def escapedChar (quote c : Char) (next : Option Char) : List Char :=
  match c with
  | '\x00' => if next.any Char.isDigit then "\\x00".toList else "\\0".toList
  | '\x07' => "\\x07".toList
  | '\x08' => "\\b".toList
  | '\n' => if quote == '\x60' then ['\n'] else "\\n".toList
  | '\x0b' => "\\v".toList
  | '\x0c' => "\\f".toList
  | '\r' => "\\r".toList
  | '\x1b' => "\\x1B".toList
  | '\\' => "\\\\".toList
  | '\u2028' => "\\u2028".toList
  | '\u2029' => "\\u2029".toList
  | '\xa0' => "\\xA0".toList
  | '$' => if quote == '\x60' && next == some '\x7b' then "\\$".toList else ['$']
  | c => if c == quote then ['\\', c] else [c]

/-- The inside of a string. -/
def stringBody (quote : Char) : List Char → List Char
  | [] => []
  | c :: rest => escapedChar quote c rest.head? ++ stringBody quote rest

/-- The inside of a string in which lone surrogates stand as U+FFFD and four digits. -/
def surrogateBody (quote : Char) : List Char → List Char
  | '\ufffd' :: a :: b :: c :: d :: rest =>
    let code := [a, b, c, d]
    let shown := if code == "fffd".toList then ['\ufffd'] else "\\u".toList ++ code
    shown ++ surrogateBody quote rest
  | c :: rest => escapedChar quote c rest.head? ++ surrogateBody quote rest
  | [] => []

/-- A string. -/
def printString (lit : StringLit) (allowsBacktick : Bool) : Print Unit := do
  let cs := lit.value.toList
  let quote := if ← minifies then cheapestQuote allowsBacktick cs else '"'
  let inner := if lit.hasLoneSurrogate then surrogateBody quote cs else stringBody quote cs
  text (String.ofList (quote :: keepOpen inner ++ [quote]))

/-- A string at the start of a program or function, as it was written. -/
def printDirective (raw : String) : Print Unit := do
  let quote := quoteFor raw.toList
  text (quote ++ raw ++ quote ++ ";")
  softNewline
where
  /-- The quote that does not stand in the text. -/
  quoteFor : List Char → String
    | '\\' :: _ :: rest => quoteFor rest
    | '"' :: _ => "'"
    | '\'' :: _ => "\""
    | _ :: rest => quoteFor rest
    | [] => "\""

/-- A number. Behind a whole one no point may follow directly. -/
def printNumber (raw : String) (isTight : Bool) : Print Unit := do
  match Numeral.print raw with
  | some s =>
    word s
    if s.toList.all Char.isDigit then modify fun st => { st with numberStop := some st.written }
  | none =>
    if ← minifies then wrapped isTight (word "1/0")
    else word "Infinity"

/-- A big integer. -/
def printBigint (raw : String) : Print Unit :=
  word (String.ofList ((raw.toList.filter (· != '_')).map Char.toLower) ++ "n")

end ModuleBuild.Script
