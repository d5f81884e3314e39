import ModuleBuild.Text.Letters

/-!
# Quoted and escaped text

The four ways in which a text is written inside another one: as a string literal of the compiled
program, as a module specifier, as a quoted pattern of a message, and as an identifier of a module in
a comment.

## Main definitions

* `quote` — a double-quoted string literal.
* `escapeSpecifier` — the inside of a double-quoted module specifier.
* `debugQuote` — a text as messages quote it.
* `escapeAscii` — a text in printable ASCII.
-/

namespace ModuleBuild.Text

/-- Applies an escaping rule to each character. -/
def escapeWith (rule : Char → String) (s : String) : String :=
  String.ofList (s.toList.flatMap fun c => (rule c).toList)

/-- A backslash stands before each quote and each backslash. -/
def quoteRule : Char → String
  | '\\' => "\\\\"
  | '"' => "\\\""
  | c => c.toString

/-- A double-quoted string literal for `s`. -/
def quote (s : String) : String :=
  "\"" ++ escapeWith quoteRule s ++ "\""

/-- As in a string literal, and NUL is written `\0`. -/
def specifierRule : Char → String
  | '\x00' => "\\0"
  | c => quoteRule c

/-- The inside of a double-quoted module specifier. -/
def escapeSpecifier (s : String) : String :=
  escapeWith specifierRule s

/-- The lower case hexadecimal digits of a number. -/
def hex (n : Nat) : String :=
  String.ofList (Nat.toDigits 16 n)

/-- A code point as `\u`, and its hexadecimal digits in braces. -/
def unicodeEscape (c : Char) : String :=
  "\\u\x7b" ++ hex c.toNat ++ "\x7d"

/-- The escapes that all texts for readers share. -/
def controlRule? : Char → Option String
  | '\t' => some "\\t"
  | '\r' => some "\\r"
  | '\n' => some "\\n"
  | '"' => some "\\\""
  | '\\' => some "\\\\"
  | _ => none

/-- Characters without a shape of their own are written as code points. -/
def debugRule (c : Char) : String :=
  match controlRule? c with
  | some s => s
  | none =>
    if c == '\x00' then "\\0"
    else if isExtender c || !isPrintable c then unicodeEscape c
    else c.toString

/-- A text in double quotes, as messages show it. -/
def debugQuote (s : String) : String :=
  "\"" ++ escapeWith debugRule s ++ "\""

/-- Everything outside of printable ASCII is written as a code point. -/
def asciiRule (c : Char) : String :=
  match controlRule? c with
  | some s => s
  | none =>
    if c == '\'' then "\\'"
    else if 0x20 ≤ c.toNat && c.toNat ≤ 0x7e then c.toString
    else unicodeEscape c

/-- A text in printable ASCII. -/
def escapeAscii (s : String) : String :=
  escapeWith asciiRule s

end ModuleBuild.Text
