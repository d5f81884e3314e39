import ModuleBuild.Json.Basic
import ModuleBuild.Text.Quoted

/-!
# Writing JSON

The compact text of a value: no blanks, members in their order.

## Main definitions

* `Json.quoted` — the text of a string.
* `Json.render` — the text of a value.
-/

namespace ModuleBuild.Json

open Text

/-- Four hexadecimal digits of a small code point. -/
def fourDigits (c : Char) : String :=
  let digits := hex c.toNat
  "\\u" ++ String.ofList (List.replicate (4 - digits.length) '0') ++ digits

/-- Quotes, backslashes and control characters are escaped. -/
def textRule : Char → String
  | '"' => "\\\""
  | '\\' => "\\\\"
  | '\n' => "\\n"
  | '\r' => "\\r"
  | '\t' => "\\t"
  | '\x08' => "\\b"
  | '\x0c' => "\\f"
  | c => if c.toNat < 0x20 then fourDigits c else c.toString

/-- The text of a string. -/
def quoted (s : String) : String :=
  "\"" ++ escapeWith textRule s ++ "\""

mutual

/-- The text of a value. -/
def render : Json → String
  | null => "null"
  | bool b => if b then "true" else "false"
  | integer n => toString n
  | decimal digits exponent => toString digits ++ "e" ++ toString exponent
  | text s => quoted s
  | array items => "[" ++ ",".intercalate (renderItems items) ++ "]"
  | object members => "\x7b" ++ ",".intercalate (renderMembers members) ++ "\x7d"

/-- The texts of values. -/
def renderItems : List Json → List String
  | [] => []
  | x :: rest => render x :: renderItems rest

/-- The texts of members. -/
def renderMembers : List (String × Json) → List String
  | [] => []
  | (name, x) :: rest => (quoted name ++ ":" ++ render x) :: renderMembers rest

end

end ModuleBuild.Json
