/-!
# JSON values

Values of the JSON format. An object keeps its members in the order of the text, repeated names
included, so that a reader can tell a repeated option from a single one.

## Main definitions

* `Json` — a value.
* `Json.members?`, `Json.text?`, `Json.flag?`, `Json.items?` — views of a value of one kind.
* `Json.find?` — the member of an object that counts: the last one of its name.
-/

namespace ModuleBuild

/-- A JSON value. -/
inductive Json where
  | null
  | bool (value : Bool)
  /-- A whole number of at most 64 bits. -/
  | integer (value : Int)
  /-- Any other number: `digits` times ten to the power of `exponent`. -/
  | decimal (digits exponent : Int)
  | text (value : String)
  | array (items : List Json)
  | object (members : List (String × Json))
  deriving Inhabited

namespace Json

/-- The text of a string. -/
def text? : Json → Option String
  | text s => some s
  | _ => none

/-- The value of a boolean. -/
def flag? : Json → Option Bool
  | bool b => some b
  | _ => none

/-- The elements of an array. -/
def items? : Json → Option (List Json)
  | array xs => some xs
  | _ => none

/-- The members of an object. -/
def members? : Json → Option (List (String × Json))
  | object ms => some ms
  | _ => none

/-- The last member of this name, if the value is an object that has one. -/
def find? (name : String) : Json → Option Json
  | object ms => (ms.reverse.find? (·.1 == name)).map (·.2)
  | _ => none

end Json

end ModuleBuild
