import ModuleBuild.Script.Syntax

/-!
# Enumerations

An enumeration is an object built by a function that is called at once: numbers are kept in both
directions, text only from its name. Values that are known are computed.

## Main definitions

* `EnumMember` — a name with its value.
* `enumObject` — the value of an enumeration.
-/

namespace ModuleBuild.Script

/-- A name of an enumeration, with what it is set to. -/
structure EnumMember where
  name : String
  value : Option Node := none
  deriving Inhabited

/-- A value that is known. -/
inductive EnumValue where
  | number (n : Int)
  | text (s : String)
  deriving DecidableEq, Inhabited, Repr

/-- The known values of the names so far. -/
abbrev EnumValues : Type := List (String × EnumValue)

/-- A number of 32 bits, the first of which is a sign. -/
def toWord (n : Int) : Int :=
  Int.bmod n (Nat.pow 2 32)

/-- The value of an operator on numbers, if it is whole. -/
def wholeOperation? (op : String) (a b : Int) : Option Int :=
  let shift := (b % 32).toNat
  match op with
  | "+" => some (a + b)
  | "-" => some (a - b)
  | "*" => some (a * b)
  | "/" => if b != 0 && a % b == 0 then some (a / b) else none
  | "%" => if b != 0 && 0 ≤ a then some (a % b) else none
  | "**" => if 0 ≤ b then some (Int.pow a b.toNat) else none
  | "|" => some (bits (· ||| ·))
  | "&" => some (bits (· &&& ·))
  | "^" => some (bits (· ^^^ ·))
  | "<<" => some (toWord (a * Int.pow 2 shift))
  | ">>" => some (toWord a / Int.pow 2 shift)
  | ">>>" => some (toWord a % Int.pow 2 32 / Int.pow 2 shift)
  | _ => none
where
  /-- An operation on bits. -/
  bits (f : Nat → Nat → Nat) : Int :=
    toWord (f (a % Int.pow 2 32).toNat (b % Int.pow 2 32).toNat)

/-- The value of an expression, if it is known. `fuel` bounds how deep it is nested. -/
def knownValue? (self : String) (known : EnumValues) : Nat → Node → Option EnumValue
  | 0, _ => none
  | fuel + 1, n =>
    match n with
    | .number _ raw => raw.toNat?.map fun v => .number v
    | .string _ lit => some (.text lit.value)
    | .template _ [part] [] => some (.text part)
    | .paren _ inner => knownValue? self known fuel inner
    | .ident _ name => known.lookup name
    | .member _ (.ident _ base) name _ => if base == self then known.lookup name else none
    | .index _ (.ident _ base) (.string _ lit) _ =>
      if base == self then known.lookup lit.value else none
    | .unary _ op inner =>
      match op, knownValue? self known fuel inner with
      | "-", some (.number v) => some (.number (-v))
      | "+", some (.number v) => some (.number v)
      | "~", some (.number v) => some (.number (toWord (-v - 1)))
      | _, _ => none
    | .binary _ op left right =>
      match knownValue? self known fuel left, knownValue? self known fuel right with
      | some (.number a), some (.number b) => (wholeOperation? op a b).map .number
      | some (.text a), some (.text b) => if op == "+" then some (.text (a ++ b)) else none
      | some (.text a), some (.number b) =>
        if op == "+" then some (.text (a ++ toString b)) else none
      | some (.number a), some (.text b) =>
        if op == "+" then some (.text (toString a ++ b)) else none
      | _, _ => none
    | _ => none

/-- A string without escapes. -/
def plainString (text : String) : Node :=
  .string default { value := text, raw := text }

/-- The expression of a value that is known. -/
def EnumValue.node : EnumValue → Node
  | .text s => plainString s
  | .number v =>
    if v < 0 then .unary default "-" (.number default (toString (-v)))
    else .number default (toString v)

/-- The values of members and the statements that set them. -/
def enumStatements (self : String) (size : Nat) :
    List EnumMember → (previous : Option EnumMember) → EnumValues → List Node
  | [], _, _ => []
  | m :: rest, previous, known =>
    let value? : Option EnumValue := match m.value, previous with
      | some e, _ => knownValue? self known (size + 1) e
      | none, none => some (.number 0)
      | none, some p =>
        match known.lookup p.name with
        | some (.number v) => some (.number (v + 1))
        | _ => none
    let field (name : String) : Node :=
      .index default (.ident default self) (plainString name) false
    let value : Node := match value?, m.value, previous with
      | some v, _, _ => v.node
      | none, some e, _ => e
      | none, none, some p => .binary default "+" (.number default "1") (field p.name)
      | none, none, none => .number default "0"
    let known := match value? with
      | some v => (m.name, v) :: known
      | none => known
    let set : Node := .assign default "=" (field m.name) value
    let statement : Node := match value? with
      | some (.text _) => set
      | _ => .assign default "=" (.index default (.ident default self) set false)
          (plainString m.name)
    .expr default statement :: enumStatements self size rest (some m) known

/-- The object of an enumeration, which is added to an object of that name if there may be one. -/
def enumObject (name : String) (members : List EnumMember) (size : Nat) (isExported : Bool) : Node :=
  let body := enumStatements name size members none [] ++ [.ret default (some (.ident default name))]
  let build : Node := .func default {} none [.binding default name] (.body default body)
  let empty : Node := .object default []
  let base : Node := if isExported then empty
    else .binary default "||" (.ident default name) empty
  .call default build [base] false true

end ModuleBuild.Script
