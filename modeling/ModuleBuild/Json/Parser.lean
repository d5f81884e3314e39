import ModuleBuild.Json.Basic

/-!
# Reading JSON

A strict reader: no comments, no trailing commas, no lone surrogates, and at most 127 arrays and
objects inside one another.

## Main definitions

* `Json.parse?` — the value of a text, if it is one.
-/

namespace ModuleBuild

namespace Json

/-- White space between tokens. -/
def isSpace (c : Char) : Bool :=
  c == ' ' || c == '\t' || c == '\n' || c == '\r'

/-- The text behind white space. -/
def skip (cs : List Char) : List Char :=
  cs.dropWhile isSpace

/-- The value of a hexadecimal digit. -/
def hexDigit? (c : Char) : Option Nat :=
  if '0' ≤ c && c ≤ '9' then some (c.toNat - '0'.toNat)
  else if 'a' ≤ c && c ≤ 'f' then some (c.toNat - 'a'.toNat + 10)
  else if 'A' ≤ c && c ≤ 'F' then some (c.toNat - 'A'.toNat + 10)
  else none

/-- Four hexadecimal digits. -/
def hexUnit? : List Char → Option (Nat × List Char)
  | a :: b :: c :: d :: rest => do
    let a ← hexDigit? a
    let b ← hexDigit? b
    let c ← hexDigit? c
    let d ← hexDigit? d
    return (((a * 16 + b) * 16 + c) * 16 + d, rest)
  | _ => none

/-- The character of an escape, behind its backslash. Surrogates must come in pairs. -/
def readEscape? : List Char → Option (Char × List Char)
  | '"' :: rest => some ('"', rest)
  | '\\' :: rest => some ('\\', rest)
  | '/' :: rest => some ('/', rest)
  | 'b' :: rest => some ('\x08', rest)
  | 'f' :: rest => some ('\x0c', rest)
  | 'n' :: rest => some ('\n', rest)
  | 'r' :: rest => some ('\r', rest)
  | 't' :: rest => some ('\t', rest)
  | 'u' :: rest => do
    let (hi, rest) ← hexUnit? rest
    if 0xd800 ≤ hi && hi ≤ 0xdbff then
      match rest with
      | '\\' :: 'u' :: rest =>
        let (lo, rest) ← hexUnit? rest
        if 0xdc00 ≤ lo && lo ≤ 0xdfff then
          some (Char.ofNat (0x10000 + (hi - 0xd800) * 0x400 + (lo - 0xdc00)), rest)
        else none
      | _ => none
    else if 0xdc00 ≤ hi && hi ≤ 0xdfff then none
    else some (Char.ofNat hi, rest)
  | _ => none

/-- The rest of a string behind its opening quote; `fuel` bounds its length. -/
def readString? : Nat → List Char → Option (List Char × List Char)
  | fuel + 1, '\\' :: rest => do
    let (c, rest) ← readEscape? rest
    let (cs, rest) ← readString? fuel rest
    return (c :: cs, rest)
  | _ + 1, '"' :: rest => some ([], rest)
  | fuel + 1, c :: rest =>
    if c.toNat < 0x20 then none
    else (readString? fuel rest).map fun (cs, rest) => (c :: cs, rest)
  | _, _ => none

/-- The digits at the start of a text, at least one. -/
def readDigits? (cs : List Char) : Option (List Char × List Char) :=
  match cs.takeWhile Char.isDigit with
  | [] => none
  | ds => some (ds, cs.dropWhile Char.isDigit)

/-- The number that decimal digits stand for. -/
def digitsValue (ds : List Char) : Nat :=
  ds.foldl (fun n d => 10 * n + (d.toNat - '0'.toNat)) 0

/-- The exponent part of a number, zero where there is none. -/
def readExponent? : List Char → Option (Option Int × List Char)
  | c :: rest =>
    if c == 'e' || c == 'E' then
      match rest with
      | '+' :: rest => (readDigits? rest).map fun (ds, r) => (some (digitsValue ds), r)
      | '-' :: rest => (readDigits? rest).map fun (ds, r) => (some (-(digitsValue ds : Int)), r)
      | rest => (readDigits? rest).map fun (ds, r) => (some (digitsValue ds), r)
    else some (none, c :: rest)
  | [] => some (none, [])

/-- The least number that rounds to infinity. -/
def infinityBound : Nat := Nat.pow 2 1024 - Nat.pow 2 970

/-- A decimal number, which must be finite. -/
def finite? (negative : Bool) (digits : Nat) (exponent : Int) : Option Json :=
  let size : Int := (Nat.toDigits 10 digits).length
  if digits == 0 || size + exponent < -400 then some (decimal 0 0)
  else if size + exponent > 309 then none
  else
    let scale := Nat.pow 10 exponent.natAbs
    let isFinite :=
      if exponent < 0 then decide (digits < infinityBound * scale)
      else decide (digits * scale < infinityBound)
    if isFinite then some (decimal (if negative then -(digits : Int) else digits) exponent)
    else none

/-- The value of a number. A whole number that no 64-bit word holds is a decimal one. -/
def number? (negative : Bool) (whole : List Char) (fraction : Option (List Char))
    (exponent : Option Int) : Option Json :=
  let n := digitsValue whole
  match fraction, exponent with
  | none, none =>
    if negative && 0 < n && n ≤ Nat.pow 2 63 then some (integer (-(n : Int)))
    else if !negative && n < Nat.pow 2 64 then some (integer n)
    else finite? negative n 0
  | _, _ =>
    let behind := fraction.getD []
    finite? negative (digitsValue (whole ++ behind)) (exponent.getD 0 - behind.length)

/-- A number, from its first digit or its sign. -/
def readNumber? (cs : List Char) : Option (Json × List Char) := do
  let (negative, cs) := match cs with
    | '-' :: rest => (true, rest)
    | cs => (false, cs)
  let (whole, cs) ← match cs with
    | '0' :: rest => some (['0'], rest)
    | cs => readDigits? cs
  if (whole == ['0']) && (cs.head?.any Char.isDigit) then none
  let (fraction, cs) ← match cs with
    | '.' :: rest => (readDigits? rest).map fun (ds, r) => (some ds, r)
    | cs => some (none, cs)
  let (exponent, cs) ← readExponent? cs
  let value ← number? negative whole fraction exponent
  return (value, cs)

mutual

/-- A value, behind white space. `depth` bounds how many arrays and objects may still open. -/
def readValue? (fuel depth : Nat) (cs : List Char) : Option (Json × List Char) :=
  match fuel with
  | 0 => none
  | fuel + 1 =>
    match skip cs with
    | 'n' :: 'u' :: 'l' :: 'l' :: rest => some (null, rest)
    | 't' :: 'r' :: 'u' :: 'e' :: rest => some (bool true, rest)
    | 'f' :: 'a' :: 'l' :: 's' :: 'e' :: rest => some (bool false, rest)
    | '"' :: rest =>
      (readString? (rest.length + 1) rest).map fun (s, rest) => (text (String.ofList s), rest)
    | '[' :: rest =>
      match depth with
      | 0 => none
      | depth + 1 =>
        match skip rest with
        | ']' :: rest => some (array [], rest)
        | rest => (readItems? fuel depth rest).map fun (xs, rest) => (array xs, rest)
    | '\x7b' :: rest =>
      match depth with
      | 0 => none
      | depth + 1 =>
        match skip rest with
        | '\x7d' :: rest => some (object [], rest)
        | rest => (readMembers? fuel depth rest).map fun (ms, rest) => (object ms, rest)
    | rest => readNumber? rest

/-- The elements of an array up to its end, at least one. -/
def readItems? (fuel depth : Nat) (cs : List Char) : Option (List Json × List Char) :=
  match fuel with
  | 0 => none
  | fuel + 1 => do
    let (x, rest) ← readValue? fuel depth cs
    match skip rest with
    | ',' :: rest =>
      let (xs, rest) ← readItems? fuel depth rest
      return (x :: xs, rest)
    | ']' :: rest => return ([x], rest)
    | _ => none

/-- The members of an object up to its end, at least one. -/
def readMembers? (fuel depth : Nat) (cs : List Char) : Option (List (String × Json) × List Char) :=
  match fuel with
  | 0 => none
  | fuel + 1 =>
    match skip cs with
    | '"' :: rest => do
      let (name, rest) ← readString? (rest.length + 1) rest
      match skip rest with
      | ':' :: rest =>
        let (x, rest) ← readValue? fuel depth rest
        let member := (String.ofList name, x)
        match skip rest with
        | ',' :: rest =>
          let (ms, rest) ← readMembers? fuel depth rest
          return (member :: ms, rest)
        | '\x7d' :: rest => return ([member], rest)
        | _ => none
      | _ => none
    | _ => none

end

/-- The greatest number of arrays and objects inside one another. -/
def maxDepth : Nat := 127

/-- The value that a whole text stands for. -/
def parse? (s : String) : Option Json :=
  match readValue? (2 * s.length + 2) maxDepth s.toList with
  | some (x, rest) => if (skip rest).isEmpty then some x else none
  | none => none

end Json

end ModuleBuild
