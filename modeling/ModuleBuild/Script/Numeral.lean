import ModuleBuild.Json.Parser

/-!
# Numerals

Numbers of 64 bits in their shortest form: the fewest digits that read back as the same number,
written in whichever of several ways takes the least room.

## Main definitions

* `Ratio.ofLiteral` — the exact value of a numeral.
* `nearest` — the number of 53 digits that is nearest to a value.
* `shortestDigits` — the fewest decimal digits that read back.
* `Numeral.print` — the shortest text.
-/

namespace ModuleBuild.Script

/-- A value that is not negative, as a quotient. -/
structure Ratio where
  num : Nat
  den : Nat
  deriving DecidableEq, Inhabited, Repr

namespace Ratio

/-- Digits before a power of ten. -/
def ofScientific (digits : Nat) (exponent : Int) : Ratio :=
  if 0 ≤ exponent then ⟨digits * Nat.pow 10 exponent.toNat, 1⟩
  else ⟨digits, Nat.pow 10 (-exponent).toNat⟩

/-- The value of digits in a base. -/
def digitsIn (base : Nat) (ds : List Char) : Nat :=
  ds.foldl (fun n d => base * n + (Json.hexDigit? d).getD 0) 0

/-- The value of a decimal numeral. -/
def ofDecimal (cs : List Char) : Ratio :=
  let isExponent (c : Char) : Bool := c == 'e' || c == 'E'
  let mantissa := cs.takeWhile (!isExponent ·)
  let tail := cs.drop (mantissa.length + 1)
  let exponent : Int := match tail with
    | '-' :: ds => -(digitsIn 10 ds : Int)
    | '+' :: ds => digitsIn 10 ds
    | ds => digitsIn 10 ds
  let whole := mantissa.takeWhile (· != '.')
  let fraction := mantissa.drop (whole.length + 1)
  ofScientific (digitsIn 10 (whole ++ fraction)) (exponent - fraction.length)

/-- The value of a numeral as written. -/
def ofLiteral (raw : String) : Ratio :=
  let cs := raw.toList.filter (· != '_')
  match cs with
  | '0' :: c :: rest =>
    if c == 'x' || c == 'X' then ⟨digitsIn 16 rest, 1⟩
    else if c == 'o' || c == 'O' then ⟨digitsIn 8 rest, 1⟩
    else if c == 'b' || c == 'B' then ⟨digitsIn 2 rest, 1⟩
    else if c.isDigit && (c :: rest).all (fun d => '0' ≤ d && d ≤ '7') then
      ⟨digitsIn 8 (c :: rest), 1⟩
    else ofDecimal cs
  | cs => ofDecimal cs

end Ratio

/-- A number `mantissa * 2 ^ exponent`. -/
structure Binary where
  mantissa : Nat
  exponent : Int
  deriving DecidableEq, Inhabited, Repr

/-- The number, if it is whole. -/
def Binary.whole? (b : Binary) : Option Nat :=
  if 0 ≤ b.exponent then some (b.mantissa * Nat.pow 2 b.exponent.toNat)
  else
    let den := Nat.pow 2 (-b.exponent).toNat
    if b.mantissa % den == 0 then some (b.mantissa / den) else none

/-- A quotient rounded to the nearest whole number; a tie goes to the even one. -/
def roundQuotient (num den : Nat) : Nat :=
  let q := num / den
  let r := num % den
  if 2 * r < den then q
  else if den < 2 * r then q + 1
  else if q % 2 == 0 then q else q + 1

/-- The number of 53 binary digits that is nearest to a value; none if the value is too large. -/
def nearest (v : Ratio) : Option Binary :=
  if v.num == 0 then some ⟨0, 0⟩
  else
    let guess : Int := (Nat.log2 v.num : Int) - Nat.log2 v.den
    let scaled (e : Int) : Nat × Nat :=
      if 0 ≤ e then (v.num, v.den * Nat.pow 2 e.toNat) else (v.num * Nat.pow 2 (-e).toNat, v.den)
    -- The value lies between the powers `guess - 1` and `guess + 1` of two.
    let top : Int := if (scaled guess).1 < (scaled guess).2 then guess - 1 else guess
    let exponent : Int := max (top - 52) (-1074)
    let (n, d) := scaled exponent
    let m := roundQuotient n d
    let b : Binary := if m == Nat.pow 2 53 then ⟨Nat.pow 2 52, exponent + 1⟩ else ⟨m, exponent⟩
    if 971 < b.exponent then none else some b

/-- The fewest decimal digits that read back as the number, and the power of ten of the last one. -/
def shortestDigits (b : Binary) : Nat × Int :=
  if b.mantissa == 0 then (0, 0)
  else
    -- The number and its bounds, in quarters of its last binary digit.
    let unit : Ratio := if 0 ≤ b.exponent then ⟨Nat.pow 2 b.exponent.toNat, 4⟩
      else ⟨1, 4 * Nat.pow 2 (-b.exponent).toNat⟩
    let isEven := b.mantissa % 2 == 0
    let below := if b.mantissa == Nat.pow 2 52 && -1074 < b.exponent then 1 else 2
    let low := (4 * b.mantissa - below) * unit.num
    let mid := 4 * b.mantissa * unit.num
    let high := (4 * b.mantissa + 2) * unit.num
    let reaches (n d : Nat) : Bool :=
      if isEven then low * d ≤ n * unit.den && n * unit.den ≤ high * d
      else low * d < n * unit.den && n * unit.den < high * d
    let size := decimalSize mid unit.den
    search (fun place =>
      -- Candidates are multiples of ten to the power `place`.
      let (n, d) : Nat × Nat := if 0 ≤ place then (Nat.pow 10 place.toNat, 1)
        else (1, Nat.pow 10 (-place).toNat)
      let digits := mid * d / (unit.den * n)
      let down := reaches (digits * n) d
      let up := reaches ((digits + 1) * n) d
      -- Whether the number is nearer to the candidate above.
      let nearerUp := (2 * digits + 1) * n * unit.den < 2 * mid * d
      if down && up then some (if nearerUp then digits + 1 else digits, place)
      else if down then some (digits, place)
      else if up then some (digits + 1, place)
      else none) 18 (size - 1)
where
  /-- The power of ten above a quotient. -/
  decimalSize (num den : Nat) : Int :=
    let whole := num / den
    if 0 < whole then (Nat.toDigits 10 whole).length
    else
      let zeros := (List.range 400).find? fun k => den ≤ num * Nat.pow 10 (k + 1)
      Int.negOfNat (zeros.getD 0)
  /-- The first place, from the largest on, that has a candidate. -/
  search (candidate : Int → Option (Nat × Int)) : Nat → Int → Nat × Int
    | 0, place => (0, place)
    | fuel + 1, place =>
      match candidate place with
      | some found => found
      | none => search candidate fuel (place - 1)

namespace Numeral

/-- A whole number as text. -/
def decimal (n : Nat) : List Char :=
  Nat.toDigits 10 n

/-- A number with sign as text. -/
def signed (n : Int) : List Char :=
  if n < 0 then '-' :: decimal n.natAbs else decimal n.toNat

/-- Removes zeros at the end of digits, which move into the power of ten. -/
def trimZeros : Nat → Nat → Int → Nat × Int
  | 0, digits, place => (digits, place)
  | fuel + 1, digits, place =>
    if digits != 0 && digits % 10 == 0 then trimZeros fuel (digits / 10) (place + 1)
    else (digits, place)

/-- Digits before a power of ten: without a power if the number is neither large nor tiny. -/
def plain (digits : Nat) (place : Int) : List Char :=
  let (digits, place) := trimZeros 400 digits place
  let ds := decimal digits
  let k : Int := ds.length
  let n : Int := k + place
  if digits == 0 then ['0']
  else if k ≤ n && n ≤ 21 then ds ++ List.replicate place.toNat '0'
  else if 0 < n && n ≤ 21 then ds.take n.toNat ++ '.' :: ds.drop n.toNat
  else if -6 < n && n ≤ 0 then "0.".toList ++ List.replicate (-n).toNat '0' ++ ds
  else
    let sign := if 0 < n then ['+'] else []
    let fraction := if ds.length == 1 then [] else '.' :: ds.drop 1
    ds.take 1 ++ fraction ++ 'e' :: sign ++ signed (n - 1)

/-- The shorter of two texts, the first one if they are equally long. -/
def shorter (a b : List Char) : List Char :=
  if b.length < a.length then b else a

/-- Zeros at the start of a fraction as a power of ten. -/
def packFraction (cs : List Char) : List Char :=
  match cs with
  | '.' :: '0' :: rest =>
    let digits := rest.dropWhile (· == '0')
    shorter cs (digits ++ "e-".toList ++ decimal (rest.length + 1))
  | cs => cs

/-- Zeros at the end as a power of ten. -/
def packZeros (cs : List Char) : List Char :=
  let zeros := (cs.reverse.takeWhile (· == '0')).length
  if zeros == 0 then cs
  else shorter cs (cs.take (cs.length - zeros) ++ 'e' :: decimal zeros)

/-- A point before a power of ten moved to the end. -/
def packPoint (cs : List Char) : List Char :=
  let whole := cs.takeWhile (· != '.')
  let rest := cs.drop (whole.length + 1)
  let fraction := rest.takeWhile (· != 'e')
  match rest.drop fraction.length with
  | 'e' :: exponent =>
    if whole.length == cs.length then cs
    else
      let power : Int := match exponent with
        | '-' :: ds => -(Ratio.digitsIn 10 ds : Int)
        | ds => Ratio.digitsIn 10 ds
      shorter cs (whole ++ fraction ++ 'e' :: signed (power - fraction.length))
  | _ => cs

/-- The shortest text of a number that has these digits. -/
def pack (b : Binary) (digits : Nat) (place : Int) : List Char :=
  let text := plain digits place
  let text := if "0.".toList.isPrefixOf text then text.drop 1 else text
  let text := text.filter (· != '+')
  let hex := b.whole?.map fun n => "0x".toList ++ Nat.toDigits 16 (min n (Nat.pow 2 128 - 1))
  match hex with
  | some h =>
    if h.length < text.length then h else packPoint (packZeros (packFraction text))
  | none => packPoint (packZeros (packFraction text))

/-- The shortest text of a numeral; none if it is too large. -/
def print (raw : String) : Option String := do
  let b ← nearest (Ratio.ofLiteral raw)
  let (digits, place) := shortestDigits b
  let (digits, place) := trimZeros 400 digits place
  if 0 ≤ place && digits * Nat.pow 10 place.toNat < 1000 then
    return String.ofList (decimal (digits * Nat.pow 10 place.toNat))
  else return String.ofList (pack b digits place)

end Numeral

end ModuleBuild.Script
