import ModuleBuild.Json.Parser
import ModuleBuild.Text.Bytes
import ModuleBuild.Text.Letters

/-!
# Tokens of programs

Words, numbers, strings, templates and punctuation of programs, each read at a cursor that counts
bytes. How a slash or a closing brace reads depends on what stands before it, so the one who reads
tokens asks for regular expressions and for the continuation of templates.

## Main definitions

* `Token`, `TokenKind` — a token with its place.
* `Comment` — a comment with its place.
* `Cursor` — a place in the text.
* `readToken?` — the token at a cursor that stands behind white space and comments.
* `readRegex?`, `readTemplate?` — the tokens that are read on request.
-/

namespace ModuleBuild.Script

open Text

/-- The part of the source from byte `start` to byte `stop`. -/
structure Span where
  start : Nat
  stop : Nat
  deriving DecidableEq, Inhabited, Repr

/-- A string literal. A surrogate without its partner is kept in the value as U+FFFD and four
hexadecimal digits, and then U+FFFD itself is kept in that way too. -/
structure StringLit where
  value : String
  /-- The text between the quotes. -/
  raw : String
  hasLoneSurrogate : Bool := false
  deriving DecidableEq, Inhabited, Repr

/-- A part of a template between its delimiters. -/
structure TemplatePart where
  raw : String
  /-- Whether all escapes mean something. -/
  isValid : Bool
  /-- Whether the template ends behind this part. -/
  isLast : Bool
  deriving DecidableEq, Inhabited, Repr

/-- What a token is. -/
inductive TokenKind where
  | eof
  /-- An identifier or keyword, and whether it is written with escapes. -/
  | word (text : String) (escaped : Bool)
  /-- A private name, without its `#`. -/
  | privateName (text : String)
  | punct (text : String)
  /-- A number as written. -/
  | number (text : String)
  /-- A big integer as written, without its `n`. -/
  | bigint (text : String)
  | string (lit : StringLit)
  | template (part : TemplatePart)
  | regex (text : String)
  deriving DecidableEq, Inhabited, Repr

/-- A token with its place. -/
structure Token where
  kind : TokenKind
  start : Nat
  stop : Nat
  /-- Whether a line ends between the token before and this one. -/
  newlineBefore : Bool
  deriving DecidableEq, Inhabited, Repr

/-- A comment with its place. -/
structure Comment where
  text : String
  isLine : Bool
  start : Nat
  newlineBefore : Bool
  newlineAfter : Bool := false
  /-- Where the token starts that the comment stands before, unless it belongs to the one before. -/
  attachedTo : Option Nat := none
  deriving DecidableEq, Inhabited, Repr

/-- Whether a comment says that the call behind it is pure. It starts with the mark. -/
def Comment.isPure (c : Comment) : Bool :=
  let inside := (c.text.toList.drop 2).dropWhile isBlank
  "@__PURE__".toList.isPrefixOf inside || "#__PURE__".toList.isPrefixOf inside

/-- A place in the source: its byte offset and the text from there on. -/
structure Cursor where
  offset : Nat
  rest : List Char
  deriving DecidableEq, Inhabited, Repr

namespace Cursor

/-- The place behind text that starts here. -/
def skip (c : Cursor) (text : List Char) : Cursor :=
  ⟨c.offset + byteLength text, c.rest.drop text.length⟩

/-- The place at which `rest` is left of the text. -/
def upTo (c : Cursor) (rest : List Char) : Cursor :=
  c.skip (c.rest.take (c.rest.length - rest.length))

end Cursor

/-- Characters that end lines. -/
def isLineEnd (c : Char) : Bool :=
  c == '\n' || c == '\r' || c == '\u2028' || c == '\u2029'

/-- White space inside of lines. -/
def isSpace (c : Char) : Bool :=
  c == ' ' || c == '\t' || c == '\x0b' || c == '\x0c' || c == '\xa0' || c == '\ufeff' ||
    (128 ≤ c.toNat && Category.ofChar c == .spaceSeparator)

/-- Characters that start identifiers. -/
def startsWord (c : Char) : Bool :=
  c == '$' || c == '_' || isIdentifierStart c

/-- Characters that follow in identifiers. -/
def continuesWord (c : Char) : Bool :=
  c == '$' || isIdentifierPart c

/-! ## Escapes -/

/-- The number of hexadecimal digits. -/
def hexValue? (ds : List Char) : Option Nat :=
  if ds.isEmpty then none
  else ds.foldlM (fun n d => (Json.hexDigit? d).map (16 * n + ·)) 0

/-- The code point of an escape behind `\u`: four digits, or any number of them in braces. -/
def readUnicode? (cs : List Char) : Option (Nat × List Char) :=
  match cs with
  | '\x7b' :: rest => do
    let ds := rest.takeWhile (· != '\x7d')
    let n ← hexValue? ds
    if n > 0x10ffff then none
    match rest.drop ds.length with
    | '\x7d' :: rest => return (n, rest)
    | _ => none
  | cs => do
    let ds := cs.take 4
    if ds.length < 4 then none
    let n ← hexValue? ds
    return (n, cs.drop 4)

/-- Whether a code unit is the first or the second half of a pair. -/
def isHighSurrogate (n : Nat) : Bool := 0xd800 ≤ n && n ≤ 0xdbff

/-- Whether a code unit is the second half of a pair. -/
def isLowSurrogate (n : Nat) : Bool := 0xdc00 ≤ n && n ≤ 0xdfff

/-- What an escape in a string stands for: code points, of which lone surrogates may be one, and
what follows. None if the escape means nothing. -/
def readEscape? (cs : List Char) : Option (List Nat × List Char) :=
  match cs with
  | [] => none
  | 'n' :: rest => some ([10], rest)
  | 't' :: rest => some ([9], rest)
  | 'r' :: rest => some ([13], rest)
  | 'b' :: rest => some ([8], rest)
  | 'v' :: rest => some ([11], rest)
  | 'f' :: rest => some ([12], rest)
  | '\r' :: '\n' :: rest => some ([], rest)
  | 'x' :: a :: b :: rest => (hexValue? [a, b]).map fun n => ([n], rest)
  | 'x' :: _ => none
  | 'u' :: rest => do
    let (hi, rest) ← readUnicode? rest
    if isHighSurrogate hi then
      match rest with
      | '\\' :: 'u' :: more =>
        match readUnicode? more with
        | some (lo, more) =>
          if isLowSurrogate lo then
            return ([0x10000 + (hi - 0xd800) * 0x400 + (lo - 0xdc00)], more)
          else return ([hi], rest)
        | none => none
      | rest => return ([hi], rest)
    else return ([hi], rest)
  | c :: rest =>
    if isLineEnd c then some ([], rest)
    else if '0' ≤ c && c ≤ '7' then
      let most := if c ≤ '3' then 3 else 2
      let ds := ((c :: rest).take most).takeWhile fun d => '0' ≤ d && d ≤ '7'
      some ([ds.foldl (fun n d => 8 * n + (d.toNat - 48)) 0], (c :: rest).drop ds.length)
    else some ([c.toNat], rest)

/-- The text of code points. If lone surrogates are among them, they and U+FFFD are written as U+FFFD
and four digits. -/
def textOfPoints (points : List Nat) : String × Bool :=
  let lone := points.any fun n => 0xd800 ≤ n && n ≤ 0xdfff
  let digits (n : Nat) : List Char :=
    let ds := Nat.toDigits 16 n
    List.replicate (4 - ds.length) '0' ++ ds
  let write (n : Nat) : List Char :=
    if lone && ((0xd800 ≤ n && n ≤ 0xdfff) || n == 0xfffd) then '\ufffd' :: digits n
    else [Char.ofNat n]
  (String.ofList (points.flatMap write), lone)

/-! ## Words -/

/-- Reads the characters of a word; `fuel` bounds their number. -/
def readWordChars (fuel : Nat) (first : Bool) (cs : List Char) : List Char × Bool × List Char :=
  match fuel, cs with
  | fuel + 1, '\\' :: 'u' :: rest =>
    match readUnicode? rest with
    | some (n, rest') =>
      let c := Char.ofNat n
      if (if first then startsWord c else continuesWord c) then
        let (word, _, tail) := readWordChars fuel false rest'
        (c :: word, true, tail)
      else ([], false, cs)
    | none => ([], false, cs)
  | fuel + 1, c :: rest =>
    if (if first then startsWord c else continuesWord c) then
      let (word, escaped, tail) := readWordChars fuel false rest
      (c :: word, escaped, tail)
    else ([], false, cs)
  | _, cs => ([], false, cs)

/-- Reads a word, if one starts here. -/
def readWord? (cs : List Char) : Option (String × Bool × List Char) :=
  match readWordChars (cs.length + 1) true cs with
  | ([], _, _) => none
  | (word, escaped, rest) => some (String.ofList word, escaped, rest)

/-! ## Numbers -/

/-- Reads digits between which single separators may stand. -/
def readDigits? (isDigit : Char → Bool) (cs : List Char) : Option (List Char × List Char) :=
  let text := cs.takeWhile fun c => isDigit c || c == '_'
  let wellPlaced : List Char → Bool := fun ds =>
    ds.head? != some '_' && ds.getLast? != some '_' &&
      !(ds.zip (ds.drop 1)).any fun (a, b) => a == '_' && b == '_'
  if text.isEmpty || !wellPlaced text then none else some (text, cs.drop text.length)

/-- The part of a decimal number behind its whole digits: a fraction and an exponent. -/
def readFraction? (cs : List Char) : Option (List Char × List Char) := do
  let (fraction, cs) ← match cs with
    | '.' :: rest =>
      if rest.head?.any Char.isDigit then
        (readDigits? Char.isDigit rest).map fun (ds, rest) => ('.' :: ds, rest)
      else if rest.head? == some '_' then none
      else some (['.'], rest)
    | cs => some ([], cs)
  let (exponent, cs) ← match cs with
    | e :: rest =>
      if e == 'e' || e == 'E' then
        match rest with
        | s :: more =>
          if s == '+' || s == '-' then
            (readDigits? Char.isDigit more).map fun (ds, rest) => (e :: s :: ds, rest)
          else (readDigits? Char.isDigit rest).map fun (ds, rest) => (e :: ds, rest)
        | [] => none
      else some ([], cs)
    | cs => some ([], cs)
  return (fraction ++ exponent, cs)

/-- Digits of a base that a letter behind a zero names. -/
def radixDigit? (c : Char) : Option (Char → Bool) :=
  match c.toLower with
  | 'x' => some fun d => (Json.hexDigit? d).isSome
  | 'o' => some fun d => '0' ≤ d && d ≤ '7'
  | 'b' => some fun d => d == '0' || d == '1'
  | _ => none

/-- Reads a number, which must not run into a word. -/
def readNumber? (cs : List Char) : Option (TokenKind × List Char) := do
  let (kind, rest) ← number cs
  match rest with
  | c :: _ => if continuesWord c || c == '\\' then none else return (kind, rest)
  | [] => return (kind, rest)
where
  /-- A number, or a big integer if an `n` follows. -/
  whole (text rest : List Char) : TokenKind × List Char :=
    match rest with
    | 'n' :: rest => (.bigint (String.ofList text), rest)
    | rest => (.number (String.ofList text), rest)
  /-- The number itself. -/
  number (cs : List Char) : Option (TokenKind × List Char) :=
    match cs with
    | '0' :: c :: rest =>
      match radixDigit? c with
      | some isDigit => do
        let (ds, rest) ← readDigits? isDigit rest
        return whole ('0' :: c :: ds) rest
      | none =>
        if c.isDigit then do
          let ds := (c :: rest).takeWhile Char.isDigit
          let rest := (c :: rest).drop ds.length
          if rest.head? == some '_' then none
          if ds.all fun d => d ≤ '7' then
            return (.number (String.ofList ('0' :: ds)), rest)
          else
            let (tail, rest) ← readFraction? rest
            return (.number (String.ofList ('0' :: ds ++ tail)), rest)
        else if c == 'n' then some (.bigint "0", rest)
        else do
          let (tail, rest) ← readFraction? (c :: rest)
          return (.number (String.ofList ('0' :: tail)), rest)
    | '.' :: _ => do
      let (tail, rest) ← readFraction? cs
      return (.number (String.ofList tail), rest)
    | cs => do
      let (ds, rest) ← readDigits? Char.isDigit cs
      match rest with
      | 'n' :: _ => return whole ds rest
      | rest =>
        let (tail, rest) ← readFraction? rest
        return (.number (String.ofList (ds ++ tail)), rest)

/-! ## Strings, templates and regular expressions -/

/-- Reads a string up to its closing quote: its code points and what follows. -/
def readStringPoints (quote : Char) : Nat → List Char → Option (List Nat × List Char)
  | fuel + 1, '\\' :: rest => do
    let (points, rest) ← readEscape? rest
    let (more, rest) ← readStringPoints quote fuel rest
    return (points ++ more, rest)
  | fuel + 1, c :: rest =>
    if c == quote then some ([], rest)
    else if c == '\n' || c == '\r' then none
    else do
      let (more, rest) ← readStringPoints quote fuel rest
      return (c.toNat :: more, rest)
  | _, _ => none

/-- Reads a string behind its opening quote. -/
def readString? (quote : Char) (cs : List Char) : Option (StringLit × List Char) := do
  let (points, rest) ← readStringPoints quote (cs.length + 1) cs
  let (value, hasLoneSurrogate) := textOfPoints points
  let raw := String.ofList (cs.take (cs.length - rest.length - 1))
  return ({ value, raw, hasLoneSurrogate }, rest)

/-- Whether an escape in a template means something. -/
def isTemplateEscape (cs : List Char) : Bool :=
  match cs with
  | '0' :: d :: _ => !d.isDigit
  | ['0'] => true
  | c :: _ => !c.isDigit && (readEscape? cs).isSome
  | [] => false

/-- Reads a part of a template: its characters, whether its escapes are valid, whether it is the last
one, and what follows. -/
def readTemplateChars : Nat → List Char → Option (List Char × Bool × Bool × List Char)
  | _ + 1, '\x60' :: rest => some ([], true, true, rest)
  | _ + 1, '$' :: '\x7b' :: rest => some ([], true, false, rest)
  | fuel + 1, '\\' :: '\r' :: '\n' :: rest => do
    let (cs, valid, last, rest) ← readTemplateChars fuel rest
    return ('\\' :: '\n' :: cs, valid, last, rest)
  | fuel + 1, '\\' :: c :: rest => do
    let (cs, valid, last, tail) ← readTemplateChars fuel rest
    let c' := if c == '\r' then '\n' else c
    return ('\\' :: c' :: cs, valid && isTemplateEscape (c :: rest), last, tail)
  | fuel + 1, '\r' :: '\n' :: rest => do
    let (cs, valid, last, rest) ← readTemplateChars fuel rest
    return ('\n' :: cs, valid, last, rest)
  | fuel + 1, c :: rest => do
    let (cs, valid, last, rest) ← readTemplateChars fuel rest
    return ((if c == '\r' then '\n' else c) :: cs, valid, last, rest)
  | _, _ => none

/-- Reads a part of a template, behind its opening backtick or brace. -/
def readTemplate? (cs : List Char) : Option (TokenKind × List Char) := do
  let (raw, isValid, isLast, rest) ← readTemplateChars (cs.length + 1) cs
  return (.template { raw := String.ofList raw, isValid, isLast }, rest)

/-- Reads the body of a regular expression up to its closing slash, which is included. -/
def readRegexBody : Nat → Bool → List Char → Option (List Char × List Char)
  | fuel + 1, inClass, '\\' :: c :: rest =>
    if isLineEnd c then none
    else (readRegexBody fuel inClass rest).map fun (body, rest) => ('\\' :: c :: body, rest)
  | fuel + 1, inClass, c :: rest =>
    if isLineEnd c then none
    else if c == '/' && !inClass then some (['/'], rest)
    else
      let inClass := if c == '[' then true else if c == ']' then false else inClass
      (readRegexBody fuel inClass rest).map fun (body, rest) => (c :: body, rest)
  | _, _, _ => none

/-- The flags of regular expressions. -/
def regexFlags : List Char := ['d', 'g', 'i', 'm', 's', 'u', 'v', 'y']

/-- Reads a regular expression from its opening slash. No flag may come twice. -/
def readRegex? (cs : List Char) : Option (TokenKind × List Char) :=
  match cs with
  | '/' :: rest => do
    let (body, rest) ← readRegexBody (rest.length + 1) false rest
    let flags := rest.takeWhile continuesWord
    if !flags.all regexFlags.contains || flags.eraseDups.length != flags.length then none
    if flags.contains 'u' && flags.contains 'v' then none
    return (.regex (String.ofList ('/' :: body ++ flags)), rest.drop flags.length)
  | _ => none

/-! ## Punctuation -/

/-- Punctuation, longer ones before their beginnings. A `>` is always read alone, because it also
closes lists of types. -/
def punctuators : List String :=
  ["...", "===", "!==", "**=", "<<=", "&&=", "||=", "??=", "=>", "==", "!=", "<=", "&&", "||", "??",
    "?.", "++", "--", "+=", "-=", "*=", "/=", "%=", "&=", "|=", "^=", "<<", "**", "\x7b", "\x7d",
    "(", ")", "[", "]", ";", ",", "<", ">", "+", "-", "*", "/", "%", "&", "|", "^", "!", "~", "?",
    ":", "=", ".", "@"]

/-- Reads punctuation. A question mark before a fraction stands alone. -/
def readPunct? (cs : List Char) : Option (TokenKind × List Char) :=
  match cs with
  | '?' :: '.' :: d :: rest =>
    if d.isDigit then some (.punct "?", '.' :: d :: rest) else some (.punct "?.", d :: rest)
  | cs => do
    let p ← punctuators.find? fun p => p.toList.isPrefixOf cs
    return (.punct p, cs.drop p.length)

/-- The punctuation that starts with the `>` here. -/
def widenGreater (cs : List Char) : String :=
  ([">>>=", ">>>", ">>=", ">>", ">="].find? fun p => p.toList.isPrefixOf cs).getD ">"

/-- Reads a token that starts here. A slash reads as punctuation. -/
def readToken? (cs : List Char) : Option (TokenKind × List Char) :=
  match cs with
  | [] => some (.eof, [])
  | c :: rest =>
    if startsWord c || c == '\\' then
      (readWord? cs).map fun (word, escaped, rest) => (.word word escaped, rest)
    else if c.isDigit || (c == '.' && rest.head?.any Char.isDigit) then readNumber? cs
    else if c == '"' || c == '\'' then
      (readString? c rest).map fun (lit, rest) => (.string lit, rest)
    else if c == '\x60' then readTemplate? rest
    else if c == '#' then
      (readWord? rest).map fun (word, _, rest) => (.privateName word, rest)
    else readPunct? cs

end ModuleBuild.Script
