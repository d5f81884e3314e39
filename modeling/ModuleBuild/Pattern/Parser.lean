import ModuleBuild.Pattern.Basic
import ModuleBuild.Json.Parser
import ModuleBuild.Text.WritingSystem

/-!
# Reading patterns

The written form of patterns: literal characters, `.`, classes, anchors, groups, choices, repetitions
and flags. There are no references to groups and no look-around, a brace always opens a counted
repetition, and any other punctuation may be escaped.

## Main definitions

* `Pattern.parse?` — the pattern that a text stands for, if it is well-formed.
-/

namespace ModuleBuild

open Text

namespace Pattern

/-- The modes that flags switch. -/
structure Flags where
  ignoreCase : Bool := false
  multiLine : Bool := false
  dotAll : Bool := false
  anyLineEnd : Bool := false
  allScripts : Bool := true
  spaced : Bool := false
  deriving Inhabited

/-- Word characters under the flags. -/
def Flags.isWord (flags : Flags) (c : Char) : Bool :=
  if flags.allScripts then isWordPart c else c.isAlphanum || c == '_'

/-- A test under the flags. -/
def Flags.test (flags : Flags) (test : Char → Bool) : Char → Bool :=
  if flags.ignoreCase then ignoringCase test else test

/-- The class that a letter behind a backslash stands for. -/
def letterClass? (flags : Flags) (c : Char) : Option (Char → Bool) :=
  let digit : Char → Bool := if flags.allScripts then isDecimalDigit else Char.isDigit
  let blank : Char → Bool :=
    if flags.allScripts then isBlank else fun c => (9 ≤ c.toNat && c.toNat ≤ 13) || c == ' '
  match c with
  | 'd' => some digit
  | 'D' => some fun c => !digit c
  | 's' => some blank
  | 'S' => some fun c => !blank c
  | 'w' => some flags.isWord
  | 'W' => some fun c => !flags.isWord c
  | _ => none

/-- The classes that names in square brackets and colons stand for. -/
def asciiClasses : List (String × (Char → Bool)) :=
  [("alnum", Char.isAlphanum), ("alpha", Char.isAlpha), ("ascii", fun c => c.toNat < 128),
    ("blank", fun c => c == ' ' || c == '\t'),
    ("cntrl", fun c => c.toNat < 32 || c.toNat == 127), ("digit", Char.isDigit),
    ("graph", fun c => 33 ≤ c.toNat && c.toNat ≤ 126), ("lower", fun c => 'a' ≤ c && c ≤ 'z'),
    ("print", fun c => 32 ≤ c.toNat && c.toNat ≤ 126),
    ("punct", fun c => 33 ≤ c.toNat && c.toNat ≤ 126 && !c.isAlphanum),
    ("space", fun c => (9 ≤ c.toNat && c.toNat ≤ 13) || c == ' '),
    ("upper", fun c => 'A' ≤ c && c ≤ 'Z'), ("word", fun c => c.isAlphanum || c == '_'),
    ("xdigit", fun c => (Json.hexDigit? c).isSome)]

/-- The long names of categories and groups of categories, without spaces. -/
def categoryNames : List (String × List String) :=
  [("l", ["Lu", "Ll", "Lt", "Lm", "Lo"]), ("letter", ["Lu", "Ll", "Lt", "Lm", "Lo"]),
    ("lc", ["Lu", "Ll", "Lt"]), ("casedletter", ["Lu", "Ll", "Lt"]),
    ("uppercaseletter", ["Lu"]), ("lowercaseletter", ["Ll"]), ("titlecaseletter", ["Lt"]),
    ("modifierletter", ["Lm"]), ("otherletter", ["Lo"]),
    ("m", ["Mn", "Mc", "Me"]), ("mark", ["Mn", "Mc", "Me"]),
    ("combiningmark", ["Mn", "Mc", "Me"]), ("nonspacingmark", ["Mn"]), ("spacingmark", ["Mc"]),
    ("enclosingmark", ["Me"]),
    ("n", ["Nd", "Nl", "No"]), ("number", ["Nd", "Nl", "No"]), ("decimalnumber", ["Nd"]),
    ("digit", ["Nd"]), ("letternumber", ["Nl"]), ("othernumber", ["No"]),
    ("p", ["Pc", "Pd", "Ps", "Pe", "Pi", "Pf", "Po"]),
    ("punctuation", ["Pc", "Pd", "Ps", "Pe", "Pi", "Pf", "Po"]),
    ("punct", ["Pc", "Pd", "Ps", "Pe", "Pi", "Pf", "Po"]), ("connectorpunctuation", ["Pc"]),
    ("dashpunctuation", ["Pd"]), ("openpunctuation", ["Ps"]), ("closepunctuation", ["Pe"]),
    ("initialpunctuation", ["Pi"]), ("finalpunctuation", ["Pf"]), ("otherpunctuation", ["Po"]),
    ("s", ["Sm", "Sc", "Sk", "So"]), ("symbol", ["Sm", "Sc", "Sk", "So"]), ("mathsymbol", ["Sm"]),
    ("currencysymbol", ["Sc"]), ("modifiersymbol", ["Sk"]), ("othersymbol", ["So"]),
    ("z", ["Zs", "Zl", "Zp"]), ("separator", ["Zs", "Zl", "Zp"]), ("spaceseparator", ["Zs"]),
    ("lineseparator", ["Zl"]), ("paragraphseparator", ["Zp"]),
    ("c", ["Cc", "Cf", "Cs", "Co", "Cn"]), ("other", ["Cc", "Cf", "Cs", "Co", "Cn"]),
    ("control", ["Cc"]), ("cntrl", ["Cc"]), ("format", ["Cf"]), ("privateuse", ["Co"]),
    ("unassigned", ["Cn"])]

/-- The characters whose category has one of the names. -/
def inCategories (names : List String) (c : Char) : Bool :=
  let k := Category.ofChar c
  names.any fun n => Category.named.lookup n == some k

/-- A name of a property without what does not count in it: case, spaces, `_`, `-`, and an `is` at its
start. -/
def propertyKey (name : List Char) : String :=
  let plain := ((name.filter fun c => c != ' ' && c != '_' && c != '-').map Char.toLower).filter
    fun c => c.toNat < 128
  String.ofList (match plain with
    | ['i', 's', 'c'] => plain
    | 'i' :: 's' :: rest => rest
    | _ => plain)

/-- The characters of the category, or group of categories, that a key names. -/
def category? (key : String) : Option (Char → Bool) :=
  match categoryNames.lookup key with
  | some names => some (inCategories names)
  | none =>
    match Category.named.find? fun (n, _) => n.toList.map Char.toLower == key.toList with
    | some (n, _) => some (inCategories [n])
    | none =>
      match key with
      | "any" => some fun _ => true
      | "ascii" => some fun c => c.toNat < 128
      | "assigned" => some fun c => !inCategories ["Cn"] c
      | _ => none

/-- The characters of the writing system that a key names. -/
def writingSystem? (key : String) : Option (Char → Bool) :=
  (WritingSystem.code? key).map fun code c => WritingSystem.ofChar c == code

/-- The property that a key names. -/
def property? (key : String) : Option (Char → Bool) :=
  match key with
  | "alphabetic" | "alpha" => some isAlphabetic
  | "whitespace" | "wspace" | "space" => some isBlank
  | "cased" => some isCased
  | "lowercase" | "lower" => some (inCategories ["Ll"])
  | "uppercase" | "upper" => some (inCategories ["Lu"])
  | "idstart" | "ids" | "xidstart" | "xids" => some isIdentifierStart
  | "idcontinue" | "idc" | "xidcontinue" | "xidc" => some isIdentifierPart
  | "asciihexdigit" | "ahex" => some fun c => (Json.hexDigit? c).isSome
  | _ => category? key <|> writingSystem? key

/-- A property with a name, or with a kind and a value: `gc=L`, `sc:Greek` or `gc!=L`. -/
def propertyQuery? (query : List Char) : Option (Char → Bool) :=
  let kind := query.takeWhile fun c => c != '=' && c != ':' && c != '!'
  match query.drop kind.length with
  | [] => property? (propertyKey query)
  | '!' :: '=' :: value => do
    let test ← byKind kind value
    return fun c => !test c
  | _ :: value => byKind kind value
where
  /-- General categories and writing systems are known by kind. -/
  byKind (kind value : List Char) : Option (Char → Bool) :=
    match propertyKey kind with
    | "gc" | "generalcategory" => category? (propertyKey value)
    | "sc" | "script" => writingSystem? (propertyKey value)
    | _ => none

/-- What means itself behind a backslash. -/
def isEscapable (c : Char) : Bool :=
  c.toNat < 128 && !c.isAlphanum && c != '<' && c != '>'

/-- The character of this code point, if there is one. -/
def charOfNat? (n : Nat) : Option Char :=
  if n.isValidChar then some (Char.ofNat n) else none

/-- A code point in hexadecimal digits: as many as `digits`, or any number in braces. -/
def hexEscape? (digits : Nat) (cs : List Char) : Option (Char × List Char) :=
  match cs with
  | '\x7b' :: rest => do
    let ds := rest.takeWhile (· != '\x7d')
    if ds.isEmpty || (rest.drop ds.length).isEmpty then none
    let n ← value ds
    let c ← charOfNat? n
    return (c, rest.drop (ds.length + 1))
  | cs => do
    let ds := cs.take digits
    if ds.length < digits then none
    let n ← value ds
    let c ← charOfNat? n
    return (c, cs.drop digits)
where
  /-- The number that hexadecimal digits stand for. -/
  value (ds : List Char) : Option Nat :=
    ds.foldlM (fun n d => (Json.hexDigit? d).map (16 * n + ·)) 0

/-- What a backslash and the text behind it stand for. -/
inductive Escaped where
  | char (c : Char)
  | set (test : Char → Bool)
  | anchor (spot : Anchor)

/-- Special word edges in braces behind `\b`. -/
def wordEdge? (flags : Flags) (name : String) : Option Anchor :=
  match name with
  | "start" => some (.wordStart flags.isWord)
  | "end" => some (.wordEnd flags.isWord)
  | "start-half" => some (.wordStartHalf flags.isWord)
  | "end-half" => some (.wordEndHalf flags.isWord)
  | _ => none

/-- Reads an escape, behind its backslash. -/
def escape? (flags : Flags) (cs : List Char) : Option (Escaped × List Char) :=
  match cs with
  | [] => none
  | 'x' :: rest => (hexEscape? 2 rest).map fun (c, r) => (.char c, r)
  | 'u' :: rest => (hexEscape? 4 rest).map fun (c, r) => (.char c, r)
  | 'U' :: rest => (hexEscape? 8 rest).map fun (c, r) => (.char c, r)
  | 'p' :: rest => (property rest).map fun (t, r) => (.set t, r)
  | 'P' :: rest => (property rest).map fun (t, r) => (.set fun c => !t c, r)
  | 'a' :: rest => some (.char '\x07', rest)
  | 'f' :: rest => some (.char '\x0c', rest)
  | 't' :: rest => some (.char '\t', rest)
  | 'n' :: rest => some (.char '\n', rest)
  | 'r' :: rest => some (.char '\r', rest)
  | 'v' :: rest => some (.char '\x0b', rest)
  | 'A' :: rest => some (.anchor .textStart, rest)
  | 'z' :: rest => some (.anchor .textEnd, rest)
  | 'B' :: rest => some (.anchor (.wordEdge true flags.isWord), rest)
  | '<' :: rest => some (.anchor (.wordStart flags.isWord), rest)
  | '>' :: rest => some (.anchor (.wordEnd flags.isWord), rest)
  | 'b' :: '\x7b' :: rest =>
    let name := rest.takeWhile fun c => c.isAlpha || c == '-'
    if name.isEmpty then some (.anchor (.wordEdge false flags.isWord), '\x7b' :: rest)
    else
      match rest.drop name.length with
      | '\x7d' :: rest =>
        (wordEdge? flags (String.ofList name)).map fun spot => (.anchor spot, rest)
      | _ => none
  | 'b' :: rest => some (.anchor (.wordEdge false flags.isWord), rest)
  | c :: rest =>
    match letterClass? flags c with
    | some test => some (.set test, rest)
    | none =>
      if isEscapable c then some (.char c, rest) else none
where
  /-- A property: the letter of a category, or a name in braces. -/
  property (cs : List Char) : Option ((Char → Bool) × List Char) :=
    match cs with
    | '\x7b' :: rest => do
      let name := rest.takeWhile (· != '\x7d')
      if (rest.drop name.length).isEmpty then none
      let test ← propertyQuery? name
      return (test, rest.drop (name.length + 1))
    | c :: rest => (category? (propertyKey [c])).map fun t => (t, rest)
    | [] => none

/-! ## Classes in brackets -/

/-- Drops white space and comments where they do not count. -/
def skipSpace (flags : Flags) : Nat → List Char → List Char
  | fuel + 1, c :: cs =>
    if !flags.spaced then c :: cs
    else if isBlank c then skipSpace flags fuel cs
    else if c == '#' then skipSpace flags fuel (cs.dropWhile (· != '\n'))
    else c :: cs
  | _, cs => cs

/-- A named class in square brackets and colons, behind its bracket. -/
def asciiClass? (cs : List Char) : Option ((Char → Bool) × List Char) :=
  match cs with
  | ':' :: rest => do
    let (negated, rest) := match rest with
      | '^' :: rest => (true, rest)
      | rest => (false, rest)
    let name := rest.takeWhile (· != ':')
    match rest.drop name.length with
    | ':' :: ']' :: rest =>
      let test ← asciiClasses.lookup (String.ofList name)
      return (if negated then fun c => !test c else test, rest)
    | _ => none
  | _ => none

/-- An operation between the parts of a class. -/
inductive SetOp where
  | both
  | minus
  | either

/-- Joins two parts of a class. -/
def SetOp.apply (left right : Char → Bool) : SetOp → Char → Bool
  | both, c => left c && right c
  | minus, c => left c && !right c
  | either, c => left c != right c

/-- A member of a class. -/
inductive Member where
  | char (c : Char)
  | set (test : Char → Bool)

/-- Reads what an escape may stand for inside a class. -/
def escapedMember? (flags : Flags) (cs : List Char) : Option (Member × List Char) := do
  match ← escape? flags cs with
  | (.char c, rest) => return (.char c, rest)
  | (.set t, rest) => return (.set t, rest)
  | (.anchor _, _) => none

/-- Leading dashes, and a bracket that comes first, mean themselves. -/
def classStart (cs : List Char) : (List Char) × List Char :=
  let dashes := cs.takeWhile (· == '-')
  match dashes, cs.drop dashes.length with
  | [], ']' :: rest => ([']'], rest)
  | ds, rest => (ds, rest)

/-- Reads the members of a class up to its closing bracket. `earlier` are the parts before the last
operation, joined, and `current` is the part being read. -/
def classBody? (flags : Flags) :
    Nat → Option ((Char → Bool) × SetOp) → (Char → Bool) → List Char →
      Option ((Char → Bool) × List Char)
  | 0, _, _, _ => none
  | fuel + 1, earlier, current, cs =>
    let joined : Char → Bool := match earlier with
      | some (left, op) => op.apply left current
      | none => current
    let add (test : Char → Bool) (rest : List Char) :=
      let test := flags.test test
      classBody? flags fuel earlier (fun c => current c || test c) rest
    match skipSpace flags cs.length cs with
    | [] => none
    | ']' :: rest => some (joined, rest)
    | '&' :: '&' :: rest => classBody? flags fuel (some (joined, .both)) (fun _ => false) rest
    | '-' :: '-' :: rest => classBody? flags fuel (some (joined, .minus)) (fun _ => false) rest
    | '~' :: '~' :: rest => classBody? flags fuel (some (joined, .either)) (fun _ => false) rest
    | '[' :: rest =>
      match asciiClass? rest with
      | some (test, rest) => add test rest
      | none =>
        let (negated, rest) := match skipSpace flags rest.length rest with
          | '^' :: rest => (true, rest)
          | rest => (false, rest)
        let (first, rest) := classStart (skipSpace flags rest.length rest)
        match classBody? flags fuel none (flags.test fun c => first.contains c) rest with
        | some (test, rest) =>
          classBody? flags fuel earlier (fun c => current c || (test c != negated)) rest
        | none => none
    | cs => do
      let (m, rest) ← member cs
      match m, skipSpace flags rest.length rest with
      | .char lo, '-' :: after =>
        match skipSpace flags after.length after with
        | ']' :: _ | '-' :: _ => add (· == lo) rest
        | [] => none
        | after =>
          let (m, rest) ← member after
          match m with
          | .char hi => if lo ≤ hi then add (fun c => lo ≤ c && c ≤ hi) rest else none
          | .set _ => none
      | .set _, '-' :: after =>
        match skipSpace flags after.length after with
        | ']' :: _ | '-' :: _ =>
          match m with
          | .set t => add t rest
          | .char c => add (· == c) rest
        | _ => none
      | .set t, _ => add t rest
      | .char c, _ => add (· == c) rest
where
  /-- A character, or an escape. -/
  member (cs : List Char) : Option (Member × List Char) :=
    match cs with
    | [] => none
    | '\\' :: rest => escapedMember? flags rest
    | c :: rest => some (.char c, rest)

/-- Reads a class, behind its opening bracket. -/
def class? (flags : Flags) (cs : List Char) : Option ((Char → Bool) × List Char) := do
  let (negated, cs) := match skipSpace flags cs.length cs with
    | '^' :: rest => (true, rest)
    | rest => (false, rest)
  let (first, cs) := classStart (skipSpace flags cs.length cs)
  let (test, rest) ←
    classBody? flags (cs.length + 1) none (flags.test fun c => first.contains c) cs
  return (fun c => test c != negated, rest)

/-! ## Groups and repetitions -/

/-- A number among white space. -/
def number? (cs : List Char) : Option (Nat × List Char) := do
  let (ds, rest) ← Json.readDigits? (cs.dropWhile isBlank)
  let n := Json.digitsValue ds
  if n < Nat.pow 2 32 then return (n, rest.dropWhile isBlank) else none

/-- Reads a counted repetition, behind its opening brace. -/
def count? (flags : Flags) (cs : List Char) : Option ((Nat × Option Nat) × List Char) := do
  let (least, rest) ← number? cs
  match rest with
  | '\x7d' :: rest => return ((least, some least), rest)
  | ',' :: rest =>
    match skipSpace flags rest.length rest with
    | '\x7d' :: rest => return ((least, none), rest)
    | rest =>
      let (most, rest) ← number? rest
      match rest with
      | '\x7d' :: rest => if least ≤ most then return ((least, some most), rest) else none
      | _ => none
  | _ => none

/-- A mark behind a repetition that asks for the shortest occurrence first. -/
def skipLazy : List Char → List Char
  | '?' :: rest => rest
  | rest => rest

/-- Sets or clears one flag. -/
def Flags.set? (flags : Flags) (c : Char) (on : Bool) : Option Flags :=
  match c with
  | 'i' => some { flags with ignoreCase := on }
  | 'm' => some { flags with multiLine := on }
  | 's' => some { flags with dotAll := on }
  | 'R' => some { flags with anyLineEnd := on }
  | 'u' => some { flags with allScripts := on }
  | 'x' => some { flags with spaced := on }
  | 'U' => some flags
  | _ => none

/-- Reads the flags up to a colon or a closing parenthesis, which stays. No flag may come twice,
and something has to follow a dash. -/
def flags? (flags : Flags) (seen : List Char) (on dangling : Bool) :
    List Char → Option (Flags × Bool × List Char)
  | [] => none
  | c :: rest =>
    if c == ':' || c == ')' then
      if dangling then none else some (flags, seen.isEmpty, c :: rest)
    else if c == '-' then
      if on then flags? flags ('-' :: seen) false true rest else none
    else if seen.contains c then none
    else
      match flags.set? c on with
      | some flags => flags? flags (c :: seen) on false rest
      | none => none

/-- Characters of group names. -/
def isNameChar (first : Bool) (c : Char) : Bool :=
  c == '_' || isAlphabetic c ||
    (!first && (isAlphanumeric c || c == '.' || c == '[' || c == ']'))

/-- Reads a group name up to `>`. No name may come twice. -/
def groupName? (names : List String) (cs : List Char) : Option (String × List Char) := do
  let name := cs.takeWhile (· != '>')
  let first :: others := name | none
  if !isNameChar true first || !others.all (isNameChar false) then none
  let text := String.ofList name
  if names.contains text then none
  match cs.drop name.length with
  | '>' :: rest => return (text, rest)
  | _ => none

/-- How a group opens, behind its parenthesis. -/
inductive Opening where
  /-- A group with these flags inside; a name is added to the ones in use. -/
  | group (flags : Flags) (names : List String) (rest : List Char)
  /-- Flags for what follows. -/
  | switch (flags : Flags) (rest : List Char)

/-- Reads how a group opens. -/
def opening? (flags : Flags) (names : List String) (cs : List Char) : Option Opening :=
  match cs with
  | '?' :: 'P' :: '<' :: rest | '?' :: '<' :: rest =>
    match rest with
    | '=' :: _ | '!' :: _ => none
    | rest => (groupName? names rest).map fun (name, rest) => .group flags (name :: names) rest
  | '?' :: rest =>
    match flags? flags [] true false rest with
    | some (flags, _, ':' :: rest) => some (.group flags names rest)
    | some (flags, bare, ')' :: rest) => if bare then none else some (.switch flags rest)
    | _ => none
  | rest => some (.group flags names rest)

/-- A part of a group. A switch of flags is a part without a pattern, which cannot be repeated. -/
structure Part where
  pattern : Option Pattern
  /-- How many groups, repetitions, sequences and choices stand inside one another. -/
  depth : Nat := 0
  deriving Inhabited

/-- What has been read of a group: earlier choices, and the parts of the current one in reverse. -/
structure Progress where
  choices : List Pattern := []
  /-- The greatest depth of the earlier choices. -/
  depth : Nat := 0
  parts : List Part := []
  deriving Inhabited

namespace Progress

/-- The current choice. -/
def choice (p : Progress) : Part where
  pattern := inOrder (p.parts.reverse.filterMap Part.pattern)
  depth := match p.parts with
    | [] => 0
    | [part] => part.depth
    | parts => parts.foldl (fun n part => max n part.depth) 0 + 1

/-- The whole group. -/
def whole (p : Progress) : Part where
  pattern := oneOf (p.choices.reverse ++ p.choice.pattern.toList)
  depth := if p.choices.isEmpty then p.choice.depth else max p.depth p.choice.depth + 1

/-- Ends the current choice. -/
def endChoice (p : Progress) : Progress where
  choices := p.choice.pattern.toList ++ p.choices
  depth := max p.depth p.choice.depth

/-- Adds a part. -/
def push (p : Progress) (part : Part) : Progress :=
  { p with parts := part :: p.parts }

/-- Repeats the last part. -/
def repeatLast? (p : Progress) (least : Nat) (most : Option Nat) : Option Progress :=
  match p.parts with
  | ⟨some body, depth⟩ :: rest =>
    some { p with parts := ⟨some (repeated least most body), depth + 1⟩ :: rest }
  | _ => none

end Progress

/-- Any character, up to the flags. -/
def anyChar (flags : Flags) (c : Char) : Bool :=
  flags.dotAll || (c != '\n' && !(flags.anyLineEnd && c == '\r'))

/-- Reads a group up to its end, which stays. -/
def group? : Nat → Flags → List String → Progress → List Char →
    Option (Part × List String × List Char)
  | 0, _, _, _, _ => none
  | fuel + 1, flags, names, progress, cs =>
    let add (part : Pattern) (rest : List Char) :=
      group? fuel flags names (progress.push ⟨some part, 0⟩) rest
    let again (least : Nat) (most : Option Nat) (rest : List Char) :=
      match progress.repeatLast? least most with
      | some progress => group? fuel flags names progress (skipLazy rest)
      | none => none
    match skipSpace flags cs.length cs with
    | [] => some (progress.whole, names, [])
    | ')' :: rest => some (progress.whole, names, ')' :: rest)
    | '|' :: rest => group? fuel flags names progress.endChoice rest
    | '*' :: rest => again 0 none rest
    | '+' :: rest => again 1 none rest
    | '?' :: rest => again 0 (some 1) rest
    | '\x7b' :: rest =>
      match count? flags rest with
      | some ((least, most), rest) => again least most rest
      | none => none
    | '(' :: rest =>
      match opening? flags names rest with
      | some (.switch flags rest) =>
        group? fuel flags names (progress.push ⟨none, 0⟩) rest
      | some (.group inner names rest) =>
        match group? fuel inner names {} rest with
        | some (body, names, ')' :: rest) =>
          group? fuel flags names (progress.push { body with depth := body.depth + 1 }) rest
        | _ => none
      | none => none
    | '[' :: rest =>
      match class? flags rest with
      | some (test, rest) =>
        group? fuel flags names (progress.push ⟨some (one test), 1⟩) rest
      | none => none
    | '.' :: rest => add (one (anyChar flags)) rest
    | '^' :: rest =>
      add (anchor (if !flags.multiLine then .textStart
        else if flags.anyLineEnd then .lineStartAny else .lineStart)) rest
    | '$' :: rest =>
      add (anchor (if !flags.multiLine then .textEnd
        else if flags.anyLineEnd then .lineEndAny else .lineEnd)) rest
    | '\\' :: rest =>
      match escape? flags rest with
      | some (.char c, rest) => add (one (flags.test (· == c))) rest
      | some (.set test, rest) => add (one (flags.test test)) rest
      | some (.anchor spot, rest) => add (anchor spot) rest
      | none => none
    | c :: rest => add (one (flags.test (· == c))) rest

/-- How many groups, repetitions, sequences and choices may stand inside one another. -/
def maxDepth : Nat := 250

/-- The pattern that a text stands for, unless it is too deep or too large. -/
def parse? (text : String) : Option Pattern :=
  match group? (text.length + 1) {} [] {} text.toList with
  | some (⟨some pattern, depth⟩, _, []) =>
    if depth ≤ maxDepth && !pattern.isTooLarge then some pattern else none
  | _ => none

end Pattern

end ModuleBuild
