import ModuleBuild.Script.Syntax

/-!
# Reading programs: tokens and comments

The state of a parser: the token at hand, what follows it, and the comments met so far. A parser either
succeeds or fails; errors carry no text, because nothing that is shown depends on it.

## Main definitions

* `Dialect`, `Scope` — what the source may contain, and what the place in the source allows.
* `Parse` — parsers.
* `advance`, `accept`, `expect`, `attempt` — the steps that all rules are made of.
-/

namespace ModuleBuild.Script

open Text

/-- What a source may contain beyond plain scripts. -/
structure Dialect where
  isModule : Bool := true
  hasTypes : Bool := false
  hasMarkup : Bool := false
  deriving DecidableEq, Inhabited, Repr

/-- What the place in the source allows. -/
structure Scope where
  isAsync : Bool := false
  isGenerator : Bool := false
  /-- Whether `return` may stand here. -/
  inFunction : Bool := false
  /-- Whether `in` is an operator here. -/
  allowsIn : Bool := true
  /-- Whether a colon here may belong to a condition around. -/
  inCondition : Bool := false
  /-- Whether a type may be followed by `extends` and a condition. -/
  allowsConditionalType : Bool := true
  deriving DecidableEq, Inhabited, Repr

/-- The comments met so far. A comment belongs to the token behind it, unless it stands at the end of
the line of the one before. -/
structure CommentState where
  /-- Comments whose place is known, the last one first. -/
  settled : List Comment := []
  /-- Comments that may belong to the next token, the last one first. -/
  pending : List Comment := []
  /-- Whether a line has ended since the last token. -/
  sawNewline : Bool := true
  /-- Whether the last token asks for a value, so that a comment behind it belongs to that value. -/
  awaitsValue : Bool := false
  deriving DecidableEq, Inhabited, Repr

namespace CommentState

/-- A line ends. -/
def newline (s : CommentState) : CommentState :=
  match s.pending with
  | [] => { s with sawNewline := true }
  | c :: rest =>
    let pending := { c with newlineAfter := true } :: rest
    if s.sawNewline then { s with pending }
    else { s with settled := pending ++ s.settled, pending := [], sawNewline := true }

/-- A comment ends. -/
def add (s : CommentState) (text : String) (isLine : Bool) (start : Nat) : CommentState :=
  let c : Comment :=
    { text, isLine, start, newlineBefore := s.sawNewline, newlineAfter := isLine }
  if isLine && !s.sawNewline && !s.awaitsValue then
    { s with settled := c :: (s.pending ++ s.settled), pending := [], sawNewline := true }
  else { s with pending := c :: s.pending, sawNewline := s.sawNewline || isLine }

/-- A token starts. -/
def token (s : CommentState) (start : Nat) (kind : TokenKind) : CommentState where
  settled := s.pending.map ({ · with attachedTo := some start }) ++ s.settled
  pending := []
  sawNewline := false
  awaitsValue := kind == .punct "=" || kind == .punct "("

end CommentState

/-- The state of a parser. -/
structure ParseState where
  dialect : Dialect
  scope : Scope := {}
  /-- The number of characters of the source, which bounds every repetition. -/
  size : Nat
  /-- The token at hand. -/
  token : Token
  /-- Where it starts, and where what follows it starts. -/
  here : Cursor
  next : Cursor
  /-- Where the token before it ended. -/
  lastStop : Nat := 0
  comments : CommentState := {}
  deriving Inhabited

/-- Parsers. -/
abbrev Parse (α : Type) : Type := StateT ParseState Option α

/-- The end of a block comment, which is included, and what follows. -/
def readBlockComment : List Char → Option (List Char × List Char)
  | '*' :: '/' :: rest => some (['*', '/'], rest)
  | c :: rest => (readBlockComment rest).map fun (text, rest) => (c :: text, rest)
  | [] => none

/-- Passes over white space and comments; says also whether a line ends there. -/
def skipTrivia : Nat → Bool → CommentState → Cursor → Option (Bool × CommentState × Cursor)
  | 0, _, _, _ => none
  | fuel + 1, newline, comments, cursor =>
    match cursor.rest with
    | '/' :: '/' :: rest =>
      let text := '/' :: '/' :: rest.takeWhile (!isLineEnd ·)
      skipTrivia fuel newline (comments.add (String.ofList text) true cursor.offset)
        (cursor.skip text)
    | '/' :: '*' :: rest =>
      match readBlockComment rest with
      | some (body, _) =>
        let text := '/' :: '*' :: body
        skipTrivia fuel (newline || body.any isLineEnd)
          (comments.add (String.ofList text) false cursor.offset) (cursor.skip text)
      | none => none
    | c :: _ =>
      if isLineEnd c then skipTrivia fuel true comments.newline (cursor.skip [c])
      else if isSpace c then skipTrivia fuel newline comments (cursor.skip [c])
      else some (newline, comments, cursor)
    | [] => some (newline, comments, cursor)

/-- How tokens are read. -/
abbrev TokenReader : Type := List Char → Option (TokenKind × List Char)

/-- Puts the token that starts at `cursor` at hand. -/
def placeToken (s : ParseState) (newlineBefore : Bool) (comments : CommentState) (cursor : Cursor)
    (read : TokenReader) : Option ParseState := do
  let (kind, rest) ← read cursor.rest
  let next := cursor.upTo rest
  return { s with
    token := { kind, start := cursor.offset, stop := next.offset, newlineBefore }
    here := cursor
    next
    comments := comments.token cursor.offset kind }

/-- Goes on to the next token, which is read in this way. -/
def advanceBy (read : TokenReader) : Parse Unit := fun s => do
  let (newline, comments, cursor) ←
    skipTrivia (s.next.rest.length + 1) false s.comments s.next
  let s ← placeToken { s with lastStop := s.token.stop } newline comments cursor read
  return ((), s)

/-- Goes on to the next token. -/
def advance : Parse Unit := advanceBy readToken?

/-- Reads the token at hand anew. -/
def reread (read : TokenReader) : Parse Unit := fun s => do
  let (kind, rest) ← read s.here.rest
  let next := s.here.upTo rest
  return ((), { s with token := { s.token with kind, stop := next.offset }, next })

/-- The token at hand. -/
def token : Parse Token := do
  return (← get).token

/-- Where the token at hand starts. -/
def place : Parse Nat := do
  return (← token).start

/-- What has been read from a place on. -/
def spanFrom (start : Nat) : Parse Span := do
  return ⟨start, (← get).lastStop⟩

/-- Whether this punctuation is at hand. -/
def sees (text : String) : Parse Bool := do
  return (← token).kind == .punct text

/-- Whether this word is at hand, written without escapes. -/
def seesWord (text : String) : Parse Bool := do
  return (← token).kind == .word text false

/-- Whether a line ended before the token at hand. -/
def afterNewline : Parse Bool := do
  return (← token).newlineBefore

/-- Passes over this punctuation, if it is at hand. -/
def accept (text : String) : Parse Bool := do
  if ← sees text then
    advance
    return true
  else return false

/-- Passes over this word, if it is at hand. -/
def acceptWord (text : String) : Parse Bool := do
  if ← seesWord text then
    advance
    return true
  else return false

/-- Passes over this punctuation, which has to be at hand. -/
def expect (text : String) : Parse Unit := do
  if !(← accept text) then failure

/-- Passes over this word, which has to be at hand. -/
def expectWord (text : String) : Parse Unit := do
  if !(← acceptWord text) then failure

/-- Runs a parser; goes back if it fails. -/
def attempt {α : Type} (p : Parse α) : Parse (Option α) := fun s =>
  match p.run s with
  | some (a, s) => some (some a, s)
  | none => some (none, s)

/-- What a parser would give, without going on. -/
def ahead {α : Type} (p : Parse α) : Parse (Option α) := fun s =>
  match p.run s with
  | some (a, _) => some (some a, s)
  | none => some (none, s)

/-- Whether a condition holds behind the token at hand. -/
def nextIs (p : Parse Bool) : Parse Bool := do
  return (← ahead (do advance; p)) == some true

/-- Runs a parser under other rules about the place. -/
def inScope {α : Type} (f : Scope → Scope) (p : Parse α) : Parse α := do
  let scope := (← get).scope
  modify fun s => { s with scope := f s.scope }
  let a ← p
  modify fun s => { s with scope }
  return a

/-- Fails unless the condition holds. -/
def require (b : Bool) : Parse Unit :=
  if b then pure () else failure

/-- Repeats a step until it gives a result; no more often than the source has characters. -/
def loop {α β : Type} (start : α) (step : α → Parse (α ⊕ β)) : Parse β := do
  go ((← get).size + 2) start
where
  /-- Repeats at most so many times. -/
  go : Nat → α → Parse β
    | 0, _ => failure
    | n + 1, a => do
      match ← step a with
      | .inl a => go n a
      | .inr b => return b

/-- Items until a condition holds. -/
def manyUntil {α : Type} (stop : Parse Bool) (item : Parse α) : Parse (List α) :=
  loop [] fun items => do
    if ← stop then return .inr items.reverse
    else return .inl ((← item) :: items)

/-- Items between commas up to the closing punctuation, which is passed over. A comma may stand
behind the last one. -/
def commaList {α : Type} (close : String) (item : Parse α) : Parse (List α) :=
  loop [] fun items => do
    if ← accept close then return .inr items.reverse
    else
      let items := (← item) :: items
      if ← accept "," then return .inl items
      else
        expect close
        return .inr items.reverse

/-- The words that are no identifiers. -/
def reservedWords : List String :=
  ["break", "case", "catch", "class", "const", "continue", "debugger", "default", "delete", "do",
    "else", "enum", "export", "extends", "false", "finally", "for", "function", "if", "import", "in",
    "instanceof", "new", "null", "return", "super", "switch", "this", "throw", "true", "try",
    "typeof", "var", "void", "while", "with"]

/-- Whether a word may be an identifier at this place. -/
def isIdentifier (s : ParseState) (word : String) : Bool :=
  !reservedWords.contains word &&
    !(word == "await" && (s.dialect.isModule || s.scope.isAsync)) &&
    !(word == "yield" && s.scope.isGenerator)

/-- An identifier, with its place. -/
def identifier : Parse (Span × String) := do
  let s ← get
  match s.token.kind with
  | .word text _ =>
    require (isIdentifier s text)
    advance
    return (⟨s.token.start, s.token.stop⟩, text)
  | _ => failure

/-- Whether an identifier is at hand. -/
def seesIdentifier : Parse Bool := do
  let s ← get
  match s.token.kind with
  | .word text _ => return isIdentifier s text
  | _ => return false

/-- Any word, with its place. -/
def anyWord : Parse (Span × String) := do
  let t ← token
  match t.kind with
  | .word text _ =>
    advance
    return (⟨t.start, t.stop⟩, text)
  | _ => failure

/-- A string, with its place. -/
def stringLit : Parse (Span × StringLit) := do
  let t ← token
  match t.kind with
  | .string lit =>
    advance
    return (⟨t.start, t.stop⟩, lit)
  | _ => failure

/-- Whether a statement may end here without a semicolon. -/
def endsStatement : Parse Bool := do
  let t ← token
  return t.newlineBefore || t.kind == .punct "\x7d" || t.kind == .eof

/-- The end of a statement. -/
def semicolon : Parse Unit := do
  if !(← accept ";") then require (← endsStatement)

end ModuleBuild.Script
