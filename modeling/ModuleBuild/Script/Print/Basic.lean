import ModuleBuild.Script.Syntax

/-!
# Printing: the text so far

The state of a printer and its smallest steps: text, optional white space, indentation, the spaces that
keep tokens apart, and comments. Printing never fails.

## Main definitions

* `PrintStyle` — how to print.
* `PrintState` — the text so far and what depends on its end.
* `Print` — printers.
* `text`, `softSpace`, `softNewline`, `indentation`, `endStatement` — the steps.
-/

namespace ModuleBuild.Script

/-- How to print. -/
structure PrintStyle where
  /-- Whether to leave out all white space that is not needed. -/
  minify : Bool := false
  /-- The call that markup stands for. -/
  lower : Node → Node := id
  deriving Inhabited

/-- The text printed so far, and what depends on its end. Places are numbers of bytes. -/
structure PrintState where
  style : PrintStyle
  output : String := ""
  /-- The number of bytes and of line ends so far. -/
  written : Nat := 0
  lines : Nat := 0
  last : Option Char := none
  indent : Nat := 0
  /-- Whether the next indentation is a single space. -/
  indentAsSpace : Bool := false
  /-- Whether a semicolon is still to be printed. -/
  needsSemicolon : Bool := false
  /-- Where a statement, the value of an arrow function and a default export started last. -/
  statementStart : Option Nat := none
  arrowStart : Option Nat := none
  defaultStart : Option Nat := none
  /-- Behind which whole number a point would be read as its fraction. -/
  numberStop : Option Nat := none
  regexStop : Option Nat := none
  /-- The operator printed last, whether it stands before its only value, and where it ended. -/
  operator : Option (String × Bool × Nat) := none
  /-- The comments not printed yet. -/
  comments : List Comment := []
  /-- The line of the first part that comes from the source. -/
  firstLine : Option Nat := none
  deriving Inhabited

/-- Printers. -/
abbrev Print (α : Type) : Type := StateM PrintState α

/-- Prints text. -/
def text (s : String) : Print Unit :=
  modify fun st =>
    let cs := s.toList
    { st with
      output := st.output ++ s
      written := st.written + s.utf8ByteSize
      lines := st.lines + cs.countP isLineEnd
      last := cs.getLast?.or st.last }

/-- Whether white space is left out. -/
def minifies : Print Bool := do
  return (← get).style.minify

/-- A space for readers. -/
def softSpace : Print Unit := do
  if !(← minifies) then text " "

/-- A line end for readers. -/
def softNewline : Print Unit := do
  if !(← minifies) then text "\n"

/-- The indentation of a line. -/
def indentation : Print Unit := do
  let s ← get
  if s.style.minify then return
  else if s.indentAsSpace then
    text " "
    modify ({ · with indentAsSpace := false })
  else text (String.ofList (List.replicate s.indent '\t'))

/-- Prints with lines indented by one more tab. -/
def indented (p : Print Unit) : Print Unit := do
  modify fun s => { s with indent := s.indent + 1 }
  p
  modify fun s => { s with indent := s.indent - 1 }

/-- Whether something starts right at the end of the text. -/
def isHere (mark : PrintState → Option Nat) : Print Bool := do
  let s ← get
  return mark s == some s.written

/-- A space, if what follows is a word and would be read together with the text before. -/
def spaceBeforeWord : Print Unit := do
  let s ← get
  if s.last.any continuesWord || s.regexStop == some s.written then text " "

/-- A word. -/
def word (s : String) : Print Unit := do
  spaceBeforeWord
  text s

/-- Whether two signs would be read as one operator. -/
def signsMeet (last next : String) (lastIsPrefix nextIsPrefix : Bool) : Bool :=
  let adds := last == "+" && (next == "+" || (next == "++" && nextIsPrefix))
  let subtracts := last == "-" && (next == "-" || (next == "--" && nextIsPrefix))
  let closes := last == "--" && !lastIsPrefix && next == ">"
  adds || subtracts || closes

/-- A sign, kept apart from the one before. -/
def sign (op : String) (isPrefix : Bool) : Print Unit := do
  let s ← get
  match s.operator with
  | some (last, lastIsPrefix, stop) =>
    if stop == s.written && signsMeet last op lastIsPrefix isPrefix then text " "
  | none => pure ()
  text op
  modify fun s => { s with operator := some (op, isPrefix, s.written) }

/-- Prints in parentheses if the condition holds. -/
def wrapped (b : Bool) (p : Print Unit) : Print Unit := do
  if b then
    text "("
    p
    text ")"
  else p

/-- The semicolon that is still to be printed. -/
def pendingSemicolon : Print Unit := do
  if (← get).needsSemicolon then
    text ";"
    modify ({ · with needsSemicolon := false })

/-- The end of a statement. -/
def endStatement : Print Unit := do
  if ← minifies then modify ({ · with needsSemicolon := true })
  else text ";\n"

/-- The statement printed last ends without a semicolon. -/
def dropSemicolon : Print Unit :=
  modify ({ · with needsSemicolon := false })

/-- Items between commas. -/
def commaSeparated {α : Type} (items : List α) (item : α → Print Unit) : Print Unit :=
  match items with
  | [] => pure ()
  | first :: rest => do
    item first
    rest.forM fun x => do
      text ","
      softSpace
      item x

/-- Braces with lines between them, or nothing. -/
def braces (isEmpty : Bool) (inner : Print Unit) : Print Unit := do
  text "\x7b"
  if isEmpty then inner
  else
    softNewline
    indented inner
    indentation
  text "\x7d"

/-! ## Comments -/

/-- The lines of a text. A pair of characters that ends a line counts as one. -/
def linesOf : List Char → List (List Char)
  | [] => [[]]
  | '\r' :: '\n' :: rest => [] :: linesOf rest
  | c :: rest =>
    if isLineEnd c then [] :: linesOf rest
    else
      match linesOf rest with
      | line :: more => (c :: line) :: more
      | [] => [[c]]

/-- A text in which no tag of a script is closed. -/
def keepOpen : List Char → List Char
  | '<' :: '/' :: rest =>
    if (rest.take 6).map Char.toLower == "script".toList then '<' :: '\\' :: '/' :: keepOpen rest
    else '<' :: keepOpen ('/' :: rest)
  | c :: rest => c :: keepOpen rest
  | [] => []

/-- A comment. Its lines are indented anew. -/
def comment (c : Comment) : Print Unit :=
  if c.isLine then text (String.ofList (keepOpen c.text.toList))
  else
    (linesOf c.text.toList).forM fun line => do
      if !"/*".toList.isPrefixOf line then indentation
      text (String.ofList (keepOpen (line.dropWhile fun d => isSpace d)))
      if !"*/".toList.isSuffixOf line then text "\n"

/-- Comments, each on its line if it stood on one. -/
def commentList (cs : List Comment) : Print Unit :=
  match cs with
  | [] => pure ()
  | first :: rest => do
    if first.newlineBefore then
      match (← get).last with
      | none | some '\t' => pure ()
      | some '\n' => indentation
      | some _ =>
        text "\n"
        indentation
    else indentation
    comment first
    rest.forM fun c => do
      if c.newlineBefore then
        text "\n"
        indentation
      comment c
    let final := rest.getLast?.getD first
    if final.isLine || final.newlineAfter then text "\n"
    else modify ({ · with indentAsSpace := true })

/-- The comments before a place, which will not be printed again. -/
def takeComments (place : Nat) : Print (List Comment) := do
  let s ← get
  let (here, others) := s.comments.partition (·.attachedTo == some place)
  set { s with comments := others }
  return here

/-- Prints the comments before a place. -/
def commentsAt (place : Nat) : Print Unit := do
  commentList (← takeComments place)

/-- Notes that a part of the source is printed here, unless it has no place there. -/
def noteSource (span : Span) : Print Unit :=
  modify fun s =>
    if s.firstLine.isNone && span.start < span.stop then { s with firstLine := some s.lines } else s

end ModuleBuild.Script
