import ModuleBuild.Script.Parse.Types

/-!
# Reading markup

Elements and fragments. Names may contain dashes, strings have no escapes, and what stands between
elements is text, so these are read in ways of their own. The bracket that closes an element stays at
hand, because what follows it may be text again.

## Main definitions

* `markupRule` — an element or fragment.
-/

namespace ModuleBuild.Script

/-- Reads a name that may contain dashes. -/
def readMarkupName? : TokenReader
  | [] => none
  | c :: rest =>
    if startsWord c then
      let tail := rest.takeWhile fun d => continuesWord d || d == '-'
      some (.word (String.ofList (c :: tail)) false, rest.drop tail.length)
    else none

/-- Reads a string without escapes, or another token. -/
def readMarkupValue? : TokenReader
  | [] => none
  | quote :: rest =>
    if quote == '"' || quote == '\'' then
      let text := rest.takeWhile (· != quote)
      let value := String.ofList text
      match rest.drop text.length with
      | _ :: rest => some (.string { value, raw := value }, rest)
      | [] => none
    else readToken? (quote :: rest)

/-- A part of a name. -/
def markupWord : Parse String := do
  reread readMarkupName?
  let (_, text) ← anyWord
  return text

/-- A name that may have a namespace. -/
def markupName : Parse String := do
  let name ← markupWord
  if ← accept ":" then
    let inner ← markupWord
    return name ++ ":" ++ inner
  else return name

/-- What a name stands for: a value, or an element of that name if it is lower case or has a dash or
namespace. -/
def tagOfName (span : Span) (name : String) : Node :=
  if name == "this" then .this span
  else
    let isElement := (name.toList.head?.any fun c => 'a' ≤ c && c ≤ 'z') ||
      name.contains '-' || name.contains ':'
    if isElement then .string span { value := name, raw := name } else .ident span name

/-- The tag of an element. -/
def markupTag : Parse Node := do
  let start ← place
  let name ← markupName
  let first := tagOfName (← spanFrom start) name
  if ← sees "." then
    let base := match first with
      | .string span lit => .ident span lit.value
      | n => n
    loop base fun base => do
      if ← accept "." then
        let name ← markupWord
        return .inl (.member (← spanFrom start) base name false)
      else return .inr base
  else return first

/-- The text of a tag. -/
def tagText : Node → String
  | .ident _ name => name
  | .string _ lit => lit.value
  | .this _ => "this"
  | .member _ base name _ => tagText base ++ "." ++ name
  | _ => ""

/-- The value of an attribute, from the equals sign at hand on. -/
def markupValue (rules : Rules) : Parse Node := do
  advanceBy readMarkupValue?
  let t ← token
  match t.kind with
  | .string lit =>
    advance
    return .text ⟨t.start, t.stop⟩ lit.value
  | .punct "\x7b" =>
    advance
    let value ← rules .expression
    expect "\x7d"
    return value
  | .punct "<" =>
    let value ← rules .markup
    expect ">"
    return value
  | _ => failure

/-- An attribute. -/
def markupAttribute (rules : Rules) : Parse Node := do
  let start ← place
  if ← accept "\x7b" then
    expect "..."
    let value ← rules .assignment
    expect "\x7d"
    return .spread (← spanFrom start) value
  else
    let name ← markupName
    let value ← if ← sees "=" then some <$> markupValue rules else pure none
    return .markupAttribute (← spanFrom start) name value

/-- The text up to the next brace or element, which is put at hand. -/
def markupText : Parse (List Node) := do
  let s ← get
  let text := s.next.rest.takeWhile fun c => c != '\x7b' && c != '<'
  require (!text.any fun c => c == '>' || c == '\x7d')
  let next := s.next.skip text
  set { s with next }
  advance
  if text.isEmpty then return []
  else return [.text ⟨s.next.offset, next.offset⟩ (String.ofList text)]

/-- What stands between braces, of which the closing one stays at hand. -/
def markupBraces (rules : Rules) : Parse Node := do
  let start ← place
  expect "\x7b"
  if ← sees "\x7d" then return .emptyBraces (← spanFrom start)
  else
    let value ← if ← accept "..." then
        let value ← rules .assignment
        pure (.spread (← spanFrom start) value)
      else rules .expression
    require (← sees "\x7d")
    return value

/-- What stands in an element, and the end of it, which has to fit the tag. -/
def markupChildren (rules : Rules) (tag : Option Node) : Parse (List Node) :=
  loop [] fun items => do
    require ((← sees ">") || (← sees "\x7d"))
    let items := (← markupText).reverse ++ items
    if ← sees "\x7b" then return .inl ((← markupBraces rules) :: items)
    else if ← nextIs (sees "/") then
      advance
      advance
      match tag with
      | some tag =>
        let last ← markupTag
        require (tagText last == tagText tag)
      | none => pure ()
      require (← sees ">")
      return .inr items.reverse
    else return .inl ((← rules .markup) :: items)

/-- An element or fragment. -/
def markupRule (rules : Rules) : Parse Node := do
  let start ← place
  expect "<"
  let finish (tag : Option Node) (attributes children : List Node) : Parse Node := do
    return .markup ⟨start, (← token).stop⟩ tag attributes children
  if ← sees ">" then
    let children ← markupChildren rules none
    finish none [] children
  else
    let tag ← markupTag
    if (← get).dialect.hasTypes && (← sees "<") then typeArguments rules
    let attributes ← manyUntil (do return (← sees ">") || (← sees "/")) (markupAttribute rules)
    if ← accept "/" then
      require (← sees ">")
      finish (some tag) attributes []
    else
      let children ← markupChildren rules (some tag)
      finish (some tag) attributes children

end ModuleBuild.Script
