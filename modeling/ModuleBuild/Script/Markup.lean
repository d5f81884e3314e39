import ModuleBuild.Script.Enumeration
import ModuleBuild.Script.Names
import ModuleBuild.Text.Entity

/-!
# What markup stands for

An element stands for a call that is given a tag, properties and children. The functions called are
either named by the options or imported from a module on first use.

## Main definitions

* `MarkupRuntime` — where the functions come from.
* `MarkupFunction`, `usedFunctions` — the functions of the module, and those that a program needs.
* `MarkupCalls` — the functions as expressions.
* `MarkupCalls.lower` — the call that an element stands for.
-/

namespace ModuleBuild.Script

open Text

/-- Where the functions that markup calls come from. -/
inductive MarkupRuntime where
  /-- They are named, with points between the words. -/
  | classic (element fragment : String)
  /-- They are imported from a module. -/
  | automatic (source : String)
  deriving DecidableEq, Inhabited, Repr

/-- The functions of the module. -/
inductive MarkupFunction where
  /-- For elements with at most one child. -/
  | single
  /-- For elements with several children. -/
  | several
  | fragment
  /-- For elements whose key stands behind properties taken from an object. -/
  | create
  deriving DecidableEq, Inhabited, Repr

/-- The name of a function in its module. -/
def MarkupFunction.name : MarkupFunction → String
  | single => "jsx"
  | several => "jsxs"
  | fragment => "Fragment"
  | create => "createElement"

/-- The functions as expressions. -/
structure MarkupCalls where
  /-- Whether children are arguments of their own. -/
  isClassic : Bool
  function : MarkupFunction → Node
  deriving Inhabited

/-! ## Text -/

/-- The lines of a text between elements. White space at their ends is left out, except at the start
and the end of the text, and so are empty lines. -/
def textLines (cs : List Char) : List (List Char) :=
  match splitLines cs with
  | [] => []
  | [only] => if only.isEmpty then [] else [only]
  | first :: rest =>
    let trimEnd (line : List Char) : List Char := (line.reverse.dropWhile isSpace).reverse
    let trimStart (line : List Char) : List Char := line.dropWhile isSpace
    let middle := rest.dropLast.map fun line => trimEnd (trimStart line)
    let last := (rest.getLast?.map trimStart).getD []
    (trimEnd first :: middle ++ [last]).filter (!·.isEmpty)
where
  /-- The text between line ends. -/
  splitLines : List Char → List (List Char)
    | [] => [[]]
    | c :: rest =>
      if isLineEnd c then [] :: splitLines rest
      else
        match splitLines rest with
        | line :: more => (c :: line) :: more
        | [] => [[c]]

/-- The text of a child, if anything is left of it. -/
def childText? (raw : String) : Option String :=
  match textLines raw.toList with
  | [] => none
  | lines => some (String.ofList (List.intercalate [' '] (lines.map decodeEntities)))

/-- The children of an element as expressions. -/
def childValues (children : List Node) : List Node :=
  children.filterMap fun
    | .text _ raw => (childText? raw).map plainString
    | .emptyBraces _ => none
    | n => some n

/-! ## Properties -/

/-- Whether a node is the key of an element. -/
def isElementKey : Node → Bool
  | .markupAttribute _ name _ => name == "key"
  | _ => false

/-- Whether a node takes properties from an object. -/
def isSpread : Node → Bool
  | .spread .. => true
  | _ => false

/-- The value of an attribute. -/
def attributeValue : Option Node → Node
  | none => .bool default true
  | some (.text _ raw) => plainString (String.ofList (decodeEntities raw.toList))
  | some n => n

/-- The key of a property that an attribute sets. -/
def attributeKey (name : String) : Node :=
  if name.contains '-' || name.contains ':' then plainString name else .nameKey default name

/-- Whether an object sets the object that it inherits from. -/
def setsProto (properties : List Node) : Bool :=
  properties.any fun
    | .property _ (.nameKey _ name) false _ => name == "__proto__"
    | .property _ (.string _ lit) false _ => lit.value == "__proto__"
    | _ => false

/-- The properties that attributes set. -/
def attributeProperties (attributes : List Node) : List Node :=
  attributes.flatMap fun
    | .markupAttribute _ name value =>
      [.property default (attributeKey name) false (attributeValue value)]
    | .spread span (.object ospan properties) =>
      if setsProto properties then [.spread span (.object ospan properties)] else properties
    | n => [n]

/-- Whether a key stands behind properties taken from an object. -/
def hasLateKey (attributes : List Node) : Bool :=
  (attributes.dropWhile (!isSpread ·)).any isElementKey

/-! ## Calls -/

/-- Several values as one. -/
def childrenProperty (values : List Node) : List Node :=
  let value? : Option Node := match values with
    | [] => none
    | [only] => some (if isSpread only then .array default [only] else only)
    | values => some (.array default values)
  value?.toList.map fun v => .property default (.nameKey default "children") false v

/-- Properties and children as arguments behind the tag. -/
def separateArguments (attributes children : List Node) : List Node :=
  let properties : Node := match attributes, attributeProperties attributes with
    | [.spread _ (.object ospan properties)], _ => .object ospan properties
    | [.spread _ value], _ => value
    | _, [] => .null default
    | _, properties => .object default properties
  properties :: childValues children

/-- The call that markup stands for. -/
def MarkupCalls.lower (calls : MarkupCalls) (n : Node) : Node :=
  match n with
  | .markup span tag attributes children =>
    let type := tag.getD (calls.function .fragment)
    if calls.isClassic then
      .call span (calls.function .create) (type :: separateArguments attributes children) false true
    else if hasLateKey attributes then
      .call span (calls.function .create) (type :: separateArguments attributes children) false true
    else
      let values := childValues children
      let keys := (attributes.filter isElementKey).getLast?.toList.map fun
        | .markupAttribute _ _ value => attributeValue value
        | n => n
      let properties := attributeProperties (attributes.filter (!isElementKey ·)) ++
        childrenProperty values
      let function := if 1 < values.length then MarkupFunction.several else .single
      .call span (calls.function function) ([type, .object default properties] ++ keys) false true
  | n => n

/-! ## Functions used -/

/-- The functions that an element needs itself. -/
def ownFunctions : Node → List MarkupFunction
  | .markup _ tag attributes children =>
    let fragment := if tag.isNone then [MarkupFunction.fragment] else []
    let callee := if hasLateKey attributes then MarkupFunction.create
      else if 1 < (childValues children).length then .several else .single
    fragment ++ [callee]
  | _ => []

/-- The functions that a node needs, those of the elements inside first. `fuel` bounds how deep it is
nested. -/
def usedFunctions : Nat → Node → List MarkupFunction
  | 0, _ => []
  | fuel + 1, n => n.children.flatMap (usedFunctions fuel) ++ ownFunctions n

/-- An expression of words with points between them. -/
def dottedName (name : String) : Node :=
  match (name.toList.splitOn '.').map String.ofList with
  | first :: rest => rest.foldl (fun base word => .member default base word false)
      (.ident default first)
  | [] => .ident default name

/-- The number that a name has behind this base, if it is made from it. -/
def suffixOf? (base name : String) : Option Nat :=
  let cs := name.toList
  if base.toList.isPrefixOf cs then
    match cs.drop base.length with
    | [] => some 1
    | ds => if ds.all Char.isDigit then (String.ofList ds).toNat? else none
  else none

/-- A name for an import that no variable of the program has: the next number behind those in use. -/
def freshBinding (taken : List String) (base : String) : String :=
  let base := "_" ++ base
  match (taken.filterMap (suffixOf? base)).max? with
  | none => base
  | some n => base ++ toString (n + 1)

/-- A module name as a word. -/
def wordOfModule (source : String) : String :=
  String.ofList (go false source.toList)
where
  /-- Characters of words; the first one behind others is upper case. -/
  go : Bool → List Char → List Char
    | _, [] => []
    | upper, c :: rest =>
      if continuesWord c then (if upper then c.toUpper else c) :: go false rest
      else go true rest

/-- The functions that a program calls, and the statements that provide them. -/
structure MarkupPlan where
  calls : MarkupCalls
  provided : List Node
  deriving Inhabited

/-- The module that a function comes from. -/
def MarkupFunction.moduleOf (source : String) : MarkupFunction → String
  | create => source
  | _ => source ++ "/jsx-runtime"

/-- How a program provides the functions that its markup calls. -/
def MarkupRuntime.plan (runtime : MarkupRuntime) (isModule : Bool) (p : Program) : MarkupPlan :=
  match runtime with
  | classic element fragment =>
    { calls :=
        { isClassic := true
          function := fun f => dottedName (if f == .fragment then fragment else element) }
      provided := [] }
  | automatic source =>
    let used := (p.body.flatMap (usedFunctions p.depth)).eraseDups
    let sources := (used.map (·.moduleOf source)).eraseDups
    let taken := p.identifiers
    let binding (f : MarkupFunction) : String := freshBinding taken f.name
    let whole (module : String) : String := freshBinding taken (wordOfModule module)
    if isModule then
      { calls :=
          { isClassic := false
            function := fun f => .ident default (binding f) }
        provided := sources.map fun module =>
          .importModule default
            { specifiers := some ((used.filter (·.moduleOf source == module)).map fun f =>
                .named (.word f.name) (binding f))
              source := { value := module, raw := module } } }
    else
      { calls :=
          { isClassic := false
            function := fun f =>
              .member default (.ident default (whole (f.moduleOf source))) f.name false }
        provided := sources.map fun module =>
          .var default .varDecl [.declarator default (.binding default (whole module))
            (some (.call default (.ident default "require") [plainString module] false false))] }

end ModuleBuild.Script
