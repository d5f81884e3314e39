import ModuleBuild.Script.Parse.Functions

/-!
# Reading imports and exports

## Main definitions

* `importDeclaration` — imports.
* `exportList`, `exportAll`, `exportDefault` — exports other than of declarations.
-/

namespace ModuleBuild.Script

/-- A name in module syntax. -/
def moduleName : Parse ModuleName := do
  match (← token).kind with
  | .string lit =>
    advance
    return .string lit
  | _ =>
    let (_, text) ← anyWord
    return .word text

/-- The conditions on a module, behind its name. -/
def importAttributes : Parse (List ImportAttribute) := do
  let opens := (← seesWord "with") || ((← seesWord "assert") && !(← afterNewline))
  if opens && (← nextIs (sees "\x7b")) then
    advance
    expect "\x7b"
    commaList "\x7d" do
      let key ← moduleName
      expect ":"
      let (_, value) ← stringLit
      return { key, value }
  else return []

/-- A module that is named behind `from`, with conditions. -/
def fromClause : Parse (StringLit × List ImportAttribute) := do
  expectWord "from"
  let (_, source) ← stringLit
  let attributes ← importAttributes
  return (source, attributes)

/-- A specifier: the name in the module, the name behind `as`, and whether it is only a type. -/
structure Specifier where
  name : ModuleName
  otherName : Option ModuleName
  isType : Bool
  deriving Inhabited

/-- A specifier. The word `type` before it makes it a type, unless it is a name itself. -/
def specifier : Parse Specifier := do
  let isType ← nextIs do
    if (← sees ",") || (← sees "\x7d") then return false
    else if ← seesWord "as" then
      nextIs do
        if (← sees ",") || (← sees "\x7d") then return true
        else if ← seesWord "as" then nextIs do return !((← sees ",") || (← sees "\x7d"))
        else return false
    else return true
  let isType := (← get).dialect.hasTypes && (← seesWord "type") && isType
  if isType then advance
  let name ← moduleName
  let otherName ← if ← acceptWord "as" then some <$> moduleName else pure none
  return { name, otherName, isType }

/-- The binding of a specifier, which has to be an identifier. -/
def localOf (name : ModuleName) : Parse String := do
  match name with
  | .word text =>
    require (isIdentifier (← get) text)
    return text
  | .string _ => failure

/-- The names of an import list, behind its brace. -/
def importList : Parse (List (ImportSpecifier × Bool)) :=
  commaList "\x7d" do
    let s ← specifier
    let localName ← localOf (s.otherName.getD s.name)
    return (.named s.name localName, s.isType)

/-- A whole module as one name, from the asterisk on. -/
def wholeModuleImport : Parse ImportSpecifier := do
  expect "*"
  expectWord "as"
  let (_, name) ← identifier
  return .wholeModule name

/-- Whether the word `type` at hand makes an import one of types. -/
def importsTypes : Parse Bool := do
  if (← get).dialect.hasTypes && (← seesWord "type") then
    nextIs do
      if (← sees "\x7b") || (← sees "*") then return true
      else if ← seesWord "from" then nextIs (seesWord "from")
      else seesIdentifier
  else return false

/-- An import declaration. Types are left out; an import of nothing else is erased. -/
def importDeclaration : Parse Node := do
  let start ← place
  expectWord "import"
  match (← token).kind with
  | .string source =>
    advance
    let attributes ← importAttributes
    semicolon
    return .importModule (← spanFrom start) { specifiers := none, source, attributes }
  | _ =>
    let isType ← importsTypes
    if isType then advance
    let byDefault ← if ← seesIdentifier then
        (fun n => [(ImportSpecifier.byDefault n.2, false)]) <$> identifier
      else pure []
    let more ← if byDefault.isEmpty then pure true else accept ","
    let others ←
      if !more then pure []
      else if ← sees "*" then (fun s => [(s, false)]) <$> wholeModuleImport
      else
        expect "\x7b"
        importList
    let (source, attributes) ← fromClause
    semicolon
    let all := byDefault ++ others
    let specifiers := (all.filter (!·.2)).map (·.1)
    let span ← spanFrom start
    if isType || (specifiers.isEmpty && !all.isEmpty) then return .erased span true none
    else return .importModule span { specifiers := some specifiers, source, attributes }

/-- An export list, from its brace on. -/
def exportList (start : Nat) (isType : Bool) : Parse Node := do
  expect "\x7b"
  let all ← commaList "\x7d" specifier
  let (source, attributes) ← if ← seesWord "from" then
      (fun (s, a) => (some s, a)) <$> fromClause
    else pure (none, [])
  if source.isNone then all.forM fun s => discard (localOf s.name)
  semicolon
  let kept := all.filter (!·.isType)
  let span ← spanFrom start
  if isType || (kept.isEmpty && !all.isEmpty) then return .erased span true none
  else
    let specifiers := kept.map fun s =>
      ({ localName := s.name, exported := s.otherName.getD s.name } : ExportSpecifier)
    return .exportList span specifiers source attributes

/-- An export of a whole module, from the asterisk on. -/
def exportAll (start : Nat) (isType : Bool) : Parse Node := do
  expect "*"
  let exported ← if ← acceptWord "as" then some <$> moduleName else pure none
  let (source, attributes) ← fromClause
  semicolon
  let span ← spanFrom start
  return if isType then .erased span true none else .exportAll span exported source attributes

end ModuleBuild.Script
