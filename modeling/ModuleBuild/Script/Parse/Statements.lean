import ModuleBuild.Script.Enumeration
import ModuleBuild.Script.Parse.Expressions
import ModuleBuild.Script.Parse.Modules

/-!
# Reading statements

## Main definitions

* `statementRule` — statements, imports and exports.
* `variableDeclaration` — declarations of variables.
* `typedStatement?` — statements that declare types.
-/

namespace ModuleBuild.Script

/-! ## Variables -/

/-- Whether a pattern is a plain name. -/
def isPlainName : Node → Bool
  | .binding .. => true
  | _ => false

/-- A variable with its value, which constants and patterns need unless the declaration is the head
of a loop or says nothing but types. -/
def declarator (rules : Rules) (kind : VarKind) (needsValue : Bool) : Parse Node := do
  let start ← place
  let pattern ← rules .binding
  if (← get).dialect.hasTypes then
    let _ ← accept "!"
  typeAnnotation rules
  let value ← if ← accept "=" then some <$> rules .assignment else pure none
  require (!needsValue || value.isSome || (kind != .constDecl && isPlainName pattern))
  return .declarator (← spanFrom start) pattern value

/-- Variables between commas. -/
def declarators (rules : Rules) (kind : VarKind) (needsValue : Bool) : Parse (List Node) := do
  let first ← declarator rules kind needsValue
  loop [first] fun items => do
    if ← accept "," then return .inl ((← declarator rules kind needsValue) :: items)
    else return .inr items.reverse

/-- Whether what is at hand may be declared. -/
def seesBinding : Parse Bool := do
  return (← seesIdentifier) || (← sees "[") || (← sees "\x7b")

/-- The kind of declaration that is at hand, and the number of its words. -/
def declarationKind? : Parse (Option (VarKind × Nat)) := do
  let bindsNext ← nextIs seesBinding
  let namesNext ← nextIs do
    return (← seesIdentifier) && !(← afterNewline) && !(← seesWord "of")
  let usesNext ← nextIs do
    let names ← nextIs do return (← seesIdentifier) && !(← afterNewline)
    return (← seesWord "using") && !(← afterNewline) && names
  if ← seesWord "var" then return some (.varDecl, 1)
  else if ← seesWord "const" then return some (.constDecl, 1)
  else if (← seesWord "let") && bindsNext then return some (.letDecl, 1)
  else if (← seesWord "using") && namesNext then return some (.usingDecl, 1)
  else if (← seesWord "await") && usesNext then return some (.awaitUsingDecl, 2)
  else return none

/-- Passes over so many tokens. -/
def advanceMany : Nat → Parse Unit
  | 0 => pure ()
  | n + 1 => do
    advance
    advanceMany n

/-- A declaration of variables, with the end of the statement. -/
def variableDeclaration (rules : Rules) (kind : VarKind) (words : Nat) (needsValue : Bool) :
    Parse Node := do
  let start ← place
  advanceMany words
  let items ← inScope ({ · with allowsIn := true }) (declarators rules kind needsValue)
  semicolon
  return .var (← spanFrom start) kind items

/-! ## Loops and branches -/

/-- An expression in parentheses. -/
def condition (rules : Rules) : Parse Node := do
  expect "("
  let value ← inScope ({ · with allowsIn := true }) (rules .expression)
  expect ")"
  return value

/-- Whether a statement may be the body of another one without braces. -/
def mayStandAlone : Node → Bool
  | .var _ kind _ => kind == .varDecl
  | .decl (.func _ shape ..) => !shape.isAsync && !shape.isGenerator
  | .decl _ => false
  | _ => true

/-- The body of a branch or loop. -/
def subStatement (rules : Rules) : Parse Node := do
  let s ← rules .statement
  require (mayStandAlone s)
  return s

/-- A branch. -/
def ifStatement (rules : Rules) (start : Nat) : Parse Node := do
  expectWord "if"
  let test ← condition rules
  let yes ← subStatement rules
  let no ← if ← acceptWord "else" then some <$> subStatement rules else pure none
  return .ite (← spanFrom start) test yes no

/-- The test and the update of a loop, behind its first part. -/
def forLoopRest (rules : Rules) (start : Nat) (head : Option Node) : Parse Node := do
  expect ";"
  let test ← if ← sees ";" then pure none else some <$> rules .expression
  expect ";"
  let step ← if ← sees ")" then pure none else some <$> rules .expression
  expect ")"
  let inner ← subStatement rules
  return .forLoop (← spanFrom start) head test step inner

/-- A loop over values or keys, behind its head. -/
def forEach (rules : Rules) (start : Nat) (isAwait : Bool) (head : Node) : Parse Node := do
  if ← acceptWord "of" then
    let values ← rules .assignment
    expect ")"
    let inner ← subStatement rules
    return .forOf (← spanFrom start) isAwait head values inner
  else
    require (!isAwait)
    expectWord "in"
    let object ← rules .expression
    expect ")"
    let inner ← subStatement rules
    return .forIn (← spanFrom start) head object inner

/-- Whether the variables of a declaration fit the head of a loop over values. -/
def fitsForEach : List Node → Bool
  | [.declarator _ pattern value] => value.isNone || isPlainName pattern
  | _ => false

/-- A loop. -/
def forStatement (rules : Rules) (start : Nat) : Parse Node := do
  expectWord "for"
  let isAwait ← acceptWord "await"
  expect "("
  let headStart ← place
  if ← sees ";" then
    require (!isAwait)
    forLoopRest rules start none
  else
    match ← declarationKind? with
    | some (kind, words) =>
      advanceMany words
      let items ← inScope ({ · with allowsIn := false }) (declarators rules kind false)
      let head := Node.var (← spanFrom headStart) kind items
      if (← seesWord "of") || (← seesWord "in") then
        require (fitsForEach items)
        forEach rules start isAwait head
      else
        require (!isAwait && items.all fun
          | .declarator _ pattern value =>
            value.isSome || (kind != .constDecl && isPlainName pattern)
          | _ => true)
        forLoopRest rules start (some head)
    | none =>
      let asyncOf := (← seesWord "async") && (← nextIs (seesWord "of"))
      let value ← inScope ({ · with allowsIn := false }) (rules .expression)
      if (← seesWord "of") || (← seesWord "in") then
        require (isAwait || !asyncOf)
        let some target := toTarget ((← get).size + 1) value | failure
        forEach rules start isAwait target
      else
        require (!isAwait)
        forLoopRest rules start (some value)

/-- A loop with its test at the end. -/
def doStatement (rules : Rules) (start : Nat) : Parse Node := do
  expectWord "do"
  let inner ← subStatement rules
  expectWord "while"
  let test ← condition rules
  let _ ← accept ";"
  return .doWhile (← spanFrom start) inner test

/-- The cases of a `switch`, behind its brace. -/
def switchCases (rules : Rules) : Parse (List Node) :=
  manyUntil (accept "\x7d") do
    let start ← place
    let test ← if ← acceptWord "default" then pure none
      else
        expectWord "case"
        some <$> rules .expression
    expect ":"
    let statements ← manyUntil
      (do return (← sees "\x7d") || (← seesWord "case") || (← seesWord "default"))
      (rules .statement)
    return .case (← spanFrom start) test statements

/-- A choice between cases. -/
def switchStatement (rules : Rules) (start : Nat) : Parse Node := do
  expectWord "switch"
  let value ← condition rules
  expect "\x7b"
  let cases ← switchCases rules
  return .switch (← spanFrom start) value cases

/-- Statements between braces. -/
def blockStatement (rules : Rules) : Parse Node := do
  let start ← place
  expect "\x7b"
  let statements ← manyUntil (accept "\x7d") (rules .statement)
  return .block (← spanFrom start) statements

/-- Statements with handlers of their errors. -/
def tryStatement (rules : Rules) (start : Nat) : Parse Node := do
  expectWord "try"
  let guarded ← blockStatement rules
  let (parameter, handler) ← if ← acceptWord "catch" then
      let parameter ← if ← accept "(" then
          let pattern ← rules .binding
          typeAnnotation rules
          expect ")"
          pure (some pattern)
        else pure none
      let handler ← blockStatement rules
      pure (parameter, some handler)
    else pure (none, none)
  let finalizer ← if ← acceptWord "finally" then some <$> blockStatement rules else pure none
  require (handler.isSome || finalizer.isSome)
  return .tryBlock (← spanFrom start) guarded parameter handler finalizer

/-- The label behind a word that leaves a loop, if there is one. -/
def jumpLabel : Parse (Option String) := do
  if (← seesIdentifier) && !(← afterNewline) then
    (fun n => some n.2) <$> identifier
  else return none

/-! ## Declarations -/

/-- The declaration of a function, from its keyword or `async` on. Without a body it is erased. -/
def functionDeclaration (rules : Rules) (needsName : Bool) : Parse Node := do
  let start ← place
  let isAsync ← acceptWord "async"
  let f ← functionFrom rules start isAsync true
  match f with
  | .func span _ name _ _ =>
    require (!needsName || name.isSome)
    return if isBodiless f then .erased span false none else .decl f
  | _ => failure

/-- Whether a function declaration is at hand. -/
def seesFunction : Parse Bool := do
  if ← seesWord "function" then return true
  else
    let follows ← nextIs do return (← seesWord "function") && !(← afterNewline)
    return (← seesWord "async") && follows

/-- The members of an enumeration, behind its brace. -/
def enumMembers (rules : Rules) : Parse (List EnumMember) :=
  commaList "\x7d" do
    let name ← match (← token).kind with
      | .string lit =>
        advance
        pure lit.value
      | _ => (·.2) <$> anyWord
    let value ← if ← accept "=" then some <$> rules .assignment else pure none
    return { name, value }

/-- An enumeration, which stands for a variable. -/
def enumDeclaration (rules : Rules) (start : Nat) (isExported : Bool) : Parse Node := do
  let _ ← acceptWord "const"
  expectWord "enum"
  let (_, name) ← identifier
  expect "\x7b"
  let members ← enumMembers rules
  let value := enumObject name members (← get).size isExported
  let kind := if isExported then VarKind.letDecl else .varDecl
  return .var (← spanFrom start) kind
    [.declarator default (.binding default name) (some value)]

/-- Passes over everything between braces. -/
def skipBraces : Parse Unit := do
  expect "\x7b"
  loop (1 : Nat) fun depth => do
    let opens ← sees "\x7b"
    let closes ← sees "\x7d"
    require ((← token).kind != .eof)
    advance
    let depth := if opens then depth + 1 else if closes then depth - 1 else depth
    if depth == 0 then return .inr ()
    else return .inl depth

/-- Whether the word at hand stands before a name on the same line. -/
def wordBeforeName (word : String) : Parse Bool := do
  let names ← nextIs do return (← seesIdentifier) && !(← afterNewline)
  return (← seesWord word) && names

/-- The body of an interface, from its keyword on. -/
def interfaceDeclaration (rules : Rules) : Parse String := do
  expectWord "interface"
  let (_, name) ← identifier
  optionalTypeParameters rules
  if ← acceptWord "extends" then
    loop () fun _ => do
      rules .postfixType
      if ← accept "," then return .inl ()
      else return .inr ()
  expect "\x7b"
  objectTypeMembers rules
  return name

/-- A name for a type, from its keyword on. -/
def typeAlias (rules : Rules) : Parse String := do
  expectWord "type"
  let (_, name) ← identifier
  optionalTypeParameters rules
  expect "="
  rules .type
  semicolon
  return name

/-- What `declare` stands before. -/
def ambientDeclaration (rules : Rules) : Parse Unit := do
  if ← acceptWord "global" then skipBraces
  else if (← seesWord "namespace") || (← seesWord "module") then
    advance
    match (← token).kind with
    | .string _ => advance
    | _ =>
      let _ ← anyWord
      let _ ← manyUntil (do return !(← accept ".")) anyWord
    if ← sees "\x7b" then skipBraces else semicolon
  else if (← seesWord "enum") || (← nextIs (seesWord "enum")) then
    let _ ← enumDeclaration rules (← place) false
  else if ← seesWord "interface" then
    let _ ← interfaceDeclaration rules
  else if ← seesWord "type" then
    let _ ← typeAlias rules
  else if ← seesFunction then
    let _ ← functionDeclaration rules true
  else if (← seesWord "class") || (← seesWord "abstract") then
    let _ ← acceptWord "abstract"
    let _ ← rules (.classRest (← place) [])
  else
    match ← declarationKind? with
    | some (kind, words) =>
      let _ ← variableDeclaration rules kind words false
    | none => failure

/-- A statement that only declares types, or an enumeration; none if something else is at hand. -/
def typedStatement? (rules : Rules) (isExported : Bool) : Parse (Option Node) := do
  let start ← place
  let erase (name : Option String) : Parse (Option Node) := do
    return some (.erased (← spanFrom start) isExported name)
  if !(← get).dialect.hasTypes then return none
  else if ← wordBeforeName "interface" then
    erase (some (← interfaceDeclaration rules))
  else if ← wordBeforeName "type" then
    erase (some (← typeAlias rules))
  else if (← seesWord "declare") && (← nextIs do
      return (← token).kind matches .word .. && !(← afterNewline)) then
    advance
    ambientDeclaration rules
    erase none
  else if (← seesWord "abstract") && (← nextIs do
      return (← seesWord "class") && !(← afterNewline)) then
    advance
    let c ← rules (.classRest start [])
    return some (.decl c)
  else if (← seesWord "enum") || ((← seesWord "const") && (← nextIs (seesWord "enum"))) then
    some <$> enumDeclaration rules start isExported
  else return none

/-! ## Exports of declarations -/

/-- The default export, behind its keyword. -/
def exportDefault (rules : Rules) (start : Nat) : Parse Node := do
  let declaration ← match ← typedDefault with
    | some d => pure d
    | none =>
      if ← seesFunction then functionDeclaration rules false
      else if (← seesWord "class") || (← sees "@") then
        let declStart ← place
        let decorators ← decorators rules
        .decl <$> rules (.classRest declStart decorators)
      else
        let value ← inScope ({ · with allowsIn := true }) (rules .assignment)
        semicolon
        pure value
  match declaration with
  | .erased .. => return .erased (← spanFrom start) true none
  | d => return .exportDefault (← spanFrom start) d
where
  /-- An interface or an abstract class. -/
  typedDefault : Parse (Option Node) := do
    let isTyped := (← wordBeforeName "interface") ||
      ((← seesWord "abstract") && (← nextIs (seesWord "class")))
    if isTyped then typedStatement? rules true else return none

/-- A declaration of a variable, function or class; none if something else is at hand. -/
def declaration? (rules : Rules) (decorators : List Node) : Parse (Option Node) := do
  let start ← place
  if ← seesFunction then some <$> functionDeclaration rules true
  else if (← seesWord "class") || (← sees "@") then
    let more ← Script.decorators rules
    let start := (decorators.head?.map (·.span.start - 1)).getD start
    let c ← rules (.classRest start (decorators ++ more))
    return some (.decl c)
  else
    match ← declarationKind? with
    | some (kind, words) => some <$> variableDeclaration rules kind words true
    | none => return none

/-- An export. -/
def exportStatement (rules : Rules) (decorators : List Node) : Parse Node := do
  let start ← place
  expectWord "export"
  let hasTypes := (← get).dialect.hasTypes
  let opensTypes ← nextIs do return (← sees "\x7b") || (← sees "*")
  if ← sees "*" then exportAll start false
  else if ← sees "\x7b" then exportList start false
  else if ← acceptWord "default" then exportDefault rules start
  else if hasTypes && (← seesWord "type") && opensTypes then
    advance
    if ← sees "*" then exportAll start true else exportList start true
  else
    let exported (d : Node) : Parse Node := do
      match d with
      | .erased _ _ name => return .erased (← spanFrom start) true name
      | d => return .exportDecl (← spanFrom start) d
    match ← typedStatement? rules true with
    | some d => exported d
    | none =>
      match ← declaration? rules decorators with
      | some d => exported d
      | none => failure

/-! ## Statements -/

/-- An expression as a statement, or a statement with a label. -/
def expressionStatement (rules : Rules) (start : Nat) : Parse Node := do
  let labels ← nextIs (sees ":")
  if (← seesIdentifier) && labels then
    let (_, label) ← identifier
    expect ":"
    let inner ← subStatement rules
    return .labeled (← spanFrom start) label inner
  else
    let value ← rules .expression
    semicolon
    return .expr (← spanFrom start) value

/-- A statement that starts with a word of its own; none if something else is at hand. -/
def wordStatement? (rules : Rules) (start : Nat) (word : String) : Parse (Option Node) := do
  match word with
  | "if" => some <$> ifStatement rules start
  | "for" => some <$> forStatement rules start
  | "while" =>
    advance
    let test ← condition rules
    let inner ← subStatement rules
    return some (.whileLoop (← spanFrom start) test inner)
  | "do" => some <$> doStatement rules start
  | "switch" => some <$> switchStatement rules start
  | "try" => some <$> tryStatement rules start
  | "throw" =>
    advance
    require (!(← afterNewline))
    let value ← rules .expression
    semicolon
    return some (.throw (← spanFrom start) value)
  | "return" =>
    require (← get).scope.inFunction
    advance
    let value ← if (← endsStatement) || (← sees ";") then pure none
      else some <$> rules .expression
    semicolon
    return some (.ret (← spanFrom start) value)
  | "break" =>
    advance
    let label ← jumpLabel
    semicolon
    return some (.breakTo (← spanFrom start) label)
  | "continue" =>
    advance
    let label ← jumpLabel
    semicolon
    return some (.continueTo (← spanFrom start) label)
  | "debugger" =>
    advance
    semicolon
    return some (.debugger (← spanFrom start))
  | "with" =>
    advance
    let object ← condition rules
    let inner ← subStatement rules
    return some (.withBlock (← spanFrom start) object inner)
  | "import" =>
    if ← nextIs do return (← sees "(") || (← sees ".") then return none
    else some <$> importDeclaration
  | "export" => some <$> exportStatement rules []
  | _ => return none

/-- A statement. -/
def statementRule (rules : Rules) : Parse Node :=
  inScope ({ · with allowsIn := true, inCondition := false }) do
    let t ← token
    match t.kind with
    | .punct "\x7b" => blockStatement rules
    | .punct ";" =>
      advance
      return .empty ⟨t.start, t.stop⟩
    | .punct "@" =>
      let decorators ← decorators rules
      if ← seesWord "export" then exportStatement rules decorators
      else
        let c ← rules (.classRest t.start decorators)
        return .decl c
    | .word word false =>
      match ← typedStatement? rules false with
      | some s => return s
      | none =>
        match ← declaration? rules [] with
        | some s => return s
        | none =>
          match ← wordStatement? rules t.start word with
          | some s => return s
          | none => expressionStatement rules t.start
    | _ => expressionStatement rules t.start

end ModuleBuild.Script
