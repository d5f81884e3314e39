import ModuleBuild.Script.Parse.Types

/-!
# Reading functions, classes and objects

## Main definitions

* `bindingRule`, `bindingElement` — what declarations bind.
* `parameterList`, `functionBody`, `functionRestRule` — functions.
* `classRule` — classes.
* `objectLiteral` — objects.
-/

namespace ModuleBuild.Script

/-! ## Keys -/

/-- The key of a property. -/
def propertyKey (rules : Rules) : Parse Node := do
  let t ← token
  let span : Span := ⟨t.start, t.stop⟩
  match t.kind with
  | .word text _ =>
    advance
    return .nameKey span text
  | .string lit =>
    advance
    return .string span lit
  | .number raw =>
    advance
    return .number span raw
  | .bigint raw =>
    advance
    return .bigint span raw
  | .privateName text =>
    advance
    return .privateName span text
  | .punct "[" =>
    advance
    let value ← inScope ({ · with allowsIn := true }) (rules .assignment)
    expect "]"
    return .computedKey (← spanFrom t.start) value
  | _ => failure

/-- Whether a key is at hand. -/
def seesKey : Parse Bool := do
  match (← token).kind with
  | .word .. | .string _ | .number _ | .bigint _ | .privateName _ => return true
  | .punct "[" => return true
  | _ => return false

/-! ## Patterns -/

/-- A pattern with a default, if one follows. -/
def withDefault (rules : Rules) (pattern : Node) : Parse Node := do
  if ← accept "=" then
    let value ← inScope ({ · with allowsIn := true }) (rules .assignment)
    return .withDefault ⟨pattern.span.start, value.span.stop⟩ pattern value
  else return pattern

/-- A pattern and its default. -/
def bindingElement (rules : Rules) : Parse Node := do
  withDefault rules (← rules .binding)

/-- The rest of an array pattern, behind its bracket. -/
def arrayPatternItems (rules : Rules) : Parse (List Node) :=
  loop [] fun items => do
    if ← accept "]" then return .inr items.reverse
    else if ← sees "," then
      let t ← token
      advance
      return .inl (.hole ⟨t.start, t.start⟩ :: items)
    else if ← sees "..." then
      let start ← place
      advance
      let inner ← rules .binding
      let item := Node.rest (← spanFrom start) inner
      expect "]"
      return .inr (item :: items).reverse
    else
      let item ← bindingElement rules
      if ← accept "," then return .inl (item :: items)
      else
        expect "]"
        return .inr (item :: items).reverse

/-- A property of an object pattern. -/
def patternProperty (rules : Rules) : Parse Node := do
  let start ← place
  if ← accept "..." then
    let inner ← rules .binding
    require (← sees "\x7d")
    return .rest (← spanFrom start) inner
  else
    let isName ← seesIdentifier
    let key ← propertyKey rules
    if ← accept ":" then
      let value ← bindingElement rules
      return .property (← spanFrom start) key false value
    else
      match key with
      | .nameKey span text =>
        require isName
        let value ← withDefault rules (.binding span text)
        return .property (← spanFrom start) key true value
      | _ => failure

/-- What a declaration binds: a name or a pattern. -/
def bindingRule (rules : Rules) : Parse Node := do
  let start ← place
  if ← accept "[" then
    let items ← arrayPatternItems rules
    return .arrayPattern (← spanFrom start) items
  else if ← accept "\x7b" then
    let properties ← commaList "\x7d" (patternProperty rules)
    return .objectPattern (← spanFrom start) properties
  else
    let (span, name) ← identifier
    return .binding span name

/-! ## Functions -/

/-- The words that turn a parameter into a property, or say more about a member. -/
def memberModifiers : List String :=
  ["public", "private", "protected", "readonly", "override", "abstract", "declare", "static",
    "accessor"]

/-- The modifiers of a parameter; it is a property if there is one. -/
def parameterModifiers : Parse Bool := do
  if !(← get).dialect.hasTypes then return false
  else
    let words ← manyUntil
      (do
        match (← token).kind with
        | .word w false =>
          if memberModifiers.contains w then
            return !(← nextIs do
              return (← seesIdentifier) || (← sees "\x7b") || (← sees "["))
          else return true
        | _ => return true)
      anyWord
    return !words.isEmpty

/-- A decorator. -/
def decorator (rules : Rules) : Parse Node := do
  expect "@"
  rules (.access false)

/-- Decorators. -/
def decorators (rules : Rules) : Parse (List Node) :=
  manyUntil (do return !(← sees "@")) (decorator rules)

/-- A parameter; one that is a property of the object too is a property of its name. A `this` with a
type is none. -/
def parameter (rules : Rules) : Parse (Option Node) := do
  let _ ← decorators rules
  let start ← place
  let hasTypes := (← get).dialect.hasTypes
  if hasTypes && (← seesWord "this") then
    advance
    typeAnnotation rules
    return none
  else if ← accept "..." then
    let inner ← rules .binding
    typeAnnotation rules
    require (← sees ")")
    return some (.rest (← spanFrom start) inner)
  else
    let isProperty ← parameterModifiers
    let pattern ← rules .binding
    if hasTypes then
      let _ ← accept "?"
    typeAnnotation rules
    let value ← withDefault rules pattern
    if isProperty then
      match pattern with
      | .binding span name => return some (.property span (.nameKey span name) true value)
      | _ => failure
    else return some value

/-- Parameters, from the parenthesis on. -/
def parameterList (rules : Rules) : Parse (List Node) := do
  expect "("
  let parameters ← commaList ")" (parameter rules)
  return parameters.filterMap id

/-- Whether a parameter is a property of the object too. -/
def isParameterProperty : Node → Bool
  | .property .. => true
  | _ => false

/-- Statements up to a closing brace or the end. Strings at the start are directives. -/
def statementList (rules : Rules) : Parse (List Node) :=
  loop (true, []) fun (atStart, items) => do
    let t ← token
    if t.kind == .eof || t.kind == .punct "\x7d" then return .inr items.reverse
    else
      let s ← rules .statement
      match atStart, t.kind, s with
      | true, .string lit, .expr span (.string _ _) =>
        return .inl (true, .directive span lit.raw :: items)
      | _, _, s => return .inl (false, s :: items)

/-- The body of a function. -/
def functionBody (rules : Rules) : Parse Node := do
  let start ← place
  expect "\x7b"
  let statements ← statementList rules
  expect "\x7d"
  return .body (← spanFrom start) statements

/-- The rules of a place inside of a function. -/
def Scope.forFunction (shape : FuncShape) (_ : Scope) : Scope where
  isAsync := shape.isAsync
  isGenerator := shape.isGenerator
  inFunction := true

/-- A function behind its name. Without a body it is erased. -/
def functionRestRule (rules : Rules) (start : Nat) (shape : FuncShape) (name : Option String) :
    Parse Node :=
  inScope (Scope.forFunction shape) do
    optionalTypeParameters rules
    let parameters ← parameterList rules
    let _ ← returnType rules
    if (← sees "\x7b") || !(← get).dialect.hasTypes then
      let body ← functionBody rules
      return .func (← spanFrom start) shape name parameters body
    else
      semicolon
      return .func (← spanFrom start) shape name parameters (.erased (← spanFrom start) false none)

/-- Whether a function has no body. -/
def isBodiless : Node → Bool
  | .func _ _ _ _ (.erased ..) => true
  | .method _ _ _ _ _ (.func _ _ _ _ (.erased ..)) => true
  | _ => false

/-- A function, from its keyword on; `async` stands before it if `isAsync`. -/
def functionFrom (rules : Rules) (start : Nat) (isAsync isDeclaration : Bool) : Parse Node := do
  expectWord "function"
  let isGenerator ← accept "*"
  let shape : FuncShape := { isAsync, isGenerator }
  let name ← if isDeclaration then optionalName
    else inScope ({ · with isAsync, isGenerator }) optionalName
  rules (.functionRest start shape name)
where
  /-- The name, if there is one. -/
  optionalName : Parse (Option String) := do
    if ← seesIdentifier then
      let (_, name) ← identifier
      return some name
    else return none

/-! ## Objects -/

/-- Whether what is at hand ends the name of a member, so that a word before it is that name. -/
def endsMemberName : Parse Bool := do
  return (← sees "(") || (← sees ",") || (← sees "\x7d") || (← sees ":") || (← sees "=") ||
    (← sees ";") || (← sees "<") || (← sees "?") || (← sees "!") || (← token).kind == .eof

/-- A word that says more about the member behind it. -/
def memberWord (word : String) (sameLine : Bool) : Parse Bool := do
  if ← seesWord word then
    let ends ← nextIs do return (← endsMemberName) || (sameLine && (← afterNewline))
    if ends then return false
    else
      advance
      return true
  else return false

/-- Whether an accessor has as many parameters as it has to. -/
def hasAccessorArity (kind : MethodKind) : Node → Bool
  | .func _ _ _ parameters _ =>
    match kind, parameters with
    | .getter, ps => ps.isEmpty
    | .setter, [.rest ..] => false
    | .setter, ps => ps.length == 1
    | _, _ => true
  | _ => true

/-- A property of an object. -/
def objectProperty (rules : Rules) : Parse Node := do
  let start ← place
  if ← accept "..." then
    let value ← rules .assignment
    return .spread (← spanFrom start) value
  else
    let method (kind : MethodKind) (shape : FuncShape) (key : Node) : Parse Node := do
      let f ← rules (.functionRest (← place) shape none)
      require (hasAccessorArity kind f && !isBodiless f)
      return .method (← spanFrom start) [] false kind key f
    if ← memberWord "get" false then
      method .getter {} (← propertyKey rules)
    else if ← memberWord "set" false then
      method .setter {} (← propertyKey rules)
    else
      let isAsync ← memberWord "async" true
      let isGenerator ← accept "*"
      let isName ← seesIdentifier
      let key ← propertyKey rules
      let shape : FuncShape := { isAsync, isGenerator }
      if isAsync || isGenerator || (← sees "(") ||
          ((← sees "<") && (← get).dialect.hasTypes) then
        method .method shape key
      else if ← accept ":" then
        let value ← rules .assignment
        return .property (← spanFrom start) key false value
      else
        match key with
        | .nameKey span text =>
          require isName
          if ← accept "=" then
            let value ← rules .assignment
            return .cover (← spanFrom start) text value
          else return .property span key true (.ident span text)
        | _ => failure

/-- An object. -/
def objectLiteral (rules : Rules) : Parse Node := do
  let start ← place
  expect "\x7b"
  let properties ← inScope ({ · with allowsIn := true, inCondition := false })
    (commaList "\x7d" (objectProperty rules))
  return .object (← spanFrom start) properties

/-! ## Classes -/

/-- The assignment of a parameter to the property of its name. -/
def parameterAssignment (name : String) : Node :=
  .expr default (.assign default "=" (.member default (.this default) name false)
    (.ident default name))

/-- Whether a statement calls the constructor of the class extended. -/
def isSuperCall : Node → Bool
  | .expr _ (.call _ (.super _) _ _ _) => true
  | _ => false

/-- Whether a node is a directive. -/
def isDirective : Node → Bool
  | .directive .. => true
  | _ => false

/-- A constructor in which parameters that are properties are assigned: behind the call of the
constructor of the class extended, or else at the start. -/
def assignParameters (f : Node) : Node :=
  match f with
  | .func span shape name parameters (.body bodySpan statements) =>
    let assignments := parameters.filterMap fun
      | .property _ (.nameKey _ text) _ _ => some (parameterAssignment text)
      | _ => none
    let parameters := parameters.map fun
      | .property _ _ _ value => value
      | p => p
    let lead :=
      if statements.any isSuperCall then
        statements.takeWhile (!isSuperCall ·) ++ (statements.find? isSuperCall).toList
      else statements.takeWhile isDirective
    .func span shape name parameters
      (.body bodySpan (lead ++ assignments ++ statements.drop lead.length))
  | f => f

/-- Whether a key is the plain name of the constructor. -/
def isConstructorKey : Node → Bool
  | .nameKey _ text => text == "constructor"
  | .string _ lit => lit.value == "constructor"
  | _ => false

/-- The modifiers of a member of a class. -/
def modifiers : Parse (List String) := do
  let words ← manyUntil
    (do
      match (← token).kind with
      | .word w false =>
        let isModifier := if (← get).dialect.hasTypes then memberModifiers.contains w
          else w == "static" || w == "accessor"
        if isModifier then
          return (← nextIs do
            return (← endsMemberName) || (w != "static" && (← afterNewline)))
        else return true
      | _ => return true)
    anyWord
  return words.map (·.2)

/-- A member of a class; none if it leaves nothing. -/
def classMember (rules : Rules) : Parse (Option Node) := do
  let decorators ← decorators rules
  let start ← place
  let hasTypes := (← get).dialect.hasTypes
  let isBlock ← nextIs (sees "\x7b")
  if (← seesWord "static") && isBlock then
    advance
    expect "\x7b"
    let statements ← inScope (fun _ => {})
      (manyUntil (sees "\x7d") (rules .statement))
    expect "\x7d"
    return some (.staticBlock (← spanFrom start) statements)
  else
    let words ← modifiers
    let isStatic := words.contains "static"
    let isErased := words.contains "abstract" || words.contains "declare"
    let isIndex ← nextIs do
      if ← seesIdentifier then nextIs (sees ":") else return false
    if hasTypes && (← sees "[") && isIndex then
      advance
      advance
      typeAnnotation rules
      expect "]"
      typeAnnotation rules
      semicolon
      return none
    else
      let method (kind : MethodKind) (shape : FuncShape) (key : Node) : Parse (Option Node) := do
        let f ← rules (.functionRest (← place) shape none)
        require (hasAccessorArity kind f)
        let f := if kind == .constructor then assignParameters f else f
        let m := Node.method (← spanFrom start) decorators isStatic kind key f
        return if isErased || isBodiless m then none else some m
      if ← memberWord "get" false then
        method .getter {} (← propertyKey rules)
      else if ← memberWord "set" false then
        method .setter {} (← propertyKey rules)
      else
        let isAsync ← memberWord "async" true
        let isGenerator ← accept "*"
        let key ← propertyKey rules
        if hasTypes then
          let marked ← accept "?"
          if !marked then
            let _ ← accept "!"
        if (← sees "(") || (← sees "<") then
          let isConstructor := !isStatic && isConstructorKey key && !isAsync && !isGenerator
          method (if isConstructor then .constructor else .method) { isAsync, isGenerator } key
        else
          require (!isAsync && !isGenerator)
          typeAnnotation rules
          let value ← if ← accept "=" then
              inScope (fun _ => {}) (some <$> rules .assignment)
            else pure none
          let isAccessor := words.contains "accessor"
          semicolon
          let m := Node.field (← spanFrom start) decorators isStatic isAccessor key value
          return if isErased then none else some m

/-- A class, from its keyword on. -/
def classRule (rules : Rules) (start : Nat) (decorators : List Node) : Parse Node := do
  expectWord "class"
  let hasTypes := (← get).dialect.hasTypes
  let isImplements := hasTypes && (← seesWord "implements")
  let name ← if (← seesIdentifier) && !isImplements then
      (fun n => some n.2) <$> identifier
    else pure none
  optionalTypeParameters rules
  let superClass ← if ← acceptWord "extends" then
      let value ← rules (.access false)
      if hasTypes && (← sees "<") then typeArguments rules
      pure (some value)
    else pure none
  if hasTypes then
    if ← acceptWord "implements" then
      loop () fun _ => do
        rules .postfixType
        if ← accept "," then return .inl ()
        else return .inr ()
  expect "\x7b"
  let members ← loop [] fun items => do
    if ← accept "\x7d" then return .inr items.reverse
    else if ← accept ";" then return .inl items
    else
      match ← classMember rules with
      | some m => return .inl (m :: items)
      | none => return .inl items
  return .cls (← spanFrom start) decorators name superClass members

end ModuleBuild.Script
