import ModuleBuild.Script.Parse.Rule

/-!
# Reading types

Types are read only to find where they end.

## Main definitions

* `typeRule`, `postfixTypeRule` — the two levels of types.
* `typeAnnotation`, `returnType`, `typeParameters`, `typeArguments` — types beside values.
* `objectTypeMembers` — the body of an interface.
-/

namespace ModuleBuild.Script

/-- Type arguments or parameters from `<` on, each read by `item`. -/
def typeList (item : Parse Unit) : Parse Unit := do
  expect "<"
  let _ ← commaList ">" item

/-- Type arguments. -/
def typeArguments (rules : Rules) : Parse Unit :=
  typeList (rules .type)

/-- A type parameter, with its bound and default. -/
def typeParameter (rules : Rules) : Parse Unit := do
  let _ ← manyUntil
    (do return !((← seesWord "const") || (← seesWord "in") ||
      ((← seesWord "out") && (← nextIs seesIdentifier)))) advance
  let _ ← identifier
  if ← acceptWord "extends" then rules .type
  if ← accept "=" then rules .type

/-- Type parameters. -/
def typeParameters (rules : Rules) : Parse Unit :=
  typeList (typeParameter rules)

/-- Type parameters, if the source may have any and some are at hand. -/
def optionalTypeParameters (rules : Rules) : Parse Unit := do
  if (← get).dialect.hasTypes && (← sees "<") then typeParameters rules

/-- A type behind a colon, if the source may have any and there is one. -/
def typeAnnotation (rules : Rules) : Parse Unit := do
  if (← get).dialect.hasTypes then
    if ← accept ":" then rules .type

/-- The type that a value is asserted to have: a type, or the word that keeps it constant. -/
def assertedType (rules : Rules) : Parse Unit := do
  if !(← acceptWord "const") then rules .type

/-- What a function returns: a type or a statement about a parameter. -/
def returnedType (rules : Rules) : Parse Unit := do
  let predicate ← nextIs (do return (← seesWord "is") && !(← afterNewline))
  if (← seesIdentifier) && predicate then
    advance
    advance
    rules .type
  else rules .type

/-- The type a function returns, behind a colon. -/
def returnType (rules : Rules) : Parse Bool := do
  if (← get).dialect.hasTypes && (← sees ":") then
    advance
    returnedType rules
    return true
  else return false

/-- Passes over a name, a pattern or `this` in the parameters of a function type. -/
def parameterName : Nat → Parse Unit
  | 0 => failure
  | fuel + 1 => do
    if ← accept "\x7b" then skipTo fuel "\x7d"
    else if ← accept "[" then skipTo fuel "]"
    else
      let _ ← anyWord
where
  /-- Passes over everything up to the closing punctuation. -/
  skipTo (fuel : Nat) (close : String) : Parse Unit :=
    loop () fun _ => do
      if ← accept close then return .inr ()
      else if (← sees "\x7b") || (← sees "[") then
        parameterName fuel
        return .inl ()
      else
        require ((← token).kind != .eof)
        advance
        return .inl ()

/-- The parameters of a function type, from the parenthesis on. -/
def typeParameterList (rules : Rules) : Parse Unit := do
  expect "("
  let _ ← commaList ")" do
    let _ ← accept "..."
    parameterName (← get).size
    let _ ← accept "?"
    if ← accept ":" then rules .type

/-- The members of an object type up to the closing brace, which is passed over. -/
def objectTypeMembers (rules : Rules) : Parse Unit :=
  loop () fun _ => do
    if ← accept "\x7d" then return .inr ()
    else
      member
      let separated := (← accept ";") || (← accept ",")
      if separated || (← sees "\x7d") || (← afterNewline) then return .inl ()
      else failure
where
  /-- Whether a member goes on behind a word that could be a modifier. -/
  endsName : Parse Bool := do
    return (← sees ":") || (← sees "?") || (← sees "(") || (← sees "<") || (← sees ";") ||
      (← sees ",") || (← sees "\x7d") || (← afterNewline)
  /-- A signature. -/
  signature : Parse Unit := do
    optionalTypeParameters rules
    typeParameterList rules
    let _ ← returnType rules
  /-- A member. -/
  member : Parse Unit := do
    if (← sees "(") || (← sees "<") then signature
    else
      if (← seesWord "new") && (← nextIs do return (← sees "(") || (← sees "<")) then
        advance
        signature
      else
        let _ ← accept "+"
        let _ ← accept "-"
        let _ ← manyUntil
          (do return !(((← seesWord "readonly") || (← seesWord "get") || (← seesWord "set") ||
            (← seesWord "static")) && !(← nextIs endsName))) advance
        key
        let _ ← accept "+"
        let _ ← accept "-"
        let _ ← accept "?"
        if (← sees "(") || (← sees "<") then signature
        else typeAnnotation rules
  /-- A key: a name, a literal, an index or the variable of a mapped type. -/
  key : Parse Unit := do
    if ← accept "[" then
      let indexed ← nextIs (do return (← sees ":") || (← seesWord "in"))
      if indexed then
        let _ ← anyWord
        advance
        rules .type
        if ← acceptWord "as" then rules .type
      else
        let _ ← rules .assignment
      expect "]"
    else
      match (← token).kind with
      | .word .. | .string _ | .number _ | .bigint _ | .privateName _ => advance
      | _ => failure

/-- An element of a tuple type. -/
def tupleElement (rules : Rules) : Parse Unit := do
  let _ ← accept "..."
  let labelled ← nextIs (do
    return (← sees ":") || ((← sees "?") && (← nextIs (sees ":"))))
  match (← token).kind, labelled with
  | .word .., true =>
    advance
    let _ ← accept "?"
    expect ":"
    rules .type
  | _, _ =>
    rules .type
    let _ ← accept "?"

/-- Whether the parenthesis at hand opens the parameters of a function type. -/
def startsFunctionType : Parse Bool :=
  nextIs do
    if (← sees ")") || (← sees "...") then return true
    else
      match ← attempt (do parameterName (← get).size) with
      | some () =>
        if (← sees ":") || (← sees ",") || (← sees "?") || (← sees "=") then return true
        else if ← accept ")" then sees "=>"
        else return false
      | none => return false

/-- The rest of a template type behind a part of it. -/
def templateType (rules : Rules) : Parse Unit :=
  loop () fun _ => do
    match (← token).kind with
    | .template part =>
      if part.isLast then
        advance
        return .inr ()
      else
        advance
        rules .type
        require (← sees "\x7d")
        reread fun cs => readTemplate? (cs.drop 1)
        return .inl ()
    | _ => failure

/-- Names between points, with type arguments. -/
def typeReference (rules : Rules) : Parse Unit := do
  let _ ← anyWord
  loop () fun _ => do
    if ← accept "." then
      let _ ← anyWord
      return .inl ()
    else return .inr ()
  if (← sees "<") && !(← afterNewline) then typeArguments rules

/-- A type without operators. -/
def primaryType (rules : Rules) : Parse Unit := do
  match (← token).kind with
  | .punct "(" =>
    advance
    rules .type
    expect ")"
  | .punct "[" =>
    advance
    let _ ← commaList "]" (tupleElement rules)
  | .punct "\x7b" =>
    advance
    objectTypeMembers rules
  | .punct "-" =>
    advance
    match (← token).kind with
    | .number _ | .bigint _ => advance
    | _ => failure
  | .string _ | .number _ | .bigint _ => advance
  | .template _ => templateType rules
  | .word "typeof" _ =>
    advance
    if ← seesWord "import" then importType
    else typeReference rules
  | .word "import" _ => importType
  | .word "asserts" false =>
    let asserts ← nextIs (do
      return ((← seesIdentifier) || (← seesWord "this")) && !(← afterNewline))
    if asserts then
      advance
      let _ ← anyWord
      statement
    else typeReference rules
  | .word "this" _ =>
    advance
    statement
  | .word word _ =>
    require (!reservedWords.contains word || ["null", "true", "false", "void"].contains word)
    typeReference rules
  | _ => failure
where
  /-- The rest of a statement about a value, if there is one. -/
  statement : Parse Unit := do
    if (← seesWord "is") && !(← afterNewline) then
      advance
      rules .type
  /-- The type of a module, with names behind it. -/
  importType : Parse Unit := do
    advance
    expect "("
    rules .type
    if ← accept "," then
      if !(← sees ")") then
        rules .type
        let _ ← accept ","
    expect ")"
    loop () fun _ => do
      if ← accept "." then
        let _ ← anyWord
        return .inl ()
      else return .inr ()
    if (← sees "<") && !(← afterNewline) then typeArguments rules

/-- A type with operators before it and indices behind it. -/
def postfixTypeRule (rules : Rules) : Parse Unit := do
  let isPrefix ← nextIs (do
    return !((← sees ",") || (← sees ")") || (← sees ">") || (← sees "=") || (← sees "|") ||
      (← sees "&") || (← sees "]") || (← sees ";") || (← sees "\x7d") || (← sees "<") ||
      (← sees ".") || (← afterNewline) || (← sees "?") || (← sees ":") ||
      (← token).kind == .eof))
  let isOperator := (← seesWord "keyof") || (← seesWord "unique") || (← seesWord "readonly")
  if isOperator && isPrefix then
    advance
    rules .postfixType
  else if (← seesWord "infer") && isPrefix then
    advance
    let _ ← identifier
    let _ ← attempt do
      expectWord "extends"
      inScope ({ · with allowsConditionalType := false }) (rules .type)
      require (!(← sees "?") || !(← get).scope.allowsConditionalType)
  else
    primaryType rules
    loop () fun _ => do
      if (← sees "[") && !(← afterNewline) then
        advance
        if !(← sees "]") then rules .type
        expect "]"
        return .inl ()
      else return .inr ()

/-- Types between `&`, and these between `|`. -/
def unionType (rules : Rules) : Parse Unit := do
  let _ ← accept "|"
  let _ ← accept "&"
  loop () fun _ => do
    rules .postfixType
    if (← accept "|") || (← accept "&") then return .inl ()
    else return .inr ()

/-- A type. -/
def typeRule (rules : Rules) : Parse Unit := do
  let isConstructor := (← seesWord "new") ||
    ((← seesWord "abstract") && (← nextIs (seesWord "new")))
  if isConstructor then
    let _ ← acceptWord "abstract"
    advance
    functionType
  else if (← sees "<") || ((← sees "(") && (← startsFunctionType)) then functionType
  else
    unionType rules
    let s ← get
    if s.scope.allowsConditionalType && (← seesWord "extends") && !(← afterNewline) then
      advance
      inScope ({ · with allowsConditionalType := false }) (rules .type)
      expect "?"
      inScope ({ · with allowsConditionalType := true }) (rules .type)
      expect ":"
      inScope ({ · with allowsConditionalType := true }) (rules .type)
where
  /-- A function type. -/
  functionType : Parse Unit := do
    optionalTypeParameters rules
    typeParameterList rules
    expect "=>"
    returnedType rules

end ModuleBuild.Script
