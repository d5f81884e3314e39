import ModuleBuild.Script.Parse.Functions

/-!
# Reading expressions

## Main definitions

* `accessRule` — values with their properties, indices and calls.
* `unaryRule`, `binaryFrom` — operators.
* `arrowFunction` — arrow functions.
* `assignmentRule`, `expressionRule` — the upper levels.
* `toTarget` — an expression as the target of an assignment.
-/

namespace ModuleBuild.Script

open Text

/-! ## Targets of assignments -/

/-- An expression read as the target of an assignment. `fuel` bounds how deep it is nested. -/
def toTarget : Nat → Node → Option Node
  | 0, _ => none
  | fuel + 1, n =>
    match n with
    | .ident .. | .member .. | .privateMember .. | .index .. => some n
    | .paren _ inner => simpleTarget fuel inner
    | .array span items => do
      let items ← items.mapM (element fuel)
      require? (items.dropLast.all fun
        | .rest .. => false
        | _ => true)
      return .arrayPattern span items
    | .object span properties => do
      let properties ← properties.mapM (property fuel)
      require? (properties.dropLast.all fun
        | .rest .. => false
        | _ => true)
      return .objectPattern span properties
    | _ => none
where
  /-- Gives nothing unless the condition holds. -/
  require? (b : Bool) : Option Unit :=
    if b then some () else none
  /-- A name, property or index, in parentheses or not. -/
  simpleTarget : Nat → Node → Option Node
    | 0, _ => none
    | fuel + 1, n =>
      match n with
      | .ident .. | .member .. | .privateMember .. | .index .. => some n
      | .paren _ inner => simpleTarget fuel inner
      | _ => none
  /-- A target with its default. -/
  withValue (fuel : Nat) : Node → Option Node
    | .assign span "=" target value => some (.withDefault span target value)
    | n => toTarget fuel n
  /-- An element of an array pattern. -/
  element (fuel : Nat) : Node → Option Node
    | .hole span => some (.hole span)
    | .spread span value => (toTarget fuel value).map (.rest span ·)
    | n => withValue fuel n
  /-- A property of an object pattern. -/
  property (fuel : Nat) : Node → Option Node
    | .property span key isShorthand value =>
      (withValue fuel value).map (.property span key isShorthand ·)
    | .cover span name value =>
      let key := Node.nameKey span name
      some (.property span key true (.withDefault span (.ident span name) value))
    | .spread span value => (simpleTarget fuel value).map (.rest span ·)
    | _ => none

/-- Whether an expression may be counted up or down, or be changed by an operator. -/
def isSimpleTarget : Nat → Node → Bool
  | fuel + 1, .paren _ inner => isSimpleTarget fuel inner
  | _, .ident .. | _, .member .. | _, .privateMember .. | _, .index .. => true
  | _, _ => false

/-! ## Values -/

/-- Arguments, behind the parenthesis. -/
def callArguments (rules : Rules) : Parse (List Node) :=
  inScope ({ · with allowsIn := true, inCondition := false }) <| commaList ")" do
    let start ← place
    if ← accept "..." then
      let value ← rules .assignment
      return .spread (← spanFrom start) value
    else rules .assignment

/-- The rest of a template behind a part of it: its parts and values. -/
def templateRest (rules : Rules) (needsMeaning : Bool) : Parse (List String × List Node) :=
  loop ([], []) fun (parts, values) => do
    match (← token).kind with
    | .template part =>
      require (part.isValid || !needsMeaning)
      let parts := part.raw :: parts
      advance
      if part.isLast then return .inr (parts.reverse, values.reverse)
      else
        let value ← inScope ({ · with allowsIn := true, inCondition := false }) (rules .expression)
        require (← sees "\x7d")
        reread fun cs => readTemplate? (cs.drop 1)
        return .inl (parts, value :: values)
    | _ => failure

/-- The elements of an array, behind its bracket. -/
def arrayItems (rules : Rules) : Parse (List Node) :=
  inScope ({ · with allowsIn := true, inCondition := false }) <| loop [] fun items => do
    if ← accept "]" then return .inr items.reverse
    else if ← sees "," then
      let t ← token
      advance
      return .inl (.hole ⟨t.start, t.start⟩ :: items)
    else
      let start ← place
      let item ← if ← accept "..." then
          let value ← rules .assignment
          pure (.spread (← spanFrom start) value)
        else rules .assignment
      if ← accept "," then return .inl (item :: items)
      else
        expect "]"
        return .inr (item :: items).reverse

/-- An expression in parentheses; a function directly in them remembers it. -/
def parenthesized (rules : Rules) : Parse Node := do
  let start ← place
  expect "("
  let inner ← inScope ({ · with allowsIn := true, inCondition := false }) (rules .expression)
  expect ")"
  let inner := match inner with
    | .func span shape name parameters body =>
      .func span { shape with isWrapped := true } name parameters body
    | n => n
  return .paren (← spanFrom start) inner

/-- A value of one token or between brackets. -/
def primary (rules : Rules) : Parse Node := do
  let s ← get
  let t := s.token
  let span : Span := ⟨t.start, t.stop⟩
  match t.kind with
  | .number raw =>
    advance
    return .number span raw
  | .bigint raw =>
    advance
    return .bigint span raw
  | .string lit =>
    advance
    return .string span lit
  | .template _ =>
    let (parts, values) ← templateRest rules true
    return .template (← spanFrom t.start) parts values
  | .punct "(" => parenthesized rules
  | .punct "[" =>
    advance
    let items ← arrayItems rules
    return .array (← spanFrom t.start) items
  | .punct "\x7b" => objectLiteral rules
  | .punct "/" | .punct "/=" =>
    reread readRegex?
    match (← token).kind with
    | .regex raw =>
      advance
      return .regex (← spanFrom t.start) raw
    | _ => failure
  | .punct "@" =>
    let decorators ← decorators rules
    rules (.classRest t.start decorators)
  | .punct "<" =>
    require s.dialect.hasMarkup
    let m ← rules .markup
    expect ">"
    return m
  | .word "this" false =>
    advance
    return .this span
  | .word "null" false =>
    advance
    return .null span
  | .word "true" false =>
    advance
    return .bool span true
  | .word "false" false =>
    advance
    return .bool span false
  | .word "function" false => functionFrom rules t.start false false
  | .word "class" false => rules (.classRest t.start [])
  | .word "async" false =>
    if ← nextIs (do return (← seesWord "function") && !(← afterNewline)) then
      advance
      functionFrom rules t.start true false
    else
      let (span, name) ← identifier
      return .ident span name
  | .word "super" false =>
    advance
    require ((← sees ".") || (← sees "[") || (← sees "("))
    return .super span
  | _ =>
    let (span, name) ← identifier
    return .ident span name

/-- A call of `import`, or the data of the module. -/
def importExpression (rules : Rules) (forNew : Bool) : Parse Node := do
  let start ← place
  expectWord "import"
  if ← accept "." then
    expectWord "meta"
    return .metaProperty (← spanFrom start) "import.meta"
  else
    require (!forNew)
    expect "("
    let arguments ← callArguments rules
    require (arguments.length == 1 || arguments.length == 2)
    return .importCall (← spanFrom start) arguments

/-- Whether what is at hand may follow type arguments of a value. -/
def followsTypeArguments : Parse Bool := do
  let t ← token
  match t.kind with
  | .punct "(" | .template _ => return true
  | .punct "<" | .punct ">" | .punct "+" | .punct "-" => return false
  | .punct p =>
    return t.newlineBefore || !(["[", "\x7b", "!", "~", "++", "--", "/", "@", "..."].contains p)
  | .eof => return true
  | .word w false => return t.newlineBefore || ["in", "instanceof", "as", "satisfies"].contains w
  | _ => return t.newlineBefore

/-- Type arguments of a value, if the source may have any and these are some. -/
def tryTypeArguments (rules : Rules) : Parse Bool := do
  if (← get).dialect.hasTypes && (← sees "<") then
    let found ← attempt do
      typeArguments rules
      require (← followsTypeArguments)
    return found.isSome
  else return false

/-- Whether a comment before this place says that a call there is pure. -/
def isMarkedPure (start : Nat) : Parse Bool := do
  return (← get).comments.settled.any fun c =>
    c.attachedTo == some start && c.isPure

/-- Creation of an object, from `new` on. -/
def newExpression (rules : Rules) : Parse Node := do
  let start ← place
  expectWord "new"
  if ← accept "." then
    expectWord "target"
    return .metaProperty (← spanFrom start) "new.target"
  else
    let callee ← rules (.access true)
    require (!(← sees "?."))
    let arguments ← if ← accept "(" then callArguments rules else pure []
    return .new (← spanFrom start) callee arguments false

/-- What has been read of a value with its links, and whether one of them is optional. -/
structure Access where
  base : Node
  isChain : Bool := false

/-- A property behind a point. -/
def memberOf (a : Access) (start : Nat) (isOptional : Bool) : Parse Access := do
  match (← token).kind with
  | .privateName text =>
    advance
    return { a with base := .privateMember (← spanFrom start) a.base text isOptional }
  | _ =>
    let (_, text) ← anyWord
    return { a with base := .member (← spanFrom start) a.base text isOptional }

/-- An index, behind its bracket. -/
def indexOf (rules : Rules) (a : Access) (start : Nat) (isOptional : Bool) : Parse Access := do
  let key ← inScope ({ · with allowsIn := true, inCondition := false }) (rules .expression)
  expect "]"
  return { a with base := .index (← spanFrom start) a.base key isOptional }

/-- A call, behind its parenthesis. -/
def callOf (rules : Rules) (a : Access) (start : Nat) (isOptional : Bool) : Parse Access := do
  let arguments ← callArguments rules
  return { a with base := .call (← spanFrom start) a.base arguments isOptional false }

/-- One more link of a value; none if there is no more. -/
def accessLink (rules : Rules) (forNew : Bool) (start : Nat) (a : Access) :
    Parse (Option Access) := do
  let s ← get
  match s.token.kind with
  | .punct "." =>
    advance
    some <$> memberOf a start false
  | .punct "?." =>
    if forNew then return none
    else
      advance
      let a := { a with isChain := true }
      if ← accept "[" then some <$> indexOf rules a start true
      else
        let _ ← tryTypeArguments rules
        if ← accept "(" then some <$> callOf rules a start true
        else some <$> memberOf a start true
  | .punct "[" =>
    advance
    some <$> indexOf rules a start false
  | .punct "(" =>
    if forNew then return none
    else
      advance
      some <$> callOf rules a start false
  | .template _ =>
    require (!a.isChain)
    let (parts, values) ← templateRest rules false
    return some { a with base := .tagged (← spanFrom start) a.base parts values }
  | .punct "!" =>
    if s.dialect.hasTypes && !s.token.newlineBefore then
      advance
      return some a
    else return none
  | _ =>
    if ← tryTypeArguments rules then return some a else return none

/-- Marks a call as pure. -/
def markPure : Node → Node
  | .call span callee arguments isOptional _ => .call span callee arguments isOptional true
  | .new span callee arguments _ => .new span callee arguments true
  | n => n

/-- A value with its properties, indices and calls. -/
def accessRule (rules : Rules) (forNew : Bool) : Parse Node := do
  let start ← place
  let isPure ← isMarkedPure start
  let base ← if ← seesWord "new" then newExpression rules
    else if ← seesWord "import" then importExpression rules forNew
    else primary rules
  let isArrow := match base with
    | .func _ shape .. => shape.isArrow
    | _ => false
  if isArrow then return base
  else
    let a ← loop ({ base } : Access) fun a => do
      match ← accessLink rules forNew start a with
      | some a => return .inl a
      | none => return .inr a
    let value := if isPure then markPure a.base else a.base
    if a.isChain then return .chain (← spanFrom start) value
    else return value

/-! ## Operators -/

/-- An operator before or behind a value that counts it up or down. -/
def seesUpdate : Parse (Option String) := do
  match (← token).kind with
  | .punct "++" => return some "++"
  | .punct "--" => return some "--"
  | _ => return none

/-- Operators before a value. -/
def prefixOperator? : TokenKind → Option String
  | .punct p => if ["+", "-", "!", "~"].contains p then some p else none
  | .word w false => if ["typeof", "void", "delete"].contains w then some w else none
  | _ => none

/-- An expression without binary operators. -/
def unaryRule (rules : Rules) : Parse Node := do
  let s ← get
  let t := s.token
  match prefixOperator? t.kind with
  | some op =>
    advance
    let value ← rules .unary
    return .unary (← spanFrom t.start) op value
  | none =>
    match ← seesUpdate with
    | some op =>
      advance
      let value ← rules .unary
      require (isSimpleTarget s.size value)
      return .update (← spanFrom t.start) op true value
    | none =>
      if t.kind == .word "await" false && s.scope.isAsync then
        advance
        let value ← rules .unary
        return .await (← spanFrom t.start) value
      else if s.dialect.hasTypes && !s.dialect.hasMarkup && t.kind == .punct "<" then
        advance
        assertedType rules
        expect ">"
        rules .unary
      else
        match t.kind with
        | .privateName text =>
          advance
          require ((← seesWord "in") && s.scope.allowsIn)
          return .privateName ⟨t.start, t.stop⟩ text
        | _ =>
          let value ← rules (.access false)
          match ← seesUpdate with
          | some op =>
            if ← afterNewline then return value
            else
              require (isSimpleTarget s.size value)
              advance
              return .update (← spanFrom t.start) op false value
          | none => return value

/-- How tightly a binary operator binds. -/
def precedence? (allowsIn : Bool) : TokenKind → Option Nat
  | .punct p =>
    match p with
    | "??" => some 1
    | "||" => some 2
    | "&&" => some 3
    | "|" => some 4
    | "^" => some 5
    | "&" => some 6
    | "==" | "!=" | "===" | "!==" => some 7
    | "<" | ">" | "<=" | ">=" => some 8
    | "<<" | ">>" | ">>>" => some 9
    | "+" | "-" => some 10
    | "*" | "/" | "%" => some 11
    | "**" => some 12
    | _ => none
  | .word "instanceof" false => some 8
  | .word "in" false => if allowsIn then some 8 else none
  | _ => none

/-- The text of an operator. -/
def operatorText : TokenKind → String
  | .punct p => p
  | .word w _ => w
  | _ => ""

/-- Whether operators `??` and `||` or `&&` meet without parentheses. -/
def mixesCoalescing (op : String) (left right : Node) : Bool :=
  let isOp (ops : List String) : Node → Bool
    | .binary _ o _ _ => ops.contains o
    | _ => false
  if op == "??" then isOp ["||", "&&"] left || isOp ["||", "&&"] right
  else if op == "||" || op == "&&" then isOp ["??"] left || isOp ["??"] right
  else false

/-- Whether an expression may stand to the left of `**`. -/
def isPowerBase : Node → Bool
  | .unary .. | .await .. => false
  | _ => true

/-- Reads a `>` at hand together with the punctuation that it starts. -/
def widenToken : Parse Unit := do
  if ← sees ">" then
    reread fun cs =>
      let p := widenGreater cs
      some (.punct p, cs.drop p.length)

/-- Reads the operators that bind at least as tightly as `least` behind a value. `fuel` bounds the
number of levels. -/
def binaryFrom (rules : Rules) : Nat → Nat → Node → Parse Node
  | 0, _, _ => failure
  | fuel + 1, least, left =>
    loop left fun left => do
      widenToken
      let s ← get
      let isCast := (← seesWord "as") || (← seesWord "satisfies")
      if isCast && s.dialect.hasTypes && !s.token.newlineBefore && least ≤ 8 then
        advance
        assertedType rules
        return .inl left
      else
        match precedence? s.scope.allowsIn s.token.kind with
        | none => return .inr left
        | some p =>
          if p < least then return .inr left
          else
            let op := operatorText s.token.kind
            if op == "**" then require (isPowerBase left)
            advance
            let value ← rules .unary
            let right ← binaryFrom rules fuel (if op == "**" then p else p + 1) value
            require (!mixesCoalescing op left right)
            return .inl (.binary (← spanFrom left.span.start) op left right)

/-- An expression without conditions and assignments. -/
def binary (rules : Rules) : Parse Node := do
  let value ← rules .unary
  let e ← binaryFrom rules ((← get).size + 20) 0 value
  match e with
  | .privateName .. => failure
  | e => return e

/-! ## Arrow functions -/

/-- The body of an arrow function. -/
def arrowBody (rules : Rules) (isAsync : Bool) : Parse Node := do
  let shape : FuncShape := { isAsync, isArrow := true }
  if ← sees "\x7b" then inScope (Scope.forFunction shape) (functionBody rules)
  else
    inScope (fun s =>
      { Scope.forFunction shape s with allowsIn := s.allowsIn, inCondition := s.inCondition })
      (rules .assignment)

/-- An arrow function behind its parameters. -/
def arrowFrom (rules : Rules) (start : Nat) (isAsync : Bool) (parameters : List Node) :
    Parse Node := do
  require (!(← afterNewline))
  expect "=>"
  let body ← arrowBody rules isAsync
  return .func (← spanFrom start) { isAsync, isArrow := true } none parameters body

/-- The parameters of an arrow function with parentheses, and whether a type follows them. -/
def arrowHead (rules : Rules) (isAsync : Bool) : Parse (List Node × Bool) := do
  optionalTypeParameters rules
  let parameters ← inScope (fun s => { s with isAsync := s.isAsync || isAsync, allowsIn := true })
    (parameterList rules)
  let hasType ← returnType rules
  require ((← sees "=>") && !(← afterNewline) && !parameters.any isParameterProperty)
  return (parameters, hasType)

/-- An arrow function with parentheses. Between `?` and `:` one with a type has to be followed by
the colon of the condition. -/
def parenthesizedArrow (rules : Rules) (start : Nat) (isAsync : Bool) : Parse (Option Node) := do
  let inCondition := (← get).scope.inCondition
  match ← ahead (arrowHead rules isAsync) with
  | none => return none
  | some (_, hasType) =>
    let arrow : Parse Node := do
      let (parameters, _) ← arrowHead rules isAsync
      arrowFrom rules start isAsync parameters
    if hasType && inCondition then
      attempt do
        let f ← arrow
        require (← sees ":")
        return f
    else some <$> arrow

/-- Whether `<` at hand may open the type parameters of an arrow function. -/
def mayOpenTypeParameters : Parse Bool := do
  let d := (← get).dialect
  if !d.hasTypes || !(← sees "<") then return false
  else if !d.hasMarkup then return true
  else
    nextIs do
      advance
      return (← sees ",") || (← seesWord "extends") || (← sees "=")

/-- An arrow function with one bare parameter, if one is at hand. -/
def bareArrow (rules : Rules) : Parse (Option Node) := do
  let start ← place
  let arrow ← nextIs do return (← sees "=>") && !(← afterNewline)
  if (← seesIdentifier) && arrow then
    let (span, name) ← identifier
    some <$> arrowFrom rules start false [.binding span name]
  else return none

/-- An arrow function, if one is at hand. -/
def arrowFunction (rules : Rules) : Parse (Option Node) := do
  let start ← place
  if (← sees "(") || (← mayOpenTypeParameters) then parenthesizedArrow rules start false
  else if ← seesWord "async" then
    let opens ← nextIs do
      return ((← sees "(") || (← sees "<")) && !(← afterNewline)
    let names ← nextIs do
      return (← seesIdentifier) && !(← afterNewline) && (← nextIs (sees "=>"))
    if opens then
      let s ← get
      advance
      match ← parenthesizedArrow rules start true with
      | some f => return some f
      | none =>
        set s
        return none
    else if names then
      advance
      let (span, name) ← inScope ({ · with isAsync := true }) identifier
      some <$> arrowFrom rules start true [.binding span name]
    else bareArrow rules
  else bareArrow rules

/-! ## Assignments -/

/-- The operators that assign. -/
def assignOperators : List String :=
  ["=", "+=", "-=", "*=", "/=", "%=", "**=", "<<=", ">>=", ">>>=", "&=", "|=", "^=", "&&=", "||=",
    "??="]

/-- The operator that assigns, if one is at hand. -/
def seesAssign : Parse (Option String) := do
  match (← token).kind with
  | .punct p => return if assignOperators.contains p then some p else none
  | _ => return none

/-- A value given to the one who runs a generator. -/
def yieldExpression (rules : Rules) : Parse Node := do
  let start ← place
  expectWord "yield"
  if ← afterNewline then return .yield (← spanFrom start) false none
  else if ← accept "*" then
    let value ← rules .assignment
    return .yield (← spanFrom start) true (some value)
  else
    let ends := (← sees ")") || (← sees "]") || (← sees "\x7d") || (← sees ",") || (← sees ";") ||
      (← sees ":") || (← seesWord "in") || (← token).kind == .eof
    if ends then return .yield (← spanFrom start) false none
    else
      let value ← rules .assignment
      return .yield (← spanFrom start) false (some value)

/-- A condition with its two values, behind the test. -/
def conditional (rules : Rules) (test : Node) : Parse Node := do
  if ← accept "?" then
    let yes ← inScope ({ · with allowsIn := true, inCondition := true }) (rules .assignment)
    expect ":"
    let no ← rules .assignment
    return .cond (← spanFrom test.span.start) test yes no
  else return test

/-- An expression without commas. -/
def assignmentRule (rules : Rules) : Parse Node := do
  let s ← get
  if s.scope.isGenerator && (← seesWord "yield") then yieldExpression rules
  else
    match ← arrowFunction rules with
    | some f => return f
    | none =>
      let left ← binary rules
      match ← seesAssign with
      | some op =>
        if op == "=" then
          let some target := toTarget (s.size + 1) left | failure
          advance
          let value ← rules .assignment
          return .assign (← spanFrom left.span.start) op target value
        else
          require (isSimpleTarget s.size left)
          let some target := toTarget (s.size + 1) left | failure
          advance
          let value ← rules .assignment
          return .assign (← spanFrom left.span.start) op target value
      | none => conditional rules left

/-- Expressions between commas. -/
def expressionRule (rules : Rules) : Parse Node := do
  let first ← rules .assignment
  if ← sees "," then
    let items ← loop [first] fun items => do
      if ← accept "," then return .inl ((← rules .assignment) :: items)
      else return .inr items.reverse
    return .seq (← spanFrom first.span.start) items
  else return first

end ModuleBuild.Script
