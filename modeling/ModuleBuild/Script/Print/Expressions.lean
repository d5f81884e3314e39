import ModuleBuild.Script.Print.Literals

/-!
# Printing expressions, functions and classes

Parentheses are printed where the tree would be read differently without them. What stands around an
expression asks for a level; an expression of that level or a lower one is put in parentheses.

## Main definitions

* `Level`, `Context` — what stands around an expression.
* `Printers` — the printers that others refer to.
* `printExpression`, `printPattern` — expressions and patterns.
-/

namespace ModuleBuild.Script

/-- How tightly the place of an expression binds. -/
abbrev Level : Type := Nat

namespace Level

def lowest : Level := 0
def comma : Level := 1
def yielding : Level := 3
def assign : Level := 4
def conditional : Level := 5
def coalesce : Level := 6
def either : Level := 7
def both : Level := 8
def multiply : Level := 16
def power : Level := 17
def unary : Level := 18
def postfixed : Level := 19
def creation : Level := 20
def call : Level := 21

/-- The level of a binary operator. -/
def ofOperator (op : String) : Level :=
  match op with
  | "??" => coalesce
  | "||" => either
  | "&&" => both
  | "|" => 9
  | "^" => 10
  | "&" => 11
  | "==" | "!=" | "===" | "!==" => 12
  | "<" | ">" | "<=" | ">=" | "in" | "instanceof" => 13
  | "<<" | ">>" | ">>>" => 14
  | "+" | "-" => 15
  | "*" | "/" | "%" => multiply
  | _ => power

end Level

/-- What may not stand bare at a place. -/
structure Context where
  /-- The operator `in`, because a loop would take it. -/
  forbidsIn : Bool := false
  /-- A call, because `new` would take its arguments. -/
  forbidsCall : Bool := false
  deriving DecidableEq, Inhabited, Repr

/-- The printers that others refer to. -/
structure Printers where
  expression : Level → Context → Node → Print Unit
  pattern : Node → Print Unit
  statement : Node → Print Unit
  /-- Directives and statements between braces or on the top level. -/
  statements : List Node → Print Unit
  deriving Inhabited

/-- An expression without its parentheses. `fuel` bounds their number. -/
def unwrapped : Nat → Node → Node
  | fuel + 1, .paren _ inner => unwrapped fuel inner
  | _, n => n

/-- Whether a statement leaves something to print. -/
def isPrinted : Node → Bool
  | .erased .. => false
  | _ => true

/-! ## Functions -/

/-- Parameters without their parentheses. -/
def printParameters (p : Printers) (parameters : List Node) : Print Unit :=
  commaSeparated parameters p.pattern

/-- The body of a function. -/
def printBody (p : Printers) (body : Node) : Print Unit :=
  match body with
  | .body span statements => do
    let statements := statements.filter isPrinted
    let trailing ← takeComments (span.stop - 1)
    let hasLines := trailing.any fun c => c.newlineBefore || c.newlineAfter
    braces (statements.isEmpty && !hasLines) do
      p.statements statements
      commentList trailing
    dropSemicolon
  | n => p.expression .comma {} n

/-- Parameters and body of a function. -/
def printFunctionRest (p : Printers) (f : Node) : Print Unit :=
  match f with
  | .func _ _ _ parameters body => do
    text "("
    printParameters p parameters
    text ")"
    softSpace
    printBody p body
  | _ => pure ()

/-- A function. As an expression it needs parentheses where a statement would start with it. -/
def printFunction (p : Printers) (isExpression : Bool) (f : Node) : Print Unit :=
  match f with
  | .func _ shape name _ _ => do
    let starts := (← isHere (·.statementStart)) || (← isHere (·.defaultStart))
    wrapped (isExpression && (starts || shape.isWrapped)) do
      if shape.isAsync then word "async "
      word "function"
      if shape.isGenerator then
        text "*"
        softSpace
      name.forM word
      printFunctionRest p f
  | _ => pure ()

/-- An arrow function. -/
def printArrow (p : Printers) (level : Level) (f : Node) : Print Unit :=
  match f with
  | .func _ shape _ parameters body =>
    wrapped (Level.assign ≤ level || shape.isWrapped) do
      if shape.isAsync then
        word "async"
        softSpace
      match parameters, ← minifies with
      | [.binding _ name], true => word name
      | _, _ =>
        text "("
        printParameters p parameters
        text ")"
      softSpace
      text "=>"
      softSpace
      match body with
      | .body .. => printBody p body
      | value =>
        modify fun s => { s with arrowStart := some s.written }
        p.expression .comma {} value
  | _ => pure ()

/-! ## Keys, members and classes -/

/-- The key of a property or member. -/
def printKey (p : Printers) : Node → Print Unit
  | .nameKey _ name => word name
  | .privateName _ name => text ("#" ++ name)
  | .string _ lit => printString lit false
  | .number _ raw => printNumber raw false
  | .bigint _ raw => printBigint raw
  | .computedKey _ value => do
    text "["
    p.expression .comma {} value
    text "]"
  | _ => pure ()

/-- A method of an object or class. -/
def printMethod (p : Printers) (kind : MethodKind) (key f : Node) : Print Unit := do
  let shape := match f with
    | .func _ shape .. => shape
    | _ => {}
  match kind with
  | .getter =>
    word "get"
    softSpace
  | .setter =>
    word "set"
    softSpace
  | _ => pure ()
  if shape.isAsync then
    word "async"
    softSpace
  if shape.isGenerator then text "*"
  printKey p key
  printFunctionRest p f

/-- Decorators. -/
def printDecorators (p : Printers) (decorators : List Node) : Print Unit :=
  decorators.forM fun d => do
    text "@"
    p.expression .lowest {} d
    text " "

/-- A member of a class, with the end of its line. -/
def printMember (p : Printers) (member : Node) : Print Unit := do
  pendingSemicolon
  commentsAt member.span.start
  indentation
  match member with
  | .method _ decorators isStatic kind key f =>
    printDecorators p decorators
    if isStatic then
      word "static"
      softSpace
    printMethod p kind key f
    softNewline
  | .field _ decorators isStatic isAccessor key value =>
    printDecorators p decorators
    if isStatic then
      word "static"
      softSpace
    if isAccessor then
      word "accessor"
      softSpace
    printKey p key
    value.forM fun v => do
      softSpace
      text "="
      softSpace
      p.expression .comma {} v
    endStatement
  | .staticBlock _ statements =>
    word "static"
    softSpace
    braces statements.isEmpty (p.statements statements)
    dropSemicolon
    softNewline
  | _ => pure ()

/-- A class. As an expression it needs parentheses where a statement would start with it. -/
def printClass (p : Printers) (isExpression : Bool) (c : Node) : Print Unit :=
  match c with
  | .cls _ decorators name superClass members => do
    let starts := (← isHere (·.statementStart)) || (← isHere (·.defaultStart))
    wrapped (isExpression && starts) do
      printDecorators p decorators
      word "class"
      name.forM fun n => text (" " ++ n)
      superClass.forM fun s => do
        text " extends "
        p.expression .postfixed {} s
      softSpace
      braces members.isEmpty (members.forM (printMember p))
      dropSemicolon
  | _ => pure ()

/-! ## Objects and patterns -/

/-- Whether a value is the name of its property, so that one of them is enough. -/
def isSameName (key value : Node) : Bool :=
  match key, value with
  | .nameKey _ k, .ident _ name | .nameKey _ k, .binding _ name => k == name
  | _, _ => false

/-- A key and its colon. -/
def printPropertyKey (p : Printers) (key : Node) : Print Unit := do
  printKey p key
  text ":"
  softSpace

/-- A property of an object. -/
def printProperty (p : Printers) (property : Node) : Print Unit :=
  match property with
  | .property _ key isShorthand value => do
    let isProto := match key with
      | .nameKey _ name => name == "__proto__"
      | _ => false
    if !(isShorthand || (!isProto && isSameName key (unwrapped 100 value))) then
      printPropertyKey p key
    p.expression .comma {} value
  | .method _ _ _ kind key f => printMethod p kind key f
  | .spread _ value => do
    text "..."
    p.expression .comma {} value
  | _ => pure ()

/-- An object. It needs parentheses where braces would open a block. -/
def printObject (p : Printers) (properties : List Node) : Print Unit := do
  let starts := (← isHere (·.statementStart)) || (← isHere (·.arrowStart))
  wrapped starts do
    text "\x7b"
    match properties with
    | [] => pure ()
    | [only] =>
      softSpace
      printProperty p only
      softSpace
    | first :: rest =>
      indented do
        softNewline
        indentation
        printProperty p first
        rest.forM fun x => do
          text ","
          softNewline
          indentation
          printProperty p x
      softNewline
      indentation
    text "\x7d"

/-- Whether an element is left out. -/
def isHole : Node → Bool
  | .hole _ => true
  | _ => false

/-- An element of an array. -/
def printItem (p : Printers) : Node → Print Unit
  | .hole _ => pure ()
  | .spread _ value => do
    text "..."
    p.expression .comma {} value
  | value => p.expression .comma {} value

/-- An array, with each element on its line if there are more than two. -/
def printArray (p : Printers) (items : List Node) : Print Unit := do
  let hasLines := 2 < items.length
  let newline : Print Unit := do
    softNewline
    indentation
  let final : Print Unit := if items.getLast?.any isHole then text "," else pure ()
  text "["
  if hasLines then
    indented do
      match items with
      | [] => pure ()
      | first :: rest =>
        newline
        printItem p first
        rest.forM fun x => do
          text ","
          newline
          printItem p x
      final
    newline
  else
    commaSeparated items (printItem p)
    final
  text "]"

/-- A property of a pattern. -/
def printPatternProperty (p : Printers) (property : Node) : Print Unit :=
  match property with
  | .property _ key _ value => do
    let target := match value with
      | .withDefault _ target _ => target
      | n => n
    if !isSameName key target then printPropertyKey p key
    p.pattern value
  | n => p.pattern n

/-- A pattern, or the target of an assignment. -/
def printPattern (p : Printers) (pattern : Node) : Print Unit :=
  match pattern with
  | .binding _ name => word name
  | .hole _ => pure ()
  | .arrayPattern _ items => do
    text "["
    commaSeparated items p.pattern
    if items.getLast?.any isHole then text ","
    text "]"
  | .objectPattern _ properties => do
    text "\x7b"
    if !properties.isEmpty then
      softSpace
      commaSeparated properties (printPatternProperty p)
      softSpace
    text "\x7d"
  | .rest _ inner => do
    text "..."
    p.pattern inner
  | .withDefault _ target value => do
    p.pattern target
    softSpace
    text "="
    softSpace
    p.expression .comma {} value
  | .property _ _ _ value => p.pattern value
  | n => p.expression .comma {} n

/-! ## Operators -/

/-- Whether an expression is `||` or `&&`. -/
def isLogical : Node → Bool
  | .binary _ op _ _ => op == "||" || op == "&&"
  | _ => false

/-- Whether an expression is an operator before its value. -/
def isUnary : Node → Bool
  | .unary .. | .await .. => true
  | _ => false

/-- An operator between two values. -/
def printBinary (p : Printers) (level : Level) (context : Context) (op : String)
    (left right : Node) : Print Unit := do
  let own := Level.ofOperator op
  let wrap := own ≤ level || (op == "in" && context.forbidsIn)
  let inner : Context := { forbidsIn := context.forbidsIn && !wrap }
  let left' := unwrapped 100 left
  let right' := unwrapped 100 right
  let leftLevel :=
    if op == "??" && isLogical left' then Level.unary
    else if op == "**" then (if isUnary left' then Level.call else own)
    else own - 1
  let rightLevel :=
    if op == "??" && isLogical right' then Level.unary
    else if op == "**" then own - 1
    else own
  wrapped wrap do
    match left' with
    | .privateName _ name => text ("#" ++ name)
    | _ => p.expression leftLevel inner left
    softSpace
    if op == "in" || op == "instanceof" then word op else sign op false
    softSpace
    p.expression rightLevel inner right

/-- An operator before its value. -/
def printUnary (p : Printers) (level : Level) (op : String) (value : Node) : Print Unit :=
  wrapped (Level.unary ≤ level) do
    if op == "typeof" || op == "void" || op == "delete" then
      word op
      softSpace
    else sign op true
    p.expression .power {} value

/-- An operator that counts a value up or down. -/
def printUpdate (p : Printers) (level : Level) (op : String) (isBefore : Bool) (value : Node) :
    Print Unit :=
  if isBefore then
    wrapped (Level.unary ≤ level) do
      sign op true
      p.expression .unary {} value
  else
    wrapped (Level.postfixed ≤ level) do
      p.expression .postfixed {} value
      text op
      modify fun s => { s with operator := some (op, false, s.written) }

/-- A condition with two values. -/
def printCondition (p : Printers) (level : Level) (context : Context) (test yes no : Node) :
    Print Unit := do
  let wrap := Level.conditional ≤ level
  let inner : Context := { forbidsIn := context.forbidsIn && !wrap }
  wrapped wrap do
    p.expression .conditional inner test
    softSpace
    text "?"
    softSpace
    p.expression .yielding {} yes
    softSpace
    text ":"
    softSpace
    p.expression .yielding inner no

/-- An assignment. One to the properties of an object needs parentheses where braces would open a
block. -/
def printAssignment (p : Printers) (level : Level) (context : Context) (op : String)
    (target value : Node) : Print Unit := do
  let starts := (← isHere (·.statementStart)) || (← isHere (·.arrowStart))
  let isObject := match target with
    | .objectPattern .. => true
    | _ => false
  let wrap := (starts && isObject) || Level.assign ≤ level
  wrapped wrap do
    p.pattern target
    softSpace
    text op
    softSpace
    p.expression .comma { forbidsIn := context.forbidsIn && !wrap } value

/-! ## Calls and properties -/

/-- Arguments. -/
def printArguments (p : Printers) (arguments : List Node) : Print Unit := do
  text "("
  commaSeparated arguments (printItem p)
  text ")"

/-- The mark of a call that may be dropped. -/
def pureMark : String := "/* @__PURE__ */ "

/-- A call. -/
def printCall (p : Printers) (level : Level) (context : Context) (callee : Node)
    (arguments : List Node) (isOptional isPure : Bool) : Print Unit := do
  let startsStatement ← isHere (·.statementStart)
  let startsDefault ← isHere (·.defaultStart)
  let wrap := Level.creation ≤ level || context.forbidsCall || (isPure && Level.postfixed ≤ level)
  wrapped wrap do
    if isPure then text pureMark
    if startsDefault then modify fun s => { s with defaultStart := some s.written }
    else if startsStatement then modify fun s => { s with statementStart := some s.written }
    p.expression .postfixed {} callee
    if isOptional then text "?."
    printArguments p arguments

/-- The creation of an object. -/
def printNew (p : Printers) (level : Level) (callee : Node) (arguments : List Node)
    (isPure : Bool) : Print Unit :=
  wrapped (Level.call ≤ level || (isPure && Level.postfixed ≤ level)) do
    if isPure then text pureMark
    word "new"
    softSpace
    p.expression .creation { forbidsCall := true } callee
    if !(← minifies) || !arguments.isEmpty || Level.postfixed ≤ level then
      printArguments p arguments

/-- What stands between a value and the name of its property. -/
def printPoint (isOptional : Bool) : Print Unit := do
  if isOptional then text "?."
  else
    if ← isHere (·.numberStop) then text " "
    text "."

/-- The parts of a template with the values between them. -/
def printTemplate (p : Printers) (parts : List String) (values : List Node) : Print Unit := do
  text "\x60"
  parts.zipIdx.forM fun (part, i) => do
    text (String.ofList (keepOpen part.toList))
    match values[i]? with
    | some value =>
      text "$\x7b"
      p.expression .lowest {} value
      text "\x7d"
    | none => pure ()
  text "\x60"

/-- A regular expression. -/
def printRegex (raw : String) : Print Unit := do
  let cs := raw.toList
  let flags := (cs.reverse.takeWhile (· != '/')).reverse
  let pattern := cs.take (cs.length - flags.length)
  if (← get).last == some '/' then text " "
  text (String.ofList (pattern ++ flags.mergeSort (· ≤ ·)))
  modify fun s => { s with regexStop := some s.written }

/-- A value in a generator. -/
def printYield (p : Printers) (level : Level) (delegates : Bool) (value : Option Node) :
    Print Unit :=
  wrapped (Level.assign ≤ level) do
    word "yield"
    if delegates then text "*"
    value.forM fun v => do
      softSpace
      p.expression .yielding {} v

/-- An expression. -/
def printExpression (p : Printers) (level : Level) (context : Context) (n : Node) : Print Unit :=
  match n with
  | .ident _ name => word name
  | .this _ => word "this"
  | .super _ => word "super"
  | .null _ => word "null"
  | .bool _ value => word (if value then "true" else "false")
  | .number _ raw => printNumber raw (Level.multiply ≤ level)
  | .bigint _ raw => printBigint raw
  | .string _ lit => printString lit true
  | .regex _ raw => printRegex raw
  | .template _ parts values => printTemplate p parts values
  | .tagged _ tag parts values => do
    p.expression .postfixed {} tag
    printTemplate p parts values
  | .array _ items => printArray p items
  | .object _ properties => printObject p properties
  | .unary _ op value => printUnary p level op value
  | .update _ op isBefore value => printUpdate p level op isBefore value
  | .binary _ op left right => printBinary p level context op left right
  | .cond _ test yes no => printCondition p level context test yes no
  | .assign _ op target value => printAssignment p level context op target value
  | .seq _ items =>
    wrapped (Level.comma ≤ level) (commaSeparated items (p.expression .lowest context))
  | .member _ base name isOptional => do
    p.expression .postfixed { forbidsCall := context.forbidsCall } base
    printPoint isOptional
    text name
  | .privateMember _ base name isOptional => do
    p.expression .postfixed { forbidsCall := context.forbidsCall } base
    printPoint isOptional
    text ("#" ++ name)
  | .index _ base key isOptional => do
    p.expression .postfixed { forbidsCall := context.forbidsCall } base
    if isOptional then text "?."
    text "["
    p.expression .lowest {} key
    text "]"
  | .call _ callee arguments isOptional isPure =>
    printCall p level context callee arguments isOptional isPure
  | .new _ callee arguments isPure => printNew p level callee arguments isPure
  | .chain _ body => wrapped (Level.postfixed ≤ level) (p.expression .lowest {} body)
  | .importCall _ arguments =>
    wrapped (Level.creation ≤ level || context.forbidsCall) do
      word "import"
      printArguments p arguments
  | .metaProperty _ name => word name
  | .yield _ delegates value => printYield p level delegates value
  | .await _ value =>
    wrapped (Level.unary ≤ level) do
      word "await"
      softSpace
      p.expression .power {} value
  | .paren _ inner => p.expression level context inner
  | .markup .. => do
    let lowered := (← get).style.lower n
    p.expression level context lowered
  | .func _ shape .. => if shape.isArrow then printArrow p level n else printFunction p true n
  | .cls .. => printClass p true n
  | n => p.pattern n

end ModuleBuild.Script
