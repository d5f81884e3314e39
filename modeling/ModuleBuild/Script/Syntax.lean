import ModuleBuild.Script.Token

/-!
# Syntax trees

The syntax of programs and modules, with the places in the source that later steps need. Types leave
no trace in the tree. Markup does, and so do parentheses.

## Main definitions

* `Node` — expressions, patterns, statements and their parts.
* `Node.span`, `Node.children` — where a node stands, and the nodes inside of it.
* `ImportDecl`, `ExportSpecifier` — module syntax.
* `Program` — a whole source.
-/

namespace ModuleBuild.Script

/-- How a variable is declared. -/
inductive VarKind where
  | varDecl
  | letDecl
  | constDecl
  | usingDecl
  | awaitUsingDecl
  deriving DecidableEq, Inhabited, Repr

/-- What a method is. -/
inductive MethodKind where
  | method
  | getter
  | setter
  | constructor
  deriving DecidableEq, Inhabited, Repr

/-- A name in module syntax, which may be a string. -/
inductive ModuleName where
  | word (text : String)
  | string (lit : StringLit)
  deriving DecidableEq, Inhabited, Repr

/-- The text of a name. -/
def ModuleName.text : ModuleName → String
  | word text => text
  | string lit => lit.value

/-- What an import declaration binds a name to. -/
inductive ImportSpecifier where
  | byDefault (localName : String)
  | wholeModule (localName : String)
  | named (imported : ModuleName) (localName : String)
  deriving DecidableEq, Inhabited, Repr

/-- The binding of a specifier. -/
def ImportSpecifier.localName : ImportSpecifier → String
  | byDefault l | wholeModule l | named _ l => l

/-- A condition on the module imported. -/
structure ImportAttribute where
  key : ModuleName
  value : StringLit
  deriving DecidableEq, Inhabited, Repr

/-- An import declaration. -/
structure ImportDecl where
  /-- The bindings; none if the module is only run. -/
  specifiers : Option (List ImportSpecifier)
  source : StringLit
  attributes : List ImportAttribute := []
  deriving DecidableEq, Inhabited, Repr

/-- A name in an export list. -/
structure ExportSpecifier where
  localName : ModuleName
  exported : ModuleName
  deriving DecidableEq, Inhabited, Repr

/-- What kind of function a function is. -/
structure FuncShape where
  isAsync : Bool := false
  isGenerator : Bool := false
  isArrow : Bool := false
  /-- Whether the function is written in parentheses. -/
  isWrapped : Bool := false
  deriving DecidableEq, Inhabited, Repr

/-- A node of a syntax tree. All kinds of syntax share this type, so that one function lists the
parts of any of them. -/
inductive Node where
  -- Expressions
  | ident (span : Span) (name : String)
  | this (span : Span)
  | super (span : Span)
  | null (span : Span)
  | bool (span : Span) (value : Bool)
  /-- A number as written. -/
  | number (span : Span) (raw : String)
  /-- A big integer as written, without its `n`. -/
  | bigint (span : Span) (raw : String)
  | string (span : Span) (lit : StringLit)
  | regex (span : Span) (raw : String)
  | template (span : Span) (parts : List String) (values : List Node)
  | tagged (span : Span) (tag : Node) (parts : List String) (values : List Node)
  | array (span : Span) (items : List Node)
  /-- A place of an array without a value. -/
  | hole (span : Span)
  | spread (span : Span) (value : Node)
  | object (span : Span) (properties : List Node)
  | unary (span : Span) (op : String) (value : Node)
  | update (span : Span) (op : String) (isBefore : Bool) (value : Node)
  | binary (span : Span) (op : String) (left right : Node)
  | cond (span : Span) (test yes no : Node)
  | assign (span : Span) (op : String) (target value : Node)
  | seq (span : Span) (items : List Node)
  | member (span : Span) (object : Node) (property : String) (isOptional : Bool)
  | privateMember (span : Span) (object : Node) (property : String) (isOptional : Bool)
  | index (span : Span) (object property : Node) (isOptional : Bool)
  /-- A call. A pure one may be dropped if its value is not used. -/
  | call (span : Span) (callee : Node) (arguments : List Node) (isOptional isPure : Bool)
  | new (span : Span) (callee : Node) (arguments : List Node) (isPure : Bool)
  /-- The extent of optional links. -/
  | chain (span : Span) (body : Node)
  | importCall (span : Span) (arguments : List Node)
  /-- `import.meta` or `new.target`. -/
  | metaProperty (span : Span) (text : String)
  | yield (span : Span) (delegates : Bool) (value : Option Node)
  | await (span : Span) (value : Node)
  | paren (span : Span) (body : Node)
  /-- Markup: an element, or a fragment, which has no tag. -/
  | markup (span : Span) (tag : Option Node) (attributes children : List Node)
  -- Functions and classes
  /-- A function; the body is a `body`, or a value if the function is an arrow. -/
  | func (span : Span) (shape : FuncShape) (name : Option String) (parameters : List Node)
      (body : Node)
  /-- Statements between the braces of a function. -/
  | body (span : Span) (statements : List Node)
  | cls (span : Span) (decorators : List Node) (name : Option String) (superClass : Option Node)
      (members : List Node)
  /-- A method of an object or class. -/
  | method (span : Span) (decorators : List Node) (isStatic : Bool) (kind : MethodKind) (key f : Node)
  | field (span : Span) (decorators : List Node) (isStatic isAccessor : Bool) (key : Node)
      (value : Option Node)
  | staticBlock (span : Span) (statements : List Node)
  -- Properties and patterns
  /-- A property of an object or of a pattern. -/
  | property (span : Span) (key : Node) (isShorthand : Bool) (value : Node)
  /-- A name with a default, which makes sense only where the object becomes a pattern. -/
  | cover (span : Span) (name : String) (value : Node)
  | nameKey (span : Span) (text : String)
  | computedKey (span : Span) (value : Node)
  | privateName (span : Span) (text : String)
  /-- A name that a declaration binds. -/
  | binding (span : Span) (name : String)
  | arrayPattern (span : Span) (items : List Node)
  | objectPattern (span : Span) (properties : List Node)
  | rest (span : Span) (pattern : Node)
  | withDefault (span : Span) (pattern value : Node)
  -- Parts of markup
  | markupAttribute (span : Span) (name : String) (value : Option Node)
  /-- Text as written. -/
  | text (span : Span) (raw : String)
  /-- Braces without a value. -/
  | emptyBraces (span : Span)
  -- Statements
  /-- A string at the start of a program or function, as written between its quotes. -/
  | directive (span : Span) (raw : String)
  | expr (span : Span) (value : Node)
  | var (span : Span) (kind : VarKind) (declarators : List Node)
  | declarator (span : Span) (pattern : Node) (value : Option Node)
  /-- The declaration of a function or class. -/
  | decl (node : Node)
  | ret (span : Span) (value : Option Node)
  | ite (span : Span) (test yes : Node) (no : Option Node)
  | forLoop (span : Span) (start test update : Option Node) (body : Node)
  | forIn (span : Span) (head object body : Node)
  | forOf (span : Span) (isAwait : Bool) (head values body : Node)
  | whileLoop (span : Span) (test body : Node)
  | doWhile (span : Span) (body test : Node)
  | switch (span : Span) (value : Node) (cases : List Node)
  /-- A case of a `switch`; the default case has no test. -/
  | case (span : Span) (test : Option Node) (statements : List Node)
  | tryBlock (span : Span) (block : Node) (parameter handler finalizer : Option Node)
  | throw (span : Span) (value : Node)
  | block (span : Span) (statements : List Node)
  | labeled (span : Span) (label : String) (body : Node)
  | breakTo (span : Span) (label : Option String)
  | continueTo (span : Span) (label : Option String)
  | debugger (span : Span)
  | empty (span : Span)
  | withBlock (span : Span) (object body : Node)
  | importModule (span : Span) (decl : ImportDecl)
  /-- An exported declaration. -/
  | exportDecl (span : Span) (declaration : Node)
  | exportList (span : Span) (specifiers : List ExportSpecifier) (source : Option StringLit)
      (attributes : List ImportAttribute)
  | exportAll (span : Span) (exported : Option ModuleName) (source : StringLit)
      (attributes : List ImportAttribute)
  /-- The default export of a declaration or of an expression. -/
  | exportDefault (span : Span) (value : Node)
  /-- A statement that consists of types: whether it is module syntax, and the type it declares. -/
  | erased (span : Span) (isModule : Bool) (name : Option String)
  deriving Inhabited

namespace Node

/-- Where a node stands in the source. -/
def span : Node → Span
  | ident s _ | this s | super s | null s | bool s _ | number s _ | bigint s _ | string s _
  | regex s _ | template s .. | tagged s .. | array s _ | hole s | spread s _ | object s _
  | unary s .. | update s .. | binary s .. | cond s .. | assign s .. | seq s _ | member s ..
  | privateMember s .. | index s .. | call s .. | new s .. | chain s _ | importCall s _
  | metaProperty s _ | yield s .. | await s _ | paren s _ | markup s .. | func s .. | body s _
  | cls s .. | method s .. | field s .. | staticBlock s _ | property s .. | cover s ..
  | nameKey s _ | computedKey s _ | privateName s _ | binding s _ | arrayPattern s _
  | objectPattern s _ | rest s _ | withDefault s .. | markupAttribute s .. | text s _ | emptyBraces s
  | directive s _ | expr s _ | var s .. | declarator s .. | ret s _ | ite s .. | forLoop s ..
  | forIn s .. | forOf s .. | whileLoop s .. | doWhile s .. | switch s .. | case s ..
  | tryBlock s .. | throw s _ | block s _ | labeled s .. | breakTo s _ | continueTo s _
  | debugger s | empty s | withBlock s .. | importModule s _ | exportDecl s _ | exportList s ..
  | exportAll s .. | exportDefault s _ | erased s .. => s
  | decl n => n.span

/-- The nodes directly inside of a node, in the order in which they are visited. -/
def children : Node → List Node
  | ident .. | this _ | super _ | null _ | bool .. | number .. | bigint .. | string .. | regex ..
  | hole _ | metaProperty .. | nameKey .. | privateName .. | binding .. | text .. | emptyBraces _
  | directive .. | breakTo .. | continueTo .. | debugger _ | empty _ | importModule ..
  | exportList .. | exportAll .. | erased .. => []
  | template _ _ values => values
  | tagged _ tag _ values => tag :: values
  | array _ items | seq _ items | arrayPattern _ items => items
  | object _ properties | objectPattern _ properties => properties
  | spread _ value | unary _ _ value | update _ _ _ value | await _ value | paren _ value
  | cover _ _ value | computedKey _ value | rest _ value | expr _ value | throw _ value
  | chain _ value | exportDecl _ value | exportDefault _ value | decl value | labeled _ _ value =>
    [value]
  | binary _ _ left right => [left, right]
  | cond _ test yes no => [test, yes, no]
  | assign _ _ target value | withDefault _ target value => [target, value]
  | member _ base _ _ | privateMember _ base _ _ => [base]
  | index _ base key _ => [base, key]
  | call _ callee arguments _ _ | new _ callee arguments _ => callee :: arguments
  | importCall _ arguments => arguments
  | yield _ _ value | ret _ value | markupAttribute _ _ value => value.toList
  | markup _ tag attributes children => tag.toList ++ attributes ++ children
  | func _ _ _ parameters inner => parameters ++ [inner]
  | body _ statements | staticBlock _ statements | block _ statements => statements
  | cls _ decorators _ superClass members => decorators ++ superClass.toList ++ members
  | method _ decorators _ _ key f => decorators ++ [key, f]
  | field _ decorators _ _ key value => decorators ++ key :: value.toList
  | property _ key isShorthand value => if isShorthand then [value] else [key, value]
  | var _ _ declarators => declarators
  | declarator _ pattern value => pattern :: value.toList
  | ite _ test yes no => test :: yes :: no.toList
  | forLoop _ start test step inner => start.toList ++ test.toList ++ step.toList ++ [inner]
  | forIn _ head values inner | forOf _ _ head values inner => [head, values, inner]
  | whileLoop _ test inner => [test, inner]
  | doWhile _ inner test => [inner, test]
  | switch _ value cases => value :: cases
  | case _ test statements => test.toList ++ statements
  | tryBlock _ guarded parameter handler finalizer =>
    guarded :: parameter.toList ++ handler.toList ++ finalizer.toList
  | withBlock _ base inner => [base, inner]

/-- A node and all nodes inside of it, each before the ones inside of it. `fuel` bounds how deep they
are nested. -/
def descendants : Nat → Node → List Node
  | 0, _ => []
  | fuel + 1, n => n :: n.children.flatMap (descendants fuel)

end Node

/-- A whole source. -/
structure Program where
  /-- The first line, if it starts with `#!`, without these two characters. -/
  hashbang : Option String
  body : List Node
  comments : List Comment
  /-- The number of bytes of the source. -/
  size : Nat
  deriving Inhabited

namespace Program

/-- A bound on how deep the nodes of a program are nested: no token starts more than this many. -/
def depth (p : Program) : Nat := 16 * p.size + 64

/-- All nodes of a program, each before the ones inside of it. -/
def nodes (p : Program) : List Node :=
  p.body.flatMap (Node.descendants p.depth)

end Program

end ModuleBuild.Script
