import ModuleBuild.Script.Print.Expressions

/-!
# Printing statements and programs

## Main definitions

* `printStatement` — statements.
* `printers` — all printers tied together.
* `Program.print` — a program as text.
-/

namespace ModuleBuild.Script

/-! ## Blocks -/

/-- A block without its line end. -/
def printBlock (p : Printers) (statements : List Node) : Print Unit := do
  let statements := statements.filter isPrinted
  braces statements.isEmpty do
    statements.forM fun s => do
      pendingSemicolon
      p.statement s
  dropSemicolon

/-- The statements of a block. -/
def blockOf : Node → List Node
  | .block _ statements => statements
  | n => [n]

/-- The body of a branch, loop or label. -/
def printInner (p : Printers) (needsSpace : Bool) (body : Node) : Print Unit := do
  match body with
  | .block _ statements =>
    softSpace
    printBlock p statements
    softNewline
  | .empty _ =>
    text ";"
    softNewline
  | s =>
    if needsSpace && (← minifies) then text " "
    modify ({ · with indentAsSpace := true })
    p.statement s

/-- Whether an `else` behind a statement would be read as part of it. -/
def endsInOpenBranch : Nat → Node → Bool
  | 0, _ => false
  | fuel + 1, n =>
    match n with
    | .ite _ _ _ none => true
    | .ite _ _ _ (some no) => endsInOpenBranch fuel no
    | .forLoop _ _ _ _ body | .forIn _ _ _ body | .forOf _ _ _ _ body | .whileLoop _ _ body
    | .withBlock _ _ body | .labeled _ _ body => endsInOpenBranch fuel body
    | _ => false

/-- The space or line end behind the first part of a branch. -/
def printBranchEnd (hasElse : Bool) : Print Unit :=
  if hasElse then softSpace else softNewline

/-- A branch; further branches behind `else` stand on the same level. `fuel` bounds their number. -/
def printBranches (p : Printers) : Nat → Node → Print Unit
  | 0, _ => pure ()
  | fuel + 1, n =>
    match n with
    | .ite _ test yes no => do
      word "if"
      softSpace
      text "("
      p.expression .lowest {} test
      text ")"
      match yes with
      | .block _ statements =>
        softSpace
        printBlock p statements
        printBranchEnd no.isSome
      | s =>
        if endsInOpenBranch 1000 s then
          softSpace
          printBlock p [s]
          printBranchEnd no.isSome
        else
          printInner p false s
          if no.isSome then indentation
      match no with
      | none => pure ()
      | some no =>
        pendingSemicolon
        word "else"
        match no with
        | .block _ statements =>
          softSpace
          printBlock p statements
          softNewline
        | .ite .. =>
          text " "
          printBranches p fuel no
        | s => printInner p true s
    | _ => pure ()

/-! ## Declarations -/

/-- The words of a declaration of variables. -/
def VarKind.text : VarKind → String
  | varDecl => "var"
  | letDecl => "let"
  | constDecl => "const"
  | usingDecl => "using"
  | awaitUsingDecl => "await using"

/-- A declaration of variables without its end. -/
def printVariables (p : Printers) (context : Context) (kind : VarKind) (declarators : List Node) :
    Print Unit := do
  word (kind.text ++ " ")
  commaSeparated declarators fun
    | .declarator _ pattern value => do
      p.pattern pattern
      value.forM fun v => do
        softSpace
        text "="
        softSpace
        p.expression .comma context v
    | _ => pure ()

/-- The first part of a loop, in which `in` would be read as part of the loop. -/
def printLoopHead (p : Printers) (head : Node) : Print Unit :=
  match head with
  | .var _ kind declarators => printVariables p { forbidsIn := true } kind declarators
  | n => p.expression .lowest { forbidsIn := true } n

/-- A declaration of a function or class, with its line end. -/
def printDeclared (p : Printers) (n : Node) : Print Unit := do
  match n with
  | .cls .. => printClass p false n
  | n => printFunction p false n
  softNewline

/-! ## Module syntax -/

/-- A name in module syntax. -/
def printModuleName : ModuleName → Print Unit
  | .word name => word name
  | .string lit => printString lit false

/-- The conditions on a module. -/
def printAttributes (attributes : List ImportAttribute) : Print Unit := do
  if !attributes.isEmpty then
    text " with"
    softSpace
    text "\x7b"
    softSpace
    commaSeparated attributes fun a => do
      printModuleName a.key
      text ":"
      softSpace
      printString a.value false
    softSpace
    text "\x7d"

/-- A specifier: the name in the module and the name behind `as`, unless they are the same. -/
def printAlias (name otherName : ModuleName) : Print Unit := do
  printModuleName name
  if name != otherName then
    text " "
    text "as"
    text " "
    printModuleName otherName

/-- The bindings of an import. -/
def printSpecifiers (specifiers : List ImportSpecifier) : Print Unit := do
  let named := specifiers.filterMap fun
    | .named imported localName => some (imported, localName)
    | _ => none
  let others := specifiers.filter fun
    | .named .. => false
    | _ => true
  others.zipIdx.forM fun (s, i) => do
    if 0 < i then
      text ","
      softSpace
    match s with
    | .wholeModule localName =>
      if i == 0 then softSpace
      text "*"
      softSpace
      text ("as " ++ localName ++ " ")
    | s =>
      if i == 0 then text " "
      text s.localName
      if others.length == 1 && named.isEmpty then text " "
  if !named.isEmpty then
    if !others.isEmpty then text ","
    softSpace
    text "\x7b"
    softSpace
    commaSeparated named fun (imported, localName) => printAlias imported (.word localName)
    softSpace
    text "\x7d"
    softSpace

/-- An import declaration. -/
def printImport (d : ImportDecl) : Print Unit := do
  word "import"
  match d.specifiers with
  | none => softSpace
  | some [] =>
    softSpace
    text "\x7b\x7d"
    softSpace
    text "from"
    softSpace
  | some specifiers =>
    printSpecifiers specifiers
    text "from"
    softSpace
  printString d.source false
  printAttributes d.attributes
  endStatement

/-- The module behind `from`. -/
def printFrom (source : StringLit) (attributes : List ImportAttribute) : Print Unit := do
  text "from"
  softSpace
  printString source false
  printAttributes attributes

/-- An export list. -/
def printExportList (specifiers : List ExportSpecifier) (source : Option StringLit)
    (attributes : List ImportAttribute) : Print Unit := do
  word "export"
  softSpace
  text "\x7b"
  if !specifiers.isEmpty then
    softSpace
    commaSeparated specifiers fun s => printAlias s.localName s.exported
    softSpace
  text "\x7d"
  source.forM fun s => do
    softSpace
    printFrom s attributes
  endStatement

/-- An export of a whole module. -/
def printExportAll (exported : Option ModuleName) (source : StringLit)
    (attributes : List ImportAttribute) : Print Unit := do
  word "export"
  softSpace
  text "*"
  exported.forM fun name => do
    softSpace
    text "as "
    printModuleName name
  if exported.isSome then text " " else softSpace
  printFrom source attributes
  endStatement

/-- An exported declaration. -/
def printExported (p : Printers) (declaration : Node) : Print Unit := do
  word "export"
  text " "
  match declaration with
  | .var _ kind declarators =>
    printVariables p {} kind declarators
    endStatement
  | .decl n => printDeclared p n
  | n => p.statement n

/-- A default export. -/
def printExportDefault (p : Printers) (value : Node) : Print Unit := do
  word "export"
  text " default "
  match value with
  | .decl n => printDeclared p n
  | n =>
    modify fun s => { s with defaultStart := some s.written }
    p.expression .comma {} n
    endStatement

/-! ## Statements -/

/-- A case of a `switch`. -/
def printCase (p : Printers) : Node → Print Unit
  | .case _ test statements => do
    pendingSemicolon
    indentation
    match test with
    | some test =>
      text "case "
      p.expression .lowest {} test
    | none => text "default"
    text ":"
    match statements with
    | [only] => printInner p false only
    | statements =>
      softNewline
      indented do
        statements.forM fun s => do
          pendingSemicolon
          p.statement s
  | _ => pure ()

/-- A part of a loop behind a semicolon. -/
def printLoopPart (p : Printers) (part : Option Node) : Print Unit :=
  part.forM fun e => do
    softSpace
    p.expression .lowest {} e

/-- A condition in parentheses. -/
def printTest (p : Printers) (test : Node) : Print Unit := do
  text "("
  p.expression .lowest {} test
  text ")"

/-- A loop, with its words. -/
def printLoop (p : Printers) (n : Node) : Print Unit :=
  match n with
  | .forLoop _ start test step body => do
    word "for"
    softSpace
    text "("
    start.forM (printLoopHead p)
    text ";"
    printLoopPart p test
    text ";"
    printLoopPart p step
    text ")"
    printInner p false body
  | .forIn _ head object body => do
    word "for"
    softSpace
    text "("
    printEachHead head
    softSpace
    word "in "
    p.expression .lowest {} object
    text ")"
    printInner p false body
  | .forOf _ isAwait head values body => do
    word "for"
    if isAwait then text " await"
    softSpace
    text "("
    printEachHead head
    softSpace
    word "of "
    p.expression .comma {} values
    text ")"
    printInner p false body
  | .whileLoop _ test body => do
    word "while"
    softSpace
    printTest p test
    printInner p false body
  | .doWhile _ body test => do
    word "do"
    match body with
    | .block _ statements =>
      softSpace
      printBlock p statements
      softSpace
    | s =>
      softNewline
      indented do
        p.statement s
        pendingSemicolon
      indentation
    text "while"
    softSpace
    printTest p test
    endStatement
  | _ => pure ()
where
  /-- What a loop over values or keys assigns to. -/
  printEachHead : Node → Print Unit
    | .var _ kind declarators => printVariables p { forbidsIn := true } kind declarators
    | n => p.pattern n

/-- A `try` with its handlers. -/
def printTry (p : Printers) (guarded : Node) (parameter handler finalizer : Option Node) :
    Print Unit := do
  word "try"
  softSpace
  printBlock p (blockOf guarded)
  handler.forM fun h => do
    softSpace
    text "catch"
    parameter.forM fun x => do
      softSpace
      text "("
      p.pattern x
      text ")"
    softSpace
    printBlock p (blockOf h)
  finalizer.forM fun f => do
    softSpace
    text "finally"
    softSpace
    printBlock p (blockOf f)
  softNewline

/-- A word that leaves a loop, with its label. -/
def printJump (name : String) (label : Option String) : Print Unit := do
  word name
  label.forM fun l => text (" " ++ l)
  endStatement

/-- A statement behind its indentation. -/
def printStatementText (p : Printers) (n : Node) : Print Unit :=
  match n with
  | .directive _ raw => printDirective raw
  | .expr _ value => do
    modify fun s => { s with statementStart := some s.written }
    p.expression .lowest {} value
    endStatement
  | .var _ kind declarators => do
    printVariables p {} kind declarators
    endStatement
  | .decl inner => printDeclared p inner
  | .ret _ value => do
    word "return"
    value.forM fun v => do
      softSpace
      p.expression .lowest {} v
    endStatement
  | .throw _ value => do
    word "throw"
    softSpace
    p.expression .lowest {} value
    endStatement
  | .ite .. => printBranches p 100000 n
  | .forLoop .. | .forIn .. | .forOf .. | .whileLoop .. | .doWhile .. => printLoop p n
  | .switch _ value cases => do
    word "switch"
    softSpace
    printTest p value
    softSpace
    braces cases.isEmpty (cases.forM (printCase p))
    softNewline
    dropSemicolon
  | .tryBlock _ guarded parameter handler finalizer =>
    printTry p guarded parameter handler finalizer
  | .block _ statements => do
    printBlock p statements
    softNewline
  | .labeled _ label body => do
    word label
    text ":"
    printInner p false body
  | .breakTo _ label => printJump "break" label
  | .continueTo _ label => printJump "continue" label
  | .debugger _ => do
    word "debugger"
    endStatement
  | .empty _ => do
    text ";"
    softNewline
  | .withBlock _ object body => do
    word "with"
    printTest p object
    printInner p false body
  | .importModule _ d => printImport d
  | .exportDecl _ declaration => printExported p declaration
  | .exportList _ specifiers source attributes => printExportList specifiers source attributes
  | .exportAll _ exported source attributes => printExportAll exported source attributes
  | .exportDefault _ value => printExportDefault p value
  | _ => pure ()

/-- A statement, with the comments before it. -/
def printStatement (p : Printers) (n : Node) : Print Unit := do
  if isPrinted n then
    commentsAt n.span.start
    noteSource n.span
    indentation
    printStatementText p n

/-- Whether a statement is a string that would be read as a directive. -/
def isBareString : Node → Bool
  | .expr _ value =>
    match unwrapped 100 value with
    | .string .. => true
    | _ => false
  | _ => false

/-- Directives and statements. A string that would be read as a directive is put in parentheses. -/
def printStatements (p : Printers) (statements : List Node) : Print Unit :=
  (statements.filter isPrinted).zipIdx.forM fun (s, i) => do
    pendingSemicolon
    match s with
    | .expr _ value =>
      if i == 0 && isBareString s && !(← minifies) then
        noteSource value.span
        text "("
        p.expression .lowest {} value
        text ")"
        endStatement
      else p.statement s
    | s => p.statement s

/-- All printers. They refer to each other at most `fuel` levels deep. -/
def printers : Nat → Printers
  | 0 => default
  | fuel + 1 =>
    { expression := fun level context n => printExpression (printers fuel) level context n
      pattern := fun n => printPattern (printers fuel) n
      statement := fun n => printStatement (printers fuel) n
      statements := fun ns => printStatements (printers fuel) ns }

/-- A program as text, and the line of the first part that comes from the source. Marks of pure calls
are printed with the calls. -/
def Program.print (style : PrintStyle) (program : Program) : String × Option Nat :=
  let print : Print Unit := do
    program.hashbang.forM fun line => text ("#!" ++ line ++ "\n")
    (printers (4 * program.depth)).statements program.body
    pendingSemicolon
    commentsAt program.size
  let (_, s) := print.run { style, comments := program.comments.filter (!·.isPure) }
  (s.output, s.firstLine)

end ModuleBuild.Script
