import ModuleBuild.Proofs.Script.Moves

/-!
# Phrases

A part of the language that is written in one way: functions of a few kinds of statements, with one style of
line breaks and indentation. A phrase is such a piece of a program. It has a row of lexemes, and a shape of
the trees that it is read as, wherever it stands.

## Main definitions

* `Name`, `Op` — names of variables, and operators between values.
* `PhraseKind`, `Phrase` — kinds of phrases, and phrases.
* `Phrase.row` — how a phrase is written.
* `Phrase.Shape` — the trees of a phrase.
-/

namespace ModuleBuild.Script

/-! ## Names and operators -/

/-- Words that are no names of variables, or not everywhere. -/
def notableWords : List String :=
  reservedWords ++ ["await", "yield", "async", "let", "using"]

/-- The name of a variable. -/
structure Name where
  text : String
  plain : text ∉ notableWords := by decide
  deriving DecidableEq

/-- Operators between two values. -/
inductive Op where
  | or
  | and
  | equal
  | same
  | different
  | less
  | instanceOf
  | isIn
  deriving DecidableEq

namespace Op

/-- How tightly the operator binds. -/
def level : Op → Nat
  | or => 2
  | and => 3
  | equal | same | different => 7
  | less | instanceOf | isIn => 8

/-- The operator as it is written. -/
def glyph : Op → Glyph
  | or => .punct "||"
  | and => .punct "&&"
  | equal => .punct "=="
  | same => .punct "==="
  | different => .punct "!=="
  | less => .punct "<"
  | instanceOf => .word "instanceof"
  | isIn => .word "in"

/-- The operator in trees. -/
def text (op : Op) : String := operatorText op.glyph.kind

end Op

/-! ## Phrases -/

/-- Kinds of phrases. -/
inductive PhraseKind where
  /-- Properties, indices and calls behind a value; whether one may assign to the value without them, and to
  the value with them. -/
  | links (start stop : Bool)
  | value
  | unary
  /-- Operators between values that bind at least so tightly. -/
  | operation (least : Nat)
  | assignment
  | expression
  | arguments
  | properties
  /-- A statement, which may return from a function or not. -/
  | statement (returns : Bool)
  | statements (returns : Bool)

/-- Pieces of programs that are written in one way. -/
inductive Phrase : PhraseKind → Type where
  -- Links
  | noLink {a : Bool} : Phrase (.links a a)
  | member {a b : Bool} (key : String) (rest : Phrase (.links true b)) : Phrase (.links a b)
  | index {a b : Bool} (key : Phrase .expression) (rest : Phrase (.links true b)) : Phrase (.links a b)
  | call {a b : Bool} (arguments : Phrase .arguments) (rest : Phrase (.links false b)) : Phrase (.links a b)
  -- Values
  | name {b : Bool} (name : Name) (links : Phrase (.links true b)) : Phrase .value
  | string (text : String) : Phrase .value
  | number (text : String) : Phrase .value
  | null : Phrase .value
  | this : Phrase .value
  | bool (value : Bool) : Phrase .value
  | func (parameters : List Name) (body : Phrase (.statements true)) : Phrase .value
  | emptyObject : Phrase .value
  /-- An object, on one line or with its properties on lines of their own. -/
  | object (isWide : Bool) (properties : Phrase .properties) : Phrase .value
  | new (callee : Name) (arguments : Phrase .arguments) : Phrase .value
  -- Operations
  | plain (value : Phrase .value) : Phrase .unary
  | typeOf (value : Phrase .unary) : Phrase .unary
  | notParen (value : Phrase .expression) : Phrase .unary
  | increment (name : Name) : Phrase .unary
  | operand {least : Nat} (value : Phrase .unary) : Phrase (.operation least)
  | binary {least : Nat} (op : Op) (left : Phrase (.operation op.level)) (right : Phrase (.operation (op.level + 1)))
    (binds : least ≤ op.level := by decide) : Phrase (.operation least)
  | simple (value : Phrase (.operation 0)) : Phrase .assignment
  | cond (test : Phrase (.operation 0)) (yes no : Phrase .assignment) : Phrase .assignment
  | assign (name : Name) (links : Phrase (.links true true)) (value : Phrase .assignment) : Phrase .assignment
  | one (value : Phrase .assignment) : Phrase .expression
  | comma (first second : Phrase .assignment) : Phrase .expression
  -- Lists
  | noArgument : Phrase .arguments
  | lastArgument (value : Phrase .assignment) : Phrase .arguments
  | argument (value : Phrase .assignment) (rest : Phrase .arguments) : Phrase .arguments
  | lastProperty (key : String) (value : Phrase .assignment) : Phrase .properties
  | property (key : String) (value : Phrase .assignment) (rest : Phrase .properties) : Phrase .properties
  -- Statements
  | perform {returns b : Bool} (name : Name) (links : Phrase (.links true b)) : Phrase (.statement returns)
  | set {returns : Bool} (name : Name) (links : Phrase (.links true true)) (value : Phrase .assignment) :
    Phrase (.statement returns)
  /-- A function of one parameter that is called at once. -/
  | wrapped {returns : Bool} (parameter : Name) (body : Phrase (.statements true)) (value : Phrase .assignment) :
    Phrase (.statement returns)
  | var {returns : Bool} (name : Name) (value : Phrase .assignment) : Phrase (.statement returns)
  | ret (value : Phrase .expression) : Phrase (.statement true)
  | throw {returns : Bool} (value : Phrase .expression) : Phrase (.statement returns)
  | ifThen {returns : Bool} (test : Phrase .expression) (yes : Phrase (.statement returns)) :
    Phrase (.statement returns)
  | ifElse {returns : Bool} (test : Phrase .expression) (yes : Phrase (.statements returns))
    (no : Phrase (.statement returns)) : Phrase (.statement returns)
  | block {returns : Bool} (statements : Phrase (.statements returns)) : Phrase (.statement returns)
  /-- A loop of a variable that starts with a number. -/
  | forFrom {returns : Bool} (name : Name) (first : String) (test step : Phrase .expression)
    (body : Phrase (.statement returns)) : Phrase (.statement returns)
  | forIn {returns : Bool} (name : Name) (object : Phrase .expression) (body : Phrase (.statement returns)) :
    Phrase (.statement returns)
  | function {returns : Bool} (name : Name) (parameters : List Name) (body : Phrase (.statements true)) :
    Phrase (.statement returns)
  /-- An export list, with the local name before each exported one. -/
  | exports {returns : Bool} (names : List (Name × String)) : Phrase (.statement returns)
  | noStatement {returns : Bool} : Phrase (.statements returns)
  | statement {returns : Bool} (first : Phrase (.statement returns)) (rest : Phrase (.statements returns)) :
    Phrase (.statements returns)

/-! ## How phrases are written -/

/-- A word behind this white space. -/
abbrev Lexeme.word (gap : List Char) (text : String) : Lexeme := ⟨gap, .word text⟩

/-- Punctuation behind this white space. -/
abbrev Lexeme.sign (gap : List Char) (text : String) : Lexeme := ⟨gap, .punct text⟩

/-- The white space before a line. -/
def newLine (indent : Nat) : List Char :=
  '\n' :: List.replicate (2 * indent) ' '

/-- The names of parameters. -/
def parameterRow (gap : List Char) : List Name → List Lexeme
  | [] => []
  | [name] => [.word gap name.text]
  | name :: next :: rest => .word gap name.text :: .sign [] "," :: parameterRow [' '] (next :: rest)

/-- The entries of an export list. -/
def entryRow : List (Name × String) → List Lexeme
  | [] => []
  | [(name, exported)] => [.word [' '] name.text, .word [' '] "as", .word [' '] exported]
  | (name, exported) :: next :: rest =>
    .word [' '] name.text :: .word [' '] "as" :: .word [' '] exported :: .sign [] "," :: entryRow (next :: rest)

namespace Phrase

/-- The lexemes of a phrase that stands behind this white space, on a line that is indented so far. -/
def row : {k : PhraseKind} → (gap : List Char) → (indent : Nat) → Phrase k → List Lexeme
  | _, _, _, .noLink => []
  | _, _, i, .member key more => .sign [] "." :: .word [] key :: more.row [] i
  | _, _, i, .index key more => .sign [] "[" :: (key.row [] i ++ .sign [] "]" :: more.row [] i)
  | _, _, i, .call values more => .sign [] "(" :: (values.row [] i ++ .sign [] ")" :: more.row [] i)
  | _, gap, i, .name x more => .word gap x.text :: more.row [] i
  | _, gap, _, .string text => [⟨gap, .string text⟩]
  | _, gap, _, .number text => [⟨gap, .number text⟩]
  | _, gap, _, .null => [.word gap "null"]
  | _, gap, _, .this => [.word gap "this"]
  | _, gap, _, .bool b => [.word gap (if b then "true" else "false")]
  | _, gap, i, .func xs body =>
    .word gap "function" :: .sign [' '] "(" :: (parameterRow [] xs ++ .sign [] ")" :: .sign [' '] "\x7b" ::
      (body.row (newLine (i + 1)) (i + 1) ++ [.sign (newLine i) "\x7d"]))
  | _, gap, _, .emptyObject => [.sign gap "\x7b", .sign [] "\x7d"]
  | _, gap, i, .object isWide fields =>
    .sign gap "\x7b" :: (fields.row (if isWide then newLine (i + 1) else [' ']) (i + 1) ++
      [.sign (if isWide then newLine i else [' ']) "\x7d"])
  | _, gap, i, .new x values =>
    .word gap "new" :: .word [' '] x.text :: .sign [] "(" :: (values.row [] i ++ [.sign [] ")"])
  | _, gap, i, .plain v => v.row gap i
  | _, gap, i, .typeOf v => .word gap "typeof" :: v.row [' '] i
  | _, gap, i, .notParen e => .sign gap "!" :: .sign [] "(" :: (e.row [] i ++ [.sign [] ")"])
  | _, gap, _, .increment x => [.word gap x.text, .sign [] "++"]
  | _, gap, i, .operand v => v.row gap i
  | _, gap, i, .binary op left right _ => left.row gap i ++ ⟨[' '], op.glyph⟩ :: right.row [' '] i
  | _, gap, i, .simple v => v.row gap i
  | _, gap, i, .cond test yes no =>
    test.row gap i ++ .sign [' '] "?" :: (yes.row [' '] i ++ .sign [' '] ":" :: no.row [' '] i)
  | _, gap, i, .assign x more v => .word gap x.text :: (more.row [] i ++ .sign [' '] "=" :: v.row [' '] i)
  | _, gap, i, .one v => v.row gap i
  | _, gap, i, .comma v w => v.row gap i ++ .sign [] "," :: w.row [' '] i
  | _, _, _, .noArgument => []
  | _, gap, i, .lastArgument v => v.row gap i
  | _, gap, i, .argument v more => v.row gap i ++ .sign [] "," :: more.row [' '] i
  | _, gap, i, .lastProperty key v => .word gap key :: .sign [] ":" :: v.row [' '] i
  | _, gap, i, .property key v more =>
    .word gap key :: .sign [] ":" :: (v.row [' '] i ++ .sign [] "," :: more.row gap i)
  | _, gap, i, .perform x more => .word gap x.text :: (more.row [] i ++ [.sign [] ";"])
  | _, gap, i, .set x more v =>
    .word gap x.text :: (more.row [] i ++ .sign [' '] "=" :: (v.row [' '] i ++ [.sign [] ";"]))
  | _, gap, i, .wrapped x body v =>
    .sign gap "(" :: .word [] "function" :: .sign [' '] "(" :: .word [] x.text :: .sign [] ")" ::
      .sign [' '] "\x7b" :: (body.row (newLine i) i ++ .sign (newLine i) "\x7d" :: .sign [] ")" ::
        .sign [] "(" :: (v.row [] i ++ [.sign [] ")", .sign [] ";"]))
  | _, gap, i, .var x v =>
    .word gap "var" :: .word [' '] x.text :: .sign [' '] "=" :: (v.row [' '] i ++ [.sign [] ";"])
  | _, gap, i, .ret e => .word gap "return" :: (e.row [' '] i ++ [.sign [] ";"])
  | _, gap, i, .throw e => .word gap "throw" :: (e.row [' '] i ++ [.sign [] ";"])
  | _, gap, i, .ifThen test yes =>
    .word gap "if" :: .sign [' '] "(" :: (test.row [] i ++ .sign [] ")" :: yes.row [' '] i)
  | _, gap, i, .ifElse test yes no =>
    .word gap "if" :: .sign [' '] "(" :: (test.row [] i ++ .sign [] ")" :: .sign [' '] "\x7b" ::
      (yes.row (newLine (i + 1)) (i + 1) ++ .sign (newLine i) "\x7d" :: .word [' '] "else" :: no.row [' '] i))
  | _, gap, i, .block body =>
    .sign gap "\x7b" :: (body.row (newLine (i + 1)) (i + 1) ++ [.sign (newLine i) "\x7d"])
  | _, gap, i, .forFrom x first test step body =>
    .word gap "for" :: .sign [' '] "(" :: .word [] "var" :: .word [' '] x.text :: .sign [' '] "=" ::
      ⟨[' '], .number first⟩ :: .sign [] ";" :: (test.row [' '] i ++ .sign [] ";" ::
        (step.row [' '] i ++ .sign [] ")" :: body.row [' '] i))
  | _, gap, i, .forIn x e body =>
    .word gap "for" :: .sign [' '] "(" :: .word [] "var" :: .word [' '] x.text :: .word [' '] "in" ::
      (e.row [' '] i ++ .sign [] ")" :: body.row [' '] i)
  | _, gap, i, .function x xs body =>
    .word gap "function" :: .word [' '] x.text :: .sign [] "(" :: (parameterRow [] xs ++ .sign [] ")" ::
      .sign [' '] "\x7b" :: (body.row (newLine (i + 1)) (i + 1) ++ [.sign (newLine i) "\x7d"]))
  | _, gap, _, .exports names =>
    .word gap "export" :: .sign [' '] "\x7b" :: (entryRow names ++
      [.sign (if names.isEmpty then [' ', ' '] else [' ']) "\x7d", .sign [] ";"])
  | _, _, _, .noStatement => []
  | _, gap, i, .statement s more => s.row gap i ++ more.row (newLine i) i

/-- The number of lexemes of a phrase. -/
def weight : {k : PhraseKind} → Phrase k → Nat
  | _, .noLink | _, .noArgument | _, .noStatement => 0
  | _, .member _ more => more.weight + 2
  | _, .index key more => key.weight + more.weight + 2
  | _, .call values more => values.weight + more.weight + 2
  | _, .name _ more => more.weight + 1
  | _, .string _ | _, .number _ | _, .null | _, .this | _, .bool _ => 1
  | _, .func xs body => (parameterRow [] xs).length + body.weight + 5
  | _, .emptyObject | _, .increment _ => 2
  | _, .object _ fields => fields.weight + 2
  | _, .new _ values => values.weight + 4
  | _, .plain v => v.weight
  | _, .typeOf v => v.weight + 1
  | _, .notParen e => e.weight + 3
  | _, .operand v => v.weight
  | _, .binary _ left right _ => left.weight + right.weight + 1
  | _, .simple v => v.weight
  | _, .cond test yes no => test.weight + yes.weight + no.weight + 2
  | _, .assign _ more v => more.weight + v.weight + 2
  | _, .one v => v.weight
  | _, .comma v w => v.weight + w.weight + 1
  | _, .lastArgument v => v.weight
  | _, .argument v more => v.weight + more.weight + 1
  | _, .lastProperty _ v => v.weight + 2
  | _, .property _ v more => v.weight + more.weight + 3
  | _, .perform _ more => more.weight + 2
  | _, .set _ more v => more.weight + v.weight + 3
  | _, .wrapped _ body v => body.weight + v.weight + 11
  | _, .var _ v => v.weight + 4
  | _, .ret e | _, .throw e => e.weight + 2
  | _, .ifThen test yes => test.weight + yes.weight + 3
  | _, .ifElse test yes no => test.weight + yes.weight + no.weight + 6
  | _, .block body => body.weight + 2
  | _, .forFrom _ _ test step body => test.weight + step.weight + body.weight + 9
  | _, .forIn _ e body => e.weight + body.weight + 6
  | _, .function _ xs body => (parameterRow [] xs).length + body.weight + 6
  | _, .exports names => (entryRow names).length + 4
  | _, .statement s more => s.weight + more.weight

@[simp] theorem length_row {k : PhraseKind} (p : Phrase k) (gap : List Char) (indent : Nat) :
    (p.row gap indent).length = p.weight := by
  induction p generalizing gap indent
  all_goals simp only [row, weight, List.length_cons, List.length_append, List.length_nil, *]
  all_goals omega

end Phrase

/-! ## Trees of phrases -/

/-- What the trees of a kind of phrases are: nodes, lists of nodes, or nodes with links behind a node. -/
def PhraseKind.Meaning : PhraseKind → Type
  | .links .. => Node → Node → Prop
  | .arguments | .properties | .statements _ => List Node → Prop
  | _ => Node → Prop

/-- The parameters bind these names. -/
def BindsNames (xs : List Name) (ns : List Node) : Prop :=
  List.Forall₂ (fun (x : Name) n => ∃ span, n = .binding span x.text) xs ns

/-- A node in parentheses; a function remembers them. -/
def Node.inParens : Node → Node
  | .func span shape x ps inner => .func span { shape with isWrapped := true } x ps inner
  | n => n

/-- The trees of a phrase, wherever it stands. -/
def Phrase.Shape : {k : PhraseKind} → Phrase k → k.Meaning
  | _, .noLink => fun base n => n = base
  | _, .member key more => fun base n => ∃ span, more.Shape (.member span base key false) n
  | _, .index key more => fun base n => ∃ span e, key.Shape e ∧ more.Shape (.index span base e false) n
  | _, .call values more => fun base n => ∃ span vs, values.Shape vs ∧ more.Shape (.call span base vs false false) n
  | _, .name x more => fun n => ∃ span, more.Shape (.ident span x.text) n
  | _, .string text => fun n => ∃ span, n = .string span (quotedLit text)
  | _, .number text => fun n => ∃ span, n = .number span text
  | _, .null => fun n => ∃ span, n = .null span
  | _, .this => fun n => ∃ span, n = .this span
  | _, .bool b => fun n => ∃ span, n = .bool span b
  | _, .func xs body => fun n => ∃ span inner ps ss,
    n = .func span {} none ps (.body inner ss) ∧ BindsNames xs ps ∧ body.Shape ss
  | _, .emptyObject => fun n => ∃ span, n = .object span []
  | _, .object _ fields => fun n => ∃ span fs, n = .object span fs ∧ fields.Shape fs
  | _, .new x values => fun n => ∃ span inner vs, n = .new span (.ident inner x.text) vs false ∧ values.Shape vs
  | _, .plain v => v.Shape
  | _, .typeOf v => fun n => ∃ span m, n = .unary span "typeof" m ∧ v.Shape m
  | _, .notParen e => fun n => ∃ span inner m, n = .unary span "!" (.paren inner m.inParens) ∧ e.Shape m
  | _, .increment x => fun n => ∃ span inner, n = .update span "++" false (.ident inner x.text)
  | _, .operand v => v.Shape
  | _, .binary op left right _ => fun n => ∃ span a b, n = .binary span op.text a b ∧ left.Shape a ∧ right.Shape b
  | _, .simple v => v.Shape
  | _, .cond test yes no => fun n => ∃ span a b c, n = .cond span a b c ∧ test.Shape a ∧ yes.Shape b ∧ no.Shape c
  | _, .assign x more v => fun n => ∃ span inner target m,
    n = .assign span "=" target m ∧ more.Shape (.ident inner x.text) target ∧ v.Shape m
  | _, .one v => v.Shape
  | _, .comma v w => fun n => ∃ span a b, n = .seq span [a, b] ∧ v.Shape a ∧ w.Shape b
  | _, .noArgument => fun vs => vs = []
  | _, .lastArgument v => fun vs => ∃ a, vs = [a] ∧ v.Shape a
  | _, .argument v more => fun vs => ∃ a rest, vs = a :: rest ∧ v.Shape a ∧ more.Shape rest
  | _, .lastProperty key v => fun fs => ∃ span inner a, fs = [.property span (.nameKey inner key) false a] ∧ v.Shape a
  | _, .property key v more => fun fs => ∃ span inner a rest,
    fs = .property span (.nameKey inner key) false a :: rest ∧ v.Shape a ∧ more.Shape rest
  | _, .perform x more => fun n => ∃ span inner e, n = .expr span e ∧ more.Shape (.ident inner x.text) e
  | _, .set x more v => fun n => ∃ span span' inner target m,
    n = .expr span (.assign span' "=" target m) ∧ more.Shape (.ident inner x.text) target ∧ v.Shape m
  | _, .wrapped x body v => fun n => ∃ span callSpan parenSpan funcSpan paramSpan bodySpan ss m,
    n = .expr span (.call callSpan (.paren parenSpan (.func funcSpan { isWrapped := true } none
      [.binding paramSpan x.text] (.body bodySpan ss))) [m] false false) ∧ body.Shape ss ∧ v.Shape m
  | _, .var x v => fun n => ∃ span span' inner m,
    n = .var span .varDecl [.declarator span' (.binding inner x.text) (some m)] ∧ v.Shape m
  | _, .ret e => fun n => ∃ span m, n = .ret span (some m) ∧ e.Shape m
  | _, .throw e => fun n => ∃ span m, n = .throw span m ∧ e.Shape m
  | _, .ifThen test yes => fun n => ∃ span a b, n = .ite span a b none ∧ test.Shape a ∧ yes.Shape b
  | _, .ifElse test yes no => fun n => ∃ span inner a ss b,
    n = .ite span a (.block inner ss) (some b) ∧ test.Shape a ∧ yes.Shape ss ∧ no.Shape b
  | _, .block body => fun n => ∃ span ss, n = .block span ss ∧ body.Shape ss
  | _, .forFrom x first test step body => fun n => ∃ span headSpan span' inner span'' a b m,
    n = .forLoop span (some (.var headSpan .varDecl [.declarator span' (.binding inner x.text)
      (some (.number span'' first))])) (some a) (some b) m ∧ test.Shape a ∧ step.Shape b ∧ body.Shape m
  | _, .forIn x e body => fun n => ∃ span headSpan span' inner a m,
    n = .forIn span (.var headSpan .varDecl [.declarator span' (.binding inner x.text) none]) a m ∧
      e.Shape a ∧ body.Shape m
  | _, .function x xs body => fun n => ∃ span inner ps ss,
    n = .decl (.func span {} (some x.text) ps (.body inner ss)) ∧ BindsNames xs ps ∧ body.Shape ss
  | _, .exports names => fun n => ∃ span,
    n = .exportList span (names.map fun e => ⟨.word e.1.text, .word e.2⟩) none []
  | _, .noStatement => fun ss => ss = []
  | _, .statement s more => fun ss => ∃ n rest, ss = n :: rest ∧ s.Shape n ∧ more.Shape rest

end ModuleBuild.Script
