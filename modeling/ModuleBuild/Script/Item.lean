import ModuleBuild.Script.Names
import ModuleBuild.Script.Parse.Program

/-!
# The module syntax of a program

The top-level statements of a module as other steps need them: what each one imports, exports and
declares, and where it stands. Nothing of the inside of statements remains.

## Main definitions

* `ImportBinding` — a binding of an import.
* `ModuleItem` — a top-level statement.
* `Program.items` — the statements of a program.
* `readModule?` — the statements of a text.
-/

namespace ModuleBuild.Script

/-- A binding that an import creates. -/
inductive ImportBinding where
  | named (imported localName : String)
  | byDefault (localName : String)
  | wholeModule (localName : String)
  deriving DecidableEq, Inhabited, Repr

/-- The name of a binding. -/
def ImportBinding.localName : ImportBinding → String
  | named _ l | byDefault l | wholeModule l => l

/-- A top-level statement. Names are none where a pattern is declared. -/
inductive ModuleItem where
  | importFrom (span : Span) (source : String) (bindings : List ImportBinding)
  /-- A default export, with the place of its value and the name that its declaration has. -/
  | exportDefault (span : Span) (valueStart : Nat) (name : Option String)
  /-- An exported declaration, with its place. -/
  | exportDeclaration (span : Span) (declarationStart : Nat) (names : Option (List String))
  /-- An export list, with local and exported names, possibly of another module. -/
  | exportList (span : Span) (names : List (String × String)) (source : Option String)
  /-- An export of a whole module, possibly as one name. -/
  | exportAll (span : Span) (exported : Option String) (source : String)
  | declaration (span : Span) (names : Option (List String))
  | other (span : Span)
  deriving DecidableEq, Inhabited, Repr

namespace ModuleItem

/-- Where a statement stands. -/
def span : ModuleItem → Span
  | importFrom s .. | exportDefault s .. | exportDeclaration s .. | exportList s .. | exportAll s ..
  | declaration s _ | other s => s

/-- Whether a statement exports something. -/
def isExport : ModuleItem → Bool
  | exportDefault .. | exportDeclaration .. | exportList .. | exportAll .. => true
  | importFrom .. | declaration .. | other _ => false

end ModuleItem

/-- The binding of a specifier. -/
def ImportSpecifier.binding : ImportSpecifier → ImportBinding
  | byDefault l => .byDefault l
  | wholeModule l => .wholeModule l
  | named imported l => .named imported.text l

/-- The name of a variable that is declared without a pattern. -/
def plainDeclarator? : Node → Option String
  | .declarator _ (.binding _ name) _ => some name
  | _ => none

/-- The names of a declaration; none if it has patterns. -/
def plainNames? : Node → Option (List String)
  | .var _ _ declarators => declarators.mapM plainDeclarator?
  | .decl (.func _ _ name _ _) | .decl (.cls _ _ name _ _) => some name.toList
  | _ => some []

/-- The name of a function or class that is declared. -/
def declarationName : Node → Option String
  | .decl (.func _ _ name _ _) | .decl (.cls _ _ name _ _) => name
  | _ => none

/-- What a statement does on the top level. -/
def ModuleItem.ofNode (n : Node) : ModuleItem :=
  match n with
  | .importModule span d =>
    .importFrom span d.source.value ((d.specifiers.getD []).map (·.binding))
  | .exportDefault span value => .exportDefault span value.span.start (declarationName value)
  | .exportDecl span d => .exportDeclaration span d.span.start (plainNames? d)
  | .exportList span specifiers source _ =>
    .exportList span (specifiers.map fun s => (s.localName.text, s.exported.text))
      (source.map (·.value))
  | .exportAll span exported source _ => .exportAll span (exported.map (·.text)) source.value
  | .var span .. => .declaration span (plainNames? n)
  | .decl d => .declaration d.span (plainNames? n)
  | n => .other n.span

/-- The top-level statements of a program. -/
def Program.items (p : Program) : List ModuleItem :=
  p.body.map ModuleItem.ofNode

/-- The top-level statements of a module; none if the text is none. -/
def readModule? (code : String) : Option (List ModuleItem) :=
  (Program.parse? {} code).map (·.items)

end ModuleBuild.Script
