import ModuleBuild.Bundle.Link
import ModuleBuild.Helper.Importer
import ModuleBuild.Text.Words

/-!
# The module graph

Modules are visited from the entries on, each after the modules it imports, and become one text without
module syntax. They share one scope, so each top-level name belongs to one module. The shared helper
module is linked when all other modules are known, and gives way to their names.

## Main definitions

* `Project` — the modules as linking sees them, with actions of any monad.
* `Graph` — what has been linked so far.
* `Graph.declare` — claims top-level names for a module.
* `visit` — links a module behind the modules it imports.
* `linkHelpers` — links the shared helper module.
-/

namespace ModuleBuild

open Script Text

/-- Where a specifier leads. -/
inductive ImportTarget where
  | module (id : String)
  /-- Nowhere in the project; the import stays. -/
  | outside
  deriving DecidableEq, Inhabited, Repr

/-- The modules as linking sees them. -/
structure Project (m : Type → Type) where
  /-- The compiled text of a module. -/
  load : String → m (Except BundleError String)
  /-- Where a specifier leads, as seen from a module. -/
  resolve : (specifier importer : String) → Except BundleError ImportTarget
  /-- The statements of a text. -/
  read : String → Option (List ModuleItem)
  /-- The text of the shared helper module. -/
  helperText : String
  /-- No chain of modules that import each other is longer than this. -/
  depth : Nat

/-- A module whose imports of helpers are not linked yet. -/
structure DeferredModule where
  source : String
  edits : List Edit
  helperImports : List ImportRecord
  deriving DecidableEq, Inhabited, Repr

/-- What has been linked so far. -/
structure Graph where
  /-- The modules, each behind the ones it imports. -/
  order : List String := []
  modules : List (String × LinkedModule) := []
  /-- The modules that wait for the ones they import. -/
  visiting : List String := []
  /-- The module that each top-level name belongs to. -/
  owners : List (String × String) := []
  /-- The imports that stay, with their declarations. -/
  externals : List (String × String) := []
  deferred : List (String × DeferredModule) := []
  deriving DecidableEq, Inhabited, Repr

namespace Graph

/-- Claims a top-level name for a module. -/
def declareName (g : Graph) (id name : String) : Except BundleError Graph :=
  match g.owners.lookup name with
  | some first =>
    if first == id then .ok g else .error (.nameConflict name first id)
  | none => .ok { g with owners := (name, id) :: g.owners }

/-- Claims top-level names for a module. -/
def declare (g : Graph) (id : String) (names : List String) : Except BundleError Graph :=
  names.foldlM (fun g name => g.declareName id name) g

/-- The module of this name. -/
def module? (g : Graph) (id : String) : Option LinkedModule :=
  g.modules.lookup id

/-- Puts a module in place. -/
def setModule (g : Graph) (id : String) (linked : LinkedModule) : Graph :=
  { g with modules := (id, linked) :: g.modules.filter (·.1 != id) }

/-- The name of a default value without one: numbered by the modules visited so far. -/
def defaultLocal (g : Graph) : String :=
  "_default" ++ toString (g.order.length + g.visiting.length)

/-- What stands for an import of a module, and the names that it declares. -/
def importText (g : Graph) (id : String) (record : ImportRecord) :
    Except BundleError (String × List String) := do
  match g.module? id with
  | none => throw (.circularImport id id)
  | some linked =>
    let pairs ← linked.aliases id record.bindings
    return (LinkedModule.aliasLines pairs, pairs.map (·.1))

end Graph

/-- Linking, on top of the actions that load modules. -/
abbrev Linking (m : Type → Type) : Type → Type :=
  ExceptT BundleError (StateT Graph m)

namespace Linking

variable {m : Type → Type} [Monad m] {α : Type}

/-- Runs an action of the project. -/
def act (x : m (Except BundleError α)) : Linking m α := do
  match ← ExceptT.lift (StateT.lift x) with
  | .ok a => return a
  | .error e => throw e

/-- Fails as an answer does. -/
def ofAnswer : Except BundleError α → Linking m α
  | .ok a => pure a
  | .error e => throw e

end Linking

open Linking

variable {m : Type → Type} [Monad m]

/-- What visiting the imports of a module has come to. -/
structure ImportState where
  edits : List Edit
  declared : List String
  helperImports : List ImportRecord := []
  deriving Inhabited

/-- Links one import of a module. `visit` links the module it names, unless that is done. -/
def linkImport (project : Project m) (visit : String → Linking m Unit) (id : String)
    (s : ImportState) (record : ImportRecord) : Linking m ImportState := do
  match ← ofAnswer (project.resolve record.source id) with
  | .outside =>
    modify fun g => { g with externals := g.externals ++ [(record.source, record.text)] }
    return { s with edits := s.edits ++ [⟨record.span.start, record.span.stop, ""⟩] }
  | .module dependency =>
    if dependency == helperModuleId then
      return { s with helperImports := s.helperImports ++ [record] }
    else if (← get).visiting.contains dependency then throw (.circularImport dependency id)
    else
      visit dependency
      let (text, names) ← ofAnswer ((← get).importText dependency record)
      return { s with
        edits := s.edits ++ [⟨record.span.start, record.span.stop, text⟩]
        declared := s.declared ++ names }

/-- Puts a module behind the ones it imports. -/
def Graph.finish (g : Graph) (id code : String) (exports : List (String × String))
    (s : ImportState) : Except BundleError Graph := do
  let g ← g.declare id s.declared
  let g := { g with visiting := g.visiting.filter (· != id) }
  let linked := if s.helperImports.isEmpty then applyEdits code s.edits else ""
  let deferred := if s.helperImports.isEmpty then g.deferred
    else g.deferred ++ [(id, ⟨code, s.edits, s.helperImports⟩)]
  let g := g.setModule id ⟨linked, lastOfEach exports⟩
  return { g with order := g.order ++ [id], deferred }

/-- Links a module behind the modules it imports, unless that is done. A chain of imports longer than
`fuel` would pass through a module twice. -/
def visit (project : Project m) : Nat → String → Linking m Unit
  | 0, id => throw (.circularImport id id)
  | fuel + 1, id => do
    if ((← get).module? id).isSome then return
    else
      modify fun g => { g with visiting := id :: g.visiting.filter (· != id) }
      let code ← act (project.load id)
      let record ← ofAnswer (ModuleRecord.ofText project.read id code (← get).defaultLocal)
      let start : ImportState := { edits := record.edits, declared := record.declared }
      let s ← record.imports.foldlM (linkImport project (visit project fuel) id) start
      set (← ofAnswer ((← get).finish id code record.exports s))

/-! ## The shared helper module -/

/-- The first name behind `name` with a number from two on that is not taken. `fuel` bounds the names
passed over. -/
def freeName (taken : String → Bool) (name : String) : Nat → Nat → String
  | 0, i => name ++ toString i
  | fuel + 1, i =>
    if taken (name ++ toString i) then freeName taken name fuel (i + 1) else name ++ toString i

/-- New names for those of the helper module that other modules own. -/
def helperRenames (owned declared : List String) : List (String × String) :=
  let clashing := declared.filter owned.contains
  clashing.foldl (fun renames name =>
    let taken := owned ++ declared ++ renames.map (·.2)
    let fresh := freeName taken.contains name taken.length 2
    (name, fresh) :: renames.filter (·.1 != name)) []

/-- The name of a default value of the helper module. -/
def helperDefaultLocal : String := "_helpersDefault"

/-- The text of the helper module and its record, with names that no other module owns. -/
def helperModule (project : Project m) (owned : List String) :
    Except BundleError (String × ModuleRecord) := do
  let code := project.helperText
  let record ← ModuleRecord.ofText project.read helperModuleId code helperDefaultLocal
  match helperRenames owned record.declared with
  | [] => return (code, record)
  | renames =>
    let code := rename (fun name => renames.lookup name) code
    let record ← ModuleRecord.ofText project.read helperModuleId code helperDefaultLocal
    return (code, record)

/-- Links the imports of helpers of one module. -/
def Graph.linkDeferred (g : Graph) (id : String) (d : DeferredModule) : Except BundleError Graph := do
  let texts ← d.helperImports.mapM fun record => do
    let (text, names) ← g.importText helperModuleId record
    return ((⟨record.span.start, record.span.stop, text⟩ : Edit), names)
  let g ← g.declare id (texts.flatMap (·.2))
  let exports := ((g.module? id).map (·.exports)).getD []
  return g.setModule id ⟨applyEdits d.source (d.edits ++ texts.map (·.1)), exports⟩

/-- Links the helper module before all others, and the modules that import from it. -/
def Graph.linkHelpers (project : Project m) (g : Graph) : Except BundleError Graph := do
  if g.deferred.isEmpty then return g
  else
    let (code, record) ← helperModule project (g.owners.map (·.1))
    let g ← g.declare helperModuleId record.declared
    let g := g.setModule helperModuleId ⟨applyEdits code record.edits, lastOfEach record.exports⟩
    let g := { g with order := helperModuleId :: g.order }
    g.order.foldlM (fun g id =>
      match g.deferred.lookup id with
      | some d => g.linkDeferred id d
      | none => .ok g) g

end ModuleBuild
