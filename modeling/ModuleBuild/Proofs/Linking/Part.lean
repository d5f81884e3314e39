import Mathlib
import ModuleBuild.Bundle.Graph
import ModuleBuild.Proofs.Answer
import ModuleBuild.Proofs.Association

/-!
# The parts of a chunk

A graph holds what is left of the linked modules. A part keeps all that has been known about one: its
text, its record, and what has become of each of its imports.

## Main definitions

* `ImportLink`, `LinkedPart` — an import with what stands for it, and a module with its imports.
* `Project.Facts` — what is known about the answers of a project.
* `LinkedPart.LinkedBehind` — a part was made from the text of its module and the parts before it.
* `LinkedInOrder` — each of some parts was.
-/

namespace ModuleBuild

open Script Text

/-! ## Values of imports -/

/-- The exported name that a binding takes; none if it takes the whole module. -/
def Script.ImportBinding.imported? : ImportBinding → Option String
  | .named imported _ => some imported
  | .byDefault _ => some "default"
  | .wholeModule _ => none

namespace LinkedModule

variable {linked : LinkedModule} {id : String}

theorem value_error {b : ImportBinding} {e : BundleError} (h : linked.value id b = .error e) :
    ∃ name, b.imported? = some name ∧ linked.exports.lookup name = none ∧
      e = .missingExport id name := by
  have hname : ∀ name, linked.exportLocal id name = .error e →
      linked.exports.lookup name = none ∧ e = .missingExport id name := by
    intro name hname
    unfold exportLocal at hname
    split at hname
    · cases hname
    · rename_i hnone
      exact ⟨hnone, (Except.error.inj hname).symm⟩
  cases b with
  | named imported l => exact ⟨imported, rfl, hname imported h⟩
  | byDefault l => exact ⟨"default", rfl, hname "default" h⟩
  | wholeModule l => cases h

/-- Imports cannot be linked only if one of them names something that the module does not export. -/
theorem aliases_error {bindings : List ImportBinding} {e : BundleError}
    (h : linked.aliases id bindings = .error e) : ∃ b ∈ bindings, ∃ name,
      b.imported? = some name ∧ linked.exports.lookup name = none ∧ e = .missingExport id name := by
  induction bindings with
  | nil => cases h
  | cons b rest ih =>
    rcases bind_eq_error.mp h with hv | ⟨v, -, h⟩
    · exact ⟨b, List.mem_cons_self, value_error hv⟩
    rcases bind_eq_error.mp h with hmore | ⟨more, -, h⟩
    · obtain ⟨b', hb', hrest⟩ := ih hmore
      exact ⟨b', List.mem_cons_of_mem b hb', hrest⟩
    · cases h

end LinkedModule

/-! ## Parts -/

/-- An import of a module, with where it leads and the variables that stand for it. -/
structure ImportLink where
  record : ImportRecord
  target : ImportTarget
  aliases : List (String × String)
  deriving DecidableEq, Inhabited, Repr

namespace ImportLink

/-- Whether the import waits for the helper module. -/
def isHelper (link : ImportLink) : Bool :=
  link.target == .module helperModuleId

/-- The edit that puts the variables in place of the import. -/
def edit (link : ImportLink) : Edit :=
  ⟨link.record.span.start, link.record.span.stop, LinkedModule.aliasLines link.aliases⟩

/-- The variables that stand for the import. -/
def locals (link : ImportLink) : List String :=
  link.aliases.map (·.1)

/-- The import, if it stays. -/
def outside (link : ImportLink) : List (String × String) :=
  if link.target = .outside then [(link.record.source, link.record.text)] else []

theorem mem_outside {link : ImportLink} {i : String × String} :
    i ∈ link.outside ↔ link.target = .outside ∧ i = (link.record.source, link.record.text) := by
  unfold outside
  split
  · simp_all
  · simp_all

end ImportLink

/-- A module of a chunk. -/
structure LinkedPart where
  id : String
  source : String
  /-- The name of a default value without one. -/
  defaultLocal : String
  record : ModuleRecord
  links : List ImportLink
  deriving DecidableEq, Inhabited, Repr

namespace LinkedPart

/-- The imports that are linked with the module. -/
def early (p : LinkedPart) : List ImportLink :=
  p.links.filter (!·.isHelper)

/-- The imports that wait for the helper module. -/
def late (p : LinkedPart) : List ImportLink :=
  p.links.filter (·.isHelper)

/-- The exported names, each once, with the top-level names that hold their values. -/
def exports (p : LinkedPart) : List (String × String) :=
  lastOfEach p.record.exports

/-- The top-level names that the module claims when it is linked. -/
def claims (p : LinkedPart) : List String :=
  p.record.declared ++ p.early.flatMap (·.locals)

/-- The edits that are known when the module is linked. -/
def edits (p : LinkedPart) : List Edit :=
  p.record.edits ++ p.early.map (·.edit)

/-- What a graph keeps of the module. -/
def linked (p : LinkedPart) : LinkedModule :=
  ⟨if p.late.isEmpty then applyEdits p.source p.edits else "", p.exports⟩

/-- What a graph keeps of the module until the helper module is linked. -/
def deferred? (p : LinkedPart) : Option (String × DeferredModule) :=
  if p.late.isEmpty then none
  else some (p.id, ⟨p.source, p.edits, p.late.map (·.record)⟩)

/-- The imports that stay. -/
def outside (p : LinkedPart) : List (String × String) :=
  p.links.flatMap (·.outside)

theorem mem_outside {p : LinkedPart} {i : String × String} : i ∈ p.outside ↔
    ∃ link ∈ p.links, link.target = .outside ∧ i = (link.record.source, link.record.text) := by
  simp only [outside, List.mem_flatMap, ImportLink.mem_outside]

/-- What visiting the imports has come to. -/
def importState (p : LinkedPart) : ImportState where
  edits := p.edits
  declared := p.claims
  helperImports := p.late.map (·.record)

/-- The part with one more import. -/
def addLink (p : LinkedPart) (link : ImportLink) : LinkedPart :=
  { p with links := p.links ++ [link] }

section AddLink

variable (p : LinkedPart) {link : ImportLink}

theorem record_addLink : (p.addLink link).record = p.record := rfl

theorem outside_addLink (link : ImportLink) : (p.addLink link).outside = p.outside ++ link.outside := by
  simp [outside, addLink]

theorem records_addLink (link : ImportLink) :
    (p.addLink link).links.map (·.record) = p.links.map (·.record) ++ [link.record] := by
  simp [addLink]

theorem early_addLink (h : link.isHelper = false) : (p.addLink link).early = p.early ++ [link] := by
  simp [early, addLink, h]

theorem late_addLink (h : link.isHelper = false) : (p.addLink link).late = p.late := by
  simp [late, addLink, h]

theorem early_addLink_helper (h : link.isHelper = true) : (p.addLink link).early = p.early := by
  simp [early, addLink, h]

theorem late_addLink_helper (h : link.isHelper = true) :
    (p.addLink link).late = p.late ++ [link] := by
  simp [late, addLink, h]

/-- An import that does not wait adds its edit and its variables. -/
theorem importState_addLink (h : link.isHelper = false) : (p.addLink link).importState =
    { p.importState with
      edits := p.importState.edits ++ [link.edit]
      declared := p.importState.declared ++ link.locals } := by
  simp [importState, edits, claims, early_addLink p h, late_addLink p h, record_addLink]

theorem importState_addLink_helper (h : link.isHelper = true) : (p.addLink link).importState =
    { p.importState with helperImports := p.importState.helperImports ++ [link.record] } := by
  simp [importState, edits, claims, early_addLink_helper p h, late_addLink_helper p h, record_addLink]

end AddLink

end LinkedPart

/-! ## What is known about a project -/

namespace Project

variable {m : Type → Type}

/-- The modules that a record imports, up to the helper module. -/
def dependencies (project : Project m) (id : String) (imports : List ImportRecord) : List String :=
  imports.filterMap fun record =>
    match project.resolve record.source id with
    | .ok (.module d) => if d = helperModuleId then none else some d
    | _ => none

/-- The order in which modules are started that import each other as `imports` says, behind the ones
that are started already. -/
def preorder (imports : String → List String) : Nat → List String → String → List String
  | 0, started, _ => started
  | fuel + 1, started, id =>
    if id ∈ started then started
    else (imports id).foldl (preorder imports fuel) (started ++ [id])

theorem preorder_of_mem {imports : String → List String} {fuel : Nat} {started : List String}
    {id : String} (h : id ∈ started) : preorder imports fuel started id = started := by
  cases fuel with
  | zero => rfl
  | succ fuel => rw [preorder, if_pos h]

theorem preorder_succ {imports : String → List String} {fuel : Nat} {started : List String}
    {id : String} (h : id ∉ started) : preorder imports (fuel + 1) started id =
      (imports id).foldl (preorder imports fuel) (started ++ [id]) := by
  rw [preorder, if_neg h]

theorem started_foldl {f : List String → String → List String} (hf : ∀ started id, started <+: f started id)
    (ids started : List String) : started <+: ids.foldl f started := by
  induction ids generalizing started with
  | nil => exact List.prefix_refl started
  | cons id ids ih => exact (hf started id).trans (ih (f started id))

theorem started_preorder (imports : String → List String) (fuel : Nat) (started : List String)
    (id : String) : started <+: preorder imports fuel started id := by
  induction fuel generalizing started id with
  | zero => exact List.prefix_refl started
  | succ fuel ih =>
    by_cases h : id ∈ started
    · rw [preorder_of_mem h]
    · rw [preorder_succ h]
      exact (List.prefix_append started [id]).trans (started_foldl ih (imports id) (started ++ [id]))

theorem dependencies_append (project : Project m) (id : String) (done rest : List ImportRecord) :
    project.dependencies id (done ++ rest) =
      project.dependencies id done ++ project.dependencies id rest :=
  List.filterMap_append

/-- An order in which modules are started, if their imports are known before. -/
structure StartOrder where
  imports : String → List String
  order : List String

/-- What is known about the answers of a project. -/
structure Facts where
  /-- The answers that loading a module may give. -/
  loads : String → Except BundleError String → Prop
  /-- The modules that visiting may come to. -/
  reach : String → Prop
  /-- The order in which visiting starts modules, if it is known. -/
  start : Option StartOrder := none

/-- A module has this text and this record. -/
structure Analyzed (project : Project m) (facts : Facts) (id source defaultLocal : String)
    (record : ModuleRecord) : Prop where
  loaded : facts.loads id (.ok source)
  record_eq : ModuleRecord.ofText project.read id source defaultLocal = .ok record

/-- A module imports another one, which is not the helper module. -/
def Imports (project : Project m) (facts : Facts) (importer module : String) : Prop :=
  module ≠ helperModuleId ∧
    ∃ source defaultLocal record, project.Analyzed facts importer source defaultLocal record ∧
      ∃ r ∈ record.imports, project.resolve r.source importer = .ok (.module module)

/-- The facts about a project are true. -/
structure Knows [Monad m] (project : Project m) (facts : Facts) : Prop where
  load : ∀ id, SatisfiesM (facts.loads id) (project.load id)
  /-- The imports of modules that visiting may come to lead to such modules. -/
  reach_import : ∀ importer module, facts.reach importer → project.Imports facts importer module →
    facts.reach module
  start_imports : ∀ start ∈ facts.start, ∀ id source defaultLocal record, facts.reach id →
    project.Analyzed facts id source defaultLocal record →
    project.dependencies id record.imports = start.imports id

end Project

/-! ## Parts behind each other -/

section Behind

variable {m : Type → Type} (project : Project m) (facts : Project.Facts)

/-- An import leads where the project says, and its variables stand for the exports of the part that
it names. -/
structure ImportLink.LinkedBehind (earlier : List LinkedPart) (id : String) (link : ImportLink) :
    Prop where
  target_eq : project.resolve link.record.source id = .ok link.target
  outside_aliases : link.target = .outside → link.aliases = []
  helper_aliases : link.isHelper = true → link.aliases = []
  module_aliases : ∀ d, link.target = .module d → d ≠ helperModuleId →
    ∃ q ∈ earlier, q.id = d ∧ q.linked.aliases d link.record.bindings = .ok link.aliases

/-- A part comes from the text of its module, and its imports that are linked from the parts before
it. -/
structure LinkedPart.BegunBehind (earlier : List LinkedPart) (p : LinkedPart) : Prop where
  reach : facts.reach p.id
  ne_helper : p.id ≠ helperModuleId
  analyzed : project.Analyzed facts p.id p.source p.defaultLocal p.record
  links : ∀ link ∈ p.links, link.LinkedBehind project earlier p.id

/-- A part comes from the text of its module and the parts before it. -/
structure LinkedPart.LinkedBehind (earlier : List LinkedPart) (p : LinkedPart) : Prop
    extends p.BegunBehind project facts earlier where
  records_eq : p.links.map (·.record) = p.record.imports

/-- Each part comes from its module and the parts before it. -/
def LinkedInOrder (parts : List LinkedPart) : Prop :=
  ∀ earlier p later, parts = earlier ++ p :: later → p.LinkedBehind project facts earlier

variable {project facts}

theorem ImportLink.LinkedBehind.mono {earlier more : List LinkedPart} {id : String}
    {link : ImportLink} (h : link.LinkedBehind project earlier id) (hsub : earlier ⊆ more) :
    link.LinkedBehind project more id where
  target_eq := h.target_eq
  outside_aliases := h.outside_aliases
  helper_aliases := h.helper_aliases
  module_aliases d htarget hd := by
    obtain ⟨q, hq, hid, haliases⟩ := h.module_aliases d htarget hd
    exact ⟨q, hsub hq, hid, haliases⟩

theorem LinkedPart.BegunBehind.mono {earlier more : List LinkedPart} {p : LinkedPart}
    (h : p.BegunBehind project facts earlier) (hsub : earlier ⊆ more) :
    p.BegunBehind project facts more where
  reach := h.reach
  ne_helper := h.ne_helper
  analyzed := h.analyzed
  links link hlink := (h.links link hlink).mono hsub

theorem LinkedPart.BegunBehind.addLink {earlier : List LinkedPart} {p : LinkedPart}
    (h : p.BegunBehind project facts earlier) {link : ImportLink}
    (hlink : link.LinkedBehind project earlier p.id) :
    (p.addLink link).BegunBehind project facts earlier where
  reach := h.reach
  ne_helper := h.ne_helper
  analyzed := h.analyzed
  links l hl := by
    rcases List.mem_append.mp hl with hl | hl
    · exact h.links l hl
    · obtain rfl := List.mem_singleton.mp hl
      exact hlink

theorem LinkedInOrder.concat {parts : List LinkedPart} {p : LinkedPart}
    (h : LinkedInOrder project facts parts) (hp : p.LinkedBehind project facts parts) :
    LinkedInOrder project facts (parts ++ [p]) := by
  intro earlier q later heq
  rcases List.eq_nil_or_concat later with rfl | ⟨later, last, rfl⟩
  · obtain ⟨rfl, hlast⟩ := List.append_inj' heq rfl
    obtain rfl := List.cons.inj hlast |>.1
    exact hp
  · rw [List.concat_eq_append, ← List.cons_append, ← List.append_assoc] at heq
    exact h earlier q later (List.append_inj' heq rfl).1

theorem LinkedInOrder.of_mem {parts : List LinkedPart} (h : LinkedInOrder project facts parts)
    {p : LinkedPart} (hp : p ∈ parts) : ∃ earlier later, parts = earlier ++ p :: later ∧
      p.LinkedBehind project facts earlier := by
  obtain ⟨earlier, later, heq⟩ := List.append_of_mem hp
  exact ⟨earlier, later, heq, h earlier p later heq⟩

end Behind

end ModuleBuild
