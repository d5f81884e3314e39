import Mathlib
import ModuleBuild.Proofs.Linking.Preservation

/-!
# Globals in a chunk

An identifier that a module uses and binds nowhere stands for a global. In a chunk all modules share one
scope, and linking looks at the names that modules claim, but never at the ones that they use. So a global
of a module is one in the chunk just as long as no other module brings its name there.

## Main definitions

* `Script.Program.IsGlobal` — a program uses a name and binds it nowhere.
* `ScopedModule.Brings` — a module brings a name to the top level of its chunk.
* `ChunkLayout.Free` — nothing in a chunk binds a name.

## Main statements

* `ChunkLayout.free_iff` — which globals of its modules a chunk leaves free.
* `bundle_free_iff` — which globals of its modules a bundle leaves free.
-/

namespace ModuleBuild

open Linking Script

/-! ## Globals of a program -/

namespace Script

/-- The names that a node binds by itself. -/
def Node.bindings : Node → List String
  | .binding _ name => [name]
  | .func _ _ name _ _ | .cls _ _ name _ _ => name.toList
  | .importModule _ d => (d.specifiers.getD []).map (·.localName)
  | _ => []

/-- A node is another one or stands inside of it. -/
def Node.Contains : Node → Node → Prop :=
  Relation.ReflTransGen fun n child => child ∈ n.children

/-- A node stands somewhere in a program. -/
def Program.Contains (p : Program) (n : Node) : Prop :=
  ∃ s ∈ p.body, s.Contains n

/-- A program uses a name and binds it nowhere. -/
structure Program.IsGlobal (p : Program) (x : String) : Prop where
  used : ∃ span, p.Contains (.ident span x)
  unbound : ∀ n, p.Contains n → x ∉ n.bindings

namespace Node

variable {n child d : Node} {x : String} {fuel : Nat}

theorem Contains.inside (hchild : child ∈ n.children) (h : child.Contains d) : n.Contains d :=
  Relation.ReflTransGen.head hchild h

/-- A name that a pattern binds is bound by a node of it. -/
theorem exists_binding_of_boundNames (h : x ∈ boundNames fuel n) : ∃ d, n.Contains d ∧ x ∈ d.bindings := by
  induction fuel generalizing n with
  | zero => simp [boundNames] at h
  | succ fuel ih =>
    have inside {child : Node} (hchild : child ∈ n.children) (h : x ∈ boundNames fuel child) :
        ∃ d, n.Contains d ∧ x ∈ d.bindings := by
      obtain ⟨d, hd, hx⟩ := ih h
      exact ⟨d, hd.inside hchild, hx⟩
    unfold boundNames at h
    split at h
    case h_1 span name => exact ⟨_, .refl, h⟩
    case h_2 span key isShorthand value =>
      refine inside ?_ h
      cases isShorthand <;> simp [children]
    case h_3 span pattern value => exact inside (by simp [children]) h
    case h_7 => cases h
    all_goals
      obtain ⟨child, hchild, h⟩ := List.mem_flatMap.1 h
      exact inside hchild h

/-- A name that a declaration binds is bound by a node of it. -/
theorem exists_binding_of_declaredNames (h : x ∈ declaredNames fuel n) :
    ∃ d, n.Contains d ∧ x ∈ d.bindings := by
  unfold declaredNames at h
  split at h
  case h_1 span kind declarators =>
    obtain ⟨declarator, hdeclarator, h⟩ := List.mem_flatMap.1 h
    split at h
    · obtain ⟨d, hd, hx⟩ := exists_binding_of_boundNames h
      exact ⟨d, (hd.inside (by simp [children])).inside hdeclarator, hx⟩
    · cases h
  case h_4 => cases h
  all_goals exact ⟨_, .inside (List.mem_singleton_self _) .refl, h⟩

/-- A name that `var` declares inside of a statement is bound by a node of it. -/
theorem exists_binding_of_hoistedNames (h : x ∈ hoistedNames fuel n) :
    ∃ d, n.Contains d ∧ x ∈ d.bindings := by
  induction fuel generalizing n with
  | zero => simp [hoistedNames] at h
  | succ fuel ih =>
    unfold hoistedNames at h
    split at h
    case h_4 => exact exists_binding_of_declaredNames h
    case h_5 =>
      obtain ⟨child, hchild, h⟩ := List.mem_flatMap.1 h
      obtain ⟨d, hd, hx⟩ := ih h
      exact ⟨d, hd.inside hchild, hx⟩
    all_goals cases h

/-- A name that a statement binds on the top level is bound by a node of it. -/
theorem exists_binding_of_topNames (h : x ∈ n.topNames fuel) : ∃ d, n.Contains d ∧ x ∈ d.bindings := by
  rcases List.mem_append.1 h with h | h
  · unfold ownNames at h
    split at h
    case h_1 span value =>
      unfold declarationName at h
      split at h
      case h_3 => cases h
      all_goals
        refine ⟨_, .inside (List.mem_singleton_self _) (.inside (List.mem_singleton_self _) .refl), h⟩
    case h_2 span declaration =>
      obtain ⟨d, hd, hx⟩ := exists_binding_of_declaredNames h
      exact ⟨d, hd.inside (List.mem_singleton_self _), hx⟩
    case h_3 => exact exists_binding_of_declaredNames h
  · exact exists_binding_of_hoistedNames h

end Node

namespace Program.IsGlobal

variable {p : Program} {x : String}

/-- A global is declared by no statement. -/
theorem not_mem_topNames (h : p.IsGlobal x) : x ∉ p.topNames := by
  intro hx
  obtain ⟨n, hn, hx⟩ := List.mem_flatMap.1 hx
  obtain ⟨d, hd, hx⟩ := n.exists_binding_of_topNames hx
  exact h.unbound d ⟨n, hn, hd⟩ hx

/-- A global is bound by no import. -/
theorem not_mem_importLocals (h : p.IsGlobal x) : x ∉ p.importLocals := by
  intro hx
  obtain ⟨i, hi, b, hb, rfl⟩ := mem_importLocals.1 hx
  obtain ⟨item, hitem, hi⟩ := List.mem_filterMap.1 hi
  obtain ⟨n, hn, rfl⟩ := List.mem_map.1 hitem
  refine h.unbound n ⟨n, hn, .refl⟩ ?_
  unfold ModuleItem.ofNode at hi
  split at hi
  case h_1 span d =>
    obtain rfl := Option.some.inj hi
    obtain ⟨specifier, hspecifier, rfl⟩ := List.mem_map.1 hb
    refine List.mem_map.2 ⟨specifier, hspecifier, ?_⟩
    cases specifier <;> rfl
  all_goals cases hi

end Program.IsGlobal

end Script

/-! ## Names that modules bring to a chunk -/

/-- A module brings a name to the top level of a chunk. -/
inductive ScopedModule.Brings (l : ChunkLayout) (s : ScopedModule) (x : String) : Prop
  /-- Its statements declare the name. -/
  | declared (mem : x ∈ s.program.topNames)
  /-- An import has a variable of this name, as its value has another one. -/
  | aliased {link : ImportLink} {b : ImportBinding} {q : ScopedModule} {v : String}
    (mem : link ∈ s.part.links) (mem_bindings : b ∈ link.record.bindings) (local_eq : b.localName = x)
    (mem_modules : q ∈ l.modules) (target_eq : link.target = .module q.part.id)
    (value_eq : q.part.linked.value q.part.id b = .ok v) (value_ne : v ≠ x)
  /-- An import that stays binds the name. -/
  | kept (mem : x ∈ s.kept)

namespace ChunkLayout

variable {l : ChunkLayout} {s : ScopedModule} {x : String}

/-- Nothing in a chunk binds a name, so that it stands for a global there. -/
def Free (l : ChunkLayout) (x : String) : Prop :=
  ∀ μ, ¬ l.Binds x μ

/-- All imports of the modules of a chunk lead into it. -/
def Leads (l : ChunkLayout) : Prop :=
  ∀ s ∈ l.modules, ∀ link ∈ s.part.links, link.LeadsInto (l.modules.map (·.part))

/-- The names in the imports of a module are those that its statements import. -/
def ImportsOwn (l : ChunkLayout) : Prop :=
  ∀ s ∈ l.modules, ∀ link ∈ s.part.links, ∀ b ∈ link.record.bindings, b.localName ∈ s.program.importLocals

section Imports

variable (leads : l.Leads) (ids_nodup : (l.modules.map (·.part.id)).Nodup)
include leads ids_nodup

/-- The variables for an import are those of bindings with another name than their value. -/
theorem mem_aliases_iff (hs : s ∈ l.modules) {link : ImportLink} (hlink : link ∈ s.part.links) {v : String} :
    (x, v) ∈ link.aliases ↔ ∃ b ∈ link.record.bindings, b.localName = x ∧ ∃ q ∈ l.modules,
      link.target = .module q.part.id ∧ q.part.linked.value q.part.id b = .ok v ∧ v ≠ x := by
  have into := leads s hs link hlink
  cases htarget : link.target with
  | outside => simp [into.outside htarget]
  | module d =>
    obtain ⟨p, hp, rfl, haliases⟩ := into.module d htarget
    obtain ⟨q, hq, rfl⟩ := List.mem_map.1 hp
    rw [LinkedModule.mem_aliases haliases]
    refine exists_congr fun b => and_congr_right fun _ => and_congr_right fun _ => ?_
    constructor
    · rintro ⟨hvalue, hne⟩
      exact ⟨q, hq, rfl, hvalue, hne⟩
    · rintro ⟨q', hq', hid, hvalue, hne⟩
      obtain rfl := List.inj_on_of_nodup_map ids_nodup hq hq' (ImportTarget.module.inj hid)
      exact ⟨hvalue, hne⟩

theorem Binds.of_brings (hs : s ∈ l.modules) (h : s.Brings l x) : ∃ μ, l.Binds x μ := by
  cases h with
  | declared mem => exact ⟨_, s, hs, .declared mem⟩
  | @aliased link b q v mem mem_bindings local_eq mem_modules target_eq value_eq value_ne =>
    have hpair : (b.localName, v) ∈ link.aliases := (mem_aliases_iff leads ids_nodup hs mem).2
      ⟨b, mem_bindings, rfl, q, mem_modules, target_eq, value_eq, local_eq ▸ value_ne⟩
    subst local_eq
    cases himported : b.imported? with
    | some name => exact ⟨_, s, hs, .imported mem mem_bindings (.named himported hpair)⟩
    | none =>
      obtain rfl := LinkedModule.value_whole himported value_eq
      exact ⟨_, s, hs, .imported mem mem_bindings
        (.whole himported (List.mem_map_of_mem mem_modules) target_eq hpair)⟩
  | kept mem =>
    obtain ⟨link, hlink, hx⟩ := List.mem_flatMap.1 mem
    obtain ⟨hlink, houtside⟩ := List.mem_filter.1 hlink
    obtain ⟨b, hb, rfl⟩ := List.mem_map.1 hx
    exact ⟨_, s, hs, .imported hlink hb (.outside (by simpa using houtside))⟩

theorem brings_of_binds (hs : s ∈ l.modules) {μ : Meaning} (h : s.Binds (l.modules.map (·.part)) x μ) :
    s.Brings l x ∨ s.program.hasDefaultValue = true ∧ s.part.defaultLocal = x := by
  cases h with
  | declared mem => exact .inl (.declared mem)
  | defaultValue h => exact .inr ⟨h, rfl⟩
  | @imported link b μ mem mem_bindings gives =>
    have aliased {v : String} (hpair : (b.localName, v) ∈ link.aliases) : s.Brings l b.localName := by
      obtain ⟨b', hb', hlocal, q, hq, htarget, hvalue, hne⟩ :=
        (mem_aliases_iff leads ids_nodup hs mem).1 hpair
      exact .aliased mem hb' hlocal hq htarget hvalue hne
    left
    cases gives with
    | outside target_eq =>
      refine .kept (List.mem_flatMap.2 ⟨link, ?_, List.mem_map_of_mem mem_bindings⟩)
      exact List.mem_filter.2 ⟨mem, by simpa using target_eq⟩
    | named imported mem_aliases => exact aliased mem_aliases
    | whole whole mem_parts target_eq mem_aliases => exact aliased mem_aliases

end Imports

/-- No module brings a global of its own to the chunk. -/
theorem not_brings_of_isGlobal (own : l.ImportsOwn) (hs : s ∈ l.modules) (h : s.program.IsGlobal x) :
    ¬ s.Brings l x := by
  intro hbrings
  cases hbrings with
  | declared mem => exact h.not_mem_topNames mem
  | aliased mem mem_bindings local_eq =>
    exact h.not_mem_importLocals (local_eq ▸ own s hs _ mem _ mem_bindings)
  | kept mem =>
    obtain ⟨link, hlink, hx⟩ := List.mem_flatMap.1 mem
    obtain ⟨b, hb, rfl⟩ := List.mem_map.1 hx
    exact h.not_mem_importLocals (own s hs link (List.mem_filter.1 hlink).1 b hb)

/-- A global of a module is free in the chunk just if no other module brings its name there. Names that are
made up for default values are left out. -/
theorem free_iff (leads : l.Leads) (own : l.ImportsOwn) (ids_nodup : (l.modules.map (·.part.id)).Nodup)
    (hs : s ∈ l.modules) (h : s.program.IsGlobal x)
    (hdefault : ∀ q ∈ l.modules, q.program.hasDefaultValue = true → q.part.defaultLocal ≠ x) :
    l.Free x ↔ ∀ q ∈ l.modules, q.part.id ≠ s.part.id → ¬ q.Brings l x := by
  constructor
  · intro hfree q hq _ hbrings
    obtain ⟨μ, hbinds⟩ := Binds.of_brings leads ids_nodup hq hbrings
    exact hfree μ hbinds
  · rintro hothers μ ⟨q, hq, hbinds⟩
    rcases brings_of_binds leads ids_nodup hq hbinds with hbrings | ⟨hvalue, heq⟩
    · by_cases hid : q.part.id = s.part.id
      · obtain rfl := List.inj_on_of_nodup_map ids_nodup hq hs hid
        exact not_brings_of_isGlobal own hs h hbrings
      · exact hothers q hq hid hbrings
    · exact hdefault q hq hvalue heq

end ChunkLayout

/-! ## Bundles -/

/-- What fits into some format fits into the format of modules. -/
theorem Graph.parts_es {g : Graph} {ids : List String} {format : OutputFormat} {chunk : ChunkParts}
    (h : g.parts ids format = .ok chunk) : g.parts ids .es = .ok chunk := by
  obtain ⟨exports, hexports, h⟩ := bind_eq_ok.1 h
  obtain ⟨externals, hexternals, h⟩ := bind_eq_ok.1 h
  have hkept : g.keptExternals .es = .ok externals := by
    unfold Graph.keptExternals at hexternals ⊢
    split at hexternals
    · exact hexternals
    · split at hexternals
      · exact hexternals
      · cases hexternals
  exact bind_eq_ok.2 ⟨exports, hexports, bind_eq_ok.2 ⟨externals, hkept, h⟩⟩

section Layout

variable {m : Type → Type} {project : Project m} {facts : Project.Facts} {ids : List String} {g : Graph}
  {t : LinkTrace} {parts : List LinkedPart} {parse : String → Option Program} {externals : List String}

theorem EntriesLinked.leads (h : EntriesLinked project facts ids g t parts) :
    (layoutOf parse externals parts).Leads := by
  rintro s hs link hlink
  rw [parts_layoutOf]
  obtain ⟨p, hp, rfl⟩ := List.mem_map.1 hs
  obtain ⟨earlier, later, heq⟩ := List.append_of_mem hp
  exact (h.inOrder heq hlink).mono (heq ▸ List.subset_append_left _ _)

theorem EntriesLinked.importsOwn (h : EntriesLinked project facts ids g t parts)
    (hread : project.read = fun code => (parse code).map Program.items) :
    (layoutOf parse externals parts).ImportsOwn := by
  intro s hs link hlink b hb
  obtain ⟨p, hp, rfl⟩ := List.mem_map.1 hs
  have hrecord : link.record ∈ p.record.imports := by
    rcases h.links hp with ⟨-, hnone⟩ | ⟨-, hrecords, -⟩
    · rw [hnone] at hlink
      cases hlink
    · exact hrecords ▸ List.mem_map_of_mem hlink
  have himports : _ = ((parse p.source).getD default).imports :=
    ModuleRecord.imports_ofItems (h.parse_ok hread hp).2
  refine Program.mem_importLocals.2 ⟨(link.record.source, link.record.bindings), ?_, b, hb, rfl⟩
  change _ ∈ ((parse p.source).getD default).imports
  rw [← himports]
  exact List.mem_map_of_mem hrecord

end Layout

section Bundle

variable {m : Type → Type} [Monad m] [LawfulMonad m]

/-- A bundle has a layout, whatever format and output plugin it has. -/
theorem bundle_layout (parse : String → Option Program) (input : InputPlugin m)
    (output : Option (OutputPlugin m)) (files : FileTree) (config : BundleConfig)
    (loads : String → Except BundleError String → Prop)
    (hloads : ∀ id, SatisfiesM (loads id) (input.loadCompiled files id)) :
    SatisfiesM (fun b => ∃ (l : ChunkLayout) (chunk : ChunkParts),
        l.Describes (input.project (fun code => (parse code).map Program.items) files config.basePath) loads
          parse (config.name.getD defaultBundleName)
          ⟨chunk.render (config.name.getD defaultBundleName) .es, none, b.modules⟩ ∧
        (output = none → b.code = chunk.render (config.name.getD defaultBundleName) config.format) ∧
        l.Leads ∧ l.ImportsOwn)
      (bundle (fun code => (parse code).map Program.items) files config input output) := by
  have hready : EntriesReady (input.project (fun code => (parse code).map Program.items) files
      config.basePath) (Project.loadFacts loads) files.entryId config.entries := {
    reach := fun entry _ id hid => ⟨trivial, FileTree.entryId_ne_helper hid⟩
    start := fun s hs => nomatch hs }
  refine SatisfiesM.imp (bundle_linked (Project.knows_loadFacts hloads) hready) ?_
  rintro b ⟨ids, t, parts, g, chunk, hparts, hchunk, hmodules, hcode⟩
  exact ⟨_, chunk, hparts.describes rfl (Graph.parts_es hchunk) hmodules rfl, hcode, hparts.leads,
    hparts.importsOwn rfl⟩

/-- A bundle leaves a global of one of its modules free just if no other module brings its name to the
chunk: declares it, gives it to the variable for an import, or binds it with an import that stays. Names that
are made up for default values are left out. -/
theorem bundle_free_iff (parse : String → Option Program) (input : InputPlugin m)
    (output : Option (OutputPlugin m)) (files : FileTree) (config : BundleConfig)
    (loads : String → Except BundleError String → Prop)
    (hloads : ∀ id, SatisfiesM (loads id) (input.loadCompiled files id)) :
    SatisfiesM (fun b => ∃ (l : ChunkLayout) (chunk : ChunkParts),
        l.Describes (input.project (fun code => (parse code).map Program.items) files config.basePath) loads
          parse (config.name.getD defaultBundleName)
          ⟨chunk.render (config.name.getD defaultBundleName) .es, none, b.modules⟩ ∧
        (output = none → b.code = chunk.render (config.name.getD defaultBundleName) config.format) ∧
        l.Leads ∧ ∀ s ∈ l.modules, ∀ x, s.program.IsGlobal x →
          (∀ q ∈ l.modules, q.program.hasDefaultValue = true → q.part.defaultLocal ≠ x) →
          (l.Free x ↔ ∀ q ∈ l.modules, q.part.id ≠ s.part.id → ¬ q.Brings l x))
      (bundle (fun code => (parse code).map Program.items) files config input output) := by
  refine SatisfiesM.imp (bundle_layout parse input output files config loads hloads) ?_
  rintro b ⟨l, chunk, hdescribes, hcode, leads, own⟩
  exact ⟨l, chunk, hdescribes, hcode, leads, fun s hs x hglobal hdefault =>
    ChunkLayout.free_iff leads own hdescribes.ids_nodup hs hglobal hdefault⟩

end Bundle

/-! ## Bundles of a few files -/

/-- A file with its text and what the text says. -/
structure SourceFile where
  name : String
  text : String
  program : Program

namespace SourceFile

/-- The identifier of a file. -/
def id (file : SourceFile) : String :=
  "/" ++ file.name

variable (files : List SourceFile)

/-- What a text of some files says. -/
def parse (text : String) : Option Program :=
  (files.find? (·.text == text)).map (·.program)

/-- The files in a directory. -/
def tree : FileTree where
  entries := files.map fun file => ([file.name], .text file.text)
  workingDirectory := none

/-- The files are loaded as they are. -/
def Loads (id : String) (answer : Except BundleError String) : Prop :=
  ∀ file ∈ files, id = file.id → answer = .ok file.text

/-- The files as linking sees them, with a plugin that compiles none of them. -/
def project : Project (StateT BuildState Id) :=
  idlePlugin.project (fun code => (parse files code).map Program.items) (tree files) ⟨"."⟩

/-- A bundle of some files. -/
def bundled (entries : List Path) : Except BundleError Bundle :=
  ((bundle (fun code => (parse files code).map Program.items) (tree files) { entries } idlePlugin none).run.run
    {}).1

/-- Files can be read under their identifiers, and their texts say what they are said to say. -/
structure Readable : Prop where
  texts_eq : ∀ file ∈ files, ∀ other ∈ files, file.id = other.id → file.text = other.text
  source_eq : ∀ file ∈ files, idlePlugin.source (tree files) file.id = .ok file.text
  refused : ∀ file ∈ files, idlePlugin.filter.accepts file.id = false
  ne_helper : ∀ file ∈ files, file.id ≠ helperModuleId
  parse_eq : ∀ file ∈ files, parse files file.text = some file.program

variable {files}

theorem Readable.satisfiesM_loads (h : Readable files) (id : String) :
    SatisfiesM (Loads files id) (idlePlugin.loadCompiled (tree files) id) := by
  by_cases hfile : ∃ file ∈ files, id = file.id
  · obtain ⟨file, hfile, rfl⟩ := hfile
    have hload : idlePlugin.loadCompiled (tree files) file.id = pure (.ok file.text) := by
      unfold InputPlugin.loadCompiled InputPlugin.transform
      rw [h.source_eq file hfile, h.refused file hfile, Bool.not_false, Bool.or_true]
      rfl
    rw [hload]
    exact SatisfiesM.pure fun other hother heq => congrArg Except.ok (h.texts_eq file hfile other hother heq)
  · exact SatisfiesM.of_true fun answer file hmem heq => absurd ⟨file, hmem, heq⟩ hfile

/-- What is known about a bundle holds of the one that comes out. -/
theorem of_bundled {entries : List Path} {b : Bundle} {p : Bundle → Prop}
    (h : SatisfiesM p (bundle (fun code => (parse files code).map Program.items) (tree files) { entries }
      idlePlugin none : ExceptT BundleError (StateT BuildState Id) Bundle))
    (hb : bundled files entries = .ok b) : p b := by
  rw [SatisfiesM_ExceptT_eq, SatisfiesM_StateT_eq] at h
  exact SatisfiesM_Id_eq.1 (h {}) b hb

/-- A module of a chunk has come from a file. -/
structure Becomes (file : SourceFile) (s : ScopedModule) : Prop where
  id_eq : s.part.id = file.id
  source_eq : s.part.source = file.text
  program_eq : s.program = file.program
  records_eq : s.part.links.map (·.record) = s.part.record.imports
  imports_eq : s.part.record.imports.map (fun r => (r.source, r.bindings)) = file.program.imports

/-- A file without imports links nothing. -/
theorem Becomes.links_eq {file : SourceFile} {s : ScopedModule} (h : file.Becomes s)
    (himports : file.program.imports = []) : s.part.links = [] := by
  have := h.imports_eq
  rw [himports, ← h.records_eq] at this
  exact List.map_eq_nil_iff.1 (List.map_eq_nil_iff.1 this)

/-- A file that a bundle has is a module of its chunk. -/
theorem Readable.exists_becomes (h : Readable files) {l : ChunkLayout} {b : Bundle}
    (hdescribes : l.Describes (project files) (Loads files) (parse files) defaultBundleName b)
    (file : SourceFile) (hfile : file ∈ files) (hid : file.id ∈ b.modules) :
    ∃ s ∈ l.modules, file.Becomes s := by
  rw [hdescribes.modules_eq] at hid
  obtain ⟨s, hs, hid⟩ := List.mem_map.1 hid
  rcases hdescribes.links s hs with ⟨hhelper, -⟩ | ⟨hload, hrecords, -⟩
  · exact absurd (hid.symm.trans hhelper) (h.ne_helper file hfile)
  have hsource : s.part.source = file.text := Except.ok.inj (hload file hfile hid)
  have hprogram : s.program = file.program := by
    have hparse := hdescribes.parse_eq s hs
    rw [hsource, h.parse_eq file hfile] at hparse
    exact (Option.some.inj hparse).symm
  exact ⟨s, hs, hid, hsource, hprogram, hrecords,
    hprogram ▸ ModuleRecord.imports_ofItems (hdescribes.record_eq s hs)⟩

end SourceFile

/-! ## A global that another module declares -/

/-- A module that uses a global. -/
def usingFile : SourceFile where
  name := "a"
  text := "name;"
  program := {
    hashbang := none
    body := [.expr ⟨0, 5⟩ (.ident ⟨0, 4⟩ "name")]
    comments := []
    size := 5 }

/-- A module that declares a name. -/
def declaringFile (name x : String) : SourceFile where
  name
  text := "const " ++ x ++ " = 1;"
  program := {
    hashbang := none
    body := [.var ⟨0, 15⟩ .constDecl [.declarator ⟨6, 14⟩ (.binding ⟨6, 10⟩ x) (some (.number ⟨13, 14⟩ "1"))]]
    comments := []
    size := 15 }

/-- These modules, of which one declares the name that another one uses. -/
def globalsFiles : List SourceFile :=
  [usingFile, declaringFile "b" "name", declaringFile "c" "data"]

theorem readable_globalsFiles : SourceFile.Readable globalsFiles where
  texts_eq := by decide +kernel
  source_eq := by decide +kernel
  refused := by decide +kernel
  ne_helper := by decide +kernel
  parse_eq := by
    simp only [globalsFiles, List.forall_mem_cons]
    exact ⟨rfl, rfl, rfl, nofun⟩

theorem isGlobal_usingFile : usingFile.program.IsGlobal "name" where
  used := ⟨⟨0, 4⟩, _, List.mem_singleton_self _, .inside (List.mem_singleton_self _) .refl⟩
  unbound := by
    rintro n ⟨s, hs, hcontains⟩
    obtain rfl := List.mem_singleton.1 hs
    obtain rfl | ⟨child, hchild, hcontains⟩ := Relation.ReflTransGen.cases_head hcontains
    · exact List.not_mem_nil
    obtain rfl := List.mem_singleton.1 hchild
    obtain rfl | ⟨child, hchild, -⟩ := Relation.ReflTransGen.cases_head hcontains
    · exact List.not_mem_nil
    · cases hchild

/-- In a bundle with a module that declares another name, a global is free. -/
theorem bundle_free_iff_data : ∃ (b : Bundle) (l : ChunkLayout),
    SourceFile.bundled globalsFiles [⟨"/a"⟩, ⟨"/c"⟩] = .ok b ∧
    l.Describes (SourceFile.project globalsFiles) (SourceFile.Loads globalsFiles) (SourceFile.parse globalsFiles)
      defaultBundleName b ∧
    ∃ s ∈ l.modules, s.program.IsGlobal "name" ∧ l.Free "name" := by
  have hb : SourceFile.bundled globalsFiles [⟨"/a"⟩, ⟨"/c"⟩] =
      .ok ⟨"// /a\nname;\n\n// /c\nconst data = 1;\n\n", none, ["/a", "/c"]⟩ := by
    decide +kernel
  obtain ⟨l, chunk, hdescribes, hcode, leads, hfree⟩ := SourceFile.of_bundled
    (bundle_free_iff (SourceFile.parse globalsFiles) idlePlugin none (SourceFile.tree globalsFiles)
      { entries := [⟨"/a"⟩, ⟨"/c"⟩] } (SourceFile.Loads globalsFiles) readable_globalsFiles.satisfiesM_loads) hb
  rw [← hcode rfl] at hdescribes
  obtain ⟨s, hs, husing⟩ := readable_globalsFiles.exists_becomes hdescribes usingFile
    (by simp [globalsFiles]) (by simp [SourceFile.id, usingFile])
  obtain ⟨q, hq, hdeclaring⟩ := readable_globalsFiles.exists_becomes hdescribes
    (declaringFile "c" "data") (by simp [globalsFiles]) (by simp [SourceFile.id, declaringFile])
  have hall : ∀ r ∈ l.modules, r = s ∨ r = q := by
    intro r hr
    have hmodules : ["/a", "/c"] = l.modules.map (·.part.id) := hdescribes.modules_eq
    have hmem : r.part.id ∈ ["/a", "/c"] := hmodules ▸ List.mem_map_of_mem hr
    rcases List.mem_pair.1 hmem with hid | hid
    · exact .inl (List.inj_on_of_nodup_map hdescribes.ids_nodup hr hs (hid.trans husing.id_eq.symm))
    · exact .inr (List.inj_on_of_nodup_map hdescribes.ids_nodup hr hq (hid.trans hdeclaring.id_eq.symm))
  have hglobal : s.program.IsGlobal "name" := husing.program_eq ▸ isGlobal_usingFile
  refine ⟨_, l, hb, hdescribes, s, hs, hglobal, (hfree s hs "name" hglobal ?_).2 ?_⟩
  · intro r hr hvalue
    rcases hall r hr with rfl | rfl
    · rw [husing.program_eq] at hvalue
      cases hvalue
    · rw [hdeclaring.program_eq] at hvalue
      cases hvalue
  · intro r hr hne hbrings
    obtain rfl := (hall r hr).resolve_left fun heq => hne (congrArg (·.part.id) heq)
    have hlinks := hdeclaring.links_eq rfl
    cases hbrings with
    | declared mem =>
      rw [hdeclaring.program_eq] at mem
      exact absurd mem (by decide +kernel)
    | aliased mem =>
      rw [hlinks] at mem
      cases mem
    | kept mem =>
      obtain ⟨link, hlink, -⟩ := List.mem_flatMap.1 mem
      rw [hlinks] at hlink
      cases hlink

/-- In a bundle with a module that declares its name, a global is not one any more. -/
theorem global_captured : ∃ (b : Bundle) (l : ChunkLayout),
    SourceFile.bundled globalsFiles [⟨"/a"⟩, ⟨"/b"⟩] = .ok b ∧
    l.Describes (SourceFile.project globalsFiles) (SourceFile.Loads globalsFiles) (SourceFile.parse globalsFiles)
      defaultBundleName b ∧
    ∃ s ∈ l.modules, s.program.IsGlobal "name" ∧ ∃ q ∈ l.modules, q.part.id ≠ s.part.id ∧
      "name" ∈ q.program.topNames ∧ ¬ l.Free "name" := by
  have hb : SourceFile.bundled globalsFiles [⟨"/a"⟩, ⟨"/b"⟩] =
      .ok ⟨"// /a\nname;\n\n// /b\nconst name = 1;\n\n", none, ["/a", "/b"]⟩ := by
    decide +kernel
  obtain ⟨l, chunk, hdescribes, hcode, -⟩ := SourceFile.of_bundled
    (bundle_layout (SourceFile.parse globalsFiles) idlePlugin none (SourceFile.tree globalsFiles)
      { entries := [⟨"/a"⟩, ⟨"/b"⟩] } (SourceFile.Loads globalsFiles) readable_globalsFiles.satisfiesM_loads) hb
  rw [← hcode rfl] at hdescribes
  obtain ⟨s, hs, husing⟩ := readable_globalsFiles.exists_becomes hdescribes usingFile
    (by simp [globalsFiles]) (by simp [SourceFile.id, usingFile])
  obtain ⟨q, hq, hdeclaring⟩ := readable_globalsFiles.exists_becomes hdescribes
    (declaringFile "b" "name") (by simp [globalsFiles]) (by simp [SourceFile.id, declaringFile])
  have hmem : "name" ∈ q.program.topNames := by
    rw [hdeclaring.program_eq]
    decide +kernel
  refine ⟨_, l, hb, hdescribes, s, hs, husing.program_eq ▸ isGlobal_usingFile, q, hq, ?_, hmem, ?_⟩
  · rw [husing.id_eq, hdeclaring.id_eq]
    decide
  · intro hfree
    exact hfree _ ⟨q, hq, .declared hmem⟩

end ModuleBuild
