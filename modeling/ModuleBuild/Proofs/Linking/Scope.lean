import Mathlib
import ModuleBuild.Compile.Scripted
import ModuleBuild.Proofs.Linking.Entries

/-!
# The scope of a chunk

All modules of a chunk share one scope with the imports that stay. Linking checks the names that it
records of modules: the ones that their statements declare by name, and the ones of the variables that it
adds. The names of patterns, of `var` inside of statements and of imports that stay are bound as well,
but not checked.

## Main definitions

* `Program.topNames`, `Program.plainNames` — the names that a program binds on its top level, and the
  ones of them that are recorded.
* `ChunkLayout` — what a chunk is made of.
* `ChunkLayout.BindsOnce` — no name of a chunk is bound twice.

## Main statements

* `ModuleRecord.mem_declared` — which names the record of a module has.
* `bundle_bindsOnce_iff` — recorded names are never bound twice, and other names only where nothing is
  checked.
-/

namespace ModuleBuild

open Linking Script

/-! ## Names of programs -/

namespace Script

/-- The names that a statement declares by name. -/
def Node.plainNames : Node → List String
  | .exportDefault _ value => (declarationName value).toList
  | .exportDecl _ d => (plainNames? d).getD []
  | n => (plainNames? n).getD []

/-- The names that a statement declares, by name or by a pattern. -/
def Node.ownNames (fuel : Nat) : Node → List String
  | .exportDefault _ value => (declarationName value).toList
  | .exportDecl _ d => declaredNames fuel d
  | n => declaredNames fuel n

/-- The names that a statement binds on the top level, `var` inside of it included. -/
def Node.topNames (fuel : Nat) (n : Node) : List String :=
  n.ownNames fuel ++ hoistedNames fuel n

/-- Whether a statement exports a default value that has no name. -/
def Node.hasDefaultValue : Node → Bool
  | .exportDefault _ value => (declarationName value).isNone
  | _ => false

namespace Program

/-- The names that the statements of a program declare by name. -/
def plainNames (p : Program) : List String :=
  p.body.flatMap Node.plainNames

/-- The names that a program binds on its top level. -/
def topNames (p : Program) : List String :=
  p.body.flatMap (Node.topNames p.depth)

/-- The names that a program binds by patterns, and by `var` inside of statements. -/
def looseNames (p : Program) : List String :=
  p.topNames.filter (· ∉ p.plainNames)

/-- Whether a program exports a default value that has no name. -/
def hasDefaultValue (p : Program) : Bool :=
  p.body.any Node.hasDefaultValue

end Program

theorem boundNames_of_plain {fuel : Nat} {declarators : List Node} {names : List String}
    (h : declarators.mapM plainDeclarator? = some names) :
    (declarators.flatMap fun
      | .declarator _ pattern _ => boundNames (fuel + 1) pattern
      | _ => []) = names := by
  induction declarators generalizing names with
  | nil => simpa using h
  | cons d rest ih =>
    rw [List.mapM_cons] at h
    obtain ⟨name, hname, h⟩ := Option.bind_eq_some_iff.mp h
    obtain ⟨more, hmore, h⟩ := Option.bind_eq_some_iff.mp h
    obtain rfl := Option.some.inj h
    rw [List.flatMap_cons, ih hmore]
    unfold plainDeclarator? at hname
    split at hname
    · obtain rfl := Option.some.inj hname
      rfl
    · cases hname

theorem declaredNames_of_plain {fuel : Nat} {n : Node} {names : List String}
    (h : plainNames? n = some names) : declaredNames (fuel + 1) n = names := by
  unfold plainNames? at h
  split at h
  · exact boundNames_of_plain h
  · exact Option.some.inj h
  · exact Option.some.inj h
  · rename_i hvar hfunc hcls
    obtain rfl := Option.some.inj h
    unfold declaredNames
    split
    · exact (hvar _ _ _ rfl).elim
    · exact (hfunc _ _ _ _ _ rfl).elim
    · exact (hcls _ _ _ _ _ rfl).elim
    · rfl

theorem getD_plainNames?_subset (fuel : Nat) (n : Node) :
    (plainNames? n).getD [] ⊆ declaredNames (fuel + 1) n := by
  cases h : plainNames? n with
  | none => exact List.nil_subset _
  | some names =>
    rw [declaredNames_of_plain h, Option.getD_some]
    exact List.Subset.refl names

/-- A name that a statement declares by name is bound by it. -/
theorem Node.plainNames_subset (fuel : Nat) (n : Node) : n.plainNames ⊆ n.topNames (fuel + 1) := by
  refine List.Subset.trans ?_ (List.subset_append_left _ _)
  unfold Node.plainNames
  split
  · exact List.Subset.refl _
  · exact getD_plainNames?_subset fuel _
  · rename_i hdefault hdecl
    unfold Node.ownNames
    split
    · exact (hdefault _ _ rfl).elim
    · exact (hdecl _ _ rfl).elim
    · exact getD_plainNames?_subset fuel n

theorem Program.plainNames_subset (p : Program) : p.plainNames ⊆ p.topNames := by
  intro x hx
  obtain ⟨n, hn, hx⟩ := List.mem_flatMap.mp hx
  refine List.mem_flatMap.mpr ⟨n, hn, ?_⟩
  exact Node.plainNames_subset (16 * p.size + 63) n hx

end Script

/-! ## Names of records -/

namespace ModuleRecord

variable {id defaultLocal : String} {source : List Char}

theorem mem_declared_ofItem {n : Node} {record : ModuleRecord}
    (h : ofItem id source defaultLocal (.ofNode n) = .ok record) (x : String) :
    x ∈ record.declared ↔ x ∈ n.plainNames ∨ (n.hasDefaultValue = true ∧ x = defaultLocal) := by
  unfold ModuleItem.ofNode at h
  split at h
  case h_2 span value =>
    cases hname : declarationName value with
    | none =>
      rw [hname] at h
      obtain rfl := Except.ok.inj h
      simp [Node.plainNames, Node.hasDefaultValue, hname]
    | some name =>
      rw [hname] at h
      obtain rfl := Except.ok.inj h
      simp [Node.plainNames, Node.hasDefaultValue, hname]
  case h_3 span d =>
    cases hnames : plainNames? d with
    | none =>
      rw [hnames] at h
      cases h
    | some names =>
      rw [hnames] at h
      obtain rfl := Except.ok.inj h
      simp [Node.plainNames, Node.hasDefaultValue, hnames]
  case h_4 span specifiers from? attributes =>
    cases from? with
    | none =>
      obtain rfl := Except.ok.inj h
      simp [Node.plainNames, Node.hasDefaultValue, plainNames?]
    | some _ => cases h
  case h_5 => cases h
  case h_8 himport hdefault hdecl hlist hall hvar hdeclaration =>
    obtain rfl := Except.ok.inj h
    have hnames : n.plainNames = [] := by
      unfold Node.plainNames
      split
      · exact (hdefault _ _ rfl).elim
      · exact (hdecl _ _ rfl).elim
      · unfold plainNames?
        split
        · exact (hvar _ _ _ rfl).elim
        · exact (hdeclaration _ rfl).elim
        · exact (hdeclaration _ rfl).elim
        · rfl
    have hvalue : n.hasDefaultValue = false := by
      unfold Node.hasDefaultValue
      split
      · exact (hdefault _ _ rfl).elim
      · rfl
    simp [hnames, hvalue]
  all_goals
    obtain rfl := Except.ok.inj h
    simp [Node.plainNames, Node.hasDefaultValue, plainNames?]

/-- The names that a record has: the ones that statements declare by name, and the one of a default
value. -/
theorem mem_declared {p : Program} {record : ModuleRecord}
    (h : ofItems id source defaultLocal p.items = .ok record) (x : String) :
    x ∈ record.declared ↔ x ∈ p.plainNames ∨ (p.hasDefaultValue = true ∧ x = defaultLocal) := by
  unfold Program.items at h
  unfold Program.plainNames Program.hasDefaultValue
  generalize p.body = body at h ⊢
  induction body generalizing record with
  | nil =>
    obtain rfl := Except.ok.inj h
    simp
  | cons n rest ih =>
    obtain ⟨own, hown, h⟩ := bind_eq_ok.mp h
    obtain ⟨more, hmore, h⟩ := bind_eq_ok.mp h
    obtain rfl := Except.ok.inj h
    rw [append, List.mem_append, mem_declared_ofItem hown, ih hmore, List.flatMap_cons, List.mem_append,
      List.any_cons, Bool.or_eq_true]
    tauto

theorem ofText_ok {parse : String → Option Program} {code : String} {record : ModuleRecord}
    (h : ofText (fun code => (parse code).map Program.items) id code defaultLocal = .ok record) :
    ∃ p, parse code = some p ∧ ofItems id code.toList defaultLocal p.items = .ok record := by
  unfold ofText at h
  split at h
  · rename_i items hitems
    obtain ⟨p, hp, rfl⟩ := Option.map_eq_some_iff.mp hitems
    exact ⟨p, hp, h⟩
  · cases h

end ModuleRecord

/-! ## Chunks -/

/-- A module of a chunk with its statements. -/
structure ScopedModule where
  part : LinkedPart
  program : Program

namespace ScopedModule

/-- The names of the variables that linking adds to the module. -/
def introduced (s : ScopedModule) : List String :=
  (if s.program.hasDefaultValue then [s.part.defaultLocal] else []) ++ s.part.links.flatMap (·.locals)

/-- The names that the text of the module binds on the top level of the chunk. -/
def bound (s : ScopedModule) : List String :=
  s.program.topNames ++ s.introduced

/-- The names that linking records for the module. -/
def recorded (s : ScopedModule) : List String :=
  s.program.plainNames ++ s.introduced

theorem looseNames_subset_bound (s : ScopedModule) : s.program.looseNames ⊆ s.bound :=
  fun _ hx => List.mem_append_left _ (List.mem_filter.mp hx).1

/-- A name that a module binds is recorded, or bound by a pattern or by `var` inside of a statement. -/
theorem bound_cases (s : ScopedModule) {x : String} (hx : x ∈ s.bound) :
    x ∈ s.recorded ∨ x ∈ s.program.looseNames := by
  rcases List.mem_append.mp hx with hx | hx
  · by_cases hplain : x ∈ s.program.plainNames
    · exact .inl (List.mem_append_left _ hplain)
    · exact .inr (List.mem_filter.mpr ⟨hx, by simpa using hplain⟩)
  · exact .inl (List.mem_append_right _ hx)

end ScopedModule

/-- What a chunk is made of: imports that stay, and modules. -/
structure ChunkLayout where
  externals : List String
  modules : List ScopedModule

namespace ChunkLayout

/-- An import that stays, of one of the modules or several, binds a name. -/
def Keeps (l : ChunkLayout) (text x : String) : Prop :=
  ∃ s ∈ l.modules, ∃ link ∈ s.part.links, link.target = .outside ∧ link.record.text = text ∧
    ∃ b ∈ link.record.bindings, b.localName = x

/-- No name is bound twice on the top level of a chunk. -/
structure BindsOnce (l : ChunkLayout) : Prop where
  kept_kept : ∀ t ∈ l.externals, ∀ u ∈ l.externals, t ≠ u → ∀ x, l.Keeps t x → ¬ l.Keeps u x
  kept_module : ∀ t ∈ l.externals, ∀ s ∈ l.modules, ∀ x, l.Keeps t x → x ∉ s.bound
  module_module : ∀ s ∈ l.modules, ∀ s' ∈ l.modules, s.part.id ≠ s'.part.id → ∀ x ∈ s.bound, x ∉ s'.bound
  introduced_own : ∀ s ∈ l.modules, ∀ x ∈ s.introduced, x ∉ s.program.topNames

/-- No name is bound twice where linking checks nothing: by imports that stay, by patterns and by `var`
inside of statements, and by a variable that is added to a module with a name of its own. -/
structure UncheckedOnce (l : ChunkLayout) : Prop where
  kept_kept : ∀ t ∈ l.externals, ∀ u ∈ l.externals, t ≠ u → ∀ x, l.Keeps t x → ¬ l.Keeps u x
  kept_module : ∀ t ∈ l.externals, ∀ s ∈ l.modules, ∀ x, l.Keeps t x → x ∉ s.bound
  loose_module : ∀ s ∈ l.modules, ∀ s' ∈ l.modules, s.part.id ≠ s'.part.id →
    ∀ x ∈ s.program.looseNames, x ∉ s'.bound
  introduced_own : ∀ s ∈ l.modules, ∀ x ∈ s.introduced, x ∉ s.program.topNames

/-- The names that linking records of different modules are different. -/
def RecordsApart (l : ChunkLayout) : Prop :=
  ∀ s ∈ l.modules, ∀ s' ∈ l.modules, s.part.id ≠ s'.part.id → ∀ x ∈ s.recorded, x ∉ s'.recorded

/-- If no recorded name is bound twice, only names that are not checked can be. -/
theorem bindsOnce_iff {l : ChunkLayout} (h : l.RecordsApart) : l.BindsOnce ↔ l.UncheckedOnce := by
  constructor
  · intro hone
    refine ⟨hone.kept_kept, hone.kept_module, ?_, hone.introduced_own⟩
    intro s hs s' hs' hne x hx
    exact hone.module_module s hs s' hs' hne x (s.looseNames_subset_bound hx)
  · intro hone
    refine ⟨hone.kept_kept, hone.kept_module, ?_, hone.introduced_own⟩
    intro s hs s' hs' hne x hx hx'
    rcases s.bound_cases hx with hrecorded | hloose
    · rcases s'.bound_cases hx' with hrecorded' | hloose'
      · exact h s hs s' hs' hne x hrecorded hrecorded'
      · exact hone.loose_module s' hs' s hs (Ne.symm hne) x hloose' hx
    · exact hone.loose_module s hs s' hs' hne x hloose hx'

/-- A bundle in the format of modules is made of these imports and modules, which come from their texts
and are linked as the project says. -/
structure Describes {m : Type → Type} (project : Project m)
    (loads : String → Except BundleError String → Prop) (parse : String → Option Program)
    (name : String) (l : ChunkLayout) (b : Bundle) : Prop where
  code_eq : ∃ exports, b.code = ChunkParts.render
    { externals := l.externals, modules := l.modules.map fun s => (s.part.id, s.part.code), exports }
    name .es
  modules_eq : b.modules = l.modules.map (·.part.id)
  ids_nodup : (l.modules.map (·.part.id)).Nodup
  parse_eq : ∀ s ∈ l.modules, parse s.part.source = some s.program
  record_eq : ∀ s ∈ l.modules, ModuleRecord.ofItems s.part.id s.part.source.toList s.part.defaultLocal
    s.program.items = .ok s.part.record
  links : ∀ s ∈ l.modules, s.part.id = helperModuleId ∧ s.part.links = [] ∨
    loads s.part.id (.ok s.part.source) ∧ s.part.links.map (·.record) = s.part.record.imports ∧
      ∀ link ∈ s.part.links, project.resolve link.record.source s.part.id = .ok link.target
  externals_nodup : l.externals.Nodup
  mem_externals : ∀ t, t ∈ l.externals ↔ ∃ s ∈ l.modules, ∃ link ∈ s.part.links,
    link.target = .outside ∧ link.record.text = t

end ChunkLayout

/-! ## Bundles -/

section Bundle

variable {m : Type → Type} {project : Project m} {facts : Project.Facts} {ids : List String} {g : Graph}
  {t : LinkTrace} {parts : List LinkedPart} {parse : String → Option Program}

/-- The layout of a chunk of these parts. -/
def layoutOf (parse : String → Option Program) (externals : List String) (parts : List LinkedPart) :
    ChunkLayout :=
  ⟨externals, parts.map fun p => ⟨p, (parse p.source).getD default⟩⟩

theorem EntriesLinked.parse_ok (h : EntriesLinked project facts ids g t parts)
    (hread : project.read = fun code => (parse code).map Program.items) {p : LinkedPart}
    (hp : p ∈ parts) : parse p.source = some ((parse p.source).getD default) ∧
      ModuleRecord.ofItems p.id p.source.toList p.defaultLocal
        ((parse p.source).getD default).items = .ok p.record := by
  have hrecord := h.record_eq hp
  rw [hread] at hrecord
  obtain ⟨program, hprogram, hitems⟩ := ModuleRecord.ofText_ok hrecord
  simp [hprogram, hitems]

/-- The names that linking records of a module are the ones that the module claims. -/
theorem EntriesLinked.mem_recorded (h : EntriesLinked project facts ids g t parts)
    (hread : project.read = fun code => (parse code).map Program.items) {p : LinkedPart}
    (hp : p ∈ parts) (x : String) :
    x ∈ ScopedModule.recorded ⟨p, (parse p.source).getD default⟩ ↔ x ∈ p.allClaims := by
  have hdeclared := ModuleRecord.mem_declared (h.parse_ok hread hp).2 x
  rw [LinkedPart.mem_allClaims, hdeclared]
  unfold ScopedModule.recorded ScopedModule.introduced
  cases hvalue : ((parse p.source).getD default).hasDefaultValue with
  | false => simp
  | true => simp [or_assoc]

/-- Each name that is claimed belongs to one module. -/
theorem EntriesLinked.recordsApart (h : EntriesLinked project facts ids g t parts)
    (hread : project.read = fun code => (parse code).map Program.items) (externals : List String) :
    (layoutOf parse externals parts).RecordsApart := by
  intro s hs s' hs' hne x hx hx'
  obtain ⟨p, hp, rfl⟩ := List.mem_map.mp hs
  obtain ⟨q, hq, rfl⟩ := List.mem_map.mp hs'
  rw [h.mem_recorded hread hp] at hx
  rw [h.mem_recorded hread hq] at hx'
  have howner := (h.shows.owner_iff x p.id).mpr (.inl ⟨p, hp, rfl, hx⟩)
  have howner' := (h.shows.owner_iff x q.id).mpr (.inl ⟨q, hq, rfl, hx'⟩)
  rw [howner] at howner'
  exact hne (Option.some.inj howner')

theorem nodup_eraseDups (texts : List String) : texts.eraseDups.Nodup := by
  induction hn : texts.length using Nat.strong_induction_on generalizing texts with
  | _ n ih =>
    cases texts with
    | nil => simp
    | cons text rest =>
      rw [List.eraseDups_cons, List.nodup_cons]
      refine ⟨by simp [List.mem_eraseDups], ?_⟩
      have hshorter : (rest.filter fun other => !other == text).length < n := by
        have := List.length_filter_le (fun other => !other == text) rest
        rw [List.length_cons] at hn
        omega
      exact ih _ hshorter _ rfl

/-- A chunk of linked parts has their layout. -/
theorem EntriesLinked.describes (h : EntriesLinked project facts ids g t parts)
    (hread : project.read = fun code => (parse code).map Program.items) {chunk : ChunkParts}
    (hchunk : g.parts ids .es = .ok chunk) {name : String} {b : Bundle} (hmodules : b.modules = g.order)
    (hcode : b.code = chunk.render name .es) :
    (layoutOf parse chunk.externals parts).Describes project facts.loads parse name b := by
  obtain ⟨htexts, hexternals⟩ := h.shows.parts_ok hchunk
  have hids : (layoutOf parse chunk.externals parts).modules.map (·.part.id) = parts.map (·.id) := by
    simp [layoutOf]
  exact {
    code_eq := by
      have hlayout : (layoutOf parse chunk.externals parts).modules.map
          (fun s => (s.part.id, s.part.code)) = chunk.modules := by
        rw [htexts, layoutOf, List.map_map]
        rfl
      exact ⟨chunk.exports, hlayout ▸ hcode⟩
    modules_eq := by
      rw [hids, hmodules, h.shows.order_eq, List.append_nil]
    ids_nodup := hids ▸ h.ids_nodup
    parse_eq := by
      intro s hs
      obtain ⟨p, hp, rfl⟩ := List.mem_map.mp hs
      exact (h.parse_ok hread hp).1
    record_eq := by
      intro s hs
      obtain ⟨p, hp, rfl⟩ := List.mem_map.mp hs
      exact (h.parse_ok hread hp).2
    links := by
      intro s hs
      obtain ⟨p, hp, rfl⟩ := List.mem_map.mp hs
      exact h.links hp
    externals_nodup := by
      change chunk.externals.Nodup
      rw [hexternals]
      exact nodup_eraseDups _
    mem_externals := by
      intro text
      change text ∈ chunk.externals ↔ _
      rw [hexternals, List.mem_eraseDups, List.mem_map]
      constructor
      · rintro ⟨i, hkept, rfl⟩
        obtain ⟨p, hp, houtside⟩ := (h.shows.mem_externals i).mp hkept
        rw [List.append_nil] at hp
        obtain ⟨link, hlink, htarget, rfl⟩ := LinkedPart.mem_outside.mp houtside
        exact ⟨_, List.mem_map_of_mem hp, link, hlink, htarget, rfl⟩
      · rintro ⟨s, hs, link, hlink, htarget, rfl⟩
        obtain ⟨p, hp, rfl⟩ := List.mem_map.mp hs
        refine ⟨(link.record.source, link.record.text), (h.shows.mem_externals _).mpr ?_, rfl⟩
        exact ⟨p, by simpa using hp, LinkedPart.mem_outside.mpr ⟨link, hlink, htarget, rfl⟩⟩ }

variable [Monad m] [LawfulMonad m]

/-- Only what loading modules may give is known. -/
def Project.loadFacts (loads : String → Except BundleError String → Prop) : Project.Facts where
  loads := loads
  reach _ := True

omit [LawfulMonad m] in
theorem Project.knows_loadFacts {project : Project m}
    {loads : String → Except BundleError String → Prop}
    (hloads : ∀ id, SatisfiesM (loads id) (project.load id)) :
    project.Knows (Project.loadFacts loads) where
  load := hloads
  reach_import _ _ _ _ := trivial
  start_imports _ h := nomatch h

/-- A bundle in the format of modules never binds a recorded name twice: one that the statements of a
module declare by name, or one of a variable that linking adds. So it binds each name once just if it does
so where linking checks nothing: for imports that stay, for names in patterns and of `var` inside of
statements, and for the variables of a module against its own names. -/
theorem bundle_bindsOnce_iff (parse : String → Option Program) (input : InputPlugin m)
    (files : FileTree) (config : BundleConfig) (loads : String → Except BundleError String → Prop)
    (hloads : ∀ id, SatisfiesM (loads id) (input.loadCompiled files id)) :
    SatisfiesM (fun b => ∃ l : ChunkLayout,
        l.Describes (input.project (fun code => (parse code).map Program.items) files config.basePath)
          loads parse (config.name.getD defaultBundleName) b ∧
        l.RecordsApart ∧ (l.BindsOnce ↔ l.UncheckedOnce))
      (bundle (fun code => (parse code).map Program.items) files { config with format := .es } input
        none) := by
  have hready : EntriesReady (input.project (fun code => (parse code).map Program.items) files
      config.basePath) (Project.loadFacts loads) files.entryId config.entries := {
    reach := fun entry _ id hid => ⟨trivial, FileTree.entryId_ne_helper hid⟩
    start := fun s hs => nomatch hs }
  have hlinked : SatisfiesM _ (bundle (fun code => (parse code).map Program.items) files
      { config with format := .es } input none) :=
    bundle_linked (Project.knows_loadFacts hloads) hready
  refine SatisfiesM.imp hlinked ?_
  rintro b ⟨ids, t, parts, g, chunk, hparts, hchunk, hmodules, hcode⟩
  have happart : (layoutOf parse chunk.externals parts).RecordsApart :=
    hparts.recordsApart rfl chunk.externals
  exact ⟨_, hparts.describes rfl hchunk hmodules (hcode rfl), happart, ChunkLayout.bindsOnce_iff happart⟩

end Bundle

/-- A text that declares a name by a pattern. -/
def destructuringText : String := "const \x7b x \x7d = y;"

/-- The statements of this text. -/
def destructuring : Program where
  hashbang := none
  body := [.var ⟨0, 16⟩ .constDecl
    [.declarator ⟨6, 15⟩
      (.objectPattern ⟨6, 11⟩ [.property ⟨8, 9⟩ (.nameKey ⟨8, 9⟩ "x") true (.binding ⟨8, 9⟩ "x")])
      (some (.ident ⟨14, 15⟩ "y"))]]
  comments := []
  size := 16

/-- Two files with this text. -/
def destructuringFiles : FileTree where
  entries := [(["a"], .text destructuringText), (["b"], .text destructuringText)]
  workingDirectory := none

/-- A plugin that compiles none of these files. -/
def idlePlugin : InputPlugin Id where
  compiler := scriptedCompiler {}
  overrides := {}
  customOptions := none
  config := .ofOptions {} plainExtensions
  filter := { extensions := ModuleFilter.extensionPattern plainExtensions, included := [], excluded := [] }

/-- A chunk may bind a name twice that two modules declare by patterns. -/
theorem bundle_bindsOnce_iff_destructuring :
    let parse (code : String) : Option Program :=
      if code = destructuringText then some destructuring else none
    let config : BundleConfig := { entries := [⟨"/a"⟩, ⟨"/b"⟩] }
    let project := idlePlugin.project (fun code => (parse code).map Program.items) destructuringFiles
      config.basePath
    ∃ b l, ((bundle (fun code => (parse code).map Program.items) destructuringFiles config idlePlugin
          none).run.run {}).1 = .ok b ∧
      ChunkLayout.Describes project (fun _ _ => True) parse defaultBundleName l b ∧ l.RecordsApart ∧
      (l.BindsOnce ↔ l.UncheckedOnce) ∧ ¬ l.BindsOnce := by
  intro parse config project
  have hall := bundle_bindsOnce_iff parse idlePlugin destructuringFiles config (fun _ _ => True)
    fun _ => SatisfiesM.trivial
  rw [SatisfiesM_ExceptT_eq, SatisfiesM_StateT_eq] at hall
  have hrun := SatisfiesM_Id_eq.mp (hall {})
  have hok : ((bundle (fun code => (parse code).map Program.items) destructuringFiles config idlePlugin
      none).run.run {}).1.toOption = some ⟨"// /a\nconst \x7b x \x7d = y;\n\n// /b\nconst \x7b x \x7d = y;\n\n",
        none, ["/a", "/b"]⟩ := by
    decide +kernel
  cases hb : ((bundle (fun code => (parse code).map Program.items) destructuringFiles config idlePlugin
      none).run.run {}).1 with
  | error e =>
    rw [hb] at hok
    cases hok
  | ok b =>
    rw [hb] at hok
    obtain rfl := Option.some.inj hok
    obtain ⟨l, hdescribes, happart, hiff⟩ := hrun _ hb
    refine ⟨_, l, rfl, hdescribes, happart, hiff, ?_⟩
    have hids : l.modules.map (·.part.id) = ["/a", "/b"] := hdescribes.modules_eq.symm
    obtain ⟨s, hs, hsid⟩ : ∃ s ∈ l.modules, s.part.id = "/a" := by
      rw [← List.mem_map, hids]
      exact List.mem_cons_self
    obtain ⟨s', hs', hsid'⟩ : ∃ s ∈ l.modules, s.part.id = "/b" := by
      rw [← List.mem_map, hids]
      exact List.mem_cons_of_mem _ List.mem_cons_self
    have hbound : ∀ s ∈ l.modules, "x" ∈ s.bound := by
      intro s hs
      have hparse := hdescribes.parse_eq s hs
      simp only [parse] at hparse
      split at hparse
      · refine List.mem_append_left _ ?_
        rw [← Option.some.inj hparse]
        decide +kernel
      · cases hparse
    intro hone
    exact hone.module_module s hs s' hs' (by rw [hsid, hsid']; decide) "x" (hbound s hs) (hbound s' hs')

end ModuleBuild
