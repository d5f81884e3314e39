import ModuleBuild.Proofs.Compile.Requests
import ModuleBuild.Proofs.Helper.Closure

/-!
# What requests leave in a file

A request for a helper is answered from what the file has, or it adds something to the file: an import, or
definitions of the helper and of what it calls. Here a request gives back its file also if it fails, so
that rows of requests can be followed past failures.

## Main definitions

* `FileState.request` — a request, with the file behind it in every case.
* `FileState.served?` — what the file answers without adding anything.
* `HelperService`, `HelperService.Provides` — where helpers come from, and what a row of them costs.
* `FileState.Emits` — what a row of requests has added to a file.

## Main statements

* `FileState.addHelper_eq_request` — requests with and without the file behind a failure.
* `FileState.emits_request`, `FileState.emits_afterRequests` — what requests add to any file.
* `FileState.requests_materialize_once` — what any row of requests leaves in a file.
-/

namespace ModuleBuild

open Text

namespace FileState

variable {file : FileState} {name reference : String}

/-! ## Requests -/

/-- A request for a helper, with the file behind it also if it fails. -/
def request (file : FileState) (name : String) : Except CompileError String × FileState :=
  match file.declared.lookup name with
  | some reference => (.ok reference, file)
  | none =>
    let (imported, importer, file) := match file.importer with
      | some importer =>
        let (reference, importer, file) := importer.resolve host file name
        (reference, some importer, file)
      | none => (none, none, file)
    let file := { file with importer }
    match imported with
    | some reference => (.ok reference, file)
    | none =>
      if helperRegistry.has name then
        let (reference, file) := file.emitHelper name
        (.ok reference, file.declare name reference)
      else (.error (.unknownHelper name), file)

/-- A request, and what a compile that ends with its first failure sees of it. -/
theorem addHelper_eq_request (file : FileState) (name : String) :
    file.addHelper name = (file.request name).1.map fun reference => (reference, (file.request name).2) := by
  unfold addHelper request
  cases file.declared.lookup name with
  | some reference => rfl
  | none =>
    cases file.importer with
    | none => cases helperRegistry.has name <;> rfl
    | some importer =>
      dsimp only
      cases (importer.resolve host file name).1 with
      | some reference => rfl
      | none => cases helperRegistry.has name <;> rfl

/-- The file behind a row of requests, failed ones included. -/
def afterRequests (file : FileState) (names : List String) : FileState :=
  names.foldl (fun file name => (file.request name).2) file

/-- The reference that a file has for a helper: a declared one first, then the one of the importer. -/
def served? (file : FileState) (name : String) : Option String :=
  (file.declared.lookup name).or (file.importer.bind (·.references.lookup name))

/-- The emission of a helper that the file has no reference for. -/
def emission (file : FileState) (name : String) : String × FileState :=
  match file.importer with
  | some importer => ((file.freshName name).1, file.withImport importer name)
  | none => ((file.emitHelper name).1, (file.emitHelper name).2.declare name (file.emitHelper name).1)

theorem request_of_served (hhas : helperRegistry.has name = true)
    (h : file.served? name = some reference) : file.request name = (.ok reference, file) := by
  unfold request
  unfold served? at h
  cases hdeclared : file.declared.lookup name with
  | some r => simp_all
  | none =>
    obtain ⟨importer, himporter, hreference⟩ := Option.bind_eq_some_iff.mp (by simpa [hdeclared] using h)
    have hsame : { file with importer := some importer } = file := by rw [← himporter]
    simp [himporter, HelperImporter.resolve, host, hhas, hreference, hsame]

/-- Names outside of the registry are refused, unless a file has them declared. -/
theorem request_of_unknown (hhas : helperRegistry.has name = false)
    (h : file.declared.lookup name = none) :
    file.request name = (.error (.unknownHelper name), file) := by
  unfold request
  cases himporter : file.importer with
  | none =>
    have hsame : { file with importer := none } = file := by rw [← himporter]
    simp [h, hhas, hsame]
  | some importer =>
    have hsame : { file with importer := some importer } = file := by rw [← himporter]
    simp [h, HelperImporter.resolve, host, hhas, hsame]

theorem request_of_declared (h : file.declared.lookup name = some reference) :
    file.request name = (.ok reference, file) := by
  simp [request, h]

theorem request_of_new (hhas : helperRegistry.has name = true) (h : file.served? name = none) :
    file.request name = (.ok (file.emission name).1, (file.emission name).2) := by
  obtain ⟨hdeclared, hreferences⟩ := Option.or_eq_none_iff.mp h
  unfold request emission
  cases himporter : file.importer with
  | none =>
    have hsame : { file with importer := none } = file := by rw [← himporter]
    simp [hdeclared, hhas, hsame]
  | some importer =>
    have hnone : importer.references.lookup name = none := by simpa [himporter] using hreferences
    simp [hdeclared, HelperImporter.resolve, host, hhas, hnone, withImport]
    rfl

/-! ## What requests add -/

end FileState

/-- Where the helpers of a file come from. -/
inductive HelperService where
  /-- The shared module of an importer. -/
  | importer (moduleId : String)
  /-- A runtime package. -/
  | runtime (moduleName : String) (useModules : Bool) (format : ModuleFormat)
  /-- Definitions in the file itself. -/
  | inline
  /-- The global namespace. -/
  | external
  deriving DecidableEq, Inhabited, Repr

/-- A text defines a helper under a binding. -/
def Defines (helper : String × String) (text : String) : Prop :=
  ∃ definition image, helperRegistry.get? helper.1 = some definition ∧
    image definition.localName = some helper.2 ∧ text = rename image definition.body

/-- The reference to a helper on the global namespace. -/
def externalReference (name : String) : String :=
  helperNamespace ++ "." ++ name

/-- What a file has for a row of helpers, each with its reference: imports, definitions and bindings of
its own. -/
def HelperService.Provides (service : HelperService) (helpers : List (String × String))
    (imports : List InjectedImport) (definitions bindings : List String) : Prop :=
  match service with
  | importer moduleId =>
    imports = helpers.map (fun h => .named h.1 h.2 moduleId) ∧ definitions = [] ∧
      bindings = helpers.map (·.2)
  | runtime moduleName useModules format =>
    imports = helpers.map (fun h => .default h.2 (FileState.runtimePath moduleName useModules format h.1)) ∧
      definitions = [] ∧ bindings = helpers.map (·.2)
  | inline => imports = [] ∧ List.Forall₂ Defines helpers definitions ∧ bindings = helpers.map (·.2)
  | external =>
    imports = [] ∧ definitions = [] ∧ bindings = [] ∧
      ∀ h ∈ helpers, h.2 = externalReference h.1

theorem HelperService.Provides.nil (service : HelperService) : service.Provides [] [] [] [] := by
  cases service <;> simp [Provides]

theorem HelperService.Provides.append {service : HelperService} {helpers helpers' : List (String × String)}
    {imports imports' : List InjectedImport} {definitions definitions' bindings bindings' : List String}
    (h : service.Provides helpers imports definitions bindings)
    (h' : service.Provides helpers' imports' definitions' bindings') :
    service.Provides (helpers ++ helpers') (imports ++ imports') (definitions ++ definitions')
      (bindings ++ bindings') := by
  cases service with
  | importer moduleId => simp_all [Provides]
  | runtime moduleName useModules format => simp_all [Provides]
  | inline =>
    obtain ⟨rfl, hdefinitions, rfl⟩ := h
    obtain ⟨rfl, hdefinitions', rfl⟩ := h'
    exact ⟨rfl, List.rel_append hdefinitions hdefinitions', by simp⟩
  | external =>
    obtain ⟨rfl, rfl, rfl, hreferences⟩ := h
    obtain ⟨rfl, rfl, rfl, hreferences'⟩ := h'
    exact ⟨rfl, rfl, rfl, fun b hb => (List.mem_append.mp hb).elim (hreferences b) (hreferences' b)⟩

namespace FileState

variable {start middle file file' : FileState} {name reference : String}
  {added more : List (String × String)} {helper : Helper}

/-- Where the helpers of a file come from. -/
def service (file : FileState) : HelperService :=
  match file.importer, file.mode with
  | some importer, _ => .importer importer.moduleId
  | none, .runtime moduleName useModules => .runtime moduleName useModules file.format
  | none, .inline => .inline
  | none, .external => .external

/-- What a file has for some helpers that another one does not have. -/
def Materialized (start : FileState) (helpers : List (String × String)) (file : FileState) : Prop :=
  ∃ imports definitions bindings, start.service.Provides helpers imports definitions bindings ∧
    file.imports = start.imports ++ imports ∧ file.inlineHelpers = start.inlineHelpers ++ definitions ∧
    file.names = bindings.reverse ++ start.names

/-- What requests add to a file: helpers of the registry that the file had no reference for, each once. -/
structure Emits (start : FileState) (added : List (String × String)) (file : FileState) : Prop where
  code_eq : file.code = start.code
  service_eq : file.service = start.service
  nodup : (added.map (·.1)).Nodup
  new : ∀ b ∈ added, start.served? b.1 = none
  available : ∀ b ∈ added, helperRegistry.has b.1 = true
  served_iff : ∀ name reference, file.served? name = some reference ↔
    (name, reference) ∈ added ∨ start.served? name = some reference
  materialized : Materialized start added file

namespace Emits

theorem refl (file : FileState) : Emits file [] file where
  code_eq := rfl
  service_eq := rfl
  nodup := List.nodup_nil
  new := by simp
  available := by simp
  served_iff := by simp
  materialized := ⟨[], [], [], .nil _, by simp, by simp, by simp⟩

theorem trans (h : Emits start added middle) (h' : Emits middle more file) :
    Emits start (added ++ more) file where
  code_eq := h'.code_eq.trans h.code_eq
  service_eq := h'.service_eq.trans h.service_eq
  nodup := by
    rw [List.map_append]
    refine List.Nodup.append h.nodup h'.nodup fun name hadded hmore => ?_
    obtain ⟨b, hb, rfl⟩ := List.mem_map.mp hadded
    obtain ⟨b', hb', hname⟩ := List.mem_map.mp hmore
    have hserved := (h.served_iff b.1 b.2).mpr (.inl hb)
    rw [← hname, h'.new b' hb'] at hserved
    cases hserved
  new b hb := by
    rcases List.mem_append.mp hb with hb | hb
    · exact h.new b hb
    · by_contra hserved
      obtain ⟨reference, hreference⟩ := Option.ne_none_iff_exists'.mp hserved
      have := (h.served_iff b.1 reference).mpr (.inr hreference)
      rw [h'.new b hb] at this
      cases this
  available b hb := (List.mem_append.mp hb).elim (h.available b) (h'.available b)
  served_iff name reference := by
    rw [h'.served_iff, h.served_iff, List.mem_append]
    tauto
  materialized := by
    obtain ⟨imports, definitions, bindings, hprovides, himports, hdefinitions, hbindings⟩ := h.materialized
    obtain ⟨imports', definitions', bindings', hprovides', himports', hdefinitions', hbindings'⟩ :=
      h'.materialized
    rw [h.service_eq] at hprovides'
    refine ⟨_, _, _, hprovides.append hprovides', ?_, ?_, ?_⟩
    · rw [himports', himports, List.append_assoc]
    · rw [hdefinitions', hdefinitions, List.append_assoc]
    · rw [hbindings', hbindings, List.reverse_append, List.append_assoc]

/-- What a file has a reference for, it keeps. -/
theorem served (h : Emits start added file) (hserved : start.served? name = some reference) :
    file.served? name = some reference :=
  (h.served_iff name reference).mpr (.inr hserved)

/-- One more helper. -/
theorem single (hcode : file'.code = file.code) (hservice : file'.service = file.service)
    (hnew : file.served? name = none) (hhas : helperRegistry.has name = true)
    (hserved : ∀ n, file'.served? n = if n = name then some reference else file.served? n)
    (hmaterialized : Materialized file [(name, reference)] file') :
    Emits file [(name, reference)] file' where
  code_eq := hcode
  service_eq := hservice
  nodup := List.nodup_singleton _
  new b hb := by rw [List.mem_singleton.mp hb, hnew]
  available b hb := by rw [List.mem_singleton.mp hb, hhas]
  served_iff n r := by
    rw [hserved, List.mem_singleton, Prod.mk.injEq]
    by_cases hn : n = name
    · subst hn
      simp [hnew, eq_comm]
    · simp [hn]
  materialized := hmaterialized

end Emits

theorem served?_declare (file : FileState) (name reference n : String) :
    (file.declare name reference).served? n = if n = name then some reference else file.served? n := by
  unfold served? declare
  by_cases hn : n = name
  · simp [hn]
  · have hkey : (n == name) = false := by simpa using hn
    simp [List.lookup_cons, hkey, hn]

/-- A helper that the file has may be declared again. -/
theorem Emits.declare (h : Emits start added file) (hserved : file.served? name = some reference) :
    Emits start added (file.declare name reference) where
  code_eq := h.code_eq
  service_eq := h.service_eq
  nodup := h.nodup
  new := h.new
  available := h.available
  served_iff n r := by
    rw [← h.served_iff, served?_declare]
    by_cases hn : n = name
    · subst hn
      simp [hserved]
    · simp [hn]
  materialized := h.materialized

theorem service_eq_inline_iff :
    file.service = .inline ↔ file.importer = none ∧ file.mode = .inline := by
  unfold service
  split <;> simp_all

/-- A helper is declared inline unless it is declared. -/
theorem emits_addInline (himporter : file.importer = none) (hmode : file.mode = .inline)
    (hget : helperRegistry.get? helper.name = some helper) :
    ∃ added, Emits file added (file.addInline helper) ∧
      ∃ reference, (file.addInline helper).served? helper.name = some reference := by
  unfold addInline
  split
  · rename_i hdeclared
    obtain ⟨reference, hreference⟩ := Option.isSome_iff_exists.mp hdeclared
    exact ⟨[], .refl file, reference, by simp [served?, hreference]⟩
  · rename_i hdeclared
    have hnew : file.served? helper.name = none := by
      rw [Option.not_isSome_iff_eq_none] at hdeclared
      rw [served?, hdeclared, himporter]
      rfl
    have hserved := served?_declare
      { (file.freshName helper.name).2 with
        inlineHelpers := file.inlineHelpers ++
          [rename ((file.freshName helper.name).2.renames helper (file.freshName helper.name).1) helper.body] }
      helper.name (file.freshName helper.name).1
    refine ⟨[(helper.name, (file.freshName helper.name).1)], .single rfl rfl hnew
      (Registry.has_iff.mpr ⟨helper, hget⟩) hserved ?_, _, (hserved helper.name).trans (if_pos rfl)⟩
    refine ⟨[], [_], [(file.freshName helper.name).1], ?_, (List.append_nil _).symm, rfl, rfl⟩
    rw [service_eq_inline_iff.mpr ⟨himporter, hmode⟩]
    exact ⟨rfl, .cons ⟨helper, _, hget, if_pos (beq_self_eq_true _), rfl⟩ .nil, rfl⟩

/-- The definitions of a row of helpers, each unless it is declared. -/
theorem emits_foldl_addInline {helpers : List Helper} (himporter : file.importer = none)
    (hmode : file.mode = .inline) (hget : ∀ h ∈ helpers, helperRegistry.get? h.name = some h) :
    ∃ added, Emits file added (helpers.foldl addInline file) ∧
      ∀ h ∈ helpers, ∃ reference, (helpers.foldl addInline file).served? h.name = some reference := by
  induction helpers generalizing file with
  | nil => exact ⟨[], .refl file, by simp⟩
  | cons helper rest ih =>
    obtain ⟨added, hadded, reference, hreference⟩ :=
      emits_addInline himporter hmode (hget helper List.mem_cons_self)
    have hsame : (file.addInline helper).importer = none ∧ (file.addInline helper).mode = .inline := by
      unfold addInline
      split <;> exact ⟨himporter, hmode⟩
    obtain ⟨more, hmore, hserved⟩ :=
      ih hsame.1 hsame.2 fun h hh => hget h (List.mem_cons_of_mem _ hh)
    refine ⟨added ++ more, hadded.trans hmore, fun h hh => ?_⟩
    rcases List.mem_cons.mp hh with rfl | hh
    · exact ⟨reference, hmore.served hreference⟩
    · exact hserved h hh

theorem emits_withImport {importer : HelperImporter} (himporter : file.importer = some importer)
    (hhas : helperRegistry.has name = true) (hnew : file.served? name = none) :
    Emits file [(name, (file.freshName name).1)] (file.withImport importer name) := by
  obtain ⟨hdeclared, -⟩ := Option.or_eq_none_iff.mp hnew
  have hservice : file.service = .importer importer.moduleId := by simp [service, himporter]
  refine .single rfl (by rw [hservice]; rfl) hnew hhas (fun n => ?_) ?_
  · by_cases hn : n = name
    · subst hn
      simp [served?, withImport, addNamedImport, freshName, hdeclared]
    · have hkey : (n == name) = false := by simpa using hn
      simp [served?, withImport, addNamedImport, freshName, himporter, List.lookup_cons, hkey, hn]
  · refine ⟨[.named name (file.freshName name).1 importer.moduleId], [], [(file.freshName name).1], ?_, rfl,
      (List.append_nil _).symm, rfl⟩
    rw [hservice]
    exact ⟨rfl, rfl, rfl⟩

/-- Without an importer, the mode decides what a helper costs. -/
theorem emits_emitHelper (himporter : file.importer = none) (hhas : helperRegistry.has name = true)
    (hnew : file.served? name = none) :
    ∃ added, Emits file added ((file.emitHelper name).2.declare name (file.emitHelper name).1) := by
  unfold emitHelper
  split
  · rename_i hmode
    have hservice : file.service = .external := by simp [service, himporter, hmode]
    refine ⟨[(name, externalReference name)], .single rfl rfl hnew hhas (served?_declare _ _ _) ?_⟩
    refine ⟨[], [], [], ?_, (List.append_nil _).symm, (List.append_nil _).symm, rfl⟩
    rw [hservice]
    exact ⟨rfl, rfl, rfl, by simp⟩
  · rename_i moduleName useModules hmode
    have hservice : file.service = .runtime moduleName useModules file.format := by
      simp [service, himporter, hmode]
    refine ⟨[(name, (file.freshName name).1)], .single rfl rfl hnew hhas (served?_declare _ _ _) ?_⟩
    refine ⟨[.default (file.freshName name).1 (runtimePath moduleName useModules file.format name)], [],
      [(file.freshName name).1], ?_, rfl, (List.append_nil _).symm, rfl⟩
    rw [hservice]
    exact ⟨rfl, rfl, rfl⟩
  · rename_i hmode
    obtain ⟨helper, hget⟩ := Registry.has_iff.mp hhas
    have hclosure : ∀ h ∈ helperRegistry.closure [name], helperRegistry.get? h.name = some h :=
      fun h hh => Registry.get?_of_mem_closure hh
    obtain ⟨added, hadded, hserved⟩ := emits_foldl_addInline himporter hmode hclosure
    obtain ⟨reference, hreference⟩ := hserved helper (Registry.mem_closure_of_mem List.mem_cons_self hget)
    rw [Registry.name_of_get? hget] at hreference
    have hnone : ((helperRegistry.closure [name]).foldl addInline file).importer = none :=
      (service_eq_inline_iff.mp (hadded.service_eq.trans (service_eq_inline_iff.mpr ⟨himporter, hmode⟩))).1
    have hlookup : ((helperRegistry.closure [name]).foldl addInline file).declared.lookup name =
        some reference := by
      simpa [served?, hnone] using hreference
    refine ⟨added, ?_⟩
    simp only [hlookup, Option.getD_some]
    exact hadded.declare hreference

/-- What a request adds that the file cannot answer. -/
theorem emits_emission (hhas : helperRegistry.has name = true) (hnew : file.served? name = none) :
    ∃ added, Emits file added (file.emission name).2 ∧
      (file.emission name).2.served? name = some (file.emission name).1 := by
  unfold emission
  cases himporter : file.importer with
  | some importer =>
    have h := emits_withImport himporter hhas hnew
    exact ⟨_, h, (h.served_iff _ _).mpr (.inl List.mem_cons_self)⟩
  | none =>
    obtain ⟨added, hadded⟩ := emits_emitHelper himporter hhas hnew
    exact ⟨added, hadded, (served?_declare _ _ _ _).trans (if_pos rfl)⟩

/-! ## Rows of requests -/

/-- Nothing was asked of the file. -/
structure Unrequested (file : FileState) : Prop where
  declared_eq : file.declared = []
  references_eq : ∀ importer ∈ file.importer, importer.references = []

theorem Unrequested.served?_eq_none (h : Unrequested file) (name : String) : file.served? name = none := by
  have hreferences : file.importer.bind (·.references.lookup name) = none := by
    cases himporter : file.importer with
    | none => rfl
    | some importer => simp [h.references_eq importer himporter]
  rw [served?, h.declared_eq, hreferences]
  rfl

/-- Nothing was added to the file, and nothing was asked of it. -/
structure Untouched (file : FileState) : Prop extends Unrequested file where
  imports_eq : file.imports = []
  inlineHelpers_eq : file.inlineHelpers = []
  names_eq : file.names = []

theorem Untouched.prepare (h : Untouched file) (plugin : CompilerPlugin) :
    Untouched (plugin.prepare file) := by
  cases plugin with
  | importHelpers moduleId =>
    exact ⟨⟨h.declared_eq, by simp [CompilerPlugin.prepare]⟩, h.imports_eq, h.inlineHelpers_eq, h.names_eq⟩
  | _ => exact ⟨⟨h.declared_eq, h.references_eq⟩, h.imports_eq, h.inlineHelpers_eq, h.names_eq⟩

/-- Plugins ask for nothing before code is visited. -/
theorem untouched_preparedFile (plugins : List CompilerPlugin) (options : CompilerOptions)
    (code : String) : Untouched (preparedFile plugins options code) := by
  have hnew : Untouched { filename := options.filename, caller := options.caller, code } :=
    ⟨⟨rfl, by simp⟩, rfl, rfl, rfl⟩
  exact List.foldlRecOn plugins _ hnew fun _ hfile plugin _ => hfile.prepare plugin

/-- What one request adds. An answer is one that the file has from then on, and only names outside of the
registry get none. -/
theorem emits_request (file : FileState) (name : String) :
    ∃ added, Emits file added (file.request name).2 ∧
      (∀ reference, (file.request name).1 = .ok reference →
        (file.request name).2.served? name = some reference) ∧
      (helperRegistry.has name = true → ∃ reference, (file.request name).1 = .ok reference) := by
  cases hhas : helperRegistry.has name with
  | false =>
    cases hdeclared : file.declared.lookup name with
    | none =>
      rw [request_of_unknown hhas hdeclared]
      exact ⟨[], .refl file, by simp, by simp⟩
    | some reference =>
      rw [request_of_declared hdeclared]
      exact ⟨[], .refl file, by simp [served?, hdeclared], by simp⟩
  | true =>
    cases hserved : file.served? name with
    | some reference =>
      rw [request_of_served hhas hserved]
      exact ⟨[], .refl file, by simp [hserved], by simp⟩
    | none =>
      rw [request_of_new hhas hserved]
      obtain ⟨added, hadded, hreference⟩ := emits_emission hhas hserved
      exact ⟨added, hadded, by simp [hreference], by simp⟩

/-- What a row of requests adds. Every helper of the registry that was asked for has its reference. -/
theorem emits_afterRequests (file : FileState) (names : List String) :
    ∃ added, Emits file added (file.afterRequests names) ∧
      ∀ name ∈ names, helperRegistry.has name = true →
        ∃ reference, (file.afterRequests names).served? name = some reference := by
  induction names generalizing file with
  | nil => exact ⟨[], .refl file, by simp⟩
  | cons first rest ih =>
    obtain ⟨added, hadded, hanswer, hsome⟩ := emits_request file first
    obtain ⟨more, hmore, hserved⟩ := ih (file.request first).2
    refine ⟨added ++ more, hadded.trans hmore, fun name hname hhas => ?_⟩
    rcases List.mem_cons.mp hname with rfl | hname
    · obtain ⟨reference, hreference⟩ := hsome hhas
      exact ⟨reference, hmore.served (hanswer reference hreference)⟩
    · exact hserved name hname hhas

namespace Emits

/-- What a file has a reference for behind requests. -/
theorem served_iff_mem (h : Emits start added file) (hstart : start.Unrequested) :
    file.served? name = some reference ↔ (name, reference) ∈ added := by
  simp [h.served_iff, hstart.served?_eq_none]

theorem served?_of_unknown (h : Emits start added file) (hstart : start.Unrequested)
    (hhas : helperRegistry.has name = false) : file.served? name = none := by
  by_contra hserved
  obtain ⟨reference, hreference⟩ := Option.ne_none_iff_exists'.mp hserved
  have := h.available _ ((h.served_iff_mem hstart).mp hreference)
  simp [hhas] at this

end Emits

theorem addHelper_of_request {answer : Except CompileError String}
    (h : file.request name = (answer, file')) :
    file.addHelper name = answer.map fun reference => (reference, file') := by
  rw [addHelper_eq_request, h]

/-- A request changes nothing exactly if the file has the reference. -/
theorem addHelper_eq_self_iff (hhas : helperRegistry.has name = true) :
    file.addHelper name = .ok (reference, file) ↔ file.served? name = some reference := by
  cases hserved : file.served? name with
  | some r =>
    rw [addHelper_of_request (request_of_served hhas hserved)]
    simp [Except.map]
  | none =>
    -- The file behind an emission has a reference, so that it cannot be the same.
    obtain ⟨-, -, hreference⟩ := emits_emission hhas hserved
    rw [addHelper_of_request (request_of_new hhas hserved)]
    constructor
    · intro hsame
      rw [(Prod.mk.inj (Except.ok.inj hsame)).2, hserved] at hreference
      cases hreference
    · intro hsome
      cases hsome

/-- A file serves each helper of the registry, at the cost of one import or of one definition for all
requests of it, whichever helper it was emitted for first. A request that was answered is answered in the
same way from then on and changes nothing. Names outside of the registry are refused, and the refusal
leaves the file as it is. -/
theorem requests_materialize_once (hstart : start.Unrequested) (names : List String) :
    let file := start.afterRequests names
    (∃ helpers : List (String × String), (helpers.map (·.1)).Nodup ∧ Materialized start helpers file ∧
      (∀ name reference, (name, reference) ∈ helpers ↔ file.addHelper name = .ok (reference, file)) ∧
      ∀ name ∈ names, helperRegistry.has name = true → ∃ reference, (name, reference) ∈ helpers) ∧
    ∀ name,
      (helperRegistry.has name = true → ∃ reference next, file.addHelper name = .ok (reference, next) ∧
        ∀ later, (next.afterRequests later).addHelper name = .ok (reference, next.afterRequests later)) ∧
      (helperRegistry.has name = false → file.addHelper name = .error (.unknownHelper name) ∧
        (file.request name).2 = file) := by
  intro file
  obtain ⟨helpers, hemits, hserved⟩ := emits_afterRequests start names
  have hunknown {name : String} (hhas : helperRegistry.has name = false) :=
    request_of_unknown hhas (Option.or_eq_none_iff.mp (hemits.served?_of_unknown hstart hhas)).1
  refine ⟨⟨helpers, hemits.nodup, hemits.materialized, fun name reference => ?_, fun name hname hhas => ?_⟩,
    fun name => ⟨fun hhas => ?_, fun hhas => ?_⟩⟩
  · rw [← hemits.served_iff_mem hstart]
    cases hhas : helperRegistry.has name with
    | true => exact (addHelper_eq_self_iff hhas).symm
    | false =>
      rw [hemits.served?_of_unknown hstart hhas, addHelper_of_request (hunknown hhas)]
      simp [Except.map]
  · obtain ⟨reference, hreference⟩ := hserved name hname hhas
    exact ⟨reference, (hemits.served_iff_mem hstart).mp hreference⟩
  · obtain ⟨-, -, hanswer, hsome⟩ := emits_request file name
    obtain ⟨reference, hreference⟩ := hsome hhas
    refine ⟨reference, _, addHelper_of_request (Prod.ext hreference rfl), fun later => ?_⟩
    obtain ⟨_, hlater, -⟩ := emits_afterRequests (file.request name).2 later
    exact (addHelper_eq_self_iff hhas).mpr (hlater.served (hanswer reference hreference))
  · exact ⟨addHelper_of_request (hunknown hhas), by rw [hunknown hhas]⟩

/-- Two helpers of a file that has a binding `_inherits` of its own: one of them is asked for twice, the
other one first comes along with it. -/
theorem requests_materialize_once_inherits :
    let start := preparedFile [] {} "const _inherits = 1;"
    let file := start.afterRequests ["inherits", "setPrototypeOf", "missing", "inherits"]
    start.Unrequested ∧ file.inlineHelpers.length = 2 ∧ file.names = ["_inherits2", "_setPrototypeOf"] ∧
      ∃ helpers : List (String × String), (helpers.map (·.1)).Nodup ∧ Materialized start helpers file ∧
        ∃ reference, ("setPrototypeOf", reference) ∈ helpers := by
  have hstart := (untouched_preparedFile [] {} "const _inherits = 1;").toUnrequested
  obtain ⟨⟨helpers, hnodup, hmaterialized, -, hserved⟩, -⟩ := requests_materialize_once hstart
    ["inherits", "setPrototypeOf", "missing", "inherits"]
  exact ⟨hstart, by decide +kernel, by decide +kernel, helpers, hnodup, hmaterialized,
    hserved "setPrototypeOf" (by decide) (by decide +kernel)⟩

end FileState

end ModuleBuild
