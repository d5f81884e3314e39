import Mathlib
import ModuleBuild.Bundle.Entry
import ModuleBuild.Proofs.Compile.Requests
import ModuleBuild.Proofs.Helper.Written
import ModuleBuild.Proofs.Linking.HelperModule

/-!
# Imports from the helper module

Whoever asks for a helper imports it if the registry has it; the helper module exports it if the
whitelist has it as well. So imports from the helper module resolve exactly as far as the whitelist goes,
and nothing that is linked later changes what the helper module exports.

## Main statements

* `Graph.linkHelpers_missing` — linking misses an export of the helper module only if its record has none.
* `injectedImport_exported_iff` — which imports of helpers resolve.
-/

namespace ModuleBuild

open Script FileState Text

/-! ## Exports of the helper module -/

namespace Graph

variable {g g' : Graph} {id name : String} {d : DeferredModule} {linked : LinkedModule}

/-- What waited is linked without a change to what any module exports. -/
theorem linkDeferred_exports (h : g.linkDeferred id d = .ok g') {other : String}
    (hmodule : g.module? other = some linked) :
    ∃ linked', g'.module? other = some linked' ∧ linked'.exports = linked.exports := by
  unfold linkDeferred at h
  obtain ⟨texts, -, h⟩ := bind_eq_ok.1 h
  obtain ⟨mid, hdeclare, h⟩ := bind_eq_ok.1 h
  obtain ⟨hmid, -⟩ := declare_ok hdeclare
  have hsame : mid.module? other = some linked := by
    rw [← hmid]
    exact hmodule
  obtain rfl := Except.ok.inj h
  rw [module?_setModule]
  split
  · rename_i hid
    subst hid
    exact ⟨_, rfl, by simp [hsame]⟩
  · exact ⟨linked, hsame, rfl⟩

/-- Linking what waited misses an export of the helper module only if there is none. -/
theorem linkDeferred_missing (h : g.linkDeferred id d = .error (.missingExport helperModuleId name))
    (hmodule : g.module? helperModuleId = some linked) : linked.exports.lookup name = none := by
  unfold linkDeferred at h
  rcases bind_eq_error.1 h with htexts | ⟨texts, -, h⟩
  · obtain ⟨record, -, hrecord⟩ := mapM_eq_error htexts
    rcases bind_eq_error.1 hrecord with himport | ⟨text, -, hrecord⟩
    · rw [importText_of_module? hmodule] at himport
      obtain ⟨b, -, name', -, hlookup, heq⟩ := LinkedModule.aliases_error (map_eq_error.1 himport)
      obtain ⟨-, rfl⟩ := BundleError.missingExport.inj heq
      exact hlookup
    · cases hrecord
  rcases bind_eq_error.1 h with hdeclare | ⟨mid, -, h⟩
  · obtain ⟨_, -, _, -, -, heq⟩ := declare_error hdeclare
    cases heq
  · cases h

/-- The same for a row of modules. -/
theorem linkWaiting_missing {ids : List String}
    (h : ids.foldlM linkWaiting g = .error (.missingExport helperModuleId name))
    (hmodule : g.module? helperModuleId = some linked) : linked.exports.lookup name = none := by
  induction ids generalizing g linked with
  | nil => cases h
  | cons id rest ih =>
    rw [List.foldlM_cons] at h
    unfold linkWaiting at h
    rcases bind_eq_error.1 h with hone | ⟨mid, hone, hrest⟩
    · split at hone
      · exact linkDeferred_missing hone hmodule
      · cases hone
    · split at hone
      · obtain ⟨linked', hmodule', hexports⟩ := linkDeferred_exports hone hmodule
        exact hexports ▸ ih hrest hmodule'
      · obtain rfl := Except.ok.inj hone
        exact ih hrest hmodule

/-- Linking misses an export of the helper module only if its record has none. -/
theorem linkHelpers_missing {m : Type → Type} {project : Project m} {code : String}
    {record : ModuleRecord} (htext : helperModule project (g.owners.map (·.1)) = .ok (code, record))
    (h : g.linkHelpers project = .error (.missingExport helperModuleId name)) :
    (lastOfEach record.exports).lookup name = none := by
  rw [linkHelpers_eq] at h
  split at h
  · cases h
  rw [htext] at h
  rcases bind_eq_error.1 (show g.linkBefore (helperPart code record) = _ from h) with
    hdeclare | ⟨mid, -, hloop⟩
  · obtain ⟨_, -, _, -, -, heq⟩ := declare_error hdeclare
    cases heq
  · have hmodule : (mid.putBefore (helperPart code record)).module? helperModuleId =
        some (helperPart code record).linked :=
      (module?_setModule mid helperModuleId helperModuleId _).trans (if_pos rfl)
    exact linkWaiting_missing hloop hmodule

end Graph

/-! ## Imports that plugins add -/

theorem preparedFile_imports (plugins : List CompilerPlugin) (options : CompilerOptions)
    (source : String) : (preparedFile plugins options source).imports = [] := by
  have hfold (file : FileState) (h : file.imports = []) :
      (plugins.foldl (fun file plugin => plugin.prepare file) file).imports = [] := by
    induction plugins generalizing file with
    | nil => exact h
    | cons plugin rest ih =>
      refine ih _ ?_
      cases plugin <;> exact h
  exact hfold _ rfl

variable {m : Type → Type} [Monad m]

theorem helperText_project {plugin : InputPlugin m}
    (shared : plugin.compiler.helperBundle = helperBundle helperRegistry)
    (read : String → Option (List ModuleItem)) (files : FileTree) (basePath : Path) :
    (plugin.project read files basePath).helperText =
      helperBundle helperRegistry plugin.config.externalHelpersWhitelist .module := by
  show (plugin.load helperModuleId).getD "" = _
  rw [InputPlugin.load, if_pos (beq_self_eq_true _), shared]
  rfl

/-- Each name that a compile imports from the helper module is a helper of the registry, and the helper
module of the same plugin exports it exactly if the whitelist lets it through, whatever names other
modules own. So linking never misses the export of a helper that the whitelist lets through. -/
theorem injectedImport_exported_iff (plugin : InputPlugin m)
    (shared : plugin.compiler.helperBundle = helperBundle helperRegistry)
    (read : String → Option (List ModuleItem)) (files : FileTree) (basePath : Path)
    (owned : List String)
    (reads : HelperModuleRead read plugin.config.externalHelpersWhitelist owned) :
    let project := plugin.project read files basePath
    let whitelist := plugin.config.externalHelpersWhitelist
    ∃ code record, helperModule project owned = .ok (code, record) ∧
      (∀ plugins options source requests file,
        Requested (preparedFile plugins options source) requests file →
        ∀ name l, .named name l helperModuleId ∈ file.imports →
          helperRegistry.has name = true ∧
            (name ∈ record.exports.map (·.1) ↔ Allowed whitelist name)) ∧
      ∀ g : Graph, g.owners.map (·.1) = owned → ∀ name,
        g.linkHelpers project = .error (.missingExport helperModuleId name) →
        ¬ (helperRegistry.has name = true ∧ Allowed whitelist name) := by
  intro project whitelist
  have hbundle : project.helperText = helperBundle helperRegistry whitelist .module :=
    helperText_project shared read files basePath
  obtain ⟨code, record, htext, -, -, hexports⟩ := helperModule_ok reads hbundle
  refine ⟨code, record, htext, fun plugins options source requests file requested name l hmem => ?_,
    fun g howned name herror => ?_⟩
  · have hhas := requested.has_of_named (preparedFile_imports plugins options source) hmem
    refine ⟨hhas, ?_⟩
    rw [hexports, List.map_map, List.mem_map]
    constructor
    · rintro ⟨h, hh, rfl⟩
      exact (mem_providedOf.1 hh).2
    · intro hallowed
      obtain ⟨h, hget⟩ := Registry.has_iff.1 hhas
      obtain rfl := Registry.name_of_get? hget
      exact ⟨h, mem_providedOf.2 ⟨hget, hallowed⟩, rfl⟩
  · have hnone := Graph.linkHelpers_missing (by rw [howned]; exact htext) herror
    rw [hexports] at hnone
    rcases lookup_exports_helper _ name with ⟨hsome, -⟩ | ⟨-, hserved⟩
    · rw [hnone] at hsome
      cases hsome
    · exact hserved

/-- A plugin of the standard compiler with a whitelist. -/
def whitelistPlugin (whitelist : List String) : InputPlugin Id where
  compiler := standardCompiler (.standard (.automatic "react")) (pure FileTree.empty)
  overrides := {}
  customOptions := none
  config := .ofOptions { externalHelpersWhitelist := some whitelist } standardExtensions
  filter := { extensions := ModuleFilter.extensionPattern standardExtensions, included := [], excluded := [] }

/-- A parser that knows the helper module for the `extends` helper alone. -/
def readExtends (text : String) : Option (List ModuleItem) :=
  if text = helperBundle helperRegistry (some ["extends"]) .module then
    some [.declaration ⟨0, 401⟩ (some ["_extends"]), .exportList ⟨402, 433⟩ [("_extends", "extends")] none]
  else none

/-- A file whose compile imports helpers. -/
def importingFile : FileState :=
  preparedFile [.objectAssign, .importHelpers helperModuleId] {} "Object.assign(a);"

/-- The file with one import. -/
def extendsFile : FileState :=
  { importingFile with
    names := ["_extends"]
    importer := some ⟨helperModuleId, [("extends", "_extends")]⟩
    imports := [.named "extends" "_extends" helperModuleId] }

theorem requested_extends : Requested importingFile [("extends", "_extends")] extendsFile :=
  .more .refl (by decide +kernel)

/-- The file with two imports. -/
def typeofFile : FileState :=
  { importingFile with
    names := ["_typeof", "_extends"]
    importer := some ⟨helperModuleId, [("typeof", "_typeof"), ("extends", "_extends")]⟩
    imports := [.named "extends" "_extends" helperModuleId, .named "typeof" "_typeof" helperModuleId] }

theorem requested_typeof :
    Requested importingFile [("extends", "_extends"), ("typeof", "_typeof")] typeofFile :=
  .more requested_extends (by decide +kernel)

/-- Of two helpers that a file imports, the one on the whitelist is exported. -/
theorem injectedImport_exported_extends :
    let project := (whitelistPlugin ["extends"]).project readExtends .empty ⟨"."⟩
    (whitelistPlugin ["extends"]).compiler.helperBundle = helperBundle helperRegistry ∧
      HelperModuleRead readExtends (some ["extends"]) [] ∧
      Requested importingFile [("extends", "_extends"), ("typeof", "_typeof")] typeofFile ∧
      ∃ code record, helperModule project [] = .ok (code, record) ∧
        "extends" ∈ record.exports.map (·.1) ∧ "typeof" ∉ record.exports.map (·.1) := by
  intro project
  have hhelpers : helpersOf (some ["extends"]) = [extendsHelper] := by decide +kernel
  have hprovided : providedOf (some ["extends"]) = [extendsHelper] := by decide +kernel
  have reads : HelperModuleRead readExtends (some ["extends"]) [] := by
    refine ⟨⟨[⟨0, 401⟩], ⟨402, 433⟩, by rw [hhelpers]; rfl, ?_⟩, fun hne => ?_⟩
    · rw [readExtends, if_pos rfl, hhelpers, hprovided]
      rfl
    · exact absurd (show helperNewNames (some ["extends"]) [] = [] by decide +kernel) hne
  obtain ⟨code, record, htext, hexported, -⟩ :=
    injectedImport_exported_iff (whitelistPlugin ["extends"]) rfl readExtends .empty ⟨"."⟩ [] reads
  have hextends := (hexported _ _ _ _ _ requested_typeof "extends" "_extends" (by decide)).2
  have htypeof := (hexported _ _ _ _ _ requested_typeof "typeof" "_typeof" (by decide)).2
  refine ⟨rfl, reads, requested_typeof, code, record, htext, hextends.2 ?_, fun hmem => ?_⟩
  · simp [Allowed, whitelistPlugin, InputConfig.ofOptions]
  · simpa [Allowed, whitelistPlugin, InputConfig.ofOptions] using htypeof.1 hmem

/-- A helper that is not on the whitelist is imported all the same, and linking misses its export. -/
theorem injectedImport_not_exported :
    let project := (whitelistPlugin []).project readModule? .empty ⟨"."⟩
    let record : ModuleRecord := { edits := [⟨0, 12, ""⟩] }
    let waiting : DeferredModule :=
      { source := "", edits := [],
        helperImports := [⟨⟨0, 0⟩, helperModuleId, [.named "extends" "_extends"], ""⟩] }
    let g : Graph :=
      { order := ["/main.js"], modules := [("/main.js", ⟨"", []⟩)], deferred := [("/main.js", waiting)] }
    Requested importingFile [("extends", "_extends")] extendsFile ∧
      .named "extends" "_extends" helperModuleId ∈ extendsFile.imports ∧
      ModuleRecord.ofText project.read helperModuleId project.helperText helperDefaultLocal =
        .ok record ∧
      "extends" ∉ record.exports.map (·.1) ∧
      g.linkHelpers project = .error (.missingExport helperModuleId "extends") := by
  intro project record waiting g
  exact ⟨requested_extends, by decide, by decide +kernel, by decide, by decide +kernel⟩

end ModuleBuild
