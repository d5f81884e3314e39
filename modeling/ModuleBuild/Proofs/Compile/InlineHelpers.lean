import ModuleBuild.Proofs.Compile.Freshness
import ModuleBuild.Proofs.Text.Pieces

/-!
# Helpers defined in a file

Where nothing serves the helpers of a file from elsewhere, the file defines them itself. A definition is
written once, when the helper is first asked for or called by one that is. It stands under a binding of its
own, and it calls other helpers by the bindings that they have in the file, so these come first.

## Main definitions

* `DependenciesFirst` — a row of helpers in which none stands before one that it calls.
* `CallsOnly` — which helpers a row of pieces calls.
* `FileState.Written`, `FileState.Renamed` — the definition of a helper as a file has it, as a text and
  piece by piece.
* `FileState.Inlines` — the helpers that a file defines.

## Main statements

* `FileState.Written.renamed` — what is renamed in a definition.
* `FileState.Inlines.define`, `FileState.Inlines.call` — what one definition and one call add.
* `FileState.inline_helpers_closed` — the definitions of a file behind any row of calls.
-/

namespace ModuleBuild

open Text

/-! ## Dependencies first -/

/-- Each helper stands behind those that it calls. -/
def DependenciesFirst (helpers : List Helper) : Prop :=
  ∀ i (hi : i < helpers.length), ∀ d ∈ helpers[i].dependencies, d ∈ (helpers.take i).map (·.name)

instance (helpers : List Helper) : Decidable (DependenciesFirst helpers) :=
  inferInstanceAs (Decidable (∀ i (hi : i < helpers.length), ∀ d ∈ helpers[i].dependencies,
    d ∈ (helpers.take i).map (·.name)))

theorem dependenciesFirst_concat {helpers : List Helper} {h : Helper} :
    DependenciesFirst (helpers ++ [h]) ↔
      DependenciesFirst helpers ∧ ∀ d ∈ h.dependencies, d ∈ helpers.map (·.name) := by
  constructor
  · intro hall
    refine ⟨fun i hi d hd => ?_, fun d hd => ?_⟩
    · have hin := hall i (by simp; omega) d (by simpa [List.getElem_append_left hi] using hd)
      rwa [List.take_append_of_le_length hi.le] at hin
    · simpa using hall helpers.length (by simp) d (by simpa using hd)
  · rintro ⟨hinit, hlast⟩ i hi d hd
    rcases Nat.lt_or_eq_of_le (Nat.lt_succ_iff.mp (by simpa using hi)) with hi' | rfl
    · rw [List.take_append_of_le_length hi'.le]
      exact hinit i hi' d (by simpa [List.getElem_append_left hi'] using hd)
    · simpa using hlast d (by simpa using hd)

theorem DependenciesFirst.mem {helpers : List Helper} (hfirst : DependenciesFirst helpers) {h : Helper}
    (hh : h ∈ helpers) {d : String} (hd : d ∈ h.dependencies) : d ∈ helpers.map (·.name) := by
  obtain ⟨i, hi, rfl⟩ := List.getElem_of_mem hh
  exact List.map_subset _ (List.take_subset i helpers) (hfirst i hi d hd)

/-! ## The registry -/

/-- The bindings of helpers that occur among pieces are some given ones, and none of them stands behind a
point. -/
def CallsOnly (bindings : List String) : Bool → List String → Prop
  | _, [] => True
  | point, piece :: rest =>
    (piece ∈ helperRegistry.map (·.localName) → point = false ∧ piece ∈ bindings) ∧
      CallsOnly bindings (piece == ".") rest

instance (bindings : List String) : (point : Bool) → (ps : List String) → Decidable (CallsOnly bindings point ps)
  | _, [] => isTrue trivial
  | _, piece :: rest =>
    have := instDecidableCallsOnly bindings (piece == ".") rest
    inferInstanceAs (Decidable (_ ∧ _))

/-- The bindings that stand for helpers in the body of a helper. -/
def Helper.bindings (h : Helper) : List String :=
  (h.name :: h.dependencies).map helperLocal

/-- A helper of the registry calls itself and what it depends on. -/
theorem callsOnly_body : ∀ h ∈ helperRegistry, CallsOnly h.bindings false (pieces h.body) := by
  intro h hh
  simp only [helperRegistry, List.mem_cons, List.not_mem_nil, or_false] at hh
  rcases hh with rfl | rfl | rfl | rfl | rfl | rfl
  -- The characters of the lines are written out before the pieces are computed.
  all_goals
    simp only [pieces, extendsHelper, setPrototypeOf, inheritsHelper, classCallCheck, typeofHelper,
      defineProperty, String.toList_intercalate, List.map_cons, List.map_nil, String.toList_append]
    repeat rw [String.toList_ofList]
    decide +kernel

theorem get?_of_mem_helperRegistry : ∀ h ∈ helperRegistry, helperRegistry.get? h.name = some h := by
  intro h hh
  simp only [helperRegistry, List.mem_cons, List.not_mem_nil, or_false] at hh
  rcases hh with rfl | rfl | rfl | rfl | rfl | rfl <;> rfl

theorem has_of_mem_dependencies :
    ∀ h ∈ helperRegistry, ∀ d ∈ h.dependencies, helperRegistry.has d = true := by
  decide +kernel

theorem dependenciesFirst_closure :
    ∀ h ∈ helperRegistry, DependenciesFirst (helperRegistry.closure [h.name]) := by
  decide +kernel

theorem helperLocal_inj {name other : String} : helperLocal name = helperLocal other ↔ name = other :=
  String.append_right_inj _

theorem exists_mem_of_has {name : String} (hhas : helperRegistry.has name = true) :
    ∃ h ∈ helperRegistry, h.name = name := by
  obtain ⟨h, hget⟩ := Registry.has_iff.mp hhas
  exact ⟨h, List.mem_of_find?_eq_some hget, Registry.name_of_get? hget⟩

namespace FileState

variable {file file' : FileState} {h : Helper} {x : String} {emitted : List Helper}

/-! ## Definitions -/

/-- The definition of a helper as a file has it: under the binding that is recorded for the helper, and
with the bindings recorded for what it calls. -/
def Written (file : FileState) (h : Helper) (text : String) : Prop :=
  ∃ x, file.declared.lookup h.name = some x ∧ text = rename (file.renames h x) h.body

/-- A piece of a body that names a helper is the binding recorded for this helper; any other one is left
as it is. -/
def Renamed (file : FileState) (piece new : String) : Prop :=
  (∀ g ∈ helperRegistry, piece = g.localName → file.declared.lookup g.name = some new) ∧
    ((∀ g ∈ helperRegistry, piece ≠ g.localName) → new = piece)

/-- What a helper is renamed by depends on what it calls. -/
theorem renames_congr (hsame : ∀ d ∈ h.dependencies, file'.declared.lookup d = file.declared.lookup d) :
    file'.renames h x = file.renames h x := by
  funext name
  unfold renames
  cases hfind : h.dependencies.find? fun d => helperLocal d == name with
  | none => rfl
  | some d => simp [hsame d (List.mem_of_find?_eq_some hfind)]

theorem renames_localName {name : String} (hx : file.declared.lookup h.name = some x)
    (hmem : helperLocal name ∈ h.bindings) :
    file.renames h x (helperLocal name) = file.declared.lookup name := by
  unfold renames Helper.localName
  by_cases hname : name = h.name
  · simp [hname, hx]
  · have hdependency : name ∈ h.dependencies := by
      simpa [Helper.bindings, helperLocal_inj, hname] using hmem
    have hsome : (h.dependencies.find? fun d => helperLocal d == helperLocal name).isSome = true :=
      List.find?_isSome.mpr ⟨name, hdependency, beq_self_eq_true _⟩
    obtain ⟨d, hfind⟩ := Option.isSome_iff_exists.mp hsome
    have hlocal := List.find?_some hfind
    have hd : d = name := helperLocal_inj.mp (eq_of_beq hlocal)
    subst hd
    simp [helperLocal_inj, hname, hfind]

/-- Nothing but helpers is renamed. -/
theorem exists_of_renames {name new : String} (hx : file.declared.lookup h.name = some x)
    (hnew : file.renames h x name = some new) :
    ∃ called ∈ h.name :: h.dependencies, name = helperLocal called ∧ file.declared.lookup called = some new := by
  unfold renames at hnew
  split at hnew
  · rename_i hname
    obtain rfl := Option.some.inj hnew
    exact ⟨h.name, List.mem_cons_self, eq_of_beq hname, hx⟩
  · obtain ⟨d, hfind, hlookup⟩ := Option.bind_eq_some_iff.mp hnew
    have hlocal := List.find?_some hfind
    exact ⟨d, List.mem_cons_of_mem _ (List.mem_of_find?_eq_some hfind), (eq_of_beq hlocal).symm, hlookup⟩

/-- Definitions stay what they are as long as the bindings of their helpers do. -/
theorem written_kept {texts : List String} (hfirst : DependenciesFirst emitted)
    (hwritten : List.Forall₂ file.Written emitted texts)
    (hkept : ∀ name ∈ emitted.map (·.name), file'.declared.lookup name = file.declared.lookup name) :
    List.Forall₂ file'.Written emitted texts := by
  rw [List.forall₂_iff_zip] at hwritten ⊢
  refine ⟨hwritten.1, fun {h text} hmem => ?_⟩
  obtain ⟨x, hx, rfl⟩ := hwritten.2 hmem
  have hh := (List.of_mem_zip hmem).1
  refine ⟨x, (hkept _ (List.mem_map_of_mem hh)).trans hx, ?_⟩
  rw [renames_congr fun d hd => hkept d (hfirst.mem hh hd)]

/-- Behind no point, the pieces that are bindings of helpers are renamed. -/
theorem renamed_renamePieces {image : String → Option String} {bindings : List String}
    (himage : ∀ g ∈ helperRegistry, g.localName ∈ bindings →
      ∃ new, image g.localName = some new ∧ file.declared.lookup g.name = some new)
    (hother : ∀ piece, (∀ g ∈ helperRegistry, piece ≠ g.localName) → image piece = none)
    {point : Bool} {ps : List String} (hcalls : CallsOnly bindings point ps) :
    List.Forall₂ file.Renamed ps (renamePieces image point ps) := by
  induction ps generalizing point with
  | nil => exact .nil
  | cons piece rest ih =>
    obtain ⟨hpiece, hrest⟩ := hcalls
    refine .cons ?_ (ih hrest)
    by_cases hnamed : ∃ g ∈ helperRegistry, piece = g.localName
    · obtain ⟨g, hg, rfl⟩ := hnamed
      obtain ⟨rfl, hmem⟩ := hpiece (List.mem_map_of_mem hg)
      obtain ⟨new, hnew, hlookup⟩ := himage g hg hmem
      refine ⟨fun g' hg' hsame => ?_, fun hno => absurd rfl (hno g hg)⟩
      rw [← helperLocal_inj.mp hsame, hlookup]
      simp [hnew]
    · have hno : ∀ g ∈ helperRegistry, piece ≠ g.localName := fun g hg h => hnamed ⟨g, hg, h⟩
      refine ⟨fun g hg h => absurd h (hno g hg), fun _ => ?_⟩
      simp [hother piece hno]

/-- The helpers that a file defines, in this order. -/
structure Inlines (emitted : List Helper) (file : FileState) : Prop where
  service_eq : file.service = .inline
  mem : ∀ h ∈ emitted, h ∈ helperRegistry
  nodup : (emitted.map (·.name)).Nodup
  first : DependenciesFirst emitted
  declared_iff : ∀ name, (∃ x, file.declared.lookup name = some x) ↔ name ∈ emitted.map (·.name)
  isWord : ∀ name x, file.declared.lookup name = some x → IsWord x
  written : List.Forall₂ file.Written emitted file.inlineHelpers

namespace Inlines

theorem start (hstart : file.Untouched) (hservice : file.service = .inline) : Inlines [] file where
  service_eq := hservice
  mem := by simp
  nodup := List.nodup_nil
  first := by decide
  declared_iff := by simp [hstart.declared_eq]
  isWord := by simp [hstart.declared_eq]
  written := by simp [hstart.inlineHelpers_eq]

/-- All that a helper calls is declared in the file. -/
theorem lookup_dependency (hfile : Inlines emitted file) (hh : h ∈ emitted) {d : String}
    (hd : d ∈ h.dependencies) : ∃ x, file.declared.lookup d = some x :=
  (hfile.declared_iff d).mpr (hfile.first.mem hh hd)

/-- What a file does not keep for its helpers does not matter. -/
theorem congr (hfile : Inlines emitted file) (hservice : file'.service = file.service)
    (hdeclared : ∀ name, file'.declared.lookup name = file.declared.lookup name)
    (hinline : file'.inlineHelpers = file.inlineHelpers) : Inlines emitted file' where
  service_eq := hservice.trans hfile.service_eq
  mem := hfile.mem
  nodup := hfile.nodup
  first := hfile.first
  declared_iff := by simpa only [hdeclared] using hfile.declared_iff
  isWord := by simpa only [hdeclared] using hfile.isWord
  written := hinline ▸ written_kept hfile.first hfile.written fun name _ => hdeclared name

/-- One more helper, behind all that it calls. -/
theorem add (hfile : Inlines emitted file) (hmem : h ∈ helperRegistry) (hnew : h.name ∉ emitted.map (·.name))
    (hfirst : ∀ d ∈ h.dependencies, d ∈ emitted.map (·.name)) (hx : IsWord x)
    (hservice : file'.service = file.service)
    (hdeclared : ∀ name, file'.declared.lookup name = if name = h.name then some x else file.declared.lookup name)
    (hinline : file'.inlineHelpers = file.inlineHelpers ++ [rename (file.renames h x) h.body]) :
    Inlines (emitted ++ [h]) file' := by
  have hkept {name : String} (hname : name ∈ emitted.map (·.name)) :
      file'.declared.lookup name = file.declared.lookup name := by
    rw [hdeclared, if_neg]
    rintro rfl
    exact hnew hname
  refine ⟨hservice.trans hfile.service_eq, ?_, ?_, dependenciesFirst_concat.mpr ⟨hfile.first, hfirst⟩, ?_, ?_, ?_⟩
  · intro g hg
    rcases List.mem_append.mp hg with hg | hg
    · exact hfile.mem g hg
    · rwa [List.mem_singleton.mp hg]
  · rw [List.map_append, List.map_singleton, ← List.concat_eq_append]
    exact hfile.nodup.concat hnew
  · intro name
    rw [hdeclared, List.map_append, List.mem_append, ← hfile.declared_iff]
    by_cases hname : name = h.name
    · simp [hname]
    · simp [hname]
  · intro name y hy
    rw [hdeclared] at hy
    split at hy
    · exact Option.some.inj hy ▸ hx
    · exact hfile.isWord name y hy
  · rw [hinline]
    refine List.rel_append (written_kept hfile.first hfile.written fun _ => hkept) (.cons ⟨x, ?_, ?_⟩ .nil)
    · rw [hdeclared, if_pos rfl]
    · rw [renames_congr fun d hd => hkept (hfirst d hd)]

/-- What one definition adds: the helper, unless it is there. -/
theorem addInline (hfile : Inlines emitted file) (hmem : h ∈ helperRegistry)
    (hfirst : ∀ d ∈ h.dependencies, d ∈ emitted.map (·.name)) :
    ∃ added ⊆ [h], Inlines (emitted ++ added) (file.addInline h) ∧ h.name ∈ (emitted ++ added).map (·.name) := by
  unfold FileState.addInline
  split
  · rename_i hdeclared
    have hold := (hfile.declared_iff h.name).mp (Option.isSome_iff_exists.mp hdeclared)
    exact ⟨[], List.nil_subset _, by simpa using hfile, by simpa using hold⟩
  · rename_i hdeclared
    have hnew : h.name ∉ emitted.map (·.name) := fun hold =>
      hdeclared (Option.isSome_iff_exists.mpr ((hfile.declared_iff h.name).mpr hold))
    have hword := (file.freshName_new (isWordText_of_mem_helperRegistry hmem)).1
    refine ⟨[h], List.Subset.refl _, hfile.add hmem hnew hfirst hword rfl (fun name => ?_) rfl, by simp⟩
    by_cases hname : name = h.name
    · simp [declare, hname]
    · have hkey : (name == h.name) = false := by simpa using hname
      simp [declare, freshName, List.lookup_cons, hkey, hname]

/-- What a row of definitions adds. -/
theorem foldl_addInline {helpers : List Helper} (hfile : Inlines emitted file)
    (hmem : ∀ h ∈ helpers, h ∈ helperRegistry) (hfirst : DependenciesFirst helpers) :
    ∃ added ⊆ helpers, Inlines (emitted ++ added) (helpers.foldl FileState.addInline file) ∧
      ∀ h ∈ helpers, h.name ∈ (emitted ++ added).map (·.name) := by
  induction helpers using List.reverseRecOn with
  | nil => exact ⟨[], List.Subset.refl _, by simpa using hfile, by simp⟩
  | append_singleton init h ih =>
    obtain ⟨hinit, hlast⟩ := dependenciesFirst_concat.mp hfirst
    obtain ⟨added, hsub, hafter, hall⟩ := ih (fun g hg => hmem g (List.mem_append_left _ hg)) hinit
    have hbefore : ∀ d ∈ h.dependencies, d ∈ (emitted ++ added).map (·.name) := by
      intro d hd
      obtain ⟨g, hg, rfl⟩ := List.mem_map.mp (hlast d hd)
      exact hall g hg
    obtain ⟨more, hmore, hdone, hin⟩ := hafter.addInline (hmem h (by simp)) hbefore
    rw [List.append_assoc] at hdone hin
    refine ⟨added ++ more, ?_, by simpa using hdone, fun g hg => ?_⟩
    · exact List.append_subset.mpr ⟨List.Subset.trans hsub (List.subset_append_left _ _),
        List.Subset.trans hmore (List.subset_append_right _ _)⟩
    · rcases List.mem_append.mp hg with hg | hg
      · have hold := hall g hg
        rw [List.map_append, List.mem_append] at hold
        rw [List.map_append, List.map_append, List.mem_append, List.mem_append]
        tauto
      · rwa [List.mem_singleton.mp hg]

/-- A request for a helper adds it with all that it calls. -/
theorem request (hfile : Inlines emitted file) (name : String) :
    ∃ added, Inlines (emitted ++ added) (file.request name).2 ∧
      (∀ h ∈ added, helperRegistry.Reaches [name] h) ∧
      (helperRegistry.has name = true → name ∈ (emitted ++ added).map (·.name)) := by
  obtain ⟨himporter, hmode⟩ := service_eq_inline_iff.mp hfile.service_eq
  cases hlookup : file.declared.lookup name with
  | some reference =>
    rw [request_of_declared hlookup]
    have hold := (hfile.declared_iff name).mp ⟨reference, hlookup⟩
    exact ⟨[], by simpa using hfile, by simp, fun _ => by simpa using hold⟩
  | none =>
    cases hhas : helperRegistry.has name with
    | false =>
      rw [request_of_unknown hhas hlookup]
      exact ⟨[], by simpa using hfile, by simp, by simp⟩
    | true =>
      obtain ⟨h, hmem, rfl⟩ := exists_mem_of_has hhas
      have hserved : file.served? h.name = none := by simp [served?, hlookup, himporter]
      obtain ⟨added, hsub, hdone, hall⟩ := hfile.foldl_addInline
        (fun g hg => List.mem_of_find?_eq_some (Registry.get?_of_mem_closure hg))
        (dependenciesFirst_closure h hmem)
      have hin := hall h (Registry.mem_closure_of_mem List.mem_cons_self (get?_of_mem_helperRegistry h hmem))
      obtain ⟨x, hx⟩ := (hdone.declared_iff h.name).mpr hin
      refine ⟨added, ?_, fun g hg => Registry.reaches_of_mem_closure (hsub hg), fun _ => hin⟩
      rw [request_of_new hhas hserved, emission, himporter]
      simp only [emitHelper, hmode, hx, Option.getD_some]
      -- The helper is declared once more, with the reference that it has.
      refine hdone.congr rfl (fun name => ?_) rfl
      by_cases hname : name = h.name
      · simp [declare, hname, hx]
      · have hkey : (name == h.name) = false := by simpa using hname
        simp [declare, List.lookup_cons, hkey]

theorem call (hfile : Inlines emitted file) (call : BindingCall) :
    ∃ added, Inlines (emitted ++ added) (file.call call).2 ∧
      (∀ h ∈ added, ∃ name, call = .helper name ∧ helperRegistry.Reaches [name] h) ∧
      ∀ name, call = .helper name → helperRegistry.has name = true → name ∈ (emitted ++ added).map (·.name) := by
  cases call with
  | helper n =>
    obtain ⟨added, hdone, hreach, hin⟩ := hfile.request n
    refine ⟨added, hdone, fun h hh => ⟨n, rfl, hreach h hh⟩, fun name hname hhas => ?_⟩
    obtain rfl := BindingCall.helper.inj hname
    exact hin hhas
  | _ =>
    refine ⟨[], ?_, by simp, by simp⟩
    rw [List.append_nil]
    exact hfile.congr rfl (fun _ => rfl) rfl

/-- A row of calls adds the helpers that it asks for with all that they call. -/
theorem afterCalls (hfile : Inlines emitted file) (calls : List BindingCall) :
    ∃ added, Inlines (emitted ++ added) (file.afterCalls calls) ∧
      (∀ h ∈ added, ∃ name, .helper name ∈ calls ∧ helperRegistry.Reaches [name] h) ∧
      ∀ name, .helper name ∈ calls → helperRegistry.has name = true → name ∈ (emitted ++ added).map (·.name) := by
  induction calls generalizing emitted file with
  | nil =>
    refine ⟨[], ?_, by simp, by simp⟩
    rw [List.append_nil]
    exact hfile
  | cons first rest ih =>
    obtain ⟨added, hnext, hreach, hin⟩ := hfile.call first
    obtain ⟨more, hdone, hreach', hin'⟩ := ih hnext
    rw [List.append_assoc] at hdone hin'
    refine ⟨added ++ more, hdone, fun h hh => ?_, fun name hname hhas => ?_⟩
    · rcases List.mem_append.mp hh with hh | hh
      · obtain ⟨name, rfl, hname⟩ := hreach h hh
        exact ⟨name, List.mem_cons_self, hname⟩
      · obtain ⟨name, hmem, hname⟩ := hreach' h hh
        exact ⟨name, List.mem_cons_of_mem _ hmem, hname⟩
    · rcases List.mem_cons.mp hname with hfirst | hname
      · refine List.map_subset _ ?_ (hin name hfirst.symm hhas)
        rw [← List.append_assoc]
        exact List.subset_append_left _ _
      · exact hin' name hname hhas

/-- A file that defines a helper defines all that the helper calls for. -/
theorem mem_of_reaches (hfile : Inlines emitted file) {name : String} (hname : name ∈ emitted.map (·.name))
    {called : String} (hreach : Relation.ReflTransGen helperRegistry.Calls name called) :
    called ∈ emitted.map (·.name) := by
  induction hreach with
  | refl => exact hname
  | tail _ hcalls ih =>
    obtain ⟨g, hget, hdependency⟩ := hcalls
    obtain ⟨h, hh, rfl⟩ := List.mem_map.mp ih
    have hsame : h = g :=
      Option.some.inj ((get?_of_mem_helperRegistry h (hfile.mem h hh)).symm.trans hget)
    exact hfile.first.mem hh (hsame ▸ hdependency)

end Inlines

theorem exists_mem_of_callee (hmem : h ∈ helperRegistry) {called : String}
    (hcalled : called ∈ h.name :: h.dependencies) : ∃ g ∈ helperRegistry, g.name = called := by
  rcases List.mem_cons.mp hcalled with rfl | hd
  · exact ⟨h, hmem, rfl⟩
  · exact exists_mem_of_has (has_of_mem_dependencies h hmem called hd)

/-- What is renamed in a definition: the helper itself and those that it calls, each to the binding that is
recorded for it. -/
theorem Inlines.renamed (hfile : Inlines emitted file) (hh : h ∈ emitted) {text : String}
    (hwritten : file.Written h text) :
    functionName? text = file.declared.lookup h.name ∧
      List.Forall₂ file.Renamed (pieces h.body) (pieces text) := by
  obtain ⟨x, hx, rfl⟩ := hwritten
  have hmem := hfile.mem h hh
  have himage (name new : String) (hnew : file.renames h x name = some new) : IsWord name ∧ IsWord new := by
    obtain ⟨called, hcalled, rfl, hlookup⟩ := exists_of_renames hx hnew
    obtain ⟨g, hg, rfl⟩ := exists_mem_of_callee hmem hcalled
    exact ⟨isWord_helperLocal (isWordText_of_mem_helperRegistry hg), hfile.isWord _ _ hlookup⟩
  refine ⟨by rw [hx, functionName?_renames hmem (hfile.isWord _ _ hx)], ?_⟩
  rw [pieces_rename himage]
  refine renamed_renamePieces (fun g hg hbinding => ?_) (fun piece hno => ?_) (callsOnly_body h hmem)
  · rw [Helper.localName, renames_localName hx hbinding]
    have hcalled : g.name ∈ h.name :: h.dependencies := by
      obtain ⟨called, hcalled, hlocal⟩ := List.mem_map.mp hbinding
      exact helperLocal_inj.mp hlocal ▸ hcalled
    rcases List.mem_cons.mp hcalled with hself | hd
    · exact ⟨x, hself ▸ hx, hself ▸ hx⟩
    · obtain ⟨y, hy⟩ := hfile.lookup_dependency hh hd
      exact ⟨y, hy, hy⟩
  · by_contra hsome
    obtain ⟨new, hnew⟩ := Option.ne_none_iff_exists'.mp hsome
    obtain ⟨called, hcalled, rfl, -⟩ := exists_of_renames hx hnew
    obtain ⟨g, hg, rfl⟩ := exists_mem_of_callee hmem hcalled
    exact hno g hg rfl

/-- A file that defines its helpers itself, behind any row of calls. The helpers that it defines are those
that were asked for with all that they call, each defined once and behind all that it calls. Each
definition is a function under the binding recorded for its helper. It is the body of the helper, piece by
piece, with the binding recorded for it in place of each helper named, and all else as it is. -/
theorem inline_helpers_closed {start : FileState} (hstart : start.Untouched) (hservice : start.service = .inline)
    (calls : List BindingCall) :
    let file := start.afterCalls calls
    ∃ emitted : List Helper,
      (∀ h, h ∈ emitted ↔ h ∈ helperRegistry ∧
        ∃ name, .helper name ∈ calls ∧ Relation.ReflTransGen helperRegistry.Calls name h.name) ∧
      (emitted.map (·.name)).Nodup ∧ DependenciesFirst emitted ∧
      List.Forall₂ (fun h text => ∃ x, file.declared.lookup h.name = some x ∧ functionName? text = some x ∧
        List.Forall₂ file.Renamed (pieces h.body) (pieces text)) emitted file.inlineHelpers := by
  intro file
  obtain ⟨emitted, hfile, hreach, hin⟩ := (Inlines.start hstart hservice).afterCalls calls
  rw [List.nil_append] at hfile hin
  refine ⟨emitted, fun h => ⟨fun hh => ⟨hfile.mem h hh, ?_⟩, ?_⟩, hfile.nodup, hfile.first, ?_⟩
  · obtain ⟨name, hname, called, hcalled, hpath⟩ := hreach h hh
    exact ⟨name, hname, List.mem_singleton.mp hcalled ▸ hpath⟩
  · rintro ⟨hmem, name, hname, hpath⟩
    have hhas : helperRegistry.has name = true := by
      -- A name outside of the registry calls nothing.
      rcases hpath.cases_head with rfl | ⟨_, ⟨g, hget, -⟩, -⟩
      · exact Registry.has_iff.mpr ⟨h, get?_of_mem_helperRegistry h hmem⟩
      · exact Registry.has_iff.mpr ⟨g, hget⟩
    obtain ⟨g, hg, hsame⟩ := List.mem_map.mp (hfile.mem_of_reaches (hin name hname hhas) hpath)
    have hget := get?_of_mem_helperRegistry g (hfile.mem g hg)
    rw [hsame, get?_of_mem_helperRegistry h hmem] at hget
    exact Option.some.inj hget ▸ hg
  · rw [List.forall₂_iff_zip]
    have hwritten := List.forall₂_iff_zip.mp hfile.written
    refine ⟨hwritten.1, fun {h text} hpair => ?_⟩
    have hh := (List.of_mem_zip hpair).1
    obtain ⟨x, hx⟩ := (hfile.declared_iff h.name).mpr (List.mem_map_of_mem hh)
    obtain ⟨hfunction, hpieces⟩ := hfile.renamed hh (hwritten.2 hpair)
    exact ⟨x, hx, hfunction.trans hx, hpieces⟩

/-- A source that has a function of the name of a helper, and a name that is taken before the helper is
asked for. The helper that is only called stands first, and both have other names. -/
theorem inline_helpers_closed_inherits :
    let start := preparedFile [] {} "function _setPrototypeOf() \x7b\x7d"
    let calls : List BindingCall := [.name "inherits", .helper "inherits", .helper "setPrototypeOf"]
    let file := start.afterCalls calls
    start.Untouched ∧ start.service = .inline ∧
      file.declared.lookup "inherits" = some "_inherits2" ∧
      file.declared.lookup "setPrototypeOf" = some "_setPrototypeOf2" ∧
      ∃ emitted : List Helper, setPrototypeOf ∈ emitted ∧ DependenciesFirst emitted ∧
        List.Forall₂ (fun h text => functionName? text = file.declared.lookup h.name) emitted
          file.inlineHelpers := by
  intro start calls file
  have hstart := untouched_preparedFile [] {} "function _setPrototypeOf() \x7b\x7d"
  obtain ⟨emitted, hmem, -, hfirst, htexts⟩ := inline_helpers_closed hstart rfl calls
  have hcalls : helperRegistry.Calls "inherits" "setPrototypeOf" :=
    ⟨inheritsHelper, rfl, List.mem_cons_self⟩
  refine ⟨hstart, rfl, by decide +kernel, by decide +kernel, emitted, ?_, hfirst, ?_⟩
  · exact (hmem setPrototypeOf).mpr ⟨by simp [helperRegistry], "inherits", by decide, .single hcalls⟩
  · refine htexts.imp fun h text => ?_
    rintro ⟨x, hx, hfunction, -⟩
    exact hfunction.trans hx.symm

end FileState

end ModuleBuild
