import Mathlib
import ModuleBuild.Compile.Standard
import ModuleBuild.Proofs.Compile.Freshness
import ModuleBuild.Proofs.Compile.Sites

/-!
# The steps of a compile

A compile that succeeds has succeeded in each of its steps. What they gave is kept here, so that statements
about the output can be made about the parts that it is put together from.

## Main definitions

* `CompileSteps` — what the steps of a compile gave.
* `CompileSteps.lead`, `CompileSteps.edits`, `CompileSteps.body` — the parts of its output.

## Main statements

* `compile_eq_ok_iff` — a compile succeeds just if its steps do.
* `CompileSteps.exists_site_of_mem_siteEdits` — plugins edit nothing but sites.
* `CompileSteps.apart` — what the compile adds binds each of its names once.
-/

namespace ModuleBuild

open Script Text

deriving instance DecidableEq for PlainUnit

/-- What the steps of a compile gave. -/
structure CompileSteps (toolchain : Toolchain) (code : String) (options : CompilerOptions)
    (output : CompileOutput) where
  plugins : List CompilerPlugin
  plain : PlainProgram
  unit : PlainUnit
  siteEdits : List Edit
  /-- The file when all sites are rewritten. -/
  file : FileState
  moduleEdits : List Edit
  plugins_eq : resolveAll options.plugins options.presets options.caller = .ok plugins
  plain_eq : toolchain.plain? options code = .ok plain
  unit_eq : toolchain.read? (options.sourceType != some .script) plain.code = some unit
  siteEdits_eq : rewriteSites plugins unit.sites (preparedFile plugins options code) = .ok (siteEdits, file)
  moduleEdits_eq : file.moduleEdits unit.items = .ok moduleEdits
  code_eq : output.code = file.preamble unit.items ++ applyEdits plain.code (siteEdits ++ moduleEdits)
  map_eq : output.map = if options.sourceMaps then
      some (.ofFile options.sourceName code (plain.skip + lineEnds (file.preamble unit.items)))
    else none

namespace CompileSteps

variable {toolchain : Toolchain} {code : String} {options : CompilerOptions} {output : CompileOutput}
  (steps : CompileSteps toolchain code options output)

/-- What stands before the code. -/
def lead : String :=
  steps.file.preamble steps.unit.items

/-- The edits that the compile makes in plain code. -/
def edits : List Edit :=
  steps.siteEdits ++ steps.moduleEdits

/-- The plain code with these edits. -/
def body : String :=
  applyEdits steps.plain.code steps.edits

theorem code_eq_append : output.code = steps.lead ++ steps.body :=
  steps.code_eq

end CompileSteps

/-- A compile succeeds just if all of its steps do. -/
theorem compile_eq_ok_iff {toolchain : Toolchain} {code : String} {options : CompilerOptions}
    {output : CompileOutput} :
    toolchain.compile code options = .ok output ↔ Nonempty (CompileSteps toolchain code options output) := by
  constructor
  · intro h
    obtain ⟨plugins, hplugins, h⟩ := bind_eq_ok.1 h
    obtain ⟨plain, hplain, h⟩ := bind_eq_ok.1 h
    cases hunit : toolchain.read? (options.sourceType != some .script) plain.code with
    | none =>
      rw [hunit] at h
      cases h
    | some unit =>
      rw [hunit] at h
      obtain ⟨⟨siteEdits, file⟩, hsites, h⟩ := bind_eq_ok.1 h
      obtain ⟨moduleEdits, hmodule, h⟩ := bind_eq_ok.1 h
      obtain rfl := Except.ok.inj h
      exact ⟨⟨plugins, plain, unit, siteEdits, file, moduleEdits, hplugins, hplain, hunit, hsites, hmodule,
        rfl, rfl⟩⟩
  · rintro ⟨steps⟩
    unfold Toolchain.compile
    simp only [steps.plugins_eq, steps.plain_eq, steps.unit_eq, steps.siteEdits_eq, steps.moduleEdits_eq,
      bind, Except.bind, pure, Except.pure]
    exact congrArg Except.ok (congrArg₂ CompileOutput.mk steps.code_eq.symm steps.map_eq.symm)

/-! ## What plugins ask for -/

/-- The helpers that sites need are called by words. -/
theorem isWordText_of_helper? {plugins : List CompilerPlugin} {site : Site} {name : String}
    (h : site.helper? plugins = some name) : IsWordText name := by
  obtain ⟨plugin, -, hplugin⟩ := List.exists_of_findSome?_eq_some h
  unfold CompilerPlugin.helperFor at hplugin
  split at hplugin
  · obtain rfl := Option.some.inj hplugin
    decide
  · split at hplugin
    · obtain rfl := Option.some.inj hplugin
      decide
    · cases hplugin
  · cases hplugin

/-- The reference that a request got is the one that the file has behind all requests. -/
theorem FileState.Requested.served {start file : FileState} {requests : List (String × String)}
    (hstart : start.Untouched) (h : Requested start requests file) (hnames : ∀ r ∈ requests, IsWordText r.1) :
    file.Apart ∧ file.References ∧ ∀ r ∈ requests, file.served? r.1 = some r.2 := by
  induction h with
  | refl => exact ⟨hstart.apart, hstart.toUnrequested.references, by simp⟩
  | @more requests file file' name reference _ request ih =>
    obtain ⟨hapart, hrefs, hserved⟩ := ih fun r hr => hnames r (List.mem_append_left _ hr)
    have hname : IsWordText (BindingCall.helper name).base := hnames (name, reference) (by simp)
    rw [addHelper_eq_request] at request
    obtain ⟨answer, hanswer, hsame⟩ := map_eq_ok.1 request
    obtain ⟨rfl, rfl⟩ := Prod.mk.inj hsame
    obtain ⟨given, hgrows⟩ := call_grows hname hapart hrefs
    have hapart' := hapart.call hname
    refine ⟨hapart', hgrows.references hrefs hapart', fun r hr => ?_⟩
    rcases List.mem_append.1 hr with hr | hr
    · exact hgrows.kept _ _ (hserved r hr)
    · obtain rfl := List.mem_singleton.1 hr
      exact answered_call hname hrefs hanswer

namespace CompileSteps

variable {toolchain : Toolchain} {code : String} {options : CompilerOptions} {output : CompileOutput}
  (steps : CompileSteps toolchain code options output)

/-- The reference to a helper in the file behind all requests. -/
def reference (name : String) : String :=
  (steps.file.served? name).getD ""

/-- The requests of a compile: what they add binds each of its names once, all of them are served, and the
references that they got stand in place of the sites. -/
theorem answers : steps.file.Apart ∧ steps.file.References ∧
    (∀ site ∈ steps.unit.sites, ∀ name, site.helper? steps.plugins = some name →
      steps.file.served? name = some (steps.reference name)) ∧
    steps.siteEdits = steps.unit.sites.filterMap (·.edit? steps.plugins steps.reference) := by
  obtain ⟨requests, hrequests, hnames, hedits⟩ := rewriteSites_edits steps.siteEdits_eq
  have hwords : ∀ r ∈ requests, IsWordText r.1 := fun r hr => by
    have hmem : r.1 ∈ steps.unit.sites.filterMap (·.helper? steps.plugins) := hnames ▸ List.mem_map_of_mem hr
    obtain ⟨site, -, hsite⟩ := List.mem_filterMap.1 hmem
    exact isWordText_of_helper? hsite
  obtain ⟨hapart, hrefs, hserved⟩ := hrequests.served (FileState.untouched_preparedFile _ _ _) hwords
  refine ⟨hapart, hrefs, fun site hsite name hname => ?_, hedits steps.reference fun r hr => ?_⟩
  · have hmem : name ∈ requests.map (·.1) := hnames ▸ List.mem_filterMap.2 ⟨site, hsite, hname⟩
    obtain ⟨r, hr, rfl⟩ := List.mem_map.1 hmem
    rw [reference, hserved r hr, Option.getD_some]
  · rw [reference, hserved r hr, Option.getD_some]

/-- What the compile adds binds each of its names once. -/
theorem apart : steps.file.Apart :=
  steps.answers.1

/-- Plugins put a reference to a helper in place of a site, and edit nothing else. -/
theorem exists_site_of_mem_siteEdits {e : Edit} (he : e ∈ steps.siteEdits) : ∃ site ∈ steps.unit.sites,
    ∃ name, IsWordText name ∧ steps.file.served? name = some (steps.reference name) ∧
      e = ⟨site.span.start, site.span.stop, site.put (steps.reference name)⟩ := by
  obtain ⟨-, -, hserved, hedits⟩ := steps.answers
  rw [hedits] at he
  obtain ⟨site, hsite, hedit⟩ := List.mem_filterMap.1 he
  obtain ⟨name, hname, rfl⟩ := Option.map_eq_some_iff.1 hedit
  exact ⟨site, hsite, name, isWordText_of_helper? hname, hserved site hsite name hname, rfl⟩

end CompileSteps

end ModuleBuild
