import Mathlib
import ModuleBuild.Proofs.Compile.Freshness

/-!
# Files beside each other

Plugins are shared between files, and files are compiled beside each other. An importer keeps the
references that it gave, so two files that reached the same one would get references without the imports
that bind them. Here importers stand on a heap that all files can reach, and a file has the place of its
own one. Preparing a file puts a new importer there, so places are never shared, and what happens to one
file is no concern of the others, in whichever order things happen.

## Main definitions

* `FileAction`, `FileRun` — what happens to a file, and a file with the answers that it got.
* `Workspace` — files beside each other, with their importers on a heap.
* `Workspace.Separate` — no two files have the same importer.

## Main statements

* `Workspace.view_act_self`, `Workspace.view_act_of_ne` — what one action does to the files.
* `Workspace.view_run` — what an interleaving does to a file.
* `Workspace.files_independent` — prepared files, under all interleavings of their requests.
-/

namespace ModuleBuild

open Text

/-- What happens to a file. -/
inductive FileAction where
  | prepare (plugin : CompilerPlugin)
  | request (name : String)
  deriving DecidableEq, Inhabited, Repr

/-- A file with the answers that its requests got. -/
structure FileRun where
  file : FileState
  answers : List (Except CompileError String) := []

/-- What an action does to a file by itself. -/
def FileRun.act (run : FileRun) : FileAction → FileRun
  | .prepare plugin => { run with file := plugin.prepare run.file }
  | .request name =>
    let (answer, file) := run.file.request name
    { file, answers := run.answers ++ [answer] }

/-- A file whose importer stands on a heap. -/
structure HeldFile where
  run : FileRun
  /-- The place of the importer. -/
  cell : Option Nat := none

/-- Files that are compiled beside each other. -/
structure Workspace (ι : Type) where
  importers : List HelperImporter := []
  files : ι → HeldFile

namespace Workspace

variable {ι : Type} [DecidableEq ι] {w : Workspace ι} {i j : ι} {action : FileAction}

/-- The importer that a file reaches. -/
def importer? (w : Workspace ι) (i : ι) : Option HelperImporter :=
  (w.files i).cell.bind (w.importers[·]?)

/-- A file as the compile sees it, with the importer that it reaches. -/
def view (w : Workspace ι) (i : ι) : FileRun :=
  { (w.files i).run with file := { (w.files i).run.file with importer := w.importer? i } }

/-- Puts the importer of a file back to its place. -/
def putBack (importers : List HelperImporter) : Option Nat → Option HelperImporter → List HelperImporter
  | some cell, some importer => importers.set cell importer
  | _, _ => importers

/-- An action of one file. Preparing it for shared helpers makes a new importer; a request may change the
importer that the file reaches. -/
def act (w : Workspace ι) (i : ι) : FileAction → Workspace ι
  | .prepare (.importHelpers moduleId) =>
    { importers := w.importers ++ [{ moduleId }]
      files := Function.update w.files i { w.files i with cell := some w.importers.length } }
  | .prepare plugin =>
    { w with
      files := Function.update w.files i { w.files i with run := (w.files i).run.act (.prepare plugin) } }
  | .request name =>
    let run := (w.view i).act (.request name)
    { importers := putBack w.importers (w.files i).cell run.file.importer
      files := Function.update w.files i { w.files i with run } }

/-- Actions in the order in which they happen. -/
def run (w : Workspace ι) (schedule : List (ι × FileAction)) : Workspace ι :=
  schedule.foldl (fun w step => w.act step.1 step.2) w

/-- The actions of one file. -/
def own (i : ι) (schedule : List (ι × FileAction)) : List FileAction :=
  (schedule.filter (·.1 = i)).map (·.2)

/-- Files as they are before anything happens to them. -/
def opened (source : ι → CompilerOptions × String) : Workspace ι where
  files i := { run := { file := preparedFile [] (source i).1 (source i).2 } }

/-! ## Separate importers -/

/-- Each importer is reached from one file at most. -/
structure Separate (w : Workspace ι) : Prop where
  lt : ∀ i cell, (w.files i).cell = some cell → cell < w.importers.length
  inj : ∀ i j cell, (w.files i).cell = some cell → (w.files j).cell = some cell → i = j

omit [DecidableEq ι] in
theorem separate_opened (source : ι → CompilerOptions × String) : Separate (opened source) where
  lt i cell h := by cases h
  inj i j cell h := by cases h

theorem length_putBack (importers : List HelperImporter) (cell : Option Nat)
    (importer : Option HelperImporter) : (putBack importers cell importer).length = importers.length := by
  unfold putBack
  split
  · exact List.length_set
  · rfl

omit [DecidableEq ι] in
/-- Where no importer is made, files keep their places. -/
theorem Separate.congr {w' : Workspace ι} (h : w.Separate) (hcell : ∀ i, (w'.files i).cell = (w.files i).cell)
    (hlength : w'.importers.length = w.importers.length) : w'.Separate where
  lt i cell hi := hlength ▸ h.lt i cell (hcell i ▸ hi)
  inj i j cell hi hj := h.inj i j cell (hcell i ▸ hi) (hcell j ▸ hj)

theorem cell_update (w : Workspace ι) (i : ι) (run : FileRun) (j : ι) :
    (Function.update w.files i { w.files i with run } j).cell = (w.files j).cell := by
  by_cases hj : j = i
  · rw [hj, Function.update_self]
  · rw [Function.update_of_ne hj]

/-- The new importer stands where no file has its own one. -/
theorem Separate.prepareImporter (h : w.Separate) (i : ι) (moduleId : String) :
    (w.act i (.prepare (.importHelpers moduleId))).Separate := by
  have hcell (j : ι) : ((w.act i (.prepare (.importHelpers moduleId))).files j).cell =
      if j = i then some w.importers.length else (w.files j).cell := by
    by_cases hj : j = i
    · simp [act, hj]
    · simp [act, hj]
  have hlength : (w.act i (.prepare (.importHelpers moduleId))).importers.length = w.importers.length + 1 := by
    simp [act]
  refine ⟨fun j cell hj => ?_, fun j k cell hj hk => ?_⟩
  · rw [hcell] at hj
    rw [hlength]
    split at hj
    · obtain rfl := Option.some.inj hj
      exact Nat.lt_succ_self _
    · exact Nat.lt_succ_of_lt (h.lt j cell hj)
  · rw [hcell] at hj hk
    split at hj <;> split at hk
    · simp_all
    · obtain rfl := Option.some.inj hj
      exact absurd (h.lt k _ hk) (Nat.lt_irrefl _)
    · obtain rfl := Option.some.inj hk
      exact absurd (h.lt j _ hj) (Nat.lt_irrefl _)
    · exact h.inj j k cell hj hk

theorem Separate.act (h : w.Separate) (i : ι) (action : FileAction) : (w.act i action).Separate := by
  cases action with
  | request name => exact h.congr (cell_update w i _) (length_putBack _ _ _)
  | prepare plugin =>
    cases plugin with
    | importHelpers moduleId => exact h.prepareImporter i moduleId
    | _ => exact h.congr (cell_update w i _) rfl

/-! ## One action -/

end Workspace

namespace FileState

variable {file : FileState} {name : String}

theorem isSome_importer_iff : file.importer.isSome = true ↔ ∃ id, file.service = .importer id := by
  unfold service
  split <;> simp_all

/-- A request neither makes nor removes an importer. -/
theorem isSome_importer_request (file : FileState) (name : String) :
    (file.request name).2.importer.isSome = file.importer.isSome := by
  obtain ⟨_, hadded, -⟩ := emits_request file name
  rw [Bool.eq_iff_iff, isSome_importer_iff, isSome_importer_iff, hadded.service_eq]

end FileState

namespace Workspace

variable {ι : Type} [DecidableEq ι] {w : Workspace ι} {i j : ι}

omit [DecidableEq ι] in
/-- An importer that is put back is the one that is found there next. -/
theorem Separate.bind_putBack (h : w.Separate) (i : ι) {importer : Option HelperImporter}
    (hsome : importer.isSome = (w.importer? i).isSome) :
    (w.files i).cell.bind ((putBack w.importers (w.files i).cell importer)[·]?) = importer := by
  unfold importer? at hsome
  cases hcell : (w.files i).cell with
  | none =>
    have hnone : importer.isSome = false := by simpa [hcell] using hsome
    exact (Option.not_isSome_iff_eq_none.mp (by simp [hnone])).symm
  | some cell =>
    have hlt := h.lt i cell hcell
    have hfound : importer.isSome = true := by simpa [hcell, hlt] using hsome
    obtain ⟨found, rfl⟩ := Option.isSome_iff_exists.mp hfound
    simp [putBack, hlt]

omit [DecidableEq ι] in
/-- What is put back for one file is not seen by another one. -/
theorem Separate.importer?_putBack (h : w.Separate) (hne : j ≠ i) (importer : Option HelperImporter) :
    (w.files j).cell.bind ((putBack w.importers (w.files i).cell importer)[·]?) = w.importer? j := by
  unfold importer?
  cases hcell : (w.files j).cell with
  | none => rfl
  | some cell =>
    unfold putBack
    split
    · rename_i other found hother
      have hapart : other ≠ cell := by
        rintro rfl
        exact hne (h.inj j i other hcell hother)
      simp [List.getElem?_set_ne hapart]
    · rfl

/-- Its own actions do to a file what they do to it by itself. -/
theorem view_act_self (h : w.Separate) (i : ι) (action : FileAction) :
    (w.act i action).view i = (w.view i).act action := by
  cases action with
  | request name =>
    have hsome := FileState.isSome_importer_request (w.view i).file name
    have hback := h.bind_putBack i hsome
    simp only [view, importer?, act, Function.update_self, FileRun.act] at hback ⊢
    rw [hback]
  | prepare plugin =>
    cases plugin with
    | importHelpers moduleId => simp [view, importer?, act, FileRun.act, CompilerPlugin.prepare]
    | _ => simp [view, importer?, act, FileRun.act, CompilerPlugin.prepare]

/-- An action of one file leaves the others as they are. -/
theorem view_act_of_ne (h : w.Separate) (hne : j ≠ i) (action : FileAction) :
    (w.act i action).view j = w.view j := by
  cases action with
  | request name =>
    have hback := h.importer?_putBack hne ((w.view i).act (.request name)).file.importer
    simp only [view, importer?, act, Function.update_of_ne hne] at hback ⊢
    rw [hback]
  | prepare plugin =>
    cases plugin with
    | importHelpers moduleId =>
      have hkept : (w.files j).cell.bind ((w.importers ++ [⟨moduleId, []⟩])[·]?) = w.importer? j := by
        unfold importer?
        cases hcell : (w.files j).cell with
        | none => rfl
        | some cell => exact List.getElem?_append_left (h.lt j cell hcell)
      simp only [importer?] at hkept
      simp only [view, importer?, act, Function.update_of_ne hne, hkept]
    | _ => simp only [view, importer?, act, Function.update_of_ne hne]

/-! ## Interleavings -/

/-- Behind an interleaving, a file is what its own actions make of it. -/
theorem view_run (h : w.Separate) (schedule : List (ι × FileAction)) (i : ι) :
    (w.run schedule).view i = (own i schedule).foldl FileRun.act (w.view i) := by
  induction schedule generalizing w with
  | nil => rfl
  | cons step rest ih =>
    have hrun : (w.run (step :: rest)).view i = (own i rest).foldl FileRun.act ((w.act step.1 step.2).view i) :=
      ih (h.act step.1 step.2)
    rw [hrun]
    by_cases hi : step.1 = i
    · subst hi
      have hown : own step.1 (step :: rest) = step.2 :: own step.1 rest := by simp [own]
      rw [view_act_self h, hown, List.foldl_cons]
    · have hown : own i (step :: rest) = own i rest := by simp [own, hi]
      rw [view_act_of_ne h (Ne.symm hi), hown]

end Workspace

/-! ## Requests of one file -/

namespace FileState

variable {start : FileState}

/-- The answers to a row of requests. -/
def answers (file : FileState) : List String → List (Except CompileError String)
  | [] => []
  | name :: rest => (file.request name).1 :: (file.request name).2.answers rest

/-- The names that the imports and the definitions of a file bind. -/
def bindings (file : FileState) : List String :=
  file.imports.map (·.localName) ++ file.inlineHelpers.filterMap functionName?

/-- What was answered, the file has as a reference from then on. -/
theorem served?_of_mem_answers {file : FileState} {names : List String} {reference : String}
    (h : .ok reference ∈ file.answers names) :
    ∃ name, (file.afterRequests names).served? name = some reference := by
  induction names generalizing file with
  | nil => cases h
  | cons first rest ih =>
    rcases List.mem_cons.mp h with hfirst | hrest
    · obtain ⟨_, -, hanswer, -⟩ := emits_request file first
      obtain ⟨_, hlater, -⟩ := emits_afterRequests (file.request first).2 rest
      exact ⟨first, hlater.served (hanswer reference hfirst.symm)⟩
    · exact ih hrest

theorem Apart.afterRequests (h : Apart start) (names : List String) : Apart (start.afterRequests names) :=
  List.foldlRecOn names _ h fun _ hfile name _ => hfile.request name

/-- Each binding that a row of helpers costs stands for one import or for one definition. -/
theorem length_of_provides {service : HelperService} {helpers : List (String × String)}
    {imports : List InjectedImport} {definitions taken : List String}
    (h : service.Provides helpers imports definitions taken) :
    taken.length = imports.length + definitions.length := by
  cases service with
  | importer moduleId =>
    obtain ⟨rfl, rfl, rfl⟩ := h
    simp
  | runtime moduleName useModules format =>
    obtain ⟨rfl, rfl, rfl⟩ := h
    simp
  | inline =>
    obtain ⟨rfl, hdefinitions, rfl⟩ := h
    simp [hdefinitions.length_eq]
  | external =>
    obtain ⟨rfl, rfl, rfl, -⟩ := h
    rfl

/-- Requests take names for imports and definitions only. -/
theorem Untouched.names_subset_bindings (h : start.Untouched) (names : List String) :
    (start.afterRequests names).names ⊆ (start.afterRequests names).bindings := by
  obtain ⟨functions, hfunctions, hnodup, hsub⟩ := (h.apart.afterRequests names).bound_once
  obtain ⟨helpers, hemits, -⟩ := emits_afterRequests start names
  obtain ⟨imports, definitions, taken, hprovides, himports, hdefinitions, htaken⟩ := hemits.materialized
  rw [h.imports_eq, List.nil_append] at himports
  rw [h.inlineHelpers_eq, List.nil_append] at hdefinitions
  rw [h.names_eq, List.append_nil] at htaken
  have hbindings : (start.afterRequests names).bindings =
      (start.afterRequests names).imports.map (·.localName) ++ functions := by
    have hsome := congrArg (List.filterMap id) hfunctions
    rw [List.filterMap_map, List.filterMap_map] at hsome
    rw [bindings, ← show _ = functions by simpa using hsome]
  -- The names bound differ and are as many as the names taken, so none is left over.
  have hcount : (start.afterRequests names).names.length ≤
      ((start.afterRequests names).imports.map (·.localName) ++ functions).length := by
    have hlength := congrArg List.length hfunctions
    rw [List.length_map, List.length_map, hdefinitions] at hlength
    rw [htaken, himports, List.length_append, List.length_map, List.length_reverse,
      length_of_provides hprovides, hlength]
  rw [hbindings]
  exact ((List.subperm_of_subset hnodup hsub).perm_of_length_le hcount).symm.subset

/-- The references of a file behind requests are bound in it, unless helpers are external. -/
theorem Untouched.bound_of_answered (h : start.Untouched) {names : List String} {reference : String}
    (hanswer : .ok reference ∈ start.answers names) :
    reference ∈ (start.afterRequests names).bindings ∨
      start.service = .external ∧ ∃ name, reference = externalReference name := by
  obtain ⟨name, hserved⟩ := served?_of_mem_answers hanswer
  obtain ⟨helpers, hemits, -⟩ := emits_afterRequests start names
  have hapart := h.apart.afterRequests names
  obtain ⟨_, hgrows⟩ := hemits.grows h.toUnrequested.references hapart
  rcases (hgrows.references h.toUnrequested.references hapart).mem name reference hserved with
    hmem | ⟨hexternal, rfl⟩
  · exact .inl (h.names_subset_bindings names hmem)
  · exact .inr ⟨hemits.service_eq ▸ hexternal, name, rfl⟩

theorem service_eq_external_iff : start.service = .external ↔ start.importer = none ∧ start.mode = .external := by
  unfold service
  split <;> simp_all

/-- A plugin that shares helpers puts an importer into the files that it prepares, and no plugin takes it
out again. -/
theorem isSome_importer_foldl {plugins : List CompilerPlugin} {file : FileState}
    (h : file.importer.isSome = true ∨ ∃ id, .importHelpers id ∈ plugins) :
    (plugins.foldl (fun file plugin => plugin.prepare file) file).importer.isSome = true := by
  induction plugins generalizing file with
  | nil =>
    rcases h with hsome | ⟨id, hid⟩
    · exact hsome
    · cases hid
  | cons first rest ih =>
    refine ih ?_
    rcases h with hsome | ⟨id, hid⟩
    · cases first with
      | importHelpers moduleId => exact .inl rfl
      | _ => exact .inl hsome
    · rcases List.mem_cons.mp hid with rfl | hid
      · exact .inl rfl
      · exact .inr ⟨id, hid⟩

end FileState

/-- A file that is prepared and then asked for helpers. -/
theorem FileRun.foldl_act (plugins : List CompilerPlugin) (options : CompilerOptions) (code : String)
    (names : List String) :
    (plugins.map FileAction.prepare ++ names.map FileAction.request).foldl act
        { file := preparedFile [] options code } =
      { file := (preparedFile plugins options code).afterRequests names
        answers := (preparedFile plugins options code).answers names } := by
  have hprepare (run : FileRun) : (plugins.map FileAction.prepare).foldl act run =
      { run with file := plugins.foldl (fun file plugin => plugin.prepare file) run.file } := by
    induction plugins generalizing run with
    | nil => rfl
    | cons plugin rest ih => exact ih (run.act (.prepare plugin))
  have hrequest (run : FileRun) : (names.map FileAction.request).foldl act run =
      { file := run.file.afterRequests names, answers := run.answers ++ run.file.answers names } := by
    induction names generalizing run with
    | nil => simp [FileState.afterRequests, FileState.answers]
    | cons name rest ih =>
      rw [List.map_cons, List.foldl_cons, ih]
      simp [act, FileState.afterRequests, FileState.answers]
  rw [List.foldl_append, hprepare, hrequest]
  rfl

namespace Workspace

variable {ι : Type} [DecidableEq ι]

/-- Files that the same plugins have prepared, under any interleaving of all that happens to them: each
file and its answers are those of its own requests made alone, whether the other files are there or not.
So each reference that a file was given is bound by an import or by a definition of this file, unless
helpers are external and no plugin shares them. -/
theorem files_independent (plugins : List CompilerPlugin) (source : ι → CompilerOptions × String)
    (names : ι → List String) {schedule : List (ι × FileAction)}
    (hschedule : ∀ i, own i schedule = plugins.map .prepare ++ (names i).map .request) (i : ι) :
    let start := preparedFile plugins (source i).1 (source i).2
    let done := ((opened source).run schedule).view i
    done.file = start.afterRequests (names i) ∧ done.answers = start.answers (names i) ∧
    done = ((opened source).run (schedule.filter (·.1 = i))).view i ∧
    ∀ reference, .ok reference ∈ done.answers → reference ∈ done.file.bindings ∨
      (∀ id, .importHelpers id ∉ plugins) ∧ start.mode = .external ∧
        ∃ name, reference = externalReference name := by
  intro start done
  have hdone : done = { file := start.afterRequests (names i), answers := start.answers (names i) } := by
    have hrun := view_run (separate_opened source) schedule i
    rw [hschedule] at hrun
    exact hrun.trans (FileRun.foldl_act plugins (source i).1 (source i).2 (names i))
  have halone : own i (schedule.filter (·.1 = i)) = own i schedule := by simp [own]
  refine ⟨by rw [hdone], by rw [hdone], ?_, fun reference hanswer => ?_⟩
  · rw [view_run (separate_opened source), halone, ← view_run (separate_opened source)]
  · rw [hdone] at hanswer ⊢
    refine ((FileState.untouched_preparedFile plugins _ _).bound_of_answered hanswer).imp_right ?_
    rintro ⟨hservice, hreference⟩
    obtain ⟨hnone, hmode⟩ := FileState.service_eq_external_iff.mp hservice
    refine ⟨fun id hid => ?_, hmode, hreference⟩
    have hsome : (preparedFile plugins (source i).1 (source i).2).importer.isSome = true :=
      FileState.isSome_importer_foldl (.inr ⟨id, hid⟩)
    simp [hnone] at hsome

/-- Two files that ask for the same helper at the same time. One of them has the name of its import
already, the other one also asks for a helper that there is not. -/
theorem files_independent_extends :
    let plugins : List CompilerPlugin := [.importHelpers helperModuleId]
    let source : Bool → CompilerOptions × String := fun i => ({}, if i then "const _extends = 1;" else "")
    let names : Bool → List String := fun i => if i then ["extends", "extends"] else ["extends", "missing"]
    let schedule : List (Bool × FileAction) :=
      [(true, .prepare (.importHelpers helperModuleId)), (false, .prepare (.importHelpers helperModuleId)),
        (true, .request "extends"), (false, .request "extends"), (false, .request "missing"),
        (true, .request "extends")]
    (∀ i, own i schedule = plugins.map .prepare ++ (names i).map .request) ∧
      (((opened source).run schedule).view true).answers = [.ok "_extends2", .ok "_extends2"] ∧
      (((opened source).run schedule).view false).answers =
        [.ok "_extends", .error (.unknownHelper "missing")] ∧
      "_extends" ∈ (((opened source).run schedule).view false).file.bindings := by
  intro plugins source names schedule
  have hschedule : ∀ i, own i schedule = plugins.map .prepare ++ (names i).map .request := by
    decide +kernel
  obtain ⟨-, hfirst, -⟩ := files_independent plugins source names hschedule true
  obtain ⟨-, hanswers, -, hbound⟩ := files_independent plugins source names hschedule false
  have hsecond : (((opened source).run schedule).view false).answers =
      [.ok "_extends", .error (.unknownHelper "missing")] := hanswers.trans (by decide +kernel)
  refine ⟨hschedule, hfirst.trans (by decide +kernel), hsecond, ?_⟩
  rcases hbound "_extends" (by rw [hsecond]; exact List.mem_cons_self) with hmem | ⟨hno, -⟩
  · exact hmem
  · exact absurd List.mem_cons_self (hno helperModuleId)

/-- Two files that reach one importer: the second one is given a reference that nothing in it binds. -/
example :
    let w : Workspace Bool := ⟨[⟨helperModuleId, []⟩], fun _ => ⟨⟨{}, []⟩, some 0⟩⟩
    let done := (w.run [(true, .request "extends"), (false, .request "extends")]).view false
    done.answers = [.ok "_extends"] ∧ done.file.bindings = [] := by
  decide +kernel

end Workspace

end ModuleBuild
