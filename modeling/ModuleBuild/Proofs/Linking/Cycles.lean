import Mathlib
import ModuleBuild.Proofs.Linking.Emission

/-!
# Cycles of imports

Visits end, and they fail with a cycle just where the imports that entries reach have one.

## Main statements

* `bundle_cycles` — a bundle of modules with a cycle fails, and a reported cycle is one.
-/

namespace ModuleBuild

open Linking Relation Script

variable {m : Type → Type} [Monad m]

/-- Imports lead to no more modules than there are files, which is less than the bound of visits. -/
theorem InputPlugin.length_paths_lt_depth (input : InputPlugin m)
    (read : String → Option (List ModuleItem)) (files : FileTree) (basePath : Path) :
    files.paths.length < (input.project read files basePath).depth := by
  change (files.entries.map _).length < files.entries.length + 2
  rw [List.length_map]
  omega

theorem InputPlugin.resolve_mem_paths {input : InputPlugin m} {read : String → Option (List ModuleItem)}
    {files : FileTree} {basePath : Path} (specifier importer d : String)
    (h : (input.project read files basePath).resolve specifier importer = .ok (.module d))
    (hd : d ≠ helperModuleId) : d ∈ files.paths :=
  InputPlugin.target_mem_paths h hd

/-- A cycle that is reported with the answers of the log is one. -/
theorem InputPlugin.circular_of_linkedWith {input : InputPlugin m}
    {read : String → Option (List ModuleItem)} {files : FileTree} {config : BundleConfig} {log : LoadLog}
    {answers : String → Except BundleError String} (hagrees : log.Agrees answers)
    (hloads : ∀ l ∈ log, input.Loads files l.1 l.2) {module importer : String} {g : Graph}
    (h : input.linkedWith read files config (log.restrict answers) =
      (.error (.circularImport module importer), g)) :
    let project := input.project read files config.basePath
    project.Needs answers importer module ∧ ReflTransGen (project.Needs answers) module importer ∧
      project.Reached answers files.entryId config.entries importer := by
  intro project
  have hload : ∀ id e, log.restrict answers id = .error e → ¬ e.IsCircular := by
    intro id e he
    rcases hagrees.restrict_error he with rfl | hlog
    · exact not_false
    · exact (hloads _ hlog).1 e rfl
  have hsame : ∀ id text, log.restrict answers id = .ok text → answers id = .ok text :=
    fun id text h => (LoadLog.restrict_eq_ok.mp h).2
  obtain ⟨hreached, hneeds, hback⟩ := linkEntries_circular InputPlugin.resolve_mem_paths
    (input.length_paths_lt_depth read files config.basePath)
    (fun _ _ _ hid => FileTree.entryId_ne_helper hid) (fun _ _ he => FileTree.entryId_not_isCircular he)
    (fun _ _ _ he => InputPlugin.target_not_isCircular he) hload h
  exact ⟨hneeds.mono hsame, ReflTransGen.mono (fun _ _ => Project.Needs.mono hsame) _ _ hback,
    hreached.mono hsame⟩

variable [LawfulMonad m]

/-- Visits end: what they would do below their bound makes no difference. If the imports that entries
reach have a cycle, there is no bundle. If a cycle is reported, the importer needs the module, and the
module needs it in turn; so no cycle is reported if there is none. -/
theorem bundle_cycles (read : String → Option (List ModuleItem)) (files : FileTree)
    (config : BundleConfig) (input : InputPlugin m) (output : Option (OutputPlugin m)) :
    let project := input.project read files config.basePath
    (∀ below : String → Linking (StateT BuildState m) Unit,
      (visitEach (visitUpTo project below project.depth) files.entryId config.entries).run.run {} =
        (visitEach (visit project project.depth) files.entryId config.entries).run.run {}) ∧
    Prod.fst <$> bundleLogged read files config input output =
      (bundle read files config input output).run ∧
    SatisfiesM (fun r : Except BundleError Bundle × LoadLog => ∀ answers, r.2.Agrees answers →
        ((∃ id, project.Reached answers files.entryId config.entries id ∧
            TransGen (project.Needs answers) id id) → ∀ b, r.1 ≠ .ok b) ∧
        (∀ module importer, r.1 = .error (.circularImport module importer) →
          project.Needs answers importer module ∧ ReflTransGen (project.Needs answers) module importer ∧
            project.Reached answers files.entryId config.entries importer) ∧
        ((∀ id, project.Reached answers files.entryId config.entries id →
            ¬ TransGen (project.Needs answers) id id) →
          ∀ module importer, r.1 ≠ .error (.circularImport module importer)))
      (bundleLogged read files config input output) := by
  intro project
  refine ⟨visitEach_upTo InputPlugin.resolve_mem_paths files.entryId config.entries
    (input.length_paths_lt_depth read files config.basePath), fst_bundleLogged, ?_⟩
  refine SatisfiesM.imp bundleLogged_run ?_
  rintro ⟨answer, log⟩ ⟨hloads, hok, herror⟩ answers hanswers
  have hcircular : ∀ module importer, answer = .error (.circularImport module importer) →
      project.Needs answers importer module ∧ ReflTransGen (project.Needs answers) module importer ∧
        project.Reached answers files.entryId config.entries importer := by
    intro module importer hanswer
    obtain ⟨g, hrun⟩ := herror _ hanswer trivial _ hanswers.restrict
    exact InputPlugin.circular_of_linkedWith hanswers hloads hrun
  refine ⟨?_, hcircular, fun hacyclic module importer hanswer => ?_⟩
  · rintro ⟨id, hreached, hcycle⟩ b hb
    obtain ⟨-, -, -, hlinked⟩ := hok b hb
    obtain ⟨ids, g, hrun, -⟩ := hlinked answers hanswers
    have hemits := (linkEntries_emits (fun _ _ _ hid => FileTree.entryId_ne_helper hid) hrun).1
    obtain ⟨last, -, hne, -⟩ := TransGen.tail'_iff.mp hcycle
    exact hemits.not_transGen hreached hne hcycle
  · obtain ⟨hneeds, hback, hreached⟩ := hcircular module importer hanswer
    exact hacyclic importer hreached (TransGen.head'_iff.mpr ⟨module, hneeds, hback⟩)

/-- Two files that import each other. -/
def cycleFiles : FileTree where
  entries := [(["even"], .text "import './odd';\n"), (["odd"], .text "import './even';\n")]
  workingDirectory := none

theorem bundle_cycles_pair :
    let config : BundleConfig := { entries := [⟨"/even"⟩] }
    let r := ((bundleLogged readModule? cycleFiles config idlePlugin none).run {} :
      (Except BundleError Bundle × LoadLog) × BuildState).1
    let project := idlePlugin.project readModule? cycleFiles config.basePath
    r.1 = .error (.circularImport "/even" "/odd") ∧
      ∀ answers, r.2.Agrees answers → project.Needs answers "/odd" "/even" ∧
        ReflTransGen (project.Needs answers) "/even" "/odd" := by
  intro config r project
  have hall := (bundle_cycles readModule? cycleFiles config idlePlugin none).2.2
  rw [SatisfiesM_StateT_eq] at hall
  have hrun := SatisfiesM_Id_eq.mp (hall {})
  have hanswer : r.1 = .error (.circularImport "/even" "/odd") := by
    have htarget : ∀ i ∈ [("odd", "even"), ("even", "odd")], idlePlugin.target
        (.create cycleFiles config.basePath idlePlugin.config.extensions) ("./" ++ i.1) ("/" ++ i.2) =
          .ok (.module ("/" ++ i.1)) := by
      unfold InputPlugin.target ModuleResolver.resolve? ModuleResolver.resolveFrom?
      simp only [String.contains_char_eq]
      decide +kernel
    unfold r bundleLogged InputPlugin.project
    rw [eq_tabledTarget htarget]
    decide +kernel
  refine ⟨hanswer, fun answers hagrees => ?_⟩
  obtain ⟨hneeds, hback, -⟩ := (hrun answers hagrees).2.1 _ _ hanswer
  exact ⟨hneeds, hback⟩

end ModuleBuild
