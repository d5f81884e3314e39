import Mathlib
import ModuleBuild.Proofs.Linking.ImportGraph
import ModuleBuild.Proofs.Linking.Scope
import ModuleBuild.Proofs.Linking.Targets

/-!
# What a bundle emits

A bundle that logs its loads shows which modules the input plugin compiled, and when. The modules of a
bundle are the ones that its entries reach, each compiled once and behind the ones it imports.

## Main definitions

* `bundleLogged` — a bundle with the log of its loads.
* `tabledTarget` — where specifiers lead, a few of them by a table.

## Main statements

* `fst_bundleLogged` — the log changes nothing.
* `bundleLogged_run` — a logged bundle comes from linking with the answers of its log.
* `bundle_emits` — which modules a bundle has, and in which order.
-/

namespace ModuleBuild

open Linking Script

variable {m : Type → Type} [Monad m]

/-! ## Bundles with a log -/

/-- Makes a bundle of linked entries. -/
def finishBundle (config : BundleConfig) (output : Option (OutputPlugin m))
    (linked : Except BundleError (List String) × Graph) :
    ExceptT BundleError (StateT BuildState m) Bundle := do
  match linked.1.bind fun ids => linked.2.parts ids config.format with
  | .error e => throw e
  | .ok parts =>
    let code := parts.render (config.name.getD defaultBundleName) config.format
    let compiled ← withOutput output none fun plugin =>
      plugin.renderChunk config.format code config.fileName
    match compiled with
    | some result => return { code := result.code, map := result.map, modules := linked.2.order }
    | none => return { code, map := none, modules := linked.2.order }

/-- Bundles entries, with the log of all loads. -/
def bundleLogged (read : String → Option (List ModuleItem)) (files : FileTree) (config : BundleConfig)
    (input : InputPlugin m) (output : Option (OutputPlugin m)) :
    StateT BuildState m (Except BundleError Bundle × LoadLog) := do
  if config.entries.isEmpty then return (.error .noEntries, [])
  match ← (withOutput output () fun plugin => plugin.renderStart config.format).run with
  | .error e => return (.error e, [])
  | .ok _ =>
    let project := input.project read files config.basePath
    let (linked, log) ← ((linkEntries project.logged files.entryId config.entries).run.run {}).run []
    return (← (finishBundle config output linked).run, log)

/-- What a load comes to when the input plugin has answered. -/
def compiledText (code : String) : Except PluginError (Option CompileOutput) → Except BundleError String
  | .error e => .error (.plugin e)
  | .ok none => .ok code
  | .ok (some output) => .ok output.code

variable [LawfulMonad m] {input : InputPlugin m} {output : Option (OutputPlugin m)}
  {read : String → Option (List ModuleItem)} {files : FileTree} {config : BundleConfig}

/-- A load hands the source of its module to the input plugin once. -/
theorem InputPlugin.loadCompiled_of_source {id code : String} (h : input.source files id = .ok code) :
    input.loadCompiled files id = compiledText code <$> (input.transform code id).run := by
  unfold InputPlugin.loadCompiled
  rw [h, map_eq_pure_bind]
  refine bind_congr fun answer => ?_
  rcases answer with e | _ | output <;> rfl

/-- The log of a bundle changes nothing. -/
theorem fst_bundleLogged :
    Prod.fst <$> bundleLogged read files config input output =
      (bundle read files config input output).run := by
  unfold bundleLogged bundle
  dsimp only
  split
  · simp
  rw [ExceptT.run_bind, map_bind]
  refine bind_congr fun started => ?_
  rcases started with e | -
  · simp
  change _ = (ExceptT.lift ((linkEntries (input.project read files config.basePath) files.entryId
    config.entries).run.run {}) >>= finishBundle config output).run
  dsimp only
  rw [ExceptT.run_bind_lift, ← fst_linkEntries_logged (input.project read files config.basePath)
    files.entryId config.entries {} [], bind_map_left, map_bind]
  refine bind_congr fun linked => ?_
  simp

/-! ## Errors -/

theorem FileTree.entryId_not_isCircular {entry : Path} {e : BundleError} (h : files.entryId entry = .error e) :
    ¬ e.IsCircular := by
  unfold FileTree.entryId at h
  split at h <;> cases h
  exact not_false

omit [Monad m] [LawfulMonad m] in
theorem InputPlugin.target_not_isCircular {r : ModuleResolver} {specifier importer : String}
    {e : BundleError} (h : input.target r specifier importer = .error e) : ¬ e.IsCircular := by
  unfold InputPlugin.target at h
  dsimp only at h
  split at h
  · cases h
  split at h
  · cases h
  split at h <;> cases h
  exact not_false

omit [Monad m] [LawfulMonad m] in
theorem InputPlugin.source_not_isCircular {id : String} {e : BundleError}
    (h : input.source files id = .error e) : ¬ e.IsCircular := by
  unfold InputPlugin.source at h
  split at h
  · cases h
  split at h <;> cases h
  exact not_false

/-- What is known about a load: no error of it is a cycle, and what it gives comes from the source of
the module. -/
def InputPlugin.Loads (input : InputPlugin m) (files : FileTree) (id : String)
    (answer : Except BundleError String) : Prop :=
  (∀ e, answer = .error e → ¬ e.IsCircular) ∧
    ∀ text, answer = .ok text → ∃ code, input.source files id = .ok code

theorem InputPlugin.satisfiesM_loadCompiled (id : String) :
    SatisfiesM (input.Loads files id) (input.loadCompiled files id) := by
  cases hsource : input.source files id with
  | error e =>
    have hload : input.loadCompiled files id = pure (.error e) := by
      unfold InputPlugin.loadCompiled
      rw [hsource]
    rw [hload]
    exact SatisfiesM.pure ⟨fun e' he => Except.error.inj he ▸ InputPlugin.source_not_isCircular hsource,
      nofun⟩
  | ok code =>
    rw [InputPlugin.loadCompiled_of_source hsource]
    refine SatisfiesM.map_pre (SatisfiesM.of_true fun answer => ⟨?_, fun _ _ => ⟨code, hsource⟩⟩)
    rcases answer with e | _ | output <;> rintro e' he <;> cases he
    exact not_false

theorem addExport_not_isCircular {id : String} {found : List (String × String × String)}
    {exported : String × String} {e : BundleError} (h : addExport id found exported = .error e) :
    ¬ e.IsCircular := by
  unfold addExport at h
  split at h
  · split at h <;> cases h
    exact not_false
  · cases h

theorem foldlM_error {ε α β : Type} {step : β → α → Except ε β} {items : List α} {start : β} {e : ε}
    (h : items.foldlM step start = .error e) : ∃ b, ∃ a ∈ items, step b a = .error e := by
  induction items generalizing start with
  | nil => cases h
  | cons a rest ih =>
    rw [List.foldlM_cons] at h
    rcases bind_eq_error.mp h with hone | ⟨next, -, h⟩
    · exact ⟨start, a, List.mem_cons_self, hone⟩
    · obtain ⟨b, a', ha', hstep⟩ := ih h
      exact ⟨b, a', List.mem_cons_of_mem a ha', hstep⟩

theorem Graph.parts_not_isCircular {g : Graph} {ids : List String} {format : OutputFormat}
    {e : BundleError} (h : g.parts ids format = .error e) : ¬ e.IsCircular := by
  rcases bind_eq_error.mp h with hexports | ⟨exports, -, h⟩
  · rcases bind_eq_error.mp hexports with hfound | ⟨found, -, h⟩
    · obtain ⟨found, id, -, hone⟩ := foldlM_error hfound
      obtain ⟨more, exported, -, hadd⟩ := foldlM_error hone
      exact addExport_not_isCircular hadd
    · cases h
  rcases bind_eq_error.mp h with hexternals | ⟨externals, -, h⟩
  · unfold Graph.keptExternals at hexternals
    split at hexternals
    · cases hexternals
    · split at hexternals <;> cases hexternals
      exact not_false
  · cases h

/-! ## Runs -/

/-- Only a plugin makes a step of the output plugin fail. -/
theorem satisfiesM_run_withOutput {α : Type} {fallback : α} {step : OutputPlugin m → Build m α} :
    SatisfiesM (fun answer : Except BundleError α => (output = none → answer = .ok fallback) ∧
        ∀ e, answer = .error e → ∃ failure, e = .plugin failure)
      (withOutput output fallback step).run := by
  cases output with
  | none => exact SatisfiesM.pure ⟨fun _ => rfl, nofun⟩
  | some plugin =>
    unfold withOutput
    rw [ExceptT.run_bind_lift]
    refine SatisfiesM.bind SatisfiesM.trivial fun answer _ => ?_
    cases answer with
    | ok a => exact SatisfiesM.pure ⟨nofun, nofun⟩
    | error e => exact SatisfiesM.pure ⟨nofun, fun e' he => ⟨e, (Except.error.inj he).symm⟩⟩

/-- A finished bundle has the modules that were linked, and a cycle is reported by linking only. -/
theorem finishBundle_run (linked : Except BundleError (List String) × Graph) :
    SatisfiesM (fun answer : Except BundleError Bundle =>
        (∀ b, answer = .ok b → (∃ ids, linked.1 = .ok ids) ∧ b.modules = linked.2.order) ∧
        ∀ e, answer = .error e → e.IsCircular → linked.1 = .error e)
      (finishBundle config output linked).run := by
  obtain ⟨linked, g⟩ := linked
  unfold finishBundle
  cases linked with
  | error e => exact SatisfiesM.pure ⟨nofun, fun e' he _ => congrArg Except.error (Except.error.inj he)⟩
  | ok ids =>
    cases hparts : g.parts ids config.format with
    | error e =>
      rw [show (Except.bind (.ok ids) fun ids => g.parts ids config.format) = .error e from hparts]
      refine SatisfiesM.pure ⟨nofun, fun e' he hcircular => ?_⟩
      obtain rfl := Except.error.inj he
      exact absurd hcircular (Graph.parts_not_isCircular hparts)
    | ok parts =>
      rw [show (Except.bind (.ok ids) fun ids => g.parts ids config.format) = .ok parts from hparts]
      dsimp only
      rw [ExceptT.run_bind]
      refine SatisfiesM.bind satisfiesM_run_withOutput fun compiled hcompiled => ?_
      rcases compiled with e | _ | result
      · refine SatisfiesM.pure ⟨nofun, fun e' he hcircular => ?_⟩
        obtain ⟨failure, rfl⟩ := hcompiled.2 _ rfl
        obtain rfl := Except.error.inj he
        exact absurd hcircular not_false
      all_goals
        refine SatisfiesM.pure ⟨fun b hb => ?_, nofun⟩
        obtain rfl := Except.ok.inj hb
        exact ⟨⟨ids, rfl⟩, rfl⟩

/-- Links entries with these answers for all loads. -/
def InputPlugin.linkedWith (input : InputPlugin m) (read : String → Option (List ModuleItem))
    (files : FileTree) (config : BundleConfig) (answers : String → Except BundleError String) :
    Except BundleError (List String) × Graph :=
  (linkEntries ((input.project read files config.basePath).answering answers) files.entryId
    config.entries).run.run {}

/-- A bundle and its log come from linking with the answers of the log, and so does the report of a
cycle. -/
theorem bundleLogged_run :
    SatisfiesM (fun r : Except BundleError Bundle × LoadLog =>
        (∀ l ∈ r.2, input.Loads files l.1 l.2) ∧
        (∀ b, r.1 = .ok b → r.2.ids.Nodup ∧ helperModuleId ∉ r.2.ids ∧ r.2.ids ⊆ b.modules ∧
          ∀ answers, r.2.Agrees answers → ∃ ids g,
            input.linkedWith read files config answers = (.ok ids, g) ∧ b.modules = g.order) ∧
        ∀ e, r.1 = .error e → e.IsCircular → ∀ answers, r.2.Agrees answers → ∃ g,
          input.linkedWith read files config answers = (.error e, g))
      (bundleLogged read files config input output) := by
  let project := input.project read files config.basePath
  have hlink : Logged (input.Loads files) (linkEntries project.logged files.entryId config.entries)
      (fun answers => linkEntries (project.answering answers) files.entryId config.entries) {} [] _ :=
    linkEntries_logged InputPlugin.satisfiesM_loadCompiled fun _ _ _ hid => FileTree.entryId_ne_helper hid
  unfold bundleLogged
  split
  · refine SatisfiesM.pure ⟨nofun, nofun, fun e he hcircular => ?_⟩
    obtain rfl := Except.error.inj he
    exact absurd hcircular not_false
  refine SatisfiesM.bind satisfiesM_run_withOutput fun started hstarted => ?_
  rcases started with e | -
  · refine SatisfiesM.pure ⟨nofun, nofun, fun e' he hcircular => ?_⟩
    obtain ⟨failure, rfl⟩ := hstarted.2 _ rfl
    obtain rfl := Except.error.inj he
    exact absurd hcircular not_false
  refine SatisfiesM.bind hlink ?_
  rintro ⟨⟨linked, g⟩, log⟩ ⟨-, hloads, hrun, hdone⟩
  refine SatisfiesM.bind (finishBundle_run (linked, g)) ?_
  rintro answer ⟨hok, hcircular⟩
  refine SatisfiesM.pure ⟨fun l hl => (hloads l hl).resolve_left List.not_mem_nil, fun b hb => ?_,
    fun e he hcycle answers hanswers => ?_⟩
  · obtain ⟨⟨ids, hids⟩, hmodules⟩ := hok b hb
    obtain ⟨hnodup, hhelper, hsub⟩ := hdone ids hids
    refine ⟨hnodup, hhelper, hmodules ▸ hsub, fun answers hanswers => ⟨ids, g, ?_, hmodules⟩⟩
    exact (hrun answers hanswers).trans (Prod.ext hids rfl)
  · exact ⟨g, (hrun answers hanswers).trans (Prod.ext (hcircular e he hcycle) rfl)⟩

/-! ## Imports of a few files -/

/-- Where specifiers lead, with some imports looked up first, each by where it leads and where it
stands. -/
def tabledTarget (imports : List (String × String))
    (target : String → String → Except BundleError ImportTarget) (specifier importer : String) :
    Except BundleError ImportTarget :=
  match imports.find? fun i => specifier == "./" ++ i.1 && importer == "/" ++ i.2 with
  | some i => .ok (.module ("/" ++ i.1))
  | none => target specifier importer

/-- Looking up imports changes nothing if they lead where the table says. -/
theorem eq_tabledTarget {imports : List (String × String)}
    {target : String → String → Except BundleError ImportTarget}
    (h : ∀ i ∈ imports, target ("./" ++ i.1) ("/" ++ i.2) = .ok (.module ("/" ++ i.1))) :
    target = tabledTarget imports target := by
  funext specifier importer
  unfold tabledTarget
  split
  · rename_i i hi
    have heq := List.find?_some hi
    simp only [Bool.and_eq_true, beq_iff_eq] at heq
    rw [heq.1, heq.2]
    exact h i (List.mem_of_find?_eq_some hi)
  · rfl

/-! ## Emission -/

/-- A bundle has the modules that its entries reach, each once and behind the ones it imports, and the
helper module before them if one of them imports it. Each of them is loaded once, and so handed to the
input plugin once. -/
theorem bundle_emits (read : String → Option (List ModuleItem)) (files : FileTree) (config : BundleConfig)
    (input : InputPlugin m) (output : Option (OutputPlugin m)) :
    (∀ id code, input.source files id = .ok code →
      input.loadCompiled files id = compiledText code <$> (input.transform code id).run) ∧
    Prod.fst <$> bundleLogged read files config input output =
      (bundle read files config input output).run ∧
    SatisfiesM (fun r : Except BundleError Bundle × LoadLog => ∀ b, r.1 = .ok b →
        (b.modules.filter (· != helperModuleId)).Perm r.2.ids ∧
        (∀ l ∈ r.2, ∃ code text, input.source files l.1 = .ok code ∧ l.2 = .ok text) ∧
        ∀ answers, r.2.Agrees answers →
          (input.project read files config.basePath).Emits answers files.entryId config.entries b.modules)
      (bundleLogged read files config input output) := by
  refine ⟨fun id code => InputPlugin.loadCompiled_of_source, fst_bundleLogged, ?_⟩
  refine SatisfiesM.imp bundleLogged_run ?_
  rintro ⟨_, log⟩ ⟨hloads, hok, -⟩ b rfl
  obtain ⟨hnodup, hhelper, hsub, hlinked⟩ := hok b rfl
  have hne : ∀ entry ∈ config.entries, ∀ id, files.entryId entry = .ok id → id ≠ helperModuleId :=
    fun _ _ _ hid => FileTree.entryId_ne_helper hid
  have hemits : ∀ answers, log.Agrees answers →
      (input.project read files config.basePath).Emits answers files.entryId config.entries b.modules ∧
        ∀ id ∈ b.modules, id ≠ helperModuleId → ∃ text, answers id = .ok text := by
    intro answers hanswers
    obtain ⟨ids, g, hrun, hmodules⟩ := hlinked answers hanswers
    rw [hmodules]
    exact linkEntries_emits hne hrun
  obtain ⟨answers, hanswers⟩ := LoadLog.exists_agrees hnodup
  refine ⟨?_, fun l hl => ?_, fun answers hanswers => (hemits answers hanswers).1⟩
  · obtain ⟨hemitted, htexts⟩ := hemits _ hanswers.restrict
    rw [List.perm_ext_iff_of_nodup (hemitted.nodup.filter _) hnodup]
    intro id
    rw [List.mem_filter, bne_iff_ne]
    constructor
    · rintro ⟨hid, hne⟩
      obtain ⟨text, htext⟩ := htexts id hid hne
      exact (LoadLog.restrict_eq_ok.mp htext).1
    · exact fun hid => ⟨hsub hid, fun heq => hhelper (heq ▸ hid)⟩
  · have hid : l.1 ∈ log.ids := List.mem_map_of_mem hl
    obtain ⟨text, htext⟩ := (hemits answers hanswers).2 l.1 (hsub hid) fun heq => hhelper (heq ▸ hid)
    have hanswer : l.2 = .ok text := (hanswers l hl).symm.trans htext
    obtain ⟨code, hcode⟩ := (hloads l hl).2 text hanswer
    exact ⟨code, text, hcode, hanswer⟩

/-- Files of which two import the same one, and one of these a helper. -/
def diamondFiles : FileTree where
  entries := [
    (["main"], .text "import './left';\nimport './right';\n"),
    (["left"], .text
      "import './base';\nimport \x7b h as k \x7d from '\\0viperTransformHelpers.js';\n"),
    (["right"], .text "import './base';\ng();\n"),
    (["base"], .text "h();\n")]
  workingDirectory := none

/-- A plugin that compiles none of these files and shares one helper. -/
def diamondPlugin : InputPlugin Id :=
  { idlePlugin with
    compiler := { idlePlugin.compiler with helperBundle := fun _ _ => "export function h() \x7b\x7d\n" } }

/-- The imports of these files, each with where it leads and where it stands. -/
def diamondImports : List (String × String) :=
  [("left", "main"), ("right", "main"), ("base", "left"), ("base", "right")]

theorem bundle_emits_diamond :
    let config : BundleConfig := { entries := [⟨"/main"⟩, ⟨"/right"⟩, ⟨"/main"⟩] }
    let r := ((bundleLogged readModule? diamondFiles config diamondPlugin none).run {} :
      (Except BundleError Bundle × LoadLog) × BuildState).1
    ∃ b, r.1 = .ok b ∧ b.modules = [helperModuleId, "/base", "/left", "/right", "/main"] ∧
      r.2.ids = ["/main", "/left", "/base", "/right"] ∧
      (b.modules.filter (· != helperModuleId)).Perm r.2.ids ∧
      ∀ answers, r.2.Agrees answers → (diamondPlugin.project readModule? diamondFiles config.basePath).Emits
        answers diamondFiles.entryId config.entries b.modules := by
  intro config r
  have hall := (bundle_emits readModule? diamondFiles config diamondPlugin none).2.2
  rw [SatisfiesM_StateT_eq] at hall
  have hrun := SatisfiesM_Id_eq.mp (hall {})
  have hsome : r.1.toOption.map (·.modules) = some [helperModuleId, "/base", "/left", "/right", "/main"] ∧
      r.2.ids = ["/main", "/left", "/base", "/right"] := by
    have htarget : ∀ i ∈ diamondImports, diamondPlugin.target
        (.create diamondFiles config.basePath diamondPlugin.config.extensions) ("./" ++ i.1)
          ("/" ++ i.2) = .ok (.module ("/" ++ i.1)) := by
      unfold InputPlugin.target ModuleResolver.resolve? ModuleResolver.resolveFrom?
      simp only [String.contains_char_eq]
      decide +kernel
    unfold r bundleLogged InputPlugin.project
    rw [eq_tabledTarget htarget]
    decide +kernel
  obtain ⟨b, hb, hmodules⟩ := Option.map_eq_some_iff.mp hsome.1
  have hok : r.1 = .ok b := by
    cases hr : r.1 with
    | error e => simp [hr, Except.toOption] at hb
    | ok b' =>
      rw [hr] at hb
      rw [Option.some.inj hb]
  exact ⟨b, hok, hmodules, hsome.2, (hrun b hok).1, (hrun b hok).2.2⟩

end ModuleBuild
