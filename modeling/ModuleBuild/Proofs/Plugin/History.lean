import ModuleBuild.Compile.Scripted
import ModuleBuild.Plugin.Input
import ModuleBuild.Proofs.Association

/-!
# Histories of the input plugin

The input plugin keeps the answers of probes under the names of files. On a compiler that answers each
question in one way only, nothing else shows what the plugin was asked before: each call of `transform`
answers and compiles as if it were the first one.

A history is a list of calls, and the calls run on a compiler that keeps a log of its compiles, so that
the options of each compile can be compared as well.

## Main definitions

* `Compiler.logged` — a compiler that keeps a log.
* `InputPlugin.Faithful` — the invariant: kept answers are what a probe gives.
* `InputPlugin.Steady` — builds that preserve it and that do not depend on what is kept.
* `InputPlugin.outcome` — what a call of `transform` gives.

## Main statements

* `InputPlugin.outcome_after_calls` — histories make no difference.
-/

namespace ModuleBuild

/-! ## Compilers with a log -/

/-- The compiles that a compiler was asked for, in order. -/
abbrev CompileLog := List (String × CompilerOptions)

/-- The same answers, with a log of the compiles. -/
def Compiler.logged (compiler : Compiler Id) : Compiler (StateM CompileLog) where
  loadPartialConfig options := pure (compiler.loadPartialConfig options)
  compileProbe code options := pure (compiler.compileProbe code options)
  compile code options := do
    modify (· ++ [(code, options)])
    return compiler.compile code options
  helperBundle := compiler.helperBundle
  defaultExtensions := compiler.defaultExtensions

/-- The same hooks beside a log of compiles. -/
def Overrides.logged (overrides : Overrides Id) : Overrides (StateM CompileLog) where
  options := overrides.options.map fun hook options => pure (hook options)
  config := overrides.config.map fun hook config context => pure (hook config context)
  result := overrides.result.map fun hook output context => pure (hook output context)

theorem probe_logged (compiler : Compiler Id) (options : CompilerOptions) :
    probe compiler.logged options = pure (probe compiler options) := by
  unfold probe
  simp only [Compiler.logged, pure_bind]
  cases compiler.compileProbe probeSource options with
  | error e => rfl
  | ok first =>
    show (if _ then _ else _) = pure (if _ then _ else _)
    split
    · cases compiler.compileProbe probeSource (options.withPlugin (.live .fallbackClass)) <;> rfl
    · rfl

theorem PreflightCache.classify_logged (cache : PreflightCache) (compiler : Compiler Id)
    (options : CompilerOptions) :
    cache.classify compiler.logged options = pure (cache.classify compiler options) := by
  unfold PreflightCache.classify
  rw [probe_logged]
  cases cache.get? options with
  | some strategy => rfl
  | none =>
    simp only [pure_bind]
    cases probe compiler options <;> rfl

namespace InputPlugin

/-- The same plugin on a compiler that keeps a log. -/
def logged (plugin : InputPlugin Id) : InputPlugin (StateM CompileLog) where
  compiler := plugin.compiler.logged
  overrides := plugin.overrides.logged
  customOptions := plugin.customOptions
  config := plugin.config
  filter := plugin.filter

variable (plugin : InputPlugin Id)

/-- A build on a log, from a state: its answer and the state and log behind it. -/
def play {α : Type} (x : Build (StateM CompileLog) α) (s : BuildState) (log : CompileLog) :
    (Except PluginError α × BuildState) × CompileLog :=
  (x.run.run s).run log

theorem play_bind {α β : Type} (x : Build (StateM CompileLog) α) (f : α → Build (StateM CompileLog) β)
    (s : BuildState) (log : CompileLog) :
    play (x >>= f) s log =
      match play x s log with
      | ((.ok a, s), log) => play (f a) s log
      | ((.error e, s), log) => ((.error e, s), log) := by
  unfold play
  rw [ExceptT.run_bind, StateT.run_bind, StateT.run_bind]
  rcases (x.run.run s).run log with ⟨⟨_ | _, _⟩, _⟩ <;> rfl

theorem play_classify (options : CompilerOptions) (s : BuildState) (log : CompileLog) :
    play (plugin.logged.classify options) s log =
      (((s.cache.classify plugin.compiler options).1,
        { s with cache := (s.cache.classify plugin.compiler options).2 }), log) := by
  have run (x : StateM CompileLog (Except PluginError HelperStrategy × PreflightCache))
      (a : Except PluginError HelperStrategy × PreflightCache) (h : x = pure a) :
      play (do
        let a ← Build.act x
        modify fun s => { s with cache := a.2 }
        classify.liftExcept a.1) s log = ((a.1, { s with cache := a.2 }), log) := by
    subst h
    rcases a with ⟨_ | _, _⟩ <;> rfl
  exact run _ _ (PreflightCache.classify_logged s.cache plugin.compiler options)

/-! ## Builds that do not depend on what is kept -/

/-- Each answer kept under the name of a module is what a probe of its configuration gives. -/
def Faithful (cache : PreflightCache) : Prop :=
  ∀ id config strategy,
    plugin.compiler.loadPartialConfig (plugin.optionsFor id) = .ok (some config) →
    cache.results.lookup id = some strategy →
    probe plugin.compiler config.options = .ok strategy

/-- All that was reported in `t` was reported in `s` too, and `s` told no more than `t`. -/
structure Quieter (s t : BuildState) : Prop where
  seen : t.warnings.seen ⊆ s.warnings.seen
  told : s.told.Sublist t.told

/-- Two ends of a build that differ in what is kept and in warnings that only the second one told. -/
structure Agree {α : Type} (p q : (Except PluginError α × BuildState) × CompileLog) : Prop where
  answer : p.1.1 = q.1.1
  compiles : p.2 = q.2
  quieter : Quieter p.1.2 q.1.2

/-- A build that keeps faithful answers only, and to which it makes no difference what faithful
answers are kept. Warnings reported before decide only whether they are told again. -/
structure Steady {α : Type} (x : Build (StateM CompileLog) α) : Prop where
  faithful : ∀ s log, plugin.Faithful s.cache → plugin.Faithful (play x s log).1.2.cache
  seen : ∀ s log, s.warnings.seen ⊆ (play x s log).1.2.warnings.seen
  agree : ∀ s t log, plugin.Faithful s.cache → plugin.Faithful t.cache → Quieter s t →
    Agree (play x s log) (play x t log)

namespace Steady

variable {plugin} {α β : Type}

theorem pure (a : α) : plugin.Steady (Pure.pure a : Build (StateM CompileLog) α) :=
  ⟨fun _ _ h => h, fun _ _ => List.Subset.refl _, fun _ _ _ _ _ h => ⟨rfl, rfl, h⟩⟩

theorem throw (e : PluginError) : plugin.Steady (throw e : Build (StateM CompileLog) α) :=
  ⟨fun _ _ h => h, fun _ _ => List.Subset.refl _, fun _ _ _ _ _ h => ⟨rfl, rfl, h⟩⟩

theorem act (x : StateM CompileLog α) : plugin.Steady (Build.act x) :=
  ⟨fun _ _ h => h, fun _ _ => List.Subset.refl _, fun _ _ _ _ _ h => ⟨rfl, rfl, h⟩⟩

theorem bind {x : Build (StateM CompileLog) α} {f : α → Build (StateM CompileLog) β}
    (hx : plugin.Steady x) (hf : ∀ a, plugin.Steady (f a)) : plugin.Steady (x >>= f) where
  faithful s log hs := by
    have h := hx.faithful s log hs
    rw [play_bind]
    split <;> rename_i hp <;> rw [hp] at h
    · exact (hf _).faithful _ _ h
    · exact h
  seen s log := by
    have h := hx.seen s log
    rw [play_bind]
    split <;> rename_i hp <;> rw [hp] at h
    · exact List.Subset.trans h ((hf _).seen _ _)
    · exact h
  agree s t log hs ht h := by
    obtain ⟨answer, compiles, quieter⟩ := hx.agree s t log hs ht h
    have hs' := hx.faithful s log hs
    have ht' := hx.faithful t log ht
    rw [play_bind, play_bind]
    generalize play x s log = p at *
    generalize play x t log = q at *
    obtain ⟨⟨a, s'⟩, log₁⟩ := p
    obtain ⟨⟨b, t'⟩, log₂⟩ := q
    obtain rfl : a = b := answer
    obtain rfl : log₁ = log₂ := compiles
    cases a with
    | error e => exact ⟨rfl, rfl, quieter⟩
    | ok a => exact (hf a).agree _ _ _ hs' ht' quieter

theorem attempt (x : StateM CompileLog (Except PluginError α)) : plugin.Steady (Build.attempt x) :=
  (act x).bind fun
    | .ok a => pure a
    | .error e => throw e

theorem attemptCompile (unit : String) (x : StateM CompileLog (Except CompileError α)) :
    plugin.Steady (Build.attemptCompile unit x) :=
  (act x).bind fun
    | .ok a => pure a
    | .error e => throw (.compile unit e)

/-- An attempt whose outcome is known beforehand. -/
theorem attemptCompile_bind (unit : String) (x : Except CompileError α)
    {f : α → Build (StateM CompileLog) β} (hf : ∀ a, x = .ok a → plugin.Steady (f a)) :
    plugin.Steady (Build.attemptCompile unit (Pure.pure x) >>= f) := by
  cases x with
  | error e => exact throw (.compile unit e)
  | ok a => exact hf a rfl

theorem warn (message : String) :
    plugin.Steady (Build.warn message : Build (StateM CompileLog) Unit) := by
  have run (s : BuildState) (log : CompileLog) :
      play (Build.warn message) s log = ((.ok (),
        { s with
          warnings := (s.warnings.report s.told message).2.1
          told := (s.warnings.report s.told message).2.2 }), log) := rfl
  refine ⟨fun _ _ h => h, fun s log => ?_, fun s t log _ _ h => ⟨rfl, rfl, ?_⟩⟩
  · rw [run]
    unfold WarningSet.report
    split
    · exact List.Subset.refl _
    · exact List.subset_cons_self _ _
  · obtain ⟨seen, told⟩ := h
    rw [run, run]
    unfold WarningSet.report
    by_cases ht : message ∈ t.warnings.seen
    · simpa [ht, seen ht] using Quieter.mk seen told
    by_cases hs : message ∈ s.warnings.seen
    · simp only [List.contains_eq_mem, hs, ht, decide_true, decide_false, if_true]
      exact ⟨List.cons_subset.2 ⟨hs, seen⟩, told.trans (List.sublist_append_left _ _)⟩
    · simp only [List.contains_eq_mem, hs, ht, decide_false]
      exact ⟨List.cons_subset_cons _ seen, told.append (List.Sublist.refl _)⟩

end Steady

/-! ## The calls of a plugin -/

/-- The compiler leaves the name of a file in its configuration as it is. -/
def KeepsName (compiler : Compiler Id) : Prop :=
  ∀ options config, compiler.loadPartialConfig options = .ok (some config) →
    config.options.filename = options.filename

variable {plugin}

theorem Faithful.classify {cache : PreflightCache} (h : plugin.Faithful cache)
    (keeps : KeepsName plugin.compiler) {id : String} {config : PartialConfig}
    (load : plugin.compiler.loadPartialConfig (plugin.optionsFor id) = .ok (some config)) :
    (cache.classify plugin.compiler config.options).1 = probe plugin.compiler config.options ∧
      plugin.Faithful (cache.classify plugin.compiler config.options).2 := by
  have key : PreflightCache.key config.options = id := by
    simp [PreflightCache.key, keeps _ _ load, optionsFor]
  unfold PreflightCache.classify PreflightCache.get?
  rw [key]
  cases found : cache.results.lookup id with
  | some strategy => exact ⟨(h id config strategy load found).symm, h⟩
  | none =>
    cases answer : probe plugin.compiler config.options with
    | error e => exact ⟨rfl, h⟩
    | ok strategy =>
      refine ⟨rfl, fun id' config' strategy' load' found' => ?_⟩
      have found' : ((id, strategy) :: cache.results.filter (·.1 != id)).lookup id' =
          some strategy' := by rw [← key]; exact found'
      rw [lookup_replace] at found'
      split at found'
      · rename_i same
        subst same
        cases load.symm.trans load'
        cases found'
        exact answer
      · exact h id' config' strategy' load' found'

theorem Steady.classify (keeps : KeepsName plugin.compiler) {id : String} {config : PartialConfig}
    (load : plugin.compiler.loadPartialConfig (plugin.optionsFor id) = .ok (some config)) :
    plugin.Steady (plugin.logged.classify config.options) where
  faithful s log hs := by
    rw [play_classify]
    exact (hs.classify keeps load).2
  seen s log := by
    rw [play_classify]
    exact List.Subset.refl _
  agree s t log hs ht h := by
    rw [play_classify, play_classify, (hs.classify keeps load).1, (ht.classify keeps load).1]
    exact ⟨rfl, rfl, h.seen, h.told⟩

theorem Steady.finalize (keeps : KeepsName plugin.compiler) {id : String} {config : PartialConfig}
    (load : plugin.compiler.loadPartialConfig (plugin.optionsFor id) = .ok (some config)) :
    plugin.Steady (plugin.logged.finalize config.options) := by
  refine (classify keeps load).bind fun strategy => ?_
  extract_lets chosen checked
  have steady_chosen (u : PUnit) : plugin.Steady (chosen u) := by
    unfold chosen
    split <;> exact pure _
  have steady_checked (u : PUnit) : plugin.Steady (checked u) := by
    unfold checked
    split
    · exact (throw _).bind steady_chosen
    · exact steady_chosen ⟨⟩
  split
  · exact (warn _).bind steady_checked
  · exact steady_checked ⟨⟩

theorem Steady.check (keeps : KeepsName plugin.compiler) (id : String) :
    plugin.Steady (plugin.logged.check id) := by
  refine attemptCompile_bind id _ fun found load => ?_
  cases found with
  | none => exact pure none
  | some config =>
    show plugin.Steady (some <$> plugin.logged.classify config.options)
    rw [map_eq_pure_bind]
    exact (classify keeps load).bind fun _ => pure _

theorem Steady.transform (keeps : KeepsName plugin.compiler) (noHook : plugin.overrides.config = none)
    (code id : String) : plugin.Steady (plugin.logged.transform code id) := by
  unfold InputPlugin.transform
  split
  · exact pure none
  · refine attemptCompile_bind id _ fun found load => ?_
    cases found with
    | none => exact pure none
    | some config =>
      simp only [InputPlugin.logged, Overrides.logged, noHook, Option.map_none, pure_bind]
      refine (finalize keeps load).bind fun options => (attemptCompile _ _).bind fun output => ?_
      cases plugin.overrides.result with
      | none => exact pure _
      | some hook =>
        simp only [Option.map_some, map_eq_pure_bind]
        exact (attempt _).bind fun _ => pure _

/-! ## Histories -/

/-- A call of a plugin. -/
inductive Call where
  | check (id : String)
  | transform (code id : String)
  deriving DecidableEq, Inhabited, Repr

/-- The state behind a call, whatever the call answers. -/
def stateAfter (plugin : InputPlugin Id) (s : BuildState) : Call → BuildState
  | .check id => (play (plugin.logged.check id) s []).1.2
  | .transform code id => (play (plugin.logged.transform code id) s []).1.2

/-- What a call of `transform` gives. -/
structure Outcome where
  answer : Except PluginError (Option CompileOutput)
  /-- The compiles asked for, with their options. -/
  compiles : CompileLog
  /-- The warnings told during the call. -/
  told : List String

/-- What `transform` gives in a state. -/
def outcome (plugin : InputPlugin Id) (s : BuildState) (code id : String) : Outcome :=
  let run := play (plugin.logged.transform code id) { s with told := [] } []
  { answer := run.1.1, compiles := run.2, told := run.1.2.told }

theorem faithful_stateAfter (keeps : KeepsName plugin.compiler)
    (noHook : plugin.overrides.config = none) {s : BuildState} (h : plugin.Faithful s.cache)
    (call : Call) :
    plugin.Faithful (plugin.stateAfter s call).cache ∧
      s.warnings.seen ⊆ (plugin.stateAfter s call).warnings.seen := by
  cases call with
  | check id =>
    have steady := Steady.check keeps id
    exact ⟨steady.faithful s [] h, steady.seen s []⟩
  | transform code id =>
    have steady := Steady.transform keeps noHook code id
    exact ⟨steady.faithful s [] h, steady.seen s []⟩

theorem faithful_foldl_stateAfter (keeps : KeepsName plugin.compiler)
    (noHook : plugin.overrides.config = none) (calls : List Call) {s : BuildState}
    (h : plugin.Faithful s.cache) :
    plugin.Faithful (calls.foldl plugin.stateAfter s).cache ∧
      s.warnings.seen ⊆ (calls.foldl plugin.stateAfter s).warnings.seen := by
  induction calls generalizing s with
  | nil => exact ⟨h, List.Subset.refl _⟩
  | cons call rest ih =>
    obtain ⟨faithful, seen⟩ := faithful_stateAfter keeps noHook h call
    obtain ⟨faithful', seen'⟩ := ih faithful
    exact ⟨faithful', List.Subset.trans seen seen'⟩

/-- What `transform` gives does not depend on the calls before it: the answer, the compiles and their
options are those of a plugin that nothing was asked of, and only warnings may be missing. -/
theorem outcome_after_calls (plugin : InputPlugin Id) (keeps : KeepsName plugin.compiler)
    (noHook : plugin.overrides.config = none) (warnings : WarningSet) (calls : List Call)
    (code id : String) :
    let fresh : BuildState := { warnings }
    let later := plugin.outcome (calls.foldl plugin.stateAfter fresh) code id
    let first := plugin.outcome fresh code id
    later.answer = first.answer ∧ later.compiles = first.compiles ∧ later.told.Sublist first.told := by
  intro fresh later first
  have empty : plugin.Faithful fresh.cache := fun _ _ _ _ found => nomatch found
  obtain ⟨faithful, seen⟩ := faithful_foldl_stateAfter keeps noHook calls empty
  have agree := (Steady.transform keeps noHook code id).agree
    { calls.foldl plugin.stateAfter fresh with told := [] } { fresh with told := [] } []
    faithful empty ⟨seen, List.Sublist.refl _⟩
  exact ⟨agree.answer, agree.compiles, agree.quieter.told⟩

/-- A plugin on a compiler that takes helpers from the global object. -/
def externalPlugin : InputPlugin Id where
  compiler := scriptedCompiler { probe := "babelHelpers.inherits;\nexport default Foo;" }
  overrides := {}
  customOptions := none
  config := .ofOptions {} plainExtensions
  filter := { extensions := ModuleFilter.extensionPattern plainExtensions, included := [], excluded := [] }

/-- The deprecation of external helpers is told to the first module only. -/
theorem outcome_after_external_calls :
    let fresh : BuildState := { warnings := {} }
    let calls : List Call := [.check "a.js", .transform "f();" "a.js", .transform "g();" "b.js"]
    let later := externalPlugin.outcome (calls.foldl externalPlugin.stateAfter fresh) "h();" "a.js"
    let first := externalPlugin.outcome fresh "h();" "a.js"
    KeepsName externalPlugin.compiler ∧ externalPlugin.overrides.config = none ∧
      later.answer = first.answer ∧ later.compiles = first.compiles ∧
      later.told.Sublist first.told ∧ later.told = [] ∧ first.told = [externalHelpersDeprecated] := by
  intro fresh calls later first
  have keeps : KeepsName externalPlugin.compiler := by
    intro options config h
    cases h
    rfl
  obtain ⟨answer, compiles, told⟩ :=
    outcome_after_calls externalPlugin keeps rfl {} calls "h();" "a.js"
  exact ⟨keeps, rfl, answer, compiles, told, by decide +kernel, by decide +kernel⟩

end InputPlugin

end ModuleBuild
