import Mathlib
import ModuleBuild.Proofs.Answer
import ModuleBuild.Proofs.Plugin.History

/-!
# What a transform acts on

On a compiler that answers each question in one way only, `transform` depends on what was kept before
through a single value: the strategy that it gets for the options of the module. All else it does is a
function of that strategy.

## Main definitions

* `InputPlugin.adjusted` — the options of a module behind the hook.
* `InputPlugin.strategyFor` — the strategy that options get in a state.
* `InputPlugin.transformed` — what `transform` gives under strategies.

## Main statements

* `PreflightCache.get?_classify` — what is kept behind a question.
* `InputPlugin.outcome_eq_transformed` — `transform` acts on the strategy for the adjusted options.
-/

namespace ModuleBuild

namespace PreflightCache

variable (cache : PreflightCache) (compiler : Compiler Id) (asked options : CompilerOptions)

/-- A kept answer is given again; otherwise a probe is made, and what it finds is kept. -/
theorem classify_eq : (cache.classify compiler options : Except PluginError HelperStrategy × PreflightCache) =
    match cache.get? options with
    | some strategy => (.ok strategy, cache)
    | none =>
      match (probe compiler options : Except PluginError HelperStrategy) with
      | .ok strategy => (.ok strategy, cache.insert options strategy)
      | .error e => (.error e, cache) := by
  unfold classify
  cases cache.get? options with
  | some strategy => rfl
  | none =>
    rcases hresult : (probe compiler options : Except PluginError HelperStrategy) with e | strategy <;> rfl

/-- A kept answer comes before a probe. -/
theorem classify_fst : (cache.classify compiler options).1 =
    match cache.get? options with
    | some strategy => .ok strategy
    | none => probe compiler options := by
  rw [classify_eq]
  cases cache.get? options with
  | some strategy => rfl
  | none => cases probe compiler options <;> rfl

/-- Behind a question its answer is kept under the name of its file, and nothing changes under others. -/
theorem get?_classify : (cache.classify compiler asked).2.get? options =
    if key options = key asked then (cache.classify compiler asked).1.toOption
    else cache.get? options := by
  have hkey : key options = key asked → cache.get? options = cache.get? asked := by
    intro h
    rw [get?, get?, h]
  rw [classify_eq]
  cases hkept : cache.get? asked with
  | some strategy =>
    dsimp only
    split
    · rename_i h
      rw [hkey h, hkept]
      rfl
    · rfl
  | none =>
    cases hprobe : probe compiler asked with
    | error e =>
      dsimp only
      split
      · rename_i h
        rw [hkey h, hkept]
        rfl
      · rfl
    | ok strategy => exact lookup_replace _ _ _ _

end PreflightCache

/-- The options of a compile under a strategy: with the import of helpers, unless runtime helpers or
external ones take its place. -/
def InputConfig.finalOptions (config : InputConfig) (options : CompilerOptions)
    (strategy : HelperStrategy) : Except PluginError CompilerOptions :=
  if strategy == .runtime && !config.runtimeHelpers then .error .runtimeHelpersNotEnabled
  else if strategy != .runtime && !config.externalHelpers then
    .ok (options.withPlugin (.live (.importHelpers helperModuleId)))
  else .ok options

namespace InputPlugin

variable (plugin : InputPlugin Id)

/-- The configuration of a module with its options behind the hook; none if the rules leave the module
out. -/
def adjusted (code id : String) : Except PluginError (Option (PartialConfig × CompilerOptions)) :=
  match plugin.compiler.loadPartialConfig (plugin.optionsFor id) with
  | .error e => .error (.compile id e)
  | .ok none => .ok none
  | .ok (some config) =>
    match plugin.overrides.config with
    | none => .ok (some (config, config.options))
    | some hook => do
      let options ← (hook config { code, customOptions := plugin.customOptions }).resolve
      return some (config, options)

/-- The strategy that options get in a state. -/
def strategyFor (s : BuildState) (options : CompilerOptions) : Except PluginError HelperStrategy :=
  (s.cache.classify plugin.compiler options).1

/-- What `transform` gives for a module with these final options: its answer, and its compiles. -/
def compiled (code id : String) (config : PartialConfig) (compileOptions : CompilerOptions) :
    Except PluginError (Option CompileOutput) × CompileLog :=
  match plugin.compiler.compile code compileOptions with
  | .error e => (.error (.compile id e), [(code, compileOptions)])
  | .ok output =>
    match plugin.overrides.result with
    | none => (.ok (some output), [(code, compileOptions)])
    | some hook =>
      let context := { code, customOptions := plugin.customOptions, config, compileOptions }
      (some <$> (hook output context).resolve, [(code, compileOptions)])

/-- What `transform` gives for a module that the filter accepts, when options get these strategies. -/
def transformed (strategy : CompilerOptions → Except PluginError HelperStrategy) (code id : String) :
    Except PluginError (Option CompileOutput) × CompileLog :=
  match plugin.adjusted code id with
  | .error e => (.error e, [])
  | .ok none => (.ok none, [])
  | .ok (some (config, options)) =>
    match strategy options >>= plugin.config.finalOptions options with
    | .error e => (.error e, [])
    | .ok compileOptions => plugin.compiled code id config compileOptions

variable {plugin}

theorem play_attempt {α : Type} (x : Except PluginError α) (s : BuildState) (log : CompileLog) :
    play (Build.attempt (pure x)) s log = ((x, s), log) := by
  cases x <;> rfl

theorem play_attemptCompile {α : Type} (unit : String) (x : Except CompileError α) (s : BuildState)
    (log : CompileLog) :
    play (Build.attemptCompile unit (pure x)) s log = ((x.mapError (.compile unit), s), log) := by
  cases x <;> rfl

/-- The last step before a compile turns the strategy into the final options. -/
theorem play_finalize (options : CompilerOptions) (s : BuildState) (log : CompileLog) :
    ∃ s', play (plugin.logged.finalize options) s log =
      ((plugin.strategyFor s options >>= plugin.config.finalOptions options, s'), log) := by
  unfold finalize
  rw [play_bind, play_classify]
  unfold strategyFor
  cases (s.cache.classify plugin.compiler options).1 with
  | error e => exact ⟨_, rfl⟩
  | ok strategy =>
    show ∃ s', play _ { s with cache := (s.cache.classify plugin.compiler options).2 } log =
      ((plugin.config.finalOptions options strategy, s'), log)
    unfold InputConfig.finalOptions
    have config : plugin.logged.config = plugin.config := rfl
    rw [config]
    cases strategy <;> cases plugin.config.runtimeHelpers <;> cases plugin.config.externalHelpers <;>
      exact ⟨_, rfl⟩

variable (plugin) in
/-- The steps of `transform` behind the hook on the configuration. -/
def finish (code id : String) (config : PartialConfig) (options : CompilerOptions) :
    Build (StateM CompileLog) (Option CompileOutput) := do
  let compileOptions ← plugin.logged.finalize options
  let output ← Build.attemptCompile id (plugin.logged.compiler.compile code compileOptions)
  match plugin.logged.overrides.result with
  | some hook =>
    some <$> Build.attempt (HookOutput.resolve <$> hook output
      { code, customOptions := plugin.logged.customOptions, config, compileOptions })
  | none => return some output

theorem play_finish (code id : String) (config : PartialConfig) (options : CompilerOptions)
    (s : BuildState) :
    ∃ s', play (plugin.finish code id config options) s [] =
      match plugin.strategyFor s options >>= plugin.config.finalOptions options with
      | .error e => ((.error e, s'), [])
      | .ok compileOptions =>
        (((plugin.compiled code id config compileOptions).1, s'),
          (plugin.compiled code id config compileOptions).2) := by
  obtain ⟨s', run⟩ : ∃ s', play (plugin.logged.finalize options) s [] =
      ((plugin.strategyFor s options >>= plugin.config.finalOptions options, s'), []) :=
    play_finalize options s []
  refine ⟨s', ?_⟩
  unfold finish
  rw [play_bind, run]
  cases plugin.strategyFor s options >>= plugin.config.finalOptions options with
  | error e => rfl
  | ok compileOptions =>
    have compiles : play (Build.attemptCompile id
        (plugin.logged.compiler.compile code compileOptions)) s' [] =
        (((plugin.compiler.compile code compileOptions).mapError (.compile id), s'),
          [(code, compileOptions)]) := by
      show play (Build.attemptCompile id (modify (· ++ [(code, compileOptions)]) >>= fun _ =>
        pure (plugin.compiler.compile code compileOptions))) s' [] = _
      cases plugin.compiler.compile code compileOptions <;> rfl
    simp only [play_bind, compiles, compiled]
    cases plugin.compiler.compile code compileOptions with
    | error e => rfl
    | ok output =>
      cases hhook : plugin.overrides.result with
      | none =>
        simp only [logged, Overrides.logged, hhook]
        rfl
      | some hook =>
        simp only [logged, Overrides.logged, hhook]
        show play (some <$> Build.attempt (pure (hook output _).resolve)) s' _ = _
        rw [map_eq_pure_bind, play_bind, play_attempt]
        cases (hook output _).resolve <;> rfl

theorem ne_helperModuleId {id : String} (accepted : plugin.filter.accepts id = true) :
    (id == helperModuleId) = false := by
  refine beq_eq_false_iff_ne.2 fun h => ?_
  subst h
  simp [ModuleFilter.accepts, show ModuleFilter.isVirtual helperModuleId = true by decide] at accepted

/-- The steps of `transform` for a module that the filter accepts. -/
theorem transform_logged {code id : String} (accepted : plugin.filter.accepts id = true) :
    plugin.logged.transform code id = (do
      let some config ←
          Build.attemptCompile id (pure (plugin.compiler.loadPartialConfig (plugin.optionsFor id)))
        | return none
      match plugin.overrides.config with
      | some hook =>
        let options ← Build.attempt (pure
          (hook config { code, customOptions := plugin.customOptions }).resolve)
        plugin.finish code id config options
      | none => plugin.finish code id config config.options) := by
  have hfilter : plugin.logged.filter.accepts id = true := accepted
  unfold InputPlugin.transform compileUnit
  rw [ne_helperModuleId accepted, hfilter]
  refine bind_congr fun found => ?_
  cases found with
  | none => rfl
  | some config =>
    have hooked : plugin.logged.overrides.config = plugin.overrides.config.map
        fun hook config context => pure (hook config context) := rfl
    rw [hooked]
    cases plugin.overrides.config with
    | none =>
      refine (pure_bind _ _).trans (bind_congr fun _ => bind_congr fun output => ?_)
      cases plugin.logged.overrides.result <;> rfl
    | some hook =>
      refine bind_congr fun options => bind_congr fun _ => bind_congr fun output => ?_
      cases plugin.logged.overrides.result <;> rfl

/-- For a module that the filter accepts, `transform` depends on what was kept through the strategies
that options get. -/
theorem outcome_eq_transformed {code id : String} (accepted : plugin.filter.accepts id = true)
    (s : BuildState) :
    ((plugin.outcome s code id).answer, (plugin.outcome s code id).compiles) =
      plugin.transformed (plugin.strategyFor s) code id := by
  have finished (config : PartialConfig) (options : CompilerOptions) :
      ((play (plugin.finish code id config options) { s with told := [] } []).1.1,
        (play (plugin.finish code id config options) { s with told := [] } []).2) =
      match plugin.strategyFor s options >>= plugin.config.finalOptions options with
      | .error e => (.error e, [])
      | .ok compileOptions => plugin.compiled code id config compileOptions := by
    obtain ⟨s', run⟩ := play_finish code id config options { s with told := [] }
    rw [run]
    have same : plugin.strategyFor { s with told := [] } options = plugin.strategyFor s options := rfl
    rw [same]
    cases plugin.strategyFor s options >>= plugin.config.finalOptions options <;> rfl
  unfold outcome
  rw [transform_logged accepted]
  unfold transformed adjusted
  simp only [play_bind, play_attemptCompile]
  cases plugin.compiler.loadPartialConfig (plugin.optionsFor id) with
  | error e => rfl
  | ok found =>
    cases found with
    | none => rfl
    | some config =>
      cases plugin.overrides.config with
      | none => exact finished config config.options
      | some hook =>
        simp only [Except.mapError, play_bind, play_attempt]
        cases (hook config { code, customOptions := plugin.customOptions }).resolve with
        | error e => rfl
        | ok options => exact finished config options

end InputPlugin

end ModuleBuild
