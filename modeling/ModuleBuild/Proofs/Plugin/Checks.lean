import ModuleBuild.Proofs.Plugin.Transform

/-!
# Checks before a transform

`check` answers for the configuration of a module, `transform` acts on the options that the hook made of
that configuration, and both keep what they find under the name of the file. So a check tells the truth
about a transform if the hook changes no options, or if the answer was kept under the name that the
options of the transform still have; and in the second case the transform acts on that answer, whatever
a probe of its own options would give.

## Main definitions

* `InputPlugin.checkAnswer` — what a call of `check` answers.
* `InputPlugin.found` — what a check finds that is kept for options of the same name.

## Main statements

* `InputPlugin.strategyFor_checks` — the strategy that options get behind checks.
* `InputPlugin.transform_after_checks` — what checks before a transform change about it.
-/

namespace ModuleBuild

namespace InputPlugin

variable (plugin : InputPlugin Id)

/-- What a call of `check` answers. -/
def checkAnswer (s : BuildState) (id : String) : Except PluginError (Option HelperStrategy) :=
  (play (plugin.logged.check id) s []).1.1

/-- What a check of a module finds for options of the name that its configuration has. -/
def found (options : CompilerOptions) (id : String) : Option HelperStrategy :=
  match plugin.compiler.loadPartialConfig (plugin.optionsFor id) with
  | .ok (some config) =>
    if PreflightCache.key options = PreflightCache.key config.options then
      (probe plugin.compiler config.options).toOption
    else none
  | _ => none

/-- The state behind checks of these modules. -/
def afterChecks (s : BuildState) (checked : List String) : BuildState :=
  (checked.map Call.check).foldl plugin.stateAfter s

variable {plugin}

theorem play_loadPartialConfig (s : BuildState) (id : String) :
    play (Build.attemptCompile id
        (plugin.logged.compiler.loadPartialConfig (plugin.logged.optionsFor id))) s [] =
      (((plugin.compiler.loadPartialConfig (plugin.optionsFor id)).mapError (.compile id), s), []) :=
  play_attemptCompile _ _ _ _

/-- A check asks for the configuration of the module as it is. -/
theorem play_check {id : String} {config : PartialConfig}
    (load : plugin.compiler.loadPartialConfig (plugin.optionsFor id) = .ok (some config))
    (s : BuildState) :
    play (plugin.logged.check id) s [] =
      ((some <$> plugin.strategyFor s config.options,
        { s with cache := (s.cache.classify plugin.compiler config.options).2 }), []) := by
  unfold InputPlugin.check
  rw [play_bind, play_loadPartialConfig, load]
  show play (some <$> plugin.logged.classify config.options) s [] = _
  rw [map_eq_pure_bind, play_bind, play_classify]
  unfold strategyFor
  cases (s.cache.classify plugin.compiler config.options).1 <;> rfl

theorem stateAfter_check_of_none {id : String}
    (load : ∀ config, plugin.compiler.loadPartialConfig (plugin.optionsFor id) ≠ .ok (some config))
    (s : BuildState) : plugin.stateAfter s (.check id) = s := by
  unfold stateAfter InputPlugin.check
  simp only [play_bind, play_loadPartialConfig]
  rcases h : plugin.compiler.loadPartialConfig (plugin.optionsFor id) with e | (_ | config)
  · rfl
  · rfl
  · exact absurd h (load config)

/-- A check keeps what it finds unless there is an answer already. -/
theorem get?_stateAfter_check (options : CompilerOptions) (s : BuildState) (id : String) :
    (plugin.stateAfter s (.check id)).cache.get? options =
      (s.cache.get? options).or (plugin.found options id) := by
  unfold found
  split
  · rename_i config load
    have after : (plugin.stateAfter s (.check id)).cache =
        (s.cache.classify plugin.compiler config.options).2 := by
      rw [stateAfter, play_check load]
    rw [after, PreflightCache.get?_classify, PreflightCache.classify_fst]
    split
    · rename_i same
      have kept : s.cache.get? options = s.cache.get? config.options := by
        rw [PreflightCache.get?, PreflightCache.get?, same]
      rw [kept]
      cases s.cache.get? config.options <;> rfl
    · rw [Option.or_none]
  · rename_i load
    rw [stateAfter_check_of_none load, Option.or_none]

/-- Behind checks, options have the answer that they had, else the first one found under their name. -/
theorem get?_afterChecks (options : CompilerOptions) (s : BuildState) (checked : List String) :
    (plugin.afterChecks s checked).cache.get? options =
      (s.cache.get? options).or (checked.findSome? (plugin.found options)) := by
  induction checked generalizing s with
  | nil => exact (Option.or_none).symm
  | cons id rest ih =>
    show (plugin.afterChecks (plugin.stateAfter s (.check id)) rest).cache.get? options = _
    rw [ih, get?_stateAfter_check, Option.or_assoc, List.findSome?_cons]
    cases plugin.found options id <;> rfl

/-- The strategy that options get behind checks: an answer kept before, else the first one found under
their name, else that of a probe. -/
theorem strategyFor_checks (options : CompilerOptions) (s : BuildState) (checked : List String) :
    plugin.strategyFor (plugin.afterChecks s checked) options =
      match (s.cache.get? options).or (checked.findSome? (plugin.found options)) with
      | some strategy => .ok strategy
      | none => probe plugin.compiler options := by
  have answer := (plugin.afterChecks s checked).cache.classify_fst plugin.compiler options
  rw [get?_afterChecks] at answer
  exact answer

/-- What is found for a configuration of a compiler that keeps names is what a probe of it gives. -/
theorem probe_of_found (keeps : KeepsName plugin.compiler) {id id' : String} {config : PartialConfig}
    (load : plugin.compiler.loadPartialConfig (plugin.optionsFor id) = .ok (some config))
    {strategy : HelperStrategy} (h : plugin.found config.options id' = some strategy) :
    probe plugin.compiler config.options = .ok strategy := by
  unfold found at h
  split at h
  · rename_i config' load'
    split at h
    · rename_i same
      have names : id = id' := by
        simpa [PreflightCache.key, keeps _ _ load, keeps _ _ load', optionsFor] using same
      subst names
      cases load.symm.trans load'
      cases hprobe : probe plugin.compiler config.options with
      | error e => rw [hprobe] at h; cases h
      | ok x => rw [hprobe] at h; cases h; rfl
    · cases h
  · cases h

/-- Checks make no difference to a configuration that is used as it is. -/
theorem strategyFor_checks_config (keeps : KeepsName plugin.compiler) {id : String}
    {config : PartialConfig}
    (load : plugin.compiler.loadPartialConfig (plugin.optionsFor id) = .ok (some config))
    (s : BuildState) (checked : List String) :
    plugin.strategyFor (plugin.afterChecks s checked) config.options =
      plugin.strategyFor s config.options := by
  rw [strategyFor_checks, strategyFor, PreflightCache.classify_fst]
  cases s.cache.get? config.options with
  | some strategy => rfl
  | none =>
    rw [Option.none_or]
    cases hfound : checked.findSome? (plugin.found config.options) with
    | none => rfl
    | some strategy =>
      obtain ⟨id', -, h⟩ := List.exists_of_findSome?_eq_some hfound
      exact (probe_of_found keeps load h).symm

theorem load_of_adjusted {code id : String} {config : PartialConfig} {options : CompilerOptions}
    (h : plugin.adjusted code id = .ok (some (config, options))) :
    plugin.compiler.loadPartialConfig (plugin.optionsFor id) = .ok (some config) := by
  unfold adjusted at h
  split at h
  · cases h
  · cases h
  · rename_i config' load
    split at h
    · cases h
      exact load
    · obtain ⟨options', -, h⟩ := bind_eq_ok.1 h
      cases h
      exact load

/-- What any checks before a `transform` change about it. The transform acts on the strategy that its
adjusted options get, and checks decide that strategy when they found one under the name of these options
before any other was kept: a check of the same module then told the truth, but a probe of these options
may give something else. Where the hook leaves the configuration as it is, checks change nothing. -/
theorem transform_after_checks (plugin : InputPlugin Id) (s : BuildState) (checked : List String)
    {code id : String} (accepted : plugin.filter.accepts id = true) :
    let later := plugin.afterChecks s checked
    ((plugin.outcome later code id).answer, (plugin.outcome later code id).compiles) =
      plugin.transformed (plugin.strategyFor later) code id ∧
    (∀ options, plugin.strategyFor later options =
      match (s.cache.get? options).or (checked.findSome? (plugin.found options)) with
      | some strategy => .ok strategy
      | none => probe plugin.compiler options) ∧
    ∀ config options, plugin.adjusted code id = .ok (some (config, options)) →
      (∀ strategy, plugin.checkAnswer later id = .ok (some strategy) →
        PreflightCache.key options = PreflightCache.key config.options →
        plugin.strategyFor (plugin.stateAfter later (.check id)) options = .ok strategy) ∧
      (KeepsName plugin.compiler → options = config.options →
        (plugin.outcome later code id).answer = (plugin.outcome s code id).answer ∧
          (plugin.outcome later code id).compiles = (plugin.outcome s code id).compiles) := by
  intro later
  refine ⟨outcome_eq_transformed accepted later, fun options => strategyFor_checks options s checked,
    fun config options adjusted => ⟨fun strategy answer same => ?_, fun keeps unchanged => ?_⟩⟩
  · have load := load_of_adjusted adjusted
    have asked : plugin.strategyFor later config.options = .ok strategy := by
      rw [checkAnswer, play_check load] at answer
      obtain ⟨strategy', h, hs⟩ := map_eq_ok.1 answer
      cases hs
      exact h
    have kept : (plugin.stateAfter later (.check id)).cache.get? options = some strategy := by
      rw [stateAfter, play_check load, PreflightCache.get?_classify, if_pos same]
      show (plugin.strategyFor later config.options).toOption = some strategy
      rw [asked]
      rfl
    rw [strategyFor, PreflightCache.classify_fst, kept]
  · subst unchanged
    have load := load_of_adjusted adjusted
    have same : plugin.transformed (plugin.strategyFor later) code id =
        plugin.transformed (plugin.strategyFor s) code id := by
      unfold transformed
      rw [adjusted]
      simp only [later, strategyFor_checks_config keeps load]
    have outcomes := (outcome_eq_transformed accepted later).trans
      (same.trans (outcome_eq_transformed accepted s).symm)
    exact Prod.mk.inj outcomes

/-- A plugin with a hook that adds the rewrite of module syntax, on a compiler whose probes show it. -/
def rewritingPlugin : InputPlugin Id where
  compiler :=
    { scriptedCompiler {} with
      compileProbe := fun _ options => .ok
        { code :=
            if options.plugins.any (·.name == "modules-commonjs") then
              "function _inherits() \x7b\x7d\nexports.default = Foo;"
            else "function _inherits() \x7b\x7d\nexport default Foo;" } }
  overrides :=
    { config := some fun config _ => .ready (.ok (config.options.withPlugin (.live .commonJs))) }
  customOptions := none
  config := .ofOptions {} plainExtensions
  filter := { extensions := ModuleFilter.extensionPattern plainExtensions, included := [], excluded := [] }

/-- A configuration that strips module syntax is refused, but not behind a check. -/
theorem transform_after_checks_rewriting :
    let fresh : BuildState := {}
    let later := rewritingPlugin.afterChecks fresh ["a.js"]
    let options := (rewritingPlugin.optionsFor "a.js").withPlugin (.live .commonJs)
    rewritingPlugin.filter.accepts "a.js" = true ∧
      rewritingPlugin.checkAnswer fresh "a.js" = .ok (some .inline) ∧
      (rewritingPlugin.outcome fresh "f();" "a.js").answer = .error .moduleSyntaxStripped ∧
      rewritingPlugin.strategyFor later options = .ok .inline ∧
      (rewritingPlugin.outcome later "f();" "a.js").answer = .ok (some { code := "f();" }) := by
  intro fresh later options
  have accepted : rewritingPlugin.filter.accepts "a.js" = true := by decide +kernel
  obtain ⟨acts, strategy, -⟩ :=
    @transform_after_checks rewritingPlugin fresh ["a.js"] "f();" "a.js" accepted
  have decided : rewritingPlugin.strategyFor later options = .ok .inline :=
    (strategy options).trans (by decide +kernel)
  refine ⟨accepted, by decide +kernel, by decide +kernel, decided, ?_⟩
  refine (congrArg Prod.fst acts).trans ?_
  decide +kernel

end InputPlugin

end ModuleBuild
