import Mathlib
import ModuleBuild.Plugin.Output
import ModuleBuild.Proofs.Plugin.Transform

/-!
# Warnings of a session

The plugins of a session share a compiler and the warnings reported so far; each input plugin keeps answers
of its own. A call that warns names the context that is to hear it. Compiler and hooks may answer as they
like, and differently from call to call: they act on a world of their own.

A call raises a text if it gets as far as the warning, whether the text is told now or was told before, and
whatever becomes of the call afterwards.

## Main definitions

* `Build.Silent` — a build that reports nothing.
* `InputPlugin.classified`, `InputPlugin.complete` — `transform` before its warning and behind it.
* `Session`, `SessionCall`, `Session.afterCalls` — plugins, and calls of them one after the other.
* `Session.raised` — the text that a call raises, with the context that it names.

## Main statements

* `InputPlugin.transform_eq` — `transform` in two parts, with the warning between them.
* `Session.step_reports` — one call reports what it raises, and nothing else.
* `Session.warns_once` — behind any row of calls, each text raised was told once.
-/

namespace ModuleBuild

variable {σ α β : Type}

/-! ## Builds that report nothing -/

namespace Build

/-- What a build ends with. -/
def ends (x : Build (StateM σ) α) (s : BuildState) (world : σ) : (Except PluginError α × BuildState) × σ :=
  (x.run.run s).run world

theorem ends_bind (x : Build (StateM σ) α) (f : α → Build (StateM σ) β) (s : BuildState) (world : σ) :
    (x >>= f).ends s world =
      match x.ends s world with
      | ((.ok a, s), world) => (f a).ends s world
      | ((.error e, s), world) => ((.error e, s), world) := by
  unfold ends
  rw [ExceptT.run_bind, StateT.run_bind, StateT.run_bind]
  rcases (x.run.run s).run world with ⟨⟨_ | _, _⟩, _⟩ <;> rfl

theorem ends_warn (message : String) (s : BuildState) (world : σ) :
    (warn message : Build (StateM σ) Unit).ends s world =
      ((.ok (), { s with
        warnings := (s.warnings.report s.told message).2.1
        told := (s.warnings.report s.told message).2.2 }), world) :=
  rfl

/-- A build reports a text, or nothing, whatever it answers. -/
def Reports (x : Build (StateM σ) α) (s : BuildState) (world : σ) : Option String → Prop
  | none => (x.ends s world).1.2.warnings = s.warnings ∧ (x.ends s world).1.2.told = s.told
  | some text => (x.ends s world).1.2.warnings = (s.warnings.report s.told text).2.1 ∧
      (x.ends s world).1.2.told = (s.warnings.report s.told text).2.2

/-- A build that reports nothing. -/
def Silent (x : Build (StateM σ) α) : Prop :=
  ∀ s world, x.Reports s world none

namespace Silent

theorem pure (a : α) : Silent (Pure.pure a : Build (StateM σ) α) := fun _ _ => ⟨rfl, rfl⟩

theorem throw (e : PluginError) : Silent (throw e : Build (StateM σ) α) := fun _ _ => ⟨rfl, rfl⟩

theorem act (x : StateM σ α) : Silent (Build.act x) := fun _ _ => ⟨rfl, rfl⟩

theorem get : Silent (MonadState.get : Build (StateM σ) BuildState) := fun _ _ => ⟨rfl, rfl⟩

theorem keep (cache : PreflightCache) :
    Silent (modify fun s => { s with cache } : Build (StateM σ) PUnit) := fun _ _ => ⟨rfl, rfl⟩

theorem bind {x : Build (StateM σ) α} {f : α → Build (StateM σ) β} (hx : Silent x)
    (hf : ∀ a, Silent (f a)) : Silent (x >>= f) := by
  intro s world
  have hfirst := hx s world
  unfold Reports at hfirst ⊢
  rw [ends_bind]
  rcases hends : x.ends s world with ⟨⟨e | a, s'⟩, world'⟩
  · rwa [hends] at hfirst
  · rw [hends] at hfirst
    exact ⟨(hf a s' world').1.trans hfirst.1, (hf a s' world').2.trans hfirst.2⟩

theorem map {x : Build (StateM σ) α} (f : α → β) (hx : Silent x) : Silent (f <$> x) := by
  rw [map_eq_pure_bind]
  exact hx.bind fun a => pure (f a)

theorem attempt (x : StateM σ (Except PluginError α)) : Silent (Build.attempt x) :=
  (act x).bind fun
    | .ok a => pure a
    | .error e => throw e

theorem attemptCompile (unit : String) (x : StateM σ (Except CompileError α)) :
    Silent (Build.attemptCompile unit x) :=
  (act x).bind fun
    | .ok a => pure a
    | .error e => throw (.compile unit e)

theorem liftExcept (answer : Except PluginError α) :
    Silent (InputPlugin.classify.liftExcept answer : Build (StateM σ) α) := by
  cases answer with
  | ok a => exact pure a
  | error e => exact throw e

/-- A strategy is found without a warning, whether it was kept or a probe gives it. -/
theorem classify (plugin : InputPlugin (StateM σ)) (options : CompilerOptions) :
    Silent (plugin.classify options) :=
  get.bind fun _ => (act _).bind fun _ => (keep _).bind fun _ => liftExcept _

theorem check (plugin : InputPlugin (StateM σ)) (id : String) : Silent (plugin.check id) := by
  refine (attemptCompile id _).bind fun found => ?_
  cases found with
  | none => exact pure none
  | some config => exact (classify plugin config.options).map some

/-- A compile reports what its last step before the compiler reports. -/
theorem compileUnit {compiler : Compiler (StateM σ)} {overrides : Overrides (StateM σ)}
    {customOptions : Option Json} {unit code : String} {options : CompilerOptions}
    {finalize : CompilerOptions → Build (StateM σ) CompilerOptions}
    (h : ∀ options, Silent (finalize options)) :
    Silent (compileUnit compiler overrides customOptions unit code options finalize) := by
  refine (attemptCompile unit _).bind fun found => ?_
  cases found with
  | none => exact pure none
  | some config =>
    dsimp -zeta -zetaHave only
    extract_lets rest
    have finished (adjusted : CompilerOptions) : Silent (rest adjusted) := by
      refine (h adjusted).bind fun _ => (attemptCompile unit _).bind fun output => ?_
      cases overrides.result with
      | none => exact pure _
      | some hook => exact (attempt _).map some
    cases overrides.config with
    | none => exact (pure _).bind finished
    | some hook => exact (attempt _).bind finished

theorem renderChunk (plugin : OutputPlugin (StateM σ)) (format : OutputFormat) (code fileName : String) :
    Silent (plugin.renderChunk format code fileName) :=
  compileUnit fun options => pure options

end Silent

/-- Behind a build that reports nothing, a text is reported as if it were the first build. -/
theorem Silent.reports_bind {x : Build (StateM σ) α} {f : α → Build (StateM σ) β} (hx : Silent x)
    {s s' : BuildState} {world world' : σ} {a : α} (hends : x.ends s world = ((.ok a, s'), world'))
    {text : Option String} (h : (f a).Reports s' world' text) : (x >>= f).Reports s world text := by
  have hfirst := hx s world
  unfold Reports at hfirst h ⊢
  rw [hends] at hfirst
  obtain ⟨hwarnings, htold⟩ := hfirst
  dsimp only at hwarnings htold
  rw [ends_bind, hends]
  cases text <;> simpa [hwarnings, htold] using h

/-- A warning, and a build behind it that reports nothing. -/
theorem reports_warn {text : String} {x : Build (StateM σ) α} (hx : Silent x) (s : BuildState) (world : σ) :
    (warn text >>= fun _ => x).Reports s world (some text) := by
  unfold Reports
  rw [ends_bind, ends_warn]
  exact hx _ _

end Build

/-! ## The two parts of a transform -/

namespace InputPlugin

open Build

/-- The options of a module behind the hook on its configuration, with the strategy for them. -/
structure Classified where
  config : PartialConfig
  options : CompilerOptions
  strategy : HelperStrategy

section

variable {m : Type → Type} [Monad m]

/-- The steps of `transform` up to the classification of the options; none if the module is left out. -/
def classified (plugin : InputPlugin m) (code id : String) : Build m (Option Classified) := do
  if id == helperModuleId || !plugin.filter.accepts id then return none
  else
    let some config ← attemptCompile id (plugin.compiler.loadPartialConfig (plugin.optionsFor id))
      | return none
    let options ← match plugin.overrides.config with
      | some hook =>
        attempt (HookOutput.resolve <$> hook config { code, customOptions := plugin.customOptions })
      | none => pure config.options
    let strategy ← plugin.classify options
    return some { config, options, strategy }

/-- The steps of `transform` behind the warning about external helpers. -/
def complete (plugin : InputPlugin m) (code id : String) (found : Classified) :
    Build m (Option CompileOutput) := do
  let compileOptions ← classify.liftExcept (plugin.config.finalOptions found.options found.strategy)
  let output ← attemptCompile id (plugin.compiler.compile code compileOptions)
  match plugin.overrides.result with
  | some hook =>
    some <$> attempt (HookOutput.resolve <$> hook output
      { code, customOptions := plugin.customOptions, config := found.config, compileOptions })
  | none => return some output

end

/-- The warning comes between the classification and all that may still fail. -/
theorem finalize_eq (plugin : InputPlugin (StateM σ)) (options : CompilerOptions) :
    plugin.finalize options = (do
      let strategy ← plugin.classify options
      if strategy == .external && !plugin.config.externalHelpers then warn externalHelpersDeprecated
      classify.liftExcept (plugin.config.finalOptions options strategy)) := by
  refine bind_congr fun strategy => ?_
  unfold InputConfig.finalOptions
  cases strategy <;> cases plugin.config.externalHelpers <;> cases plugin.config.runtimeHelpers <;> rfl

/-- A transform finds the strategy, warns, and completes the compile. -/
theorem transform_eq (plugin : InputPlugin (StateM σ)) (code id : String) :
    plugin.transform code id = (do
      let some found ← plugin.classified code id | return none
      if found.strategy == .external && !plugin.config.externalHelpers then
        warn externalHelpersDeprecated
      plugin.complete code id found) := by
  unfold transform classified compileUnit complete
  split
  · simp only [pure_bind]
  simp only [finalize_eq, bind_assoc]
  refine bind_congr fun found => ?_
  cases found with
  | none => simp only [pure_bind]
  | some config =>
    -- what follows the warning does not depend on whether it was given
    have warned (options : CompilerOptions) (strategy : HelperStrategy)
        (rest : CompilerOptions → Build (StateM σ) (Option CompileOutput)) :
        ((do
          if strategy == .external && !plugin.config.externalHelpers then
            warn externalHelpersDeprecated
          classify.liftExcept (plugin.config.finalOptions options strategy)) >>= rest) = (do
        if strategy == .external && !plugin.config.externalHelpers then
          warn externalHelpersDeprecated
        classify.liftExcept (plugin.config.finalOptions options strategy) >>= rest) := by
      split
      · rw [bind_assoc]
      · rfl
    cases plugin.overrides.config with
    | none =>
      simp only [pure_bind, bind_assoc]
      exact bind_congr fun strategy => warned _ _ _
    | some hook =>
      simp only [pure_bind, bind_assoc]
      exact bind_congr fun options => bind_congr fun strategy => warned _ _ _

theorem silent_classified (plugin : InputPlugin (StateM σ)) (code id : String) :
    Silent (plugin.classified code id) := by
  unfold classified
  split
  · exact Silent.pure none
  refine (Silent.attemptCompile id _).bind fun found => ?_
  cases found with
  | none => exact Silent.pure none
  | some config =>
    have hfound (options : CompilerOptions) : Silent (do
        let strategy ← plugin.classify options
        return some (Classified.mk config options strategy)) :=
      (Silent.classify plugin options).bind fun _ => Silent.pure _
    cases plugin.overrides.config with
    | none => exact (Silent.pure _).bind hfound
    | some hook => exact (Silent.attempt _).bind hfound

theorem silent_complete (plugin : InputPlugin (StateM σ)) (code id : String) (found : Classified) :
    Silent (plugin.complete code id found) := by
  refine (Silent.liftExcept _).bind fun _ => (Silent.attemptCompile id _).bind fun output => ?_
  cases plugin.overrides.result with
  | none => exact Silent.pure _
  | some hook => exact (Silent.attempt _).map some

/-- The classification that `transform` gets; none if it fails before, or if the module is left out. -/
def classification (plugin : InputPlugin (StateM σ)) (code id : String) (s : BuildState) (world : σ) :
    Option HelperStrategy :=
  match ((plugin.classified code id).ends s world).1.1 with
  | .ok (some found) => some found.strategy
  | _ => none

/-- A transform reports the text about external helpers just if it gets that classification on a plugin
without external helpers. -/
theorem reports_transform (plugin : InputPlugin (StateM σ)) (code id : String) (s : BuildState)
    (world : σ) : (plugin.transform code id).Reports s world
      (if plugin.classification code id s world = some .external ∧ plugin.config.externalHelpers = false
        then some externalHelpersDeprecated else none) := by
  have hfirst := plugin.silent_classified code id
  unfold classification
  rw [transform_eq]
  rcases hends : (plugin.classified code id).ends s world with ⟨⟨e | _ | found, s'⟩, world'⟩
  · have hstop := hfirst s world
    unfold Reports at hstop ⊢
    rw [ends_bind, hends]
    rwa [hends] at hstop
  · exact hfirst.reports_bind hends (Silent.pure none s' world')
  · refine hfirst.reports_bind hends ?_
    have hcomplete := plugin.silent_complete code id found
    by_cases hwarns : found.strategy = .external ∧ plugin.config.externalHelpers = false
    · simpa [hwarns] using reports_warn hcomplete s' world'
    · simpa [hwarns] using hcomplete s' world'

end InputPlugin

/-- The start of a chunk reports the text about options for modules just if there are such options, also
where it refuses the format. -/
theorem OutputPlugin.reports_renderStart (plugin : OutputPlugin (StateM σ)) (format : OutputFormat)
    (s : BuildState) (world : σ) : (plugin.renderStart format).Reports s world
      (if plugin.options.hasModuleOnlyOptions = true then some moduleOnlyOptionsIgnored else none) := by
  have hchecked : Build.Silent (do
      if !isPlainFormat format && !plugin.options.allowAllFormats then
        throw (.unsupportedChunkFormat format) : Build (StateM σ) Unit) := by
    split
    · exact .throw _
    · exact .pure _
  unfold renderStart
  cases plugin.options.hasModuleOnlyOptions with
  | true => exact Build.reports_warn hchecked s world
  | false => exact hchecked s world

/-! ## Sessions -/

/-- Plugins that share a compiler and warnings, with what each context was told. -/
structure Session (σ : Type) where
  compiler : Compiler (StateM σ)
  /-- What the compiler and the hooks act on. -/
  world : σ
  /-- The input plugins, each with the answers that it keeps. -/
  inputs : List (InputPlugin (StateM σ) × PreflightCache) := []
  outputs : List (OutputPlugin (StateM σ)) := []
  warnings : WarningSet := {}
  told : Nat → List String := fun _ => []

/-- What may be asked of a session. Plugins are named by the order in which they were built, contexts by
numbers. -/
inductive SessionCall (σ : Type) where
  | inputPlugin (options : PluginOptions) (overrides : Overrides (StateM σ))
  | outputPlugin (options : PluginOptions) (overrides : Overrides (StateM σ))
  | transform (plugin context : Nat) (code id : String)
  | check (plugin : Nat) (id : String)
  | renderStart (plugin context : Nat) (format : OutputFormat)
  | renderChunk (plugin : Nat) (format : OutputFormat) (code fileName : String)

namespace Session

open Build InputPlugin

/-- A session in which nothing was asked. -/
def fresh (compiler : Compiler (StateM σ)) (world : σ) : Session σ :=
  { compiler, world }

/-- What a build for a context, if there is one, starts from. -/
def state (s : Session σ) (context : Option Nat) (cache : PreflightCache) : BuildState :=
  ⟨cache, s.warnings, (context.map s.told).getD []⟩

/-- The answers kept and the session behind a build. -/
def behind (s : Session σ) (context : Option Nat) (cache : PreflightCache) (x : Build (StateM σ) α) :
    PreflightCache × Session σ :=
  let ((_, t), world) := x.ends (s.state context cache) s.world
  let told := match context with
    | some c => Function.update s.told c t.told
    | none => s.told
  (t.cache, { s with warnings := t.warnings, told, world })

/-- The session behind a build of an input plugin. -/
def askInput (s : Session σ) (i : Nat) (context : Option Nat)
    (x : InputPlugin (StateM σ) → Build (StateM σ) α) : Session σ :=
  match s.inputs[i]? with
  | none => s
  | some (plugin, cache) =>
    let (cache, s) := s.behind context cache (x plugin)
    { s with inputs := s.inputs.set i (plugin, cache) }

/-- The session behind a build of an output plugin, which keeps no answers. -/
def askOutput (s : Session σ) (i : Nat) (context : Option Nat)
    (x : OutputPlugin (StateM σ) → Build (StateM σ) α) : Session σ :=
  match s.outputs[i]? with
  | none => s
  | some plugin => (s.behind context {} (x plugin)).2

/-- The session behind a call, whatever the call answers. -/
def step (s : Session σ) : SessionCall σ → Session σ
  | .inputPlugin options overrides =>
    match (InputPlugin.create s.compiler overrides options).run s.world with
    | (.ok plugin, world) => { s with inputs := s.inputs ++ [(plugin, {})], world }
    | (.error _, world) => { s with world }
  | .outputPlugin options overrides =>
    match (OutputPlugin.create s.compiler overrides options).run s.world with
    | (.ok plugin, world) => { s with outputs := s.outputs ++ [plugin], world }
    | (.error _, world) => { s with world }
  | .transform i context code id => s.askInput i (some context) (·.transform code id)
  | .check i id => s.askInput i none (·.check id)
  | .renderStart i context format => s.askOutput i (some context) (·.renderStart format)
  | .renderChunk i format code fileName => s.askOutput i none (·.renderChunk format code fileName)

/-- The session behind a row of calls. -/
def afterCalls (s : Session σ) (calls : List (SessionCall σ)) : Session σ :=
  calls.foldl step s

@[simp] theorem afterCalls_nil (s : Session σ) : s.afterCalls [] = s := rfl

@[simp] theorem afterCalls_cons (s : Session σ) (call : SessionCall σ) (rest : List (SessionCall σ)) :
    s.afterCalls (call :: rest) = (s.step call).afterCalls rest := rfl

theorem afterCalls_append (s : Session σ) (calls more : List (SessionCall σ)) :
    s.afterCalls (calls ++ more) = (s.afterCalls calls).afterCalls more :=
  List.foldl_append

/-! ## Texts that calls raise -/

/-- The text that a call raises, with the context that is to hear it. -/
def raised (s : Session σ) : SessionCall σ → Option (Nat × String)
  | .transform i context code id =>
    match s.inputs[i]? with
    | some (plugin, cache) =>
      if plugin.classification code id (s.state (some context) cache) s.world = some .external ∧
          plugin.config.externalHelpers = false then some (context, externalHelpersDeprecated)
      else none
    | none => none
  | .renderStart i context _ =>
    match s.outputs[i]? with
    | some plugin =>
      if plugin.options.hasModuleOnlyOptions then some (context, moduleOnlyOptionsIgnored) else none
    | none => none
  | _ => none

/-- Some call of a row raises a text. -/
def Raises (s : Session σ) (calls : List (SessionCall σ)) (text : String) : Prop :=
  ∃ before call rest context, calls = before ++ call :: rest ∧
    (s.afterCalls before).raised call = some (context, text)

/-- The warnings and what contexts were told when a text was raised. -/
def reported (s : Session σ) : Option (Nat × String) → WarningSet × (Nat → List String)
  | none => (s.warnings, s.told)
  | some (context, text) =>
    if text ∈ s.warnings.seen then (s.warnings, s.told)
    else (⟨text :: s.warnings.seen⟩, Function.update s.told context (s.told context ++ [text]))

/-- Two calls can raise a text: a transform, and the start of a chunk. -/
theorem raised_eq_some {s : Session σ} {call : SessionCall σ} {context : Nat} {text : String} :
    s.raised call = some (context, text) ↔
      (∃ i code id plugin cache, call = .transform i context code id ∧
        s.inputs[i]? = some (plugin, cache) ∧
        plugin.classification code id (s.state (some context) cache) s.world = some .external ∧
        plugin.config.externalHelpers = false ∧ text = externalHelpersDeprecated) ∨
      ∃ i format plugin, call = .renderStart i context format ∧ s.outputs[i]? = some plugin ∧
        plugin.options.hasModuleOnlyOptions = true ∧ text = moduleOnlyOptionsIgnored := by
  constructor
  · intro h
    cases call with
    | transform i c code id =>
      dsimp only [raised] at h
      split at h
      · rename_i plugin cache hi
        split at h
        · rename_i hfound
          obtain ⟨rfl, rfl⟩ := Prod.mk.inj (Option.some.inj h)
          exact .inl ⟨i, code, id, plugin, cache, rfl, hi, hfound.1, hfound.2, rfl⟩
        · cases h
      · cases h
    | renderStart i c format =>
      dsimp only [raised] at h
      split at h
      · rename_i plugin hi
        split at h
        · rename_i hgiven
          obtain ⟨rfl, rfl⟩ := Prod.mk.inj (Option.some.inj h)
          exact .inr ⟨i, format, plugin, rfl, hi, hgiven, rfl⟩
        · cases h
      · cases h
    | inputPlugin | outputPlugin | check | renderChunk => cases h
  · rintro (⟨i, code, id, plugin, cache, rfl, hi, hfound, hconfig, rfl⟩ |
      ⟨i, format, plugin, rfl, hi, hgiven, rfl⟩)
    · simp [raised, hi, hfound, hconfig]
    · simp [raised, hi, hgiven]

theorem external_ne_moduleOnly : externalHelpersDeprecated ≠ moduleOnlyOptionsIgnored := by
  decide

/-- A build for a context reports what it raises. -/
theorem behind_reports {s : Session σ} {context : Nat} {cache : PreflightCache} {x : Build (StateM σ) α}
    {text : Option String} (h : x.Reports (s.state (some context) cache) s.world text) :
    ((s.behind (some context) cache x).2.warnings, (s.behind (some context) cache x).2.told) =
      s.reported (text.map (context, ·)) := by
  cases text with
  | none =>
    obtain ⟨hwarnings, htold⟩ := h
    exact Prod.ext hwarnings ((congrArg _ htold).trans (Function.update_eq_self context s.told))
  | some text =>
    obtain ⟨hwarnings, htold⟩ := h
    have hreport : (s.behind (some context) cache x).2.told = Function.update s.told context
        (s.warnings.report (s.told context) text).2.2 :=
      congrArg (Function.update s.told context) htold
    have hseen : (s.behind (some context) cache x).2.warnings =
        (s.warnings.report (s.told context) text).2.1 := hwarnings
    rw [hreport, hseen]
    unfold WarningSet.report reported
    simp only [Option.map_some, List.contains_iff_mem]
    split <;> simp

theorem silent_behind (s : Session σ) (cache : PreflightCache) {x : Build (StateM σ) α} (h : Silent x) :
    ((s.behind none cache x).2.warnings, (s.behind none cache x).2.told) = s.reported none :=
  Prod.ext (h (s.state none cache) s.world).1 rfl

section

variable {s : Session σ} {i : Nat} {context : Option Nat}

theorem askInput_of_none (h : s.inputs[i]? = none) (x : InputPlugin (StateM σ) → Build (StateM σ) α) :
    s.askInput i context x = s := by
  rw [askInput, h]

theorem askInput_of_some {plugin : InputPlugin (StateM σ)} {cache : PreflightCache}
    (h : s.inputs[i]? = some (plugin, cache)) (x : InputPlugin (StateM σ) → Build (StateM σ) α) :
    s.askInput i context x =
      { (s.behind context cache (x plugin)).2 with
        inputs := s.inputs.set i (plugin, (s.behind context cache (x plugin)).1) } := by
  rw [askInput, h]
  rfl

theorem askOutput_of_none (h : s.outputs[i]? = none) (x : OutputPlugin (StateM σ) → Build (StateM σ) α) :
    s.askOutput i context x = s := by
  rw [askOutput, h]

theorem askOutput_of_some {plugin : OutputPlugin (StateM σ)} (h : s.outputs[i]? = some plugin)
    (x : OutputPlugin (StateM σ) → Build (StateM σ) α) :
    s.askOutput i context x = (s.behind context {} (x plugin)).2 := by
  rw [askOutput, h]

end

/-- One call reports what it raises, unless that was reported before, and nothing else. -/
theorem step_reports (s : Session σ) (call : SessionCall σ) :
    ((s.step call).warnings, (s.step call).told) = s.reported (s.raised call) := by
  cases call with
  | inputPlugin options overrides =>
    dsimp only [step, raised]
    rcases (InputPlugin.create s.compiler overrides options).run s.world with ⟨e | plugin, world⟩ <;> rfl
  | outputPlugin options overrides =>
    dsimp only [step, raised]
    rcases (OutputPlugin.create s.compiler overrides options).run s.world with ⟨e | plugin, world⟩ <;> rfl
  | transform i context code id =>
    dsimp only [step, raised]
    cases hi : s.inputs[i]? with
    | none =>
      rw [askInput_of_none hi]
      rfl
    | some asked =>
      obtain ⟨plugin, cache⟩ := asked
      rw [askInput_of_some hi,
        behind_reports (plugin.reports_transform code id (s.state (some context) cache) s.world)]
      dsimp only
      rw [apply_ite (Option.map (context, ·))]
      rfl
  | check i id =>
    dsimp only [step, raised]
    cases hi : s.inputs[i]? with
    | none =>
      rw [askInput_of_none hi]
      rfl
    | some asked =>
      rw [askInput_of_some hi]
      exact s.silent_behind asked.2 (Silent.check asked.1 id)
  | renderStart i context format =>
    dsimp only [step, raised]
    cases hi : s.outputs[i]? with
    | none =>
      rw [askOutput_of_none hi]
      rfl
    | some plugin =>
      rw [askOutput_of_some hi,
        behind_reports (plugin.reports_renderStart format (s.state (some context) {}) s.world)]
      dsimp only
      rw [apply_ite (Option.map (context, ·))]
      rfl
  | renderChunk i format code fileName =>
    dsimp only [step, raised]
    cases hi : s.outputs[i]? with
    | none =>
      rw [askOutput_of_none hi]
      rfl
    | some plugin =>
      rw [askOutput_of_some hi]
      exact s.silent_behind {} (Silent.renderChunk plugin format code fileName)

/-! ## Rows of calls -/

/-- The texts reported are those that contexts were told, each of them once. -/
structure Consistent (s : Session σ) : Prop where
  seen_nodup : s.warnings.seen.Nodup
  mem_seen : ∀ text, text ∈ s.warnings.seen ↔ ∃ context, text ∈ s.told context
  told_nodup : ∀ context, (s.told context).Nodup
  one_context : ∀ text context other, text ∈ s.told context → text ∈ s.told other → context = other

/-- A session that reports something new tells it to the context that is to hear it. -/
theorem mem_told_update {told : Nat → List String} {context other : Nat} {text new : String} :
    text ∈ Function.update told context (told context ++ [new]) other ↔
      text ∈ told other ∨ text = new ∧ other = context := by
  by_cases h : other = context
  · subst h
    simp
  · simp [h]

/-- A call changes nothing, or tells a new text to the context that is to hear it. -/
theorem step_cases (s : Session σ) (call : SessionCall σ) :
    ((s.step call).warnings = s.warnings ∧ (s.step call).told = s.told ∧
      ∀ context text, s.raised call = some (context, text) → text ∈ s.warnings.seen) ∨
    ∃ context text, s.raised call = some (context, text) ∧ text ∉ s.warnings.seen ∧
      (s.step call).warnings.seen = text :: s.warnings.seen ∧
      (s.step call).told = Function.update s.told context (s.told context ++ [text]) := by
  have hstep := s.step_reports call
  cases hraised : s.raised call with
  | none =>
    rw [hraised] at hstep
    obtain ⟨hwarnings, htold⟩ := Prod.mk.inj hstep
    exact .inl ⟨hwarnings, htold, fun _ _ h => nomatch h⟩
  | some raised =>
    obtain ⟨context, text⟩ := raised
    rw [hraised, reported] at hstep
    split at hstep
    · rename_i hseen
      obtain ⟨hwarnings, htold⟩ := Prod.mk.inj hstep
      refine .inl ⟨hwarnings, htold, fun _ _ h => ?_⟩
      obtain ⟨-, rfl⟩ := Prod.mk.inj (Option.some.inj h)
      exact hseen
    · rename_i hnew
      obtain ⟨hwarnings, htold⟩ := Prod.mk.inj hstep
      exact .inr ⟨context, text, rfl, hnew, congrArg WarningSet.seen hwarnings, htold⟩

theorem Consistent.step {s : Session σ} (h : s.Consistent) (call : SessionCall σ) :
    (s.step call).Consistent := by
  rcases s.step_cases call with ⟨hwarnings, htold, -⟩ | ⟨context, text, -, hnew, hseen, htold⟩
  · constructor
    · simpa [hwarnings] using h.seen_nodup
    · simpa [hwarnings, htold] using h.mem_seen
    · simpa [htold] using h.told_nodup
    · simpa [htold] using h.one_context
  · have huntold (other : Nat) : text ∉ s.told other :=
      fun hmem => hnew ((h.mem_seen text).mpr ⟨other, hmem⟩)
    constructor
    · rw [hseen]
      exact List.nodup_cons.mpr ⟨hnew, h.seen_nodup⟩
    · intro other
      rw [hseen, htold, List.mem_cons, h.mem_seen]
      simp only [mem_told_update, exists_or, exists_and_left, exists_eq, and_true, or_comm]
    · intro other
      rw [htold]
      by_cases hother : other = context
      · subst hother
        rw [Function.update_self]
        exact (h.told_nodup other).append (List.nodup_singleton text)
          (List.disjoint_singleton.mpr (huntold other))
      · rw [Function.update_of_ne hother]
        exact h.told_nodup other
    · intro other c d
      rw [htold]
      simp only [mem_told_update]
      rintro (hc | ⟨hc, hcontext⟩) (hd | ⟨hd, hcontext'⟩)
      · exact h.one_context other c d hc hd
      · exact (huntold c (hd ▸ hc)).elim
      · exact (huntold d (hc ▸ hd)).elim
      · exact hcontext.trans hcontext'.symm

theorem Consistent.afterCalls {s : Session σ} (h : s.Consistent) (calls : List (SessionCall σ)) :
    (s.afterCalls calls).Consistent := by
  induction calls generalizing s with
  | nil => exact h
  | cons call rest ih => exact ih (h.step call)

/-- What contexts were told stays, and they are told nothing twice. -/
theorem isPrefix_told (s : Session σ) (calls : List (SessionCall σ)) (context : Nat) :
    s.told context <+: (s.afterCalls calls).told context := by
  induction calls generalizing s with
  | nil => exact List.prefix_refl _
  | cons call rest ih =>
    refine List.IsPrefix.trans ?_ (ih (s.step call))
    rcases s.step_cases call with ⟨-, htold, -⟩ | ⟨c, text, -, -, -, htold⟩
    · rw [htold]
    · rw [htold]
      by_cases h : context = c
      · subst h
        rw [Function.update_self]
        exact List.prefix_append _ _
      · rw [Function.update_of_ne h]

theorem mem_seen_step (s : Session σ) (call : SessionCall σ) (text : String) :
    text ∈ (s.step call).warnings.seen ↔
      text ∈ s.warnings.seen ∨ ∃ context, s.raised call = some (context, text) := by
  rcases s.step_cases call with ⟨hwarnings, -, hraised⟩ | ⟨context, new, hraised, -, hseen, -⟩
  · rw [hwarnings]
    exact ⟨.inl, fun h => h.elim id fun ⟨context, h⟩ => hraised context text h⟩
  · rw [hseen, hraised, List.mem_cons]
    simp [or_comm, eq_comm]

theorem raises_cons (s : Session σ) (call : SessionCall σ) (rest : List (SessionCall σ)) (text : String) :
    s.Raises (call :: rest) text ↔
      (∃ context, s.raised call = some (context, text)) ∨ (s.step call).Raises rest text := by
  constructor
  · rintro ⟨before, other, behind, context, hrow, hraised⟩
    cases before with
    | nil =>
      obtain ⟨rfl, -⟩ := List.cons.inj hrow
      exact .inl ⟨context, hraised⟩
    | cons first before =>
      obtain ⟨rfl, hrest⟩ := List.cons.inj hrow
      exact .inr ⟨before, other, behind, context, hrest, hraised⟩
  · rintro (⟨context, hraised⟩ | ⟨before, other, behind, context, rfl, hraised⟩)
    · exact ⟨[], call, rest, context, rfl, hraised⟩
    · exact ⟨call :: before, other, behind, context, rfl, hraised⟩

/-- The texts reported behind a row of calls are those reported before and those that some call raised. -/
theorem mem_seen_afterCalls (s : Session σ) (calls : List (SessionCall σ)) (text : String) :
    text ∈ (s.afterCalls calls).warnings.seen ↔ text ∈ s.warnings.seen ∨ s.Raises calls text := by
  induction calls generalizing s with
  | nil => simp [Raises]
  | cons call rest ih => rw [afterCalls_cons, ih, mem_seen_step, raises_cons, or_assoc]

theorem consistent_fresh (compiler : Compiler (StateM σ)) (world : σ) : (fresh compiler world).Consistent where
  seen_nodup := List.nodup_nil
  mem_seen text := by simp [fresh]
  told_nodup _ := List.nodup_nil
  one_context _ _ _ h := nomatch h

/-- A text that is raised and that no context was told is told to the context that is to hear it. -/
theorem Consistent.told_step {s : Session σ} (h : s.Consistent) {call : SessionCall σ} {context : Nat}
    {text : String} (hraised : s.raised call = some (context, text)) (huntold : ∀ c, text ∉ s.told c) :
    (s.step call).told = Function.update s.told context (s.told context ++ [text]) := by
  rcases s.step_cases call with ⟨-, -, hseen⟩ | ⟨context', text', hraised', -, -, htold⟩
  · obtain ⟨c, hmem⟩ := (h.mem_seen text).mp (hseen context text hraised)
    exact (huntold c hmem).elim
  · obtain ⟨rfl, rfl⟩ := Prod.mk.inj (Option.some.inj (hraised.symm.trans hraised'))
    exact htold

/-- A text that some context was told was told once, to this context only. -/
theorem Consistent.count_told {s : Session σ} (h : s.Consistent) {context : Nat} {text : String}
    (hmem : text ∈ s.told context) (c : Nat) : (s.told c).count text = if c = context then 1 else 0 := by
  split
  · rename_i hsame
    subst hsame
    exact List.count_eq_one_of_mem (h.told_nodup c) hmem
  · rename_i hother
    exact List.count_eq_zero_of_not_mem fun hmem' => hother (h.one_context text c context hmem' hmem)

/-- The warnings are as many as texts were told. -/
theorem Consistent.size_eq {s : Session σ} (h : s.Consistent) :
    s.warnings.size = {text | ∃ c, text ∈ s.told c}.ncard := by
  have hfinite : {text | ∃ c, text ∈ s.told c} = (s.warnings.seen.toFinset : Set String) := by
    ext text
    simp [h.mem_seen]
  rw [hfinite, Set.ncard_coe_finset, List.toFinset_card_of_nodup h.seen_nodup]
  rfl

/-- The text about external helpers is raised by calls of `transform` that get this classification. -/
theorem raises_external_iff (s : Session σ) (calls : List (SessionCall σ)) :
    s.Raises calls externalHelpersDeprecated ↔ ∃ before i context code id rest plugin cache,
      calls = before ++ .transform i context code id :: rest ∧
      (s.afterCalls before).inputs[i]? = some (plugin, cache) ∧
      plugin.classification code id ((s.afterCalls before).state (some context) cache)
        (s.afterCalls before).world = some .external ∧
      plugin.config.externalHelpers = false := by
  constructor
  · rintro ⟨before, call, rest, context, hrow, hraised⟩
    rcases raised_eq_some.mp hraised with
      ⟨i, code, id, plugin, cache, rfl, hi, hfound, hconfig, -⟩ | ⟨i, format, plugin, -, -, -, htext⟩
    · exact ⟨before, i, context, code, id, rest, plugin, cache, hrow, hi, hfound, hconfig⟩
    · exact (external_ne_moduleOnly htext).elim
  · rintro ⟨before, i, context, code, id, rest, plugin, cache, hrow, hi, hfound, hconfig⟩
    exact ⟨before, _, rest, context, hrow,
      raised_eq_some.mpr (.inl ⟨i, code, id, plugin, cache, rfl, hi, hfound, hconfig, rfl⟩)⟩

/-- The text about options for modules is raised by starts of chunks with such options. -/
theorem raises_moduleOnly_iff (s : Session σ) (calls : List (SessionCall σ)) :
    s.Raises calls moduleOnlyOptionsIgnored ↔ ∃ before i context format rest plugin,
      calls = before ++ .renderStart i context format :: rest ∧
      (s.afterCalls before).outputs[i]? = some plugin ∧ plugin.options.hasModuleOnlyOptions = true := by
  constructor
  · rintro ⟨before, call, rest, context, hrow, hraised⟩
    rcases raised_eq_some.mp hraised with
      ⟨i, code, id, plugin, cache, -, -, -, -, htext⟩ | ⟨i, format, plugin, rfl, hi, hgiven, -⟩
    · exact (external_ne_moduleOnly htext.symm).elim
    · exact ⟨before, i, context, format, rest, plugin, hrow, hi, hgiven⟩
  · rintro ⟨before, i, context, format, rest, plugin, hrow, hi, hgiven⟩
    exact ⟨before, _, rest, context, hrow,
      raised_eq_some.mpr (.inr ⟨i, format, plugin, rfl, hi, hgiven, rfl⟩)⟩

/-- Behind any row of calls of a fresh session, whatever compiler and hooks answer and whether calls fail: a
text that some call raised was told to nobody before the first such call; that call told it to the context
that it named, and no context was told it again. No other text was told. The warnings are as many as texts
were told. The one about external helpers was told just if some call of `transform` got that classification
on a plugin without external helpers, and the one about options for modules just if `renderStart` ran on a
plugin with such options. -/
theorem warns_once (compiler : Compiler (StateM σ)) (world : σ) (calls : List (SessionCall σ)) :
    let start := fresh compiler world
    let told := fun row => (start.afterCalls row).told
    (∀ before call rest context text, calls = before ++ call :: rest →
      (start.afterCalls before).raised call = some (context, text) → ¬ start.Raises before text →
      (∀ c, text ∉ told before c) ∧
      told (before ++ [call]) = Function.update (told before) context (told before context ++ [text]) ∧
      ∀ c, (told calls c).count text = if c = context then 1 else 0) ∧
    (∀ text, (∃ c, text ∈ told calls c) ↔ start.Raises calls text) ∧
    (start.afterCalls calls).warnings.size = {text | ∃ c, text ∈ told calls c}.ncard ∧
    ((∃ c, externalHelpersDeprecated ∈ told calls c) ↔
      ∃ before i context code id rest plugin cache,
        calls = before ++ .transform i context code id :: rest ∧
        (start.afterCalls before).inputs[i]? = some (plugin, cache) ∧
        plugin.classification code id ((start.afterCalls before).state (some context) cache)
          (start.afterCalls before).world = some .external ∧
        plugin.config.externalHelpers = false) ∧
    ((∃ c, moduleOnlyOptionsIgnored ∈ told calls c) ↔
      ∃ before i context format rest plugin, calls = before ++ .renderStart i context format :: rest ∧
        (start.afterCalls before).outputs[i]? = some plugin ∧
        plugin.options.hasModuleOnlyOptions = true) := by
  intro start told
  have hconsistent (row : List (SessionCall σ)) : (start.afterCalls row).Consistent :=
    (consistent_fresh compiler world).afterCalls row
  have hraises (row : List (SessionCall σ)) (text : String) :
      (∃ c, text ∈ told row c) ↔ start.Raises row text := by
    rw [← (hconsistent row).mem_seen, mem_seen_afterCalls]
    exact or_iff_right List.not_mem_nil
  refine ⟨?_, hraises calls, (hconsistent calls).size_eq, ?_, ?_⟩
  · rintro before call rest context text rfl hraised hfirst
    have huntold (c : Nat) : text ∉ told before c := fun hmem => hfirst ((hraises before text).mp ⟨c, hmem⟩)
    have hnow : told (before ++ [call]) =
        Function.update (told before) context (told before context ++ [text]) := by
      simp only [told, afterCalls_append, afterCalls_cons, afterCalls_nil]
      exact (hconsistent before).told_step hraised huntold
    have hmem : text ∈ told (before ++ call :: rest) context := by
      have hstays := (start.afterCalls (before ++ [call])).isPrefix_told rest context
      rw [← afterCalls_append, List.append_assoc] at hstays
      refine hstays.subset ?_
      show text ∈ told (before ++ [call]) context
      simp [hnow]
    exact ⟨huntold, hnow, (hconsistent _).count_told hmem⟩
  · rw [hraises, raises_external_iff]
  · rw [hraises, raises_moduleOnly_iff]

end Session

end ModuleBuild
