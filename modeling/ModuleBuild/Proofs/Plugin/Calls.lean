import Mathlib
import ModuleBuild.Proofs.Plugin.Transform

/-!
# Steps of calls

A call of `transform` looks for a kept answer, probes if there is none, keeps what it found, tells a warning
that was added and completes. Each of these is a step, and calls that share a plugin take their steps in some
order. The steps of one call, with none of another call between them, are a call of `transform`.

## Main definitions

* `TransformCall`, `InputPlugin.question` — a call, and the options that it has to classify.
* `CallStage`, `CallsState` — where a call stands, and calls with what they share.
* `InputPlugin.step`, `InputPlugin.run` — one step of one call, and steps in some order.
* `InputPlugin.Move` — what a step may be.

## Main statements

* `InputPlugin.move_step` — a step is one of the moves.
* `InputPlugin.run_transform`, `InputPlugin.run_alone` — a call by itself is a call of `transform`.
-/

namespace ModuleBuild

open PreflightCache

theorem PreflightCache.lookup_insert (cache : PreflightCache) (options : CompilerOptions)
    (strategy : HelperStrategy) (name : String) :
    (cache.insert options strategy).results.lookup name =
      if name = key options then some strategy else cache.results.lookup name :=
  lookup_replace _ _ _ _

/-- A call of `transform`, with the context that hears its warnings. -/
structure TransformCall where
  code : String
  id : String
  context : Nat := 0

/-- The configuration of a module, with the options to classify. -/
abbrev Question := PartialConfig × CompilerOptions

namespace InputPlugin

variable (plugin : InputPlugin Id)

/-! ## One call by itself -/

/-- What a call has to classify, or its answer if it ends before. -/
def question (call : TransformCall) : Except (Except PluginError (Option CompileOutput)) Question :=
  if call.id == helperModuleId || !plugin.filter.accepts call.id then .error (.ok none)
  else
    match plugin.adjusted call.code call.id with
    | .error e => .error (.error e)
    | .ok none => .error (.ok none)
    | .ok (some asked) => .ok asked

/-- The answer of a call that acts on a strategy. -/
def completed (call : TransformCall) (asked : Question) (strategy : HelperStrategy) :
    Except PluginError (Option CompileOutput) :=
  match plugin.config.finalOptions asked.2 strategy with
  | .error e => .error e
  | .ok compileOptions => (plugin.compiled call.code call.id asked.1 compileOptions).1

/-- Whether a strategy is warned about. -/
def warns (strategy : HelperStrategy) : Bool :=
  strategy == .external && !plugin.config.externalHelpers

/-- The state behind the warning about a strategy, if there is one. -/
def warned (strategy : HelperStrategy) (s : BuildState) : BuildState :=
  if plugin.warns strategy then
    { s with
      warnings := (s.warnings.report s.told externalHelpersDeprecated).2.1
      told := (s.warnings.report s.told externalHelpersDeprecated).2.2 }
  else s

variable {plugin}

theorem run_attempt {α : Type} (x : Except PluginError α) (s : BuildState) :
    ((Build.attempt (m := Id) x).run.run s : Except PluginError α × BuildState) = (x, s) := by
  cases x <;> rfl

theorem run_attemptCompile {α : Type} (unit : String) (x : Except CompileError α) (s : BuildState) :
    ((Build.attemptCompile (m := Id) unit x).run.run s : Except PluginError α × BuildState) =
      (x.mapError (.compile unit), s) := by
  cases x <;> rfl

theorem run_finalize (options : CompilerOptions) (s : BuildState) :
    ((plugin.finalize options).run.run s : Except PluginError CompilerOptions × BuildState) =
      match s.cache.classify plugin.compiler options with
      | (.error e, cache) => (.error e, { s with cache })
      | (.ok strategy, cache) =>
        (plugin.config.finalOptions options strategy, plugin.warned strategy { s with cache }) := by
  have hclassify : ((plugin.classify options).run.run s : Except PluginError HelperStrategy × BuildState) =
      ((s.cache.classify plugin.compiler options).1,
        { s with cache := (s.cache.classify plugin.compiler options).2 }) := by
    have hrun (x : Id (Except PluginError HelperStrategy × PreflightCache)) :
        ((do
          let a ← Build.act x
          modify fun s => { s with cache := a.2 }
          classify.liftExcept a.1 : Build Id HelperStrategy).run.run s :
            Except PluginError HelperStrategy × BuildState) = (x.1, { s with cache := x.2 }) := by
      rcases x with ⟨_ | _, _⟩ <;> rfl
    exact hrun _
  unfold finalize
  rw [run_bind, hclassify]
  rcases s.cache.classify plugin.compiler options with ⟨e | strategy, cache⟩
  · rfl
  · unfold warned warns InputConfig.finalOptions
    cases strategy <;> cases plugin.config.runtimeHelpers <;> cases plugin.config.externalHelpers <;> rfl

/-- A call asks its question, warns, and completes the compile. -/
theorem run_transform (call : TransformCall) (s : BuildState) :
    ((plugin.transform call.code call.id).run.run s : Except PluginError _ × BuildState) =
      match plugin.question call with
      | .error answer => (answer, s)
      | .ok asked =>
        match s.cache.classify plugin.compiler asked.2 with
        | (.error e, cache) => (.error e, { s with cache })
        | (.ok strategy, cache) =>
          (plugin.completed call asked strategy, plugin.warned strategy { s with cache }) := by
  unfold question transform compileUnit adjusted
  split
  · rfl
  rw [run_bind, run_attemptCompile]
  cases plugin.compiler.loadPartialConfig (plugin.optionsFor call.id) with
  | error e => rfl
  | ok found =>
    cases found with
    | none => rfl
    | some config =>
      dsimp -zeta -zetaHave only [Except.mapError]
      extract_lets rest
      have hrest (options : CompilerOptions) : ((rest options).run.run s : Except PluginError _ × BuildState) =
          match s.cache.classify plugin.compiler options with
          | (.error e, cache) => (.error e, { s with cache })
          | (.ok strategy, cache) =>
            (plugin.completed call (config, options) strategy, plugin.warned strategy { s with cache }) := by
        unfold rest
        rw [run_bind, run_finalize]
        rcases s.cache.classify plugin.compiler options with ⟨e | strategy, cache⟩
        · rfl
        unfold completed compiled
        dsimp only
        cases plugin.config.finalOptions options strategy with
        | error e => rfl
        | ok compileOptions =>
          dsimp only
          rw [run_bind, run_attemptCompile]
          cases plugin.compiler.compile call.code compileOptions with
          | error e => rfl
          | ok output =>
            cases plugin.overrides.result with
            | none => rfl
            | some hook =>
              dsimp only [Except.mapError]
              rw [map_eq_pure_bind, run_bind]
              let context : ResultContext :=
                { code := call.code, customOptions := plugin.customOptions, config, compileOptions }
              have hanswer : ((Build.attempt (m := Id) (HookOutput.resolve <$> hook output context)).run.run
                  (plugin.warned strategy { s with cache }) : Except PluginError _ × BuildState) =
                  ((hook output context).resolve, plugin.warned strategy { s with cache }) :=
                run_attempt _ _
              rw [hanswer]
              cases (hook output context).resolve <;> rfl
      cases plugin.overrides.config with
      | none => exact hrest config.options
      | some hook =>
        dsimp only
        rw [run_bind]
        let context : ConfigContext := { code := call.code, customOptions := plugin.customOptions }
        have hanswer : ((Build.attempt (m := Id) (HookOutput.resolve <$> hook config context)).run.run s :
            Except PluginError _ × BuildState) = ((hook config context).resolve, s) := run_attempt _ _
        rw [hanswer]
        cases (hook config context).resolve with
        | error e => rfl
        | ok options => exact hrest options

end InputPlugin

/-! ## Steps of calls -/

/-- Where a call stands between two of its steps. -/
inductive CallStage where
  /-- About to look for a kept answer. -/
  | asking
  /-- No answer was kept. -/
  | probing (asked : Question)
  /-- A probe found a strategy. -/
  | storing (asked : Question) (strategy : HelperStrategy)
  /-- Classified, with the warning ahead. -/
  | found (asked : Question) (strategy : HelperStrategy)
  /-- The warning is new, and has to be told. -/
  | telling (asked : Question) (strategy : HelperStrategy)
  | completing (asked : Question) (strategy : HelperStrategy)
  /-- Answered, on a strategy if the call got as far as that. -/
  | done (strategy : Option (Except PluginError HelperStrategy)) (answer : Except PluginError (Option CompileOutput))

namespace CallStage

/-- The strategy, or the failure to find one, that a call acts on. -/
def strategy? : CallStage → Option (Except PluginError HelperStrategy)
  | asking | probing _ => none
  | storing _ strategy | found _ strategy | telling _ strategy | completing _ strategy => some (.ok strategy)
  | done strategy _ => strategy

/-- The strategy of a call that has its warning behind it. -/
def warned? : CallStage → Option HelperStrategy
  | completing _ strategy | done (some (.ok strategy)) _ => some strategy
  | _ => none

def isTelling : CallStage → Bool
  | telling _ _ => true
  | _ => false

def isDone : CallStage → Bool
  | done _ _ => true
  | _ => false

theorem exists_done {stage : CallStage} (h : stage.isDone = true) :
    ∃ found answer, stage = done found answer := by
  cases stage with
  | done found answer => exact ⟨found, answer, rfl⟩
  | _ => cases h

end CallStage

/-- Calls, and what they share. -/
structure CallsState (ι : Type) where
  cache : PreflightCache := {}
  warnings : WarningSet := {}
  /-- The warnings told, each to a context, in order. -/
  reports : List (Nat × String) := []
  /-- The calls that probed, in order. -/
  probes : List ι := []
  stage : ι → CallStage := fun _ => .asking

/-- The state in which a call stands elsewhere. -/
def CallsState.goto {ι : Type} [DecidableEq ι] (s : CallsState ι) (i : ι) (stage : CallStage) : CallsState ι :=
  { s with stage := Function.update s.stage i stage }

@[simp] theorem CallsState.goto_stage_self {ι : Type} [DecidableEq ι] (s : CallsState ι) (i : ι)
    (stage : CallStage) : (s.goto i stage).stage i = stage :=
  Function.update_self ..

theorem CallsState.goto_stage_of_ne {ι : Type} [DecidableEq ι] (s : CallsState ι) {i j : ι} (h : j ≠ i)
    (stage : CallStage) : (s.goto i stage).stage j = s.stage j :=
  Function.update_of_ne h ..

namespace InputPlugin

variable {ι : Type} [DecidableEq ι]

section

variable (plugin : InputPlugin Id) (calls : ι → TransformCall)

/-- One step of one call. -/
def step (s : CallsState ι) (i : ι) : CallsState ι :=
  match s.stage i with
  | .asking =>
    match plugin.question (calls i) with
    | .error answer => s.goto i (.done none answer)
    | .ok asked =>
      match s.cache.get? asked.2 with
      | some strategy => s.goto i (.found asked strategy)
      | none => s.goto i (.probing asked)
  | .probing asked =>
    let s := { s with probes := s.probes ++ [i] }
    match probe plugin.compiler asked.2 with
    | .ok strategy => s.goto i (.storing asked strategy)
    | .error e => s.goto i (.done (some (.error e)) (.error e))
  | .storing asked strategy =>
    { s with cache := s.cache.insert asked.2 strategy }.goto i (.found asked strategy)
  | .found asked strategy =>
    if plugin.warns strategy && !s.warnings.seen.contains externalHelpersDeprecated then
      { s with warnings := ⟨externalHelpersDeprecated :: s.warnings.seen⟩ }.goto i (.telling asked strategy)
    else s.goto i (.completing asked strategy)
  | .telling asked strategy =>
    { s with reports := s.reports ++ [((calls i).context, externalHelpersDeprecated)] }.goto i
      (.completing asked strategy)
  | .completing asked strategy =>
    s.goto i (.done (some (.ok strategy)) (plugin.completed (calls i) asked strategy))
  | .done _ _ => s

/-- Steps in the order in which they are taken. -/
def run (s : CallsState ι) (schedule : List ι) : CallsState ι :=
  schedule.foldl (plugin.step calls) s

/-- What a step may be. -/
inductive Move (s : CallsState ι) (i : ι) : CallsState ι → Prop
  | leave {answer : Except PluginError (Option CompileOutput)} (stage : s.stage i = .asking)
    (ends : plugin.question (calls i) = .error answer) : Move s i (s.goto i (.done none answer))
  | hit {asked : Question} {strategy : HelperStrategy} (stage : s.stage i = .asking)
    (asks : plugin.question (calls i) = .ok asked) (kept : s.cache.get? asked.2 = some strategy) :
    Move s i (s.goto i (.found asked strategy))
  | miss {asked : Question} (stage : s.stage i = .asking)
    (asks : plugin.question (calls i) = .ok asked) : Move s i (s.goto i (.probing asked))
  | probe {asked : Question} {strategy : HelperStrategy} (stage : s.stage i = .probing asked)
    (result : probe plugin.compiler asked.2 = .ok strategy) :
    Move s i ({ s with probes := s.probes ++ [i] }.goto i (.storing asked strategy))
  | fail {asked : Question} {e : PluginError} (stage : s.stage i = .probing asked)
    (result : probe plugin.compiler asked.2 = .error e) :
    Move s i ({ s with probes := s.probes ++ [i] }.goto i (.done (some (.error e)) (.error e)))
  | store {asked : Question} {strategy : HelperStrategy} (stage : s.stage i = .storing asked strategy) :
    Move s i ({ s with cache := s.cache.insert asked.2 strategy }.goto i (.found asked strategy))
  | warn {asked : Question} {strategy : HelperStrategy} (stage : s.stage i = .found asked strategy)
    (warns : plugin.warns strategy = true) (new : externalHelpersDeprecated ∉ s.warnings.seen) :
    Move s i ({ s with warnings := ⟨externalHelpersDeprecated :: s.warnings.seen⟩ }.goto i
      (.telling asked strategy))
  | pass {asked : Question} {strategy : HelperStrategy} (stage : s.stage i = .found asked strategy)
    (seen : plugin.warns strategy = true → externalHelpersDeprecated ∈ s.warnings.seen) :
    Move s i (s.goto i (.completing asked strategy))
  | tell {asked : Question} {strategy : HelperStrategy} (stage : s.stage i = .telling asked strategy) :
    Move s i ({ s with reports := s.reports ++ [((calls i).context, externalHelpersDeprecated)] }.goto i
      (.completing asked strategy))
  | complete {asked : Question} {strategy : HelperStrategy} (stage : s.stage i = .completing asked strategy) :
    Move s i (s.goto i (.done (some (.ok strategy)) (plugin.completed (calls i) asked strategy)))
  | rest {strategy : Option (Except PluginError HelperStrategy)}
    {answer : Except PluginError (Option CompileOutput)} (stage : s.stage i = .done strategy answer) : Move s i s

theorem move_step (s : CallsState ι) (i : ι) : plugin.Move calls s i (plugin.step calls s i) := by
  unfold step
  cases hstage : s.stage i with
  | asking =>
    dsimp only
    cases hquestion : plugin.question (calls i) with
    | error answer => exact .leave hstage hquestion
    | ok asked =>
      dsimp only
      cases hkept : s.cache.get? asked.2 with
      | some strategy => exact .hit hstage hquestion hkept
      | none => exact .miss hstage hquestion
  | probing asked =>
    dsimp only
    cases hresult : probe plugin.compiler asked.2 with
    | ok strategy => exact .probe hstage hresult
    | error e => exact .fail hstage hresult
  | storing asked strategy => exact .store hstage
  | found asked strategy =>
    dsimp only
    split
    · rename_i hwarns
      obtain ⟨hwarns, hnew⟩ := Bool.and_eq_true_iff.mp hwarns
      exact .warn hstage hwarns (by simpa using hnew)
    · rename_i hpass
      exact .pass hstage (by simpa using hpass)
  | telling asked strategy => exact .tell hstage
  | completing asked strategy => exact .complete hstage
  | done strategy answer => exact .rest hstage

/-- An answered call takes no more steps. -/
theorem run_done {s : CallsState ι} {i : ι} (h : (s.stage i).isDone = true) (n : Nat) :
    plugin.run calls s (List.replicate n i) = s := by
  have hstep : plugin.step calls s i = s := by
    unfold step
    cases hstage : s.stage i with
    | done strategy answer => rfl
    | _ => simp [hstage, CallStage.isDone] at h
  induction n with
  | zero => rfl
  | succ n ih =>
    rw [List.replicate_succ, run, List.foldl_cons, hstep]
    exact ih

/-- The steps behind a classification are the warning and the compile. -/
theorem run_found {s : CallsState ι} {i : ι} {asked : Question} {strategy : HelperStrategy}
    (h : s.stage i = .found asked strategy) (told : List String) (n : Nat) :
    let t := plugin.run calls s (List.replicate (n + 3) i)
    ∃ texts, t.stage i = .done (some (.ok strategy)) (plugin.completed (calls i) asked strategy) ∧
      t.reports = s.reports ++ texts.map ((calls i).context, ·) ∧
      plugin.warned strategy ⟨s.cache, s.warnings, told⟩ = ⟨t.cache, t.warnings, told ++ texts⟩ := by
  intro t
  have hsplit : t = plugin.run calls (plugin.run calls s (List.replicate 3 i)) (List.replicate n i) := by
    rw [run, run, ← List.foldl_append, List.replicate_append_replicate, Nat.add_comm 3]
    rfl
  by_cases hwarns : plugin.warns strategy = true
  · by_cases hseen : externalHelpersDeprecated ∈ s.warnings.seen
    · refine ⟨[], ?_⟩
      rw [hsplit, run_done plugin calls
        (by simp [run, List.replicate, step, CallsState.goto, CallStage.isDone, h, hwarns, hseen])]
      simp [run, List.replicate, step, CallsState.goto, h, hwarns, hseen, warned, WarningSet.report]
    · refine ⟨[externalHelpersDeprecated], ?_⟩
      rw [hsplit, run_done plugin calls
        (by simp [run, List.replicate, step, CallsState.goto, CallStage.isDone, h, hwarns, hseen])]
      simp [run, List.replicate, step, CallsState.goto, h, hwarns, hseen, warned, WarningSet.report]
  · refine ⟨[], ?_⟩
    rw [hsplit, run_done plugin calls
      (by simp [run, List.replicate, step, CallsState.goto, CallStage.isDone, h, hwarns])]
    simp [run, List.replicate, step, CallsState.goto, h, hwarns, warned]

/-- The steps of a call with no other one between them are those of `transform`. -/
theorem run_alone {s : CallsState ι} {i : ι} (h : s.stage i = .asking) (told : List String) :
    let t := plugin.run calls s (List.replicate 6 i)
    ∃ strategy answer texts, t.stage i = .done strategy answer ∧
      t.reports = s.reports ++ texts.map ((calls i).context, ·) ∧
      ((plugin.transform (calls i).code (calls i).id).run.run ⟨s.cache, s.warnings, told⟩ :
          Except PluginError (Option CompileOutput) × BuildState) =
        (answer, ⟨t.cache, t.warnings, told ++ texts⟩) := by
  intro t
  have hfirst : t = plugin.run calls (plugin.step calls s i) (List.replicate 5 i) := rfl
  rw [run_transform]
  cases hquestion : plugin.question (calls i) with
  | error answer =>
    have hstep : plugin.step calls s i = s.goto i (.done none answer) := by simp [step, h, hquestion]
    rw [hfirst, hstep, run_done plugin calls (by simp [CallsState.goto, CallStage.isDone])]
    exact ⟨none, answer, [], by simp [CallsState.goto], by simp [CallsState.goto], by simp [CallsState.goto]⟩
  | ok asked =>
    cases hkept : s.cache.get? asked.2 with
    | some strategy =>
      have hclassify : s.cache.classify plugin.compiler asked.2 = (.ok strategy, s.cache) := by
        rw [PreflightCache.classify_eq, hkept]
      have hstep : plugin.step calls s i = s.goto i (.found asked strategy) := by
        simp [step, h, hquestion, hkept]
      obtain ⟨texts, hdone, hreports, hwarned⟩ :=
        plugin.run_found calls (s.goto_stage_self i (.found asked strategy)) told 2
      rw [hfirst, hstep]
      refine ⟨_, _, texts, hdone, hreports, ?_⟩
      rw [← hwarned]
      simp only [hclassify]
      rfl
    | none =>
      have hmiss : plugin.step calls s i = s.goto i (.probing asked) := by simp [step, h, hquestion, hkept]
      cases hresult : probe plugin.compiler asked.2 with
      | error e =>
        have hclassify : s.cache.classify plugin.compiler asked.2 = (.error e, s.cache) := by
          rw [PreflightCache.classify_eq, hkept, hresult]
        have hfail : plugin.step calls (s.goto i (.probing asked)) i =
            ({ s with probes := s.probes ++ [i] }.goto i (.done (some (.error e)) (.error e))) := by
          simp [step, CallsState.goto, hresult]
        have ht : t = plugin.run calls
            (plugin.step calls (s.goto i (.probing asked)) i) (List.replicate 4 i) := by
          rw [hfirst, hmiss]
          rfl
        rw [ht, hfail, run_done plugin calls (by simp [CallStage.isDone])]
        refine ⟨some (.error e), .error e, [], by simp, by simp [CallsState.goto], ?_⟩
        simp [CallsState.goto, hclassify]
      | ok strategy =>
        have hclassify : s.cache.classify plugin.compiler asked.2 =
            (.ok strategy, s.cache.insert asked.2 strategy) := by
          rw [PreflightCache.classify_eq, hkept, hresult]
        let stored : CallsState ι :=
          { s with probes := s.probes ++ [i], cache := s.cache.insert asked.2 strategy }
        have ht : t = plugin.run calls (stored.goto i (.found asked strategy)) (List.replicate 3 i) := by
          have hprobe : plugin.step calls (plugin.step calls (s.goto i (.probing asked)) i) i =
              stored.goto i (.found asked strategy) := by
            simp [step, CallsState.goto, hresult, stored]
          rw [hfirst, hmiss, ← hprobe]
          rfl
        obtain ⟨texts, hdone, hreports, hwarned⟩ :=
          plugin.run_found calls (stored.goto_stage_self i (.found asked strategy)) told 0
        rw [ht]
        refine ⟨_, _, texts, hdone, hreports, ?_⟩
        rw [← hwarned]
        simp only [hclassify]
        rfl

end

end InputPlugin

end ModuleBuild
