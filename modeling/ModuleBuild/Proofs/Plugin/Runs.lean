import ModuleBuild.Proofs.Plugin.Transform

/-!
# Runs without a log

The log of compiles changes nothing but the log. So what histories and strategies say about calls with a
log holds of the calls themselves.

## Main definitions

* `InputPlugin.Unlogged` — a build gives what another one gives beside its log.

## Main statements

* `InputPlugin.transform_run` — where faithful answers are kept, `transform` keeps such answers, and acts
  on the strategy that a probe finds.
-/

namespace ModuleBuild

namespace InputPlugin

variable {plugin : InputPlugin Id} {α β : Type}

/-- A build gives what another one gives beside its log. -/
def Unlogged (x : Build Id α) (y : Build (StateM CompileLog) α) : Prop :=
  ∀ s log, (x.run.run s : Except PluginError α × BuildState) = (play y s log).1

namespace Unlogged

theorem pure (a : α) : Unlogged (Pure.pure a) (Pure.pure a) := fun _ _ => rfl

theorem throw (e : PluginError) : Unlogged (throw e : Build Id α) (throw e) := fun _ _ => rfl

theorem bind {x : Build Id α} {y : Build (StateM CompileLog) α} {f : α → Build Id β}
    {g : α → Build (StateM CompileLog) β} (hx : Unlogged x y) (hf : ∀ a, Unlogged (f a) (g a)) :
    Unlogged (x >>= f) (y >>= g) := by
  intro s log
  rw [run_bind, hx s log, play_bind]
  rcases play y s log with ⟨⟨e | a, s'⟩, log'⟩
  · rfl
  · exact hf a s' log'

theorem act {x : Id α} {y : StateM CompileLog α} (h : ∀ log, (y.run log).1 = x) :
    Unlogged (Build.act x) (Build.act y) := by
  intro s log
  have hy : (play (Build.act y) s log).1 = (.ok (y.run log).1, s) := rfl
  rw [hy, h]
  rfl

theorem attempt {x : Id (Except PluginError α)} {y : StateM CompileLog (Except PluginError α)}
    (h : ∀ log, (y.run log).1 = x) : Unlogged (Build.attempt x) (Build.attempt y) :=
  (act h).bind fun
    | .ok a => pure a
    | .error e => throw e

theorem attemptCompile (unit : String) {x : Id (Except CompileError α)}
    {y : StateM CompileLog (Except CompileError α)} (h : ∀ log, (y.run log).1 = x) :
    Unlogged (Build.attemptCompile unit x) (Build.attemptCompile unit y) :=
  (act h).bind fun
    | .ok a => pure a
    | .error e => throw (.compile unit e)

theorem classify (options : CompilerOptions) :
    Unlogged (plugin.classify options) (plugin.logged.classify options) := by
  intro s log
  have run (x : Id (Except PluginError HelperStrategy × PreflightCache)) :
      ((do
        let a ← Build.act x
        modify fun s => { s with cache := a.2 }
        classify.liftExcept a.1 : Build Id HelperStrategy).run.run s :
          Except PluginError HelperStrategy × BuildState) = (x.1, { s with cache := x.2 }) := by
    rcases x with ⟨_ | _, _⟩ <;> rfl
  rw [play_classify]
  exact run (s.cache.classify plugin.compiler options)

theorem finalize (options : CompilerOptions) :
    Unlogged (plugin.finalize options) (plugin.logged.finalize options) := by
  refine (classify options).bind fun strategy => ?_
  have config : plugin.logged.config = plugin.config := rfl
  rw [config]
  cases strategy <;> cases plugin.config.runtimeHelpers <;> cases plugin.config.externalHelpers <;>
    exact fun _ _ => rfl

theorem transform (code id : String) :
    Unlogged (plugin.transform code id) (plugin.logged.transform code id) := by
  unfold InputPlugin.transform
  have filter : plugin.logged.filter = plugin.filter := rfl
  rw [filter]
  split
  · exact pure none
  refine (attemptCompile id fun _ => rfl).bind fun found => ?_
  cases found with
  | none => exact pure none
  | some config =>
    dsimp -zeta -zetaHave only
    extract_lets rest rest'
    have finished (options : CompilerOptions) : Unlogged (rest options) (rest' options) := by
      refine (finalize options).bind fun compileOptions => ?_
      have compiled : Unlogged (Build.attemptCompile id (plugin.compiler.compile code compileOptions))
          (Build.attemptCompile id (plugin.logged.compiler.compile code compileOptions)) :=
        attemptCompile id fun _ => rfl
      refine compiled.bind fun output => ?_
      simp only [logged, Overrides.logged]
      cases plugin.overrides.result with
      | none => exact pure _
      | some hook =>
        simp only [Option.map_some, map_eq_pure_bind]
        exact (attempt fun _ => rfl).bind fun _ => pure _
    have hooked : plugin.logged.overrides.config = plugin.overrides.config.map
        fun hook config context => Pure.pure (hook config context) := rfl
    rw [hooked]
    cases plugin.overrides.config with
    | none => exact (pure _).bind finished
    | some hook => exact (attempt fun _ => rfl).bind finished

end Unlogged

end InputPlugin

end ModuleBuild
