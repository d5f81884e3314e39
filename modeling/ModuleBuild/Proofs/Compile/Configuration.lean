import ModuleBuild.Proofs.Compile.BuiltIn

/-!
# Configurations that are resolved before

A configuration is resolved when it is loaded and once more in every compile. Loading turns names into
plugins and leaves no presets, and plugins stand for themselves when they are resolved again. So it does not
matter to a compile whether its options were loaded first.

## Main definitions

* `Toolchain.IgnoresPlugins` — plain code does not depend on plugins and presets.

## Main statements

* `loadConfig_eq` — loading fails as resolving the plugins does, and otherwise gives the resolved options.
* `compile_resolved` — compiles under resolved options are those under the options themselves.
* `loadConfig_compile` — the same for options that are loaded, with a local configuration under them or not.
-/

namespace ModuleBuild

/-- Plain code does not depend on the plugins and presets of a compile. -/
def Toolchain.IgnoresPlugins (toolchain : Toolchain) : Prop :=
  ∀ (options : CompilerOptions) (plugins presets : List PluginItem) (code : String),
    toolchain.plain? { options with plugins, presets } code = toolchain.plain? options code

theorem Toolchain.ignoresPlugins_ofSettings (settings : MarkupSettings) :
    (Toolchain.ofSettings settings).IgnoresPlugins := by
  intro options plugins presets code
  unfold Toolchain.ofSettings
  cases settings.runtime <;> rfl

/-! ## Options that are resolved -/

namespace CompilerOptions

variable {options resolved : CompilerOptions}

/-- Resolved options have the plugins that the options stand for, and differ in nothing else. -/
theorem resolved_eq_ok (h : options.resolved = .ok resolved) :
    ∃ plugins, resolveAll options.plugins options.presets options.caller = .ok plugins ∧
      resolved = { options with plugins := plugins.map .live, presets := [] } := by
  obtain ⟨plugins, hplugins, h⟩ := bind_eq_ok.1 h
  exact ⟨plugins, hplugins, (Except.ok.inj h).symm⟩

theorem resolved_eq_error {e : CompileError} : options.resolved = .error e ↔
    resolveAll options.plugins options.presets options.caller = .error e := by
  rw [resolved, bind_eq_error]
  simp [pure, Except.pure]

/-- Resolving options again changes nothing. -/
theorem resolved_resolved (h : options.resolved = .ok resolved) : resolved.resolved = .ok resolved := by
  obtain ⟨plugins, -, rfl⟩ := resolved_eq_ok h
  rw [CompilerOptions.resolved, resolveAll_live]
  rfl

end CompilerOptions

/-! ## Compiles -/

section Compiles

variable {toolchain : Toolchain} {options resolved : CompilerOptions} {code : String}

/-- A compile fails first as the resolution of its plugins does. -/
theorem compile_of_unresolved {e : CompileError} (h : options.resolved = .error e) :
    toolchain.compile code options = .error e := by
  rw [Toolchain.compile, CompilerOptions.resolved_eq_error.1 h]
  rfl

/-- A compile under resolved options is one under the options themselves. -/
theorem compile_resolved (hplain : toolchain.IgnoresPlugins) (h : options.resolved = .ok resolved) :
    toolchain.compile code resolved = toolchain.compile code options := by
  obtain ⟨plugins, hplugins, rfl⟩ := CompilerOptions.resolved_eq_ok h
  have hsame : toolchain.plain? { options with plugins := plugins.map .live, presets := [] } code =
      toolchain.plain? options code := hplain options _ _ code
  unfold Toolchain.compile
  rw [resolveAll_live, hplugins, hsame]
  rfl

end Compiles

/-! ## Options that are loaded -/

section Loading

variable {files : FileTree} {options merged : CompilerOptions}

/-- Loading options that leave no file out resolves their plugins, and does nothing else that may fail. -/
theorem loadConfig_eq (hmerged : options.withLocal files (options.localConfig? files) = .ok merged)
    (hkept : merged.excludesFile = .ok false) :
    loadConfig files options =
      merged.resolved.map fun resolved => some ⟨resolved, options.localConfig? files⟩ := by
  simp only [loadConfig, hmerged, hkept, bind, Except.bind, Bool.false_eq_true, if_false]
  cases merged.resolved <;> rfl

/-- Options that say not to look for a local configuration stay as they are. -/
theorem withLocal_of_configFile (h : options.configFile = some false) :
    options.withLocal files (options.localConfig? files) = .ok options := by
  rw [CompilerOptions.localConfig?, h]
  rfl

/-- A local configuration has its plugins and presets before those of the options. -/
theorem withLocal_of_path {path : Path} (hpath : options.localConfig? files = some path)
    (h : options.withLocal files (options.localConfig? files) = .ok merged) :
    ∃ config, LocalConfig.ofFile files path = .ok config ∧ merged = config.under options := by
  rw [hpath] at h
  obtain ⟨config, hconfig, h⟩ := bind_eq_ok.1 h
  exact ⟨config, hconfig, (Except.ok.inj h).symm⟩

/-- Take options, with a local configuration under them if there is one, that do not leave their file out.
Loading them fails just if their plugins and presets cannot be resolved, and then every compile fails so.
If it gives options, these have plugins only, of which each stands for itself, and compiles under them are
the compiles under the options that were loaded. -/
theorem loadConfig_compile (toolchain : Toolchain) (hplain : toolchain.IgnoresPlugins)
    (hmerged : options.withLocal files (options.localConfig? files) = .ok merged)
    (hkept : merged.excludesFile = .ok false) :
    (options.configFile = some false → merged = options) ∧
    (∀ path, options.localConfig? files = some path → ∃ config, LocalConfig.ofFile files path = .ok config ∧
      merged.plugins = config.plugins ++ options.plugins ∧
      merged.presets = config.presets ++ options.presets) ∧
    (∀ config, loadConfig files options = .ok (some config) →
      config.configFile = options.localConfig? files ∧ config.options.presets = [] ∧
      config.options.resolved = .ok config.options ∧
      (∃ plugins, config.options.plugins = plugins.map .live ∧
        resolveAll merged.plugins merged.presets merged.caller = .ok plugins ∧
        resolveAll config.options.plugins config.options.presets config.options.caller = .ok plugins) ∧
      ∀ code, toolchain.compile code config.options = toolchain.compile code merged) ∧
    ∀ e, (loadConfig files options = .error e ↔
        resolveAll merged.plugins merged.presets merged.caller = .error e) ∧
      (loadConfig files options = .error e → ∀ code, toolchain.compile code merged = .error e) := by
  have hload := loadConfig_eq hmerged hkept
  have hfails (e : CompileError) : loadConfig files options = .error e ↔ merged.resolved = .error e := by
    rw [hload]
    cases merged.resolved <;> simp [Except.map]
  refine ⟨fun hnone => ?_, fun path hpath => ?_, fun config hconfig => ?_, fun e => ⟨?_, fun h code => ?_⟩⟩
  · rw [withLocal_of_configFile hnone] at hmerged
    exact (Except.ok.inj hmerged).symm
  · obtain ⟨config, hconfig, rfl⟩ := withLocal_of_path hpath hmerged
    exact ⟨config, hconfig, rfl, rfl⟩
  · obtain ⟨resolved, hresolved, hsome⟩ := map_eq_ok.1 (hload.symm.trans hconfig)
    obtain rfl := Option.some.inj hsome
    obtain ⟨plugins, hplugins, heq⟩ := CompilerOptions.resolved_eq_ok hresolved
    refine ⟨rfl, by rw [heq], CompilerOptions.resolved_resolved hresolved, ⟨plugins, by rw [heq], hplugins, ?_⟩,
      fun code => compile_resolved hplain hresolved⟩
    rw [heq]
    exact resolveAll_live plugins merged.caller
  · rw [hfails, CompilerOptions.resolved_eq_error]
  · exact compile_of_unresolved ((hfails e).1 h)

end Loading

/-- A file with a local configuration beside it. -/
def localFiles : FileTree where
  entries := [(["project", ".viperrc.json"], .text "\x7b \"plugins\": [\"modules-commonjs\"] \x7d"),
    (["project", "a.js"], .text "")]
  workingDirectory := none

/-- The options of that file, which name a preset. -/
def localOptions : CompilerOptions where
  filename := some ⟨"/project/a.js"⟩
  presets := [.named ⟨"env", some (.object [("modules", .bool false)])⟩]

/-- The plugin of the local configuration stands before the one of the preset, and compiles stay the same. -/
theorem loadConfig_compile_local : ∃ merged config,
    localOptions.withLocal localFiles (localOptions.localConfig? localFiles) = .ok merged ∧
    merged.excludesFile = .ok false ∧ loadConfig localFiles localOptions = .ok (some config) ∧
    config.options.plugins.map (·.live?) = [some .commonJs, some .objectAssign] ∧
    ∀ code, (Toolchain.ofSettings {}).compile code config.options =
      (Toolchain.ofSettings {}).compile code merged := by
  have hrun : ((localOptions.withLocal localFiles (localOptions.localConfig? localFiles)).toOption.any
      fun merged => decide (merged.excludesFile = .ok false) &&
        merged.resolved.toOption.any fun resolved =>
          decide (resolved.plugins.map (·.live?) = [some .commonJs, some .objectAssign])) = true := by
    decide +kernel
  cases hmerged : localOptions.withLocal localFiles (localOptions.localConfig? localFiles) with
  | error e =>
    rw [hmerged] at hrun
    cases hrun
  | ok merged =>
    rw [hmerged] at hrun
    obtain ⟨hkept, hplugins⟩ := Bool.and_eq_true_iff.1 hrun
    have hkept : merged.excludesFile = .ok false := of_decide_eq_true hkept
    have hload := loadConfig_eq hmerged hkept
    cases hresolved : merged.resolved with
    | error e =>
      rw [hresolved] at hplugins
      cases hplugins
    | ok resolved =>
      rw [hresolved] at hplugins hload
      have hsame := (loadConfig_compile (Toolchain.ofSettings {}) (Toolchain.ignoresPlugins_ofSettings {})
        hmerged hkept).2.2.1 _ hload
      exact ⟨merged, _, rfl, hkept, hload, of_decide_eq_true hplugins, hsame.2.2.2.2⟩

end ModuleBuild
