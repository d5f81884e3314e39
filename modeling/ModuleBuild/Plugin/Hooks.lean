import ModuleBuild.Compile.Compiler

/-!
# Hooks

The points at which a custom plugin adjusts what a bundler plugin does. One hook shapes the options
while the plugin is built, and has to answer at once. The others run around each compile, and may
answer later.

## Main definitions

* `HookOutput` — an answer now or later.
* `Overrides` — the hooks of a custom plugin.
* `Overrides.applyOptions` — runs the hook that shapes options.
-/

namespace ModuleBuild

/-- What a hook answers. -/
inductive HookOutput (α : Type) where
  | ready (value : α)
  /-- An answer that comes later. -/
  | pending (value : α)
  deriving Inhabited

/-- The answer, waited for if need be. -/
def HookOutput.resolve {α : Type} : HookOutput α → α
  | ready x => x
  | pending x => x

/-- What the hook on options answers. -/
structure OptionsOverride where
  /-- Options that only the other hooks understand. -/
  customOptions : Option Json := none
  /-- Options in place of the given ones. -/
  pluginOptions : Option PluginOptions := none
  deriving Inhabited

/-- What the hook on a configuration is told. -/
structure ConfigContext where
  code : String
  customOptions : Option Json
  deriving Inhabited

/-- What the hook on a result is told. -/
structure ResultContext where
  code : String
  customOptions : Option Json
  config : PartialConfig
  compileOptions : CompilerOptions
  deriving Inhabited

/-- The hooks of a custom plugin, as actions of `m`. -/
structure Overrides (m : Type → Type) where
  options : Option (PluginOptions → m (HookOutput OptionsOverride)) := none
  config : Option (PartialConfig → ConfigContext →
    m (HookOutput (Except PluginError CompilerOptions))) := none
  result : Option (CompileOutput → ResultContext →
    m (HookOutput (Except PluginError CompileOutput))) := none

/-- Runs the hook on options. Gives the custom options and the options to use from now on. -/
def Overrides.applyOptions {m : Type → Type} [Monad m] (overrides : Overrides m)
    (options : PluginOptions) : m (Except PluginError (Option Json × PluginOptions)) := do
  match overrides.options with
  | none => return .ok (none, options)
  | some hook =>
    match ← hook options with
    | .ready o => return .ok (o.customOptions, o.pluginOptions.getD options)
    | .pending _ => return .error .asyncOptionsHook

end ModuleBuild
