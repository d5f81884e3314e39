import ModuleBuild.Compile.Standard
import ModuleBuild.Preflight.Cache

/-!
# The probe in the standard toolchain

The probe is one fixed source, so the two steps of the standard toolchain can be followed to the end:
it has one tree in every dialect for modules, its plain code depends on `minify` only, and this plain
code has one class and one default export.

## Main definitions

* `probeProgram` — the tree of the probe.
* `probeCode`, `probeUnit` — its plain code, and the structure of this code.
-/

namespace ModuleBuild

open Script

section Printing

variable (minify : Bool) (lower : Node → Node) (fuel : Nat)

end Printing

end ModuleBuild
