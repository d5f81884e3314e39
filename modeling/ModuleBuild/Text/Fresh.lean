/-!
# Fresh names

Names made from a base by a number behind it, and the first of them that is not taken.

## Main definitions

* `numbered` — the base, or the base with a number from two on.
* `firstFree` — the first numbered name that is free.
-/

namespace ModuleBuild.Text

/-- The `i`-th name on a base; the first one is the base itself. -/
def numbered (base : String) (i : Nat) : String :=
  if i ≤ 1 then base else base ++ toString i

/-- The first name on the base, from the `i`-th one, that is not taken. `fuel` bounds the number of
names passed over. -/
def firstFree (taken : String → Bool) (base : String) : Nat → Nat → String
  | 0, i => numbered base i
  | fuel + 1, i =>
    if taken (numbered base i) then firstFree taken base fuel (i + 1) else numbered base i

end ModuleBuild.Text
