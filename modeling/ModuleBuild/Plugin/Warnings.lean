/-!
# Warnings

Warnings that all plugins of a session share: each message is reported once.

## Main definitions

* `WarningSet` — the messages reported so far.
* `WarningSet.report` — reports a message unless it was reported before.
-/

namespace ModuleBuild

/-- The messages reported so far, the last one first. -/
structure WarningSet where
  seen : List String := []
  deriving DecidableEq, Inhabited, Repr

namespace WarningSet

/-- The number of messages reported. -/
def size (warnings : WarningSet) : Nat :=
  warnings.seen.length

/-- Whether nothing was reported. -/
def isEmpty (warnings : WarningSet) : Bool :=
  warnings.seen.isEmpty

/-- Adds a message to what a listener was told, unless some listener was told before. Says whether it
was reported now. -/
def report (warnings : WarningSet) (told : List String) (message : String) :
    Bool × WarningSet × List String :=
  if warnings.seen.contains message then (false, warnings, told)
  else (true, ⟨message :: warnings.seen⟩, told ++ [message])

end WarningSet

end ModuleBuild
