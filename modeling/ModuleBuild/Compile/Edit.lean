import ModuleBuild.Text.Bytes

/-!
# Edits

Replacements of parts of a text, all given by their positions in the text before any edit.

## Main definitions

* `Edit` — one replacement.
* `applyEdits` — the text with all replacements made.
-/

namespace ModuleBuild

open Text

/-- Replaces the text from byte `start` to byte `stop`. -/
structure Edit where
  start : Nat
  stop : Nat
  text : String
  deriving DecidableEq, Inhabited, Repr

namespace Edit

/-- The order in which edits are made: by start, and of two edits with the same start the longer one
first. -/
def before (a b : Edit) : Bool :=
  a.start < b.start || (a.start == b.start && b.stop ≤ a.stop)

/-- The text from position `cursor` on, with ordered edits made. An edit that starts before the
cursor, inside an earlier one, is dropped. -/
def splice (source : List Char) : Nat → List Edit → List Char
  | cursor, [] => dropBytes cursor source
  | cursor, e :: rest =>
    if e.start < cursor then splice source cursor rest
    else sliceBytes cursor e.start source ++ e.text.toList ++ splice source e.stop rest

end Edit

/-- The text with all edits made. Edits at the same place keep their order. -/
def applyEdits (source : String) (edits : List Edit) : String :=
  String.ofList (Edit.splice source.toList 0 (edits.mergeSort Edit.before))

end ModuleBuild
