import ModuleBuild.Text.Letters

/-!
# Identifiers in program text

Program text seen as maximal runs of identifier characters and the single characters between them.
This view is enough to look for a name and to rename, because no name is part of a longer run.

## Main definitions

* `isWordChar` — the characters that runs consist of.
* `rename` — replaces whole runs, property names after a point excepted.
* `mentions` — whether a name occurs with no identifier character on either side.
-/

namespace ModuleBuild.Text

/-- The characters of identifiers: letters and numbers of all scripts, `_` and `$`. -/
def isWordChar (c : Char) : Bool :=
  isAlphanumeric c || c == '_' || c == '$'

/-- Replaces whole runs of identifier characters by their image, if they have one and no point stands
directly before them. `before` is the character before the text. -/
def renameAfter (image : String → Option String) (before : Option Char) (cs : List Char) :
    List Char :=
  match cs with
  | [] => []
  | c :: rest =>
    if isWordChar c then
      let word := String.ofList (c :: rest.takeWhile isWordChar)
      let last := (rest.takeWhile isWordChar).getLastD c
      let text :=
        match image word with
        | some new => if before == some '.' then word else new
        | none => word
      text.toList ++ renameAfter image (some last) (rest.dropWhile isWordChar)
    else c :: renameAfter image (some c) rest
termination_by cs.length
decreasing_by
  · have := (List.dropWhile_sublist (l := rest) isWordChar).length_le
    simp only [List.length_cons]
    omega
  · simp

/-- Replaces whole identifiers of a text. Property names after a point stay as they are. -/
def rename (image : String → Option String) (text : String) : String :=
  String.ofList (renameAfter image none text.toList)

/-- Whether no identifier character stands here. -/
def isBoundary : Option Char → Bool
  | some c => !isWordChar c
  | none => true

/-- Searches `name` in the text from left to right, without overlaps, for an occurrence with a
boundary on both sides. `before` is the character before the text. -/
def mentionsAfter (name : List Char) (before : Option Char) (cs : List Char) : Bool :=
  match cs with
  | [] => false
  | c :: rest =>
    if name.isPrefixOf (c :: rest) then
      let after := rest.drop (name.length - 1)
      (isBoundary before && isBoundary after.head?) || mentionsAfter name (name.getLast?) after
    else mentionsAfter name (some c) rest
termination_by cs.length
decreasing_by
  · simp only [List.length_drop, List.length_cons]
    omega
  · simp

/-- Whether `name` occurs in the text as a whole identifier. -/
def mentions (text name : String) : Bool :=
  mentionsAfter name.toList none text.toList

end ModuleBuild.Text
