import ModuleBuild.Json.Printer

/-!
# Source maps

Where the lines of a compiled text come from, as far as this compiler knows: the source, and how many
lines stand before the first one that comes from it.

## Main definitions

* `SourceMap` — a map.
* `SourceMap.shift` — the map of a text with more lines before it.
* `SourceMap.text` — the map as a file.
-/

namespace ModuleBuild

/-- A source map. -/
inductive SourceMap where
  /-- The map of a compiled file: its source, and the number of lines of the output before the first
  one that comes from it. -/
  | ofFile (source content : String) (skip : Nat)
  /-- Any text in the place of a map. -/
  | verbatim (text : String)
  deriving DecidableEq, Inhabited, Repr

namespace SourceMap

/-- The map of an output with `lines` more lines before it. -/
def shift (lines : Nat) : SourceMap → SourceMap
  | ofFile source content skip => ofFile source content (skip + lines)
  | verbatim text => verbatim text

/-- The map as a file. A semicolon stands for each line before the first that has a source. -/
def text : SourceMap → String
  | ofFile source content skip =>
    Json.render (.object [
      ("version", .integer 3),
      ("names", .array []),
      ("sources", .array [.text source]),
      ("sourcesContent", .array [.text content]),
      ("mappings", .text (String.ofList (List.replicate skip ';')))])
  | verbatim text => text

end SourceMap

end ModuleBuild
