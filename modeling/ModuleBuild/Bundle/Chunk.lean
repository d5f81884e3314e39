import ModuleBuild.Bundle.Link
import ModuleBuild.Options.Basic

/-!
# Chunks

The text of linked modules in a module format: the modules one behind the other, inside of what the
format puts around them, with the exports of the chunk created anew.

## Main definitions

* `ChunkParts` — what a chunk is made of.
* `ChunkParts.body` — the modules.
* `ChunkParts.render` — the text of a chunk.
-/

namespace ModuleBuild

open Text

/-- What a chunk is made of. -/
structure ChunkParts where
  /-- The import declarations that stay. -/
  externals : List String := []
  /-- The identifiers and texts of the modules. -/
  modules : List (String × String) := []
  /-- The exported names with the top-level names that hold their values. -/
  exports : List (String × String) := []
  deriving DecidableEq, Inhabited, Repr

/-- A text without the blanks at its end. -/
def trimEnd (s : String) : String :=
  String.ofList (s.toList.reverse.dropWhile isBlank).reverse

/-- A module of a chunk, behind a comment that names it. -/
def moduleText (id code : String) : String :=
  "// " ++ escapeAscii id ++ "\n" ++ trimEnd code ++ "\n\n"

/-- An entry of an export list. -/
def exportSpecifier (exported l : String) : String :=
  if exported == l then l else l ++ " as " ++ exported

namespace ChunkParts

/-- The modules of a chunk. -/
def body (parts : ChunkParts) : String :=
  String.join (parts.modules.map fun (id, code) => moduleText id code)

/-- The export list of a chunk, if it exports anything. -/
def exportList (parts : ChunkParts) : String :=
  if parts.exports.isEmpty then ""
  else
    "export \x7b " ++
      ", ".intercalate (parts.exports.map fun (exported, l) => exportSpecifier exported l) ++ " \x7d;\n"

/-- Assignments of the exports to the members of `exports`. -/
def assignments (parts : ChunkParts) : String :=
  String.join (parts.exports.map fun (exported, l) =>
    "exports[" ++ quote exported ++ "] = " ++ l ++ ";\n")

/-- Calls that hand the exports to a loader. -/
def exportCalls (parts : ChunkParts) : String :=
  String.join (parts.exports.map fun (exported, l) =>
    "exports(" ++ quote exported ++ ", " ++ l ++ ");\n")

/-- The exports as an object. -/
def exportObject (parts : ChunkParts) : String :=
  "\x7b " ++ LinkedModule.fieldList parts.exports ++ " \x7d"

/-- The text of a chunk in a format. `name` is the global variable of the formats that have one. -/
def render (parts : ChunkParts) (name : String) : OutputFormat → String
  | .es => String.join (parts.externals.map (· ++ "\n")) ++ parts.body ++ parts.exportList
  | .cjs => "'use strict';\n\n" ++ parts.body ++ parts.assignments
  | .iife =>
    "var " ++ name ++ " = (function () \x7b\n'use strict';\n\n" ++ parts.body ++
      "return " ++ parts.exportObject ++ ";\n\x7d)();\n"
  | .amd =>
    "define(['exports'], (function (exports) \x7b 'use strict';\n\n" ++ parts.body ++
      parts.assignments ++ "\x7d));\n"
  | .umd =>
    "(function (global, factory) \x7b\n" ++
      "  typeof exports === 'object' && typeof module !== 'undefined' ? factory(exports) :\n" ++
      "  typeof define === 'function' && define.amd ? define(['exports'], factory) :\n" ++
      "  (global = typeof globalThis !== 'undefined' ? globalThis : global || self, " ++
      "factory(global." ++ name ++ " = \x7b\x7d));\n" ++
      "\x7d)(this, (function (exports) \x7b 'use strict';\n\n" ++ parts.body ++
      parts.assignments ++ "\x7d));\n"
  | .system =>
    "System.register([], (function (exports) \x7b\n  'use strict';\n  return \x7b\n" ++
      "    execute: (function () \x7b\n" ++ parts.body ++ parts.exportCalls ++
      "    \x7d)\n  \x7d;\n\x7d));\n"

end ChunkParts

end ModuleBuild
