import Mathlib
import ModuleBuild.Proofs.Chunk.ExportList

/-!
# The exports at the end of a chunk

In every format a chunk ends with its exports. Which exports the formats can make is decided here: an export
list needs names, the other formats write strings that must not have line breaks, and an object has no field
`__proto__`.

## Main definitions

* `ChunkParts.exportText` — the end of a chunk.
* `Expressible` — a format can make these exports.

## Main statements

* `ChunkParts.render_eq` — a chunk ends with its exports.
* `ChunkParts.readExports?_exportText_iff` — a chunk makes its exports exactly if they are expressible.
-/

namespace ModuleBuild

open Script Text

/-! ## Chunks -/

/-- What stands before the exports of a chunk. -/
def leadText (externals : List String) (body name : String) : OutputFormat → String
  | .es => String.join (externals.map (· ++ "\n")) ++ body
  | .cjs => "'use strict';\n\n" ++ body
  | .iife => "var " ++ name ++ " = (function () \x7b\n'use strict';\n\n" ++ body
  | .amd => "define(['exports'], (function (exports) \x7b 'use strict';\n\n" ++ body
  | .umd =>
    "(function (global, factory) \x7b\n" ++
      "  typeof exports === 'object' && typeof module !== 'undefined' ? factory(exports) :\n" ++
      "  typeof define === 'function' && define.amd ? define(['exports'], factory) :\n" ++
      "  (global = typeof globalThis !== 'undefined' ? globalThis : global || self, " ++
      "factory(global." ++ name ++ " = \x7b\x7d));\n" ++
      "\x7d)(this, (function (exports) \x7b 'use strict';\n\n" ++ body
  | .system =>
    "System.register([], (function (exports) \x7b\n  'use strict';\n  return \x7b\n" ++
      "    execute: (function () \x7b\n" ++ body

namespace ChunkParts

/-- The exports of a chunk, with what closes it. -/
def exportText (parts : ChunkParts) : OutputFormat → String
  | .es => parts.exportList
  | .cjs => parts.assignments
  | .iife => "return " ++ parts.exportObject ++ ";\n\x7d)();\n"
  | .amd | .umd => parts.assignments ++ "\x7d));\n"
  | .system => parts.exportCalls ++ "    \x7d)\n  \x7d;\n\x7d));\n"

/-- A chunk ends with its exports. -/
theorem render_eq (parts : ChunkParts) (name : String) (format : OutputFormat) :
    parts.render name format =
      leadText parts.externals parts.body name format ++ parts.exportText format := by
  have hthree (a b c d : String) : a ++ b ++ c ++ d = a ++ (b ++ c ++ d) := by
    simp only [String.append_assoc]
  cases format with
  | es | cjs => rfl
  | iife => exact hthree ..
  | amd | umd | system => exact String.append_assoc ..

variable {parts : ChunkParts}

/-- What a chunk says in statements is what it has, unless a line break keeps it from being read. -/
theorem readStatements?_exportText (form : ExportForm) (closing : String) {piece : String × String → String}
    {marks : List TokenKind} (hlocals : ∀ e ∈ parts.exports, IsVariable e.2)
    (hform : .punct ";" ∉ form.before ++ form.between ++ form.behind)
    (hpiece : ∀ e cs tokens, IsName e.2 → Reads cs tokens → Reads ((piece e).toList ++ cs)
      (if hasLineBreak e.1 then none else tokens.map fun ks => (form.tokens e ++ [.punct ";"]) ++ ks))
    (hclosing : closing.toList.all isMark) (hmarks : closing.toList.filterMap mark? = marks) :
    ((tokens? (String.join (parts.exports.map piece) ++ closing)).bind fun ks =>
        (inside? [] marks ks).bind form.readStatements?) =
      if parts.exports.any (hasLineBreak ·.1) then none else some parts.exports := by
  subst hmarks
  rw [tokens?_statements (fun e he cs tokens => hpiece e cs tokens (hlocals e he).1) hclosing]
  split
  · rfl
  · have hinside (rows marks : List TokenKind) : inside? [] marks (rows ++ marks) = some rows :=
      inside?_eq_some.2 rfl
    rw [Option.bind_some, hinside, Option.bind_some]
    exact readStatements?_tokens hform hlocals

theorem exportText_iife : parts.exportText .iife =
    "return" ++ " \x7b " ++ ", ".intercalate (parts.exports.map fun e => quote e.1 ++ ": " ++ e.2) ++ " " ++
      "\x7d;\n\x7d)();\n" :=
  String.toList_inj.1 (by simp [exportText, exportObject, LinkedModule.fieldList])

/-- A chunk with assignments, calls or an object says its exports, if no line break keeps it from being read. -/
theorem saidExports?_exportText {format : OutputFormat} (hformat : format ≠ .es)
    (hlocals : ∀ e ∈ parts.exports, IsVariable e.2) :
    (tokens? (parts.exportText format)).bind (saidExports? format) =
      if parts.exports.any (hasLineBreak ·.1) then none else some parts.exports := by
  have hassigned (closing : String) (marks : List TokenKind) (hclosing : closing.toList.all isMark)
      (hmarks : closing.toList.filterMap mark? = marks) :=
    readStatements?_exportText .assignment closing hlocals (by decide)
      (fun e cs tokens he h => reads_assignment he h) hclosing hmarks
  cases format with
  | es => exact absurd rfl hformat
  | cjs =>
    have h := hassigned "" (closingOf .cjs) (by decide) (by decide)
    rwa [String.append_empty] at h
  | iife =>
    have hreturn : IsName "return" := by decide +kernel
    have hclosing : "\x7d;\n\x7d)();\n".toList.filterMap mark? = closingOf .iife := by decide +kernel
    rw [exportText_iife, tokens?_braced hreturn
      (fun e he cs tokens hcs h => reads_field (hlocals e he).1 hcs h) (by decide), hclosing]
    split
    · rfl
    · exact readBraced?_tokens
        (fun e _ => ⟨ExportForm.not_mem_tokens e (by decide), by simp [ExportForm.tokens]⟩)
        fun e he => ExportForm.field.read?_tokens (hlocals e he)
  | system =>
    exact readStatements?_exportText .call "    \x7d)\n  \x7d;\n\x7d));\n" hlocals (by decide)
      (fun e cs tokens he h => reads_call he h) (by decide) (by decide)
  | amd | umd => exact hassigned "\x7d));\n" _ (by decide) (by decide)

end ChunkParts

/-! ## Expressible exports -/

/-- A format can make these exports in a chunk whose modules bind `bound`. Export lists write names as they are,
the other formats write them as strings that keep line breaks. Objects have a prototype where they would have a
field `__proto__`. A module that binds `exports` hides the variable of that name. -/
def Expressible (bound : List String) (exports : List (String × String)) : OutputFormat → Prop
  | .es => ∀ e ∈ exports, IsName e.1
  | .iife => ∀ e ∈ exports, hasLineBreak e.1 = false ∧ e.1 ≠ "__proto__"
  | .system => ∀ e ∈ exports, hasLineBreak e.1 = false ∧ "exports" ∉ bound
  | .cjs | .amd | .umd => ∀ e ∈ exports, hasLineBreak e.1 = false ∧ e.1 ≠ "__proto__" ∧ "exports" ∉ bound

theorem ownFields_eq_self {exports : List (String × String)} :
    ownFields exports = exports ↔ ∀ e ∈ exports, e.1 ≠ "__proto__" := by
  simp [ownFields, List.filter_eq_self]

theorem throughExports_eq_some {bound : List String} {exports kept : List (String × String)} :
    throughExports bound kept = some exports ↔ kept = exports ∧ ∀ e ∈ exports, "exports" ∉ bound := by
  unfold throughExports
  split
  · rename_i hthrough
    refine ⟨fun h => ?_, fun h => congrArg some h.1⟩
    obtain rfl := Option.some.inj h
    refine ⟨rfl, fun e he => ?_⟩
    exact hthrough.resolve_left (List.ne_nil_of_mem he)
  · rename_i hthrough
    push Not at hthrough
    refine ⟨nofun, ?_⟩
    rintro ⟨rfl, hbound⟩
    obtain ⟨e, he⟩ := List.exists_mem_of_ne_nil kept hthrough.1
    exact absurd hthrough.2 (hbound e he)

theorem madeExports_eq_self {bound : List String} {exports : List (String × String)} {format : OutputFormat}
    (hformat : format ≠ .es) :
    (exports.any (hasLineBreak ·.1) = false ∧ madeExports bound exports format = some exports) ↔
      Expressible bound exports format := by
  have hbreaks : exports.any (hasLineBreak ·.1) = false ↔ ∀ e ∈ exports, hasLineBreak e.1 = false := by
    simp
  cases format with
  | es => exact absurd rfl hformat
  | iife => rw [madeExports, Option.some_inj, ownFields_eq_self, hbreaks, ← forall₂_and, Expressible]
  | system =>
    rw [madeExports, throughExports_eq_some, hbreaks, Expressible]
    simp only [true_and, forall_and]
  | cjs | amd | umd =>
    rw [madeExports, throughExports_eq_some, ownFields_eq_self, hbreaks, Expressible]
    simp only [forall₂_and]

/-- A chunk makes its exports exactly if they are expressible in its format. -/
theorem ChunkParts.readExports?_exportText_iff (parts : ChunkParts) (bound : List String)
    (format : OutputFormat) (hlocals : ∀ e ∈ parts.exports, IsVariable e.2) :
    (tokens? (parts.exportText format)).bind (readExports? format bound) = some parts.exports ↔
      Expressible bound parts.exports format := by
  rcases eq_or_ne format .es with rfl | hformat
  · have hmade : readExports? .es bound = saidExports? .es := by
      funext ks
      exact Option.bind_fun_some _
    rw [hmade]
    exact ⟨isName_of_saidExports? hlocals, fun hnames => saidExports?_exportList hnames hlocals⟩
  · have hread : (tokens? (parts.exportText format)).bind (readExports? format bound) =
        ((tokens? (parts.exportText format)).bind (saidExports? format)).bind (madeExports bound · format) :=
      (Option.bind_assoc ..).symm
    rw [hread, saidExports?_exportText hformat hlocals, ← madeExports_eq_self hformat]
    cases parts.exports.any (hasLineBreak ·.1) <;> simp

/-- The text of a chunk ends with its exports, and makes them just if the format can express them. -/
structure ChunkParts.ExportsIfExpressible (parts : ChunkParts) (bound : List String) (format : OutputFormat) :
    Prop where
  render_eq : ∀ name, parts.render name format =
    leadText parts.externals parts.body name format ++ parts.exportText format
  read_iff : (tokens? (parts.exportText format)).bind (readExports? format bound) = some parts.exports ↔
    Expressible bound parts.exports format

theorem ChunkParts.exportsIfExpressible (parts : ChunkParts) (bound : List String) (format : OutputFormat)
    (hlocals : ∀ e ∈ parts.exports, IsVariable e.2) : parts.ExportsIfExpressible bound format where
  render_eq name := parts.render_eq name format
  read_iff := parts.readExports?_exportText_iff bound format hlocals

end ModuleBuild
