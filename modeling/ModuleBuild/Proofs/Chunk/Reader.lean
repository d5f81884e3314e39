import Mathlib
import ModuleBuild.Options.Basic
import ModuleBuild.Script.Names
import ModuleBuild.Proofs.Script.Strings

/-!
# Reading the exports of a chunk

A chunk ends with its exports: an export list, the fields of an object, assignments to members of `exports`, or
calls of `exports`. They are read from the tokens of that end, the way JavaScript reads them: names are words or
the values of strings, a field or member `__proto__` is the prototype of an object, and a module that binds
`exports` hides the variable of that name.

## Main definitions

* `IsVariable` — a variable may have this name.
* `ExportForm` — how exports are written that are no export list.
* `saidExports?` — the exports that the end of a chunk says.
* `readExports?` — the exports that it makes.

## Main statements

* `ExportForm.read?_tokens`, `readStatements?_tokens` — what is written in a form is read.
-/

namespace ModuleBuild

open Script Text

/-! ## Names of variables -/

/-- A name that a variable may have. -/
def IsVariable (x : String) : Prop :=
  IsName x ∧ x ∉ reservedWords

instance (x : String) : Decidable (IsVariable x) :=
  inferInstanceAs (Decidable (_ ∧ _))

/-- The variable that a token names. -/
def Script.TokenKind.variableName? : TokenKind → Option String
  | .word text _ => if text ∈ reservedWords then none else some text
  | _ => none

/-- The name that a token gives where a name may be written as a word or as a string. -/
def Script.TokenKind.exportedName? : TokenKind → Option String
  | .word text _ => some text
  | .string lit => if lit.hasLoneSurrogate then none else some lit.value
  | _ => none

/-! ## Reading exports -/

/-- What stands between two rows of tokens. -/
def inside? (opening closing tokens : List TokenKind) : Option (List TokenKind) :=
  (tokens.dropPrefix? opening).bind (·.dropSuffix? closing)

/-- The entries between commas, of which one may stand behind the last entry. -/
def entriesOf (tokens : List TokenKind) : List (List TokenKind) :=
  let entries := tokens.splitOn (.punct ",")
  if entries.getLast? = some [] then entries.dropLast else entries

/-- The statements, each with a semicolon behind it. -/
def statementsOf? (tokens : List TokenKind) : Option (List (List TokenKind)) :=
  let statements := tokens.splitOn (.punct ";")
  if statements.getLast? = some [] then some statements.dropLast else none

/-- An entry of an export list, as the exported name and its variable. -/
def specifier? : List TokenKind → Option (String × String)
  | [value] => value.variableName?.map fun l => (l, l)
  | [value, as, name] => do
    if as = .word "as" false then return (← name.exportedName?, ← value.variableName?) else none
  | _ => none

/-- How an exported name and its variable are written, but for the name and the variable. -/
structure ExportForm where
  before : List TokenKind
  between : List TokenKind
  behind : List TokenKind

namespace ExportForm

/-- Members of `exports` get values. -/
def assignment : ExportForm where
  before := [.word "exports" false, .punct "["]
  between := [.punct "]", .punct "="]
  behind := []

/-- Names and values are handed to `exports`. -/
def call : ExportForm where
  before := [.word "exports" false, .punct "("]
  between := [.punct ","]
  behind := [.punct ")"]

/-- Fields of an object. -/
def field : ExportForm where
  before := []
  between := [.punct ":"]
  behind := []

/-- The tokens of an exported name and its variable. -/
def tokens (form : ExportForm) (e : String × String) : List TokenKind :=
  form.before ++ .string (quotedLit e.1) :: form.between ++ .word e.2 false :: form.behind

/-- The exported name and its variable that are written in a form. -/
def read? (form : ExportForm) (ks : List TokenKind) : Option (String × String) := do
  match ← inside? form.before form.behind ks with
  | .string lit :: rest =>
    match ← rest.dropPrefix? form.between with
    | [value] => if lit.hasLoneSurrogate then none else return (lit.value, ← value.variableName?)
    | _ => none
  | _ => none

/-- The exported names and their variables that a row of statements says. -/
def readStatements? (form : ExportForm) (ks : List TokenKind) : Option (List (String × String)) := do
  (← statementsOf? ks).mapM form.read?

end ExportForm

/-- The fields that an object has; `__proto__` is its prototype. -/
def ownFields (entries : List (String × String)) : List (String × String) :=
  entries.filter (·.1 ≠ "__proto__")

/-- What statements export by way of the variable `exports`. If the modules before them bind this name
themselves, the statements alone do not say what they export. -/
def throughExports (bound : List String) (entries : List (String × String)) : Option (List (String × String)) :=
  if entries = [] ∨ "exports" ∉ bound then some entries else none

/-- Punctuation in a row. -/
def puncts (texts : List String) : List TokenKind :=
  texts.map .punct

/-- What closes a chunk behind its exports. -/
def closingOf : OutputFormat → List TokenKind
  | .es | .cjs => []
  | .iife => puncts ["\x7d", ";", "\x7d", ")", "(", ")", ";"]
  | .amd | .umd => puncts ["\x7d", ")", ")", ";"]
  | .system => puncts ["\x7d", ")", "\x7d", ";", "\x7d", ")", ")", ";"]

/-- The exported names and their variables that stand in braces behind a word. -/
def readBraced? (word : String) (closing : List TokenKind) (read? : List TokenKind → Option (String × String))
    (ks : List TokenKind) : Option (List (String × String)) := do
  (entriesOf (← inside? [.word word false, .punct "\x7b"] closing ks)).mapM read?

/-- The exports that the end of a chunk says, each as its name and its variable. -/
def saidExports? (format : OutputFormat) (ks : List TokenKind) : Option (List (String × String)) :=
  match format with
  | .es => if ks = [] then some [] else readBraced? "export" (puncts ["\x7d", ";"]) specifier? ks
  | .iife => readBraced? "return" (closingOf .iife) ExportForm.field.read? ks
  | .system => (inside? [] (closingOf .system) ks).bind ExportForm.call.readStatements?
  | format => (inside? [] (closingOf format) ks).bind ExportForm.assignment.readStatements?

/-- The exports that come about, of those that are said. The modules before them bind the names `bound`. -/
def madeExports (bound : List String) (said : List (String × String)) :
    OutputFormat → Option (List (String × String))
  | .es => some said
  | .iife => some (ownFields said)
  | .system => throughExports bound said
  | .cjs | .amd | .umd => throughExports bound (ownFields said)

/-- The exports that a chunk makes, by the tokens of its end. -/
def readExports? (format : OutputFormat) (bound : List String) (ks : List TokenKind) :
    Option (List (String × String)) :=
  (saidExports? format ks).bind (madeExports bound · format)

/-! ## Rows taken apart -/

theorem inside?_eq_some {opening closing tokens inner : List TokenKind} :
    inside? opening closing tokens = some inner ↔ tokens = opening ++ inner ++ closing := by
  unfold inside?
  simp only [Option.bind_eq_some_iff, List.dropPrefix?_eq_some_iff, List.dropSuffix?_eq_some_iff, beq_iff_eq]
  constructor
  · rintro ⟨_, ⟨_, rfl, rfl⟩, _, rfl, rfl⟩
    exact (List.append_assoc ..).symm
  · rintro rfl
    exact ⟨inner ++ closing, ⟨opening, List.append_assoc .., rfl⟩, closing, rfl, rfl⟩

theorem statementsOf?_flatMap {rows : List (List TokenKind)} (h : ∀ row ∈ rows, .punct ";" ∉ row) :
    statementsOf? (rows.flatMap (· ++ [.punct ";"])) = some rows := by
  have hjoin : rows.flatMap (· ++ [.punct ";"]) = [.punct ";"].intercalate (rows ++ [[]]) := by
    induction rows with
    | nil => rfl
    | cons row rest ih =>
      rw [List.flatMap_cons, ih fun row' hrow => h row' (List.mem_cons_of_mem row hrow)]
      cases rest with
      | nil => simp [List.intercalate_cons_cons]
      | cons => simp [List.intercalate_cons_cons]
  have hrows : ∀ row ∈ rows ++ [[]], TokenKind.punct ";" ∉ row := by
    intro row hrow
    rcases List.mem_append.1 hrow with hrow | hrow
    · exact h row hrow
    · rw [List.mem_singleton.1 hrow]
      exact List.not_mem_nil
  unfold statementsOf?
  rw [hjoin, List.splitOn_intercalate _ hrows (by simp)]
  simp

theorem entriesOf_intercalate {rows : List (List TokenKind)} (h : ∀ row ∈ rows, .punct "," ∉ row)
    (hne : ∀ row ∈ rows, row ≠ []) : entriesOf ([.punct ","].intercalate rows) = rows := by
  unfold entriesOf
  rcases eq_or_ne rows [] with rfl | hrows
  · rfl
  · rw [List.splitOn_intercalate _ h hrows]
    dsimp only
    rw [if_neg fun hlast => hne [] (List.mem_of_getLast? hlast) rfl]

theorem mapM_map_eq {exports : List (String × String)} {toks : String × String → List TokenKind}
    {read? : List TokenKind → Option (String × String)} (h : ∀ e ∈ exports, read? (toks e) = some e) :
    (exports.map toks).mapM read? = some exports := by
  induction exports with
  | nil => rfl
  | cons e rest ih =>
    rw [List.map_cons, List.mapM_cons, h e List.mem_cons_self,
      ih fun e' he' => h e' (List.mem_cons_of_mem e he')]
    rfl

theorem readBraced?_tokens {word : String} {closing : List TokenKind} {toks : String × String → List TokenKind}
    {read? : List TokenKind → Option (String × String)} {exports : List (String × String)}
    (htoks : ∀ e ∈ exports, .punct "," ∉ toks e ∧ toks e ≠ [])
    (hread : ∀ e ∈ exports, read? (toks e) = some e) :
    readBraced? word closing read? ([.word word false, .punct "\x7b"] ++
      [.punct ","].intercalate (exports.map toks) ++ closing) = some exports := by
  unfold readBraced?
  rw [inside?_eq_some.2 rfl, Option.bind_eq_bind, Option.bind_some,
    entriesOf_intercalate (List.forall_mem_map.2 fun e he => (htoks e he).1)
      (List.forall_mem_map.2 fun e he => (htoks e he).2)]
  exact mapM_map_eq hread

namespace ExportForm

theorem read?_tokens (form : ExportForm) {e : String × String} (he : IsVariable e.2) :
    form.read? (form.tokens e) = some e := by
  have hinside : inside? form.before form.behind (form.tokens e) =
      some (.string (quotedLit e.1) :: (form.between ++ [.word e.2 false])) := by
    rw [inside?_eq_some]
    simp [tokens]
  have hprefix : (form.between ++ [TokenKind.word e.2 false]).dropPrefix? form.between =
      some [TokenKind.word e.2 false] :=
    List.dropPrefix?_append_of_beq _ (beq_self_eq_true _)
  unfold read?
  rw [hinside]
  simp only [Option.bind_eq_bind, Option.bind_some, hprefix, quotedLit, TokenKind.variableName?, if_neg he.2]
  rfl

theorem not_mem_tokens {form : ExportForm} {text : String} (e : String × String)
    (h : .punct text ∉ form.before ++ form.between ++ form.behind) : .punct text ∉ form.tokens e := by
  simpa [tokens, and_assoc] using h

end ExportForm

theorem readStatements?_tokens {form : ExportForm} {exports : List (String × String)}
    (hform : .punct ";" ∉ form.before ++ form.between ++ form.behind)
    (hlocals : ∀ e ∈ exports, IsVariable e.2) :
    form.readStatements? ((exports.map form.tokens).flatMap (· ++ [.punct ";"])) = some exports := by
  have hrows : ∀ row ∈ exports.map form.tokens, TokenKind.punct ";" ∉ row :=
    List.forall_mem_map.2 fun e _ => ExportForm.not_mem_tokens e hform
  unfold ExportForm.readStatements?
  rw [statementsOf?_flatMap hrows]
  exact mapM_map_eq fun e he => form.read?_tokens (hlocals e he)

end ModuleBuild
