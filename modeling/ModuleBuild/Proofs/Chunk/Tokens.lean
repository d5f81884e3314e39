import Mathlib
import ModuleBuild.Bundle.Chunk
import ModuleBuild.Proofs.Chunk.Reader

/-!
# The tokens of exports

How the pieces that exports are written with read, in front of whatever follows them: one statement, field or
entry each, rows of them, and the punctuation that closes a chunk.

## Main definitions

* `specifierTokens` — the tokens of an entry of an export list.
* `isMark`, `mark?` — the characters of closing punctuation, and the token of one.

## Main statements

* `reads_assignment`, `reads_call`, `reads_field`, `reads_specifier` — one export.
* `reads_join`, `reads_intercalate` — a row of exports.
* `reads_marks` — closing punctuation.
* `tokens?_statements`, `tokens?_braced` — all exports at the end of a chunk.
-/

namespace ModuleBuild

open Script Text

/-! ## Tokens of exports -/

theorem isName_exports : IsName "exports" := by
  decide +kernel

/-- White space ends a word, and so does punctuation. -/
theorem endsWord_cons {c : Char} (hc : continuesWord c = false) (hslash : c ≠ '\\') (cs : List Char) :
    EndsWord (c :: cs) := by
  rintro d ⟨⟩
  exact ⟨hc, hslash⟩

/-- The tokens of a text that starts with quoted text, if it has any. -/
theorem map_ite_none {α : Type} {p : Prop} [Decidable p] (f : α → α) (tokens : Option α) :
    (if p then none else tokens).map f = if p then none else tokens.map f := by
  split <;> rfl

section Forms

variable {e : String × String} {cs : List Char} {tokens : Option (List TokenKind)}

theorem reads_assignment (he : IsName e.2) (h : Reads cs tokens) :
    Reads (("exports[" ++ quote e.1 ++ "] = " ++ e.2 ++ ";\n").toList ++ cs)
      (if hasLineBreak e.1 then none
        else tokens.map fun ks => (ExportForm.assignment.tokens e ++ [.punct ";"]) ++ ks) := by
  have hend : Reads (';' :: '\n' :: cs) _ := (h.trivia (by decide) (by decide)).punct (by decide)
  have hvalue := hend.word he (endsWord_cons (by decide) (by decide) _)
  have hname : Reads ((quote e.1).toList ++ ']' :: ' ' :: '=' :: ' ' :: (e.2.toList ++ ';' :: '\n' :: cs)) _ :=
    ((hvalue.equals.trivia (by decide) (by decide)).punct (by decide)).quote e.1
  have hall : Reads ("exports".toList ++ '[' :: _) _ :=
    (hname.punct (by decide)).word isName_exports (endsWord_cons (by decide) (by decide) _)
  convert hall using 1
  · simp
  · rw [map_ite_none, map_ite_none]
    cases tokens <;> rfl

theorem reads_call (he : IsName e.2) (h : Reads cs tokens) :
    Reads (("exports(" ++ quote e.1 ++ ", " ++ e.2 ++ ");\n").toList ++ cs)
      (if hasLineBreak e.1 then none
        else tokens.map fun ks => (ExportForm.call.tokens e ++ [.punct ";"]) ++ ks) := by
  have hend : Reads (')' :: ';' :: '\n' :: cs) _ :=
    ((h.trivia (by decide) (by decide)).punct (by decide)).punct (by decide)
  have hvalue := hend.word he (endsWord_cons (by decide) (by decide) _)
  have hname : Reads ((quote e.1).toList ++ ',' :: ' ' :: (e.2.toList ++ ')' :: ';' :: '\n' :: cs)) _ :=
    ((hvalue.trivia (by decide) (by decide)).punct (by decide)).quote e.1
  have hall : Reads ("exports".toList ++ '(' :: _) _ :=
    (hname.punct (by decide)).word isName_exports (endsWord_cons (by decide) (by decide) _)
  convert hall using 1
  · simp
  · rw [map_ite_none, map_ite_none]
    cases tokens <;> rfl

theorem reads_field (he : IsName e.2) (hcs : EndsWord cs) (h : Reads cs tokens) :
    Reads ((quote e.1 ++ ": " ++ e.2).toList ++ cs)
      (if hasLineBreak e.1 then none else tokens.map fun ks => ExportForm.field.tokens e ++ ks) := by
  have hvalue := h.word he hcs
  have hname : Reads ((quote e.1).toList ++ ':' :: ' ' :: (e.2.toList ++ cs)) _ :=
    ((hvalue.trivia (by decide) (by decide)).punct (by decide)).quote e.1
  convert hname using 1
  · simp
  · cases tokens <;> rfl

/-- The tokens of an entry of an export list with names. -/
def specifierTokens (e : String × String) : List TokenKind :=
  if e.1 = e.2 then [.word e.2 false] else [.word e.2 false, .word "as" false, .word e.1 false]

theorem reads_specifier (hname : IsName e.1) (he : IsName e.2) (hcs : EndsWord cs) (h : Reads cs tokens) :
    Reads ((exportSpecifier e.1 e.2).toList ++ cs) (tokens.map fun ks => specifierTokens e ++ ks) := by
  unfold exportSpecifier specifierTokens
  by_cases hsame : e.1 = e.2
  · rw [if_pos (by simpa using hsame), if_pos hsame]
    exact h.word he hcs
  · have has : IsName "as" := by decide +kernel
    have hspace {x : String} (hx : IsName x) {cs : List Char} {tokens : Option (List TokenKind)}
        (h : Reads cs tokens) : Reads (x.toList ++ ' ' :: cs) (tokens.map (.word x false :: ·)) :=
      (h.trivia (by decide) (by decide)).word hx (endsWord_cons (by decide) (by decide) _)
    rw [if_neg (by simpa using hsame), if_neg hsame]
    convert hspace he (hspace has (h.word hname hcs)) using 1
    · simp
    · cases tokens <;> rfl

end Forms

section Rows

variable {bad : String × String → Bool} {piece : String × String → String}
  {toks : String × String → List TokenKind} {exports : List (String × String)} {cs : List Char}
  {tokens : Option (List TokenKind)}

/-- Statements read one after the other. -/
theorem reads_join (hpiece : ∀ e ∈ exports, ∀ cs tokens, Reads cs tokens →
      Reads ((piece e).toList ++ cs) (if bad e then none else tokens.map (toks e ++ ·)))
    (h : Reads cs tokens) : Reads ((String.join (exports.map piece)).toList ++ cs)
      (if exports.any bad then none else tokens.map (exports.flatMap toks ++ ·)) := by
  induction exports with
  | nil =>
    convert h using 1
    · simp
    · cases tokens <;> simp
  | cons e rest ih =>
    have hrest := ih fun e' he' => hpiece e' (List.mem_cons_of_mem e he')
    have hall := hpiece e List.mem_cons_self _ _ hrest
    convert hall using 1
    · simp [String.toList_join]
    · cases hbad : bad e <;> cases hmore : rest.any bad <;> cases tokens <;> simp [hbad, hmore]

/-- Entries read one after the other, with commas between them. -/
theorem reads_intercalate (hpiece : ∀ e ∈ exports, ∀ cs tokens, EndsWord cs → Reads cs tokens →
      Reads ((piece e).toList ++ cs) (if bad e then none else tokens.map (toks e ++ ·)))
    (hcs : EndsWord cs) (h : Reads cs tokens) : Reads ((", ".intercalate (exports.map piece)).toList ++ cs)
      (if exports.any bad then none
        else tokens.map ([.punct ","].intercalate (exports.map toks) ++ ·)) := by
  induction exports with
  | nil =>
    convert h using 1
    · simp
    · cases tokens <;> simp
  | cons e rest ih =>
    have hrest := ih fun e' he' => hpiece e' (List.mem_cons_of_mem e he')
    cases rest with
    | nil =>
      convert hpiece e List.mem_cons_self cs tokens hcs h using 1
      · simp
      · simp
    | cons e' rest =>
      have hall := hpiece e List.mem_cons_self _ _ (endsWord_cons (by decide) (by decide) _)
        (Reads.punct (p := ',') (by decide) (hrest.trivia (c := ' ') (by decide) (by decide)))
      convert hall using 1
      · simp [String.toList_intercalate]
      · rw [List.any_cons]
        cases bad e <;> cases (e' :: rest).any bad <;> cases tokens <;> simp [List.intercalate_cons_cons]

end Rows

/-! ## Tokens of chunk ends -/

/-- Characters that closing punctuation is made of. -/
def isMark (c : Char) : Bool :=
  decide (c ∈ solitary) || (isTrivia c && c != '/')

/-- The token of such a character, if it is no white space. -/
def mark? (c : Char) : Option TokenKind :=
  if c ∈ solitary then some (.punct (String.singleton c)) else none

theorem reads_marks {text cs : List Char} {tokens : Option (List TokenKind)} (htext : text.all isMark)
    (h : Reads cs tokens) : Reads (text ++ cs) (tokens.map (text.filterMap mark? ++ ·)) := by
  induction text with
  | nil =>
    convert h using 1
    · rfl
    · cases tokens <;> rfl
  | cons c rest ih =>
    rw [List.all_cons, Bool.and_eq_true] at htext
    have hrest := ih htext.2
    by_cases hc : c ∈ solitary
    · convert hrest.punct hc using 1
      · rfl
      · cases tokens <;> simp [mark?, hc]
    · have hc' : isTrivia c = true ∧ c ≠ '/' := by simpa [isMark, hc] using htext.1
      convert hrest.trivia hc'.1 hc'.2 using 1
      · rfl
      · cases tokens <;> simp [mark?, hc]

section Ends

variable {bad : String × String → Bool} {piece : String × String → String}
  {toks : String × String → List TokenKind} {exports : List (String × String)} {closing : String}

/-- Statements and what closes a chunk behind them. -/
theorem tokens?_statements (hpiece : ∀ e ∈ exports, ∀ cs tokens, Reads cs tokens →
      Reads ((piece e).toList ++ cs) (if bad e then none else tokens.map ((toks e ++ [.punct ";"]) ++ ·)))
    (hclosing : closing.toList.all isMark) :
    tokens? (String.join (exports.map piece) ++ closing) =
      if exports.any bad then none
      else some ((exports.map toks).flatMap (· ++ [.punct ";"]) ++ closing.toList.filterMap mark?) := by
  refine Reads.tokens?_eq ?_
  have hend := reads_marks hclosing Reads.nil
  have hall := reads_join hpiece hend
  convert hall using 1
  · simp
  · simp [List.flatMap_map]

/-- Entries in braces behind a word, and what closes a chunk behind them. -/
theorem tokens?_braced {word : String} (hword : IsName word)
    (hpiece : ∀ e ∈ exports, ∀ cs tokens, EndsWord cs → Reads cs tokens →
      Reads ((piece e).toList ++ cs) (if bad e then none else tokens.map (toks e ++ ·)))
    (hclosing : closing.toList.all isMark) :
    tokens? (word ++ " \x7b " ++ ", ".intercalate (exports.map piece) ++ " " ++ closing) =
      if exports.any bad then none
      else some ([.word word false, .punct "\x7b"] ++ [.punct ","].intercalate (exports.map toks) ++
        closing.toList.filterMap mark?) := by
  have hclosed := (reads_marks hclosing Reads.nil).trivia (c := ' ') (by decide) (by decide)
  have hentries := reads_intercalate hpiece (endsWord_cons (by decide) (by decide) _) hclosed
  have hopened := ((hentries.trivia (c := ' ') (by decide) (by decide)).punct (p := '\x7b') (by decide)).trivia
    (c := ' ') (by decide) (by decide)
  refine Reads.tokens?_eq ?_
  convert hopened.word hword (endsWord_cons (by decide) (by decide) _) using 1
  · simp
  · split
    · rfl
    · simp

end Ends

end ModuleBuild
