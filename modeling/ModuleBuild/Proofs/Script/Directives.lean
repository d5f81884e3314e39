import Mathlib
import ModuleBuild.Proofs.Script.Strings
import ModuleBuild.Script.Parse.Program

/-!
# Directives

A program starts with its directives: statements that are a string and nothing else. The first statement of
another kind ends them, so what is put before a program takes its directives away unless it consists of
directives itself.

## Main definitions

* `directivesFrom`, `directives` — the directives that a text starts with, and those of a whole text.
* `Prologue` — a text that starts with directives, whatever stands behind it.

## Main statements

* `directivesFrom_quote` — a string with a semicolon is one more directive.
* `directivesFrom_word` — a word ends the directives.
* `prologue_quote` — strings with semicolons are such a text.
-/

namespace ModuleBuild.Script

open Text

/-- Whether a token behind a value belongs to an expression that starts with the value. -/
def TokenKind.continuesValue : TokenKind → Bool
  | .template _ => true
  | .word text _ => text == "in" || text == "instanceof"
  | .punct text =>
    !(["\x7b", "\x7d", ")", "]", ";", ":", "=>", "...", "++", "--", "!", "~", "@"].contains text)
  | _ => false

/-- What follows if a statement ends here. Without a semicolon it ends where a block or the text does, or at
the end of a line behind which its expression does not go on. -/
def behindStatement? (cs : List Char) : Option (List Char) := do
  let (newline, _, cursor) ← skipTrivia (cs.length + 1) false {} ⟨0, cs⟩
  let (kind, behind) ← readToken? cursor.rest
  if kind = .punct ";" then some behind
  else if kind = .eof ∨ kind = .punct "\x7d" ∨ (newline && !kind.continuesValue) = true then some cs
  else none

/-- The texts between the quotes of the directives that a text starts with; `fuel` bounds their number. -/
def directivesFrom : Nat → List Char → List String
  | 0, _ => []
  | fuel + 1, cs =>
    match (skip? cs).bind readToken? with
    | some (.string lit, rest) =>
      match behindStatement? rest with
      | some behind => lit.raw :: directivesFrom fuel behind
      | none => []
    | _ => []

/-- A text behind its first line, if that names the program that runs the text. -/
def behindHashbang (cs : List Char) : List Char :=
  match hashbang? cs with
  | some line => cs.drop (line.length + 2)
  | none => cs

/-- The directives of a program. -/
def directives (text : String) : List String :=
  directivesFrom (text.toList.length + 1) (behindHashbang text.toList)

/-! ## What ends directives -/

/-- A word ends the directives. -/
theorem directivesFrom_word {c : Char} (hword : startsWord c = true) (htrivia : isTrivia c = false)
    (hslash : c ≠ '/') (fuel : Nat) (cs : List Char) : directivesFrom fuel (c :: cs) = [] := by
  cases fuel with
  | zero => rfl
  | succ fuel =>
    rw [directivesFrom, skip?_cons htrivia hslash, Option.bind_some, readToken?,
      if_pos (by simp [hword])]
    cases readWord? (c :: cs) <;> rfl

/-- A first line that names a program ends the directives if it is not the first one. -/
theorem directivesFrom_hash (fuel : Nat) (cs : List Char) : directivesFrom fuel ('#' :: cs) = [] := by
  cases fuel with
  | zero => rfl
  | succ fuel =>
    rw [directivesFrom, skip?_cons (by decide) (by decide), Option.bind_some, readToken?,
      if_neg (by decide), if_neg (by simp), if_neg (by decide), if_neg (by decide), if_pos (by decide)]
    cases readWord? cs <;> rfl

/-! ## What goes on with them -/

theorem directivesFrom_newline (fuel : Nat) (cs : List Char) :
    directivesFrom fuel ('\n' :: cs) = directivesFrom fuel cs := by
  cases fuel with
  | zero => rfl
  | succ fuel => rw [directivesFrom, skip?_cons_of_isTrivia (by decide) (by decide), directivesFrom]

theorem behindStatement?_semicolon (cs : List Char) : behindStatement? (';' :: cs) = some cs := by
  have hskip : skipTrivia ((';' :: cs).length + 1) false {} ⟨0, ';' :: cs⟩ =
      some (false, {}, ⟨0, ';' :: cs⟩) := by
    rw [skipTrivia]
    rfl
  have hread : readToken? (';' :: cs) = some (.punct ";", cs) := (readToken?_solitary (by decide) cs).1
  rw [behindStatement?, hskip, Option.bind_eq_bind, Option.bind_some]
  simp [hread]

/-- A string with a semicolon is one more directive. -/
theorem directivesFrom_quote {text : String} (h : hasLineBreak text = false) (fuel : Nat) (cs : List Char) :
    directivesFrom (fuel + 1) ((quote text).toList ++ ';' :: cs) =
      escapeWith quoteRule text :: directivesFrom fuel cs := by
  have hskip : skip? ((quote text).toList ++ ';' :: cs) = some ((quote text).toList ++ ';' :: cs) := by
    have hcons : (quote text).toList ++ ';' :: cs =
        '"' :: ((escapeWith quoteRule text).toList ++ '"' :: ';' :: cs) := by simp [quote]
    rw [hcons]
    exact skip?_cons (by decide) (by decide) _
  rw [directivesFrom, hskip, Option.bind_some, readToken?_quote, h, if_neg Bool.false_ne_true]
  dsimp only
  rw [behindStatement?_semicolon]
  rfl

/-! ## Texts that start with directives -/

/-- A text that starts with directives, whatever stands behind it. -/
def Prologue (ds : List String) (text : List Char) : Prop :=
  ∀ behind fuel, (text ++ behind).length < fuel → ds <+: directivesFrom fuel (behindHashbang (text ++ behind))

theorem behindHashbang_of_head? {cs : List Char} (h : cs.head? ≠ some '#') : behindHashbang cs = cs := by
  have hnone : hashbang? cs = none := by
    unfold hashbang?
    split
    · simp at h
    · rfl
  rw [behindHashbang, hnone]

theorem prologue_nil : Prologue [] [] :=
  fun _ _ _ => List.nil_prefix

theorem Prologue.ne_nil {ds : List String} {text : List Char} (h : Prologue ds text) (hds : ds ≠ []) :
    text ≠ [] := by
  rintro rfl
  exact hds (List.prefix_nil.1 (h [] 1 Nat.one_pos))

/-- What stands behind such a text does not begin it. -/
theorem Prologue.head?_ne {ds : List String} {text : List Char} (h : Prologue ds text) (hds : ds ≠ [])
    (behind : List Char) (hhead : text.head? ≠ some '#') : (text ++ behind).head? ≠ some '#' := by
  obtain ⟨c, rest, rfl⟩ := List.exists_cons_of_ne_nil (h.ne_nil hds)
  exact hhead

/-- A string with a semicolon on a line of its own goes before such a text. -/
theorem prologue_quote (text : String) (h : hasLineBreak text = false) {ds : List String} {cs : List Char}
    (hds : Prologue ds cs) (hhead : cs.head? ≠ some '#') :
    Prologue (escapeWith quoteRule text :: ds) ((quote text).toList ++ ';' :: '\n' :: cs) := by
  intro behind fuel hfuel
  have hcons : (quote text).toList ++ ';' :: '\n' :: cs ++ behind =
      (quote text).toList ++ ';' :: '\n' :: (cs ++ behind) := by simp
  have hquote : ((quote text).toList ++ ';' :: '\n' :: (cs ++ behind)).head? ≠ some '#' := by simp [quote]
  obtain ⟨fuel, rfl⟩ := Nat.exists_eq_succ_of_ne_zero (Nat.ne_of_gt (Nat.zero_lt_of_lt hfuel))
  rw [hcons] at hfuel ⊢
  rw [behindHashbang_of_head? hquote, directivesFrom_quote h, directivesFrom_newline, List.cons_prefix_cons]
  refine ⟨rfl, ?_⟩
  by_cases hnone : ds = []
  · rw [hnone]
    exact List.nil_prefix
  · have hrest := hds behind fuel (by simp at hfuel ⊢; omega)
    rwa [behindHashbang_of_head? (hds.head?_ne hnone behind hhead)] at hrest

end ModuleBuild.Script
