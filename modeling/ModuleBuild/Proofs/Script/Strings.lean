import Mathlib
import ModuleBuild.Proofs.Script.Tokens
import ModuleBuild.Text.Quoted

/-!
# Punctuation and quoted strings as tokens

A quoted text reads as the string that it quotes. The quotes stand, and so do quotes and backslashes inside
of them; but a line break is left as it is, and no string goes on behind one.

## Main definitions

* `hasLineBreak` — a text has a line break.
* `quotedLit` — the string that a quoted text is.

## Main statements

* `Reads.punct`, `Reads.equals` — punctuation in front of a text is read first.
* `Reads.quote` — so is a quoted text, unless it has a line break.
-/

namespace ModuleBuild.Script

open Text

/-! ## Punctuation and strings -/

/-- Punctuation that never goes on. -/
def solitary : List Char :=
  ['\x7b', '\x7d', '(', ')', '[', ']', ';', ',', ':']

theorem readToken?_solitary {p : Char} (hp : p ∈ solitary) (cs : List Char) :
    readToken? (p :: cs) = some (.punct (String.singleton p), cs) ∧ isTrivia p = false ∧ p ≠ '/' := by
  simp only [solitary, List.mem_cons, List.not_mem_nil, or_false] at hp
  rcases hp with rfl | rfl | rfl | rfl | rfl | rfl | rfl | rfl | rfl
  all_goals
    refine ⟨?_, by decide, by decide⟩
    rw [readToken?, if_neg (by decide), if_neg (by simp), if_neg (by decide), if_neg (by decide),
      if_neg (by decide)]
    simp [readPunct?, punctuators, List.find?, List.isPrefixOf, ← String.length_toList]

/-- Characters at which a string may not go on. -/
def breaksString (c : Char) : Bool :=
  c == '\n' || c == '\r'

/-- Whether a text has a line break in it, as strings cannot have one. -/
def hasLineBreak (text : String) : Bool :=
  text.toList.any breaksString

theorem escapeWith_toList (rule : Char → String) (s : String) :
    (escapeWith rule s).toList = s.toList.flatMap fun c => (rule c).toList := by
  rw [escapeWith, String.toList_ofList]

/-- How a character of quoted text is read. -/
theorem readStringPoints_quoteRule (c : Char) (fuel : Nat) (cs : List Char) :
    readStringPoints '"' (fuel + 1) ((quoteRule c).toList ++ cs) =
      if breaksString c then none
      else (readStringPoints '"' fuel cs).map fun (points, rest) => (c.toNat :: points, rest) := by
  have hescaped (hrule : (quoteRule c).toList = ['\\', c])
      (hread : readEscape? (c :: cs) = some ([c.toNat], cs)) (hbreak : breaksString c = false) :
      readStringPoints '"' (fuel + 1) ((quoteRule c).toList ++ cs) =
        if breaksString c then none
        else (readStringPoints '"' fuel cs).map fun (points, rest) => (c.toNat :: points, rest) := by
    rw [hrule, hbreak, if_neg Bool.false_ne_true, List.cons_append, List.singleton_append,
      readStringPoints, hread]
    change (readStringPoints '"' fuel cs).bind _ = _
    cases readStringPoints '"' fuel cs <;> rfl
  by_cases hbackslash : c = '\\'
  · subst hbackslash
    exact hescaped rfl rfl rfl
  by_cases hquote : c = '"'
  · subst hquote
    exact hescaped rfl rfl rfl
  have hrule : (quoteRule c).toList = [c] := by
    unfold quoteRule
    split
    · exact absurd rfl hbackslash
    · exact absurd rfl hquote
    · exact String.toList_singleton c
  rw [hrule, List.singleton_append, readStringPoints, if_neg (by simpa using hquote)]
  · unfold breaksString
    split
    · rfl
    · cases readStringPoints '"' fuel cs <;> rfl
  · exact hbackslash

/-- Quoted text is read up to its closing quote, unless there is a line break before it. -/
theorem readStringPoints_escape (text cs : List Char) {fuel : Nat}
    (hfuel : (text.flatMap fun c => (quoteRule c).toList).length < fuel) :
    readStringPoints '"' fuel ((text.flatMap fun c => (quoteRule c).toList) ++ '"' :: cs) =
      if text.any breaksString then none else some (text.map Char.toNat, cs) := by
  induction text generalizing fuel with
  | nil =>
    obtain ⟨fuel, rfl⟩ := Nat.exists_eq_succ_of_ne_zero (Nat.ne_of_gt (Nat.zero_lt_of_lt hfuel))
    rfl
  | cons c rest ih =>
    obtain ⟨fuel, rfl⟩ := Nat.exists_eq_succ_of_ne_zero (Nat.ne_of_gt (Nat.zero_lt_of_lt hfuel))
    have hone : 0 < (quoteRule c).toList.length := by
      unfold quoteRule
      split <;> simp
    rw [List.flatMap_cons, List.length_append] at hfuel
    rw [List.flatMap_cons, List.append_assoc, List.any_cons, readStringPoints_quoteRule, ih (by omega)]
    cases breaksString c <;> cases rest.any breaksString <;> rfl

/-- The string literal that a text is quoted as. -/
def quotedLit (text : String) : StringLit where
  value := text
  raw := escapeWith quoteRule text

/-- Code points without lone surrogates are characters. -/
theorem textOfPoints_eq {points : List Nat} (h : (textOfPoints points).2 = false) :
    textOfPoints points = (String.ofList (points.map Char.ofNat), false) := by
  have hlone : (points.any fun n => 0xd800 ≤ n && n ≤ 0xdfff) = false := h
  unfold textOfPoints
  rw [hlone]
  refine Prod.ext (congrArg String.ofList ?_) rfl
  exact List.map_eq_flatMap.symm

theorem textOfPoints_toNat (text : List Char) :
    textOfPoints (text.map Char.toNat) = (String.ofList text, false) := by
  have hlone : (textOfPoints (text.map Char.toNat)).2 = false := by
    simp only [textOfPoints, List.any_map, List.any_eq_false, Function.comp_apply, Bool.and_eq_true,
      decide_eq_true_eq]
    intro c _
    have := c.valid
    simp only [UInt32.isValidChar, Nat.isValidChar] at this
    have hn : c.toNat = c.val.toNat := rfl
    omega
  rw [textOfPoints_eq hlone, List.map_map]
  have hsame : text.map (Char.ofNat ∘ Char.toNat) = text :=
    (List.map_congr_left fun c _ => Char.ofNat_toNat c).trans (List.map_id text)
  rw [hsame]

/-- Quoted text reads as its string, and text with a line break as nothing. -/
theorem readString?_escape (text : String) (cs : List Char) :
    readString? '"' ((escapeWith quoteRule text).toList ++ '"' :: cs) =
      if hasLineBreak text then none else some (quotedLit text, cs) := by
  have hread := readStringPoints_escape text.toList cs (Nat.lt_succ_of_le (Nat.le_add_right _ (cs.length + 1)))
  have hlength (before : List Char) : (before ++ '"' :: cs).length - cs.length - 1 = before.length := by
    rw [List.length_append, List.length_cons]
    omega
  rw [← escapeWith_toList, ← hasLineBreak] at hread
  rw [readString?, List.length_append, List.length_cons, hread]
  by_cases hbreak : hasLineBreak text = true
  · rw [if_pos hbreak, if_pos hbreak]
    rfl
  · rw [if_neg hbreak, if_neg hbreak, Option.bind_eq_bind, Option.bind_some]
    dsimp only
    rw [textOfPoints_toNat, ← List.length_cons, ← List.length_append, hlength, List.take_left,
      String.ofList_toList, String.ofList_toList]
    rfl

theorem readToken?_quote (text : String) (cs : List Char) :
    readToken? ((quote text).toList ++ cs) =
      if hasLineBreak text then none else some (.string (quotedLit text), cs) := by
  have htext : (quote text).toList ++ cs = '"' :: ((escapeWith quoteRule text).toList ++ '"' :: cs) := by
    simp [quote]
  rw [htext, readToken?, if_neg (by decide), if_neg (by simp), if_pos (by decide), readString?_escape]
  split <;> rfl

namespace Reads

variable {cs : List Char} {tokens : Option (List TokenKind)}

theorem punct {p : Char} (hp : p ∈ solitary) (h : Reads cs tokens) :
    Reads (p :: cs) (tokens.map (.punct (String.singleton p) :: ·)) := by
  obtain ⟨hread, htrivia, hslash⟩ := readToken?_solitary hp cs
  exact h.token (skip?_cons htrivia hslash cs) hread (by simp) (Nat.lt_succ_self _)

/-- An equals sign before a space goes on no more. -/
theorem equals (h : Reads cs tokens) : Reads ('=' :: ' ' :: cs) (tokens.map (.punct "=" :: ·)) := by
  have hread : readToken? ('=' :: ' ' :: cs) = some (.punct "=", ' ' :: cs) := by
    rw [readToken?, if_neg (by decide), if_neg (by simp), if_neg (by decide), if_neg (by decide),
      if_neg (by decide)]
    simp [readPunct?, punctuators, List.find?, List.isPrefixOf, ← String.length_toList]
  have hspace : Reads (' ' :: cs) tokens := h.trivia (by decide) (by decide)
  exact hspace.token (skip?_cons (by decide) (by decide) _) hread (by simp) (Nat.lt_succ_self _)

/-- Quoted text reads as its string, and text with a line break as nothing. -/
theorem quote (text : String) (h : Reads cs tokens) :
    Reads ((quote text).toList ++ cs)
      (if hasLineBreak text then .none else tokens.map (.string (quotedLit text) :: ·)) := by
  have hread := readToken?_quote text cs
  have hcons : (Text.quote text).toList ++ cs = '"' :: ((escapeWith quoteRule text).toList ++ '"' :: cs) := by
    simp [Text.quote]
  have hskip : skip? ((Text.quote text).toList ++ cs) = some ((Text.quote text).toList ++ cs) := by
    rw [hcons]
    exact skip?_cons (by decide) (by decide) _
  split
  · rename_i hbreak
    rw [if_pos hbreak] at hread
    exact Reads.none hskip hread
  · rename_i hbreak
    rw [if_neg hbreak] at hread
    refine h.token hskip hread nofun ?_
    rw [hcons, List.length_cons, List.length_append, List.length_cons]
    omega

end Reads


end ModuleBuild.Script
