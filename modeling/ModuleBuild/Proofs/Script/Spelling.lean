import ModuleBuild.Proofs.Script.Listing

/-!
# The text of listings

A statement is written in the same way whatever white space stands before it. So the text of a listing
is the texts of its statements, line by line, and its tokens are clear of each other if those of each
statement are, up to the end of the line.

## Main definitions

* `Phrase.chars` — the text of a statement.

## Main statements

* `Listing.toList_text` — the text of a listing, line by line.
* `Phrase.chars_exports`, `Phrase.chars_wrapped` — the texts of export lists and of functions called at once.
* `Listing.spelled_row` — the tokens of a listing are clear if those of its statements are.
-/

namespace ModuleBuild.Script

variable {returns : Bool} {next : Option Char} {gap : List Char}

namespace Phrase

/-! ## Statements -/

/-- The text of a statement. -/
def chars (s : Phrase (.statement returns)) : List Char := rowChars (s.row [] 0)

/-- Only the first token of a statement knows what stands before it. -/
theorem exists_first (s : Phrase (.statement returns)) (i : Nat) : ∃ g ls, ∀ gap, s.row gap i = ⟨gap, g⟩ :: ls := by
  cases s <;> exact ⟨_, _, fun _ => rfl⟩

theorem rowChars_row (s : Phrase (.statement returns)) (gap : List Char) (i : Nat) :
    rowChars (s.row gap i) = gap ++ rowChars (s.row [] i) := by
  obtain ⟨g, ls, hrow⟩ := s.exists_first i
  simp [hrow, Lexeme.chars]

theorem spelled_row (s : Phrase (.statement returns)) (hgap : gap.all isGap = true) {i : Nat}
    (h : Spelled next (s.row [] i)) : Spelled next (s.row gap i) := by
  obtain ⟨g, ls, hrow⟩ := s.exists_first i
  rw [hrow] at h ⊢
  exact ⟨hgap, h.2⟩

/-! ## Statements on lines of their own -/

@[simp] theorem row_list_cons (s : Phrase (.statement returns)) (ss : List (Phrase (.statement returns)))
    (gap : List Char) (i : Nat) : (list (s :: ss)).row gap i = s.row gap i ++ (list ss).row (newLine i) i := rfl

@[simp] theorem newLine_zero : newLine 0 = ['\n'] := rfl

/-- Statements behind the end of a line, up to the end of their last line. -/
theorem rowChars_list (ss : List (Phrase (.statement returns))) :
    rowChars ((list ss).row ['\n'] 0) ++ ['\n'] = '\n' :: ss.flatMap fun s => s.chars ++ ['\n'] := by
  induction ss with
  | nil => rfl
  | cons s ss ih =>
    calc rowChars ((list (s :: ss)).row ['\n'] 0) ++ ['\n']
        = '\n' :: (s.chars ++ (rowChars ((list ss).row ['\n'] 0) ++ ['\n'])) := by
          simp [s.rowChars_row ['\n'], chars]
      _ = '\n' :: (s :: ss).flatMap fun s => s.chars ++ ['\n'] := by
          simp [ih]

/-- Statements whose tokens are clear up to the end of the line are clear of each other. -/
theorem spelled_list {ss : List (Phrase (.statement returns))} (hgap : gap.all isGap = true)
    (h : ∀ s ∈ ss, Spelled (some '\n') (s.row [] 0)) : Spelled (some '\n') ((list ss).row gap 0) := by
  induction ss generalizing gap with
  | nil => trivial
  | cons s ss ih =>
    obtain ⟨hs, hss⟩ := List.forall_mem_cons.1 h
    have hnext : (rowChars ((list ss).row (newLine 0) 0)).head?.or (some '\n') = some '\n' := by
      cases ss with
      | nil => rfl
      | cons t ss => simp [t.rowChars_row ['\n']]
    rw [row_list_cons, spelled_append, hnext]
    exact ⟨s.spelled_row hgap hs, ih rfl hss⟩

/-! ## Export lists -/

/-- The entries of an export list, with the white space behind them. -/
theorem rowChars_entryRow (names : List (Name × String)) :
    rowChars (entryRow names) ++ (if names.isEmpty then [' ', ' '] else [' ']) =
      (" " ++ String.intercalate ", " (names.map fun e => e.1.text ++ " as " ++ e.2) ++ " ").toList := by
  fun_induction entryRow names with
  | case1 => rfl
  | case2 x exported => simp [Lexeme.chars, Glyph.chars]
  | case3 x exported entry rest ih =>
    simp only [List.isEmpty_cons, Bool.false_eq_true, if_false] at ih ⊢
    simp [Lexeme.chars, Glyph.chars, ih, String.toList_intercalate, List.intercalate]

/-- The text of an export list. -/
theorem chars_exports (names : List (Name × String)) : (exports names : Phrase (.statement returns)).chars =
    ("export \x7b " ++ String.intercalate ", " (names.map fun e => e.1.text ++ " as " ++ e.2) ++ " \x7d;").toList := by
  have hentries := rowChars_entryRow names
  simp only [chars, row, rowChars_cons, rowChars_append, Lexeme.chars, Glyph.chars, rowChars_nil, List.nil_append,
    List.append_nil, List.append_assoc]
  rw [← List.append_assoc (rowChars _), hentries]
  simp

/-- A bracket or separator is clear of everything. -/
theorem clear_sign {text : String} (h : text ∈ solitary.map String.singleton) : (Glyph.punct text).Clear next := by
  obtain ⟨p, hp, rfl⟩ := List.mem_map.1 h
  exact .inl ⟨p, hp, rfl⟩

theorem spelled_entryRow {names : List (Name × String)} {c : Char} (hc : continuesWord c = false ∧ c ≠ '\\')
    (h : ∀ e ∈ names, (Glyph.word e.1.text).Clear none ∧ (Glyph.word e.2).Clear none) :
    Spelled (some c) (entryRow names) := by
  have hword {text : String} (ht : (Glyph.word text).Clear none) {d : Char} (hd : continuesWord d = false ∧ d ≠ '\\') :
      (Glyph.word text).Clear (some d) := by
    obtain ⟨hstart, htail, -⟩ := ht
    exact ⟨hstart, htail, by simpa using hd⟩
  have has : (Glyph.word "as").Clear (some ' ') := by decide
  fun_induction entryRow names with
  | case1 => trivial
  | case2 x exported =>
    obtain ⟨hx, hexported⟩ := h _ List.mem_cons_self
    exact ⟨rfl, hword hx (by decide), rfl, has, rfl, hword hexported hc, trivial⟩
  | case3 x exported entry rest ih =>
    obtain ⟨⟨hx, hexported⟩, hrest⟩ := List.forall_mem_cons.1 h
    exact ⟨rfl, hword hx (by decide), rfl, has, rfl, hword hexported (by decide), rfl, clear_sign (by decide), ih hrest⟩

/-- The tokens of an export list of words are clear of each other. -/
theorem spelled_exports {names : List (Name × String)} 
    (h : ∀ e ∈ names, (Glyph.word e.1.text).Clear none ∧ (Glyph.word e.2).Clear none) :
    Spelled next ((exports names : Phrase (.statement returns)).row [] 0) := by
  have hexport : (Glyph.word "export").Clear (some ' ') := by decide
  have hgap : (if names.isEmpty then [' ', ' '] else [' ']).all isGap = true := by
    split <;> rfl
  have hhead : (rowChars [Lexeme.sign (if names.isEmpty then [' ', ' '] else [' ']) "\x7d", .sign [] ";"]).head?.or
      next =
      some ' ' := by
    split <;> rfl
  refine ⟨rfl, hexport, rfl, clear_sign (by decide), spelled_append.mpr ⟨?_, ?_⟩⟩
  · rw [hhead]
    exact spelled_entryRow (by decide) h
  · exact ⟨hgap, clear_sign (by decide), rfl, clear_sign (by decide), trivial⟩

/-! ## Functions that are called at once -/

/-- The text of a function that is called at once, with its statements on lines of their own. -/
theorem chars_wrapped (x : Name) (ss : List (Phrase (.statement true))) (v : Phrase .assignment) :
    (wrapped x (list ss) v : Phrase (.statement returns)).chars =
      ("(function (" ++ x.text ++ ") \x7b\n").toList ++ ss.flatMap (fun s => s.chars ++ ['\n']) ++
        "\x7d)(".toList ++ rowChars (v.row [] 0) ++ ");".toList := by
  have hbody (behind : List Char) : rowChars ((list ss).row ['\n'] 0) ++ '\n' :: behind =
      '\n' :: (ss.flatMap (fun s => s.chars ++ ['\n']) ++ behind) := by
    rw [← List.cons_append, ← rowChars_list ss, List.append_assoc, List.singleton_append]
  simp [chars, row, Lexeme.chars, Glyph.chars, hbody]

theorem spelled_wrapped {x : Name} {ss : List (Phrase (.statement true))} {v : Phrase .assignment}
    (hx : (Glyph.word x.text).Clear (some ')')) (hss : ∀ s ∈ ss, Spelled (some '\n') (s.row [] 0))
    (hv : Spelled (some ')') (v.row [] 0)) :
    Spelled next ((wrapped x (list ss) v : Phrase (.statement returns)).row [] 0) := by
  have hparameter : (Glyph.word "function").Clear (some ' ') := by decide
  refine ⟨rfl, clear_sign (by decide), rfl, hparameter, rfl, clear_sign (by decide), rfl, hx, rfl,
    clear_sign (by decide), rfl, clear_sign (by decide), spelled_append.mpr ⟨spelled_list rfl hss, rfl,
      clear_sign (by decide), rfl, clear_sign (by decide), rfl, clear_sign (by decide),
      spelled_append.mpr ⟨hv, rfl, clear_sign (by decide), rfl, clear_sign (by decide), trivial⟩⟩⟩

end Phrase

/-! ## Listings -/

namespace Listing

variable {ss : Listing}

/-- The text of a listing is the texts of its statements, line by line. -/
theorem toList_text (hne : ss ≠ []) : ss.text.toList = ss.flatMap fun s => s.chars ++ ['\n'] := by
  obtain ⟨s, ss, rfl⟩ := List.exists_cons_of_ne_nil hne
  rw [text, String.toList_ofList, row, rowChars_append]
  calc rowChars ((Phrase.list (s :: ss)).row [] 0) ++ ['\n']
      = s.chars ++ (rowChars ((Phrase.list ss).row ['\n'] 0) ++ ['\n']) := by
        simp [Phrase.chars]
    _ = (s :: ss).flatMap fun s => s.chars ++ ['\n'] := by
        simp [Phrase.rowChars_list]

/-- The tokens of a listing are clear of each other if those of its statements are. -/
theorem spelled_row (h : ∀ s ∈ ss, Spelled (some '\n') (s.row [] 0)) : Spelled none ss.row :=
  spelled_append.mpr ⟨Phrase.spelled_list rfl h, rfl, rfl, trivial⟩

end Listing

end ModuleBuild.Script
