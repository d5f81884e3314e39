import ModuleBuild.Proofs.Script.Strings
import ModuleBuild.Script.Parse.Program

/-!
# Texts as rows of lexemes

A lexeme is a token as it is written, with the white space before it. A row of lexemes says what its text is,
and a parser that has one of them at hand goes on to the next one, if no two of them run together.

## Main definitions

* `Glyph`, `Lexeme` — what is written of a token, and a token with the white space before it.
* `Glyph.Clear`, `Spelled` — a token does not run into what follows, and no token of a row does.
* `Setting`, `Stands` — what surrounds a row, and a parser that has its first lexeme at hand.

## Main statements

* `readToken?_glyph` — a token that is clear of what follows is read as it is written.
* `spelled_append` — rows that follow each other.
* `Stands.advance`, `advance_start` — a parser goes on from lexeme to lexeme.
-/

namespace ModuleBuild.Script

open Text

/-! ## Punctuation -/

/-- Signs that punctuation goes on with. -/
def joining : List Char :=
  ['.', '=', '*', '<', '&', '|', '?', '+', '-', '>']

/-- Characters that end punctuation. -/
def isCalm (c : Char) : Bool :=
  !(joining.contains c || c.isDigit)

/-- Punctuation that may go on. -/
def plainPuncts : List String :=
  [".", "=", "!", "!==", "===", "==", "&&", "||", "++", "<", "?"]

theorem isCalm_iff {c : Char} : isCalm c = true ↔ c ∉ joining ∧ c.isDigit = false := by
  simp [isCalm]

theorem readPunct?_plain {text : String} (h : text ∈ plainPuncts) {cs : List Char}
    (hcs : cs.head?.all isCalm = true) : readPunct? (text.toList ++ cs) = some (.punct text, cs) := by
  simp only [plainPuncts, List.mem_cons, List.not_mem_nil, or_false] at h
  cases cs with
  | nil => rcases h with rfl | rfl | rfl | rfl | rfl | rfl | rfl | rfl | rfl | rfl | rfl <;> rfl
  | cons c rest =>
    have hne : ∀ d ∈ joining, (d == c) = false := by
      intro d hd
      rw [beq_eq_false_iff_ne]
      rintro rfl
      exact (isCalm_iff.mp hcs).1 hd
    simp only [joining, List.forall_mem_cons, List.not_mem_nil, false_implies, implies_true, and_true] at hne
    have hpoint : c ≠ '.' := by
      rintro rfl
      simp at hne
    rcases h with rfl | rfl | rfl | rfl | rfl | rfl | rfl | rfl | rfl | rfl | rfl
    all_goals
      simp [readPunct?, punctuators, List.find?, List.isPrefixOf, ← String.length_toList, hne, hpoint]

/-- Such punctuation does not start like another kind of token. -/
theorem plainPuncts_start : ∀ text ∈ plainPuncts, ∃ c more, text.toList = c :: more ∧
    (startsWord c || c == '\\') = false ∧ c.isDigit = false ∧ (c == '"' || c == '\'') = false ∧
    (c == '\x60') = false ∧ (c == '#') = false ∧ (isTrivia c = false ∧ c ≠ '/' ∧ c ≠ '#') ∧
    (c = '.' → more = []) := by
  intro text h
  simp only [plainPuncts, List.mem_cons, List.not_mem_nil, or_false] at h
  rcases h with rfl | rfl | rfl | rfl | rfl | rfl | rfl | rfl | rfl | rfl | rfl
  all_goals exact ⟨_, _, rfl, by decide⟩

theorem readToken?_plainPunct {text : String} (h : text ∈ plainPuncts) {cs : List Char}
    (hcs : cs.head?.all isCalm = true) : readToken? (text.toList ++ cs) = some (.punct text, cs) := by
  obtain ⟨c, more, htext, hword, hdigit, hquote, htick, hhash, -, hpoint⟩ := plainPuncts_start text h
  have hnumber : (c == '.' && (more ++ cs).head?.any Char.isDigit) = false := by
    by_cases hc : c = '.'
    · obtain rfl := hpoint hc
      cases cs with
      | nil => simp
      | cons d rest => simp [(isCalm_iff.mp hcs).2]
    · simp [hc]
  rw [← readPunct?_plain h hcs, htext, List.cons_append, readToken?, hnumber]
  simp [hword, hdigit, hquote, htick, hhash]

/-! ## Numbers -/

theorem mem_digits {c : Char} (h : c.isDigit = true) : c ∈ ['0', '1', '2', '3', '4', '5', '6', '7', '8', '9'] := by
  have hrange : 48 ≤ c.toNat ∧ c.toNat ≤ 57 := by
    simp only [Char.isDigit, Bool.and_eq_true, decide_eq_true_eq, UInt32.le_iff_toNat_le] at h
    exact h
  rw [← Char.ofNat_toNat c]
  generalize c.toNat = n at hrange ⊢
  obtain ⟨hle, hge⟩ := hrange
  interval_cases n <;> decide

/-- Digits go on with words, and start nothing but numbers. -/
theorem isDigit_start {c : Char} (h : c.isDigit = true) : continuesWord c = true ∧
    (startsWord c || c == '\\') = false ∧ (isTrivia c = false ∧ c ≠ '/' ∧ c ≠ '#') ∧ c ≠ '.' ∧ c ≠ '_' := by
  have hmem := mem_digits h
  simp only [List.mem_cons, List.not_mem_nil, or_false] at hmem
  rcases hmem with rfl | rfl | rfl | rfl | rfl | rfl | rfl | rfl | rfl | rfl <;> decide

/-- Characters that end numbers. -/
def endsNumber (c : Char) : Bool :=
  !continuesWord c && !(c == '.' || c == '\\')

theorem endsNumber_iff {c : Char} : endsNumber c = true ↔ continuesWord c = false ∧ c ≠ '.' ∧ c ≠ '\\' := by
  simp [endsNumber]

theorem readDigits?_append {text cs : List Char} (hne : text ≠ []) (htext : ∀ c ∈ text, c.isDigit = true)
    (hcs : cs.head?.all (fun c => !(c.isDigit || c == '_')) = true) :
    readDigits? Char.isDigit (text ++ cs) = some (text, cs) := by
  have hscore : ∀ c ∈ text, c ≠ '_' := fun c hc => (isDigit_start (htext c hc)).2.2.2.2
  have htake : (text ++ cs).takeWhile (fun c => c.isDigit || c == '_') = text := by
    rw [List.takeWhile_append_of_pos (by grind)]
    cases cs with
    | nil => simp
    | cons c cs =>
      have hc : (c.isDigit || c == '_') = false := by simpa using hcs
      simp [hc]
  have hzip : ∀ p ∈ text.zip (text.drop 1), p.1 ≠ '_' := fun p hp => hscore _ (List.of_mem_zip hp).1
  have hhead : text.head? ≠ some '_' := fun h => hscore _ (List.mem_of_head? h) rfl
  have hlast : text.getLast? ≠ some '_' := fun h => hscore _ (List.mem_of_getLast? h) rfl
  rw [readDigits?, htake]
  dsimp only
  rw [if_neg, List.drop_left]
  simp only [Bool.or_eq_true, List.isEmpty_iff, hne, Bool.not_eq_true', false_or, Bool.and_eq_false_iff]
  simp [hhead, hlast]
  exact fun h => hzip ('_', '_') (by simpa using h) rfl

theorem readFraction?_none {cs : List Char} (h : cs.head?.all endsNumber = true) :
    readFraction? cs = some ([], cs) := by
  cases cs with
  | nil => rfl
  | cons c rest =>
    obtain ⟨hword, hpoint, -⟩ := endsNumber_iff.mp h
    have he : c ≠ 'e' ∧ c ≠ 'E' := by
      constructor <;> rintro rfl <;> exact absurd hword (by decide)
    unfold readFraction?
    split
    · rename_i heq
      exact absurd (List.cons.inj heq).1 hpoint
    · simp [he]

theorem readNumber?_digits {c : Char} {text cs : List Char} (htext : ∀ d ∈ c :: text, d.isDigit = true)
    (hzero : c ≠ '0') (hcs : cs.head?.all endsNumber = true) :
    readNumber? (c :: text ++ cs) = some (.number (String.ofList (c :: text)), cs) := by
  have hhead (d : Char) (hd : cs.head? = some d) : continuesWord d = false ∧ d ≠ '.' ∧ d ≠ '\\' := by
    rw [hd] at hcs
    exact endsNumber_iff.mp hcs
  have hpoint : c ≠ '.' := (isDigit_start (htext c List.mem_cons_self)).2.2.2.1
  have hdigits : readDigits? Char.isDigit (c :: text ++ cs) = some (c :: text, cs) := by
    refine readDigits?_append (by simp) htext ?_
    cases hnext : cs.head? with
    | none => rfl
    | some d =>
      have hd := (hhead d hnext).1
      have hdigit : d.isDigit = false := by
        by_contra h
        simp [(isDigit_start (by simpa using h)).1] at hd
      have hscore : d ≠ '_' := by
        rintro rfl
        exact absurd hd (by decide)
      simp [hdigit, hscore]
  have hnumber : readNumber?.number (c :: text ++ cs) = some (.number (String.ofList (c :: text)), cs) := by
    unfold readNumber?.number
    split
    · rename_i heq
      exact absurd (List.cons.inj heq).1 hzero
    · rename_i heq
      exact absurd (List.cons.inj heq).1 hpoint
    · rw [hdigits]
      simp only [Option.bind_eq_bind, Option.bind_some]
      split
      · exact absurd (hhead 'n' rfl).1 (by decide)
      · simp [readFraction?_none hcs]
  rw [readNumber?, hnumber]
  cases cs with
  | nil => rfl
  | cons d rest =>
    obtain ⟨hd, -, hslash⟩ := hhead d rfl
    simp [hd, hslash]

/-! ## Tokens as they are written -/

/-- What is written of a token. -/
inductive Glyph where
  | word (text : String)
  | punct (text : String)
  | string (text : String)
  /-- A whole number. -/
  | number (text : String)
  | eof
  deriving DecidableEq, Inhabited, Repr

namespace Glyph

/-- The token that is written. -/
def kind : Glyph → TokenKind
  | word text => .word text false
  | punct text => .punct text
  | string text => .string (quotedLit text)
  | number text => .number text
  | eof => .eof

/-- The text of a token. -/
def chars : Glyph → List Char
  | word text | punct text | number text => text.toList
  | string text => (quote text).toList
  | eof => []

/-- The token is read as it is written if this character follows. -/
def Clear (next : Option Char) : Glyph → Prop
  | word text => (∃ c ∈ text.toList.head?, startsWord c = true ∧ isTrivia c = false) ∧
      (∀ c ∈ text.toList.tail, continuesWord c = true) ∧ ∀ c ∈ next, continuesWord c = false ∧ c ≠ '\\'
  | punct text => (∃ p ∈ solitary, text = String.singleton p) ∨ text ∈ plainPuncts ∧ next.all isCalm = true
  | string text => hasLineBreak text = false
  | number text => (∃ c ∈ text.toList.head?, c ≠ '0') ∧ (∀ c ∈ text.toList, c.isDigit = true) ∧
      next.all endsNumber = true
  | eof => next = none

/-- The token is read as it is written if this character follows, as one computes it. -/
def isClear (next : Option Char) : Glyph → Bool
  | word text => text.toList.head?.any (fun c => startsWord c && !isTrivia c) && text.toList.tail.all continuesWord &&
      next.all fun c => !continuesWord c && c != '\\'
  | punct text => solitary.any (text == String.singleton ·) || plainPuncts.contains text && next.all isCalm
  | string text => !hasLineBreak text
  | number text => text.toList.head?.any (· != '0') && text.toList.all Char.isDigit && next.all endsNumber
  | eof => next.isNone

theorem isClear_iff {next : Option Char} {g : Glyph} : g.isClear next = true ↔ g.Clear next := by
  cases g with
  | word text => simp [isClear, Clear, Option.any_eq_true, Option.all_eq_true, and_assoc]
  | punct text => simp [isClear, Clear]
  | string text => simp [isClear, Clear]
  | number text => simp [isClear, Clear, Option.any_eq_true, and_assoc]
  | eof => simp [isClear, Clear]

instance (next : Option Char) (g : Glyph) : Decidable (g.Clear next) :=
  decidable_of_iff _ isClear_iff

end Glyph

/-- A token that is clear of what follows is read as it is written. -/
theorem readToken?_glyph {g : Glyph} {cs : List Char} (h : g.Clear cs.head?) :
    readToken? (g.chars ++ cs) = some (g.kind, cs) := by
  cases g with
  | word text =>
    obtain ⟨⟨c, hc, hstart, -⟩, htail, hnext⟩ := h
    obtain ⟨rest, htext⟩ := List.head?_eq_some_iff.mp hc
    have hrest : ∀ d ∈ rest, continuesWord d = true := by simpa [htext] using htail
    have hread := readToken?_word hstart hrest hnext
    rw [← htext, String.ofList_toList] at hread
    exact hread
  | punct text =>
    rcases h with ⟨p, hp, rfl⟩ | ⟨hplain, hnext⟩
    · simpa [Glyph.chars, Glyph.kind] using (readToken?_solitary hp cs).1
    · exact readToken?_plainPunct hplain hnext
  | string text =>
    have hread := readToken?_quote text cs
    rwa [if_neg (by rw [show hasLineBreak text = false from h]; decide)] at hread
  | number text =>
    obtain ⟨⟨c, hc, hzero⟩, hdigits, hnext⟩ := h
    obtain ⟨rest, htext⟩ := List.head?_eq_some_iff.mp hc
    rw [htext] at hdigits
    have hdigit := hdigits c List.mem_cons_self
    have hread := readNumber?_digits hdigits hzero hnext
    rw [← htext, String.ofList_toList, htext, List.cons_append] at hread
    rw [Glyph.chars, htext, List.cons_append, readToken?, if_neg (by rw [(isDigit_start hdigit).2.1]; decide),
      if_pos (by simp [hdigit])]
    exact hread
  | eof =>
    cases cs with
    | nil => rfl
    | cons c cs => cases h

/-- A token that is clear of what follows is not passed over. -/
theorem Glyph.Clear.head? {g : Glyph} {cs : List Char} (h : g.Clear cs.head?) :
    ∀ c ∈ (g.chars ++ cs).head?, isTrivia c = false ∧ c ≠ '/' ∧ c ≠ '#' := by
  cases g with
  | word text =>
    obtain ⟨⟨c, hc, hstart, htrivia⟩, -, -⟩ := h
    obtain ⟨rest, htext⟩ := List.head?_eq_some_iff.mp hc
    rintro d hd
    obtain rfl : c = d := by simpa [Glyph.chars, htext] using hd
    refine ⟨htrivia, ?_, ?_⟩ <;>
    · rintro rfl
      exact absurd hstart (by decide)
  | punct text =>
    rcases h with ⟨p, hp, rfl⟩ | ⟨hplain, -⟩
    · rintro d hd
      obtain rfl : p = d := by simpa [Glyph.chars] using hd
      refine ⟨(readToken?_solitary hp cs).2.1, (readToken?_solitary hp cs).2.2, ?_⟩
      rintro rfl
      exact absurd hp (by decide)
    · obtain ⟨c, more, htext, -, -, -, -, -, hstart, -⟩ := plainPuncts_start text hplain
      rintro d hd
      obtain rfl : c = d := by simpa [Glyph.chars, htext] using hd
      exact hstart
  | string text =>
    rintro d hd
    obtain rfl : '"' = d := by simpa [Glyph.chars, quote] using hd
    decide
  | number text =>
    obtain ⟨⟨c, hc, -⟩, hdigits, -⟩ := h
    obtain ⟨rest, htext⟩ := List.head?_eq_some_iff.mp hc
    rintro d hd
    obtain rfl : c = d := by simpa [Glyph.chars, htext] using hd
    exact (isDigit_start (hdigits c (by simp [htext]))).2.2.1
  | eof =>
    obtain rfl : cs = [] := by simpa [Glyph.Clear] using h
    simp [Glyph.chars]

/-! ## Rows -/

/-- A token as it is written, with the white space before it. -/
structure Lexeme where
  gap : List Char
  glyph : Glyph
  deriving DecidableEq, Inhabited, Repr

/-- The token of a lexeme. -/
def Lexeme.kind (l : Lexeme) : TokenKind := l.glyph.kind

@[simp] theorem Lexeme.kind_word (gap : List Char) (text : String) :
    (Lexeme.mk gap (.word text)).kind = .word text false := rfl

@[simp] theorem Lexeme.kind_punct (gap : List Char) (text : String) :
    (Lexeme.mk gap (.punct text)).kind = .punct text := rfl

@[simp] theorem Lexeme.kind_string (gap : List Char) (text : String) :
    (Lexeme.mk gap (.string text)).kind = .string (quotedLit text) := rfl

@[simp] theorem Lexeme.kind_number (gap : List Char) (text : String) :
    (Lexeme.mk gap (.number text)).kind = .number text := rfl

@[simp] theorem Lexeme.kind_eof (gap : List Char) : (Lexeme.mk gap .eof).kind = .eof := rfl

/-- Whether a line ends before the token. -/
def Lexeme.breaks (l : Lexeme) : Bool := l.gap.contains '\n'

/-- The text of a lexeme. -/
def Lexeme.chars (l : Lexeme) : List Char := l.gap ++ l.glyph.chars

/-- The text of a row. -/
def rowChars (ls : List Lexeme) : List Char := ls.flatMap Lexeme.chars

@[simp] theorem rowChars_nil : rowChars [] = [] := rfl

@[simp] theorem rowChars_cons (l : Lexeme) (ls : List Lexeme) : rowChars (l :: ls) = l.chars ++ rowChars ls := rfl

@[simp] theorem rowChars_append (xs ys : List Lexeme) : rowChars (xs ++ ys) = rowChars xs ++ rowChars ys :=
  List.flatMap_append

/-- White space of rows: spaces and line feeds. -/
def isGap (c : Char) : Bool :=
  c == ' ' || c == '\n'

/-- No token of a row runs into the next one, or into what follows the row. -/
def Spelled (next : Option Char) : List Lexeme → Prop
  | [] => True
  | l :: ls => l.gap.all isGap = true ∧ l.glyph.Clear ((rowChars ls).head?.or next) ∧ Spelled next ls

/-- No token of a row runs into what follows, as one computes it. -/
def isSpelled (next : Option Char) : List Lexeme → Bool
  | [] => true
  | l :: ls => l.gap.all isGap && l.glyph.isClear ((rowChars ls).head?.or next) && isSpelled next ls

theorem isSpelled_iff {next : Option Char} {ls : List Lexeme} : isSpelled next ls = true ↔ Spelled next ls := by
  induction ls with
  | nil => simp [isSpelled, Spelled]
  | cons l ls ih => simp only [isSpelled, Spelled, Bool.and_eq_true, Glyph.isClear_iff, ih, and_assoc]

instance (next : Option Char) (ls : List Lexeme) : Decidable (Spelled next ls) :=
  decidable_of_iff _ isSpelled_iff

theorem spelled_append {next : Option Char} {xs ys : List Lexeme} :
    Spelled next (xs ++ ys) ↔ Spelled ((rowChars ys).head?.or next) xs ∧ Spelled next ys := by
  induction xs with
  | nil => simp [Spelled]
  | cons l xs ih =>
    simp only [List.cons_append, Spelled, ih, rowChars_append, List.head?_append, Option.or_assoc, and_assoc]

/-! ## A parser in a row -/

/-- What surrounds a row: the source, and what the place in it allows. -/
structure Setting where
  dialect : Dialect
  scope : Scope
  source : List Char

/-- The state of a parser with a lexeme at hand, between these parts of the source. -/
def Lexeme.state (l : Lexeme) (c : Setting) (before behind : List Char) : ParseState where
  dialect := c.dialect
  scope := c.scope
  size := c.source.length
  token := {
    kind := l.kind
    start := byteLength (before ++ l.gap)
    stop := byteLength (before ++ l.chars)
    newlineBefore := l.breaks }
  here := ⟨byteLength (before ++ l.gap), l.glyph.chars ++ behind⟩
  next := ⟨byteLength (before ++ l.chars), behind⟩
  lastStop := byteLength before
  comments := { sawNewline := false, awaitsValue := l.kind == .punct "=" || l.kind == .punct "(" }

/-- A parser has the first lexeme of a row at hand, with which the source ends. -/
def Stands (c : Setting) (ls : List Lexeme) (s : ParseState) : Prop :=
  ∃ before l behind, ls = l :: behind ∧ c.source = before ++ rowChars ls ∧ Spelled none ls ∧
    s = l.state c before (rowChars behind)

/-- White space is passed over up to a token. -/
theorem skipTrivia_gap {gap cs : List Char} (hgap : gap.all isGap = true)
    (hcs : ∀ c ∈ cs.head?, isTrivia c = false ∧ c ≠ '/' ∧ c ≠ '#') {fuel : Nat} (hfuel : gap.length < fuel)
    (newline : Bool)
    {comments : CommentState} (hpending : comments.pending = []) (offset : Nat) : ∃ sawNewline,
    skipTrivia fuel newline comments ⟨offset, gap ++ cs⟩ =
      some (newline || gap.contains '\n', { comments with sawNewline }, ⟨offset + byteLength gap, cs⟩) := by
  induction gap generalizing fuel newline comments offset with
  | nil =>
    obtain ⟨fuel, rfl⟩ := Nat.exists_eq_succ_of_ne_zero (Nat.ne_of_gt (Nat.zero_lt_of_lt hfuel))
    refine ⟨comments.sawNewline, ?_⟩
    cases cs with
    | nil => simp [skipTrivia]
    | cons c cs =>
      obtain ⟨htrivia, hslash, -⟩ := hcs c rfl
      obtain ⟨hline, hspace⟩ : isLineEnd c = false ∧ isSpace c = false := by simpa [isTrivia] using htrivia
      unfold skipTrivia
      dsimp only [List.nil_append]
      split
      · rename_i heq
        exact absurd (List.cons.inj heq).1 hslash
      · rename_i heq
        exact absurd (List.cons.inj heq).1 hslash
      · rename_i heq
        obtain ⟨rfl, rfl⟩ := List.cons.inj heq
        simp [hline, hspace]
      · rename_i heq
        cases heq
  | cons c gap ih =>
    obtain ⟨fuel, rfl⟩ := Nat.exists_eq_succ_of_ne_zero (Nat.ne_of_gt (Nat.zero_lt_of_lt hfuel))
    obtain ⟨hc, hgap⟩ : isGap c = true ∧ gap.all isGap = true := by simpa using hgap
    have hless : gap.length < fuel := Nat.lt_of_succ_lt_succ hfuel
    rcases (by simpa [isGap] using hc : c = ' ' ∨ c = '\n') with rfl | rfl
    · obtain ⟨saw, h⟩ := ih hgap hless newline hpending (offset + 1)
      refine ⟨saw, ?_⟩
      rw [List.cons_append, skipTrivia]
      simpa [isLineEnd, isSpace, Cursor.skip, byteLength, Nat.add_assoc, Char.utf8Size] using h
    · have hnewline : comments.newline = { comments with sawNewline := true } := by
        rw [CommentState.newline, hpending]
      have hpending' : comments.newline.pending = [] := by
        rw [hnewline]
        exact hpending
      obtain ⟨saw, h⟩ := ih hgap hless true hpending' (offset + 1)
      refine ⟨saw, ?_⟩
      rw [hnewline] at h
      rw [List.cons_append, skipTrivia]
      simpa [isLineEnd, Cursor.skip, byteLength, Nat.add_assoc, Char.utf8Size, hnewline] using h

/-- A parser that has met no comments goes on to the first lexeme of the row that follows. -/
theorem advance_row {s : ParseState} {c : Setting} {before : List Char} {l : Lexeme} {ls : List Lexeme}
    (hdialect : s.dialect = c.dialect) (hscope : s.scope = c.scope) (hsize : s.size = c.source.length)
    (hspelled : Spelled none (l :: ls))
    (hnext : s.next = ⟨byteLength before, rowChars (l :: ls)⟩) (hstop : s.token.stop = byteLength before)
    (hsettled : s.comments.settled = []) (hpending : s.comments.pending = []) :
    advance s = some ((), l.state c before (rowChars ls)) := by
  obtain ⟨hgap, hclear, -⟩ := hspelled
  rw [Option.or_none] at hclear
  have hlong : l.gap.length < s.next.rest.length + 1 := by simp [hnext, Lexeme.chars]
  obtain ⟨saw, hskip⟩ := skipTrivia_gap hgap hclear.head? hlong false hpending (byteLength before)
  have htext : rowChars (l :: ls) = l.gap ++ (l.glyph.chars ++ rowChars ls) := by
    simp [Lexeme.chars]
  rw [htext] at hnext
  unfold advance advanceBy
  dsimp only
  rw [hnext] at hskip ⊢
  rw [hskip]
  simp only [Option.bind_eq_bind, Option.bind_some, placeToken, readToken?_glyph hclear]
  simp [Lexeme.state, Lexeme.kind, hdialect, hscope, hsize, hstop, Cursor.upTo, Cursor.skip, Lexeme.chars,
    CommentState.token,
    hsettled, hpending, Lexeme.breaks, Nat.add_assoc]

/-- A parser goes on from one lexeme to the next one. -/
theorem Stands.advance {c : Setting} {l next : Lexeme} {ls : List Lexeme} {s : ParseState}
    (h : Stands c (l :: next :: ls) s) : ∃ s', advance s = some ((), s') ∧ Stands c (next :: ls) s' := by
  obtain ⟨before, l, behind, heq, hsource, hspelled, rfl⟩ := h
  obtain ⟨rfl, rfl⟩ := List.cons.inj heq
  have hsource' : c.source = (before ++ l.chars) ++ rowChars (next :: ls) := by simpa using hsource
  exact ⟨_, advance_row rfl rfl rfl hspelled.2.2 rfl rfl rfl rfl, before ++ l.chars, next, ls, rfl,
    hsource', hspelled.2.2, rfl⟩

/-- A parser starts with the first lexeme of a row that is the whole source. -/
theorem advance_start {dialect : Dialect} {l : Lexeme} {ls : List Lexeme} (h : Spelled none (l :: ls)) : ∃ s,
    advance (ParseState.start dialect (rowChars (l :: ls))) = some ((), s) ∧
      Stands ⟨dialect, { isAsync := dialect.isModule }, rowChars (l :: ls)⟩ (l :: ls) s := by
  have hhead : ∀ c ∈ (rowChars (l :: ls)).head?, c ≠ '\ufeff' ∧ c ≠ '#' := by
    intro c hc
    obtain ⟨hgap, hclear, -⟩ := h
    rw [Option.or_none] at hclear
    cases hg : l.gap with
    | nil =>
      obtain ⟨htrivia, -, hhash⟩ := hclear.head? c (by simpa [Lexeme.chars, hg] using hc)
      refine ⟨?_, hhash⟩
      rintro rfl
      exact absurd htrivia (by decide)
    | cons d gap =>
      obtain rfl : d = c := by simpa [Lexeme.chars, hg] using hc
      have hd : isGap d = true := by simpa using List.all_eq_true.mp hgap d (by simp [hg])
      rcases (by simpa [isGap] using hd : d = ' ' ∨ d = '\n') with rfl | rfl <;> decide
  have hmark : ((rowChars (l :: ls)).takeWhile (· == '\ufeff')).take 1 = [] := by
    cases htext : rowChars (l :: ls) with
    | nil => rfl
    | cons c cs => simp [(hhead c (by simp [htext])).1]
  have hbang : hashbang? (rowChars (l :: ls)) = none := by
    unfold hashbang?
    split
    · rename_i heq
      exact absurd rfl (hhead '#' (by simp [heq])).2
    · rfl
  have hnext : (ParseState.start dialect (rowChars (l :: ls))).next = ⟨0, rowChars (l :: ls)⟩ := by
    simp only [ParseState.start, hmark, List.length_nil, List.drop_zero, hbang, Cursor.skip, byteLength_nil,
      Nat.add_zero]
  have hsource : rowChars (l :: ls) = [] ++ rowChars (l :: ls) := rfl
  have hrun : advance (ParseState.start dialect (rowChars (l :: ls))) =
      some ((), l.state ⟨dialect, { isAsync := dialect.isModule }, rowChars (l :: ls)⟩ [] (rowChars ls)) :=
    advance_row rfl rfl rfl h hnext rfl rfl rfl
  exact ⟨_, hrun, [], l, ls, rfl, hsource, h, rfl⟩

end ModuleBuild.Script
