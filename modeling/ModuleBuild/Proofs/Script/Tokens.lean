import Mathlib
import ModuleBuild.Script.Parse.Basic

/-!
# Texts as rows of tokens

A text reads as a row of tokens. What the tokens of a text are is said for the text behind a point, so that
the tokens of a text that was made of words and punctuation are found from its end on.

## Main definitions

* `tokens?` — the tokens of a text.
* `IsName` — a text is one word.
* `Reads` — what the tokens of a text are.
* `PlainToken` — how words, punctuation and strings are read.

## Main statements

* `Reads.word` — a name in front of a text is read first.
* `isName_iff` — the characters of names.
* `isName_of_readTokens?` — a word that is written without escapes is a name.
-/

namespace ModuleBuild.Script

open Text

/-! ## Rows of tokens -/

/-- The text behind white space and comments. -/
def skip? (cs : List Char) : Option (List Char) :=
  (skipTrivia (cs.length + 1) false {} ⟨0, cs⟩).map (·.2.2.rest)

/-- Reads tokens up to the end of a text; `fuel` bounds their number. -/
def readTokens? : Nat → List Char → Option (List TokenKind)
  | 0, _ => none
  | fuel + 1, cs => do
    let (kind, rest) ← readToken? (← skip? cs)
    if kind = .eof then return []
    else return kind :: (← readTokens? fuel rest)

/-- The tokens of a text. -/
def tokens? (text : String) : Option (List TokenKind) :=
  readTokens? (text.toList.length + 1) text.toList

/-! ## White space -/

/-- Whether a character is passed over between tokens. -/
def isTrivia (c : Char) : Bool :=
  isLineEnd c || isSpace c

theorem rest_skipTrivia {n m : Nat} {cs : List Char} (hn : cs.length < n) (hm : cs.length < m)
    (newline newline' : Bool) (comments comments' : CommentState) (offset offset' : Nat) :
    (skipTrivia n newline comments ⟨offset, cs⟩).map (·.2.2.rest) =
      (skipTrivia m newline' comments' ⟨offset', cs⟩).map (·.2.2.rest) := by
  induction n generalizing m cs newline newline' comments comments' offset offset' with
  | zero => omega
  | succ n ih =>
    obtain ⟨m, rfl⟩ := Nat.exists_eq_succ_of_ne_zero (Nat.ne_of_gt (Nat.zero_lt_of_lt hm))
    unfold skipTrivia
    dsimp only
    split
    · rename_i rest
      refine ih ?_ ?_ .. <;> simp at hn hm ⊢ <;> omega
    · rename_i rest
      cases hbody : readBlockComment rest with
      | none => rfl
      | some body => 
        refine ih ?_ ?_ .. <;> simp at hn hm ⊢ <;> omega
    · rename_i c rest hline hblock
      split
      · refine ih ?_ ?_ .. <;> simp at hn hm ⊢ <;> omega
      split
      · refine ih ?_ ?_ .. <;> simp at hn hm ⊢ <;> omega
      · rfl
    · rfl

theorem skip?_cons_of_isTrivia {c : Char} (hc : isTrivia c = true) (hslash : c ≠ '/') (cs : List Char) :
    skip? (c :: cs) = skip? cs := by
  have hstep : skipTrivia (cs.length + 2) false {} ⟨0, c :: cs⟩ =
      if isLineEnd c then skipTrivia (cs.length + 1) true {} (Cursor.skip ⟨0, c :: cs⟩ [c])
      else skipTrivia (cs.length + 1) false {} (Cursor.skip ⟨0, c :: cs⟩ [c]) := by
    conv_lhs => unfold skipTrivia
    dsimp only
    split
    · rename_i heq
      exact absurd (List.cons.inj heq).1 hslash
    · rename_i heq
      exact absurd (List.cons.inj heq).1 hslash
    · rename_i heq
      obtain ⟨rfl, rfl⟩ := List.cons.inj heq
      split
      · rfl
      · rename_i hline
        rw [if_pos (by simpa [isTrivia, hline] using hc)]
    · rename_i heq
      cases heq
  unfold skip?
  rw [List.length_cons, hstep]
  split <;> exact rest_skipTrivia (Nat.lt_succ_self _) (Nat.lt_succ_self _) ..

/-- A text that starts with no white space and no comment stays. -/
theorem skip?_cons {c : Char} (hc : isTrivia c = false) (hslash : c ≠ '/') (cs : List Char) :
    skip? (c :: cs) = some (c :: cs) := by
  obtain ⟨hline, hspace⟩ : isLineEnd c = false ∧ isSpace c = false := by simpa [isTrivia] using hc
  unfold skip? skipTrivia
  dsimp only
  split
  · rename_i heq
    exact absurd (List.cons.inj heq).1 hslash
  · rename_i heq
    exact absurd (List.cons.inj heq).1 hslash
  · rename_i heq
    obtain ⟨rfl, rfl⟩ := List.cons.inj heq
    rw [if_neg (by simp [hline]), if_neg (by simp [hspace])]
    rfl
  · rename_i heq
    cases heq

/-- What is left is the end of the text, and does not start with white space. -/
theorem of_skipTrivia {n : Nat} {newline : Bool} {comments : CommentState} {cursor : Cursor}
    {answer : Bool × CommentState × Cursor} (h : skipTrivia n newline comments cursor = some answer) :
    answer.2.2.rest <:+ cursor.rest ∧ ∀ c ∈ answer.2.2.rest.head?, isTrivia c = false := by
  induction n generalizing newline comments cursor with
  | zero => cases h
  | succ n ih =>
    have hstep {newline : Bool} {comments : CommentState} {text : List Char}
        (h : skipTrivia n newline comments (cursor.skip text) = some answer) :
        answer.2.2.rest <:+ cursor.rest ∧ ∀ c ∈ answer.2.2.rest.head?, isTrivia c = false := by
      obtain ⟨hsuffix, hhead⟩ := ih h
      exact ⟨hsuffix.trans (List.drop_suffix _ _), hhead⟩
    unfold skipTrivia at h
    split at h
    · exact hstep h
    · split at h
      · exact hstep h
      · cases h
    · rename_i c rest _ _ hrest
      split at h
      · exact hstep h
      rename_i hline
      split at h
      · exact hstep h
      rename_i hspace
      obtain rfl := Option.some.inj h
      refine ⟨List.suffix_refl _, fun d hd => ?_⟩
      have hd : c = d := by simpa [hrest] using hd
      subst hd
      simp [isTrivia, hline, hspace]
    · rename_i hrest
      obtain rfl := Option.some.inj h
      refine ⟨List.suffix_refl _, fun d hd => ?_⟩
      simp [hrest] at hd

theorem of_skip? {cs rest : List Char} (h : skip? cs = some rest) :
    rest <:+ cs ∧ ∀ c ∈ rest.head?, isTrivia c = false := by
  obtain ⟨answer, hanswer, rfl⟩ := Option.map_eq_some_iff.1 h
  exact of_skipTrivia hanswer

/-! ## Words -/

/-- A name: a text that is one word. -/
def IsName (text : String) : Prop :=
  tokens? text = some [.word text false]

instance (text : String) : Decidable (IsName text) :=
  inferInstanceAs (Decidable (_ = _))

/-- No word goes on with a text. -/
def EndsWord (cs : List Char) : Prop :=
  ∀ c ∈ cs.head?, continuesWord c = false ∧ c ≠ '\\'

theorem readWordChars_nil (fuel : Nat) (first : Bool) {cs : List Char}
    (h : ∀ c ∈ cs.head?, (if first then startsWord c else continuesWord c) = false ∧ c ≠ '\\') :
    readWordChars fuel first cs = ([], false, cs) := by
  unfold readWordChars
  split
  · exact absurd rfl (h _ rfl).2
  · rename_i c rest _
    rw [if_neg (by simp [(h c rfl).1])]
  · rfl

theorem readWordChars_cons (fuel : Nat) (first : Bool) {c : Char}
    (h : (if first then startsWord c else continuesWord c) = true) (hc : c ≠ '\\') (cs : List Char) :
    readWordChars (fuel + 1) first (c :: cs) =
      (c :: (readWordChars fuel false cs).1, (readWordChars fuel false cs).2) := by
  rw [readWordChars, if_pos h]
  exact fun _ hslash => absurd hslash hc

theorem ne_backslash_of_continuesWord {c : Char} (h : continuesWord c = true) : c ≠ '\\' := by
  rintro rfl
  exact absurd h (by decide)

theorem ne_backslash_of_startsWord {c : Char} (h : startsWord c = true) : c ≠ '\\' := by
  rintro rfl
  exact absurd h (by decide)

theorem readWordChars_append {word : List Char} (hword : ∀ c ∈ word, continuesWord c = true) {cs : List Char}
    (hcs : EndsWord cs) {fuel : Nat} (hfuel : word.length ≤ fuel) :
    readWordChars fuel false (word ++ cs) = (word, false, cs) := by
  induction word generalizing fuel with
  | nil => exact readWordChars_nil fuel false hcs
  | cons c rest ih =>
    have hpos : fuel ≠ 0 := Nat.ne_of_gt (Nat.lt_of_lt_of_le (Nat.succ_pos _) hfuel)
    obtain ⟨fuel, rfl⟩ := Nat.exists_eq_succ_of_ne_zero hpos
    have hc := hword c List.mem_cons_self
    rw [List.cons_append, readWordChars_cons fuel false hc (ne_backslash_of_continuesWord hc),
      ih (fun d hd => hword d (List.mem_cons_of_mem c hd)) (Nat.le_of_succ_le_succ hfuel)]

/-- A word is read up to its end. -/
theorem readToken?_word {c : Char} {word : List Char} (hc : startsWord c = true)
    (hword : ∀ d ∈ word, continuesWord d = true) {cs : List Char} (hcs : EndsWord cs) :
    readToken? (c :: word ++ cs) = some (.word (String.ofList (c :: word)) false, cs) := by
  have hread : readWordChars ((c :: word ++ cs).length + 1) true (c :: word ++ cs) =
      (c :: word, false, cs) := by
    rw [List.cons_append, readWordChars_cons _ true hc (ne_backslash_of_startsWord hc),
      readWordChars_append hword hcs (by simp [Nat.add_assoc])]
  rw [List.cons_append, readToken?, if_pos (by simp [hc]), ← List.cons_append, readWord?, hread]
  rfl

/-! ## Reading on -/

/-- What the tokens of a text are, whatever the bound of their number is. -/
def Reads (cs : List Char) (tokens : Option (List TokenKind)) : Prop :=
  ∀ fuel, cs.length < fuel → readTokens? fuel cs = tokens

namespace Reads

variable {cs : List Char} {tokens : Option (List TokenKind)}

theorem tokens?_eq {text : String} (h : Reads text.toList tokens) : tokens? text = tokens :=
  h _ (Nat.lt_succ_self _)

theorem nil : Reads [] (some []) := by
  rintro (_ | fuel) hfuel
  · cases hfuel
  · rfl

theorem trivia {c : Char} (hc : isTrivia c = true) (hslash : c ≠ '/') (h : Reads cs tokens) :
    Reads (c :: cs) tokens := by
  rintro (_ | fuel) hfuel
  · cases hfuel
  · rw [← h (fuel + 1) (Nat.lt_of_succ_lt hfuel), readTokens?, readTokens?, skip?_cons_of_isTrivia hc hslash]

theorem token {rest : List Char} {k : TokenKind} (hskip : skip? cs = some cs)
    (hread : readToken? cs = some (k, rest)) (hk : k ≠ .eof) (hlt : rest.length < cs.length)
    (h : Reads rest tokens) : Reads cs (tokens.map (k :: ·)) := by
  rintro (_ | fuel) hfuel
  · cases hfuel
  · rw [readTokens?, hskip, Option.bind_eq_bind, Option.bind_some, hread, Option.bind_eq_bind, Option.bind_some]
    dsimp only
    rw [if_neg hk, h fuel (by omega)]
    cases tokens <;> rfl

theorem none (hskip : skip? cs = some cs) (hread : readToken? cs = .none) : Reads cs .none := by
  rintro (_ | fuel) hfuel
  · cases hfuel
  · rw [readTokens?, hskip, Option.bind_eq_bind, Option.bind_some, hread]
    rfl

end Reads

/-! ## Kinds of tokens -/

/-- Words, punctuation, and strings that have a value. -/
def TokenKind.isPlain : TokenKind → Bool
  | .word .. | .punct _ => true
  | .string lit => !lit.hasLoneSurrogate
  | _ => false

/-- A reader finds no plain tokens. -/
def NeverPlain (answer : Option (TokenKind × List Char)) : Prop :=
  ∀ k rest, answer = some (k, rest) → k.isPlain = false

namespace NeverPlain

theorem none : NeverPlain .none := fun _ _ h => nomatch h

theorem some {k : TokenKind} {rest : List Char} (h : k.isPlain = false) : NeverPlain (.some (k, rest)) := by
  intro k' rest' heq
  obtain ⟨rfl, rfl⟩ := Prod.mk.inj (Option.some.inj heq)
  exact h

theorem bind {α : Type} {x : Option α} {f : α → Option (TokenKind × List Char)}
    (h : ∀ a, NeverPlain (f a)) : NeverPlain (x >>= f) := by
  intro k rest heq
  obtain ⟨a, -, heq⟩ := Option.bind_eq_some_iff.1 heq
  exact h a k rest heq

theorem whole (text rest : List Char) : NeverPlain (.some (readNumber?.whole text rest)) := by
  unfold readNumber?.whole
  split <;> exact some rfl

theorem number (cs : List Char) : NeverPlain (readNumber?.number cs) := by
  unfold readNumber?.number
  split
  · split
    · exact bind fun _ => whole _ _
    split
    · dsimp only
      split
      · exact none
      split
      · exact some rfl
      · exact bind fun _ => some rfl
    split
    · exact some rfl
    · exact bind fun _ => some rfl
  · exact bind fun _ => some rfl
  · refine bind fun _ => ?_
    dsimp only
    split
    · exact whole _ _
    · exact bind fun _ => some rfl

theorem readNumber? (cs : List Char) : NeverPlain (readNumber? cs) := by
  unfold Script.readNumber?
  intro k rest h
  obtain ⟨⟨kind, tail⟩, hnumber, h⟩ := Option.bind_eq_some_iff.1 h
  refine number cs k tail ?_
  rw [hnumber]
  dsimp only at h
  split at h
  · split at h
    · cases h
    · rw [(Prod.mk.inj (Option.some.inj h)).1]
  · rw [(Prod.mk.inj (Option.some.inj h)).1]

end NeverPlain


/-- Plain tokens are read in three ways. -/
inductive PlainToken (cs : List Char) : TokenKind → List Char → Prop
  | word {text : String} {escaped : Bool} {rest : List Char}
    (read_eq : readWord? cs = some (text, escaped, rest)) : PlainToken cs (.word text escaped) rest
  | string {quote : Char} {inside : List Char} {lit : StringLit} {rest : List Char}
    (cs_eq : cs = quote :: inside) (quote_eq : quote = '"' ∨ quote = '\'')
    (read_eq : readString? quote inside = some (lit, rest)) (value : lit.hasLoneSurrogate = false) :
    PlainToken cs (.string lit) rest
  | punct {text : String} {rest : List Char} (cs_eq : cs = text.toList ++ rest) :
    PlainToken cs (.punct text) rest

theorem readPunct?_eq {cs rest : List Char} {k : TokenKind} (h : readPunct? cs = some (k, rest)) :
    ∃ text : String, k = .punct text ∧ cs = text.toList ++ rest := by
  unfold readPunct? at h
  split at h
  · split at h
    all_goals
      obtain ⟨rfl, rfl⟩ := Prod.mk.inj (Option.some.inj h)
      exact ⟨_, rfl, rfl⟩
  · obtain ⟨p, hp, h⟩ := Option.bind_eq_some_iff.1 h
    obtain ⟨rfl, rfl⟩ := Prod.mk.inj (Option.some.inj h)
    have hprefix := List.find?_some hp
    obtain ⟨behind, rfl⟩ := List.isPrefixOf_iff_prefix.1 hprefix
    exact ⟨p, rfl, by rw [← String.length_toList, List.drop_left]⟩

theorem PlainToken.of_readToken? {cs rest : List Char} {k : TokenKind} (h : readToken? cs = some (k, rest))
    (hk : k.isPlain = true) : PlainToken cs k rest := by
  unfold readToken? at h
  split at h
  · obtain ⟨rfl, rfl⟩ := Prod.mk.inj (Option.some.inj h)
    cases hk
  rename_i c inside
  split at h
  · obtain ⟨⟨text, escaped, tail⟩, hread, heq⟩ := Option.map_eq_some_iff.1 h
    obtain ⟨rfl, rfl⟩ := Prod.mk.inj heq
    exact .word hread
  split at h
  · rw [NeverPlain.readNumber? _ _ _ h] at hk
    cases hk
  split at h
  · rename_i hquote
    obtain ⟨⟨lit, tail⟩, hread, heq⟩ := Option.map_eq_some_iff.1 h
    obtain ⟨rfl, rfl⟩ := Prod.mk.inj heq
    exact .string rfl (by simpa using hquote) hread (by simpa [TokenKind.isPlain] using hk)
  split at h
  · obtain ⟨⟨raw, valid, last, tail⟩, -, heq⟩ := Option.bind_eq_some_iff.1 h
    obtain ⟨rfl, rfl⟩ := Prod.mk.inj (Option.some.inj heq)
    cases hk
  split at h
  · obtain ⟨⟨text, escaped, tail⟩, -, heq⟩ := Option.map_eq_some_iff.1 h
    obtain ⟨rfl, rfl⟩ := Prod.mk.inj heq
    cases hk
  · obtain ⟨text, rfl, hcs⟩ := readPunct?_eq h
    exact .punct hcs


/-! ## Names -/

/-- The characters of a word. -/
structure WordChars (c : Char) (word : List Char) : Prop where
  starts : startsWord c = true
  inked : isTrivia c = false
  continues : ∀ d ∈ word, continuesWord d = true

theorem WordChars.reads {c : Char} {word : List Char} (h : WordChars c word) {cs : List Char}
    {tokens : Option (List TokenKind)} (hcs : EndsWord cs) (hreads : Reads cs tokens) :
    Reads (c :: word ++ cs) (tokens.map (.word (String.ofList (c :: word)) false :: ·)) := by
  have hslash : c ≠ '/' := by
    rintro rfl
    exact absurd h.starts (by decide)
  refine hreads.token (skip?_cons h.inked hslash _) (readToken?_word h.starts h.continues hcs) nofun ?_
  rw [List.length_append, List.length_cons]
  omega

theorem continues_readWordChars (fuel : Nat) (first : Bool) (cs : List Char) {c : Char} {word : List Char}
    (h : (readWordChars fuel first cs).1 = c :: word) :
    (if first then startsWord c else continuesWord c) = true ∧ ∀ d ∈ word, continuesWord d = true := by
  fun_induction readWordChars fuel first cs generalizing c word with
  | case1 | case4 =>
    rename_i hhead more _ tail hmore ih
    obtain ⟨rfl, rfl⟩ := List.cons.inj h
    refine ⟨hhead, ?_⟩
    rw [hmore] at ih
    cases more with
    | nil => exact nofun
    | cons d more =>
      obtain ⟨hd, hmore⟩ := ih rfl
      exact List.forall_mem_cons.2 ⟨hd, hmore⟩
  | _ => cases h

theorem readWordChars_eq (fuel : Nat) (first : Bool) (cs : List Char)
    (h : (readWordChars fuel first cs).2.1 = false) :
    cs = (readWordChars fuel first cs).1 ++ (readWordChars fuel first cs).2.2 := by
  fun_induction readWordChars fuel first cs with
  | case1 => cases h
  | case4 first fuel d rest _ hd more escaped tail hmore ih =>
    rw [hmore] at ih
    rw [List.cons_append, ← ih h]
  | _ => rfl

/-- A word that is written without escapes is a name. -/
theorem wordChars_of_readToken? {cs rest : List Char} {text : String}
    (h : readToken? cs = some (.word text false, rest)) (hcs : ∀ c ∈ cs.head?, isTrivia c = false) :
    cs = text.toList ++ rest ∧ ∃ c word, text.toList = c :: word ∧ WordChars c word := by
  cases PlainToken.of_readToken? h rfl with
  | word read_eq =>
    unfold readWord? at read_eq
    split at read_eq
    · cases read_eq
    rename_i word escaped tail hne hword
    obtain ⟨rfl, heq⟩ := Prod.mk.inj (Option.some.inj read_eq)
    obtain ⟨rfl, rfl⟩ := Prod.mk.inj heq
    have htext := readWordChars_eq (cs.length + 1) true cs (by rw [hword])
    rw [hword] at htext
    rw [String.toList_ofList]
    refine ⟨htext, ?_⟩
    cases word with
    | nil => exact (hne rfl).elim
    | cons c word =>
      obtain ⟨hstarts, hcontinues⟩ := continues_readWordChars (cs.length + 1) true cs (by rw [hword])
      exact ⟨c, word, rfl, hstarts, hcs c (by rw [htext]; rfl), hcontinues⟩

theorem isName_iff {text : String} : IsName text ↔ ∃ c word, text.toList = c :: word ∧ WordChars c word := by
  constructor
  · intro h
    obtain ⟨start, hstart, h⟩ := Option.bind_eq_some_iff.1 h
    obtain ⟨⟨k, rest⟩, hread, h⟩ := Option.bind_eq_some_iff.1 h
    dsimp only at h
    split at h
    · cases h
    · obtain ⟨more, -, h⟩ := Option.bind_eq_some_iff.1 h
      obtain ⟨rfl, -⟩ := List.cons.inj (Option.some.inj h)
      exact (wordChars_of_readToken? hread (of_skip? hstart).2).2
  · rintro ⟨c, word, htext, hword⟩
    have hreads : Reads (c :: word ++ []) _ := hword.reads nofun Reads.nil
    rw [List.append_nil, ← htext, String.ofList_toList] at hreads
    exact hreads.tokens?_eq

/-- A name in front of a text is read first, unless the text goes on with it. -/
theorem Reads.word {text : String} {cs : List Char} {tokens : Option (List TokenKind)} (h : IsName text)
    (hcs : EndsWord cs) (hreads : Reads cs tokens) :
    Reads (text.toList ++ cs) (tokens.map (.word text false :: ·)) := by
  obtain ⟨c, word, htext, hword⟩ := isName_iff.1 h
  have := hword.reads hcs hreads
  rwa [← htext, String.ofList_toList] at this

/-- Words that are written without escapes are names. -/
theorem isName_of_readTokens? {fuel : Nat} {cs : List Char} {ks : List TokenKind}
    (h : readTokens? fuel cs = some ks) {text : String} (hmem : .word text false ∈ ks) : IsName text := by
  induction fuel generalizing cs ks with
  | zero => cases h
  | succ fuel ih =>
    obtain ⟨start, hstart, h⟩ := Option.bind_eq_some_iff.1 h
    obtain ⟨⟨k, rest⟩, hread, h⟩ := Option.bind_eq_some_iff.1 h
    dsimp only at h
    split at h
    · obtain rfl := Option.some.inj h
      cases hmem
    · obtain ⟨more, hmore, h⟩ := Option.bind_eq_some_iff.1 h
      obtain rfl := Option.some.inj h
      rcases List.mem_cons.1 hmem with rfl | hmem
      · exact isName_iff.2 (wordChars_of_readToken? hread (of_skip? hstart).2).2
      · exact ih hmore hmem

end ModuleBuild.Script
