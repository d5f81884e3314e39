import ModuleBuild.Compile.FileState
import ModuleBuild.Proofs.Script.Strings

/-!
# String literals of strict code

The compiler writes texts as double-quoted literals in two ways, of which the one for module specifiers also
writes NUL as `\0`. Both should read back as the text in strict code. There no line break may stand in a
literal, and `\0` may not stand before a digit; neither way of writing takes care of that.

## Main definitions

* `strictLiteral?` — the value of a literal of strict code at the start of a text, and what follows it.
* `specifierLiteral` — the literal that an injected import has for its module.
* `hasZeroBeforeDigit` — a text has a NUL with a digit behind it.

## Main statements

* `readStringPoints_of_strict` — literals of strict code are strings, and read as such.
* `strictLiteral?_quoted` — which texts are read back.
-/

namespace ModuleBuild.Script

open Text

/-! ## Reading literals -/

/-- Reads a string of strict code up to its closing quote: its code points and what follows. Escapes are the
ones that templates have too, so that none is a number other than a zero that no digit follows. -/
def readStrictPoints (quote : Char) : Nat → List Char → Option (List Nat × List Char)
  | fuel + 1, '\\' :: rest =>
    if isTemplateEscape rest then do
      let (points, rest) ← readEscape? rest
      let (more, rest) ← readStrictPoints quote fuel rest
      return (points ++ more, rest)
    else none
  | fuel + 1, c :: rest =>
    if c == quote then some ([], rest)
    else if breaksString c then none
    else do
      let (more, rest) ← readStrictPoints quote fuel rest
      return (c.toNat :: more, rest)
  | _, _ => none

/-- The value of a double-quoted literal of strict code at the start of a text, and what follows it. There is
none if half of a pair of surrogates stands alone in the value. -/
def strictLiteral? : List Char → Option (String × List Char)
  | '"' :: cs => do
    let (points, rest) ← readStrictPoints '"' (cs.length + 1) cs
    let (value, hasLoneSurrogate) := textOfPoints points
    if hasLoneSurrogate then none else some (value, rest)
  | _ => none

/-- A string of strict code is a string. -/
theorem readStringPoints_of_strict {quote : Char} {fuel : Nat} {cs rest : List Char} {points : List Nat}
    (h : readStrictPoints quote fuel cs = some (points, rest)) :
    readStringPoints quote fuel cs = some (points, rest) := by
  induction fuel generalizing cs rest points with
  | zero => cases h
  | succ fuel ih =>
    cases cs with
    | nil => cases h
    | cons c cs =>
      by_cases hescape : c = '\\'
      · subst hescape
        rw [readStrictPoints] at h
        split at h
        · obtain ⟨⟨own, behind⟩, hown, h⟩ := Option.bind_eq_some_iff.1 h
          obtain ⟨⟨more, last⟩, hmore, h⟩ := Option.bind_eq_some_iff.1 h
          rw [readStringPoints, hown]
          change (readStringPoints quote fuel behind).bind _ = _
          rw [ih hmore]
          exact h
        · cases h
      · rw [readStrictPoints.eq_2 _ _ _ _ hescape] at h
        rw [readStringPoints.eq_2 _ _ _ _ hescape]
        split at h
        · rename_i hquote
          rwa [if_pos hquote]
        · rename_i hquote
          rw [if_neg hquote]
          split at h
          · cases h
          · rename_i hbreak
            rw [breaksString] at hbreak
            rw [if_neg hbreak]
            obtain ⟨⟨more, last⟩, hmore, h⟩ := Option.bind_eq_some_iff.1 h
            change (readStringPoints quote fuel cs).bind _ = _
            rw [ih hmore]
            exact h

/-! ## Characters that are written -/

/-- The characters of a text as a rule writes them. -/
def written (rule : Char → String) (text : List Char) : List Char :=
  text.flatMap fun c => (rule c).toList

/-- Whether a character of a text has a property together with what follows it. -/
def anyBefore (p : Char → List Char → Bool) : List Char → Bool
  | [] => false
  | c :: rest => p c rest || anyBefore p rest

theorem anyBefore_or (p q : Char → List Char → Bool) (text : List Char) :
    anyBefore (fun c rest => p c rest || q c rest) text = (anyBefore p text || anyBefore q text) := by
  induction text with
  | nil => rfl
  | cons c rest ih => simp [anyBefore, ih, Bool.or_assoc, Bool.or_left_comm]

theorem anyBefore_eq_any (p : Char → Bool) (text : List Char) :
    anyBefore (fun c _ => p c) text = text.any p := by
  induction text with
  | nil => rfl
  | cons c rest ih => rw [anyBefore, ih, List.any_cons]

/-- Whether a character is a NUL with a digit behind it. -/
def isZeroBeforeDigit (c : Char) (rest : List Char) : Bool :=
  c == '\x00' && rest.head?.any Char.isDigit

/-- Whether a text has a NUL with a digit behind it. -/
def hasZeroBeforeDigit (text : String) : Bool :=
  anyBefore isZeroBeforeDigit text.toList

/-- How a character is read that a rule has written, of which `fails` says when it is read as nothing. -/
def ReadsWritten (rule : Char → String) (fails : Char → List Char → Bool) : Prop :=
  ∀ (c : Char) (text cs : List Char) (fuel : Nat),
    readStrictPoints '"' (fuel + 1) ((rule c).toList ++ (written rule text ++ '"' :: cs)) =
      if fails c text then none
      else (readStrictPoints '"' fuel (written rule text ++ '"' :: cs)).map fun (points, rest) =>
        (c.toNat :: points, rest)

/-- A text that is written by a rule is read up to the quote behind it, unless one of its characters fails. -/
theorem readStrictPoints_written {rule : Char → String} {fails : Char → List Char → Bool}
    (hrule : ReadsWritten rule fails) (hpos : ∀ c, 0 < (rule c).toList.length) (text cs : List Char) {fuel : Nat}
    (hfuel : (written rule text).length < fuel) :
    readStrictPoints '"' fuel (written rule text ++ '"' :: cs) =
      if anyBefore fails text then none else some (text.map Char.toNat, cs) := by
  induction text generalizing fuel with
  | nil =>
    obtain ⟨fuel, rfl⟩ := Nat.exists_eq_succ_of_ne_zero (Nat.ne_of_gt (Nat.zero_lt_of_lt hfuel))
    rfl
  | cons c rest ih =>
    obtain ⟨fuel, rfl⟩ := Nat.exists_eq_succ_of_ne_zero (Nat.ne_of_gt (Nat.zero_lt_of_lt hfuel))
    have hone := hpos c
    have hcons : written rule (c :: rest) = (rule c).toList ++ written rule rest := List.flatMap_cons
    rw [hcons, List.length_append] at hfuel
    rw [hcons, List.append_assoc, hrule, ih (by omega), anyBefore]
    cases fails c rest <;> cases anyBefore fails rest <;> rfl

/-- A literal that is written by a rule has the text as its value, unless one of its characters fails. -/
theorem strictLiteral?_written {rule : Char → String} {fails : Char → List Char → Bool}
    (hrule : ReadsWritten rule fails) (hpos : ∀ c, 0 < (rule c).toList.length) (text : String) (cs : List Char) :
    strictLiteral? ('"' :: (written rule text.toList ++ '"' :: cs)) =
      if anyBefore fails text.toList then none else some (text, cs) := by
  have hfuel : (written rule text.toList).length < (written rule text.toList ++ '"' :: cs).length + 1 := by
    rw [List.length_append]
    omega
  rw [strictLiteral?, readStrictPoints_written hrule hpos text.toList cs hfuel]
  by_cases hfails : anyBefore fails text.toList = true
  · rw [if_pos hfails, if_pos hfails]
    rfl
  · rw [if_neg hfails, if_neg hfails]
    change (if (textOfPoints (text.toList.map Char.toNat)).2 then none
      else some ((textOfPoints (text.toList.map Char.toNat)).1, cs)) = _
    rw [textOfPoints_toNat, if_neg Bool.false_ne_true, String.ofList_toList]

/-! ## The two rules -/

/-- How a character is read with a backslash before it where it needs one. -/
theorem readStrictPoints_quoteRule (c : Char) (fuel : Nat) (behind : List Char) :
    readStrictPoints '"' (fuel + 1) ((quoteRule c).toList ++ behind) =
      if breaksString c then none
      else (readStrictPoints '"' fuel behind).map fun (points, rest) => (c.toNat :: points, rest) := by
  have hescaped (hrule : (quoteRule c).toList = ['\\', c]) (hvalid : isTemplateEscape (c :: behind) = true)
      (hread : readEscape? (c :: behind) = some ([c.toNat], behind)) (hbreak : breaksString c = false) :
      readStrictPoints '"' (fuel + 1) ((quoteRule c).toList ++ behind) =
        if breaksString c then none
        else (readStrictPoints '"' fuel behind).map fun (points, rest) => (c.toNat :: points, rest) := by
    rw [hrule, hbreak, if_neg Bool.false_ne_true, List.cons_append, List.singleton_append,
      readStrictPoints, if_pos hvalid, hread]
    change (readStrictPoints '"' fuel behind).bind _ = _
    cases readStrictPoints '"' fuel behind <;> rfl
  by_cases hbackslash : c = '\\'
  · subst hbackslash
    exact hescaped rfl rfl rfl rfl
  by_cases hquote : c = '"'
  · subst hquote
    exact hescaped rfl rfl rfl rfl
  have hrule : (quoteRule c).toList = [c] := by
    unfold quoteRule
    split
    · exact absurd rfl hbackslash
    · exact absurd rfl hquote
    · exact String.toList_singleton c
  rw [hrule, List.singleton_append, readStrictPoints.eq_2 _ _ _ _ hbackslash, if_neg (by simpa using hquote)]
  split
  · rfl
  · cases readStrictPoints '"' fuel behind <;> rfl

theorem readsWritten_quoteRule : ReadsWritten quoteRule fun c _ => breaksString c :=
  fun c _ _ fuel => readStrictPoints_quoteRule c fuel _

theorem length_quoteRule_pos (c : Char) : 0 < (quoteRule c).toList.length := by
  unfold quoteRule
  split <;> simp

theorem specifierRule_of_ne {c : Char} (h : c ≠ '\x00') : specifierRule c = quoteRule c := by
  unfold specifierRule
  split
  · exact absurd rfl h
  · rfl

theorem length_specifierRule_pos (c : Char) : 0 < (specifierRule c).toList.length := by
  by_cases hzero : c = '\x00'
  · subst hzero
    decide
  · rw [specifierRule_of_ne hzero]
    exact length_quoteRule_pos c

/-- The written text starts with a digit just if the text does. -/
theorem head?_written_isDigit (text cs : List Char) :
    (written specifierRule text ++ '"' :: cs).head?.any Char.isDigit = text.head?.any Char.isDigit := by
  cases text with
  | nil => rfl
  | cons c rest =>
    by_cases hzero : c = '\x00'
    · subst hzero
      rfl
    · rw [written, List.flatMap_cons, specifierRule_of_ne hzero]
      unfold quoteRule
      split
      · rfl
      · rfl
      · rw [show c.toString.toList = [c] from String.toList_singleton c]
        rfl

/-- A zero that no digit follows is an escape of its own. -/
theorem readEscape?_zero {cs : List Char} (h : cs.head?.any Char.isDigit = false) :
    isTemplateEscape ('0' :: cs) = true ∧ readEscape? ('0' :: cs) = some ([0], cs) := by
  cases cs with
  | nil => exact ⟨rfl, rfl⟩
  | cons d rest =>
    have hdigit : d.isDigit = false := h
    have hoctal : (decide ('0' ≤ d) && decide (d ≤ '7')) = false := by
      rw [← Bool.not_eq_true, Bool.and_eq_true, decide_eq_true_eq, decide_eq_true_eq]
      rintro ⟨hle, hge⟩
      have hlast : '7' ≤ '9' := by decide
      have : d.isDigit = true := by
        simp only [Char.isDigit, Bool.and_eq_true, decide_eq_true_eq]
        exact ⟨hle, hge.trans hlast⟩
      rw [this] at hdigit
      cases hdigit
    refine ⟨by simp [isTemplateEscape, hdigit], ?_⟩
    unfold readEscape?
    simp [isLineEnd, hoctal]

theorem readsWritten_specifierRule :
    ReadsWritten specifierRule fun c rest => breaksString c || isZeroBeforeDigit c rest := by
  intro c text cs fuel
  have hhead := head?_written_isDigit text cs
  generalize written specifierRule text ++ '"' :: cs = behind at hhead ⊢
  by_cases hzero : c = '\x00'
  · subst hzero
    have hfails : isZeroBeforeDigit '\x00' text = behind.head?.any Char.isDigit := hhead.symm
    change readStrictPoints '"' (fuel + 1) ('\\' :: '0' :: behind) =
      if isZeroBeforeDigit '\x00' text = true then _ else _
    rw [hfails, readStrictPoints]
    by_cases hdigit : behind.head?.any Char.isDigit = true
    · obtain ⟨d, rest, rfl, hd⟩ : ∃ d rest, behind = d :: rest ∧ d.isDigit = true := by
        cases behind with
        | nil => cases hdigit
        | cons d rest => exact ⟨d, rest, rfl, hdigit⟩
      rw [if_pos hdigit, if_neg (by simp [isTemplateEscape, hd])]
    · obtain ⟨hvalid, hread⟩ := readEscape?_zero (Bool.eq_false_iff.2 hdigit)
      rw [if_neg hdigit, if_pos hvalid, hread]
      change (readStrictPoints '"' fuel behind).bind _ = _
      cases readStrictPoints '"' fuel behind <;> rfl
  · have hfails : isZeroBeforeDigit c text = false := by simp [isZeroBeforeDigit, hzero]
    rw [specifierRule_of_ne hzero, readStrictPoints_quoteRule]
    beta_reduce
    rw [hfails, Bool.or_false]

/-- Puts a text in the place of each occurrence of a character. -/
def replaceChar (c : Char) (text : String) (cs : List Char) : List Char :=
  cs.flatMap fun d => if d = c then text.toList else [d]

/-- Backslashes and then quotes may be replaced in turn, but not the other way round. -/
theorem written_quoteRule (cs : List Char) :
    written quoteRule cs = replaceChar '"' "\\\"" (replaceChar '\\' "\\\\" cs) := by
  rw [written, replaceChar, replaceChar, List.flatMap_assoc]
  refine List.flatMap_congr fun c _ => ?_
  by_cases hbackslash : c = '\\'
  · subst hbackslash
    rfl
  by_cases hquote : c = '"'
  · subst hquote
    rfl
  rw [if_neg hbackslash, List.flatMap_singleton, if_neg hquote]
  unfold quoteRule
  split
  · exact absurd rfl hbackslash
  · exact absurd rfl hquote
  · exact String.toList_singleton c

/-- The backslashes that stand for NULs come last. -/
theorem written_specifierRule (cs : List Char) :
    written specifierRule cs = replaceChar '\x00' "\\0" (written quoteRule cs) := by
  rw [written, written, replaceChar, List.flatMap_assoc]
  refine List.flatMap_congr fun c _ => ?_
  by_cases hzero : c = '\x00'
  · subst hzero
    rfl
  rw [specifierRule_of_ne hzero]
  unfold quoteRule
  split
  · rfl
  · rfl
  · rw [show c.toString.toList = [c] from String.toList_singleton c, List.flatMap_singleton, if_neg hzero]

/-! ## Literals of the compiler -/

/-- The literal that an injected import has for its module. -/
def specifierLiteral (source : String) : String :=
  "\"" ++ escapeSpecifier source ++ "\""

/-- The statement of an injected import has this literal in both formats. -/
theorem exists_render_eq (i : InjectedImport) (format : ModuleFormat) :
    ∃ before behind : String, i.render format = before ++ specifierLiteral i.source ++ behind := by
  cases i with
  | named imported l source =>
    cases format with
    | esm =>
      refine ⟨"import \x7b " ++ imported ++ " as " ++ l ++ " \x7d from ", ";", String.toList_injective ?_⟩
      simp [InjectedImport.render, InjectedImport.source, specifierLiteral]
    | commonJs =>
      refine ⟨"var " ++ l ++ " = require(", ")[\"" ++ imported ++ "\"];", String.toList_injective ?_⟩
      simp [InjectedImport.render, InjectedImport.source, specifierLiteral]
  | default l source =>
    cases format with
    | esm =>
      refine ⟨"import " ++ l ++ " from ", ";", String.toList_injective ?_⟩
      simp [InjectedImport.render, InjectedImport.source, specifierLiteral]
    | commonJs =>
      refine ⟨"var " ++ l ++ " = require(", ").default;", String.toList_injective ?_⟩
      simp [InjectedImport.render, InjectedImport.source, specifierLiteral]

/-- A quoted text reads as itself in strict code, unless it has a line break. So does the specifier of an
injected import, unless there is also a NUL before a digit in it. The texts that are not read as themselves
are read as nothing. -/
theorem strictLiteral?_quoted (text : String) (cs : List Char) :
    strictLiteral? ((quote text).toList ++ cs) =
      (if hasLineBreak text then none else some (text, cs)) ∧
    strictLiteral? ((specifierLiteral text).toList ++ cs) =
      (if hasLineBreak text || hasZeroBeforeDigit text then none else some (text, cs)) ∧
    ∀ (i : InjectedImport) (format : ModuleFormat), i.source = text →
      ∃ before behind : String, i.render format = before ++ specifierLiteral text ++ behind := by
  have hquote : (quote text).toList ++ cs = '"' :: (written quoteRule text.toList ++ '"' :: cs) := by
    simp [quote, written, escapeWith_toList]
  have hspecifier : (specifierLiteral text).toList ++ cs =
      '"' :: (written specifierRule text.toList ++ '"' :: cs) := by
    simp [specifierLiteral, escapeSpecifier, written, escapeWith_toList]
  refine ⟨?_, ?_, ?_⟩
  · rw [hquote, strictLiteral?_written readsWritten_quoteRule length_quoteRule_pos, anyBefore_eq_any,
      hasLineBreak]
  · rw [hspecifier, strictLiteral?_written readsWritten_specifierRule length_specifierRule_pos, anyBefore_or,
      anyBefore_eq_any, hasLineBreak, hasZeroBeforeDigit]
  · rintro i format rfl
    exact exists_render_eq i format

example : strictLiteral? (quote "a\nb").toList = none ∧
    strictLiteral? (specifierLiteral (String.ofList ['\x00', '1'])).toList = none := by
  decide +kernel

end ModuleBuild.Script
