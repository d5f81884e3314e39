import ModuleBuild.Proofs.Script.Statements

/-!
# Rows and trees of phrases

What the rows of all phrases of a kind have in common, and what their trees have.

## Main definitions

* `opensExpression` — the tokens that expressions start with.
* `PhraseKind.Opens`, `Phrase.Settled` — what is known of rows, and of trees.

## Main statements

* `Phrase.opens`, `Phrase.tame` — what rows start with, and what does not stand in them.
* `Phrase.settled` — trees fit where phrases stand.
-/

namespace ModuleBuild.Script

/-! ## Rows -/

/-- The tokens that expressions start with. -/
def opensExpression : TokenKind → Bool
  | .punct p => ["\x7b", "!"].contains p
  | .word w false => w != "async"
  | .string _ | .number _ => true
  | _ => false

theorem opensExpression_facts {k : TokenKind} (h : opensExpression k = true) :
    k ≠ .punct ")" ∧ k ≠ .punct "..." ∧ k ≠ .punct ";" ∧ k ≠ .punct "\x7d" ∧ k ≠ .punct "(" ∧ k ≠ .eof ∧
      k ≠ .word "async" false := by
  cases k with
  | punct p =>
    obtain rfl | rfl : p = "\x7b" ∨ p = "!" := by simpa [opensExpression] using h
    all_goals simp
  | word w escaped =>
    cases escaped with
    | true => cases h
    | false => simpa [opensExpression] using h
  | string lit => simp
  | number text => simp
  | _ => cases h

/-- What stands in phrases: no end of the source, and no arrow. -/
def Lexeme.isTame (l : Lexeme) : Bool :=
  l.glyph != .eof && l.glyph != .punct "=>"

@[simp] theorem Lexeme.isTame_word (gap : List Char) (w : String) : (Lexeme.word gap w).isTame = true := rfl

@[simp] theorem Lexeme.isTame_sign (gap : List Char) (p : String) : (Lexeme.sign gap p).isTame = (p != "=>") := by
  by_cases h : p = "=>"
  · rw [h]
    rfl
  · have hglyph : Glyph.punct p ≠ .punct "=>" := fun heq => h (Glyph.punct.inj heq)
    simp [isTame, bne_iff_ne.mpr h, bne_iff_ne.mpr hglyph]

theorem Lexeme.isTame_iff {l : Lexeme} : l.isTame = true ↔ l.glyph ≠ .eof ∧ l.kind ≠ .punct "=>" := by
  obtain ⟨gap, glyph⟩ := l
  cases glyph <;> simp [isTame]

theorem Name.opens (x : Name) : opensValue (.word x.text false) = true ∧ opensExpression (.word x.text false) = true ∧
    opensStatement (.word x.text false) = true := by
  have hall : ∀ word ∈ ["typeof", "void", "delete", "await", "import", "async", "else"], word ∈ notableWords := by
    decide
  have hne : ∀ word ∈ ["typeof", "void", "delete", "await", "import", "async", "else"], x.text ≠ word :=
    fun word hword => x.ne (hall word hword)
  simp only [List.forall_mem_cons, List.not_mem_nil, false_implies, implies_true, and_true] at hne
  simp [opensValue, opensExpression, opensStatement, hne]

/-- What the row of a phrase starts with. -/
def PhraseKind.Opens (gap : List Char) : PhraseKind → List Lexeme → Prop
  | .value, row => ∃ l rest, row = l :: rest ∧ l.gap = gap ∧ opensValue l.kind = true ∧ opensExpression l.kind = true
  | .unary, row | .operation _, row | .assignment, row | .expression, row =>
    ∃ l rest, row = l :: rest ∧ l.gap = gap ∧ opensExpression l.kind = true
  | .statement _, row => ∃ l rest, row = l :: rest ∧ opensStatement l.kind = true
  | _, _ => True

namespace Phrase

variable {k : PhraseKind}

theorem opens (p : Phrase k) (gap : List Char) (i : Nat) : k.Opens gap (p.row gap i) := by
  induction p generalizing gap i with
  | noLink | member | index | call | noArgument | lastArgument | argument | lastProperty | property
  | noStatement | statement => trivial
  | name x => exact ⟨_, _, rfl, rfl, x.opens.1, x.opens.2.1⟩
  | string | number => exact ⟨_, _, rfl, rfl, rfl, rfl⟩
  | null | this | func | emptyObject | object | new => exact ⟨_, _, rfl, rfl, rfl, rfl⟩
  | bool b => cases b <;> exact ⟨_, _, rfl, rfl, rfl, rfl⟩
  | plain v ih =>
    obtain ⟨l, rest, hrow, hgap, -, hopens⟩ := ih gap i
    exact ⟨l, rest, hrow, hgap, hopens⟩
  | operand v ih | simple v ih | one v ih => exact ih gap i
  | typeOf | notParen => exact ⟨_, _, rfl, rfl, rfl⟩
  | increment x | assign x => exact ⟨_, _, rfl, rfl, x.opens.2.1⟩
  | binary op left right binds ih | cond left _ _ ih | comma left right ih =>
    obtain ⟨l, rest, hrow, hgap, hopens⟩ := ih gap i
    exact ⟨l, _, by rw [row, hrow, List.cons_append], hgap, hopens⟩
  | perform x | set x => exact ⟨_, _, rfl, x.opens.2.2⟩
  | wrapped | var | ret | throw | ifThen | ifElse | block | forFrom | forIn | function | exports =>
    exact ⟨_, _, rfl, rfl⟩

theorem tame_parameterRow (gap : List Char) (xs : List Name) : (parameterRow gap xs).all (·.isTame) = true := by
  fun_induction parameterRow gap xs with
  | case1 => rfl
  | case2 => rfl
  | case3 gap x y xs ih => simpa using ih

theorem tame_entryRow (names : List (Name × String)) : (entryRow names).all (·.isTame) = true := by
  fun_induction entryRow names with
  | case1 => rfl
  | case2 => rfl
  | case3 x exported e names ih => simpa using ih

theorem tame (p : Phrase k) (gap : List Char) (i : Nat) : (p.row gap i).all (·.isTame) = true := by
  induction p generalizing gap i with
  | string | number => rfl
  | binary op left right binds ihl ihr =>
    have hop : (Lexeme.mk [' '] op.glyph).isTame = true := by cases op <;> rfl
    simp only [row, List.all_append, List.all_cons, hop, ihl, ihr, Bool.and_self]
  | forFrom x first test step body iht ihs ihb =>
    have hfirst : (Lexeme.mk [' '] (.number first)).isTame = true := rfl
    simp [row, -List.all_eq_true, hfirst, iht, ihs, ihb]
  | _ => simp [row, -List.all_eq_true, tame_parameterRow, tame_entryRow, *]

/-- Behind the first lexeme of a row there is another one, which is no arrow. -/
theorem exists_second (p : Phrase k) {gap : List Char} {i : Nat} {l next : Lexeme} {rest : List Lexeme}
    (hrow : p.row gap i = l :: rest) (hnext : next.kind ≠ .punct "=>") (ls : List Lexeme) :
    ∃ second more, p.row gap i ++ next :: ls = l :: second :: more ∧ second.kind ≠ .punct "=>" := by
  rw [hrow]
  cases rest with
  | nil => exact ⟨next, ls, rfl, hnext⟩
  | cons second more =>
    have htame := List.all_eq_true.mp (p.tame gap i) second (by simp [hrow])
    exact ⟨second, more ++ next :: ls, rfl, (Lexeme.isTame_iff.mp htame).2⟩

/-! ## Trees -/

/-- What is known of all trees of a phrase. -/
def Settled : {k : PhraseKind} → Phrase k → Prop
  | .links start stop, p => ∀ base n, p.Shape base n → base.isOperand = true → base.isArrow = false →
    n.isOperand = true ∧ n.isArrow = false ∧
      ((start = true → base.isPlace = true) → stop = true → n.isPlace = true)
  | .value, p => ∀ n, p.Shape n → n.isOperand = true ∧ n.isArrow = false
  | .unary, p | .operation _, p => ∀ n, p.Shape n → n.isOperand = true
  | .statement _, p => ∀ n, p.Shape n → mayStandAlone n = true
  | _, _ => True

theorem settled (p : Phrase k) : p.Settled := by
  induction p with
  | noLink =>
    rintro base _ rfl hoperand harrow
    exact ⟨hoperand, harrow, fun h => h⟩
  | member key rest ih =>
    rintro base n ⟨span, hn⟩ - -
    obtain ⟨hoperand, harrow, hplace⟩ := ih _ n hn rfl rfl
    exact ⟨hoperand, harrow, fun _ => hplace fun _ => rfl⟩
  | index key rest _ ih =>
    rintro base n ⟨span, e, -, hn⟩ - -
    obtain ⟨hoperand, harrow, hplace⟩ := ih _ n hn rfl rfl
    exact ⟨hoperand, harrow, fun _ => hplace fun _ => rfl⟩
  | call values rest _ ih =>
    rintro base n ⟨span, vs, -, hn⟩ - -
    obtain ⟨hoperand, harrow, hplace⟩ := ih _ n hn rfl rfl
    exact ⟨hoperand, harrow, fun _ => hplace (by simp)⟩
  | name x rest ih =>
    rintro n ⟨span, hn⟩
    obtain ⟨hoperand, harrow, -⟩ := ih _ n hn rfl rfl
    exact ⟨hoperand, harrow⟩
  | string | number | null | this | bool | emptyObject =>
    rintro _ ⟨span, rfl⟩
    exact ⟨rfl, rfl⟩
  | func =>
    rintro _ ⟨span, inner, ps, ss, rfl, -⟩
    exact ⟨rfl, rfl⟩
  | object =>
    rintro _ ⟨span, fs, rfl, -⟩
    exact ⟨rfl, rfl⟩
  | new =>
    rintro _ ⟨span, inner, vs, rfl, -⟩
    exact ⟨rfl, rfl⟩
  | plain v ih => exact fun n hn => (ih n hn).1
  | operand v ih => exact ih
  | typeOf =>
    rintro _ ⟨span, e, rfl, -⟩
    rfl
  | notParen =>
    rintro _ ⟨span, inner, e, rfl, -⟩
    rfl
  | increment =>
    rintro _ ⟨span, inner, rfl⟩
    rfl
  | binary op =>
    rintro _ ⟨span, a, b, rfl, -⟩
    cases op <;> rfl
  | perform =>
    rintro _ ⟨span, inner, e, rfl, -⟩
    rfl
  | set =>
    rintro _ ⟨span, span', inner, target, e, rfl, -⟩
    rfl
  | wrapped =>
    rintro _ ⟨span, callSpan, parenSpan, funcSpan, paramSpan, bodySpan, ss, e, rfl, -⟩
    rfl
  | var =>
    rintro _ ⟨span, span', inner, e, rfl, -⟩
    rfl
  | ret | throw =>
    rintro _ ⟨span, e, rfl, -⟩
    rfl
  | ifThen =>
    rintro _ ⟨span, a, b, rfl, -⟩
    rfl
  | ifElse =>
    rintro _ ⟨span, inner, a, ss, b, rfl, -⟩
    rfl
  | block =>
    rintro _ ⟨span, ss, rfl, -⟩
    rfl
  | forFrom =>
    rintro _ ⟨span, headSpan, span', inner, span'', a, b, e, rfl, -⟩
    rfl
  | forIn =>
    rintro _ ⟨span, headSpan, span', inner, a, e, rfl, -⟩
    rfl
  | function =>
    rintro _ ⟨span, inner, ps, ss, rfl, -⟩
    rfl
  | exports =>
    rintro _ ⟨span, rfl⟩
    rfl
  | simple | cond | assign | one | comma | noArgument | lastArgument | argument | lastProperty | property
  | noStatement | statement => trivial

end Phrase

end ModuleBuild.Script
