import ModuleBuild.Proofs.Script.Values

/-!
# Rules of expressions

What the rules of operators, conditions and assignments do on plain syntax, in terms of the rules for their
operands.

## Main definitions

* `opensValue` — the tokens that values start with.
* `binaryStep` — the step of the repetition of operators.

## Main statements

* `moves_unary_value`, `moves_unary_operator`, `moves_unary_increment` — expressions without operators between values.
* `moves_binaryStep`, `moves_binaryStep_end` — operators between values.
* `moves_assignment`, `moves_conditional`, `moves_assign` — the levels above.
-/

namespace ModuleBuild.Script

/-- The tokens that values start with. -/
def opensValue : TokenKind → Bool
  | .punct p => ["\x7b", "("].contains p
  | .word w false => !(["typeof", "void", "delete", "await", "import"].contains w)
  | .string _ | .number _ => true
  | _ => false

/-- The rules of a place between the parts of a condition. -/
def Scope.between (s : Scope) : Scope :=
  { s with allowsIn := true, inCondition := true }

section Operations

variable {c : Setting} {rules : Rules} {next l m m' : Lexeme} {ls ls' mid mid' : List Lexeme} {gap gap' : List Char}
  {start : Nat}
  {x : Name} {op : Op} {left : Node} {fuel least : Nat} {S T U : Node → Prop} {V : List Node → Prop}

/-! ## Objects that are created -/

theorem moves_newExpression
    (hcallee : Moves (rules (.access true)) c (.word gap' x.text :: .sign [] "(" :: l :: ls)
      (fun n => ∃ span, n = .ident span x.text) (.sign [] "(" :: l :: ls))
    (hargs : Moves (callArguments rules) c (l :: ls) V (next :: ls')) :
    Moves (newExpression rules) c (.word gap "new" :: .word gap' x.text :: .sign [] "(" :: l :: ls)
      (fun n => ∃ span inner vs, V vs ∧ n = .new span (.ident inner x.text) vs false) (next :: ls') := by
  refine moves_place.bind fun _ _ => ?_
  refine moves_expectWord.bind fun _ _ => ?_
  refine (moves_refuse (by simp)).bind ?_
  rintro _ rfl
  refine hcallee.bind ?_
  rintro _ ⟨inner, rfl⟩
  refine moves_sees.bind ?_
  rintro _ rfl
  refine (moves_require rfl).bind fun _ _ => ?_
  refine moves_accept.bind ?_
  rintro _ rfl
  refine hargs.bind fun vs hvs => ?_
  exact moves_spanFrom.bind fun span _ => .pure ⟨span, inner, vs, hvs, rfl⟩

/-! ## Operators before and behind values -/

theorem moves_seesUpdate_none (hplus : l.kind ≠ .punct "++") (hminus : l.kind ≠ .punct "--") :
    Moves seesUpdate c (l :: ls) (· = none) (l :: ls) := by
  refine moves_token.bind ?_
  rintro _ ⟨_, _, rfl⟩
  dsimp only
  split
  · rename_i h
    exact absurd h hplus
  · rename_i h
    exact absurd h hminus
  · exact .pure rfl

theorem moves_seesUpdate_increment :
    Moves seesUpdate c (.sign gap "++" :: ls) (· = some "++") (.sign gap "++" :: ls) := by
  refine moves_token.bind ?_
  rintro _ ⟨_, _, rfl⟩
  exact .pure rfl

/-- What a value starts with is no operator, and starts nothing else. -/
theorem opensValue_facts {k : TokenKind} (h : opensValue k = true) :
    prefixOperator? k = none ∧ k ≠ .punct "++" ∧ k ≠ .punct "--" ∧ k ≠ .word "await" false ∧ k ≠ .punct "<" ∧
      ∀ text, k ≠ .privateName text := by
  cases k with
  | punct p =>
    obtain rfl | rfl : p = "\x7b" ∨ p = "(" := by simpa [opensValue] using h
    all_goals exact ⟨rfl, by simp⟩
  | word w escaped =>
    cases escaped with
    | true => cases h
    | false =>
      have hw : w ≠ "typeof" ∧ w ≠ "void" ∧ w ≠ "delete" ∧ w ≠ "await" ∧ w ≠ "import" := by
        simpa [opensValue] using h
      refine ⟨?_, by simp, by simp, by simp [hw], by simp, by simp⟩
      simp [prefixOperator?, hw]
  | string lit => exact ⟨rfl, by simp⟩
  | number text => exact ⟨rfl, by simp⟩
  | _ => cases h

/-- The rule of unary expressions, at the start of a value. -/
def unaryRest (rules : Rules) (start size : Nat) : Parse Node := do
  let value ← rules (.access false)
  match ← seesUpdate with
  | some op =>
    if ← afterNewline then return value
    else
      require (isSimpleTarget size value)
      advance
      return .update (← spanFrom start) op false value
  | none => return value

theorem moves_unary_start (hopens : opensValue l.kind = true)
    (h : ∀ start size, Moves (unaryRest rules start size) c (l :: ls) S ls') :
    Moves (unaryRule rules) c (l :: ls) S ls' := by
  obtain ⟨hoperator, hplus, hminus, hawait, hless, hprivate⟩ := opensValue_facts hopens
  refine moves_get.bind ?_
  rintro _ ⟨before, -, rfl⟩
  have hkind : (l.state c before (rowChars ls)).token.kind = l.kind := rfl
  dsimp only
  rw [hkind, hoperator]
  refine (moves_seesUpdate_none hplus hminus).bind ?_
  rintro _ rfl
  dsimp only
  rw [if_neg (by simp [hawait]), if_neg (by simp [hless])]
  split
  · rename_i hp
    exact absurd hp (hprivate _)
  · exact h _ _

/-- A value. -/
theorem moves_unary_value (hopens : opensValue l.kind = true) (hnext : next.kind ∈ unaryEnds)
    (h : Moves (rules (.access false)) c (l :: ls) S (next :: ls')) :
    Moves (unaryRule rules) c (l :: ls) S (next :: ls') := by
  have hplus : next.kind ≠ .punct "++" := fun heq => absurd (heq ▸ hnext) (by decide)
  have hminus : next.kind ≠ .punct "--" := fun heq => absurd (heq ▸ hnext) (by decide)
  refine moves_unary_start hopens fun _ _ => h.bind fun n hn => ?_
  refine (moves_seesUpdate_none hplus hminus).bind ?_
  rintro _ rfl
  exact .pure hn

/-- A variable that is counted up. -/
theorem moves_unary_increment
    (h : Moves (rules (.access false)) c (.word gap x.text :: .sign [] "++" :: next :: ls)
      (fun n => ∃ span, n = .ident span x.text) (.sign [] "++" :: next :: ls)) :
    Moves (unaryRule rules) c (.word gap x.text :: .sign [] "++" :: next :: ls)
      (fun n => ∃ span inner, n = .update span "++" false (.ident inner x.text)) (next :: ls) := by
  have hopens : opensValue (Lexeme.word gap x.text).kind = true := by
    simp [opensValue, x.ne (show "typeof" ∈ notableWords by decide), x.ne (show "void" ∈ notableWords by decide),
      x.ne (show "delete" ∈ notableWords by decide), x.ne (show "await" ∈ notableWords by decide),
      x.ne (show "import" ∈ notableWords by decide)]
  refine moves_unary_start hopens fun _ size => h.bind ?_
  rintro _ ⟨inner, rfl⟩
  refine moves_seesUpdate_increment.bind ?_
  rintro _ rfl
  refine moves_afterNewline.bind ?_
  rintro _ rfl
  rw [if_neg (by simp [Lexeme.breaks])]
  have hsimple : isSimpleTarget size (.ident inner x.text) = true := by cases size <;> rfl
  refine (moves_require hsimple).bind fun _ _ => ?_
  refine moves_advance.bind fun _ _ => ?_
  exact moves_spanFrom.bind fun span _ => .pure ⟨span, inner, rfl⟩

/-- An operator before a value. -/
theorem moves_unary_operator {text : String} (htext : prefixOperator? l.kind = some text)
    (h : Moves (rules .unary) c (m :: ls) S (next :: ls')) :
    Moves (unaryRule rules) c (l :: m :: ls) (fun n => ∃ span e, S e ∧ n = .unary span text e) (next :: ls') := by
  refine moves_get.bind ?_
  rintro _ ⟨before, -, rfl⟩
  have hkind : (l.state c before (rowChars (m :: ls))).token.kind = l.kind := rfl
  dsimp only
  rw [hkind, htext]
  refine moves_advance.bind fun _ _ => h.bind fun e he => ?_
  exact moves_spanFrom.bind fun span _ => .pure ⟨span, e, he, rfl⟩

/-! ## Operators between values -/

/-- One more operator behind a value, if one follows that binds so tightly. -/
def binaryStep (rules : Rules) (fuel least : Nat) (left : Node) : Parse (Node ⊕ Node) := do
  widenToken
  let s ← get
  let isCast := (← seesWord "as") || (← seesWord "satisfies")
  if isCast && s.dialect.hasTypes && !s.token.newlineBefore && least ≤ 8 then
    advance
    assertedType rules
    return .inl left
  else
    match precedence? s.scope.allowsIn s.token.kind with
    | none => return .inr left
    | some p =>
      if p < least then return .inr left
      else
        let op := operatorText s.token.kind
        if op == "**" then require (isPowerBase left)
        advance
        let value ← rules .unary
        let right ← binaryFrom rules fuel (if op == "**" then p else p + 1) value
        require (!mixesCoalescing op left right)
        return .inl (.binary (← spanFrom left.span.start) op left right)

theorem binaryFrom_succ : binaryFrom rules (fuel + 1) least left = loop left (binaryStep rules fuel least) :=
  rfl

theorem moves_widenToken (hl : l.kind ≠ .punct ">") : Moves widenToken c (l :: ls) (fun _ => True) (l :: ls) := by
  refine moves_sees.bind ?_
  rintro _ rfl
  rw [if_neg (by simpa using hl)]
  exact .pure trivial

/-- The operators are left to others if what follows binds less tightly. -/
theorem moves_binaryStep_end (hc : c.Plain) (hl : l.kind ∈ unaryEnds)
    (hlevel : ∀ p, precedence? c.scope.allowsIn l.kind = some p → p < least) :
    Moves (binaryStep rules fuel least left) c (l :: ls) (fun r => ∃ b, r = .inr b ∧ b = left) (l :: ls) := by
  refine (moves_widenToken fun heq => absurd (heq ▸ hl) (by decide)).bind fun _ _ => ?_
  refine moves_get.bind ?_
  rintro _ ⟨before, -, rfl⟩
  refine moves_seesWord.bind ?_
  rintro _ rfl
  refine moves_seesWord.bind ?_
  rintro _ rfl
  have htypes : (l.state c before (rowChars ls)).dialect.hasTypes = false := hc.untyped
  have hkind : (l.state c before (rowChars ls)).token.kind = l.kind := rfl
  have hscope : (l.state c before (rowChars ls)).scope = c.scope := rfl
  rw [if_neg (by simp [htypes]), hkind, hscope]
  split
  · exact .pure ⟨left, rfl, rfl⟩
  · rename_i p hp
    rw [if_pos (hlevel p hp)]
    exact .pure ⟨left, rfl, rfl⟩

namespace Op

theorem precedence (op : Op) : precedence? true op.glyph.kind = some op.level := by
  cases op <;> rfl

theorem mem_operatorKinds (op : Op) : op.glyph.kind ∈ operatorKinds := by
  cases op <;> decide

theorem text_ne_power (op : Op) : (op.text == "**") = false := by
  cases op <;> decide

theorem text_ne_coalescing (op : Op) : (op.text == "??") = false := by
  cases op <;> decide

end Op

/-- A node that goes with operators as it is. -/
def Node.isOperand : Node → Bool
  | .binary _ op _ _ => op != "??"
  | .privateName .. => false
  | _ => true

theorem mixesCoalescing_eq_false {right : Node} (hleft : left.isOperand = true) (hright : right.isOperand = true) :
    mixesCoalescing op.text left right = false := by
  simp only [mixesCoalescing, op.text_ne_coalescing, Bool.false_eq_true, if_false]
  split
  · refine Bool.or_eq_false_iff.mpr ⟨?_, ?_⟩
    · split
      · simpa [Node.isOperand] using hleft
      · rfl
    · split
      · simpa [Node.isOperand] using hright
      · rfl
  · rfl

/-- An operator and the value behind it. -/
theorem moves_binaryStep (hc : c.Plain) (hin : c.scope.allowsIn = true) (hleast : least ≤ op.level)
    (hleft : left.isOperand = true)
    (hright : Moves (rules .unary >>= binaryFrom rules fuel (op.level + 1)) c (l :: ls)
      (fun e => S e ∧ e.isOperand = true) (next :: ls')) :
    Moves (binaryStep rules fuel least left) c (⟨gap, op.glyph⟩ :: l :: ls)
      (fun r => ∃ b, r = .inl b ∧ ∃ span e, S e ∧ b = .binary span op.text left e) (next :: ls') := by
  have hwide : (Lexeme.mk gap op.glyph).kind ≠ .punct ">" := by cases op <;> simp [Op.glyph]
  refine (moves_widenToken hwide).bind fun _ _ => ?_
  refine moves_get.bind ?_
  rintro _ ⟨before, -, rfl⟩
  refine moves_seesWord.bind ?_
  rintro _ rfl
  refine moves_seesWord.bind ?_
  rintro _ rfl
  generalize hs : (Lexeme.mk gap op.glyph).state c before (rowChars (l :: ls)) = s
  have htypes : s.dialect.hasTypes = false := hs ▸ hc.untyped
  have hkind : s.token.kind = op.glyph.kind := hs ▸ rfl
  have hscope : s.scope.allowsIn = true := hs ▸ hin
  have htext : operatorText op.glyph.kind = op.text := rfl
  rw [if_neg (by simp [htypes]), hkind, hscope, op.precedence]
  dsimp only
  rw [if_neg (by omega), htext, op.text_ne_power, if_neg (by simp), if_neg (by simp)]
  refine moves_advance.bind fun _ _ => ?_
  rw [← bind_assoc]
  refine hright.bind ?_
  rintro e ⟨he, hoperand⟩
  refine (moves_require (by rw [mixesCoalescing_eq_false hleft hoperand]; rfl)).bind fun _ _ => ?_
  exact moves_spanFrom.bind fun span _ => .pure ⟨_, rfl, span, e, he, rfl⟩

/-- The first value, and then the operators behind it. -/
theorem moves_binary (hfirst : Moves (rules .unary) c ls S (l :: mid))
    (hrest : ∀ n, S n → Moves (binaryFrom rules (c.source.length + 20) 0 n) c (l :: mid)
      (fun e => T e ∧ e.isOperand = true) ls') :
    Moves (binary rules) c ls T ls' := by
  refine hfirst.bind fun n hn => ?_
  refine moves_get.bind ?_
  rintro _ ⟨before, -, rfl⟩
  refine (hrest n hn).bind ?_
  rintro e ⟨he, hoperand⟩
  cases e with
  | privateName => cases hoperand
  | _ => exact .pure he

/-! ## Arrow functions -/

theorem moves_mayOpenTypeParameters (hc : c.Plain) :
    Moves mayOpenTypeParameters c (l :: ls) (· = false) (l :: ls) := by
  refine moves_get.bind ?_
  rintro _ ⟨before, -, rfl⟩
  refine moves_sees.bind ?_
  rintro _ rfl
  rw [if_pos (by simp [Lexeme.state, hc.untyped])]
  exact .pure rfl

/-- No arrow function starts with such a token before another one. -/
theorem moves_noArrow (hc : c.Plain) (hparen : l.kind ≠ .punct "(") (hasync : l.kind ≠ .word "async" false)
    (hnext : next.kind ≠ .punct "=>") :
    Moves (arrowFunction rules) c (l :: next :: ls) (· = none) (l :: next :: ls) := by
  have hbare : Moves (bareArrow rules) c (l :: next :: ls) (· = none) (l :: next :: ls) := by
    have harrow : Moves (do return (← sees "=>") && !(← afterNewline)) c (next :: ls) (· = false) (next :: ls) := by
      refine moves_sees.bind ?_
      rintro _ rfl
      refine moves_afterNewline.bind ?_
      rintro _ rfl
      exact .pure (by simp [hnext])
    refine moves_place.bind fun _ _ => ?_
    refine (moves_nextIs harrow).bind ?_
    rintro _ rfl
    refine moves_seesIdentifier_any.bind fun _ _ => ?_
    rw [if_neg (by simp)]
    exact .pure rfl
  refine moves_place.bind fun _ _ => ?_
  refine moves_sees.bind ?_
  rintro _ rfl
  refine (moves_mayOpenTypeParameters hc).bind ?_
  rintro _ rfl
  rw [if_neg (by simpa using hparen)]
  refine moves_seesWord.bind ?_
  rintro _ rfl
  rw [if_neg (by simpa using hasync)]
  exact hbare

/-- No arrow function has a function as its first parameter. -/
theorem moves_noArrow_function (hc : c.Plain)
    (hbinding : ∀ c' : Setting, Fails (rules .binding) c' (.word gap' "function" :: next :: ls)) :
    Moves (arrowFunction rules) c (.sign gap "(" :: .word gap' "function" :: next :: ls) (· = none)
      (.sign gap "(" :: .word gap' "function" :: next :: ls) := by
  have hitem (c' : Setting) (hc' : c'.Plain) : Fails (parameter rules) c' (.word gap' "function" :: next :: ls) := by
    refine (moves_decorators (by simp)).fails fun _ _ => ?_
    refine moves_place.fails fun _ _ => ?_
    refine moves_get.fails ?_
    rintro _ ⟨before, -, rfl⟩
    refine moves_seesWord.fails ?_
    rintro _ rfl
    rw [if_neg (by simp)]
    refine (moves_refuse (by simp)).fails ?_
    rintro _ rfl
    refine (moves_parameterModifiers hc').fails fun _ _ => ?_
    exact (hbinding c').bind
  have hhead : Fails (arrowHead rules false) c (.sign gap "(" :: .word gap' "function" :: next :: ls) := by
    refine (moves_optionalTypeParameters hc).fails fun _ _ => Fails.bind (.inScope ?_)
    refine moves_expect.fails fun _ _ => Fails.bind (.loop ?_)
    refine (moves_refuse (by simp)).fails ?_
    rintro _ rfl
    rw [if_neg (by simp)]
    refine Fails.bind ?_
    exact hitem _ ⟨hc.untyped, hc.unmarked, hc.noGenerator⟩
  refine moves_place.bind fun _ _ => ?_
  refine moves_sees.bind ?_
  rintro _ rfl
  refine (moves_mayOpenTypeParameters hc).bind ?_
  rintro _ rfl
  rw [if_pos (by simp)]
  refine moves_get.bind ?_
  rintro _ ⟨before, -, rfl⟩
  refine (moves_ahead hhead).bind ?_
  rintro _ rfl
  exact .pure rfl

/-! ## Conditions and assignments -/

theorem moves_seesAssign_none (hl : l.kind ∈ assignmentEnds ++ [.punct "?"]) :
    Moves seesAssign c (l :: ls) (· = none) (l :: ls) := by
  refine moves_token.bind ?_
  rintro _ ⟨_, _, rfl⟩
  dsimp only
  split
  · rename_i p hp
    rw [hp] at hl
    simp only [assignmentEnds, expressionEnds, List.cons_append, List.nil_append, List.mem_cons, TokenKind.punct.injEq,
      List.not_mem_nil, or_false] at hl
    rcases hl with rfl | rfl | rfl | rfl | rfl | rfl | rfl
    all_goals exact .pure rfl
  · exact .pure rfl

theorem moves_seesAssign : Moves seesAssign c (.sign gap "=" :: ls) (· = some "=") (.sign gap "=" :: ls) := by
  refine moves_token.bind ?_
  rintro _ ⟨_, _, rfl⟩
  exact .pure rfl

/-- An operation, and what an assignment makes of it. -/
def assignmentRest (rules : Rules) (size : Nat) : Parse Node := do
  let left ← binary rules
  match ← seesAssign with
  | some op =>
    if op == "=" then
      let some target := toTarget (size + 1) left | failure
      advance
      let value ← rules .assignment
      return .assign (← spanFrom left.span.start) op target value
    else
      require (isSimpleTarget size left)
      let some target := toTarget (size + 1) left | failure
      advance
      let value ← rules .assignment
      return .assign (← spanFrom left.span.start) op target value
  | none => conditional rules left

theorem moves_assignmentRule (hc : c.Plain) (harrow : Moves (arrowFunction rules) c (l :: ls) (· = none) (l :: ls))
    (h : ∀ size, Moves (assignmentRest rules size) c (l :: ls) S ls') :
    Moves (assignmentRule rules) c (l :: ls) S ls' := by
  refine moves_get.bind ?_
  rintro _ ⟨before, -, rfl⟩
  refine moves_seesWord.bind ?_
  rintro _ rfl
  have hgenerator : (l.state c before (rowChars ls)).scope.isGenerator = false := hc.noGenerator
  rw [if_neg (by simp [hgenerator])]
  refine harrow.bind ?_
  rintro _ rfl
  exact h _

/-- An operation stays as it is before the end of an assignment. -/
theorem moves_assignmentRest_plain {size : Nat} (h : Moves (binary rules) c (l :: ls) S (next :: ls'))
    (hnext : next.kind ∈ assignmentEnds) :
    Moves (assignmentRest rules size) c (l :: ls) S (next :: ls') := by
  refine h.bind fun n hn => ?_
  refine (moves_seesAssign_none (List.mem_append_left _ hnext)).bind ?_
  rintro _ rfl
  refine (moves_refuse fun heq => absurd (heq ▸ hnext) (by decide)).bind ?_
  rintro _ rfl
  exact .pure hn

/-- A condition. -/
theorem moves_assignmentRest_conditional {size : Nat}
    (htest : Moves (binary rules) c (l :: ls) S (.sign gap "?" :: m :: mid))
    (hyes : Moves (rules .assignment) (c.within Scope.between) (m :: mid) T (.sign gap' ":" :: m' :: mid'))
    (hno : Moves (rules .assignment) c (m' :: mid') U (next :: ls')) :
    Moves (assignmentRest rules size) c (l :: ls)
      (fun n => ∃ span a b e, n = .cond span a b e ∧ S a ∧ T b ∧ U e) (next :: ls') := by
  refine htest.bind fun a ha => ?_
  refine (moves_seesAssign_none (by simp)).bind ?_
  rintro _ rfl
  refine moves_accept.bind ?_
  rintro _ rfl
  refine hyes.inScope.bind fun b hb => ?_
  refine moves_expect.bind fun _ _ => ?_
  refine hno.bind fun e he => ?_
  exact moves_spanFrom.bind fun span _ => .pure ⟨span, a, b, e, rfl, ha, hb, he⟩

/-- A place that one may assign to without more thought. -/
def Node.isPlace : Node → Bool
  | .ident .. | .member .. | .index .. => true
  | _ => false

/-- An assignment. -/
theorem moves_assignmentRest_assign {size : Nat}
    (htarget : Moves (binary rules) c (l :: ls) (fun n => S n ∧ n.isPlace = true) (.sign gap "=" :: m :: mid))
    (hvalue : Moves (rules .assignment) c (m :: mid) T (next :: ls')) :
    Moves (assignmentRest rules size) c (l :: ls)
      (fun n => ∃ span target e, n = .assign span "=" target e ∧ S target ∧ T e) (next :: ls') := by
  refine htarget.bind ?_
  rintro target ⟨ha, hplace⟩
  have htoTarget : toTarget (size + 1) target = some target := by
    cases target with
    | ident | member | index => rw [toTarget]
    | _ => cases hplace
  refine moves_seesAssign.bind ?_
  rintro _ rfl
  dsimp only
  rw [if_pos (by simp), htoTarget]
  refine moves_advance.bind fun _ _ => hvalue.bind fun e he => ?_
  exact moves_spanFrom.bind fun span _ => .pure ⟨span, target, e, rfl, ha, he⟩

/-- An expression without commas. -/
theorem moves_expression_one (h : Moves (rules .assignment) c (l :: ls) S (next :: ls'))
    (hnext : next.kind ≠ .punct ",") :
    Moves (expressionRule rules) c (l :: ls) S (next :: ls') := by
  refine h.bind fun n hn => ?_
  refine moves_sees.bind ?_
  rintro _ rfl
  rw [if_neg (by simpa using hnext)]
  exact .pure hn

/-- One more expression behind a comma. -/
def sequenceStep (rules : Rules) (items : List Node) : Parse (List Node ⊕ List Node) := do
  if ← accept "," then return .inl ((← rules .assignment) :: items)
  else return .inr items.reverse

/-- Two expressions with a comma between them. -/
theorem moves_expression_comma (hfirst : Moves (rules .assignment) c (l :: ls) S (.sign gap "," :: m :: mid))
    (hsecond : Moves (rules .assignment) c (m :: mid) T (next :: ls')) (hnext : next.kind ≠ .punct ",") :
    Moves (expressionRule rules) c (l :: ls) (fun n => ∃ span a b, n = .seq span [a, b] ∧ S a ∧ T b)
      (next :: ls') := by
  refine hfirst.bind fun a ha => ?_
  refine moves_sees.bind ?_
  rintro _ rfl
  rw [if_pos (by simp)]
  have hmore : Moves (sequenceStep rules [a]) c (.sign gap "," :: m :: mid)
      (fun r => ∃ ns, r = .inl ns ∧ ∃ b, ns = [b, a] ∧ T b) (next :: ls') := by
    refine moves_accept.bind ?_
    rintro _ rfl
    exact hsecond.bind fun b hb => .pure ⟨_, rfl, b, rfl, hb⟩
  have hitems : Moves (loop [a] (sequenceStep rules)) c (.sign gap "," :: m :: mid)
      (fun ns => ∃ b, ns = [a, b] ∧ T b) (next :: ls') := by
    refine .loop fun _ => .goOn hmore ?_
    rintro _ ⟨b, rfl, hb⟩
    refine .goOut ((moves_refuse hnext).bind ?_)
    rintro _ rfl
    exact .pure ⟨_, rfl, b, rfl, hb⟩
  refine hitems.bind ?_
  rintro _ ⟨b, rfl, hb⟩
  exact moves_spanFrom.bind fun span _ => .pure ⟨span, a, b, rfl, ha, hb⟩

end Operations

end ModuleBuild.Script
