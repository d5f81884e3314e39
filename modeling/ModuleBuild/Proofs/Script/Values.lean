import ModuleBuild.Proofs.Script.Rules

/-!
# Rules of values

What the rules of values with their links do on plain syntax, in terms of the rules for what stands in them.

## Main definitions

* `valueEnds`, `unaryEnds`, `operationEnds`, `assignmentEnds`, `expressionEnds` — what follows expressions.
* `linkStep`, `argumentItem` — the steps of repetitions.

## Main statements

* `moves_linkStep_member`, `moves_linkStep_index`, `moves_linkStep_call`, `moves_linkStep_none` — links.
* `moves_primary_name`, `moves_primary_function`, `moves_primary_object`, `moves_primary_paren` — values.
* `moves_access` — a value with its links.
-/

namespace ModuleBuild.Script

/-! ## What follows expressions -/

/-- What follows an expression. -/
def expressionEnds : List TokenKind :=
  [.punct ")", .punct "]", .punct ";"]

/-- What follows an expression without commas. -/
def assignmentEnds : List TokenKind :=
  expressionEnds ++ [.punct ",", .punct ":", .punct "\x7d"]

/-- What follows an expression without conditions and assignments. -/
def operationEnds : List TokenKind :=
  assignmentEnds ++ [.punct "?", .punct "="]

/-- Operators between values. -/
def operatorKinds : List TokenKind :=
  [Op.or, .and, .equal, .same, .different, .less, .instanceOf, .isIn].map (·.glyph.kind)

/-- What follows an expression without binary operators. -/
def unaryEnds : List TokenKind :=
  operationEnds ++ operatorKinds

/-- What follows a value with its links. -/
def valueEnds : List TokenKind :=
  unaryEnds ++ [.punct "++"]

/-- The rules of a place in brackets. -/
def Scope.inside (s : Scope) : Scope :=
  { s with allowsIn := true, inCondition := false }

section Values

variable {c : Setting} {rules : Rules} {next l : Lexeme} {ls ls' mid : List Lexeme} {gap gap' : List Char} {start : Nat}
  {a : Access} {x : Name} {key : String} {S T : Node → Prop} {V : List Node → Prop}

theorem Setting.Plain.within (hc : c.Plain) {f : Scope → Scope} (hf : ∀ s, (f s).isGenerator = s.isGenerator) :
    (c.within f).Plain where
  untyped := hc.untyped
  unmarked := hc.unmarked
  noGenerator := (hf c.scope).trans hc.noGenerator

theorem Setting.Plain.inside (hc : c.Plain) : (c.within Scope.inside).Plain :=
  hc.within fun _ => rfl

theorem Setting.Plain.forFunction (hc : c.Plain) : (c.within (Scope.forFunction {})).Plain where
  untyped := hc.untyped
  unmarked := hc.unmarked
  noGenerator := rfl

/-! ## Links -/

/-- One more link of a value, if there is one. -/
def linkStep (rules : Rules) (forNew : Bool) (start : Nat) (a : Access) : Parse (Access ⊕ Access) := do
  match ← accessLink rules forNew start a with
  | some a => return .inl a
  | none => return .inr a

/-- An argument of a call. -/
def argumentItem (rules : Rules) : Parse Node := do
  let start ← place
  if ← accept "..." then
    let value ← rules .assignment
    return .spread (← spanFrom start) value
  else rules .assignment

theorem moves_argumentItem (hl : l.kind ≠ .punct "...") (h : Moves (rules .assignment) c (l :: ls) S ls') :
    Moves (argumentItem rules) c (l :: ls) S ls' := by
  refine moves_place.bind fun _ _ => ?_
  refine (moves_refuse hl).bind ?_
  rintro _ rfl
  exact h

theorem moves_callArguments (h : Moves (loop.go (commaStep ")" (argumentItem rules)) (c.source.length + 2) [])
      (c.within Scope.inside) ls V ls') :
    Moves (callArguments rules) c ls V ls' :=
  .inScope (.loop fun _ => h)

theorem moves_tryTypeArguments (hc : c.Plain) :
    Moves (tryTypeArguments rules) c (l :: ls) (· = false) (l :: ls) := by
  refine moves_get.bind ?_
  rintro _ ⟨before, -, rfl⟩
  refine moves_sees.bind ?_
  rintro _ rfl
  rw [if_neg (by simp [Lexeme.state, hc.untyped])]
  exact .pure rfl

/-- A property. -/
theorem moves_linkStep_member :
    Moves (linkStep rules false start a) c (.sign gap "." :: .word gap' key :: next :: ls)
      (fun r => ∃ b, r = .inl b ∧ ∃ span, b = { a with base := .member span a.base key false }) (next :: ls) := by
  have hlink : Moves (accessLink rules false start a) c (.sign gap "." :: .word gap' key :: next :: ls)
      (fun r => ∃ b, r = some b ∧ ∃ span, b = { a with base := .member span a.base key false }) (next :: ls) := by
    refine moves_get.bind ?_
    rintro _ ⟨before, -, rfl⟩
    refine moves_advance.bind fun _ _ => .map ?_
    refine moves_token.bind ?_
    rintro _ ⟨_, _, rfl⟩
    refine moves_anyWord.bind ?_
    rintro ⟨_, _⟩ rfl
    exact moves_spanFrom.bind fun span _ => .pure ⟨_, rfl, span, rfl⟩
  refine hlink.bind ?_
  rintro _ ⟨b, rfl, hb⟩
  exact .pure ⟨b, rfl, hb⟩

/-- An index. -/
theorem moves_linkStep_index
    (hkey : Moves (rules .expression) (c.within Scope.inside) (l :: ls) S (.sign gap' "]" :: next :: ls')) :
    Moves (linkStep rules false start a) c (.sign gap "[" :: l :: ls)
      (fun r => ∃ b, r = .inl b ∧ ∃ span e, S e ∧ b = { a with base := .index span a.base e false })
      (next :: ls') := by
  have hlink : Moves (accessLink rules false start a) c (.sign gap "[" :: l :: ls)
      (fun r => ∃ b, r = some b ∧ ∃ span e, S e ∧ b = { a with base := .index span a.base e false })
      (next :: ls') := by
    refine moves_get.bind ?_
    rintro _ ⟨before, -, rfl⟩
    refine moves_advance.bind fun _ _ => .map ?_
    refine hkey.inScope.bind fun e he => ?_
    refine moves_expect.bind fun _ _ => ?_
    exact moves_spanFrom.bind fun span _ => .pure ⟨_, rfl, span, e, he, rfl⟩
  refine hlink.bind ?_
  rintro _ ⟨b, rfl, hb⟩
  exact .pure ⟨b, rfl, hb⟩

/-- A call. -/
theorem moves_linkStep_call (hargs : Moves (callArguments rules) c (l :: ls) V (next :: ls')) :
    Moves (linkStep rules false start a) c (.sign gap "(" :: l :: ls)
      (fun r => ∃ b, r = .inl b ∧ ∃ span vs, V vs ∧ b = { a with base := .call span a.base vs false false })
      (next :: ls') := by
  have hlink : Moves (accessLink rules false start a) c (.sign gap "(" :: l :: ls)
      (fun r => ∃ b, r = some b ∧ ∃ span vs, V vs ∧ b = { a with base := .call span a.base vs false false })
      (next :: ls') := by
    refine moves_get.bind ?_
    rintro _ ⟨before, -, rfl⟩
    refine moves_advance.bind fun _ _ => .map ?_
    refine hargs.bind fun vs hvs => ?_
    exact moves_spanFrom.bind fun span _ => .pure ⟨_, rfl, span, vs, hvs, rfl⟩
  refine hlink.bind ?_
  rintro _ ⟨b, rfl, hb⟩
  exact .pure ⟨b, rfl, hb⟩

/-- Behind a value there are no more links. -/
theorem moves_linkStep_none (hc : c.Plain) {forNew : Bool} (hl : l.kind ∈ valueEnds) :
    Moves (linkStep rules forNew start a) c (l :: ls) (fun r => ∃ b, r = .inr b ∧ b = a) (l :: ls) := by
  have htypes : Moves (do if ← tryTypeArguments rules then return some a else return none) c (l :: ls) (· = none)
      (l :: ls) := by
    refine (moves_tryTypeArguments hc).bind ?_
    rintro _ rfl
    exact .pure rfl
  have hlink : Moves (accessLink rules forNew start a) c (l :: ls) (· = none) (l :: ls) := by
    refine moves_get.bind ?_
    rintro _ ⟨before, -, rfl⟩
    have hkind : (l.state c before (rowChars ls)).token.kind = l.kind := rfl
    rw [hkind]
    simp only [valueEnds, unaryEnds, operationEnds, assignmentEnds, expressionEnds, operatorKinds, List.map_cons,
      List.map_nil, List.cons_append, List.nil_append, List.mem_cons, List.not_mem_nil, or_false, Op.glyph,
      Glyph.kind] at hl
    rcases hl with h | h | h | h | h | h | h | h | h | h | h | h | h | h | h | h | h
    all_goals
      rw [h]
      exact htypes
  refine hlink.bind ?_
  rintro _ rfl
  exact .pure ⟨a, rfl, rfl⟩

/-- The value that an object is created with has no call behind it. -/
theorem moves_linkStep_new :
    Moves (linkStep rules true start a) c (.sign gap "(" :: ls) (fun r => ∃ b, r = .inr b ∧ b = a)
      (.sign gap "(" :: ls) := by
  have hlink : Moves (accessLink rules true start a) c (.sign gap "(" :: ls) (· = none) (.sign gap "(" :: ls) := by
    refine moves_get.bind ?_
    rintro _ ⟨before, -, rfl⟩
    exact .pure rfl
  refine hlink.bind ?_
  rintro _ rfl
  exact .pure ⟨a, rfl, rfl⟩

/-! ## Values -/

theorem Name.ne (x : Name) {word : String} (h : word ∈ notableWords) : x.text ≠ word :=
  fun heq => x.plain (heq ▸ h)

theorem moves_primary_name :
    Moves (primary rules) c (.word gap x.text :: next :: ls) (fun n => ∃ span, n = .ident span x.text)
      (next :: ls) := by
  refine moves_get.bind ?_
  rintro _ ⟨before, -, rfl⟩
  have hkind : ((Lexeme.word gap x.text).state c before (rowChars (next :: ls))).token.kind = .word x.text false :=
    rfl
  have hname : Moves (do
      let word ← identifier
      return Node.ident word.1 word.2) c (.word gap x.text :: next :: ls) (fun n => ∃ span, n = .ident span x.text)
      (next :: ls) := by
    refine moves_identifier.bind ?_
    rintro ⟨span, _⟩ rfl
    exact .pure ⟨span, rfl⟩
  dsimp only
  rw [hkind]
  split
  all_goals first
    | exact hname
    | (rename_i h; cases h)
    | (rename_i h; exact absurd (TokenKind.word.inj h).1 (x.ne (by decide)))

theorem moves_primary_string {text : String} :
    Moves (primary rules) c (⟨gap, .string text⟩ :: next :: ls) (fun n => ∃ span, n = .string span (quotedLit text))
      (next :: ls) := by
  refine moves_get.bind ?_
  rintro _ ⟨before, -, rfl⟩
  exact moves_advance.bind fun _ _ => .pure ⟨_, rfl⟩

theorem moves_primary_number {text : String} :
    Moves (primary rules) c (⟨gap, .number text⟩ :: next :: ls) (fun n => ∃ span, n = .number span text)
      (next :: ls) := by
  refine moves_get.bind ?_
  rintro _ ⟨before, -, rfl⟩
  exact moves_advance.bind fun _ _ => .pure ⟨_, rfl⟩

theorem moves_primary_null :
    Moves (primary rules) c (.word gap "null" :: next :: ls) (fun n => ∃ span, n = .null span) (next :: ls) := by
  refine moves_get.bind ?_
  rintro _ ⟨before, -, rfl⟩
  exact moves_advance.bind fun _ _ => .pure ⟨_, rfl⟩

theorem moves_primary_this :
    Moves (primary rules) c (.word gap "this" :: next :: ls) (fun n => ∃ span, n = .this span) (next :: ls) := by
  refine moves_get.bind ?_
  rintro _ ⟨before, -, rfl⟩
  exact moves_advance.bind fun _ _ => .pure ⟨_, rfl⟩

theorem moves_primary_bool {b : Bool} :
    Moves (primary rules) c (.word gap (if b then "true" else "false") :: next :: ls)
      (fun n => ∃ span, n = .bool span b) (next :: ls) := by
  refine moves_get.bind ?_
  rintro _ ⟨before, -, rfl⟩
  cases b <;> exact moves_advance.bind fun _ _ => .pure ⟨_, rfl⟩

/-- A function without a name. -/
theorem moves_primary_function
    (h : ∀ start, Moves (rules (.functionRest start {} none)) c (.sign gap' "(" :: ls) S ls') :
    Moves (primary rules) c (.word gap "function" :: .sign gap' "(" :: ls) S ls' := by
  refine moves_get.bind ?_
  rintro _ ⟨before, -, rfl⟩
  refine moves_expectWord.bind fun _ _ => ?_
  refine (moves_refuse (by simp)).bind ?_
  rintro _ rfl
  have hname (c' : Setting) : Moves functionFrom.optionalName c' (.sign gap' "(" :: ls) (· = none)
      (.sign gap' "(" :: ls) := by
    refine moves_seesIdentifier_sign.bind ?_
    rintro _ rfl
    exact .pure rfl
  refine (hname _).inScope.bind ?_
  rintro _ rfl
  exact h _

/-- An expression in parentheses. -/
theorem moves_primary_paren
    (h : Moves (rules .expression) (c.within Scope.inside) (l :: ls) S (.sign gap' ")" :: next :: ls')) :
    Moves (primary rules) c (.sign gap "(" :: l :: ls) (fun n => ∃ span m, S m ∧ n = .paren span m.inParens)
      (next :: ls') := by
  refine moves_get.bind ?_
  rintro _ ⟨before, -, rfl⟩
  refine moves_place.bind fun _ _ => ?_
  refine moves_expect.bind fun _ _ => ?_
  refine h.inScope.bind fun m hm => ?_
  refine moves_expect.bind fun _ _ => ?_
  exact moves_spanFrom.bind fun span _ => .pure ⟨span, m, hm, rfl⟩

/-- An object. -/
theorem moves_primary_object (h : Moves (loop.go (commaStep "\x7d" (objectProperty rules)) (c.source.length + 2) [])
      (c.within Scope.inside) (l :: ls) V (next :: ls')) :
    Moves (primary rules) c (.sign gap "\x7b" :: l :: ls) (fun n => ∃ span fs, V fs ∧ n = .object span fs)
      (next :: ls') := by
  refine moves_get.bind ?_
  rintro _ ⟨before, -, rfl⟩
  refine moves_place.bind fun _ _ => ?_
  refine moves_expect.bind fun _ _ => ?_
  refine (Moves.inScope (.loop fun _ => h)).bind fun fs hfs => ?_
  exact moves_spanFrom.bind fun span _ => .pure ⟨span, fs, hfs, rfl⟩

theorem moves_memberWord {word : String} {sameLine : Bool} :
    Moves (memberWord word sameLine) c (.word gap key :: .sign gap' ":" :: ls) (· = false)
      (.word gap key :: .sign gap' ":" :: ls) := by
  have hname : Moves endsMemberName c (.sign gap' ":" :: ls) (· = true) (.sign gap' ":" :: ls) := by
    refine moves_sees.bind ?_
    rintro _ rfl
    refine moves_sees.bind ?_
    rintro _ rfl
    refine moves_sees.bind ?_
    rintro _ rfl
    refine moves_sees.bind ?_
    rintro _ rfl
    refine moves_sees.bind ?_
    rintro _ rfl
    refine moves_sees.bind ?_
    rintro _ rfl
    refine moves_sees.bind ?_
    rintro _ rfl
    refine moves_sees.bind ?_
    rintro _ rfl
    refine moves_sees.bind ?_
    rintro _ rfl
    refine moves_token.bind ?_
    rintro _ ⟨_, _, rfl⟩
    exact .pure rfl
  have hends : Moves (do return (← endsMemberName) || (sameLine && (← afterNewline))) c (.sign gap' ":" :: ls)
      (· = true) (.sign gap' ":" :: ls) := by
    refine hname.bind ?_
    rintro _ rfl
    refine moves_afterNewline.bind ?_
    rintro _ rfl
    exact .pure rfl
  refine moves_seesWord.bind ?_
  rintro b rfl
  cases h : (Lexeme.word gap key).kind == .word word false with
  | false => exact .pure rfl
  | true =>
    refine (moves_nextIs hends).bind ?_
    rintro _ rfl
    exact .pure rfl

/-- A property of an object. -/
theorem moves_objectProperty (h : Moves (rules .assignment) c (l :: ls) S (next :: ls')) :
    Moves (objectProperty rules) c (.word gap key :: .sign gap' ":" :: l :: ls)
      (fun n => ∃ span inner a, S a ∧ n = .property span (.nameKey inner key) false a) (next :: ls') := by
  refine moves_place.bind fun _ _ => ?_
  refine (moves_refuse (by simp)).bind ?_
  rintro _ rfl
  refine moves_memberWord.bind ?_
  rintro _ rfl
  refine moves_memberWord.bind ?_
  rintro _ rfl
  refine moves_memberWord.bind ?_
  rintro _ rfl
  refine (moves_refuse (by simp)).bind ?_
  rintro _ rfl
  refine moves_seesIdentifier_any.bind fun _ _ => ?_
  have hkey : Moves (propertyKey rules) c (.word gap key :: .sign gap' ":" :: l :: ls)
      (fun n => ∃ span, n = .nameKey span key) (.sign gap' ":" :: l :: ls) := by
    refine moves_token.bind ?_
    rintro _ ⟨_, _, rfl⟩
    exact moves_advance.bind fun _ _ => .pure ⟨_, rfl⟩
  refine hkey.bind ?_
  rintro _ ⟨inner, rfl⟩
  refine moves_sees.bind ?_
  rintro _ rfl
  refine moves_sees.bind ?_
  rintro _ rfl
  refine moves_get.bind ?_
  rintro _ ⟨before, -, rfl⟩
  refine moves_accept.bind ?_
  rintro _ rfl
  refine h.bind fun a ha => ?_
  exact moves_spanFrom.bind fun span _ => .pure ⟨span, inner, a, ha, rfl⟩

/-! ## Values with their links -/

theorem moves_isMarkedPure : Moves (isMarkedPure start) c (l :: ls) (· = false) (l :: ls) := by
  refine moves_get.bind ?_
  rintro _ ⟨before, -, rfl⟩
  exact .pure rfl

/-- A value that is no arrow function. -/
def Node.isArrow : Node → Bool
  | .func _ shape .. => shape.isArrow
  | _ => false

/-- The links of a value, and the value with them. -/
def accessRest (rules : Rules) (forNew : Bool) (start : Nat) (base : Node) : Parse Node := do
  if base.isArrow then return base
  else
    let a ← loop ({ base } : Access) (linkStep rules forNew start)
    if a.isChain then return .chain (← spanFrom start) a.base
    else return a.base

/-- A value is read, and then its links. -/
theorem moves_access {forNew : Bool} (himport : l.kind ≠ .word "import" false)
    (hbase : Moves (if l.kind == .word "new" false then newExpression rules else primary rules) c (l :: ls)
      (fun n => S n ∧ n.isArrow = false) mid)
    (hlinks : ∀ start n, S n → Moves (loop.go (linkStep rules forNew start) (c.source.length + 2) ⟨n, false⟩) c mid
      (fun a => a.isChain = false ∧ T a.base) ls') :
    Moves (accessRule rules forNew) c (l :: ls) T ls' := by
  refine moves_place.bind fun start _ => ?_
  refine moves_isMarkedPure.bind ?_
  rintro _ rfl
  have hrest (n : Node) (hn : S n ∧ n.isArrow = false) : Moves (accessRest rules forNew start n) c mid T ls' := by
    rw [accessRest, hn.2, if_neg (by simp)]
    refine (Moves.loop fun _ => hlinks start n hn.1).bind ?_
    rintro a ⟨hchain, ha⟩
    rw [hchain, if_neg (by simp)]
    exact .pure ha
  refine moves_seesWord.bind ?_
  rintro _ rfl
  refine moves_seesWord.bind ?_
  rintro _ rfl
  dsimp only
  cases hnew : l.kind == .word "new" false with
  | true =>
    rw [hnew, if_pos rfl] at hbase
    exact hbase.bind hrest
  | false =>
    rw [hnew, if_neg (by simp)] at hbase
    rw [if_neg (by simp), if_neg (by simpa using himport)]
    exact hbase.bind hrest

end Values

end ModuleBuild.Script
