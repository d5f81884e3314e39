import ModuleBuild.Proofs.Script.Operations

/-!
# Rules of statements

What the rules of functions and statements do on plain syntax, in terms of the rules for what stands in them.

## Main definitions

* `statementStep`, `blockStep` — the steps of the repetitions of statements.

## Main statements

* `moves_functionRest` — functions behind their names.
* `moves_statement_word`, `moves_statement_declaration`, `moves_statement_expression` — how statements are told
  from each other.
* `moves_if`, `moves_forIn`, `moves_forLoop`, `moves_throw`, `moves_return`, `moves_exportList` — statements with
  words of their own.
-/

namespace ModuleBuild.Script

/-- The rules of a place where `in` is an operator. -/
def Scope.allowing (s : Scope) : Scope :=
  { s with allowsIn := true }

/-- The rules of the head of a loop. -/
def Scope.heading (s : Scope) : Scope :=
  { s with allowsIn := false }

section Statements

variable {c : Setting} {rules : Rules} {next l m m' : Lexeme} {ls ls' mid mid' : List Lexeme}
  {gap g g₁ g₂ g₃ : List Char}
  {start : Nat} {x : Name} {xs : List Name} {S T U : Node → Prop} {V : List Node → Prop} {items : List Node}

/-! ## Lists of statements -/

/-- One more statement of a list. -/
def statementStep (rules : Rules) : Bool × List Node → Parse ((Bool × List Node) ⊕ List Node) :=
  fun (atStart, items) => do
    let t ← token
    if t.kind == .eof || t.kind == .punct "\x7d" then return .inr items.reverse
    else
      let s ← rules .statement
      match atStart, t.kind, s with
      | true, .string lit, .expr span (.string _ _) =>
        return .inl (true, .directive span lit.raw :: items)
      | _, _, s => return .inl (false, s :: items)

theorem statementList_eq : statementList rules = loop (true, []) (statementStep rules) :=
  rfl

/-- One more statement between braces. -/
def blockStep (rules : Rules) (items : List Node) : Parse (List Node ⊕ List Node) := do
  if ← accept "\x7d" then return .inr items.reverse
  else return .inl ((← rules .statement) :: items)

/-- Tokens that statements of phrases start with. -/
def opensStatement : TokenKind → Bool
  | .punct p => ["(", "\x7b"].contains p
  | .word w false => w != "else"
  | _ => false

theorem opensStatement_facts {k : TokenKind} (h : opensStatement k = true) :
    k ≠ .eof ∧ k ≠ .punct "\x7d" ∧ (∀ lit, k ≠ .string lit) ∧ k ≠ .word "else" false := by
  cases k with
  | punct p =>
    obtain rfl | rfl : p = "(" ∨ p = "\x7b" := by simpa [opensStatement] using h
    all_goals simp
  | word w escaped =>
    cases escaped with
    | true => cases h
    | false => exact ⟨by simp, by simp, by simp, by simpa [opensStatement] using h⟩
  | _ => cases h

theorem moves_statementStep {atStart : Bool} (hl : opensStatement l.kind = true)
    (h : Moves (rules .statement) c (l :: ls) S ls') :
    Moves (statementStep rules (atStart, items)) c (l :: ls)
      (fun r => ∃ a, r = .inl a ∧ ∃ s, S s ∧ a = (false, s :: items)) ls' := by
  obtain ⟨heof, hbrace, hstring, -⟩ := opensStatement_facts hl
  refine moves_token.bind ?_
  rintro _ ⟨_, _, rfl⟩
  dsimp only
  rw [if_neg (by simp [heof, hbrace])]
  refine h.bind fun n hn => ?_
  split
  · exact absurd ‹l.kind = .string _› (hstring _)
  · exact .pure ⟨_, rfl, _, hn, rfl⟩

theorem moves_statementStep_end {atStart : Bool} (hl : l.kind = .eof ∨ l.kind = .punct "\x7d") :
    Moves (statementStep rules (atStart, items)) c (l :: ls) (fun r => ∃ b, r = .inr b ∧ b = items.reverse)
      (l :: ls) := by
  refine moves_token.bind ?_
  rintro _ ⟨_, _, rfl⟩
  dsimp only
  rw [if_pos (by simpa using hl)]
  exact .pure ⟨_, rfl, rfl⟩

theorem moves_blockStep (hl : opensStatement l.kind = true) (h : Moves (rules .statement) c (l :: ls) S ls') :
    Moves (blockStep rules items) c (l :: ls) (fun r => ∃ a, r = .inl a ∧ ∃ s, S s ∧ a = s :: items) ls' := by
  refine (moves_refuse (opensStatement_facts hl).2.1).bind ?_
  rintro _ rfl
  exact h.bind fun s hs => .pure ⟨_, rfl, s, hs, rfl⟩

theorem moves_blockStep_end :
    Moves (blockStep rules items) c (.sign gap "\x7d" :: next :: ls) (fun r => ∃ b, r = .inr b ∧ b = items.reverse)
      (next :: ls) := by
  refine moves_accept.bind ?_
  rintro _ rfl
  exact .pure ⟨_, rfl, rfl⟩

/-! ## Functions -/

theorem moves_functionBody
    (h : Moves (loop.go (statementStep rules) (c.source.length + 2) (true, [])) c (l :: ls) V
      (.sign gap "\x7d" :: next :: ls')) :
    Moves (functionBody rules) c (.sign g "\x7b" :: l :: ls) (fun n => ∃ span ss, V ss ∧ n = .body span ss)
      (next :: ls') := by
  refine moves_place.bind fun _ _ => ?_
  refine moves_expect.bind fun _ _ => ?_
  refine (Moves.loop fun _ => h).bind fun ss hss => ?_
  refine moves_expect.bind fun _ _ => ?_
  exact moves_spanFrom.bind fun span _ => .pure ⟨span, ss, hss, rfl⟩

/-- A function behind its name. -/
theorem moves_functionRest {name : Option String} (hc : c.Plain)
    (hbinding : ∀ (c' : Setting) (x : Name) gap next ls, Moves (rules .binding) c' (.word gap x.text :: next :: ls)
      (fun n => ∃ span, n = .binding span x.text) (next :: ls))
    (hxs : xs.length ≤ c.source.length)
    (hbody : Moves (loop.go (statementStep rules) (c.source.length + 2) (true, [])) (c.within (Scope.forFunction {}))
      (l :: ls) V (.sign gap "\x7d" :: next :: ls')) :
    Moves (functionRestRule rules start {} name) c
      (.sign g "(" :: (parameterRow [] xs ++ .sign g₁ ")" :: .sign g₂ "\x7b" :: l :: ls))
      (fun n => ∃ span inner ps ss, n = .func span {} name ps (.body inner ss) ∧ BindsNames xs ps ∧ V ss)
      (next :: ls') := by
  have hc' := hc.forFunction
  obtain ⟨first, rest, hrow⟩ : ∃ first rest,
      parameterRow [] xs ++ .sign g₁ ")" :: .sign g₂ "\x7b" :: l :: ls = first :: rest :=
    ⟨_, _, (List.cons_head_tail (by simp)).symm⟩
  refine .inScope ?_
  refine (moves_optionalTypeParameters hc').bind fun _ _ => ?_
  have hlist : Moves (parameterList rules) (c.within (Scope.forFunction {}))
      (.sign g "(" :: (parameterRow [] xs ++ .sign g₁ ")" :: .sign g₂ "\x7b" :: l :: ls)) (fun ps => BindsNames xs ps)
      (.sign g₂ "\x7b" :: l :: ls) := by
    rw [hrow]
    refine moves_expect.bind fun _ _ => ?_
    rw [← hrow]
    have hparameters : Moves (loop.go (commaStep ")" (parameter rules)) (c.source.length + 2) [])
        (c.within (Scope.forFunction {})) (parameterRow [] xs ++ .sign g₁ ")" :: .sign g₂ "\x7b" :: l :: ls)
        (fun r => ∃ ps, BindsNames xs ps ∧ r = ps.map some) (.sign g₂ "\x7b" :: l :: ls) :=
      moves_parameters hc' (hbinding _) xs [] [] (by omega)
    refine (Moves.loop fun _ => hparameters).bind ?_
    rintro _ ⟨ps, hps, rfl⟩
    exact .pure (by simpa using hps)
  refine hlist.bind fun ps hps => ?_
  refine (moves_returnType hc').bind fun _ _ => ?_
  refine moves_sees.bind ?_
  rintro _ rfl
  refine moves_get.bind ?_
  rintro _ ⟨before, -, rfl⟩
  rw [if_pos (by simp)]
  refine (moves_functionBody hbody).bind ?_
  rintro _ ⟨inner, ss, hss, rfl⟩
  exact moves_spanFrom.bind fun span _ => .pure ⟨span, inner, ps, ss, rfl, hps, hss⟩

/-- A function declaration. -/
theorem moves_functionDeclaration
    (h : ∀ start, Moves (rules (.functionRest start {} (some x.text))) c (.sign g "(" :: ls)
      (fun n => S n ∧ ∃ span inner ps ss, n = .func span {} (some x.text) ps (.body inner ss)) ls') :
    Moves (functionDeclaration rules true) c (.word gap "function" :: .word g₁ x.text :: .sign g "(" :: ls)
      (fun n => ∃ f, S f ∧ n = .decl f) ls' := by
  have hname : Moves functionFrom.optionalName c (.word g₁ x.text :: .sign g "(" :: ls) (· = some x.text)
      (.sign g "(" :: ls) := by
    refine moves_seesIdentifier.bind ?_
    rintro _ rfl
    refine moves_identifier.bind ?_
    rintro ⟨_, _⟩ rfl
    exact .pure rfl
  have hfunction (start : Nat) : Moves (functionFrom rules start false true) c
      (.word gap "function" :: .word g₁ x.text :: .sign g "(" :: ls)
      (fun n => S n ∧ ∃ span inner ps ss, n = .func span {} (some x.text) ps (.body inner ss)) ls' := by
    refine moves_expectWord.bind fun _ _ => ?_
    refine (moves_refuse (by simp)).bind ?_
    rintro _ rfl
    refine hname.bind ?_
    rintro _ rfl
    exact h _
  refine moves_place.bind fun start _ => ?_
  refine (moves_refuseWord (by simp)).bind ?_
  rintro _ rfl
  refine (hfunction start).bind ?_
  rintro _ ⟨hf, span, inner, ps, ss, rfl⟩
  exact .pure ⟨_, hf, rfl⟩

/-! ## Declarations -/

theorem moves_typedStatement (hc : c.Plain) {isExported : Bool} :
    Moves (typedStatement? rules isExported) c (l :: ls) (· = none) (l :: ls) := by
  refine moves_place.bind fun _ _ => ?_
  refine moves_get.bind ?_
  rintro _ ⟨before, -, rfl⟩
  rw [if_pos (by simp [Lexeme.state, hc.untyped])]
  exact .pure rfl

theorem moves_seesFunction : Moves seesFunction c (.word gap "function" :: ls) (· = true)
    (.word gap "function" :: ls) := by
  refine moves_seesWord.bind ?_
  rintro _ rfl
  exact .pure rfl

theorem moves_seesFunction_none (hfunction : l.kind ≠ .word "function" false) (hasync : l.kind ≠ .word "async" false) :
    Moves seesFunction c (l :: ls) (· = false) (l :: ls) := by
  refine moves_seesWord.bind ?_
  rintro _ rfl
  rw [if_neg (by simpa using hfunction)]
  refine (moves_nextIs_any _).bind fun _ _ => ?_
  refine moves_seesWord.bind ?_
  rintro _ rfl
  exact .pure (by simp [hasync])

/-- The words that declarations start with. -/
def declaringWords : List String :=
  ["function", "async", "class", "var", "const", "let", "using", "await"]

theorem moves_declarationKind {word : String} (hword : word ∉ declaringWords) :
    Moves declarationKind? c (.word gap word :: ls) (· = none) (.word gap word :: ls) := by
  simp only [declaringWords, List.mem_cons, List.not_mem_nil, or_false, not_or] at hword
  refine (moves_nextIs_any _).bind fun _ _ => ?_
  refine (moves_nextIs_any _).bind fun _ _ => ?_
  refine (moves_nextIs_any _).bind fun _ _ => ?_
  refine moves_seesWord.bind ?_
  rintro _ rfl
  rw [if_neg (by simp [hword])]
  refine moves_seesWord.bind ?_
  rintro _ rfl
  rw [if_neg (by simp [hword])]
  refine moves_seesWord.bind ?_
  rintro _ rfl
  rw [if_neg (by simp [hword])]
  refine moves_seesWord.bind ?_
  rintro _ rfl
  rw [if_neg (by simp [hword])]
  refine moves_seesWord.bind ?_
  rintro _ rfl
  rw [if_neg (by simp [hword])]
  exact .pure rfl

theorem moves_declarationKind_var :
    Moves declarationKind? c (.word gap "var" :: ls) (· = some (.varDecl, 1)) (.word gap "var" :: ls) := by
  refine (moves_nextIs_any _).bind fun _ _ => ?_
  refine (moves_nextIs_any _).bind fun _ _ => ?_
  refine (moves_nextIs_any _).bind fun _ _ => ?_
  refine moves_seesWord.bind ?_
  rintro _ rfl
  exact .pure rfl

theorem moves_declaration_none {word : String} (hword : word ∉ declaringWords) :
    Moves (declaration? rules []) c (.word gap word :: ls) (· = none) (.word gap word :: ls) := by
  have hkind : Moves declarationKind? c (.word gap word :: ls) (· = none) (.word gap word :: ls) :=
    moves_declarationKind hword
  simp only [declaringWords, List.mem_cons, List.not_mem_nil, or_false, not_or] at hword
  refine moves_place.bind fun _ _ => ?_
  refine (moves_seesFunction_none (by simp [hword]) (by simp [hword])).bind ?_
  rintro _ rfl
  refine moves_seesWord.bind ?_
  rintro _ rfl
  refine moves_sees.bind ?_
  rintro _ rfl
  rw [if_neg (by simp [hword])]
  refine hkind.bind ?_
  rintro _ rfl
  exact .pure rfl

theorem moves_declaration_function
    (h : Moves (functionDeclaration rules true) c (.word gap "function" :: ls) S ls') :
    Moves (declaration? rules []) c (.word gap "function" :: ls) (fun o => ∃ n, o = some n ∧ S n) ls' := by
  refine moves_place.bind fun _ _ => ?_
  refine moves_seesFunction.bind ?_
  rintro _ rfl
  exact h.some

/-- A variable with its value. -/
theorem moves_declarator_value (hc : c.Plain) {kind : VarKind} {needsValue : Bool}
    (hbinding : Moves (rules .binding) c (.word gap x.text :: .sign g "=" :: l :: ls)
      (fun n => ∃ span, n = .binding span x.text) (.sign g "=" :: l :: ls))
    (hvalue : Moves (rules .assignment) c (l :: ls) S (next :: ls')) :
    Moves (declarator rules kind needsValue) c (.word gap x.text :: .sign g "=" :: l :: ls)
      (fun n => ∃ span inner e, n = .declarator span (.binding inner x.text) (some e) ∧ S e) (next :: ls') := by
  refine moves_place.bind fun _ _ => ?_
  refine hbinding.bind ?_
  rintro _ ⟨inner, rfl⟩
  refine moves_get.bind ?_
  rintro _ ⟨before, -, rfl⟩
  rw [if_neg (by simp [Lexeme.state, hc.untyped])]
  refine (moves_noType hc).bind fun _ _ => ?_
  refine moves_accept.bind ?_
  rintro _ rfl
  refine hvalue.some.bind ?_
  rintro _ ⟨e, rfl, he⟩
  refine (moves_require (by simp)).bind fun _ _ => ?_
  exact moves_spanFrom.bind fun span _ => .pure ⟨span, inner, e, rfl, he⟩

/-- A variable without a value. -/
theorem moves_declarator_bare (hc : c.Plain) (hnext : next.kind ≠ .punct "=")
    (hbinding : Moves (rules .binding) c (.word gap x.text :: next :: ls)
      (fun n => ∃ span, n = .binding span x.text) (next :: ls)) :
    Moves (declarator rules .varDecl false) c (.word gap x.text :: next :: ls)
      (fun n => ∃ span inner, n = .declarator span (.binding inner x.text) none) (next :: ls) := by
  refine moves_place.bind fun _ _ => ?_
  refine hbinding.bind ?_
  rintro _ ⟨inner, rfl⟩
  refine moves_get.bind ?_
  rintro _ ⟨before, -, rfl⟩
  rw [if_neg (by simp [Lexeme.state, hc.untyped])]
  refine (moves_noType hc).bind fun _ _ => ?_
  refine (moves_refuse hnext).bind ?_
  rintro _ rfl
  dsimp only
  rw [if_neg (by simp), pure_bind]
  refine (moves_require (by simp [isPlainName])).bind fun _ _ => ?_
  exact moves_spanFrom.bind fun span _ => .pure ⟨span, inner, rfl⟩

theorem moves_declarators {kind : VarKind} {needsValue : Bool} (hnext : next.kind ≠ .punct ",")
    (h : Moves (declarator rules kind needsValue) c ls S (next :: ls')) :
    Moves (declarators rules kind needsValue) c ls (fun ns => ∃ d, ns = [d] ∧ S d) (next :: ls') := by
  refine h.bind fun d hd => .loop fun _ => .goOut ((moves_refuse hnext).bind ?_)
  rintro _ rfl
  exact .pure ⟨_, rfl, d, rfl, hd⟩

theorem moves_advanceMany_one : Moves (advanceMany 1) c (l :: next :: ls) (fun _ => True) (next :: ls) :=
  moves_advance.bind fun _ _ => .pure trivial

/-- A declaration of a variable. -/
theorem moves_declaration_var
    (h : Moves (declarators rules .varDecl true) (c.within Scope.allowing) (l :: ls) V (.sign g ";" :: next :: ls')) :
    Moves (declaration? rules []) c (.word gap "var" :: l :: ls)
      (fun o => ∃ n, o = some n ∧ ∃ span ds, V ds ∧ n = .var span .varDecl ds) (next :: ls') := by
  refine moves_place.bind fun _ _ => ?_
  refine (moves_seesFunction_none (by simp) (by simp)).bind ?_
  rintro _ rfl
  refine moves_seesWord.bind ?_
  rintro _ rfl
  refine moves_sees.bind ?_
  rintro _ rfl
  refine moves_declarationKind_var.bind ?_
  rintro _ rfl
  refine Moves.some ?_
  refine moves_place.bind fun _ _ => ?_
  refine moves_advanceMany_one.bind fun _ _ => ?_
  refine h.inScope.bind fun ds hds => ?_
  refine moves_semicolon.bind fun _ _ => ?_
  exact moves_spanFrom.bind fun span _ => .pure ⟨span, ds, hds, rfl⟩

/-! ## Branches and loops -/

/-- An expression in the parentheses of a statement. -/
theorem moves_condition
    (h : Moves (rules .expression) (c.within Scope.allowing) (l :: ls) S (.sign g ")" :: next :: ls')) :
    Moves (condition rules) c (.sign gap "(" :: l :: ls) S (next :: ls') := by
  refine moves_expect.bind fun _ _ => ?_
  refine h.inScope.bind fun n hn => ?_
  exact moves_expect.bind fun _ _ => .pure hn

theorem moves_subStatement (h : Moves (rules .statement) c ls (fun n => S n ∧ mayStandAlone n = true) ls') :
    Moves (subStatement rules) c ls S ls' := by
  refine h.bind ?_
  rintro n ⟨hn, halone⟩
  exact (moves_require halone).bind fun _ _ => .pure hn

/-- A branch without `else`. -/
theorem moves_ifStatement (htest : Moves (condition rules) c (l :: ls) S mid)
    (hyes : Moves (subStatement rules) c mid T (next :: ls')) (hnext : next.kind ≠ .word "else" false) :
    Moves (ifStatement rules start) c (.word gap "if" :: l :: ls)
      (fun n => ∃ span a b, n = .ite span a b none ∧ S a ∧ T b) (next :: ls') := by
  refine moves_expectWord.bind fun _ _ => ?_
  refine htest.bind fun a ha => ?_
  refine hyes.bind fun b hb => ?_
  refine (moves_refuseWord hnext).bind ?_
  rintro _ rfl
  dsimp only
  rw [if_neg (by simp), pure_bind]
  exact moves_spanFrom.bind fun span _ => .pure ⟨span, a, b, rfl, ha, hb⟩

/-- A branch with `else`. -/
theorem moves_ifStatement_else (htest : Moves (condition rules) c (l :: ls) S mid)
    (hyes : Moves (subStatement rules) c mid T (.word g "else" :: m :: mid'))
    (hno : Moves (subStatement rules) c (m :: mid') U (next :: ls')) :
    Moves (ifStatement rules start) c (.word gap "if" :: l :: ls)
      (fun n => ∃ span a b e, n = .ite span a b (some e) ∧ S a ∧ T b ∧ U e) (next :: ls') := by
  refine moves_expectWord.bind fun _ _ => ?_
  refine htest.bind fun a ha => ?_
  refine hyes.bind fun b hb => ?_
  refine moves_acceptWord.bind ?_
  rintro _ rfl
  refine hno.some.bind ?_
  rintro _ ⟨e, rfl, he⟩
  exact moves_spanFrom.bind fun span _ => .pure ⟨span, a, b, e, rfl, ha, hb, he⟩

/-- The test, the step and the body of a loop. -/
theorem moves_forLoopRest {head : Option Node}
    (htest : Moves (rules .expression) c (m :: mid) S (.sign g₁ ";" :: m' :: mid'))
    (hstep : Moves (rules .expression) c (m' :: mid') T (.sign g₂ ")" :: l :: ls))
    (hbody : Moves (subStatement rules) c (l :: ls) U (next :: ls')) (hm : m.kind ≠ .punct ";")
    (hm' : m'.kind ≠ .punct ")") :
    Moves (forLoopRest rules start head) c (.sign gap ";" :: m :: mid)
      (fun n => ∃ span a b e, n = .forLoop span head (some a) (some b) e ∧ S a ∧ T b ∧ U e) (next :: ls') := by
  refine moves_expect.bind fun _ _ => ?_
  refine moves_sees.bind ?_
  rintro _ rfl
  rw [if_neg (by simpa using hm)]
  refine htest.some.bind ?_
  rintro _ ⟨a, rfl, ha⟩
  refine moves_expect.bind fun _ _ => ?_
  refine moves_sees.bind ?_
  rintro _ rfl
  rw [if_neg (by simpa using hm')]
  refine hstep.some.bind ?_
  rintro _ ⟨b, rfl, hb⟩
  refine moves_expect.bind fun _ _ => ?_
  refine hbody.bind fun e he => ?_
  exact moves_spanFrom.bind fun span _ => .pure ⟨span, a, b, e, rfl, ha, hb, he⟩

/-- A loop over keys, behind its head. -/
theorem moves_forEach {head : Node} (hobject : Moves (rules .expression) c (m :: mid) S (.sign g ")" :: l :: ls))
    (hbody : Moves (subStatement rules) c (l :: ls) T (next :: ls')) :
    Moves (forEach rules start false head) c (.word gap "in" :: m :: mid)
      (fun n => ∃ span a e, n = .forIn span head a e ∧ S a ∧ T e) (next :: ls') := by
  refine (moves_refuseWord (by simp)).bind ?_
  rintro _ rfl
  refine (moves_require rfl).bind fun _ _ => ?_
  refine moves_expectWord.bind fun _ _ => ?_
  refine hobject.bind fun a ha => ?_
  refine moves_expect.bind fun _ _ => ?_
  refine hbody.bind fun e he => ?_
  exact moves_spanFrom.bind fun span _ => .pure ⟨span, a, e, rfl, ha, he⟩

/-- What follows the variables in the head of a loop. -/
def forRest (rules : Rules) (start headStart : Nat) (items : List Node) : Parse Node := do
  let head := Node.var (← spanFrom headStart) .varDecl items
  if (← seesWord "of") || (← seesWord "in") then
    require (fitsForEach items)
    forEach rules start false head
  else
    require (items.all fun
      | .declarator _ pattern value => value.isSome || isPlainName pattern
      | _ => true)
    forLoopRest rules start (some head)

/-- A loop with a variable in its head. -/
theorem moves_forStatement (hhead : Moves (declarators rules .varDecl false) (c.within Scope.heading) (l :: ls) V mid)
    (hrest : ∀ headStart items, V items → Moves (forRest rules start headStart items) c mid S (next :: ls')) :
    Moves (forStatement rules start) c (.word gap "for" :: .sign g₁ "(" :: .word g₂ "var" :: l :: ls) S
      (next :: ls') := by
  refine moves_expectWord.bind fun _ _ => ?_
  refine (moves_refuseWord (by simp)).bind ?_
  rintro _ rfl
  refine moves_expect.bind fun _ _ => ?_
  refine moves_place.bind fun headStart _ => ?_
  refine moves_sees.bind ?_
  rintro _ rfl
  refine moves_declarationKind_var.bind ?_
  rintro _ rfl
  refine moves_advanceMany_one.bind fun _ _ => ?_
  refine hhead.inScope.bind fun items hitems => ?_
  exact hrest headStart items hitems

/-- A loop over keys, behind its variable. -/
theorem moves_forRest_in {headStart : Nat} (hitems : fitsForEach items = true)
    (hobject : Moves (rules .expression) c (m :: mid) S (.sign g ")" :: l :: ls))
    (hbody : Moves (subStatement rules) c (l :: ls) T (next :: ls')) :
    Moves (forRest rules start headStart items) c (.word gap "in" :: m :: mid)
      (fun n => ∃ span headSpan a e, n = .forIn span (.var headSpan .varDecl items) a e ∧ S a ∧ T e) (next :: ls') := by
  refine moves_spanFrom.bind fun headSpan _ => ?_
  refine moves_seesWord.bind ?_
  rintro _ rfl
  refine moves_seesWord.bind ?_
  rintro _ rfl
  rw [if_pos (by simp)]
  refine (moves_require hitems).bind fun _ _ => ?_
  refine (moves_forEach hobject hbody).mono ?_
  rintro _ ⟨span, a, e, rfl, ha, he⟩
  exact ⟨span, headSpan, a, e, rfl, ha, he⟩

/-- A loop with a test, behind its variable. -/
theorem moves_forRest_test {headStart : Nat} {d : Node} (hd : ∃ span inner e, d = .declarator span inner (some e))
    (htest : Moves (rules .expression) c (m :: mid) S (.sign g₁ ";" :: m' :: mid'))
    (hstep : Moves (rules .expression) c (m' :: mid') T (.sign g₂ ")" :: l :: ls))
    (hbody : Moves (subStatement rules) c (l :: ls) U (next :: ls')) (hm : m.kind ≠ .punct ";")
    (hm' : m'.kind ≠ .punct ")") :
    Moves (forRest rules start headStart [d]) c (.sign gap ";" :: m :: mid)
      (fun n => ∃ span headSpan a b e, n = .forLoop span (some (.var headSpan .varDecl [d])) (some a) (some b) e ∧
        S a ∧ T b ∧ U e) (next :: ls') := by
  obtain ⟨_, _, _, rfl⟩ := hd
  refine moves_spanFrom.bind fun headSpan _ => ?_
  refine moves_seesWord.bind ?_
  rintro _ rfl
  refine moves_seesWord.bind ?_
  rintro _ rfl
  rw [if_neg (by simp)]
  refine (moves_require (by simp)).bind fun _ _ => ?_
  refine (moves_forLoopRest htest hstep hbody hm hm').mono ?_
  rintro _ ⟨span, a, b, e, rfl, ha, hb, he⟩
  exact ⟨span, headSpan, a, b, e, rfl, ha, hb, he⟩

/-! ## Statements -/

theorem moves_throw (hl : l.breaks = false) (h : Moves (rules .expression) c (l :: ls) S (.sign g ";" :: next :: ls')) :
    Moves (wordStatement? rules start "throw") c (.word gap "throw" :: l :: ls)
      (fun o => ∃ n, o = some n ∧ ∃ span e, n = .throw span e ∧ S e) (next :: ls') := by
  refine moves_advance.bind fun _ _ => ?_
  refine moves_afterNewline.bind ?_
  rintro _ rfl
  refine (moves_require (by rw [hl]; rfl)).bind fun _ _ => ?_
  refine h.bind fun e he => ?_
  refine moves_semicolon.bind fun _ _ => ?_
  exact moves_spanFrom.bind fun span _ => .pure ⟨_, rfl, span, e, rfl, he⟩

theorem moves_return (hfunction : c.scope.inFunction = true) (hl : l.breaks = false)
    (hkind : l.kind ≠ .punct "\x7d" ∧ l.kind ≠ .eof ∧ l.kind ≠ .punct ";")
    (h : Moves (rules .expression) c (l :: ls) S (.sign g ";" :: next :: ls')) :
    Moves (wordStatement? rules start "return") c (.word gap "return" :: l :: ls)
      (fun o => ∃ n, o = some n ∧ ∃ span e, n = .ret span (some e) ∧ S e) (next :: ls') := by
  obtain ⟨hbrace, heof, hsemicolon⟩ := hkind
  have hends : Moves endsStatement c (l :: ls) (· = false) (l :: ls) := by
    refine moves_token.bind ?_
    rintro _ ⟨_, _, rfl⟩
    exact .pure (by simp [hl, hbrace, heof])
  refine moves_get.bind ?_
  rintro _ ⟨before, -, rfl⟩
  refine (moves_require hfunction).bind fun _ _ => ?_
  refine moves_advance.bind fun _ _ => ?_
  refine hends.bind ?_
  rintro _ rfl
  refine moves_sees.bind ?_
  rintro _ rfl
  dsimp only
  rw [if_neg (by simpa using hsemicolon)]
  refine h.some.bind ?_
  rintro _ ⟨e, rfl, he⟩
  refine moves_semicolon.bind fun _ _ => ?_
  exact moves_spanFrom.bind fun span _ => .pure ⟨_, rfl, span, e, rfl, he⟩

/-- An expression as a statement. -/
theorem moves_expressionStatement (hnext : m.kind ≠ .punct ":")
    (h : Moves (rules .expression) c (l :: m :: mid) S (.sign g ";" :: next :: ls')) :
    Moves (expressionStatement rules start) c (l :: m :: mid) (fun n => ∃ span e, n = .expr span e ∧ S e)
      (next :: ls') := by
  have hlabels : Moves (nextIs (sees ":")) c (l :: m :: mid) (· = false) (l :: m :: mid) :=
    moves_nextIs (moves_sees.mono fun b hb => hb.trans (by simpa using hnext))
  refine hlabels.bind ?_
  rintro _ rfl
  refine moves_seesIdentifier_any.bind fun _ _ => ?_
  rw [if_neg (by simp)]
  refine h.bind fun e he => ?_
  refine moves_semicolon.bind fun _ _ => ?_
  exact moves_spanFrom.bind fun span _ => .pure ⟨span, e, rfl, he⟩

/-- A block. -/
theorem moves_blockStatement
    (h : Moves (loop.go (blockStep rules) (c.source.length + 2) []) c (l :: ls) V (next :: ls')) :
    Moves (blockStatement rules) c (.sign gap "\x7b" :: l :: ls) (fun n => ∃ span ss, n = .block span ss ∧ V ss)
      (next :: ls') := by
  refine moves_place.bind fun _ _ => ?_
  refine moves_expect.bind fun _ _ => ?_
  refine (Moves.loop fun _ => h).bind fun ss hss => ?_
  exact moves_spanFrom.bind fun span _ => .pure ⟨span, ss, rfl, hss⟩

/-- A statement between braces. -/
theorem moves_statement_block
    (h : Moves (blockStatement rules) (c.within Scope.inside) (.sign gap "\x7b" :: ls) S ls') :
    Moves (statementRule rules) c (.sign gap "\x7b" :: ls) S ls' := by
  refine .inScope (moves_token.bind ?_)
  rintro _ ⟨_, _, rfl⟩
  exact h

/-- A statement that starts with a parenthesis. -/
theorem moves_statement_paren
    (h : ∀ start, Moves (expressionStatement rules start) (c.within Scope.inside) (.sign gap "(" :: ls) S ls') :
    Moves (statementRule rules) c (.sign gap "(" :: ls) S ls' := by
  refine .inScope (moves_token.bind ?_)
  rintro _ ⟨_, _, rfl⟩
  exact h _

/-- A declaration. -/
theorem moves_statement_declaration {word : String} (hc : c.Plain)
    (h : Moves (declaration? rules []) (c.within Scope.inside) (.word gap word :: ls)
      (fun o => ∃ n, o = some n ∧ S n) ls') :
    Moves (statementRule rules) c (.word gap word :: ls) S ls' := by
  refine .inScope (moves_token.bind ?_)
  rintro _ ⟨_, _, rfl⟩
  refine (moves_typedStatement hc.inside).bind ?_
  rintro _ rfl
  refine h.bind ?_
  rintro _ ⟨n, rfl, hn⟩
  exact .pure hn

/-- A statement that starts with a word. -/
theorem moves_statement_word {word : String} (hc : c.Plain) (hword : word ∉ declaringWords)
    (h : ∀ start, Moves (wordStatement? rules start word) (c.within Scope.inside) (.word gap word :: ls)
      (fun o => ∃ n, o = some n ∧ S n) ls') :
    Moves (statementRule rules) c (.word gap word :: ls) S ls' := by
  refine .inScope (moves_token.bind ?_)
  rintro _ ⟨_, _, rfl⟩
  refine (moves_typedStatement hc.inside).bind ?_
  rintro _ rfl
  refine (moves_declaration_none hword).bind ?_
  rintro _ rfl
  refine (h _).bind ?_
  rintro _ ⟨n, rfl, hn⟩
  exact .pure hn

theorem Name.not_declaring (x : Name) : x.text ∉ declaringWords := by
  have hall : ∀ word ∈ declaringWords, word ∈ notableWords := by decide
  exact fun h => x.plain (hall _ h)

/-- An expression that starts with a name, as a statement. -/
theorem moves_statement_name (hc : c.Plain)
    (h : ∀ start, Moves (expressionStatement rules start) (c.within Scope.inside) (.word gap x.text :: ls) S ls') :
    Moves (statementRule rules) c (.word gap x.text :: ls) S ls' := by
  have hnone (start : Nat) : wordStatement? rules start x.text = pure none := by
    unfold wordStatement?
    split
    all_goals first
      | rfl
      | (rename_i hx; exact absurd hx (x.ne (by decide)))
  refine .inScope (moves_token.bind ?_)
  rintro _ ⟨_, _, rfl⟩
  refine (moves_typedStatement hc.inside).bind ?_
  rintro _ rfl
  refine (moves_declaration_none x.not_declaring).bind ?_
  rintro _ rfl
  dsimp only
  rw [hnone, pure_bind]
  exact h _

/-! ## Exports -/

theorem moves_moduleName {text : String} :
    Moves moduleName c (.word gap text :: next :: ls) (· = .word text) (next :: ls) := by
  refine moves_token.bind ?_
  rintro _ ⟨_, _, rfl⟩
  refine moves_anyWord.bind ?_
  rintro ⟨_, _⟩ rfl
  exact .pure rfl

/-- A name that is exported under another one. -/
theorem moves_specifier {exported : String} (hc : c.Plain) :
    Moves specifier c (.word gap x.text :: .word g "as" :: .word g₁ exported :: next :: ls)
      (· = ⟨.word x.text, some (.word exported), false⟩) (next :: ls) := by
  refine (moves_nextIs_any _).bind fun _ _ => ?_
  refine moves_get.bind ?_
  rintro _ ⟨before, -, rfl⟩
  refine moves_seesWord.bind ?_
  rintro _ rfl
  have htypes : ((Lexeme.word gap x.text).state c before
      (rowChars (.word g "as" :: .word g₁ exported :: next :: ls))).dialect.hasTypes = false := hc.untyped
  dsimp only
  rw [htypes, if_neg (by simp)]
  refine moves_moduleName.bind ?_
  rintro _ rfl
  refine moves_acceptWord.bind ?_
  rintro _ rfl
  refine moves_moduleName.some.bind ?_
  rintro _ ⟨_, rfl, rfl⟩
  exact .pure rfl

/-- What is read of an export list. -/
def specifiersOf (names : List (Name × String)) : List Specifier :=
  names.map fun e => ⟨.word e.1.text, some (.word e.2), false⟩

theorem moves_entries (hc : c.Plain) (names : List (Name × String)) (items : List Specifier) {n : Nat}
    (hn : names.length < n) :
    Moves (loop.go (commaStep "\x7d" specifier) n items) c (entryRow names ++ .sign gap "\x7d" :: next :: ls)
      (· = items.reverse ++ specifiersOf names) (next :: ls) := by
  induction names generalizing items n with
  | nil =>
    obtain ⟨n, rfl⟩ := Nat.exists_eq_succ_of_ne_zero (Nat.ne_of_gt hn)
    refine .goOut (moves_commaStep_close.mono ?_)
    rintro _ rfl
    exact ⟨_, rfl, by simp [specifiersOf]⟩
  | cons e names ih =>
    obtain ⟨x, exported⟩ := e
    obtain ⟨n, rfl⟩ := Nat.exists_eq_succ_of_ne_zero (Nat.ne_of_gt (Nat.zero_lt_of_lt hn))
    cases names with
    | nil =>
      refine .goOut ((moves_commaStep_last (by simp) (by decide) (moves_specifier hc)).mono ?_)
      rintro _ ⟨_, rfl, rfl⟩
      exact ⟨_, rfl, rfl⟩
    | cons e names =>
      obtain ⟨rest, hrest⟩ : ∃ rest, entryRow (e :: names) ++ .sign gap "\x7d" :: next :: ls =
          .word [' '] e.1.text :: rest := by
        cases names <;> exact ⟨_, rfl⟩
      rw [entryRow, List.cons_append, List.cons_append, List.cons_append, List.cons_append, hrest]
      refine .goOn (moves_commaStep_more (by simp) (moves_specifier hc)) ?_
      rintro _ ⟨_, rfl, rfl⟩
      rw [← hrest]
      refine (ih _ (Nat.lt_of_succ_lt_succ hn)).mono ?_
      rintro _ rfl
      simp [specifiersOf]

/-- Exported names may be names of variables. -/
theorem moves_localNames (names : List (Name × String)) :
    Moves ((specifiersOf names).forM fun s => discard (localOf s.name)) c (l :: ls) (fun _ => True) (l :: ls) := by
  induction names with
  | nil => exact .pure trivial
  | cons e names ih =>
    have hlocal : Moves (discard (localOf (.word e.1.text))) c (l :: ls) (fun _ => True) (l :: ls) := by
      refine .map ?_
      refine moves_get.bind ?_
      rintro _ ⟨before, -, rfl⟩
      exact (moves_require (e.1.isIdentifier _)).bind fun _ _ => .pure trivial
    exact hlocal.bind fun _ _ => ih

/-- An export list. -/
theorem moves_exportList (hc : c.Plain) (names : List (Name × String)) (hnames : names.length ≤ c.source.length) :
    Moves (exportList start false) c
      (.sign gap "\x7b" :: (entryRow names ++ .sign g "\x7d" :: .sign g₁ ";" :: next :: ls))
      (fun n => ∃ span, n = .exportList span (names.map fun e => ⟨.word e.1.text, .word e.2⟩) none [])
      (next :: ls) := by
  obtain ⟨first, rest, hrow⟩ : ∃ first rest,
      entryRow names ++ .sign g "\x7d" :: .sign g₁ ";" :: next :: ls = first :: rest :=
    ⟨_, _, (List.cons_head_tail (by simp)).symm⟩
  have hentries : Moves (commaList "\x7d" specifier) c
      (entryRow names ++ .sign g "\x7d" :: .sign g₁ ";" :: next :: ls) (· = specifiersOf names)
      (.sign g₁ ";" :: next :: ls) :=
    .loop fun _ => moves_entries hc names [] (by omega)
  rw [hrow] at hentries ⊢
  refine moves_expect.bind fun _ _ => ?_
  refine hentries.bind ?_
  rintro _ rfl
  refine moves_seesWord.bind ?_
  rintro _ rfl
  dsimp only
  rw [if_neg (by simp), pure_bind, if_pos (by simp)]
  refine (moves_localNames names).bind fun _ _ => ?_
  refine moves_semicolon.bind fun _ _ => ?_
  refine moves_spanFrom.bind fun span _ => ?_
  have hkept : (specifiersOf names).filter (!·.isType) = specifiersOf names := by
    refine List.filter_eq_self.mpr fun s hs => ?_
    obtain ⟨e, -, rfl⟩ := List.mem_map.mp hs
    rfl
  dsimp only
  rw [hkept, if_neg (by simp)]
  exact .pure ⟨span, by simp [specifiersOf]⟩

/-- An export of names. -/
theorem moves_export (hc : c.Plain) (names : List (Name × String)) (hnames : names.length ≤ c.source.length) :
    Moves (wordStatement? rules start "export") c
      (.word gap "export" :: .sign g₂ "\x7b" :: (entryRow names ++ .sign g "\x7d" :: .sign g₁ ";" :: next :: ls))
      (fun o => ∃ n, o = some n ∧
        ∃ span, n = .exportList span (names.map fun e => ⟨.word e.1.text, .word e.2⟩) none []) (next :: ls) := by
  refine Moves.some ?_
  refine moves_place.bind fun _ _ => ?_
  refine moves_expectWord.bind fun _ _ => ?_
  refine moves_get.bind ?_
  rintro _ ⟨before, -, rfl⟩
  refine (moves_nextIs_any _).bind fun _ _ => ?_
  refine moves_sees.bind ?_
  rintro _ rfl
  refine moves_sees.bind ?_
  rintro _ rfl
  exact moves_exportList hc names hnames

end Statements

end ModuleBuild.Script
