import ModuleBuild.Proofs.Script.ExpressionReading

/-!
# Plain statements are read as they are written

The rules of statements pass over the rows of plain statements, and so do the rules of all phrases.

## Main statements

* `Phrase.reads` — every phrase is read as one of its trees, wherever it stands.
-/

namespace ModuleBuild.Script

namespace Phrase

variable {c : Setting} {n : Nat} {l m next : Lexeme} {rest ls ls' mid : List Lexeme} {x : Name} {S : Node → Prop}
  {i : Nat}
  {gap : List Char} {returns : Bool}

/-! ## Expressions as statements -/

/-- What follows a name is no colon, unless one stands behind its links. -/
theorem exists_second_links {a b : Bool} (p : Phrase (.links a b)) (hnext : next.kind ≠ .punct ":") :
    ∃ m mid, p.row [] i ++ next :: ls = m :: mid ∧ m.kind ≠ .punct ":" := by
  cases p with
  | noLink => exact ⟨next, ls, rfl, hnext⟩
  | member | index | call => exact ⟨_, _, rfl, by simp⟩

/-- A statement that is an expression that starts with a name. -/
theorem moves_nameStatement {e : Phrase .expression} (he : e.Reads) (hfits : c.Fits e.weight n)
    (hrow : e.row gap i ++ .sign [] ";" :: next :: ls = .word gap x.text :: m :: mid) (hm : m.kind ≠ .punct ":") :
    Moves (grammar (n + 1) .statement) c (e.row gap i ++ .sign [] ";" :: next :: ls)
      (fun s => ∃ span a, s = .expr span a ∧ e.Shape a) (next :: ls) := by
  have hread : Moves (grammar n .expression) (c.within Scope.inside) (e.row gap i ++ .sign [] ";" :: next :: ls) e.Shape
      (.sign [] ";" :: next :: ls) := he hfits.inside rfl (by decide)
  rw [hrow] at hread ⊢
  exact moves_statement_name hfits.plain fun start => moves_expressionStatement hm hread

theorem reads_perform {b : Bool} {links : Phrase (.links true b)} (hlinks : links.Reads) :
    (perform x links : Phrase (.statement returns)).Reads := by
  intro c n gap i next ls hfits _ _
  have hweight : (perform x links : Phrase (.statement returns)).weight = links.weight + 2 := rfl
  have hdeep := hfits.deep
  obtain ⟨n, rfl⟩ : ∃ n', n = n' + 1 := ⟨n - 1, by omega⟩
  have hpart : c.Fits (links.weight + 1) n := hfits.part (by omega) (by omega)
  have he : (one (simple (operand (plain (name x links))))).Reads :=
    reads_one (reads_simple (reads_operand (reads_plain (reads_name hlinks))))
  have hcolon : (Lexeme.sign [] ";").kind ≠ .punct ":" := by simp
  obtain ⟨m, mid, hrow, hm⟩ := @exists_second_links _ (next :: ls) i true b links hcolon
  simp only [row, List.append_assoc, List.cons_append, List.nil_append]
  have hrow' : (one (simple (operand (plain (name x links))))).row gap i ++ .sign [] ";" :: next :: ls =
      .word gap x.text :: m :: mid := by
    simp only [row, List.cons_append, hrow]
  refine (moves_nameStatement he hpart hrow' hm).mono ?_
  rintro _ ⟨span, a, rfl, inner, ha⟩
  exact ⟨span, inner, a, rfl, ha⟩

theorem reads_set {links : Phrase (.links true true)} {v : Phrase .assignment} (hlinks : links.Reads) (hv : v.Reads) :
    (set x links v : Phrase (.statement returns)).Reads := by
  intro c n gap i next ls hfits _ _
  have hweight : (set x links v : Phrase (.statement returns)).weight = links.weight + v.weight + 3 := rfl
  have hdeep := hfits.deep
  obtain ⟨n, rfl⟩ : ∃ n', n = n' + 1 := ⟨n - 1, by omega⟩
  have hpart : c.Fits (links.weight + v.weight + 2) n := hfits.part (by omega) (by omega)
  have he : (one (assign x links v)).Reads := reads_one (reads_assign hlinks hv)
  have hcolon : (Lexeme.sign [' '] "=").kind ≠ .punct ":" := by simp
  obtain ⟨m, mid, hrow, hm⟩ :=
    @exists_second_links _ (v.row [' '] i ++ .sign [] ";" :: next :: ls) i true true links hcolon
  have hrow' : (one (assign x links v)).row gap i ++ .sign [] ";" :: next :: ls = .word gap x.text :: m :: mid := by
    simp only [row, List.append_assoc, List.cons_append, hrow]
  have hsame : (set x links v : Phrase (.statement returns)).row gap i ++ next :: ls =
      (one (assign x links v)).row gap i ++ .sign [] ";" :: next :: ls := by
    simp only [row, List.append_assoc, List.cons_append, List.nil_append]
  rw [hsame]
  refine (moves_nameStatement he hpart hrow' hm).mono ?_
  rintro _ ⟨span, a, rfl, span', inner, target, e, rfl, htarget, he⟩
  exact ⟨span, span', inner, target, e, rfl, htarget, he⟩

/-- A value as an expression without commas. -/
theorem moves_assignment_value (hc : c.Plain) (hopens : opensValue l.kind = true) (hnext : next.kind ∈ assignmentEnds)
    (harrow : Moves (arrowFunction (grammar (n + 1))) c (l :: rest) (· = none) (l :: rest))
    (h : Moves (grammar n (.access false)) c (l :: rest) (fun e => S e ∧ e.isOperand = true) (next :: ls)) :
    Moves (grammar (n + 2) .assignment) c (l :: rest) S (next :: ls) := by
  have hends : next.kind ∈ operationEnds := mem_operationEnds hnext
  have hend : ∀ level, precedence? c.scope.allowsIn next.kind = some level → level < 0 := by
    intro level h
    rw [precedence_eq_none hends] at h
    cases h
  have hunary : Moves (grammar (n + 1) .unary) c (l :: rest) (fun e => S e ∧ e.isOperand = true) (next :: ls) :=
    moves_unary_value hopens (mem_unaryEnds hends) h
  have hbinary : Moves (Script.binary (grammar (n + 1))) c (l :: rest) S (next :: ls) := by
    refine moves_binary hunary fun e he => ?_
    rw [binaryFrom_succ]
    refine .loop fun _ => .goOut ((moves_binaryStep_end hc (mem_unaryEnds hends) hend).mono ?_)
    rintro _ ⟨_, rfl, rfl⟩
    exact ⟨_, rfl, he⟩
  exact moves_assignmentRule hc harrow fun _ => moves_assignmentRest_plain hbinary hnext

/-- A value as an expression. -/
theorem moves_expression_value (hc : c.Plain) (hopens : opensValue l.kind = true) (hnext : next.kind ∈ expressionEnds)
    (harrow : Moves (arrowFunction (grammar (n + 1))) c (l :: rest) (· = none) (l :: rest))
    (h : Moves (grammar n (.access false)) c (l :: rest) (fun e => S e ∧ e.isOperand = true) (next :: ls)) :
    Moves (grammar (n + 3) .expression) c (l :: rest) S (next :: ls) :=
  moves_expression_one (moves_assignment_value hc hopens (mem_assignmentEnds hnext) harrow h)
    fun heq => absurd (heq ▸ hnext) (by decide)

/-- A keyword is bound by no declaration. -/
theorem fails_binding : Fails (grammar n .binding) c (.word gap "function" :: next :: ls) := by
  cases n with
  | zero => exact fails_failure
  | succ n =>
    refine moves_place.fails fun _ _ => ?_
    refine (moves_refuse (by simp)).fails ?_
    rintro _ rfl
    refine (moves_refuse (by simp)).fails ?_
    rintro _ rfl
    have hidentifier : Fails identifier c (.word gap "function" :: next :: ls) := by
      refine moves_get.fails ?_
      rintro _ ⟨before, -, rfl⟩
      exact fails_failure
    exact hidentifier.bind

theorem reads_wrapped {body : Phrase (.statements true)} {v : Phrase .assignment} (hbody : body.Reads) (hv : v.Reads) :
    (wrapped x body v : Phrase (.statement returns)).Reads := by
  intro c n gap i next ls hfits _ _
  have hweight : (wrapped x body v : Phrase (.statement returns)).weight = body.weight + v.weight + 11 := rfl
  have hdeep := hfits.deep
  have hroom := hfits.room
  obtain ⟨n, rfl⟩ : ∃ n', n = n' + 12 := ⟨n - 12, by omega⟩
  have hc := hfits.plain.inside
  let argument : Phrase (.links true false) := call (lastArgument v) noLink
  have hargument : argument.weight = v.weight + 2 := by simp only [argument, weight]
  have hpart : ((c.within Scope.inside).within Scope.inside).Fits body.weight (n + 2 + 3) :=
    hfits.inside.inside.part (by omega) (by omega)
  have hpart' : (c.within Scope.inside).Fits argument.weight (n + 7) := hfits.inside.part (by omega) (by omega)
  have hxs : [x].length ≤ c.source.length := by simp only [List.length_singleton]; omega
  have hm : argument.weight < (c.within Scope.inside).source.length + 2 := by change _ < c.source.length + 2; omega
  simp only [row, List.append_assoc, List.cons_append, List.nil_append]
  -- The function, which stands in parentheses.
  have hfunction : Moves (grammar (n + 4) (.access false)) ((c.within Scope.inside).within Scope.inside)
      (.word [] "function" :: .sign [' '] "(" :: .word [] x.text :: .sign [] ")" :: .sign [' '] "\x7b" ::
        (body.row (newLine i) i ++ .sign (newLine i) "\x7d" :: .sign [] ")" :: .sign [] "(" ::
          (v.row [] i ++ .sign [] ")" :: .sign [] ";" :: next :: ls)))
      (fun f => (∃ span inner ps ss, f = .func span {} none ps (.body inner ss) ∧ BindsNames [x] ps ∧ body.Shape ss) ∧
        f.isOperand = true)
      (.sign [] ")" :: .sign [] "(" :: (v.row [] i ++ .sign [] ")" :: .sign [] ";" :: next :: ls)) := by
    refine moves_linkless hc.inside rfl (by decide) ?_
    rw [if_neg (by simp)]
    refine (moves_primary_function fun start => moves_grammar_functionRest hbody hpart hxs (by omega)).mono ?_
    rintro _ ⟨span, inner, ps, ss, rfl, hps, hss⟩
    exact ⟨⟨⟨span, inner, ps, ss, rfl, hps, hss⟩, rfl⟩, rfl⟩
  have hinner := moves_expression_value hc.inside rfl (by decide)
    (moves_noArrow hc.inside (by simp) (by simp) (by simp)) hfunction
  have hcall : Moves (grammar (n + 8) (.access false)) (c.within Scope.inside)
      (.sign gap "(" :: .word [] "function" :: .sign [' '] "(" :: .word [] x.text :: .sign [] ")" ::
        .sign [' '] "\x7b" ::
        (body.row (newLine i) i ++ .sign (newLine i) "\x7d" :: .sign [] ")" :: .sign [] "(" ::
          (v.row [] i ++ .sign [] ")" :: .sign [] ";" :: next :: ls)))
      (fun e => (∃ span parenSpan funcSpan paramSpan bodySpan ss a, e = .call span (.paren parenSpan
        (.func funcSpan { isWrapped := true } none [.binding paramSpan x.text] (.body bodySpan ss))) [a] false false ∧
          body.Shape ss ∧ v.Shape a) ∧ e.isOperand = true) (.sign [] ";" :: next :: ls) := by
    refine moves_access (by simp) ((moves_primary_paren hinner).mono fun e he => And.intro he ?_) ?_
    · obtain ⟨span, m, -, rfl⟩ := he
      rfl
    rintro start _ ⟨parenSpan, _, ⟨funcSpan, bodySpan, ps, ss, rfl, hps, hss⟩, rfl⟩
    cases hps with
    | cons hparameter hnone =>
      cases hnone
      obtain ⟨paramSpan, rfl⟩ := hparameter
      have hlink : argument.Reads := reads_call (reads_lastArgument hv) reads_noLink
      have hends : (Lexeme.sign [] ";").kind ∈ valueEnds := by decide
      have hrow : .sign [] "(" :: (v.row [] i ++ .sign [] ")" :: .sign [] ";" :: next :: ls) =
          argument.row [] i ++ .sign [] ";" :: next :: ls := by
        simp only [argument, row, List.append_assoc, List.cons_append, List.nil_append]
      rw [hrow]
      refine (hlink hpart' hends hm).mono ?_
      rintro _ ⟨hchain, span, _, ⟨a, rfl, ha⟩, hbase⟩
      refine ⟨hchain, ⟨span, parenSpan, funcSpan, paramSpan, bodySpan, ss, a, hbase, hss, ha⟩, ?_⟩
      rw [hbase]
      rfl
  have hread := moves_expression_value hc rfl (by decide) (moves_noArrow_function hc fun _ => fails_binding) hcall
  refine (moves_statement_paren fun start => moves_expressionStatement (by simp) hread).mono ?_
  rintro _ ⟨span, _, rfl, callSpan, parenSpan, funcSpan, paramSpan, bodySpan, ss, a, rfl, hss, ha⟩
  exact ⟨span, callSpan, parenSpan, funcSpan, paramSpan, bodySpan, ss, a, rfl, hss, ha⟩

/-! ## Declarations -/

theorem reads_var {v : Phrase .assignment} (hv : v.Reads) : (var x v : Phrase (.statement returns)).Reads := by
  intro c n gap i next ls hfits _ _
  have hweight : (var x v : Phrase (.statement returns)).weight = v.weight + 4 := rfl
  have hdeep := hfits.deep
  obtain ⟨n, rfl⟩ : ∃ n', n = n' + 1 := ⟨n - 1, by omega⟩
  have hpart : ((c.within Scope.inside).within Scope.allowing).Fits v.weight (n + 1) :=
    hfits.inside.allowing.part (by omega) (by omega)
  have hread : Moves (grammar n .assignment) ((c.within Scope.inside).within Scope.allowing)
      (v.row [' '] i ++ .sign [] ";" :: next :: ls) v.Shape (.sign [] ";" :: next :: ls) := hv hpart rfl (by decide)
  obtain ⟨l, more, hrow⟩ := exists_cons_append (v.row [' '] i) (.sign [] ";") (next :: ls)
  rw [hrow] at hread
  simp only [row, List.append_assoc, List.cons_append, List.nil_append]
  rw [hrow]
  refine (moves_statement_declaration hfits.plain (moves_declaration_var (moves_declarators (by simp)
    (moves_declarator_value hpart.plain (moves_grammar_binding (by omega)) hread)))).mono ?_
  rintro _ ⟨span, _, ⟨_, rfl, span', inner, e, rfl, he⟩, rfl⟩
  exact ⟨span, span', inner, e, rfl, he⟩

theorem reads_function {xs : List Name} {body : Phrase (.statements true)} (hbody : body.Reads) :
    (function x xs body : Phrase (.statement returns)).Reads := by
  intro c n gap i next ls hfits _ _
  have hweight : (function x xs body : Phrase (.statement returns)).weight =
      (parameterRow [] xs).length + body.weight + 6 := rfl
  have hxs := length_le_parameterRow [] xs
  have hdeep := hfits.deep
  have hroom := hfits.room
  obtain ⟨n, rfl⟩ : ∃ n', n = n' + 2 := ⟨n - 2, by omega⟩
  have hpart : (c.within Scope.inside).Fits body.weight (n + 3) := hfits.inside.part (by omega) (by omega)
  have hxs' : xs.length ≤ (c.within Scope.inside).source.length := le_trans hxs (by change _ ≤ c.source.length; omega)
  simp only [row, List.append_assoc, List.cons_append, List.nil_append]
  refine (moves_statement_declaration hfits.plain (moves_declaration_function (moves_functionDeclaration fun start =>
    (moves_grammar_functionRest hbody hpart hxs' (by omega)).mono fun f hf => ⟨hf, ?_⟩))).mono ?_
  · obtain ⟨span, inner, ps, ss, rfl, -⟩ := hf
    exact ⟨span, inner, ps, ss, rfl⟩
  · rintro _ ⟨_, ⟨span, inner, ps, ss, rfl, hps, hss⟩, rfl⟩
    exact ⟨span, inner, ps, ss, rfl, hps, hss⟩

theorem length_le_entryRow (names : List (Name × String)) : names.length ≤ (entryRow names).length := by
  fun_induction entryRow names with
  | case1 => exact Nat.le_refl _
  | case2 => simp
  | case3 x exported e names ih =>
    simp only [List.length_cons] at ih ⊢
    omega

theorem reads_exports {names : List (Name × String)} : (exports names : Phrase (.statement returns)).Reads := by
  intro c n gap i next ls hfits _ _
  have hweight : (exports names : Phrase (.statement returns)).weight = (entryRow names).length + 4 := rfl
  have hnames := length_le_entryRow names
  have hdeep := hfits.deep
  have hroom := hfits.room
  obtain ⟨n, rfl⟩ : ∃ n', n = n' + 1 := ⟨n - 1, by omega⟩
  have hnames' : names.length ≤ (c.within Scope.inside).source.length := by change _ ≤ c.source.length; omega
  simp only [row, List.append_assoc, List.cons_append, List.nil_append]
  exact moves_statement_word hfits.plain (by decide) fun start => moves_export hfits.plain.inside names hnames'

/-! ## Branches and jumps -/

theorem moves_grammar_sub {p : Phrase (.statement returns)} (h : Moves (grammar n .statement) c ls p.Shape ls') :
    Moves (subStatement (grammar n)) c ls p.Shape ls' :=
  moves_subStatement (h.mono fun s hs => ⟨hs, p.settled s hs⟩)

theorem reads_ret {e : Phrase .expression} (he : e.Reads) : (ret e).Reads := by
  intro c n gap i next ls hfits hfunction _
  have hweight : (ret e).weight = e.weight + 2 := rfl
  have hdeep := hfits.deep
  obtain ⟨n, rfl⟩ : ∃ n', n = n' + 1 := ⟨n - 1, by omega⟩
  have hpart : (c.within Scope.inside).Fits e.weight n := hfits.inside.part (by omega) (by omega)
  have hread : Moves (grammar n .expression) (c.within Scope.inside) (e.row [' '] i ++ .sign [] ";" :: next :: ls)
      e.Shape
      (.sign [] ";" :: next :: ls) := he hpart rfl (by decide)
  have hinside : (c.within Scope.inside).scope.inFunction = true := hfunction rfl
  obtain ⟨l, rest, hrow, hgap, hopens⟩ := e.opens [' '] i
  obtain ⟨-, -, hsemicolon, hbrace, -, heof, -⟩ := opensExpression_facts hopens
  have hbreaks : l.breaks = false := by rw [Lexeme.breaks, hgap]; rfl
  rw [hrow, List.cons_append] at hread
  simp only [row, List.append_assoc, List.cons_append, List.nil_append]
  rw [hrow, List.cons_append]
  refine moves_statement_word hfits.plain (by decide) fun start => ?_
  exact moves_return hinside hbreaks ⟨hbrace, heof, hsemicolon⟩ hread

theorem reads_throw {e : Phrase .expression} (he : e.Reads) : (throw e : Phrase (.statement returns)).Reads := by
  intro c n gap i next ls hfits _ _
  have hweight : (throw e : Phrase (.statement returns)).weight = e.weight + 2 := rfl
  have hdeep := hfits.deep
  obtain ⟨n, rfl⟩ : ∃ n', n = n' + 1 := ⟨n - 1, by omega⟩
  have hpart : (c.within Scope.inside).Fits e.weight n := hfits.inside.part (by omega) (by omega)
  have hread : Moves (grammar n .expression) (c.within Scope.inside) (e.row [' '] i ++ .sign [] ";" :: next :: ls)
      e.Shape
      (.sign [] ";" :: next :: ls) := he hpart rfl (by decide)
  obtain ⟨l, rest, hrow, hgap, -⟩ := e.opens [' '] i
  have hbreaks : l.breaks = false := by rw [Lexeme.breaks, hgap]; rfl
  rw [hrow, List.cons_append] at hread
  simp only [row, List.append_assoc, List.cons_append, List.nil_append]
  rw [hrow, List.cons_append]
  exact moves_statement_word hfits.plain (by decide) fun start => moves_throw hbreaks hread

theorem reads_ifThen {test : Phrase .expression} {yes : Phrase (.statement returns)} (htest : test.Reads)
    (hyes : yes.Reads) :
    (ifThen test yes).Reads := by
  intro c n gap i next ls hfits hfunction hnext
  have hweight : (ifThen test yes).weight = test.weight + yes.weight + 3 := rfl
  have hdeep := hfits.deep
  obtain ⟨n, rfl⟩ : ∃ n', n = n' + 1 := ⟨n - 1, by omega⟩
  have hpart : ((c.within Scope.inside).within Scope.allowing).Fits test.weight n :=
    hfits.inside.allowing.part (by omega) (by omega)
  have hpart' : (c.within Scope.inside).Fits yes.weight (n + 3) := hfits.inside.part (by omega) (by omega)
  have hread' : Moves (grammar n .statement) (c.within Scope.inside) (yes.row [' '] i ++ next :: ls) yes.Shape
      (next :: ls) := hyes hpart' hfunction hnext
  obtain ⟨l', more', hrow'⟩ := exists_cons_append (yes.row [' '] i) next ls
  rw [hrow'] at hread'
  have hread : Moves (grammar n .expression) ((c.within Scope.inside).within Scope.allowing)
      (test.row [] i ++ .sign [] ")" :: l' :: more') test.Shape (.sign [] ")" :: l' :: more') :=
      htest hpart rfl (by decide)
  obtain ⟨l, more, hrow⟩ := exists_cons_append (test.row [] i) (.sign [] ")") (l' :: more')
  rw [hrow] at hread
  simp only [row, List.append_assoc, List.cons_append]
  rw [hrow', hrow]
  refine moves_statement_word hfits.plain (by decide) fun start => Moves.some ?_
  exact moves_ifStatement (moves_condition hread) (moves_grammar_sub hread') hnext

/-- Statements between braces. -/
theorem moves_grammar_block {body : Phrase (.statements returns)} {j : Nat} {g g' : List Char} (hbody : body.Reads)
    (hfits : c.Fits body.weight (n + 3)) (hfunction : returns = true → c.scope.inFunction = true) :
    Moves (blockStatement (grammar n)) c (.sign gap "\x7b" :: (body.row g j ++ .sign g' "\x7d" :: next :: ls))
      (fun s => ∃ span ss, s = .block span ss ∧ body.Shape ss) (next :: ls) := by
  have hroom := hfits.room
  have hstep : ∀ (items : List Node) l ls S ls', opensStatement l.kind = true →
      Moves (grammar n .statement) c (l :: ls) S ls' →
      Moves (blockStep (grammar n) items) c (l :: ls)
        (fun r => ∃ b, r = .inl b ∧ ∃ s, S s ∧ id b = s :: id items) ls' :=
    fun items l ls S ls' hl h => moves_blockStep hl h
  have hstatements : Moves (loop.go (blockStep (grammar n)) (c.source.length + 2) []) c
      (body.row g j ++ .sign g' "\x7d" :: next :: ls) body.Shape (next :: ls) := by
    obtain ⟨m, hm⟩ : ∃ m, c.source.length + 2 = (m + 1) + body.weight := ⟨c.source.length + 1 - body.weight, by omega⟩
    rw [hm]
    refine hbody hfits hfunction (by simp) hstep ?_
    intro items m' ss hss hitems hm'
    obtain ⟨m', rfl⟩ : ∃ m'', m' = m'' + 1 := ⟨m' - 1, by omega⟩
    have hitems : items = ss.reverse := by simpa using hitems
    refine .goOut (moves_blockStep_end.mono ?_)
    rintro _ ⟨b, rfl, rfl⟩
    exact ⟨_, rfl, by simpa [hitems] using hss⟩
  obtain ⟨l, more, hrow⟩ := exists_cons_append (body.row g j) (.sign g' "\x7d") (next :: ls)
  rw [hrow] at hstatements ⊢
  exact moves_blockStatement hstatements

theorem reads_block {body : Phrase (.statements returns)} (hbody : body.Reads) : (block body).Reads := by
  intro c n gap i next ls hfits hfunction _
  have hweight : (block body).weight = body.weight + 2 := rfl
  have hdeep := hfits.deep
  obtain ⟨n, rfl⟩ : ∃ n', n = n' + 1 := ⟨n - 1, by omega⟩
  have hpart : (c.within Scope.inside).Fits body.weight (n + 3) := hfits.inside.part (by omega) (by omega)
  simp only [row, List.append_assoc, List.cons_append, List.nil_append]
  exact moves_statement_block (moves_grammar_block hbody hpart hfunction)

theorem reads_ifElse {test : Phrase .expression} {yes : Phrase (.statements returns)} {no : Phrase (.statement returns)}
    (htest : test.Reads) (hyes : yes.Reads) (hno : no.Reads) : (ifElse test yes no).Reads := by
  intro c n gap i next ls hfits hfunction hnext
  have hweight : (ifElse test yes no).weight = test.weight + yes.weight + no.weight + 6 := rfl
  have hdeep := hfits.deep
  obtain ⟨n, rfl⟩ : ∃ n', n = n' + 2 := ⟨n - 2, by omega⟩
  have hpart : ((c.within Scope.inside).within Scope.allowing).Fits test.weight (n + 1) :=
    hfits.inside.allowing.part (by omega) (by omega)
  have hpart₁ : ((c.within Scope.inside).within Scope.inside).Fits yes.weight (n + 3) :=
    hfits.inside.inside.part (by omega) (by omega)
  have hpart₂ : (c.within Scope.inside).Fits no.weight (n + 1 + 3) := hfits.inside.part (by omega) (by omega)
  have hread₂ : Moves (grammar (n + 1) .statement) (c.within Scope.inside) (no.row [' '] i ++ next :: ls) no.Shape
      (next :: ls) := hno hpart₂ hfunction hnext
  obtain ⟨l₂, more₂, hrow₂⟩ := exists_cons_append (no.row [' '] i) next ls
  rw [hrow₂] at hread₂
  have hread₁ : Moves (subStatement (grammar (n + 1))) (c.within Scope.inside)
      (.sign [' '] "\x7b" :: (yes.row (newLine (i + 1)) (i + 1) ++ .sign (newLine i) "\x7d" :: .word [' '] "else" ::
        l₂ :: more₂)) (fun s => ∃ span ss, s = .block span ss ∧ yes.Shape ss) (.word [' '] "else" :: l₂ :: more₂) := by
    refine moves_subStatement ((moves_statement_block (moves_grammar_block hyes hpart₁ hfunction)).mono ?_)
    rintro _ ⟨span, ss, rfl, hss⟩
    exact ⟨⟨span, ss, rfl, hss⟩, rfl⟩
  have hread : Moves (grammar (n + 1) .expression) ((c.within Scope.inside).within Scope.allowing)
      (test.row [] i ++ .sign [] ")" :: .sign [' '] "\x7b" :: (yes.row (newLine (i + 1)) (i + 1) ++
        .sign (newLine i) "\x7d" :: .word [' '] "else" :: l₂ :: more₂)) test.Shape
      (.sign [] ")" :: .sign [' '] "\x7b" :: (yes.row (newLine (i + 1)) (i + 1) ++
        .sign (newLine i) "\x7d" :: .word [' '] "else" :: l₂ :: more₂)) := htest hpart rfl (by decide)
  simp only [row, List.append_assoc, List.cons_append]
  rw [hrow₂]
  obtain ⟨l, more, hrow⟩ := exists_cons_append (test.row [] i) (.sign [] ")") (.sign [' '] "\x7b" ::
    (yes.row (newLine (i + 1)) (i + 1) ++ .sign (newLine i) "\x7d" :: .word [' '] "else" :: l₂ :: more₂))
  rw [hrow] at hread ⊢
  refine moves_statement_word hfits.plain (by decide) fun start => Moves.some ?_
  refine (moves_ifStatement_else (moves_condition hread) hread₁ (moves_grammar_sub hread₂)).mono ?_
  rintro _ ⟨span, a, _, b, rfl, ha, ⟨inner, ss, rfl, hss⟩, hb⟩
  exact ⟨span, inner, a, ss, b, rfl, ha, hss, hb⟩

/-! ## Loops -/

theorem reads_forIn {e : Phrase .expression} {body : Phrase (.statement returns)} (he : e.Reads) (hbody : body.Reads) :
    (forIn x e body).Reads := by
  intro c n gap i next ls hfits hfunction hnext
  have hweight : (forIn x e body).weight = e.weight + body.weight + 6 := rfl
  have hdeep := hfits.deep
  obtain ⟨n, rfl⟩ : ∃ n', n = n' + 1 := ⟨n - 1, by omega⟩
  have hpart : (c.within Scope.inside).Fits e.weight n := hfits.inside.part (by omega) (by omega)
  have hpart' : (c.within Scope.inside).Fits body.weight (n + 3) := hfits.inside.part (by omega) (by omega)
  have hread' : Moves (grammar n .statement) (c.within Scope.inside) (body.row [' '] i ++ next :: ls) body.Shape
      (next :: ls) := hbody hpart' hfunction hnext
  obtain ⟨l', more', hrow'⟩ := exists_cons_append (body.row [' '] i) next ls
  rw [hrow'] at hread'
  have hread : Moves (grammar n .expression) (c.within Scope.inside) (e.row [' '] i ++ .sign [] ")" :: l' :: more')
      e.Shape (.sign [] ")" :: l' :: more') := he hpart rfl (by decide)
  obtain ⟨l, more, hrow⟩ := exists_cons_append (e.row [' '] i) (.sign [] ")") (l' :: more')
  rw [hrow] at hread
  have hc : ((c.within Scope.inside).within Scope.heading).Plain := hfits.plain.inside.within fun _ => rfl
  have hhead : Moves (declarators (grammar n) .varDecl false) ((c.within Scope.inside).within Scope.heading)
      (.word [' '] x.text :: .word [' '] "in" :: l :: more)
      (fun ds => ∃ d, ds = [d] ∧ ∃ span inner, d = .declarator span (.binding inner x.text) none)
      (.word [' '] "in" :: l :: more) :=
    moves_declarators (by simp) (moves_declarator_bare hc (by simp) (moves_grammar_binding (by omega)))
  simp only [row, List.append_assoc, List.cons_append]
  rw [hrow', hrow]
  refine moves_statement_word hfits.plain (by decide) fun start => Moves.some (moves_forStatement hhead ?_)
  rintro headStart _ ⟨_, rfl, span', inner, rfl⟩
  refine (moves_forRest_in rfl hread (moves_grammar_sub hread')).mono ?_
  rintro _ ⟨span, headSpan, a, b, rfl, ha, hb⟩
  exact ⟨span, headSpan, span', inner, a, b, rfl, ha, hb⟩

/-- A number as a value, even where `in` is no operator. -/
theorem moves_grammar_number {text : String} {g : List Char} (hc : c.Plain) (hnext : next.kind ∈ assignmentEnds) :
    Moves (grammar (n + 3) .assignment) c (⟨g, .number text⟩ :: next :: ls) (fun e => ∃ span, e = .number span text)
      (next :: ls) := by
  have harrow : next.kind ≠ .punct "=>" := fun heq => absurd (heq ▸ hnext) (by decide)
  refine moves_assignment_value hc rfl hnext (moves_noArrow hc (by simp) (by simp) harrow) ?_
  refine moves_linkless hc rfl (mem_valueEnds (mem_unaryEnds (mem_operationEnds hnext))) ?_
  rw [if_neg (by simp)]
  refine moves_primary_number.mono ?_
  rintro _ ⟨span, rfl⟩
  exact ⟨⟨⟨span, rfl⟩, rfl⟩, rfl⟩


theorem reads_forFrom {first : String} {test step : Phrase .expression} {body : Phrase (.statement returns)}
    (htest : test.Reads)
    (hstep : step.Reads) (hbody : body.Reads) : (forFrom x first test step body).Reads := by
  intro c n gap i next ls hfits hfunction hnext
  have hweight : (forFrom x first test step body).weight = test.weight + step.weight + body.weight + 9 := rfl
  have hdeep := hfits.deep
  obtain ⟨n, rfl⟩ : ∃ n', n = n' + 4 := ⟨n - 4, by omega⟩
  have hpart : (c.within Scope.inside).Fits test.weight (n + 3) := hfits.inside.part (by omega) (by omega)
  have hpart₁ : (c.within Scope.inside).Fits step.weight (n + 3) := hfits.inside.part (by omega) (by omega)
  have hpart₂ : (c.within Scope.inside).Fits body.weight (n + 3 + 3) := hfits.inside.part (by omega) (by omega)
  have hread₂ : Moves (grammar (n + 3) .statement) (c.within Scope.inside) (body.row [' '] i ++ next :: ls) body.Shape
      (next :: ls) := hbody hpart₂ hfunction hnext
  obtain ⟨l₂, more₂, hrow₂⟩ := exists_cons_append (body.row [' '] i) next ls
  rw [hrow₂] at hread₂
  have hread₁ : Moves (grammar (n + 3) .expression) (c.within Scope.inside)
      (step.row [' '] i ++ .sign [] ")" :: l₂ :: more₂) step.Shape (.sign [] ")" :: l₂ :: more₂) :=
    hstep hpart₁ rfl (by decide)
  obtain ⟨l₁, more₁, hrow₁, -, hopens₁⟩ := step.opens [' '] i
  obtain ⟨hparen, -⟩ := opensExpression_facts hopens₁
  rw [hrow₁, List.cons_append] at hread₁
  have hread : Moves (grammar (n + 3) .expression) (c.within Scope.inside)
      (test.row [' '] i ++ .sign [] ";" :: l₁ :: (more₁ ++ .sign [] ")" :: l₂ :: more₂)) test.Shape
      (.sign [] ";" :: l₁ :: (more₁ ++ .sign [] ")" :: l₂ :: more₂)) := htest hpart rfl (by decide)
  obtain ⟨l, more, hrow, -, hopens⟩ := test.opens [' '] i
  obtain ⟨-, -, hsemicolon, -⟩ := opensExpression_facts hopens
  rw [hrow, List.cons_append] at hread
  have hc : ((c.within Scope.inside).within Scope.heading).Plain := hfits.plain.inside.within fun _ => rfl
  have hhead : Moves (declarators (grammar (n + 3)) .varDecl false) ((c.within Scope.inside).within Scope.heading)
      (.word [' '] x.text :: .sign [' '] "=" :: ⟨[' '], .number first⟩ :: .sign [] ";" :: l ::
        (more ++ .sign [] ";" :: l₁ :: (more₁ ++ .sign [] ")" :: l₂ :: more₂)))
      (fun ds => ∃ d, ds = [d] ∧ ∃ span inner e, d = .declarator span (.binding inner x.text) (some e) ∧
        ∃ span', e = .number span' first)
      (.sign [] ";" :: l :: (more ++ .sign [] ";" :: l₁ :: (more₁ ++ .sign [] ")" :: l₂ :: more₂))) :=
    moves_declarators (by simp) (moves_declarator_value hc (moves_grammar_binding (by omega))
      (moves_grammar_number hc (by decide)))
  simp only [row, List.append_assoc, List.cons_append]
  rw [hrow₂, hrow₁, hrow, List.cons_append, List.cons_append]
  refine moves_statement_word hfits.plain (by decide) fun start => Moves.some (moves_forStatement hhead ?_)
  rintro headStart _ ⟨_, rfl, span', inner, _, rfl, span'', rfl⟩
  refine (moves_forRest_test ⟨_, _, _, rfl⟩ hread hread₁ (moves_grammar_sub hread₂) hsemicolon hparen).mono ?_
  rintro _ ⟨span, headSpan, a, b, d, rfl, ha, hb, hd⟩
  exact ⟨span, headSpan, span', inner, span'', a, b, d, rfl, ha, hb, hd⟩

/-! ## Lists of statements -/

theorem reads_noStatement : (noStatement : Phrase (.statements returns)).Reads := by
  intro c n gap i next ls α step items m a Q ls' _ _ _ _ hrest
  exact hrest a m [] rfl rfl (Nat.le_refl _)

/-- What follows a statement starts another one, or is what follows the list. -/
theorem exists_cons_statements (p : Phrase (.statements returns)) (hnext : next.kind ≠ .word "else" false) :
    ∃ l more, p.row gap i ++ next :: ls = l :: more ∧ l.kind ≠ .word "else" false := by
  cases p with
  | noStatement => exact ⟨next, ls, rfl, hnext⟩
  | statement s rest =>
    obtain ⟨l, more, hrow, hopens⟩ := s.opens gap i
    refine ⟨l, _, by rw [row, hrow, List.cons_append, List.cons_append], (opensStatement_facts hopens).2.2.2⟩

theorem reads_statement {s : Phrase (.statement returns)} {rest : Phrase (.statements returns)} (hs : s.Reads)
    (hrest : rest.Reads) :
    (statement s rest).Reads := by
  intro c n gap i next ls α step items m a Q ls' hfits hfunction hnext hstep hgo
  have hweight : (statement s rest).weight = s.weight + rest.weight := rfl
  have hdeep := hfits.deep
  obtain ⟨l, more, hrow, hopens⟩ := s.opens gap i
  have hpos : 0 < s.weight := by
    rw [← s.length_row gap i, hrow]
    exact Nat.succ_pos _
  have hpart : c.Fits s.weight (n + 3) := hfits.part (by omega) (by omega)
  have hpart' : c.Fits rest.weight (n + 3) := hfits.part (by omega) (by omega)
  obtain ⟨l', more', hrow', hkind⟩ := @exists_cons_statements next ls i (newLine i) returns rest hnext
  have hread : Moves (grammar n .statement) c (s.row gap i ++ l' :: more') s.Shape (l' :: more') :=
    hs hpart hfunction hkind
  rw [hrow, List.cons_append] at hread
  have hfuel : m + (statement s rest).weight = (m + (s.weight - 1) + rest.weight) + 1 := by omega
  rw [row, List.append_assoc, hrow', hrow, List.cons_append, hfuel]
  refine .goOn (hstep a l _ _ _ hopens hread) ?_
  rintro b ⟨n, hn, hitems⟩
  rw [← hrow']
  refine hrest hpart' hfunction hnext hstep fun b' m' ss hss hitems' hm' => ?_
  refine hgo b' m' (n :: ss) ⟨n, ss, rfl, hn, hss⟩ ?_ (by omega)
  rw [hitems', hitems, List.reverse_cons, List.append_assoc, List.singleton_append]

/-! ## All phrases -/

/-- Every phrase is read as one of its trees, wherever it stands. -/
theorem reads {k : PhraseKind} (p : Phrase k) : p.Reads := by
  induction p with
  | noLink => exact reads_noLink
  | member key rest ih => exact reads_member ih
  | index key rest ihkey ih => exact reads_index ihkey ih
  | call values rest ihvalues ih => exact reads_call ihvalues ih
  | name x links ih => exact reads_name ih
  | string text => exact reads_string
  | number text => exact reads_number
  | null => exact reads_null
  | this => exact reads_this
  | bool value => exact reads_bool
  | func xs body ih => exact reads_func ih
  | emptyObject => exact reads_emptyObject
  | object isWide fields ih => exact reads_object ih
  | new x values ih => exact reads_new ih
  | plain v ih => exact reads_plain ih
  | typeOf v ih => exact reads_typeOf ih
  | notParen e ih => exact reads_notParen ih
  | increment x => exact reads_increment
  | operand v ih => exact reads_operand ih
  | binary op left right binds ihleft ihright => exact reads_binary binds ihleft ihright
  | simple v ih => exact reads_simple ih
  | cond test yes no ihtest ihyes ihno => exact reads_cond ihtest ihyes ihno
  | assign x links v ihlinks ih => exact reads_assign ihlinks ih
  | one v ih => exact reads_one ih
  | comma v w ihv ihw => exact reads_comma ihv ihw
  | noArgument => exact reads_noArgument
  | lastArgument v ih => exact reads_lastArgument ih
  | argument v rest ihv ih => exact reads_argument ihv ih
  | lastProperty key v ih => exact reads_lastProperty ih
  | property key v rest ihv ih => exact reads_property ihv ih
  | perform x links ih => exact reads_perform ih
  | set x links v ihlinks ih => exact reads_set ihlinks ih
  | wrapped x body v ihbody ih => exact reads_wrapped ihbody ih
  | var x v ih => exact reads_var ih
  | ret e ih => exact reads_ret ih
  | throw e ih => exact reads_throw ih
  | ifThen test yes ihtest ihyes => exact reads_ifThen ihtest ihyes
  | ifElse test yes no ihtest ihyes ihno => exact reads_ifElse ihtest ihyes ihno
  | block body ih => exact reads_block ih
  | forFrom x first test step body ihtest ihstep ihbody => exact reads_forFrom ihtest ihstep ihbody
  | forIn x e body ihe ihbody => exact reads_forIn ihe ihbody
  | function x xs body ih => exact reads_function ih
  | exports names => exact reads_exports
  | noStatement => exact reads_noStatement
  | statement s rest ihs ih => exact reads_statement ihs ih

end Phrase

end ModuleBuild.Script
