import ModuleBuild.Proofs.Script.PhraseFacts

/-!
# Phrases are read as they are written

Every phrase is read as one of its trees, wherever it stands in a program: the rule for its kind passes over
its row, if the rules may go deep enough.

## Main definitions

* `Setting.Fits` — the levels and the repetitions that are left suffice for a phrase.
* `Phrase.Reads` — the rule for a phrase passes over its row.

## Main statements

* `Phrase.reads` — every phrase is read.
-/

namespace ModuleBuild.Script

theorem Op.level_le (op : Op) : op.level ≤ 8 := by
  cases op <;> decide

/-- A row with something behind it has a first lexeme. -/
theorem exists_cons_append (xs : List Lexeme) (next : Lexeme) (ls : List Lexeme) :
    ∃ l more, xs ++ next :: ls = l :: more :=
  ⟨_, _, (List.cons_head_tail (by simp)).symm⟩

/-- A phrase of so many lexemes is read with this fuel: each level of rules has some, and each repetition. -/
structure Setting.Fits (c : Setting) (weight fuel : Nat) : Prop where
  plain : c.Plain
  deep : 4 * weight ≤ fuel
  room : weight ≤ c.source.length

namespace Setting.Fits

variable {c : Setting} {w w' n n' : Nat}

/-- What suffices for a phrase suffices for its parts. -/
theorem part (h : c.Fits w n) (hweight : w' ≤ w) (hfuel : 4 * w' ≤ n') : c.Fits w' n' :=
  ⟨h.plain, hfuel, hweight.trans h.room⟩

theorem inside (h : c.Fits w n) : (c.within Scope.inside).Fits w n :=
  ⟨h.plain.inside, h.deep, h.room⟩

theorem allowing (h : c.Fits w n) : (c.within Scope.allowing).Fits w n :=
  ⟨h.plain.within fun _ => rfl, h.deep, h.room⟩

theorem between (h : c.Fits w n) : (c.within Scope.between).Fits w n :=
  ⟨h.plain.within fun _ => rfl, h.deep, h.room⟩

theorem forFunction (h : c.Fits w n) : (c.within (Scope.forFunction {})).Fits w n :=
  ⟨h.plain.forFunction, h.deep, h.room⟩

end Setting.Fits

namespace Phrase

/-- The rule for a phrase passes over its row with one of its trees, whatever follows that may follow it. What
is repeated goes on behind the phrase. -/
def Reads : {k : PhraseKind} → Phrase k → Prop
  | .links _ _, p => ∀ {c : Setting} {n : Nat} {i : Nat} {next : Lexeme} {ls : List Lexeme} {start m : Nat}
    {base : Node},
    c.Fits p.weight n → next.kind ∈ valueEnds → p.weight < m →
    Moves (loop.go (linkStep (grammar n) false start) m ⟨base, false⟩) c (p.row [] i ++ next :: ls)
      (fun b => b.isChain = false ∧ p.Shape base b.base) (next :: ls)
  | .value, p => ∀ {c : Setting} {n : Nat} {gap : List Char} {i : Nat} {next : Lexeme} {ls : List Lexeme},
    c.Fits p.weight (n + 3) → next.kind ∈ valueEnds →
    Moves (grammar n (.access false)) c (p.row gap i ++ next :: ls) p.Shape (next :: ls)
  | .unary, p => ∀ {c : Setting} {n : Nat} {gap : List Char} {i : Nat} {next : Lexeme} {ls : List Lexeme},
    c.Fits p.weight (n + 2) → next.kind ∈ unaryEnds →
    Moves (grammar n .unary) c (p.row gap i ++ next :: ls) p.Shape (next :: ls)
  | .operation least, p => ∀ {c : Setting} {n : Nat} {gap : List Char} {i : Nat} {next : Lexeme} {ls : List Lexeme},
    c.Fits p.weight (n + 2) → c.scope.allowsIn = true → next.kind ∈ unaryEnds →
    (∀ level, precedence? true next.kind = some level → level ≤ least) →
    ∃ (P : Node → Prop) (l : Lexeme) (mid : List Lexeme),
      Moves (grammar n .unary) c (p.row gap i ++ next :: ls) P (l :: mid) ∧
      ∀ v fuel least' m Q ls', P v → least' ≤ least → 9 ≤ fuel + least' →
        (∀ e m', p.Shape e → m ≤ m' → Moves (loop.go (binaryStep (grammar n) fuel least') m' e) c (next :: ls) Q ls') →
        Moves (loop.go (binaryStep (grammar n) fuel least') (m + p.weight) v) c (l :: mid) Q ls'
  | .assignment, p => ∀ {c : Setting} {n : Nat} {gap : List Char} {i : Nat} {next : Lexeme} {ls : List Lexeme},
    c.Fits p.weight (n + 1) → c.scope.allowsIn = true → next.kind ∈ assignmentEnds →
    Moves (grammar n .assignment) c (p.row gap i ++ next :: ls) p.Shape (next :: ls)
  | .expression, p => ∀ {c : Setting} {n : Nat} {gap : List Char} {i : Nat} {next : Lexeme} {ls : List Lexeme},
    c.Fits p.weight n → c.scope.allowsIn = true → next.kind ∈ expressionEnds →
    Moves (grammar n .expression) c (p.row gap i ++ next :: ls) p.Shape (next :: ls)
  | .arguments, p => ∀ {c : Setting} {n : Nat} {gap g : List Char} {i : Nat} {next : Lexeme} {ls : List Lexeme}
    {m : Nat}
      {items : List Node},
    c.Fits p.weight (n + 1) → c.scope.allowsIn = true → p.weight < m →
    Moves (loop.go (commaStep ")" (argumentItem (grammar n))) m items) c (p.row gap i ++ .sign g ")" :: next :: ls)
      (fun r => ∃ vs, p.Shape vs ∧ r = items.reverse ++ vs) (next :: ls)
  | .properties, p => ∀ {c : Setting} {n : Nat} {gap g : List Char} {i : Nat} {next : Lexeme} {ls : List Lexeme}
    {m : Nat}
      {items : List Node},
    c.Fits p.weight (n + 1) → c.scope.allowsIn = true → p.weight < m →
    Moves (loop.go (commaStep "\x7d" (objectProperty (grammar n))) m items) c
      (p.row gap i ++ .sign g "\x7d" :: next :: ls) (fun r => ∃ fs, p.Shape fs ∧ r = items.reverse ++ fs) (next :: ls)
  | .statement returns, p => ∀ {c : Setting} {n : Nat} {gap : List Char} {i : Nat} {next : Lexeme} {ls : List Lexeme},
    c.Fits p.weight (n + 3) → (returns = true → c.scope.inFunction = true) → next.kind ≠ .word "else" false →
    Moves (grammar n .statement) c (p.row gap i ++ next :: ls) p.Shape (next :: ls)
  | .statements returns, p => ∀ {c : Setting} {n : Nat} {gap : List Char} {i : Nat} {next : Lexeme} {ls : List Lexeme}
      {α : Type} {step : α → Parse (α ⊕ List Node)} {items : α → List Node} {m : Nat} {a : α} {Q : List Node → Prop}
      {ls' : List Lexeme},
    c.Fits p.weight (n + 3) → (returns = true → c.scope.inFunction = true) → next.kind ≠ .word "else" false →
    (∀ a l ls S ls', opensStatement l.kind = true → Moves (grammar n .statement) c (l :: ls) S ls' →
      Moves (step a) c (l :: ls) (fun r => ∃ b, r = .inl b ∧ ∃ s, S s ∧ items b = s :: items a) ls') →
    (∀ b m' ss, p.Shape ss → items b = ss.reverse ++ items a → m ≤ m' →
      Moves (loop.go step m' b) c (next :: ls) Q ls') →
    Moves (loop.go step (m + p.weight) a) c (p.row gap i ++ next :: ls) Q ls'

/-! ## Links -/

section Links

variable {a b : Bool}

theorem reads_noLink : (noLink : Phrase (.links a a)).Reads := by
  intro c n i next ls start m base hfits hnext hm
  obtain ⟨m, rfl⟩ := Nat.exists_eq_succ_of_ne_zero (Nat.ne_of_gt (Nat.zero_lt_of_lt hm))
  refine .goOut ((moves_linkStep_none hfits.plain hnext).mono ?_)
  rintro _ ⟨_, rfl, rfl⟩
  exact ⟨_, rfl, rfl, rfl⟩

theorem reads_member {key : String} {rest : Phrase (.links true b)} (hrest : rest.Reads) :
    (member key rest : Phrase (.links a b)).Reads := by
  intro c n i next ls start m base hfits hnext hm
  have hweight : (member key rest : Phrase (.links a b)).weight = rest.weight + 2 := rfl
  have hdeep := hfits.deep
  have hpart : c.Fits rest.weight n := hfits.part (by omega) (by omega)
  obtain ⟨m, rfl⟩ := Nat.exists_eq_succ_of_ne_zero (Nat.ne_of_gt (Nat.zero_lt_of_lt hm))
  have hm' : rest.weight < m := by omega
  obtain ⟨l, more, hrow⟩ := exists_cons_append (rest.row [] i) next ls
  rw [row, List.cons_append, List.cons_append, hrow]
  refine .goOn moves_linkStep_member ?_
  rintro _ ⟨span, rfl⟩
  rw [← hrow]
  refine (hrest hpart hnext hm').mono ?_
  rintro b ⟨hb, hshape⟩
  exact ⟨hb, span, hshape⟩

theorem reads_index {key : Phrase .expression} {rest : Phrase (.links true b)} (hkey : key.Reads) (hrest : rest.Reads) :
    (index key rest : Phrase (.links a b)).Reads := by
  intro c n i next ls start m base hfits hnext hm
  have hweight : (index key rest : Phrase (.links a b)).weight = key.weight + rest.weight + 2 := rfl
  have hdeep := hfits.deep
  have hpart : c.Fits rest.weight n := hfits.part (by omega) (by omega)
  have hpart' : (c.within Scope.inside).Fits key.weight n := hfits.inside.part (by omega) (by omega)
  obtain ⟨m, rfl⟩ := Nat.exists_eq_succ_of_ne_zero (Nat.ne_of_gt (Nat.zero_lt_of_lt hm))
  have hm' : rest.weight < m := by omega
  obtain ⟨l, more, hrow⟩ := exists_cons_append (rest.row [] i) next ls
  obtain ⟨l', more', hrow'⟩ := exists_cons_append (key.row [] i) (.sign [] "]") (l :: more)
  have hinner : Moves (grammar n .expression) (c.within Scope.inside) (key.row [] i ++ .sign [] "]" :: l :: more)
      key.Shape (.sign [] "]" :: l :: more) := hkey hpart' rfl (by decide)
  rw [hrow'] at hinner
  rw [row, List.cons_append, List.append_assoc, List.cons_append, hrow, hrow']
  refine .goOn (moves_linkStep_index hinner) ?_
  rintro _ ⟨span, e, he, rfl⟩
  rw [← hrow]
  refine (hrest hpart hnext hm').mono ?_
  rintro b ⟨hb, hshape⟩
  exact ⟨hb, span, e, he, hshape⟩

theorem reads_call {values : Phrase .arguments} {rest : Phrase (.links false b)} (hvalues : values.Reads)
    (hrest : rest.Reads) : (call values rest : Phrase (.links a b)).Reads := by
  intro c n i next ls start m base hfits hnext hm
  have hweight : (call values rest : Phrase (.links a b)).weight = values.weight + rest.weight + 2 := rfl
  have hdeep := hfits.deep
  have hroom := hfits.room
  have hpart : c.Fits rest.weight n := hfits.part (by omega) (by omega)
  have hpart' : (c.within Scope.inside).Fits values.weight (n + 1) := hfits.inside.part (by omega) (by omega)
  obtain ⟨m, rfl⟩ := Nat.exists_eq_succ_of_ne_zero (Nat.ne_of_gt (Nat.zero_lt_of_lt hm))
  have hm' : rest.weight < m := by omega
  have hm'' : values.weight < c.source.length + 2 := by omega
  obtain ⟨l, more, hrow⟩ := exists_cons_append (rest.row [] i) next ls
  obtain ⟨l', more', hrow'⟩ := exists_cons_append (values.row [] i) (.sign [] ")") (l :: more)
  have hinner : Moves (loop.go (commaStep ")" (argumentItem (grammar n))) (c.source.length + 2) [])
      (c.within Scope.inside) (values.row [] i ++ .sign [] ")" :: l :: more) values.Shape (l :: more) := by
    refine (hvalues hpart' rfl hm'').mono ?_
    rintro _ ⟨vs, hvs, rfl⟩
    exact hvs
  rw [hrow'] at hinner
  rw [row, List.cons_append, List.append_assoc, List.cons_append, hrow, hrow']
  refine .goOn (moves_linkStep_call (moves_callArguments hinner)) ?_
  rintro _ ⟨span, vs, hvs, rfl⟩
  rw [← hrow]
  refine (hrest hpart hnext hm').mono ?_
  rintro b ⟨hb, hshape⟩
  exact ⟨hb, span, vs, hvs, hshape⟩

end Links

/-! ## Values -/

section Values

variable {c : Setting} {n : Nat} {l next : Lexeme} {rest ls : List Lexeme} {x : Name} {v : Phrase .value}

/-- A value without links. -/
theorem moves_linkless {S : Node → Prop} (hc : c.Plain) (hopens : opensValue l.kind = true)
    (hnext : next.kind ∈ valueEnds)
    (h : Moves (if l.kind == .word "new" false then newExpression (grammar n) else primary (grammar n)) c (l :: rest)
      (fun n => S n ∧ n.isArrow = false) (next :: ls)) :
    Moves (grammar (n + 1) (.access false)) c (l :: rest) S (next :: ls) := by
  have himport : l.kind ≠ .word "import" false := by
    intro heq
    rw [heq] at hopens
    exact absurd hopens (by decide)
  refine moves_access himport h fun start base hbase => .goOut ((moves_linkStep_none hc hnext).mono ?_)
  rintro _ ⟨_, rfl, rfl⟩
  exact ⟨_, rfl, rfl, hbase⟩

theorem moves_value (hc : c.Plain) (hopens : opensValue l.kind = true) (hnext : next.kind ∈ valueEnds)
    (h : Moves (if l.kind == .word "new" false then newExpression (grammar n) else primary (grammar n)) c (l :: rest)
      v.Shape (next :: ls)) :
    Moves (grammar (n + 1) (.access false)) c (l :: rest) v.Shape (next :: ls) :=
  moves_linkless hc hopens hnext (h.mono fun n hn => ⟨hn, (v.settled n hn).2⟩)

/-- A name and its links. -/
theorem moves_name {forNew : Bool} {gap : List Char} {ls' : List Lexeme} {S : Node → Prop}
    (h : ∀ start base, (∃ span, base = .ident span x.text) →
      Moves (loop.go (linkStep (grammar n) forNew start) (c.source.length + 2) ⟨base, false⟩) c (l :: ls)
        (fun a => a.isChain = false ∧ S a.base) ls') :
    Moves (grammar (n + 1) (.access forNew)) c (.word gap x.text :: l :: ls) S ls' := by
  have himport : (Lexeme.word gap x.text).kind ≠ .word "import" false := by
    simp [x.ne (show "import" ∈ notableWords by decide)]
  have hbase : Moves (if (Lexeme.word gap x.text).kind == .word "new" false then newExpression (grammar n)
      else primary (grammar n)) c (.word gap x.text :: l :: ls)
      (fun n => (∃ span, n = .ident span x.text) ∧ n.isArrow = false) (l :: ls) := by
    rw [if_neg (by simp [x.ne (show "new" ∈ notableWords by decide)])]
    refine moves_primary_name.mono ?_
    rintro _ ⟨span, rfl⟩
    exact ⟨⟨span, rfl⟩, rfl⟩
  exact moves_access himport hbase h

theorem reads_name {b : Bool} {links : Phrase (.links true b)} (hlinks : links.Reads) : (name x links).Reads := by
  intro c n gap i next ls hfits hnext
  have hweight : (name x links).weight = links.weight + 1 := rfl
  have hdeep := hfits.deep
  have hroom := hfits.room
  obtain ⟨n, rfl⟩ : ∃ n', n = n' + 1 := ⟨n - 1, by omega⟩
  have hpart : c.Fits links.weight n := hfits.part (by omega) (by omega)
  have hm : links.weight < c.source.length + 2 := by omega
  obtain ⟨l, more, hrow⟩ := exists_cons_append (links.row [] i) next ls
  rw [row, List.cons_append, hrow]
  refine moves_name fun start base hbase => ?_
  obtain ⟨span, rfl⟩ := hbase
  rw [← hrow]
  refine (hlinks hpart hnext hm).mono ?_
  rintro a ⟨ha, hshape⟩
  exact ⟨ha, span, hshape⟩

/-- A value of one token. -/
theorem reads_token {g : Glyph} (hrow : ∀ gap i, v.row gap i = [⟨gap, g⟩]) (hopens : opensValue g.kind = true)
    (hnew : g.kind ≠ .word "new" false) (hprimary : ∀ (n : Nat) (c : Setting) (gap : List Char) (next : Lexeme)
    (ls : List Lexeme),
      Moves (primary (grammar n)) c (⟨gap, g⟩ :: next :: ls) v.Shape (next :: ls)) :
    v.Reads := by
  intro c n gap i next ls hfits hnext
  have hweight : v.weight = 1 := by rw [← v.length_row [] 0, hrow, List.length_singleton]
  have hdeep := hfits.deep
  obtain ⟨n, rfl⟩ : ∃ n', n = n' + 1 := ⟨n - 1, by omega⟩
  have hopens' : opensValue (Lexeme.mk gap g).kind = true := hopens
  rw [hrow, List.singleton_append]
  refine moves_value hfits.plain hopens' hnext ?_
  rw [if_neg (by simpa [Lexeme.kind] using hnew)]
  exact hprimary n c gap next ls

theorem reads_string {text : String} : (string text).Reads :=
  reads_token (fun _ _ => rfl) rfl (by simp [Glyph.kind]) fun _ _ _ _ _ => moves_primary_string

theorem reads_number {text : String} : (number text).Reads :=
  reads_token (fun _ _ => rfl) rfl (by simp [Glyph.kind]) fun _ _ _ _ _ => moves_primary_number

theorem reads_null : null.Reads :=
  reads_token (fun _ _ => rfl) rfl (by simp [Glyph.kind]) fun _ _ _ _ _ => moves_primary_null

theorem reads_this : this.Reads :=
  reads_token (fun _ _ => rfl) rfl (by simp [Glyph.kind]) fun _ _ _ _ _ => moves_primary_this

theorem reads_bool {value : Bool} : (bool value).Reads :=
  reads_token (fun _ _ => rfl) (by cases value <;> rfl) (by cases value <;> simp [Glyph.kind])
    fun _ _ _ _ _ => moves_primary_bool

/-- The first name that a declaration binds is read as it is. -/
theorem moves_grammar_binding {gap : List Char} (hn : 0 < n) :
    Moves (grammar n .binding) c (.word gap x.text :: next :: ls) (fun n => ∃ span, n = .binding span x.text)
      (next :: ls) := by
  obtain ⟨n, rfl⟩ := Nat.exists_eq_succ_of_ne_zero (Nat.ne_of_gt hn)
  exact moves_binding

/-- A function behind its name: parameters and body. -/
theorem moves_grammar_functionRest {xs : List Name} {body : Phrase (.statements true)} (hbody : body.Reads)
    {gap g₁ g₂ g₃ g₄ : List Char}
    {i : Nat} {start : Nat} {name : Option String} (hfits : c.Fits body.weight (n + 3))
    (hxs : xs.length ≤ c.source.length) (hn : 0 < n) :
    Moves (grammar (n + 1) (.functionRest start {} name)) c
      (.sign g₁ "(" :: (parameterRow [] xs ++ .sign g₂ ")" :: .sign g₃ "\x7b" ::
        (body.row gap i ++ .sign g₄ "\x7d" :: next :: ls)))
      (fun n => ∃ span inner ps ss, n = .func span {} name ps (.body inner ss) ∧ BindsNames xs ps ∧ body.Shape ss)
      (next :: ls) := by
  have hroom := hfits.room
  have hstep : ∀ a l ls S ls', opensStatement l.kind = true →
      Moves (grammar n .statement) (c.within (Scope.forFunction {})) (l :: ls) S ls' →
      Moves (statementStep (grammar n) a) (c.within (Scope.forFunction {})) (l :: ls)
        (fun r => ∃ b, r = .inl b ∧ ∃ s, S s ∧ b.2 = s :: a.2) ls' := by
    rintro ⟨atStart, items⟩ l ls S ls' hl h
    refine (moves_statementStep hl h).mono ?_
    rintro _ ⟨a, rfl, s, hs, rfl⟩
    exact ⟨_, rfl, s, hs, rfl⟩
  have hstatements : Moves (loop.go (statementStep (grammar n)) (c.source.length + 2) (true, []))
      (c.within (Scope.forFunction {})) (body.row gap i ++ .sign g₄ "\x7d" :: next :: ls) body.Shape
      (.sign g₄ "\x7d" :: next :: ls) := by
    obtain ⟨m, hm⟩ : ∃ m, c.source.length + 2 = (m + 1) + body.weight := ⟨c.source.length + 1 - body.weight, by omega⟩
    rw [hm]
    refine hbody hfits.forFunction (fun _ => rfl) (by simp) hstep ?_
    rintro ⟨atStart, items⟩ m' ss hss hitems hm'
    obtain ⟨m', rfl⟩ : ∃ m'', m' = m'' + 1 := ⟨m' - 1, by omega⟩
    have hitems : items = ss.reverse := by simpa using hitems
    refine .goOut ((moves_statementStep_end (.inr rfl)).mono ?_)
    rintro _ ⟨b, rfl, rfl⟩
    exact ⟨_, rfl, by simpa [hitems] using hss⟩
  obtain ⟨l, more, hrow⟩ := exists_cons_append (body.row gap i) (.sign g₄ "\x7d") (next :: ls)
  rw [hrow] at hstatements ⊢
  exact moves_functionRest hfits.plain (fun _ _ _ _ _ => moves_grammar_binding hn) hxs hstatements

theorem length_le_parameterRow (gap : List Char) (xs : List Name) : xs.length ≤ (parameterRow gap xs).length := by
  fun_induction parameterRow gap xs with
  | case1 => exact Nat.le_refl _
  | case2 => exact Nat.le_refl _
  | case3 gap x y xs ih => simpa using Nat.le_succ_of_le ih

theorem reads_func {xs : List Name} {body : Phrase (.statements true)} (hbody : body.Reads) : (func xs body).Reads := by
  intro c n gap i next ls hfits hnext
  have hweight : (func xs body).weight = (parameterRow [] xs).length + body.weight + 5 := rfl
  have hxs := length_le_parameterRow [] xs
  have hdeep := hfits.deep
  have hroom := hfits.room
  obtain ⟨n, rfl⟩ : ∃ n', n = n' + 2 := ⟨n - 2, by omega⟩
  have hpart : c.Fits body.weight (n + 3) := hfits.part (by omega) (by omega)
  simp only [row, List.cons_append, List.append_assoc, List.nil_append]
  refine moves_value hfits.plain rfl hnext ?_
  rw [if_neg (by simp)]
  exact moves_primary_function fun start => moves_grammar_functionRest hbody hpart (by omega) (by omega)

theorem reads_emptyObject : emptyObject.Reads := by
  intro c n gap i next ls hfits hnext
  have hdeep : 4 * 2 ≤ n + 3 := hfits.deep
  obtain ⟨n, rfl⟩ : ∃ n', n = n' + 1 := ⟨n - 1, by omega⟩
  refine moves_value hfits.plain rfl hnext ?_
  have hempty : Moves (loop.go (commaStep "\x7d" (objectProperty (grammar n))) (c.source.length + 2) [])
      (c.within Scope.inside) (.sign [] "\x7d" :: next :: ls) (· = []) (next :: ls) := by
    refine .goOut (moves_commaStep_close.mono ?_)
    rintro _ rfl
    exact ⟨_, rfl, rfl⟩
  rw [if_neg (by simp)]
  refine (moves_primary_object hempty).mono ?_
  rintro _ ⟨span, _, rfl, rfl⟩
  exact ⟨span, rfl⟩

theorem reads_object {isWide : Bool} {fields : Phrase .properties} (hfields : fields.Reads) :
    (object isWide fields).Reads := by
  intro c n gap i next ls hfits hnext
  have hweight : (object isWide fields).weight = fields.weight + 2 := rfl
  have hdeep := hfits.deep
  have hroom := hfits.room
  obtain ⟨n, rfl⟩ : ∃ n', n = n' + 1 := ⟨n - 1, by omega⟩
  have hpart : (c.within Scope.inside).Fits fields.weight (n + 1) := hfits.inside.part (by omega) (by omega)
  have hm : fields.weight < c.source.length + 2 := by omega
  simp only [row, List.cons_append, List.append_assoc, List.nil_append]
  generalize (if isWide then newLine (i + 1) else [' ']) = gap₁
  generalize (if isWide then newLine i else [' ']) = gap₂
  have hinner : Moves (loop.go (commaStep "\x7d" (objectProperty (grammar n))) (c.source.length + 2) [])
      (c.within Scope.inside) (fields.row gap₁ (i + 1) ++ .sign gap₂ "\x7d" :: next :: ls) fields.Shape
      (next :: ls) := by
    refine (hfields hpart rfl hm).mono ?_
    rintro _ ⟨fs, hfs, rfl⟩
    exact hfs
  obtain ⟨l, more, hrow⟩ := exists_cons_append (fields.row gap₁ (i + 1)) (.sign gap₂ "\x7d") (next :: ls)
  rw [hrow] at hinner ⊢
  refine moves_value hfits.plain rfl hnext ?_
  rw [if_neg (by simp)]
  refine (moves_primary_object hinner).mono ?_
  rintro _ ⟨span, fs, hfs, rfl⟩
  exact ⟨span, fs, rfl, hfs⟩

theorem reads_new {values : Phrase .arguments} (hvalues : values.Reads) : (new x values).Reads := by
  intro c n gap i next ls hfits hnext
  have hweight : (new x values).weight = values.weight + 4 := rfl
  have hdeep := hfits.deep
  have hroom := hfits.room
  obtain ⟨n, rfl⟩ : ∃ n', n = n' + 2 := ⟨n - 2, by omega⟩
  have hpart : (c.within Scope.inside).Fits values.weight (n + 1 + 1) := hfits.inside.part (by omega) (by omega)
  have hm : values.weight < c.source.length + 2 := by omega
  simp only [row, List.cons_append, List.append_assoc, List.nil_append]
  have hinner : Moves (loop.go (commaStep ")" (argumentItem (grammar (n + 1)))) (c.source.length + 2) [])
      (c.within Scope.inside) (values.row [] i ++ .sign [] ")" :: next :: ls) values.Shape (next :: ls) := by
    refine (hvalues hpart rfl hm).mono ?_
    rintro _ ⟨vs, hvs, rfl⟩
    exact hvs
  obtain ⟨l, more, hrow⟩ := exists_cons_append (values.row [] i) (.sign [] ")") (next :: ls)
  rw [hrow] at hinner ⊢
  have hcallee : Moves (grammar (n + 1) (.access true)) c (.word [' '] x.text :: .sign [] "(" :: l :: more)
      (fun n => ∃ span, n = .ident span x.text) (.sign [] "(" :: l :: more) := by
    refine moves_name fun start base hbase => .goOut (moves_linkStep_new.mono ?_)
    rintro _ ⟨_, rfl, rfl⟩
    exact ⟨_, rfl, rfl, hbase⟩
  refine moves_value hfits.plain rfl hnext ?_
  rw [if_pos (by simp)]
  refine (moves_newExpression hcallee (moves_callArguments hinner)).mono ?_
  rintro _ ⟨span, inner, vs, hvs, rfl⟩
  exact ⟨span, inner, vs, rfl, hvs⟩

end Values

/-! ## Operators -/

section Operators

variable {c : Setting} {n : Nat} {l next : Lexeme} {rest ls : List Lexeme} {x : Name} {v : Phrase .value}

theorem mem_valueEnds {k : TokenKind} (h : k ∈ unaryEnds) : k ∈ valueEnds :=
  List.mem_append_left _ h

theorem mem_unaryEnds {k : TokenKind} (h : k ∈ operationEnds) : k ∈ unaryEnds :=
  List.mem_append_left _ h

theorem mem_operationEnds {k : TokenKind} (h : k ∈ assignmentEnds) : k ∈ operationEnds :=
  List.mem_append_left _ h

theorem mem_assignmentEnds {k : TokenKind} (h : k ∈ expressionEnds) : k ∈ assignmentEnds :=
  List.mem_append_left _ h

theorem weight_pos (v : Phrase .value) : 0 < v.weight := by
  obtain ⟨l, rest, hrow, -⟩ := v.opens [] 0
  rw [← v.length_row [] 0, hrow]
  exact Nat.succ_pos _

theorem reads_plain (hv : v.Reads) : (plain v).Reads := by
  intro c n gap i next ls hfits hnext
  have hweight : (plain v).weight = v.weight := rfl
  have hpos := v.weight_pos
  have hdeep := hfits.deep
  obtain ⟨n, rfl⟩ : ∃ n', n = n' + 1 := ⟨n - 1, by omega⟩
  have hpart : c.Fits v.weight (n + 3) := hfits.part (by omega) (by omega)
  have hread : Moves (grammar n (.access false)) c (v.row gap i ++ next :: ls) v.Shape (next :: ls) :=
    hv hpart (mem_valueEnds hnext)
  obtain ⟨l, rest, hrow, -, hopens, -⟩ := v.opens gap i
  rw [hrow] at hread
  rw [row, hrow]
  exact moves_unary_value hopens hnext hread

theorem reads_typeOf {v : Phrase .unary} (hv : v.Reads) : (typeOf v).Reads := by
  intro c n gap i next ls hfits hnext
  have hweight : (typeOf v).weight = v.weight + 1 := rfl
  have hdeep := hfits.deep
  obtain ⟨n, rfl⟩ : ∃ n', n = n' + 1 := ⟨n - 1, by omega⟩
  have hpart : c.Fits v.weight (n + 2) := hfits.part (by omega) (by omega)
  have hread : Moves (grammar n .unary) c (v.row [' '] i ++ next :: ls) v.Shape (next :: ls) := hv hpart hnext
  obtain ⟨l, more, hrow⟩ := exists_cons_append (v.row [' '] i) next ls
  rw [row, List.cons_append, hrow]
  rw [hrow] at hread
  refine (moves_unary_operator rfl hread).mono ?_
  rintro _ ⟨span, e, he, rfl⟩
  exact ⟨span, e, rfl, he⟩

theorem reads_notParen {e : Phrase .expression} (he : e.Reads) : (notParen e).Reads := by
  intro c n gap i next ls hfits hnext
  have hweight : (notParen e).weight = e.weight + 3 := rfl
  have hdeep := hfits.deep
  obtain ⟨n, rfl⟩ : ∃ n', n = n' + 3 := ⟨n - 3, by omega⟩
  have hpart : (c.within Scope.inside).Fits e.weight n := hfits.inside.part (by omega) (by omega)
  have hread : Moves (grammar n .expression) (c.within Scope.inside) (e.row [] i ++ .sign [] ")" :: next :: ls) e.Shape
      (.sign [] ")" :: next :: ls) := he hpart rfl (by decide)
  obtain ⟨l, more, hrow⟩ := exists_cons_append (e.row [] i) (.sign [] ")") (next :: ls)
  have hparen : Moves (grammar (n + 2) .unary) c (.sign [] "(" :: l :: more)
      (fun m => ∃ inner e', e.Shape e' ∧ m = .paren inner e'.inParens) (next :: ls) := by
    rw [hrow] at hread
    refine moves_unary_value rfl hnext (moves_linkless hfits.plain rfl (mem_valueEnds hnext) ?_)
    rw [if_neg (by simp)]
    refine (moves_primary_paren hread).mono ?_
    rintro _ ⟨inner, e', he', rfl⟩
    exact ⟨⟨inner, e', he', rfl⟩, rfl⟩
  simp only [row, List.cons_append, List.append_assoc, List.nil_append]
  rw [hrow]
  refine (moves_unary_operator rfl hparen).mono ?_
  rintro _ ⟨span, _, ⟨inner, e', he', rfl⟩, rfl⟩
  exact ⟨span, inner, e', rfl, he'⟩

theorem reads_increment : (increment x).Reads := by
  intro c n gap i next ls hfits hnext
  have hdeep : 4 * 2 ≤ n + 2 := hfits.deep
  obtain ⟨n, rfl⟩ : ∃ n', n = n' + 2 := ⟨n - 2, by omega⟩
  have hends : (Lexeme.sign [] "++").kind ∈ valueEnds := by decide
  refine moves_unary_increment ?_
  refine moves_name fun start base hbase => .goOut ((moves_linkStep_none hfits.plain hends).mono ?_)
  rintro _ ⟨_, rfl, rfl⟩
  exact ⟨_, rfl, rfl, hbase⟩

theorem reads_operand {least : Nat} {u : Phrase .unary} (hu : u.Reads) :
    (operand u : Phrase (.operation least)).Reads := by
  intro c n gap i next ls hfits _ hnext _
  refine ⟨u.Shape, next, ls, hu hfits hnext, ?_⟩
  intro v fuel least' m Q ls' hv _ _ hrest
  exact hrest v _ hv (Nat.le_add_right _ _)

theorem reads_binary {least : Nat} {op : Op} {left : Phrase (.operation op.level)}
    {right : Phrase (.operation (op.level + 1))}
    (binds : least ≤ op.level) (hleft : left.Reads) (hright : right.Reads) :
    (binary op left right binds : Phrase (.operation least)).Reads := by
  intro c n gap i next ls hfits hin hnext hlevel
  have hweight : (binary op left right binds).weight = left.weight + right.weight + 1 := rfl
  have hdeep := hfits.deep
  have hroom := hfits.room
  have hpartl : c.Fits left.weight (n + 2) := hfits.part (by omega) (by omega)
  have hpartr : c.Fits right.weight (n + 2) := hfits.part (by omega) (by omega)
  have hop : (Lexeme.mk [' '] op.glyph).kind ∈ unaryEnds := List.mem_append_right _ op.mem_operatorKinds
  have hlevell : ∀ level, precedence? true (Lexeme.mk [' '] op.glyph).kind = some level → level ≤ op.level := by
    intro level h
    rw [show (Lexeme.mk [' '] op.glyph).kind = op.glyph.kind from rfl, op.precedence] at h
    exact (Option.some.inj h).ge
  have hlevelr : ∀ level, precedence? true next.kind = some level → level ≤ op.level + 1 :=
    fun level h => (hlevel level h).trans (binds.trans (Nat.le_succ _))
  obtain ⟨P, l, mid, hfirst, hgo⟩ := @hleft c n gap i _ (right.row [' '] i ++ next :: ls) hpartl hin hop hlevell
  obtain ⟨P', l', mid', hfirst', hgo'⟩ := @hright c n [' '] i next ls hpartr hin hnext hlevelr
  refine ⟨P, l, mid, by simpa only [row, List.append_assoc, List.cons_append] using hfirst, ?_⟩
  intro v fuel least' m Q ls' hv hleast hfuel hrest
  have hlevel8 := op.level_le
  obtain ⟨fuel, rfl⟩ : ∃ f, fuel = f + 1 := ⟨fuel - 1, by omega⟩
  obtain ⟨M, hM⟩ : ∃ M, c.source.length + 2 = (M + 1) + right.weight := ⟨c.source.length + 1 - right.weight, by omega⟩
  -- The operators behind the right value go on to what follows the phrase.
  have hbehind (v' : Node) (hv' : P' v') : Moves (binaryFrom (grammar n) (fuel + 1) (op.level + 1) v') c (l' :: mid')
      (fun e => right.Shape e ∧ e.isOperand = true) (next :: ls) := by
    rw [binaryFrom_succ]
    refine .loop fun _ => ?_
    rw [hM]
    refine hgo' v' fuel _ _ _ _ hv' (Nat.le_refl _) (by omega) fun e m' he hm' => ?_
    obtain ⟨m', rfl⟩ : ∃ m'', m' = m'' + 1 := ⟨m' - 1, by omega⟩
    have hend : ∀ level, precedence? c.scope.allowsIn next.kind = some level → level < op.level + 1 := by
      intro level h
      rw [hin] at h
      exact Nat.lt_succ_of_le ((hlevel level h).trans binds)
    refine .goOut ((moves_binaryStep_end hfits.plain hnext hend).mono ?_)
    rintro _ ⟨_, rfl, rfl⟩
    exact ⟨_, rfl, he, right.settled _ he⟩
  have hweight' : m + (binary op left right binds).weight = (m + right.weight + 1) + left.weight := by omega
  rw [hweight']
  refine hgo v _ least' _ Q ls' hv (hleast.trans binds) hfuel fun e m' he hm' => ?_
  obtain ⟨m', rfl⟩ : ∃ m'', m' = m'' + 1 := ⟨m' - 1, by omega⟩
  obtain ⟨first, more, hrow⟩ := exists_cons_append (right.row [' '] i) next ls
  rw [hrow] at hfirst' ⊢
  refine .goOn (moves_binaryStep hfits.plain hin (hleast.trans binds) (left.settled e he) (hfirst'.bind hbehind)) ?_
  rintro _ ⟨span, e', he', rfl⟩
  exact hrest _ m' ⟨span, e, e', rfl, he, he'⟩ (by omega)

theorem precedence_eq_none {allowsIn : Bool} {k : TokenKind} (h : k ∈ operationEnds) :
    precedence? allowsIn k = none := by
  have hall : ∀ k ∈ operationEnds, precedence? allowsIn k = none := by cases allowsIn <;> decide
  exact hall k h

/-- An operation as a whole. -/
theorem moves_operation {v : Phrase (.operation 0)} (hv : v.Reads) {gap : List Char} {i : Nat}
    (hfits : c.Fits v.weight (n + 2)) (hin : c.scope.allowsIn = true) (hnext : next.kind ∈ operationEnds) :
    Moves (Script.binary (grammar n)) c (v.row gap i ++ next :: ls) v.Shape (next :: ls) := by
  have hroom := hfits.room
  have hlevel : ∀ level, precedence? true next.kind = some level → level ≤ 0 := by
    intro level h
    rw [precedence_eq_none hnext] at h
    cases h
  have hend : ∀ level, precedence? c.scope.allowsIn next.kind = some level → level < 0 := by
    intro level h
    rw [precedence_eq_none hnext] at h
    cases h
  obtain ⟨P, l, mid, hfirst, hgo⟩ := @hv c n gap i next ls hfits hin (mem_unaryEnds hnext) hlevel
  obtain ⟨M, hM⟩ : ∃ M, c.source.length + 2 = (M + 1) + v.weight := ⟨c.source.length + 1 - v.weight, by omega⟩
  refine moves_binary hfirst fun u hu => ?_
  rw [binaryFrom_succ]
  refine .loop fun _ => ?_
  rw [hM]
  refine hgo u _ 0 _ _ _ hu (Nat.le_refl _) (by omega) fun e m' he hm' => ?_
  obtain ⟨m', rfl⟩ : ∃ m'', m' = m'' + 1 := ⟨m' - 1, by omega⟩
  refine .goOut ((moves_binaryStep_end hfits.plain (mem_unaryEnds hnext) hend).mono ?_)
  rintro _ ⟨_, rfl, rfl⟩
  exact ⟨_, rfl, he, v.settled _ he⟩

end Operators

/-! ## Conditions and assignments -/

section Assignments

variable {c : Setting} {n : Nat} {l m next : Lexeme} {rest ls ls' : List Lexeme} {x : Name} {S : Node → Prop}

theorem moves_grammar_assignment (hc : c.Plain) (hopens : opensExpression l.kind = true) (hm : m.kind ≠ .punct "=>")
    (h : ∀ size, Moves (assignmentRest (grammar n) size) c (l :: m :: rest) S ls') :
    Moves (grammar (n + 1) .assignment) c (l :: m :: rest) S ls' := by
  obtain ⟨-, -, -, -, hparen, -, hasync⟩ := opensExpression_facts hopens
  exact moves_assignmentRule hc (moves_noArrow hc hparen hasync hm) h

theorem weight_pos_assignment (v : Phrase .assignment) : 0 < v.weight := by
  obtain ⟨l, rest, hrow, -⟩ := v.opens [] 0
  rw [← v.length_row [] 0, hrow]
  exact Nat.succ_pos _

theorem reads_simple {v : Phrase (.operation 0)} (hv : v.Reads) : (simple v).Reads := by
  intro c n gap i next ls hfits hin hnext
  have hweight : (simple v).weight = v.weight := rfl
  have hpos := (simple v).weight_pos_assignment
  have hdeep := hfits.deep
  obtain ⟨n, rfl⟩ : ∃ n', n = n' + 1 := ⟨n - 1, by omega⟩
  have hpart : c.Fits v.weight (n + 2) := hfits.part (by omega) (by omega)
  have hread : Moves (Script.binary (grammar n)) c (v.row gap i ++ next :: ls) v.Shape (next :: ls) :=
    moves_operation hv hpart hin (mem_operationEnds hnext)
  have harrow : next.kind ≠ .punct "=>" := fun heq => absurd (heq ▸ hnext) (by decide)
  obtain ⟨l, rest, hrow, -, hopens⟩ := v.opens gap i
  obtain ⟨m, more, hsecond, hm⟩ := v.exists_second hrow harrow ls
  rw [hsecond] at hread
  rw [row, hsecond]
  exact moves_grammar_assignment hfits.plain hopens hm fun _ => moves_assignmentRest_plain hread hnext

theorem reads_cond {test : Phrase (.operation 0)} {yes no : Phrase .assignment} (htest : test.Reads) (hyes : yes.Reads)
    (hno : no.Reads) : (cond test yes no).Reads := by
  intro c n gap i next ls hfits hin hnext
  have hweight : (cond test yes no).weight = test.weight + yes.weight + no.weight + 2 := rfl
  have hdeep := hfits.deep
  obtain ⟨n, rfl⟩ : ∃ n', n = n' + 1 := ⟨n - 1, by omega⟩
  have hpart : c.Fits test.weight (n + 2) := hfits.part (by omega) (by omega)
  have hpart₁ : (c.within Scope.between).Fits yes.weight (n + 1) := hfits.between.part (by omega) (by omega)
  have hpart₂ : c.Fits no.weight (n + 1) := hfits.part (by omega) (by omega)
  have hread₂ : Moves (grammar n .assignment) c (no.row [' '] i ++ next :: ls) no.Shape (next :: ls) :=
    hno hpart₂ hin hnext
  obtain ⟨l₂, more₂, hrow₂⟩ := exists_cons_append (no.row [' '] i) next ls
  rw [hrow₂] at hread₂
  have hread₁ : Moves (grammar n .assignment) (c.within Scope.between)
      (yes.row [' '] i ++ .sign [' '] ":" :: l₂ :: more₂) yes.Shape (.sign [' '] ":" :: l₂ :: more₂) :=
    hyes hpart₁ rfl (by decide)
  obtain ⟨l₁, more₁, hrow₁⟩ := exists_cons_append (yes.row [' '] i) (.sign [' '] ":") (l₂ :: more₂)
  rw [hrow₁] at hread₁
  have hread : Moves (Script.binary (grammar n)) c (test.row gap i ++ .sign [' '] "?" :: l₁ :: more₁) test.Shape
      (.sign [' '] "?" :: l₁ :: more₁) := moves_operation htest hpart hin (by decide)
  obtain ⟨l, rest, hrow, -, hopens⟩ := test.opens gap i
  have harrow : (Lexeme.sign [' '] "?").kind ≠ .punct "=>" := by simp
  obtain ⟨m, more, hsecond, hm⟩ := test.exists_second hrow harrow (l₁ :: more₁)
  rw [hsecond] at hread
  simp only [row, List.append_assoc, List.cons_append]
  rw [hrow₂, hrow₁, hsecond]
  exact moves_grammar_assignment hfits.plain hopens hm fun _ =>
    moves_assignmentRest_conditional hread hread₁ hread₂

theorem reads_assign {links : Phrase (.links true true)} {v : Phrase .assignment} (hlinks : links.Reads)
    (hv : v.Reads) :
    (assign x links v).Reads := by
  intro c n gap i next ls hfits hin hnext
  have hweight : (assign x links v).weight = links.weight + v.weight + 2 := rfl
  have hdeep := hfits.deep
  obtain ⟨n, rfl⟩ : ∃ n', n = n' + 1 := ⟨n - 1, by omega⟩
  have hpart : c.Fits v.weight (n + 1) := hfits.part (by omega) (by omega)
  have hpart' : c.Fits (links.weight + 1) (n + 2) := hfits.part (by omega) (by omega)
  have hvalue : Moves (grammar n .assignment) c (v.row [' '] i ++ next :: ls) v.Shape (next :: ls) := hv hpart hin hnext
  obtain ⟨l, more, hrow⟩ := exists_cons_append (v.row [' '] i) next ls
  rw [hrow] at hvalue
  have htarget : Moves (Script.binary (grammar n)) c ((name x links).row gap i ++ .sign [' '] "=" :: l :: more)
      (name x links).Shape (.sign [' '] "=" :: l :: more) :=
    moves_operation (v := operand (plain (name x links))) (reads_operand (reads_plain (reads_name hlinks))) hpart' hin
      (by decide)
  have hplace : ∀ n, (name x links).Shape n → n.isPlace = true := by
    rintro n ⟨span, hn⟩
    exact (links.settled _ n hn rfl rfl).2.2 (fun _ => rfl) rfl
  have harrow : (Lexeme.sign [' '] "=").kind ≠ .punct "=>" := by simp
  obtain ⟨m, more', hsecond, hm⟩ := (name x links).exists_second rfl harrow (l :: more)
  rw [hsecond] at htarget
  have hassemble : (assign x links v).row gap i ++ next :: ls = .word gap x.text :: m :: more' := by
    rw [← hsecond]
    simp only [row, List.append_assoc, List.cons_append, hrow]
  have hopens : opensExpression (Lexeme.word gap x.text).kind = true := x.opens.2.1
  rw [hassemble]
  refine (moves_grammar_assignment hfits.plain hopens hm fun _ =>
    moves_assignmentRest_assign (htarget.mono fun n hn => ⟨hn, hplace n hn⟩) hvalue).mono ?_
  rintro _ ⟨span, target, e, rfl, ⟨inner, htarget⟩, he⟩
  exact ⟨span, inner, target, e, rfl, htarget, he⟩

theorem reads_one {v : Phrase .assignment} (hv : v.Reads) : (one v).Reads := by
  intro c n gap i next ls hfits hin hnext
  have hweight : (one v).weight = v.weight := rfl
  have hpos := v.weight_pos_assignment
  have hdeep := hfits.deep
  obtain ⟨n, rfl⟩ : ∃ n', n = n' + 1 := ⟨n - 1, by omega⟩
  have hpart : c.Fits v.weight (n + 1) := hfits.part (by omega) (by omega)
  have hread : Moves (grammar n .assignment) c (v.row gap i ++ next :: ls) v.Shape (next :: ls) :=
    hv hpart hin (mem_assignmentEnds hnext)
  obtain ⟨l, more, hrow⟩ := exists_cons_append (v.row gap i) next ls
  rw [hrow] at hread
  rw [row, hrow]
  exact moves_expression_one hread fun heq => absurd (heq ▸ hnext) (by decide)

theorem reads_comma {v w : Phrase .assignment} (hv : v.Reads) (hw : w.Reads) : (comma v w).Reads := by
  intro c n gap i next ls hfits hin hnext
  have hweight : (comma v w).weight = v.weight + w.weight + 1 := rfl
  have hdeep := hfits.deep
  obtain ⟨n, rfl⟩ : ∃ n', n = n' + 1 := ⟨n - 1, by omega⟩
  have hpart : c.Fits v.weight (n + 1) := hfits.part (by omega) (by omega)
  have hpart' : c.Fits w.weight (n + 1) := hfits.part (by omega) (by omega)
  have hsecond : Moves (grammar n .assignment) c (w.row [' '] i ++ next :: ls) w.Shape (next :: ls) :=
    hw hpart' hin (mem_assignmentEnds hnext)
  obtain ⟨l', more', hrow'⟩ := exists_cons_append (w.row [' '] i) next ls
  rw [hrow'] at hsecond
  have hfirst : Moves (grammar n .assignment) c (v.row gap i ++ .sign [] "," :: l' :: more') v.Shape
      (.sign [] "," :: l' :: more') := hv hpart hin (by decide)
  obtain ⟨l, more, hrow⟩ := exists_cons_append (v.row gap i) (.sign [] ",") (l' :: more')
  rw [hrow] at hfirst
  simp only [row, List.append_assoc, List.cons_append]
  rw [hrow', hrow]
  exact moves_expression_comma hfirst hsecond fun heq => absurd (heq ▸ hnext) (by decide)

end Assignments

/-! ## Lists -/

section Lists

theorem reads_noArgument : noArgument.Reads := by
  intro c n gap g i next ls m items hfits hin hm
  obtain ⟨m, rfl⟩ := Nat.exists_eq_succ_of_ne_zero (Nat.ne_of_gt (Nat.zero_lt_of_lt hm))
  refine .goOut (moves_commaStep_close.mono ?_)
  rintro _ rfl
  exact ⟨_, rfl, [], rfl, by simp⟩

theorem reads_lastArgument {v : Phrase .assignment} (hv : v.Reads) : (lastArgument v).Reads := by
  intro c n gap g i next ls m items hfits hin hm
  have hread : Moves (grammar n .assignment) c (v.row gap i ++ .sign g ")" :: next :: ls) v.Shape
      (.sign g ")" :: next :: ls) := hv hfits hin (by simp [assignmentEnds, expressionEnds])
  obtain ⟨m, rfl⟩ := Nat.exists_eq_succ_of_ne_zero (Nat.ne_of_gt (Nat.zero_lt_of_lt hm))
  obtain ⟨l, rest, hrow, -, hopens⟩ := v.opens gap i
  obtain ⟨hparen, hdots, -⟩ := opensExpression_facts hopens
  rw [row, hrow, List.cons_append]
  rw [hrow, List.cons_append] at hread
  refine .goOut ((moves_commaStep_last hparen (by decide) (moves_argumentItem hdots hread)).mono ?_)
  rintro _ ⟨a, ha, rfl⟩
  exact ⟨_, rfl, [a], ⟨a, rfl, ha⟩, rfl⟩

theorem reads_argument {v : Phrase .assignment} {rest : Phrase .arguments} (hv : v.Reads) (hrest : rest.Reads) :
    (argument v rest).Reads := by
  intro c n gap g i next ls m items hfits hin hm
  have hweight : (argument v rest).weight = v.weight + rest.weight + 1 := rfl
  have hdeep := hfits.deep
  have hpart : c.Fits v.weight (n + 1) := hfits.part (by omega) (by omega)
  have hpart' : c.Fits rest.weight (n + 1) := hfits.part (by omega) (by omega)
  obtain ⟨m, rfl⟩ := Nat.exists_eq_succ_of_ne_zero (Nat.ne_of_gt (Nat.zero_lt_of_lt hm))
  have hm' : rest.weight < m := by omega
  obtain ⟨l', more', hrow'⟩ := exists_cons_append (rest.row [' '] i) (.sign g ")") (next :: ls)
  have hread : Moves (grammar n .assignment) c (v.row gap i ++ .sign [] "," :: l' :: more') v.Shape
      (.sign [] "," :: l' :: more') := hv hpart hin (by decide)
  obtain ⟨l, more, hrow, -, hopens⟩ := v.opens gap i
  obtain ⟨hparen, hdots, -⟩ := opensExpression_facts hopens
  rw [hrow, List.cons_append] at hread
  simp only [row, List.append_assoc, List.cons_append]
  rw [hrow', hrow, List.cons_append]
  refine .goOn (moves_commaStep_more hparen (moves_argumentItem hdots hread)) ?_
  rintro _ ⟨a, ha, rfl⟩
  rw [← hrow']
  refine (hrest hpart' hin hm').mono ?_
  rintro _ ⟨vs, hvs, rfl⟩
  exact ⟨a :: vs, ⟨a, vs, rfl, ha, hvs⟩, by simp⟩

theorem reads_lastProperty {key : String} {v : Phrase .assignment} (hv : v.Reads) : (lastProperty key v).Reads := by
  intro c n gap g i next ls m items hfits hin hm
  have hweight : (lastProperty key v).weight = v.weight + 2 := rfl
  have hdeep := hfits.deep
  have hpart : c.Fits v.weight (n + 1) := hfits.part (by omega) (by omega)
  have hread : Moves (grammar n .assignment) c (v.row [' '] i ++ .sign g "\x7d" :: next :: ls) v.Shape
      (.sign g "\x7d" :: next :: ls) := hv hpart hin (by simp [assignmentEnds, expressionEnds])
  obtain ⟨m, rfl⟩ := Nat.exists_eq_succ_of_ne_zero (Nat.ne_of_gt (Nat.zero_lt_of_lt hm))
  obtain ⟨l, more, hrow⟩ := exists_cons_append (v.row [' '] i) (.sign g "\x7d") (next :: ls)
  rw [hrow] at hread
  simp only [row, List.cons_append]
  rw [hrow]
  refine .goOut ((moves_commaStep_last (by simp) (by decide) (moves_objectProperty hread)).mono ?_)
  rintro _ ⟨_, ⟨span, inner, a, ha, rfl⟩, rfl⟩
  exact ⟨_, rfl, _, ⟨span, inner, a, rfl, ha⟩, rfl⟩

theorem reads_property {key : String} {v : Phrase .assignment} {rest : Phrase .properties} (hv : v.Reads)
    (hrest : rest.Reads) : (property key v rest).Reads := by
  intro c n gap g i next ls m items hfits hin hm
  have hweight : (property key v rest).weight = v.weight + rest.weight + 3 := rfl
  have hdeep := hfits.deep
  have hpart : c.Fits v.weight (n + 1) := hfits.part (by omega) (by omega)
  have hpart' : c.Fits rest.weight (n + 1) := hfits.part (by omega) (by omega)
  obtain ⟨m, rfl⟩ := Nat.exists_eq_succ_of_ne_zero (Nat.ne_of_gt (Nat.zero_lt_of_lt hm))
  have hm' : rest.weight < m := by omega
  obtain ⟨l', more', hrow'⟩ := exists_cons_append (rest.row gap i) (.sign g "\x7d") (next :: ls)
  have hread : Moves (grammar n .assignment) c (v.row [' '] i ++ .sign [] "," :: l' :: more') v.Shape
      (.sign [] "," :: l' :: more') := hv hpart hin (by decide)
  obtain ⟨l, more, hrow⟩ := exists_cons_append (v.row [' '] i) (.sign [] ",") (l' :: more')
  rw [hrow] at hread
  simp only [row, List.append_assoc, List.cons_append]
  rw [hrow', hrow]
  refine .goOn (moves_commaStep_more (by simp) (moves_objectProperty hread)) ?_
  rintro _ ⟨_, ⟨span, inner, a, ha, rfl⟩, rfl⟩
  rw [← hrow']
  refine (hrest hpart' hin hm').mono ?_
  rintro _ ⟨fs, hfs, rfl⟩
  exact ⟨_ :: fs, ⟨span, inner, a, fs, rfl, ha, hfs⟩, by simp⟩

end Lists

end Phrase

end ModuleBuild.Script
