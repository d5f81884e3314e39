import ModuleBuild.Proofs.Script.Lexemes

/-!
# Parsers that pass over lexemes

A parser that has a row of lexemes at hand passes over some of them with a result. What the steps of all rules
do is said once; the rules are followed step by step.

## Main definitions

* `Moves` — a parser passes from one row to another one, with a result of some kind.
* `Fails` — a parser fails at a row.

## Main statements

* `Moves.bind`, `Moves.inScope`, `Moves.goOn`, `Moves.goOut` — parsers that are made of others.
* `moves_advance`, `moves_accept`, `moves_refuse`, `moves_expect` — the steps.
-/

namespace ModuleBuild.Script

open Text

/-- The parser passes from the first row to the second one, in the same context, and its result is of this
kind. -/
def Moves {α : Type} (p : Parse α) (c : Setting) (ls : List Lexeme) (Q : α → Prop) (ls' : List Lexeme) : Prop :=
  ∀ s, Stands c ls s → ∃ a s', p s = some (a, s') ∧ Stands c ls' s' ∧ Q a

/-- The parser fails at the row. -/
def Fails {α : Type} (p : Parse α) (c : Setting) (ls : List Lexeme) : Prop :=
  ∀ s, Stands c ls s → p s = none

section Moves

variable {α β : Type} {p : Parse α} {f : α → Parse β} {c : Setting} {ls ls' ls'' : List Lexeme} {l next : Lexeme}
  {Q R : α → Prop} {S : β → Prop} {gap : List Char} {text : String}

/-! ## Parsers made of others -/

theorem Moves.pure {a : α} (h : Q a) : Moves (Pure.pure a) c ls Q ls :=
  fun s hs => ⟨a, s, rfl, hs, h⟩

theorem Moves.bind (hp : Moves p c ls Q ls') (hf : ∀ a, Q a → Moves (f a) c ls' S ls'') :
    Moves (p >>= f) c ls S ls'' := by
  intro s hs
  obtain ⟨a, s', hrun, hs', ha⟩ := hp s hs
  obtain ⟨b, s'', hrun', hs'', hb⟩ := hf a ha s' hs'
  exact ⟨b, s'', by rw [← hrun']; exact congrArg (Option.bind · _) hrun, hs'', hb⟩

theorem Moves.mono (hp : Moves p c ls Q ls') (h : ∀ a, Q a → R a) : Moves p c ls R ls' := by
  intro s hs
  obtain ⟨a, s', hrun, hs', ha⟩ := hp s hs
  exact ⟨a, s', hrun, hs', h a ha⟩

theorem Moves.map {g : α → β} (hp : Moves p c ls (fun a => S (g a)) ls') : Moves (g <$> p) c ls S ls' :=
  hp.bind fun _ ha => Moves.pure ha

theorem Moves.some (hp : Moves p c ls Q ls') :
    Moves (Option.some <$> p) c ls (fun o => ∃ a, o = Option.some a ∧ Q a) ls' :=
  .map (hp.mono fun a ha => ⟨a, rfl, ha⟩)

theorem Fails.bind (hp : Fails p c ls) : Fails (p >>= f) c ls :=
  fun s hs => congrArg (Option.bind · _) (hp s hs)

theorem Moves.fails (hp : Moves p c ls Q ls') (hf : ∀ a, Q a → Fails (f a) c ls') : Fails (p >>= f) c ls := by
  intro s hs
  obtain ⟨a, s', hrun, hs', ha⟩ := hp s hs
  rw [← hf a ha s' hs']
  exact congrArg (Option.bind · _) hrun

theorem fails_failure : Fails (failure : Parse α) c ls := fun _ _ => rfl

/-- The context in which other rules about the place hold. -/
def Setting.within (c : Setting) (f : Scope → Scope) : Setting :=
  { c with scope := f c.scope }

/-- A place is in a row, whatever the rules about it are. -/
theorem Stands.rescope {s : ParseState} (h : Stands c ls s) (scope : Scope) :
    Stands { c with scope } ls { s with scope } := by
  obtain ⟨before, l, behind, rfl, hsource, hspelled, rfl⟩ := h
  exact ⟨before, l, behind, rfl, hsource, hspelled, rfl⟩

theorem Stands.scope_eq {s : ParseState} (h : Stands c ls s) : s.scope = c.scope := by
  obtain ⟨before, l, behind, rfl, -, -, rfl⟩ := h
  rfl

theorem Moves.inScope {f : Scope → Scope} (hp : Moves p (c.within f) ls Q ls') :
    Moves (Script.inScope f p) c ls Q ls' := by
  intro s hs
  have hscope := hs.scope_eq
  have hinside : Stands (c.within f) ls { s with scope := f s.scope } := by
    rw [hscope]
    exact hs.rescope (f c.scope)
  obtain ⟨a, s', hrun, hs', ha⟩ := hp _ hinside
  refine ⟨a, { s' with scope := s.scope }, ?_, ?_, ha⟩
  · change (p { s with scope := f s.scope }).bind _ = _
    rw [hrun]
    rfl
  · rw [hscope]
    exact hs'.rescope c.scope

theorem Fails.inScope {f : Scope → Scope} (hp : Fails p (c.within f) ls) : Fails (Script.inScope f p) c ls := by
  intro s hs
  have hinside : Stands (c.within f) ls { s with scope := f s.scope } := by
    have hscope := hs.scope_eq
    rw [hscope]
    exact hs.rescope (f c.scope)
  change (p { s with scope := f s.scope }).bind _ = _
  rw [hp _ hinside]
  rfl

/-- Whatever a parser would give, it is only asked for. -/
theorem moves_ahead (h : Fails p c ls) : Moves (ahead p) c ls (· = none) ls := by
  intro s hs
  refine ⟨none, s, ?_, hs, rfl⟩
  simp only [ahead, StateT.run, h s hs]

theorem moves_nextIs_any (p : Parse Bool) : Moves (nextIs p) c ls (fun _ => True) ls := by
  intro s hs
  simp only [nextIs, ahead, bind, StateT.bind, StateT.run]
  split <;> exact ⟨_, s, rfl, hs, trivial⟩

/-! ## Steps -/

theorem moves_get : Moves get c (l :: ls) (fun s => ∃ before, c.source = before ++ rowChars (l :: ls) ∧
    s = l.state c before (rowChars ls)) (l :: ls) := by
  intro s hs
  obtain ⟨before, l, behind, heq, hsource, hspelled, rfl⟩ := id hs
  obtain ⟨rfl, rfl⟩ := List.cons.inj heq
  exact ⟨_, _, rfl, hs, before, hsource, rfl⟩

theorem moves_advance : Moves advance c (l :: next :: ls) (fun _ => True) (next :: ls) := by
  intro s hs
  obtain ⟨s', hrun, hs'⟩ := hs.advance
  exact ⟨(), s', hrun, hs', trivial⟩

theorem moves_token : Moves token c (l :: ls) (fun t => ∃ start stop, t = ⟨l.kind, start, stop, l.breaks⟩)
    (l :: ls) := by
  refine moves_get.bind ?_
  rintro _ ⟨before, -, rfl⟩
  exact .pure ⟨_, _, rfl⟩

/-- The place of a token is known from what stands before it. -/
theorem moves_place : Moves place c (l :: ls)
    (fun n => ∃ before, c.source = before ++ rowChars (l :: ls) ∧ n = byteLength (before ++ l.gap)) (l :: ls) := by
  intro s hs
  obtain ⟨before, l, behind, heq, hsource, hspelled, rfl⟩ := id hs
  obtain ⟨rfl, rfl⟩ := List.cons.inj heq
  exact ⟨_, _, rfl, hs, before, hsource, rfl⟩

theorem moves_spanFrom {start : Nat} : Moves (spanFrom start) c (l :: ls)
    (fun span => ∃ before, c.source = before ++ rowChars (l :: ls) ∧ span = ⟨start, byteLength before⟩)
    (l :: ls) := by
  refine moves_get.bind ?_
  rintro _ ⟨before, hsource, rfl⟩
  exact .pure ⟨before, hsource, rfl⟩

theorem moves_sees : Moves (sees text) c (l :: ls) (· = (l.kind == .punct text)) (l :: ls) := by
  refine moves_token.bind ?_
  rintro _ ⟨_, _, rfl⟩
  exact .pure rfl

theorem moves_seesWord : Moves (seesWord text) c (l :: ls) (· = (l.kind == .word text false)) (l :: ls) := by
  refine moves_token.bind ?_
  rintro _ ⟨_, _, rfl⟩
  exact .pure rfl

theorem moves_afterNewline : Moves afterNewline c (l :: ls) (· = l.breaks) (l :: ls) := by
  refine moves_token.bind ?_
  rintro _ ⟨_, _, rfl⟩
  exact .pure rfl

theorem moves_require {b : Bool} (h : b = true) : Moves (require b) c ls (fun _ => True) ls := by
  rw [h]
  exact .pure trivial

theorem moves_accept : Moves (accept text) c (⟨gap, .punct text⟩ :: next :: ls) (· = true) (next :: ls) := by
  refine moves_sees.bind ?_
  rintro _ rfl
  rw [if_pos (by simp)]
  exact moves_advance.bind fun _ _ => .pure rfl

theorem moves_refuse (h : l.kind ≠ .punct text) : Moves (accept text) c (l :: ls) (· = false) (l :: ls) := by
  refine moves_sees.bind ?_
  rintro _ rfl
  rw [if_neg (by simpa using h)]
  exact .pure rfl

theorem moves_acceptWord : Moves (acceptWord text) c (⟨gap, .word text⟩ :: next :: ls) (· = true) (next :: ls) := by
  refine moves_seesWord.bind ?_
  rintro _ rfl
  rw [if_pos (by simp)]
  exact moves_advance.bind fun _ _ => .pure rfl

theorem moves_refuseWord (h : l.kind ≠ .word text false) :
    Moves (acceptWord text) c (l :: ls) (· = false) (l :: ls) := by
  refine moves_seesWord.bind ?_
  rintro _ rfl
  rw [if_neg (by simpa using h)]
  exact .pure rfl

theorem moves_expect : Moves (expect text) c (⟨gap, .punct text⟩ :: next :: ls) (fun _ => True) (next :: ls) := by
  refine moves_accept.bind ?_
  rintro _ rfl
  exact .pure trivial

theorem moves_expectWord :
    Moves (expectWord text) c (⟨gap, .word text⟩ :: next :: ls) (fun _ => True) (next :: ls) := by
  refine moves_acceptWord.bind ?_
  rintro _ rfl
  exact .pure trivial

theorem moves_anyWord :
    Moves anyWord c (⟨gap, .word text⟩ :: next :: ls) (fun a => a.2 = text) (next :: ls) := by
  refine moves_token.bind ?_
  rintro _ ⟨_, _, rfl⟩
  exact moves_advance.bind fun _ _ => .pure rfl

/-- What would be said behind the token at hand. -/
theorem moves_nextIs {q : Parse Bool} {b : Bool} (h : Moves q c (next :: ls) (· = b) ls') :
    Moves (nextIs q) c (l :: next :: ls) (· = b) (l :: next :: ls) := by
  intro s hs
  obtain ⟨_, s', hrun, hs', -⟩ := moves_advance s hs
  obtain ⟨a, s'', hrun', -, hb⟩ := h s' hs'
  refine ⟨_, s, ?_, hs, rfl⟩
  simp only [nextIs, ahead, bind, StateT.bind, StateT.run, hrun, Option.bind_some, hrun', hb]
  cases b <;> rfl

theorem moves_semicolon : Moves semicolon c (⟨gap, .punct ";"⟩ :: next :: ls) (fun _ => True) (next :: ls) := by
  refine moves_accept.bind ?_
  rintro _ rfl
  exact .pure trivial

end Moves

/-! ## Repetition -/

section Loop

variable {α β : Type} {step : α → Parse (α ⊕ β)} {c : Setting} {ls ls' ls'' : List Lexeme} {a : α}
  {P : α → Prop} {Q : β → Prop} {n : Nat}

theorem Moves.loop (h : ls ≠ [] → Moves (loop.go step (c.source.length + 2) a) c ls Q ls') :
    Moves (Script.loop a step) c ls Q ls' := by
  cases ls with
  | nil =>
    rintro s ⟨_, _, _, h, -⟩
    cases h
  | cons l ls =>
    refine moves_get.bind ?_
    rintro _ ⟨before, -, rfl⟩
    exact h (List.cons_ne_nil _ _)

theorem Fails.loop (hstep : Fails (step a) c ls) : Fails (Script.loop a step) c ls := by
  cases ls with
  | nil =>
    rintro s ⟨_, _, _, h, -⟩
    cases h
  | cons l ls =>
    refine moves_get.fails ?_
    rintro _ ⟨before, -, rfl⟩
    exact hstep.bind

/-- One more step of a repetition. -/
theorem Moves.goOn (hstep : Moves (step a) c ls (fun r => ∃ b, r = .inl b ∧ P b) ls')
    (hrest : ∀ b, P b → Moves (loop.go step n b) c ls' Q ls'') :
    Moves (loop.go step (n + 1) a) c ls Q ls'' := by
  refine hstep.bind ?_
  rintro _ ⟨b, rfl, hb⟩
  exact hrest b hb

/-- The last step of a repetition. -/
theorem Moves.goOut (hstep : Moves (step a) c ls (fun r => ∃ b, r = .inr b ∧ Q b) ls') :
    Moves (loop.go step (n + 1) a) c ls Q ls' := by
  refine hstep.bind ?_
  rintro _ ⟨b, rfl, hb⟩
  exact .pure hb

end Loop

end ModuleBuild.Script
