import ModuleBuild.Proofs.Script.StatementReading

/-!
# Listings

A listing is a whole program of phrases, with its statements on lines of their own. The text of a listing is read
as one of its trees.

## Main definitions

* `Node.Coverless` — no node inside makes sense only as part of a pattern.
* `Listing`, `Listing.text` — a listing, and its text.

## Main statements

* `Listing.parse?_text` — listings are read as they are written.
-/

namespace ModuleBuild.Script

open Text

/-! ## Nodes of patterns -/

/-- No node inside makes sense only as part of a pattern that it is not part of. -/
def Node.Coverless (n : Node) : Prop :=
  ∀ fuel, (n.descendants fuel).any isCover = false

/-- A node is free of such nodes if it is none and has none inside. -/
theorem Node.Coverless.of {n : Node} (h : isCover n = false) (hchildren : ∀ m ∈ n.children, m.Coverless) :
    n.Coverless := by
  intro fuel
  cases fuel with
  | zero => rfl
  | succ fuel =>
    rw [descendants, List.any_cons, h, Bool.false_or, List.any_eq_false]
    intro m hm
    obtain ⟨child, hchild, hm⟩ := List.mem_flatMap.mp hm
    exact List.any_eq_false.mp (hchildren child hchild fuel) m hm

/-- The trees of phrases are free of such nodes. -/
def Phrase.Coverless : {k : PhraseKind} → Phrase k → Prop
  | .links .., p => ∀ base n, p.Shape base n → base.Coverless → n.Coverless
  | .arguments, p | .properties, p | .statements _, p => ∀ ns, p.Shape ns → ∀ n ∈ ns, n.Coverless
  | .value, p | .unary, p | .operation _, p | .assignment, p | .expression, p | .statement _, p =>
    ∀ n, p.Shape n → n.Coverless

theorem coverless_binding {xs : List Name} {ps : List Node} (h : BindsNames xs ps) : ∀ p ∈ ps, p.Coverless := by
  induction h with
  | nil => simp
  | cons hp _ ih =>
    obtain ⟨span, rfl⟩ := hp
    exact List.forall_mem_cons.mpr ⟨Node.Coverless.of rfl (by simp [Node.children]), ih⟩

theorem coverless_func {span inner : Span} {shape : FuncShape} {name : Option String} {xs : List Name}
    {ps ss : List Node}
    (hps : BindsNames xs ps) (hss : ∀ s ∈ ss, s.Coverless) :
    (Node.func span shape name ps (.body inner ss)).Coverless := by
  have hbody : (Node.body inner ss).Coverless := .of rfl hss
  refine .of rfl fun m hm => ?_
  rcases List.mem_append.mp hm with hm | hm
  · exact coverless_binding hps m hm
  · rw [List.mem_singleton.mp hm]
    exact hbody

theorem coverless_ident {span : Span} {name : String} : (Node.ident span name).Coverless :=
  .of rfl (by simp [Node.children])

theorem coverless_inParens {n : Node} (h : n.Coverless) : n.inParens.Coverless := by
  cases n with
  | func =>
    intro fuel
    have hfuel := h fuel
    cases fuel with
    | zero => rfl
    | succ fuel => exact hfuel
  | _ => exact h

theorem coverless_property {span inner : Span} {key : String} {n : Node} (h : n.Coverless) :
    (Node.property span (.nameKey inner key) false n).Coverless := by
  have hkey : (Node.nameKey inner key).Coverless := .of rfl (by simp [Node.children])
  exact .of rfl (by simpa [Node.children] using ⟨hkey, h⟩)

theorem coverless_declarator {span inner : Span} {name : String} {value : Option Node}
    (h : ∀ n ∈ value, n.Coverless) : (Node.declarator span (.binding inner name) value).Coverless := by
  have hname : (Node.binding inner name).Coverless := .of rfl (by simp [Node.children])
  exact .of rfl (by simpa [Node.children] using ⟨hname, h⟩)

theorem Phrase.coverless {k : PhraseKind} (p : Phrase k) : p.Coverless := by
  induction p with
  | noLink =>
    rintro base _ rfl hbase
    exact hbase
  | member key rest ih =>
    rintro base n ⟨span, hn⟩ hbase
    exact ih _ n hn (.of rfl (by simpa [Node.children] using hbase))
  | index key rest ihkey ih =>
    rintro base n ⟨span, e, he, hn⟩ hbase
    exact ih _ n hn (.of rfl (by simpa [Node.children] using ⟨hbase, ihkey e he⟩))
  | call values rest ihvalues ih =>
    rintro base n ⟨span, vs, hvs, hn⟩ hbase
    exact ih _ n hn (.of rfl (by simpa [Node.children] using ⟨hbase, ihvalues vs hvs⟩))
  | name x rest ih =>
    rintro n ⟨span, hn⟩
    exact ih _ n hn (.of rfl (by simp [Node.children]))
  | string | number | null | this | bool | emptyObject =>
    rintro _ ⟨span, rfl⟩
    exact .of rfl (by simp [Node.children])
  | func xs body ih =>
    rintro _ ⟨span, inner, ps, ss, rfl, hps, hss⟩
    exact coverless_func hps (ih ss hss)
  | object isWide fields ih =>
    rintro _ ⟨span, fs, rfl, hfs⟩
    exact .of rfl (ih fs hfs)
  | new x values ih =>
    rintro _ ⟨span, inner, vs, rfl, hvs⟩
    exact .of rfl (List.forall_mem_cons.mpr ⟨coverless_ident, ih vs hvs⟩)
  | plain v ih | operand v ih | simple v ih | one v ih => exact ih
  | typeOf v ih =>
    rintro _ ⟨span, a, rfl, ha⟩
    exact .of rfl (by simpa [Node.children] using ih a ha)
  | notParen e ih =>
    rintro _ ⟨span, inner, a, rfl, ha⟩
    have hparen : (Node.paren inner a.inParens).Coverless :=
      .of rfl (by simpa [Node.children] using coverless_inParens (ih a ha))
    exact .of rfl (by simpa [Node.children] using hparen)
  | increment x =>
    rintro _ ⟨span, inner, rfl⟩
    exact .of rfl (by simpa [Node.children] using coverless_ident)
  | binary op left right binds ihleft ihright =>
    rintro _ ⟨span, a, b, rfl, ha, hb⟩
    exact .of rfl (by simpa [Node.children] using ⟨ihleft a ha, ihright b hb⟩)
  | cond test yes no ihtest ihyes ihno =>
    rintro _ ⟨span, a, b, e, rfl, ha, hb, he⟩
    exact .of rfl (by simpa [Node.children] using ⟨ihtest a ha, ihyes b hb, ihno e he⟩)
  | assign x links v ihlinks ih =>
    rintro _ ⟨span, inner, target, e, rfl, htarget, he⟩
    exact .of rfl (by simpa [Node.children] using ⟨ihlinks _ target htarget coverless_ident, ih e he⟩)
  | comma v w ihv ihw =>
    rintro _ ⟨span, a, b, rfl, ha, hb⟩
    exact .of rfl (by simpa [Node.children] using ⟨ihv a ha, ihw b hb⟩)
  | noArgument | noStatement =>
    rintro _ rfl
    simp
  | lastArgument v ih =>
    rintro _ ⟨a, rfl, ha⟩
    simpa using ih a ha
  | argument v rest ihv ih =>
    rintro _ ⟨a, vs, rfl, ha, hvs⟩
    exact List.forall_mem_cons.mpr ⟨ihv a ha, ih vs hvs⟩
  | lastProperty key v ih =>
    rintro _ ⟨span, inner, a, rfl, ha⟩
    simpa using coverless_property (ih a ha)
  | property key v rest ihv ih =>
    rintro _ ⟨span, inner, a, fs, rfl, ha, hfs⟩
    exact List.forall_mem_cons.mpr ⟨coverless_property (ihv a ha), ih fs hfs⟩
  | perform x links ih =>
    rintro _ ⟨span, inner, e, rfl, he⟩
    exact .of rfl (by simpa [Node.children] using ih _ e he coverless_ident)
  | set x links v ihlinks ih =>
    rintro _ ⟨span, span', inner, target, e, rfl, htarget, he⟩
    have hassign : (Node.assign span' "=" target e).Coverless :=
      .of rfl (by simpa [Node.children] using ⟨ihlinks _ target htarget coverless_ident, ih e he⟩)
    exact .of rfl (by simpa [Node.children] using hassign)
  | wrapped x body v ihbody ih =>
    rintro _ ⟨span, callSpan, parenSpan, funcSpan, paramSpan, bodySpan, ss, a, rfl, hss, ha⟩
    have hps : BindsNames [x] [.binding paramSpan x.text] := .cons ⟨paramSpan, rfl⟩ .nil
    have hparen : (Node.paren parenSpan (.func funcSpan { isWrapped := true } none [.binding paramSpan x.text]
        (.body bodySpan ss))).Coverless :=
      .of rfl (by simpa [Node.children] using coverless_func hps (ihbody ss hss))
    have hcall : (Node.call callSpan (.paren parenSpan (.func funcSpan { isWrapped := true } none
        [.binding paramSpan x.text] (.body bodySpan ss))) [a] false false).Coverless :=
      .of rfl (by simpa [Node.children] using ⟨hparen, ih a ha⟩)
    exact .of rfl (by simpa [Node.children] using hcall)
  | var x v ih =>
    rintro _ ⟨span, span', inner, e, rfl, he⟩
    have hdeclarator : (Node.declarator span' (.binding inner x.text) (some e)).Coverless :=
      coverless_declarator (by simpa using ih e he)
    exact .of rfl (by simpa [Node.children] using hdeclarator)
  | ret e ih | throw e ih =>
    rintro _ ⟨span, a, rfl, ha⟩
    exact .of rfl (by simpa [Node.children] using ih a ha)
  | ifThen test yes ihtest ihyes =>
    rintro _ ⟨span, a, b, rfl, ha, hb⟩
    exact .of rfl (by simpa [Node.children] using ⟨ihtest a ha, ihyes b hb⟩)
  | ifElse test yes no ihtest ihyes ihno =>
    rintro _ ⟨span, inner, a, ss, b, rfl, ha, hss, hb⟩
    have hblock : (Node.block inner ss).Coverless := .of rfl (ihyes ss hss)
    exact .of rfl (by simpa [Node.children] using ⟨ihtest a ha, hblock, ihno b hb⟩)
  | block body ih =>
    rintro _ ⟨span, ss, rfl, hss⟩
    exact .of rfl (ih ss hss)
  | forFrom x first test step body ihtest ihstep ihbody =>
    rintro _ ⟨span, headSpan, span', inner, span'', a, b, e, rfl, ha, hb, he⟩
    have hnumber : (Node.number span'' first).Coverless := .of rfl (by simp [Node.children])
    have hhead : (Node.var headSpan .varDecl [.declarator span' (.binding inner x.text)
        (some (.number span'' first))]).Coverless :=
      .of rfl (by simpa [Node.children] using coverless_declarator (by simpa using hnumber))
    exact .of rfl (by simpa [Node.children] using ⟨hhead, ihtest a ha, ihstep b hb, ihbody e he⟩)
  | forIn x e body ihe ihbody =>
    rintro _ ⟨span, headSpan, span', inner, a, b, rfl, ha, hb⟩
    have hhead : (Node.var headSpan .varDecl [.declarator span' (.binding inner x.text) none]).Coverless :=
      .of rfl (by simpa [Node.children] using coverless_declarator (by simp))
    exact .of rfl (by simpa [Node.children] using ⟨hhead, ihe a ha, ihbody b hb⟩)
  | function x xs body ih =>
    rintro _ ⟨span, inner, ps, ss, rfl, hps, hss⟩
    exact .of rfl (by simpa [Node.children] using coverless_func hps (ih ss hss))
  | exports names =>
    rintro _ ⟨span, rfl⟩
    exact .of rfl (by simp [Node.children])
  | statement s rest ihs ih =>
    rintro _ ⟨n, ss, rfl, hn, hss⟩
    exact List.forall_mem_cons.mpr ⟨ihs n hn, ih ss hss⟩

/-! ## Exported names -/

/-- The names under which a statement exports something. -/
def Phrase.exported {returns : Bool} : Phrase (.statement returns) → List String
  | .exports names => names.map (·.2)
  | _ => []

theorem Phrase.exportedNames_statement {returns : Bool} {fuel : Nat} (p : Phrase (.statement returns)) (n : Node)
    (h : p.Shape n) : exportedNames fuel n = p.exported := by
  cases p with
  | perform =>
    obtain ⟨span, inner, e, rfl, -⟩ := h
    rfl
  | set =>
    obtain ⟨span, span', inner, target, e, rfl, -⟩ := h
    rfl
  | wrapped =>
    obtain ⟨span, callSpan, parenSpan, funcSpan, paramSpan, bodySpan, ss, a, rfl, -⟩ := h
    rfl
  | var =>
    obtain ⟨span, span', inner, e, rfl, -⟩ := h
    rfl
  | ret | throw =>
    obtain ⟨span, a, rfl, -⟩ := h
    rfl
  | ifThen =>
    obtain ⟨span, a, b, rfl, -⟩ := h
    rfl
  | ifElse =>
    obtain ⟨span, inner, a, ss, b, rfl, -⟩ := h
    rfl
  | block =>
    obtain ⟨span, ss, rfl, -⟩ := h
    rfl
  | forFrom =>
    obtain ⟨span, headSpan, span', inner, span'', a, b, e, rfl, -⟩ := h
    rfl
  | forIn =>
    obtain ⟨span, headSpan, span', inner, a, b, rfl, -⟩ := h
    rfl
  | function =>
    obtain ⟨span, inner, ps, ss, rfl, -⟩ := h
    rfl
  | exports names =>
    obtain ⟨span, rfl⟩ := h
    simp only [exportedNames, exported, List.map_map]
    rfl

/-! ## Programs -/

/-- Statements in a row. -/
def Phrase.list {returns : Bool} : List (Phrase (.statement returns)) → Phrase (.statements returns)
  | [] => .noStatement
  | s :: ss => .statement s (list ss)

theorem Phrase.shape_list {returns : Bool} {ss : List (Phrase (.statement returns))} {ns : List Node} :
    (Phrase.list ss).Shape ns ↔ List.Forall₂ (fun s n => s.Shape n) ss ns := by
  induction ss generalizing ns with
  | nil =>
    rw [List.forall₂_nil_left_iff]
    exact Iff.rfl
  | cons s ss ih =>
    rw [List.forall₂_cons_left_iff]
    constructor
    · rintro ⟨n, rest, rfl, hn, hrest⟩
      exact ⟨n, rest, hn, ih.mp hrest, rfl⟩
    · rintro ⟨n, rest, hn, hrest, rfl⟩
      exact ⟨n, rest, rfl, hn, ih.mpr hrest⟩

/-- A whole program: statements on lines of their own. -/
abbrev Listing := List (Phrase (.statement false))

namespace Listing

/-- The lexemes of a listing, which ends with a line break. -/
def row (ss : Listing) : List Lexeme :=
  (Phrase.list ss).row [] 0 ++ [⟨['\n'], .eof⟩]

/-- The text of a listing. -/
def text (ss : Listing) : String :=
  String.ofList (rowChars ss.row)

/-- The nodes are trees of the statements. -/
def Shape (ss : Listing) (ns : List Node) : Prop :=
  List.Forall₂ (fun s n => s.Shape n) ss ns

end Listing

/-- A token that is written has characters. -/
theorem Glyph.Clear.chars_ne_nil {g : Glyph} {next : Option Char} (h : g.Clear next) (hg : g ≠ .eof) :
    g.chars ≠ [] := by
  cases g with
  | word text =>
    obtain ⟨⟨c, hc, -⟩, -⟩ := h
    intro hnil
    rw [show text.toList = [] from hnil] at hc
    cases hc
  | punct text =>
    rcases h with ⟨p, -, rfl⟩ | ⟨hplain, -⟩
    · simp [chars]
    · obtain ⟨c, more, htext, -⟩ := plainPuncts_start text hplain
      simp [chars, htext]
  | string text => simp [chars, quote]
  | number text =>
    obtain ⟨⟨c, hc, -⟩, -⟩ := h
    intro hnil
    rw [show text.toList = [] from hnil] at hc
    cases hc
  | eof => exact absurd rfl hg

/-- A text is at least as long as its row. -/
theorem length_le_rowChars {next : Option Char} {ls : List Lexeme} (h : Spelled next ls)
    (htame : ls.all (·.isTame) = true) :
    ls.length ≤ (rowChars ls).length := by
  induction ls with
  | nil => exact Nat.le_refl _
  | cons l ls ih =>
    obtain ⟨-, hclear, hrest⟩ := h
    obtain ⟨hl, hls⟩ : l.isTame = true ∧ ls.all (·.isTame) = true := by simpa using htame
    have hne := hclear.chars_ne_nil (Lexeme.isTame_iff.mp hl).1
    have hpos : 0 < l.glyph.chars.length := List.length_pos_iff.mpr hne
    have hih := ih hrest hls
    simp only [List.length_cons, rowChars_cons, Lexeme.chars, List.length_append]
    omega

namespace Listing

variable {ss : Listing} {dialect : Dialect}

theorem exportedNames_eq {ns : List Node} {fuel : Nat} (h : ss.Shape ns) :
    ns.flatMap (exportedNames fuel) = ss.flatMap Phrase.exported := by
  induction h with
  | nil => rfl
  | cons hn _ ih => rw [List.flatMap_cons, List.flatMap_cons, ih, Phrase.exportedNames_statement _ _ hn]

theorem any_isCover_eq_false {ns : List Node} {fuel : Nat} (h : ss.Shape ns) :
    (ns.flatMap (Node.descendants fuel)).any isCover = false := by
  rw [List.any_flatMap, List.any_eq_false]
  intro n hn
  have hfree := (Phrase.list ss).coverless ns (Phrase.shape_list.mpr h) n hn fuel
  simpa using hfree

/-- The rules read all statements of a listing, up to its end. -/
theorem moves_statementList {c : Setting} (hc : c.Plain) (hsource : c.source = rowChars ss.row)
    (hspelled : Spelled none ss.row) :
    Moves (statementList (grammar (16 * c.source.length + 64))) c ss.row ss.Shape [⟨['\n'], .eof⟩] := by
  have hroom : (Phrase.list ss).weight ≤ c.source.length := by
    obtain ⟨hrow, -⟩ := spelled_append.mp hspelled
    have hlength := length_le_rowChars hrow ((Phrase.list ss).tame [] 0)
    rw [Phrase.length_row] at hlength
    rw [hsource, row, rowChars_append, List.length_append]
    exact Nat.le_add_right_of_le hlength
  have hfits : c.Fits (Phrase.list ss).weight (16 * c.source.length + 64 + 3) := ⟨hc, by omega, hroom⟩
  have hstep : ∀ a l ls S ls', opensStatement l.kind = true →
      Moves (grammar (16 * c.source.length + 64) .statement) c (l :: ls) S ls' →
      Moves (statementStep (grammar (16 * c.source.length + 64)) a) c (l :: ls)
        (fun r => ∃ b, r = .inl b ∧ ∃ s, S s ∧ b.2 = s :: a.2) ls' := by
    rintro ⟨atStart, items⟩ l ls S ls' hl h
    refine (moves_statementStep hl h).mono ?_
    rintro _ ⟨a, rfl, s, hs, rfl⟩
    exact ⟨_, rfl, s, hs, rfl⟩
  obtain ⟨m, hm⟩ : ∃ m, c.source.length + 2 = (m + 1) + (Phrase.list ss).weight :=
    ⟨c.source.length + 1 - (Phrase.list ss).weight, by omega⟩
  rw [statementList_eq]
  refine .loop fun _ => ?_
  rw [hm]
  refine (Phrase.list ss).reads hfits (by simp) (by simp) hstep ?_
  rintro ⟨atStart, items⟩ m' ns hns hitems hm'
  obtain ⟨m', rfl⟩ : ∃ m'', m' = m'' + 1 := ⟨m' - 1, by omega⟩
  have hitems : items = ns.reverse := by simpa using hitems
  refine .goOut ((moves_statementStep_end (.inl rfl)).mono ?_)
  rintro _ ⟨b, rfl, rfl⟩
  exact ⟨_, rfl, Phrase.shape_list.mp (by simpa [hitems] using hns)⟩

/-- A listing is read as it is written, if it exports no name twice. -/
theorem parse?_text (htypes : dialect.hasTypes = false) (hmarkup : dialect.hasMarkup = false)
    (hspelled : Spelled none ss.row)
    (hexports : allDifferent (ss.flatMap Phrase.exported) = true) :
    ∃ p, Program.parse? dialect ss.text = some p ∧ ss.Shape p.body := by
  obtain ⟨l, more, hrow⟩ := exists_cons_append ((Phrase.list ss).row [] 0) ⟨['\n'], .eof⟩ []
  have hrow : ss.row = l :: more := hrow
  have htext : ss.text.toList = rowChars ss.row := String.toList_ofList
  obtain ⟨s, hstart, hstands⟩ := @advance_start dialect l more (hrow ▸ hspelled)
  rw [← hrow] at hstart hstands
  let c : Setting := ⟨dialect, { isAsync := dialect.isModule }, rowChars ss.row⟩
  have hc : c.Plain := ⟨htypes, hmarkup, rfl⟩
  have hprogram : Moves (do
      let body ← statementList (grammar (16 * (rowChars ss.row).length + 64))
      require ((← token).kind == .eof)
      return body) c ss.row ss.Shape [⟨['\n'], .eof⟩] := by
    refine (moves_statementList hc rfl hspelled).bind fun body hbody => ?_
    refine moves_token.bind ?_
    rintro _ ⟨_, _, rfl⟩
    exact (moves_require rfl).bind fun _ _ => .pure hbody
  obtain ⟨body, s', hrun, -, hbody⟩ := hprogram s hstands
  have hread : (do
      advance
      let body ← statementList (grammar (16 * (rowChars ss.row).length + 64))
      require ((← token).kind == .eof)
      return body : Parse (List Node)).run (ParseState.start dialect (rowChars ss.row)) = some (body, s') := by
    rw [StateT.run_bind, show StateT.run advance _ = _ from hstart]
    exact hrun
  unfold Program.parse?
  simp only [htext, hread, Option.bind_eq_bind, Option.bind_some]
  have hcover (p : Program) (hp : p.body = body) : p.nodes.any isCover = false := by
    rw [Program.nodes, hp]
    exact any_isCover_eq_false hbody
  rw [if_neg (by rw [hcover _ rfl]; simp), if_neg (by rw [exportedNames_eq hbody, hexports]; simp)]
  exact ⟨_, rfl, hbody⟩

end Listing

end ModuleBuild.Script
