import Mathlib
import ModuleBuild.Proofs.Linking.Statements

/-!
# Reading statements without module syntax

Statements lose their module syntax one by one, and after each of them the text is read again. Before the place
that has been reached stand the statements without module syntax, and behind it the others as they were. A
statement without an end of its own stays by itself as long as no other one goes on with it.

## Main definitions

* `Script.Node.StrippedTo` — a statement has become another one.
* `ReadUpTo` — what is read when the statements up to a position have lost their module syntax.
* `StaysApart` — statements stay by themselves.
* `StrippedFrom` — statements have become other ones, in order.

## Main statements

* `ReadUpTo.stay`, `ReadUpTo.leave` — one statement loses its module syntax, or goes.
* `ReadUpTo.run` — all statements do.
-/

namespace ModuleBuild

open Script Text

/-! ## Statements without module syntax -/

namespace Script

/-- What a statement does without its module syntax. A default value without a name gets one. -/
def ModuleItem.bare (defaultLocal : String) (span : Span) : ModuleItem → ModuleItem
  | .exportDefault _ _ name => .declaration span (some [name.getD defaultLocal])
  | .exportDeclaration _ _ names | .declaration _ names => .declaration span names
  | _ => .other span

/-- The text that a statement becomes. -/
def Node.bareText (defaultLocal : String) (source : List Char) (n : Node) : List Char :=
  match ModuleItem.ofNode n with
  | .exportDefault _ start none => variableText (sliceBytes start n.span.stop source) defaultLocal
  | .exportDefault _ start (some _) | .exportDeclaration _ start _ => sliceBytes start n.span.stop source
  | .importFrom .. | .exportList .. => []
  | _ => sliceBytes n.span.start n.span.stop source

/-- A statement has become another one: without its module syntax it does the same, and its text is the same.
A default value is held by a variable. -/
structure Node.StrippedTo (defaultLocal : String) (source text : List Char) (n m : Node) : Prop where
  item : ModuleItem.ofNode m = (ModuleItem.ofNode n).bare defaultLocal m.span
  text_eq : sliceBytes m.span.start m.span.stop text = n.bareText defaultLocal source
  binds : ∀ x, m.Binds x ↔ n.Binds x ∨ (n.hasDefaultValue = true ∧ x = defaultLocal)

/-- A default value without a name is one. -/
theorem Node.hasDefaultValue_iff {n : Node} : n.hasDefaultValue = true ↔
    ∃ span start, ModuleItem.ofNode n = .exportDefault span start none := by
  unfold Node.hasDefaultValue ModuleItem.ofNode
  split
  · simp
  · rename_i hdefault
    split
    case h_2 => exact (hdefault _ _ rfl).elim
    all_goals simp

theorem Node.hasDefaultValue_eq_false {n : Node}
    (h : ∀ span start, ModuleItem.ofNode n ≠ .exportDefault span start none) : n.hasDefaultValue = false := by
  rw [← Bool.not_eq_true, Node.hasDefaultValue_iff]
  rintro ⟨span, start, hitem⟩
  exact h span start hitem

end Script

/-- The text of statements and of what stands between them from a position on, without module syntax. -/
def bareFrom (defaultLocal : String) (source : List Char) : (cursor : Nat) → List Node → List Char
  | cursor, [] => dropBytes cursor source
  | cursor, n :: rest =>
    sliceBytes cursor n.span.start source ++ n.bareText defaultLocal source ++
      bareFrom defaultLocal source n.span.stop rest

/-! ## What is read -/

namespace Script

/-- A statement stands at a position in place of another one, without its module syntax. -/
structure Node.Replaces (defaultLocal : String) (source : List Char) (position : Nat) (n m : Node) : Prop where
  item : ModuleItem.ofNode m = (ModuleItem.ofNode n).bare defaultLocal
    ⟨position, position + byteLength (n.bareText defaultLocal source)⟩
  closed : n.hasDefaultValue = false → (m.Closed ↔ n.kept.Closed)
  binds : ∀ x, m.Binds x ↔ n.Binds x ∨ (n.hasDefaultValue = true ∧ x = defaultLocal)

end Script

/-- What is known of a declaration that loses its `export`. -/
theorem Script.Node.of_exported? {n : Node} {start : Nat} {names : List String}
    (h : n.exported? = some (start, names)) (defaultLocal : String) (source : List Char) :
    (ModuleItem.ofNode n).keptStart? = some start ∧ n.hasDefaultValue = false ∧
      n.bareText defaultLocal source = sliceBytes start n.span.stop source ∧
      ∀ span, (ModuleItem.ofNode n).bare defaultLocal span = .declaration span (some names) := by
  unfold Node.exported? at h
  unfold Node.bareText
  cases hitem : ModuleItem.ofNode n with
  | exportDefault span valueStart name =>
    cases name with
    | none => simp [hitem] at h
    | some name =>
      obtain ⟨rfl, rfl⟩ : valueStart = start ∧ [name] = names := by simpa [hitem] using h
      exact ⟨rfl, Node.hasDefaultValue_eq_false (by simp [hitem]), rfl, fun _ => rfl⟩
  | exportDeclaration span declarationStart own =>
    cases own with
    | none => simp [hitem] at h
    | some own =>
      obtain ⟨rfl, rfl⟩ : declarationStart = start ∧ own = names := by simpa [hitem] using h
      exact ⟨rfl, Node.hasDefaultValue_eq_false (by simp [hitem]), rfl, fun _ => rfl⟩
  | _ => simp [hitem] at h

/-- Up to a position the statements of a module have lost their module syntax: what is read are the
statements that they have become, and the other ones. -/
structure ReadUpTo (parse : String → Option Program) (source before : List Char) (cursor : Nat)
    (done nodes : List Node) : Prop where
  reads : ∃ q rest, parse (String.ofList (before ++ dropBytes cursor source)) = some q ∧
    q.body = done ++ rest ∧ List.Forall₂ (Node.MovedBy (moveTo cursor (byteLength before))) nodes rest
  bare : Bare done

section Reading

variable {parse : String → Option Program} {defaultLocal : String} {source before : List Char} {cursor : Nat}
  {done rest : List Node} {n : Node}

theorem byteLength_gap (before : List Char) (hcursor : OnBoundary source cursor)
    (hstart : OnBoundary source n.span.start) (hle : cursor ≤ n.span.start) :
    byteLength (before ++ sliceBytes cursor n.span.start source) =
      moveTo cursor (byteLength before) n.span.start := by
  rw [byteLength_append, byteLength_sliceBytes hcursor hstart hle, moveTo]

theorem bare_concat {m : Node} (hdone : Bare done) (hm : (ModuleItem.ofNode m).isModuleSyntax = false) :
    Bare (done ++ [m]) := by
  intro k hk
  rcases List.mem_append.1 hk with hk | hk
  · exact hdone k hk
  · exact List.mem_singleton.1 hk ▸ hm

/-- A statement without module syntax stays as it is. -/
theorem ReadUpTo.keep (h : ReadUpTo parse source before cursor done (n :: rest))
    (placed : PlacedFrom source cursor (n :: rest)) (hn : (ModuleItem.ofNode n).isModuleSyntax = false) :
    ∃ m, ReadUpTo parse source (before ++ sliceBytes cursor n.span.start source ++
        n.bareText defaultLocal source) n.span.stop (done ++ [m]) rest ∧
      n.Replaces defaultLocal source (byteLength (before ++ sliceBytes cursor n.span.start source)) m := by
  obtain ⟨⟨q, rest', hparse, hbody, hmoved⟩, hbare⟩ := h
  cases placed with
  | cons hcursor hle hplaced hbehind =>
  cases hmoved with
  | @cons _ m _ behind hm hmoved =>
  have hlt := hplaced.start_lt
  have htext : n.bareText defaultLocal source = sliceBytes n.span.start n.span.stop source := by
    unfold Node.bareText
    cases hitem : ModuleItem.ofNode n <;> simp_all [ModuleItem.isModuleSyntax]
  have hvalue : n.hasDefaultValue = false := by
    refine Node.hasDefaultValue_eq_false fun span start hitem => ?_
    rw [hitem] at hn
    cases hn
  have hsyntax : (ModuleItem.ofNode m).isModuleSyntax = false := hm.isModuleSyntax.trans hn
  have hgap := byteLength_gap before hcursor hplaced.start_boundary hle
  have hlength : byteLength (sliceBytes n.span.start n.span.stop source) = n.span.stop - n.span.start :=
    byteLength_sliceBytes hplaced.start_boundary hplaced.stop_boundary hlt.le
  have hsame : before ++ sliceBytes cursor n.span.start source ++
      sliceBytes n.span.start n.span.stop source ++ dropBytes n.span.stop source =
        before ++ dropBytes cursor source := by
    rw [List.append_assoc, sliceBytes_append_dropBytes hplaced.start_boundary hplaced.stop_boundary hlt.le,
      List.append_assoc, sliceBytes_append_dropBytes hcursor hplaced.start_boundary hle]
  refine ⟨m, ⟨⟨q, behind, ?_, by simp [hbody], ?_⟩, bare_concat hbare hsyntax⟩, ?_, ?_, ?_⟩
  · rw [htext, hsame, hparse]
  · refine hbehind.moved hmoved fun x hx => ?_
    rw [htext, byteLength_append, hgap, hlength]
    unfold moveTo
    omega
  · rw [htext, hgap, hlength, hm.item]
    have hstop : moveTo cursor (byteLength before) n.span.start + (n.span.stop - n.span.start) =
        moveTo cursor (byteLength before) n.span.stop := by
      unfold moveTo
      omega
    rw [hstop, ← ModuleItem.span_ofNode n]
    cases hitem : ModuleItem.ofNode n <;> simp_all [ModuleItem.isModuleSyntax] <;> rfl
  · intro _
    rw [← hm.closed, Node.kept_of_bare hsyntax]
  · intro x
    rw [hm.binds x, hvalue]
    simp

/-- A declaration loses its `export`. -/
theorem ReadUpTo.declare (laws : StatementLaws parse defaultLocal)
    (h : ReadUpTo parse source before cursor done (n :: rest)) (placed : PlacedFrom source cursor (n :: rest))
    {start : Nat} {names : List String} (hn : n.exported? = some (start, names)) :
    ∃ m, ReadUpTo parse source (before ++ sliceBytes cursor n.span.start source ++
        n.bareText defaultLocal source) n.span.stop (done ++ [m]) rest ∧
      n.Replaces defaultLocal source (byteLength (before ++ sliceBytes cursor n.span.start source)) m := by
  obtain ⟨⟨q, rest', hparse, hbody, hmoved⟩, hbare⟩ := h
  cases placed with
  | cons hcursor hle hplaced hbehind =>
  cases hmoved with
  | @cons _ n' _ behind hn' hmoved =>
  obtain ⟨hkept, hvalue, htext, hitem⟩ := n.of_exported? hn defaultLocal source
  obtain ⟨hfirst, hlast, hstart⟩ := hplaced.kept start hkept
  have hexported : n'.exported? = some (moveTo cursor (byteLength before) start, names) := by
    rw [hn'.exported?, hn]
    rfl
  have hgap := byteLength_gap before hcursor hplaced.start_boundary hle
  have hlength : byteLength (sliceBytes start n.span.stop source) = n.span.stop - start :=
    byteLength_sliceBytes hstart hplaced.stop_boundary hlast.le
  have hstop : n'.span.start + (n'.span.stop - moveTo cursor (byteLength before) start) =
      byteLength (before ++ sliceBytes cursor n.span.start source ++ n.bareText defaultLocal source) := by
    rw [htext, byteLength_append, hgap, hlength]
    simp only [hn'.span, moveTo]
    omega
  obtain ⟨q', m, behind', hread, hbody', hm, hclosed, hbinds, hbehind'⟩ :=
    laws.bare hparse hbody hbare (by simpa using hn'.placed hplaced hcursor hle) hexported
  rw [hn'.span, replaced_moved hcursor (by omega)] at hread
  rw [hstop] at hm hbehind'
  rw [hn'.span] at hm hbehind'
  refine ⟨m, ⟨⟨q', behind', ?_, by simp [hbody'], ?_⟩, bare_concat hbare (by rw [hm]; rfl)⟩, ?_, ?_, ?_⟩
  · rw [← hread, htext, List.append_nil, List.append_assoc _ _ (dropBytes _ _),
      sliceBytes_append_dropBytes hstart hplaced.stop_boundary hlast.le]
  · exact hbehind.moved_behind (by omega) hmoved hbehind'
  · rw [hm, hitem, byteLength_append, hgap]
  · exact fun _ => hclosed.trans hn'.closed
  · intro x
    rw [hbinds, hn'.binds, hvalue]
    simp

/-- A default value becomes the value of a variable. -/
theorem ReadUpTo.hold (laws : StatementLaws parse defaultLocal) (hvariable : IsVariable defaultLocal)
    (h : ReadUpTo parse source before cursor done (n :: rest)) (placed : PlacedFrom source cursor (n :: rest))
    {span : Span} {start : Nat} (hn : ModuleItem.ofNode n = .exportDefault span start none) :
    ∃ m, ReadUpTo parse source (before ++ sliceBytes cursor n.span.start source ++
        n.bareText defaultLocal source) n.span.stop (done ++ [m]) rest ∧
      n.Replaces defaultLocal source (byteLength (before ++ sliceBytes cursor n.span.start source)) m := by
  obtain ⟨⟨q, rest', hparse, hbody, hmoved⟩, hbare⟩ := h
  cases placed with
  | cons hcursor hle hplaced hbehind =>
  cases hmoved with
  | @cons _ n' _ behind hn' hmoved =>
  have hlt := hplaced.start_lt
  obtain ⟨hfirst, hlast, hstart⟩ := hplaced.kept start (by rw [hn]; rfl)
  have hvalue : n.hasDefaultValue = true := Node.hasDefaultValue_iff.2 ⟨span, start, hn⟩
  have htext : n.bareText defaultLocal source =
      variableText (sliceBytes start n.span.stop source) defaultLocal := by
    simp [Node.bareText, hn]
  have hitem := hn'.item
  rw [hn, ModuleItem.mapPositions] at hitem
  have hslice : sliceBytes (moveTo cursor (byteLength before) start) n'.span.stop
      (String.ofList (before ++ dropBytes cursor source)).toList = sliceBytes start n.span.stop source := by
    rw [hn'.span, String.toList_ofList, sliceBytes_moved hcursor (by omega)]
  have hgap := byteLength_gap before hcursor hplaced.start_boundary hle
  have hstop : n'.span.start + byteLength (n.bareText defaultLocal source) =
      byteLength (before ++ sliceBytes cursor n.span.start source ++ n.bareText defaultLocal source) := by
    rw [byteLength_append, hgap, hn'.span]
  obtain ⟨q', m, behind', hread, hbody', hm, hbinds, hbehind'⟩ :=
    laws.valued hparse hbody hbare (by simpa using hn'.placed hplaced hcursor hle) hitem hvariable
  rw [hslice, ← htext, hn'.span, replaced_moved hcursor (by omega)] at hread
  rw [hslice, ← htext, hstop, hn'.span] at hm hbehind'
  refine ⟨m, ⟨⟨q', behind', hread, by simp [hbody'], ?_⟩, bare_concat hbare (by rw [hm]; rfl)⟩, ?_, ?_, ?_⟩
  · exact hbehind.moved_behind (by omega) hmoved hbehind'
  · rw [hm, hn, byteLength_append, hgap]
    rfl
  · simp [hvalue]
  · intro x
    rw [hbinds, hn'.binds, hvalue]
    simp

/-- What stands first among some statements is the same after they are moved. -/
theorem continues_moved {position : Nat} (hcursor : OnBoundary source cursor)
    (placed : PlacedFrom source position rest) (hle : cursor ≤ position) {moved : List Node}
    (h : List.Forall₂ (Node.MovedBy (moveTo cursor (byteLength before))) rest moved) :
    Continues (before ++ dropBytes cursor source) moved = Continues source rest := by
  cases h with
  | nil => rfl
  | cons hfirst _ =>
    cases placed with
    | cons _ hstart =>
      rw [Continues, Continues, hfirst.span, dropBytes_moved hcursor (hle.trans hstart)]

/-- An import or an export list goes. -/
theorem ReadUpTo.leave (laws : StatementLaws parse defaultLocal)
    (h : ReadUpTo parse source before cursor done (n :: rest)) (placed : PlacedFrom source cursor (n :: rest))
    (hn : n.stays = false) (hends : ∀ last ∈ done.getLast?,
      Ends (before ++ dropBytes cursor source) last ∨ Continues source rest = false) :
    ReadUpTo parse source (before ++ sliceBytes cursor n.span.start source) n.span.stop done rest := by
  obtain ⟨⟨q, rest', hparse, hbody, hmoved⟩, hbare⟩ := h
  cases placed with
  | cons hcursor hle hplaced hbehind =>
  cases hmoved with
  | @cons _ n' _ behind hn' hmoved =>
  have hlt := hplaced.start_lt
  have hgap := byteLength_gap before hcursor hplaced.start_boundary hle
  have hcontinues : Continues (before ++ dropBytes cursor source) behind = Continues source rest :=
    continues_moved hcursor hbehind (by omega) hmoved
  obtain ⟨q', behind', hread, hbody', hbehind'⟩ :=
    laws.removed hparse hbody hbare (by simpa using hn'.placed hplaced hcursor hle) (hn'.stays.trans hn)
      (by simpa [hcontinues] using hends)
  rw [hn'.span, replaced_moved hcursor (by omega), List.append_nil] at hread
  rw [hn'.span, ← hgap] at hbehind'
  exact ⟨⟨q', behind', hread, hbody', hbehind.moved_behind (by omega) hmoved hbehind'⟩, hbare⟩

/-- How a statement that stays loses its module syntax. -/
theorem ReadUpTo.stay (laws : StatementLaws parse defaultLocal) (hvariable : IsVariable defaultLocal)
    (h : ReadUpTo parse source before cursor done (n :: rest)) (placed : PlacedFrom source cursor (n :: rest))
    {id : String} {record : ModuleRecord}
    (hrecord : ModuleRecord.ofItem id source defaultLocal (.ofNode n) = .ok record) (hn : n.stays = true) :
    ∃ m, ReadUpTo parse source (before ++ sliceBytes cursor n.span.start source ++
        n.bareText defaultLocal source) n.span.stop (done ++ [m]) rest ∧
      n.Replaces defaultLocal source (byteLength (before ++ sliceBytes cursor n.span.start source)) m := by
  cases hitem : ModuleItem.ofNode n with
  | exportDefault span start name =>
    cases name with
    | none => exact h.hold laws hvariable placed hitem
    | some name => exact h.declare laws placed (by rw [Node.exported?, hitem])
  | exportDeclaration span start names =>
    cases names with
    | none =>
      rw [hitem] at hrecord
      cases hrecord
    | some names => exact h.declare laws placed (by rw [Node.exported?, hitem])
  | exportAll =>
    rw [hitem] at hrecord
    cases hrecord
  | importFrom | exportList => simp [Node.stays, hitem] at hn
  | declaration | other => exact h.keep placed (by rw [hitem]; rfl)

end Reading

/-! ## Statements that stay by themselves -/

/-- A statement that has lost its module syntax ends in its text. -/
def Script.Node.EndsBare (defaultLocal : String) (source : List Char) (n : Node) : Prop :=
  (n.hasDefaultValue = false ∧ n.kept.Closed) ∨
    ModuleRecord.endsWithSemicolon (n.bareText defaultLocal source) = true

/-- No statement goes on behind what is left out after it. Whether the last statement before these ends in its
text is given. -/
def StaysApart (defaultLocal : String) (source : List Char) : (ended : Prop) → List Node → Prop
  | _, [] => True
  | ended, n :: rest =>
    if n.stays then StaysApart defaultLocal source (n.EndsBare defaultLocal source) rest
    else (ended ∨ Continues source rest = false) ∧ StaysApart defaultLocal source ended rest

/-- The statements that stay have become other ones, which stand in order behind a position. -/
inductive StrippedFrom (defaultLocal : String) (source text : List Char) : Nat → List Node → List Node → Prop
  | nil {position : Nat} : StrippedFrom defaultLocal source text position [] []
  | leave {position : Nat} {n : Node} {rest results : List Node} (leaves : n.stays = false)
    (behind : StrippedFrom defaultLocal source text position rest results) :
    StrippedFrom defaultLocal source text position (n :: rest) results
  | stay {position : Nat} {n m : Node} {rest results : List Node} (stays : n.stays = true)
    (le : position ≤ m.span.start) (lt : m.span.start ≤ m.span.stop)
    (stripped : n.StrippedTo defaultLocal source text m)
    (behind : StrippedFrom defaultLocal source text m.span.stop rest results) :
    StrippedFrom defaultLocal source text position (n :: rest) (m :: results)

namespace StrippedFrom

variable {defaultLocal : String} {source text : List Char} {position : Nat} {nodes results : List Node}

theorem mono {earlier : Nat} (h : StrippedFrom defaultLocal source text position nodes results)
    (hle : earlier ≤ position) : StrippedFrom defaultLocal source text earlier nodes results := by
  induction h with
  | nil => exact .nil
  | leave leaves _ ih => exact .leave leaves (ih hle)
  | stay stays le lt stripped behind => exact .stay stays (hle.trans le) lt stripped behind

theorem forall₂ (h : StrippedFrom defaultLocal source text position nodes results) :
    List.Forall₂ (Node.StrippedTo defaultLocal source text) (nodes.filter Node.stays) results := by
  induction h with
  | nil => exact .nil
  | leave leaves _ ih => rwa [List.filter_cons_of_neg (by simp [leaves])]
  | stay stays _ _ stripped _ ih =>
    rw [List.filter_cons_of_pos stays]
    exact .cons stripped ih

theorem le_start (h : StrippedFrom defaultLocal source text position nodes results) :
    ∀ m ∈ results, position ≤ m.span.start := by
  induction h with
  | nil => simp
  | leave _ _ ih => exact ih
  | stay _ le lt _ _ ih =>
    rw [List.forall_mem_cons]
    exact ⟨le, fun m hm => (le.trans lt).trans (ih m hm)⟩

theorem inOrder (h : StrippedFrom defaultLocal source text position nodes results) :
    results.Pairwise fun a b => a.span.stop ≤ b.span.start := by
  induction h with
  | nil => exact .nil
  | leave _ _ ih => exact ih
  | stay _ _ _ _ behind ih => exact .cons behind.le_start ih

end StrippedFrom

section Run

variable {parse : String → Option Program} {id defaultLocal : String} {source before : List Char} {cursor : Nat}
  {nodes done : List Node} {n m : Node}

theorem Script.ModuleItem.span_bare (defaultLocal : String) (span : Span) (item : ModuleItem) :
    (item.bare defaultLocal span).span = span := by
  cases item <;> rfl

theorem Script.Node.Replaces.span {position : Nat} (h : n.Replaces defaultLocal source position m) :
    m.span = ⟨position, position + byteLength (n.bareText defaultLocal source)⟩ := by
  rw [← ModuleItem.span_ofNode m, h.item, ModuleItem.span_bare]

/-- The text of a statement that stands in place of another one. -/
theorem Script.Node.Replaces.text_eq (h : n.Replaces defaultLocal source (byteLength before) m)
    (behind : List Char) : sliceBytes m.span.start m.span.stop
      (before ++ n.bareText defaultLocal source ++ behind) = n.bareText defaultLocal source := by
  rw [h.span]
  exact sliceBytes_middle _ _ _

theorem Script.Node.Replaces.ends (h : n.Replaces defaultLocal source (byteLength before) m)
    (hends : n.EndsBare defaultLocal source) (behind : List Char) :
    Ends (before ++ n.bareText defaultLocal source ++ behind) m := by
  refine hends.imp (fun hclosed => (h.closed hclosed.1).2 hclosed.2) fun hsemicolon => ?_
  rwa [h.text_eq]

/-- What is read when all statements have lost their module syntax. -/
theorem ReadUpTo.run (laws : StatementLaws parse defaultLocal) (hvariable : IsVariable defaultLocal)
    (placed : PlacedFrom source cursor nodes)
    (hrecords : ∀ n ∈ nodes, ∃ record, ModuleRecord.ofItem id source defaultLocal (.ofNode n) = .ok record)
    {ended : Prop} (happart : StaysApart defaultLocal source ended nodes)
    (h : ReadUpTo parse source before cursor done nodes)
    (hended : ended → ∀ last ∈ done.getLast?, ∀ behind, Ends (before ++ behind) last) :
    let text := before ++ bareFrom defaultLocal source cursor nodes
    ∃ q results, parse (String.ofList text) = some q ∧ q.body = done ++ results ∧
      StrippedFrom defaultLocal source text (byteLength before) nodes results := by
  induction placed generalizing before done ended with
  | nil =>
    obtain ⟨q, rest, hparse, hbody, hmoved⟩ := h.reads
    cases hmoved
    exact ⟨q, [], hparse, hbody, .nil⟩
  | @cons cursor n rest hcursor hle hn hbehind ih =>
    have hplaced : PlacedFrom source cursor (n :: rest) := .cons hcursor hle hn hbehind
    have hrest := fun m hm => hrecords m (List.mem_cons_of_mem n hm)
    rw [StaysApart] at happart
    cases hstays : n.stays with
    | true =>
      obtain ⟨record, hrecord⟩ := hrecords n List.mem_cons_self
      obtain ⟨m, hnext, hreplaces⟩ := h.stay laws hvariable hplaced hrecord hstays
      rw [if_pos hstays] at happart
      obtain ⟨q, results, hparse, hbody, hstripped⟩ := ih hrest happart hnext
        (by simpa using hreplaces.ends)
      have htext : before ++ sliceBytes cursor n.span.start source ++ n.bareText defaultLocal source ++
            bareFrom defaultLocal source n.span.stop rest =
          before ++ bareFrom defaultLocal source cursor (n :: rest) := by
        simp only [bareFrom, List.append_assoc]
      have hspan := hreplaces.span
      have hstop : byteLength (before ++ sliceBytes cursor n.span.start source ++
          n.bareText defaultLocal source) = m.span.stop := by
        rw [byteLength_append, hspan]
      have hstart : byteLength before ≤ m.span.start := by
        rw [hspan, byteLength_append]
        exact Nat.le_add_right _ _
      have hlt : m.span.start ≤ m.span.stop := by
        rw [hspan]
        exact Nat.le_add_right _ _
      have hmade : n.StrippedTo defaultLocal source
          (before ++ bareFrom defaultLocal source cursor (n :: rest)) m :=
        ⟨hspan ▸ hreplaces.item, htext ▸ hreplaces.text_eq _, hreplaces.binds⟩
      rw [htext, hstop] at hstripped
      rw [htext] at hparse
      exact ⟨q, m :: results, hparse, by simp [hbody], .stay hstays hstart hlt hmade hstripped⟩
    | false =>
      rw [if_neg (by simp [hstays])] at happart
      have hnext := h.leave laws hplaced hstays fun last hlast =>
        happart.1.imp_left fun hends => hended hends last hlast _
      obtain ⟨q, results, hparse, hbody, hstripped⟩ := ih hrest happart.2 hnext
        fun hends last hlast behind => by
          rw [List.append_assoc]
          exact hended hends last hlast _
      have hnone : n.bareText defaultLocal source = [] := by
        unfold Node.stays at hstays
        unfold Node.bareText
        cases hitem : ModuleItem.ofNode n <;> simp_all
      have htext : before ++ sliceBytes cursor n.span.start source ++
            bareFrom defaultLocal source n.span.stop rest =
          before ++ bareFrom defaultLocal source cursor (n :: rest) := by
        simp only [bareFrom, hnone, List.append_nil, List.append_assoc]
      rw [htext] at hstripped hparse
      refine ⟨q, results, hparse, hbody, .leave hstays (hstripped.mono ?_)⟩
      rw [byteLength_append]
      exact Nat.le_add_right _ _

end Run

end ModuleBuild
