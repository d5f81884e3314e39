import Mathlib
import ModuleBuild.Proofs.Chunk.Reader
import ModuleBuild.Proofs.Linking.ImportOrder

/-!
# Statements without module syntax

A module becomes statements without module syntax one by one: a declaration loses its `export`, a default
value becomes the value of a variable, and imports and export lists go. What a parser says of such a text is
known from the grammar. The statements before stay what they are, and those behind it are the same in
another place, unless a statement without an end of its own goes on in what then follows it.

## Main definitions

* `Node.Closed` — statements that need no semicolon.
* `Node.Binds` — the names that a statement binds on the top level, however deep it is nested.
* `Node.MovedBy` — the same statement in another place.
* `StatementLaws` — what a parser says of a text with one statement changed.

## Main statements

* `sliceBytes_moved`, `onBoundary_moved`, `replaced_moved` — texts behind a changed part.
* `Node.MovedBy.behind`, `Node.MovedBy.placed` — statements behind a changed part.
-/

namespace ModuleBuild

open Script Text

/-! ## Texts behind a changed part -/

/-- The new position of what stands behind a part of a text that ended at one position, and ends at another
one. -/
def moveTo (old new : Nat) (position : Nat) : Nat :=
  new + (position - old)

/-- A position that is moved twice. -/
theorem moveTo_moveTo {cursor a b c position : Nat} (hle : cursor ≤ b) (hposition : b ≤ position) :
    moveTo (moveTo cursor a b) c (moveTo cursor a position) = moveTo b c position := by
  unfold moveTo
  omega

theorem moveTo_add {a b s : Nat} (h : a ≤ s) (k : Nat) : moveTo a b (s + k) = moveTo a b s + k := by
  unfold moveTo
  omega

/-- A text with a part replaced. -/
def replaced (text : String) (start stop : Nat) (new : List Char) : String :=
  String.ofList (takeBytes start text.toList ++ new ++ dropBytes stop text.toList)

section Moved

variable {cs before : List Char} {cursor a b : Nat}

theorem dropBytes_sub (hcursor : OnBoundary cs cursor) (hle : cursor ≤ a) :
    dropBytes (a - cursor) (dropBytes cursor cs) = dropBytes a cs := by
  obtain ⟨xs, ys, rfl, rfl⟩ := hcursor.exists_append
  have hrest := dropBytes_append xs ys 0
  rw [Nat.add_zero, dropBytes_zero] at hrest
  have hsplit : a = byteLength xs + (a - byteLength xs) := by omega
  rw [hrest]
  conv_rhs => rw [hsplit, dropBytes_append]

theorem dropBytes_moved (hcursor : OnBoundary cs cursor) (hle : cursor ≤ a) :
    dropBytes (moveTo cursor (byteLength before) a) (before ++ dropBytes cursor cs) = dropBytes a cs := by
  rw [moveTo, dropBytes_append, dropBytes_sub hcursor hle]

theorem takeBytes_moved : takeBytes (moveTo cursor (byteLength before) a) (before ++ dropBytes cursor cs) =
    before ++ sliceBytes cursor a cs := by
  rw [moveTo, takeBytes_append, sliceBytes]

theorem sliceBytes_moved (hcursor : OnBoundary cs cursor) (hle : cursor ≤ a) :
    sliceBytes (moveTo cursor (byteLength before) a) (moveTo cursor (byteLength before) b)
      (before ++ dropBytes cursor cs) = sliceBytes a b cs := by
  have hlength : moveTo cursor (byteLength before) b - moveTo cursor (byteLength before) a = b - a := by
    unfold moveTo
    omega
  rw [sliceBytes, dropBytes_moved hcursor hle, hlength, sliceBytes]

theorem onBoundary_moved (hcursor : OnBoundary cs cursor) (ha : OnBoundary cs a) (hle : cursor ≤ a) :
    OnBoundary (before ++ dropBytes cursor cs) (moveTo cursor (byteLength before) a) := by
  rw [OnBoundary, takeBytes_moved, byteLength_append, byteLength_sliceBytes hcursor ha hle, moveTo]

/-- A part behind a changed one is replaced. -/
theorem replaced_moved (hcursor : OnBoundary cs cursor) (hle : cursor ≤ b) (new : List Char) :
    replaced (String.ofList (before ++ dropBytes cursor cs)) (moveTo cursor (byteLength before) a)
      (moveTo cursor (byteLength before) b) new =
      String.ofList (before ++ sliceBytes cursor a cs ++ new ++ dropBytes b cs) := by
  rw [replaced, String.toList_ofList, takeBytes_moved, dropBytes_moved hcursor hle]

/-- A part of a text is between what stands before it and behind it. -/
theorem sliceBytes_middle (xs ys zs : List Char) :
    sliceBytes (byteLength xs) (byteLength xs + byteLength ys) (xs ++ ys ++ zs) = ys := by
  have hdrop := dropBytes_append xs (ys ++ zs) 0
  have htake := takeBytes_append ys zs 0
  rw [Nat.add_zero, dropBytes_zero] at hdrop
  rw [Nat.add_zero, takeBytes_zero, List.append_nil] at htake
  rw [sliceBytes, List.append_assoc, hdrop, Nat.add_sub_cancel_left, htake]

end Moved

/-! ## Statements -/

namespace Script

/-- A statement that needs no semicolon: a block, or one that ends with a statement of this kind. -/
inductive Node.Closed : Node → Prop
  | decl (declaration : Node) : Closed (.decl declaration)
  | block (span : Span) (statements : List Node) : Closed (.block span statements)
  | switch (span : Span) (value : Node) (cases : List Node) : Closed (.switch span value cases)
  | tryBlock (span : Span) (guarded : Node) (parameter handler finalizer : Option Node) :
    Closed (.tryBlock span guarded parameter handler finalizer)
  | empty (span : Span) : Closed (.empty span)
  | ite (span : Span) (test : Node) {yes : Node} (inner : Closed yes) : Closed (.ite span test yes none)
  | iteElse (span : Span) (test yes : Node) {no : Node} (inner : Closed no) :
    Closed (.ite span test yes (some no))
  | forLoop (span : Span) (start test update : Option Node) {body : Node} (inner : Closed body) :
    Closed (.forLoop span start test update body)
  | forIn (span : Span) (head object : Node) {body : Node} (inner : Closed body) :
    Closed (.forIn span head object body)
  | forOf (span : Span) (isAwait : Bool) (head values : Node) {body : Node} (inner : Closed body) :
    Closed (.forOf span isAwait head values body)
  | whileLoop (span : Span) (test : Node) {body : Node} (inner : Closed body) :
    Closed (.whileLoop span test body)
  | labeled (span : Span) (label : String) {body : Node} (inner : Closed body) :
    Closed (.labeled span label body)

/-- A statement binds a name on the top level. -/
def Node.Binds (n : Node) (x : String) : Prop :=
  ∃ fuel, x ∈ n.topNames fuel

/-- What an export keeps: its declaration, or its value. -/
def Node.kept : Node → Node
  | .exportDecl _ declaration => declaration
  | .exportDefault _ value => value
  | n => n

/-- Where a declaration with an `export` before it starts, and the names that it declares. -/
def Node.exported? (n : Node) : Option (Nat × List String) :=
  match ModuleItem.ofNode n with
  | .exportDefault _ start (some name) => some (start, [name])
  | .exportDeclaration _ start (some names) => some (start, names)
  | _ => none

/-- A statement at other positions. -/
def ModuleItem.mapPositions (f : Nat → Nat) : ModuleItem → ModuleItem
  | .importFrom span source bindings => .importFrom ⟨f span.start, f span.stop⟩ source bindings
  | .exportDefault span start name => .exportDefault ⟨f span.start, f span.stop⟩ (f start) name
  | .exportDeclaration span start names => .exportDeclaration ⟨f span.start, f span.stop⟩ (f start) names
  | .exportList span names source => .exportList ⟨f span.start, f span.stop⟩ names source
  | .exportAll span exported source => .exportAll ⟨f span.start, f span.stop⟩ exported source
  | .declaration span names => .declaration ⟨f span.start, f span.stop⟩ names
  | .other span => .other ⟨f span.start, f span.stop⟩

/-- The same statement in another place. -/
structure Node.MovedBy (f : Nat → Nat) (n m : Node) : Prop where
  item : ModuleItem.ofNode m = (ModuleItem.ofNode n).mapPositions f
  closed : m.kept.Closed ↔ n.kept.Closed
  binds : ∀ x, m.Binds x ↔ n.Binds x

/-- Statements without module syntax. -/
def Bare (nodes : List Node) : Prop :=
  ∀ n ∈ nodes, (ModuleItem.ofNode n).isModuleSyntax = false

variable {f g : Nat → Nat} {n m k : Node}

theorem ModuleItem.mapPositions_span (f : Nat → Nat) (item : ModuleItem) :
    (item.mapPositions f).span = ⟨f item.span.start, f item.span.stop⟩ := by
  cases item <;> rfl

theorem ModuleItem.mapPositions_keptStart? (f : Nat → Nat) (item : ModuleItem) :
    (item.mapPositions f).keptStart? = item.keptStart?.map f := by
  cases item <;> rfl

theorem ModuleItem.mapPositions_isModuleSyntax (f : Nat → Nat) (item : ModuleItem) :
    (item.mapPositions f).isModuleSyntax = item.isModuleSyntax := by
  cases item <;> rfl

theorem ModuleItem.mapPositions_mapPositions (f g : Nat → Nat) (item : ModuleItem) :
    (item.mapPositions f).mapPositions g = item.mapPositions (g ∘ f) := by
  cases item <;> rfl

theorem ModuleItem.mapPositions_congr {item : ModuleItem} (hstart : f item.span.start = g item.span.start)
    (hstop : f item.span.stop = g item.span.stop) (hkept : ∀ start ∈ item.keptStart?, f start = g start) :
    item.mapPositions f = item.mapPositions g := by
  cases item with
  | exportDefault itemSpan start name =>
    have := hkept start rfl
    simp_all [mapPositions, ModuleItem.span]
  | exportDeclaration itemSpan start names =>
    have := hkept start rfl
    simp_all [mapPositions, ModuleItem.span]
  | _ => simp_all [mapPositions, ModuleItem.span]

namespace Node.MovedBy

theorem span (h : MovedBy f n m) : m.span = ⟨f n.span.start, f n.span.stop⟩ := by
  rw [← ModuleItem.span_ofNode m, h.item, ModuleItem.mapPositions_span, ModuleItem.span_ofNode]

theorem keptStart? (h : MovedBy f n m) :
    (ModuleItem.ofNode m).keptStart? = (ModuleItem.ofNode n).keptStart?.map f := by
  rw [h.item, ModuleItem.mapPositions_keptStart?]

theorem isModuleSyntax (h : MovedBy f n m) :
    (ModuleItem.ofNode m).isModuleSyntax = (ModuleItem.ofNode n).isModuleSyntax := by
  rw [h.item, ModuleItem.mapPositions_isModuleSyntax]

/-- A statement that is not moved. -/
theorem refl (hf : ∀ x, f x = x) (n : Node) : MovedBy f n n where
  item := by cases ModuleItem.ofNode n <;> simp [ModuleItem.mapPositions, hf]
  closed := .rfl
  binds _ := .rfl

/-- A statement that is moved twice. -/
theorem trans (hn : MovedBy f n m) (hm : MovedBy g m k) : MovedBy (g ∘ f) n k where
  item := by rw [hm.item, hn.item, ModuleItem.mapPositions_mapPositions]
  closed := hm.closed.trans hn.closed
  binds x := (hm.binds x).trans (hn.binds x)

/-- Only the positions behind the changed part matter. -/
theorem behind {source : List Char} {position : Nat} (h : MovedBy f n m) (hn : n.Placed source)
    (hle : position ≤ n.span.start) (heq : ∀ x, position ≤ x → f x = g x) : MovedBy g n m where
  item := by
    have hlt := hn.start_lt
    rw [h.item]
    refine ModuleItem.mapPositions_congr ?_ ?_ fun start hstart => heq start ?_
    · rw [ModuleItem.span_ofNode]
      exact heq _ hle
    · rw [ModuleItem.span_ofNode]
      exact heq _ (by omega)
    · have := (hn.kept start hstart).1
      omega
  closed := h.closed
  binds := h.binds

/-- A statement that can be exported without a new name stays one. -/
theorem exported? (h : MovedBy f n m) :
    m.exported? = n.exported?.map fun (start, names) => (f start, names) := by
  unfold Node.exported?
  rw [h.item]
  cases ModuleItem.ofNode n with
  | exportDefault span start name => cases name <;> rfl
  | exportDeclaration span start names => cases names <;> rfl
  | _ => rfl

theorem stays (h : MovedBy f n m) : m.stays = n.stays := by
  unfold Node.stays
  rw [h.item]
  cases ModuleItem.ofNode n <;> rfl

/-- A statement behind a changed part is placed as it was. -/
theorem placed {cs before : List Char} {cursor : Nat} (h : MovedBy (moveTo cursor (byteLength before)) n m)
    (hn : n.Placed cs) (hcursor : OnBoundary cs cursor) (hle : cursor ≤ n.span.start) :
    m.Placed (before ++ dropBytes cursor cs) := by
  have hlt := hn.start_lt
  have hspan := h.span
  refine ⟨?_, ?_, ?_, ?_⟩
  · simp only [hspan, moveTo]
    omega
  · rw [hspan]
    exact onBoundary_moved hcursor hn.start_boundary hle
  · rw [hspan]
    exact onBoundary_moved hcursor hn.stop_boundary (by omega)
  · intro start hstart
    rw [h.keptStart?] at hstart
    obtain ⟨old, hold, rfl⟩ := Option.map_eq_some_iff.1 hstart
    obtain ⟨hfirst, hlast, hboundary⟩ := hn.kept old hold
    refine ⟨?_, ?_, onBoundary_moved hcursor hboundary (by omega)⟩
    · simp only [hspan, moveTo]
      omega
    · simp only [hspan, moveTo]
      omega

end Node.MovedBy

/-- Statements that are moved twice. -/
theorem forall₂_movedBy_trans {nodes moved again : List Node} (hnodes : List.Forall₂ (Node.MovedBy f) nodes moved)
    (hmoved : List.Forall₂ (Node.MovedBy g) moved again) :
    List.Forall₂ (Node.MovedBy (g ∘ f)) nodes again := by
  induction hnodes generalizing again with
  | nil =>
    cases hmoved
    exact .nil
  | cons hn _ ih =>
    cases hmoved with
    | cons hm hrest => exact .cons (hn.trans hm) (ih hrest)

/-- Where statements are moved depends on the positions behind the changed part only. -/
theorem PlacedFrom.moved {source : List Char} {cursor : Nat} {nodes moved : List Node}
    (placed : PlacedFrom source cursor nodes) (h : List.Forall₂ (Node.MovedBy f) nodes moved)
    (heq : ∀ x, cursor ≤ x → f x = g x) : List.Forall₂ (Node.MovedBy g) nodes moved := by
  induction placed generalizing moved with
  | nil =>
    cases h
    exact .nil
  | @cons cursor n rest _ le hn _ ih =>
    have hlt := hn.start_lt
    cases h with
    | cons hfirst hrest => exact .cons (hfirst.behind hn le heq) (ih hrest fun x hx => heq x (by omega))

/-- Statements behind a changed part are moved once more when what stands before them is changed. -/
theorem PlacedFrom.moved_behind {source : List Char} {cursor stop a b : Nat} {nodes moved again : List Node}
    (placed : PlacedFrom source stop nodes) (hle : cursor ≤ stop)
    (hnodes : List.Forall₂ (Node.MovedBy (moveTo cursor a)) nodes moved)
    (hmoved : List.Forall₂ (Node.MovedBy (moveTo (moveTo cursor a stop) b)) moved again) :
    List.Forall₂ (Node.MovedBy (moveTo stop b)) nodes again :=
  placed.moved (forall₂_movedBy_trans hnodes hmoved) fun _ hx => moveTo_moveTo hle hx

/-- A statement without module syntax is kept as a whole. -/
theorem Node.kept_of_bare (h : (ModuleItem.ofNode n).isModuleSyntax = false) : n.kept = n := by
  unfold Node.kept
  split
  · cases h
  · cases h
  · rfl

end Script

/-! ## Parsers -/

/-- The characters that go on with a statement which does not end on the line before. A semicolon ends it,
and is no statement of its own then. -/
def continuing : List Char :=
  "([`+-/;".toList

/-- The first of some statements starts with such a character. -/
def Continues (source : List Char) : List Node → Bool
  | [] => false
  | next :: _ => (dropBytes next.span.start source).head?.any continuing.contains

/-- A statement ends in its text, wherever it stands. -/
def Ends (source : List Char) (n : Node) : Prop :=
  n.Closed ∨ ModuleRecord.endsWithSemicolon (sliceBytes n.span.start n.span.stop source) = true

/-- A variable that holds a value, with a semicolon behind the value if it has none. -/
def variableText (value : List Char) (name : String) : List Char :=
  ("var " ++ name ++ " = ").toList ++ value ++
    if ModuleRecord.endsWithSemicolon value then [] else [';']

/-- What a parser of modules says of a text in which a statement behind others without module syntax is
changed. A default value is held by a variable of the given name. -/
structure StatementLaws (parse : String → Option Program) (name : String) : Prop where
  /-- Without its `export` a declaration is a declaration. -/
  bare : ∀ {text : String} {p : Program} {before behind : List Node} {n : Node} {start : Nat}
    {names : List String}, parse text = some p → p.body = before ++ n :: behind → Bare before →
    n.Placed text.toList → n.exported? = some (start, names) →
    let stop := n.span.start + (n.span.stop - start)
    ∃ q m behind', parse (replaced text n.span.start start []) = some q ∧ q.body = before ++ m :: behind' ∧
      ModuleItem.ofNode m = .declaration ⟨n.span.start, stop⟩ (some names) ∧
      (m.Closed ↔ n.kept.Closed) ∧ (∀ x, m.Binds x ↔ n.Binds x) ∧
      List.Forall₂ (Node.MovedBy (moveTo n.span.stop stop)) behind behind'
  /-- A default value may be the value of a variable. -/
  valued : ∀ {text : String} {p : Program} {before behind : List Node} {n : Node} {span : Span} {start : Nat},
    parse text = some p → p.body = before ++ n :: behind → Bare before → n.Placed text.toList →
    ModuleItem.ofNode n = .exportDefault span start none → IsVariable name →
    let new := variableText (sliceBytes start n.span.stop text.toList) name
    ∃ q m behind', parse (replaced text n.span.start n.span.stop new) = some q ∧
      q.body = before ++ m :: behind' ∧
      ModuleItem.ofNode m = .declaration ⟨n.span.start, n.span.start + byteLength new⟩ (some [name]) ∧
      (∀ x, m.Binds x ↔ n.Binds x ∨ x = name) ∧
      List.Forall₂ (Node.MovedBy (moveTo n.span.stop (n.span.start + byteLength new))) behind behind'
  /-- An import or an export list may be left out, unless what stands behind it goes on with the statement
  before it. -/
  removed : ∀ {text : String} {p : Program} {before behind : List Node} {n : Node},
    parse text = some p → p.body = before ++ n :: behind → Bare before → n.Placed text.toList →
    n.stays = false → (∀ last ∈ before.getLast?, Ends text.toList last ∨ Continues text.toList behind = false) →
    ∃ q behind', parse (replaced text n.span.start n.span.stop []) = some q ∧ q.body = before ++ behind' ∧
      List.Forall₂ (Node.MovedBy (moveTo n.span.stop n.span.start)) behind behind'
  /-- A value is not blank. -/
  solid : ∀ {text : String} {p : Program} {n : Node} {span : Span} {start : Nat},
    parse text = some p → n ∈ p.body → ModuleItem.ofNode n = .exportDefault span start none →
    (sliceBytes start n.span.stop text.toList).any (!isBlank ·) = true

end ModuleBuild
