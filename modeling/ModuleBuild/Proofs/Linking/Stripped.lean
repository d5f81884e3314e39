import Mathlib
import ModuleBuild.Proofs.Linking.Reading

/-!
# Modules without module syntax

A module loses its module syntax when its edits are made and its imports are left out. All its statements are
still there and in order, an export as its declaration, and a default value as the value of a variable. What
is read in the text are these statements, each by itself, and no others, unless two of them have become one:
the semicolon behind a default value is lost where an import or an export follows directly, and a statement
without an end of its own goes on behind an import or an export list that is left out.

## Main definitions

* `strippedText` — the text of a module without its module syntax.
* `LosesSemicolon` — the semicolon behind a default value is not written.

## Main statements

* `strippedText_eq` — the text is made of the statements of the module.
* `strippedText_reads` — what is read in the text.
-/

namespace ModuleBuild

open Script Text

/-! ## Texts without module syntax -/

/-- The edit that leaves out an import. -/
def ImportRecord.removal (i : ImportRecord) : Edit :=
  ⟨i.span.start, i.span.stop, ""⟩

/-- The text of a module with its edits made, and without its imports. -/
def strippedText (code : String) (record : ModuleRecord) : String :=
  applyEdits code (record.edits ++ record.imports.map (·.removal))

/-- A module of which no import is linked. -/
def strippedPart (id code defaultLocal : String) (record : ModuleRecord) : LinkedPart where
  id
  source := code
  defaultLocal
  record
  links := record.imports.map (⟨·, .outside, []⟩)

theorem code_strippedPart (id code defaultLocal : String) (record : ModuleRecord) :
    (strippedPart id code defaultLocal record).code = strippedText code record := by
  have hearly : (strippedPart id code defaultLocal record).early =
      (strippedPart id code defaultLocal record).links := by
    refine List.filter_eq_self.2 fun link hlink => ?_
    obtain ⟨i, -, rfl⟩ := List.mem_map.1 hlink
    rfl
  have hlate : (strippedPart id code defaultLocal record).late = [] := by
    refine List.filter_eq_nil_iff.2 fun link hlink => ?_
    obtain ⟨i, -, rfl⟩ := List.mem_map.1 hlink
    exact Bool.false_ne_true
  rw [LinkedPart.code, LinkedPart.allEdits, LinkedPart.edits, hearly, hlate, List.map_nil, List.append_nil]
  simp only [strippedPart, List.map_map]
  rfl

/-- The semicolon behind a default value is not written: module syntax follows directly. -/
def LosesSemicolon (source : List Char) : List Node → Prop
  | [] => False
  | n :: rest =>
    (n.hasDefaultValue = true ∧ ModuleRecord.endsWithSemicolon (takeBytes n.span.stop source) = false ∧
      startsWithModuleSyntax n.span.stop rest = true) ∨ LosesSemicolon source rest

namespace ModuleRecord

/-- What a text ends with is told by a part of it at its end that is not blank. -/
theorem endsWithSemicolon_append {xs ys : List Char} (h : ys.any (!isBlank ·) = true) :
    endsWithSemicolon (xs ++ ys) = endsWithSemicolon ys := by
  obtain ⟨c, hc, hsolid⟩ := List.any_eq_true.1 h
  have hne : ys.reverse.dropWhile isBlank ≠ [] := by
    intro hnil
    have hblank := List.dropWhile_eq_nil_iff.1 hnil c (List.mem_reverse.2 hc)
    simp [hblank] at hsolid
  unfold endsWithSemicolon
  rw [List.reverse_append, List.dropWhile_append, if_neg (by simpa using hne), List.head?_append_of_ne_nil _ hne]

end ModuleRecord

/-! ## Texts of parts -/

/-- The values of the default exports among some statements are not blank. -/
def Solid (source : List Char) (nodes : List Node) : Prop :=
  ∀ n ∈ nodes, ∀ span start, ModuleItem.ofNode n = .exportDefault span start none →
    (sliceBytes start n.span.stop source).any (!isBlank ·) = true

section Parts

variable {id code defaultLocal : String} {record : ModuleRecord} {n : Node}

/-- Nothing stands for an import that is left out. -/
theorem chars_piece_of_import (h : ((strippedPart id code defaultLocal record).linkAt? n).isSome = true)
    (hn : LinkedPart.isImport n = true) (source : List Char) :
    ((strippedPart id code defaultLocal record).piece n).chars source = [] := by
  obtain ⟨link, hlink⟩ := Option.isSome_iff_exists.1 h
  have halias : link.aliases = [] := by
    obtain ⟨i, -, rfl⟩ := List.mem_map.1 (List.mem_of_find?_eq_some hlink)
    rfl
  unfold LinkedPart.isImport at hn
  unfold LinkedPart.piece
  cases hitem : ModuleItem.ofNode n with
  | importFrom =>
    simp only [hlink, halias]
    rfl
  | _ => simp [hitem, ModuleItem.imported?] at hn

/-- A statement with its semicolon is the text that it becomes. -/
theorem chars_piece_append (placed : n.Placed code.toList) (solid : Solid code.toList [n])
    (hlink : LinkedPart.isImport n = true →
      ((strippedPart id code defaultLocal record).linkAt? n).isSome = true) :
    ((strippedPart id code defaultLocal record).piece n).chars code.toList ++
        (if (strippedPart id code defaultLocal record).closes n then [';'] else []) =
      n.bareText defaultLocal code.toList := by
  cases hitem : ModuleItem.ofNode n with
  | importFrom =>
    have himport : LinkedPart.isImport n = true := by
      simp [LinkedPart.isImport, hitem, ModuleItem.imported?]
    rw [chars_piece_of_import (hlink himport) himport]
    simp [LinkedPart.closes, Node.bareText, hitem]
  | exportDefault span start name =>
    cases name with
    | some name => simp [LinkedPart.piece, LinkedPart.closes, Node.bareText, hitem, LinkedPiece.chars]
    | none =>
      obtain ⟨-, hle, hboundary⟩ := placed.kept start (by rw [hitem]; rfl)
      have hsplit : takeBytes n.span.stop code.toList =
          takeBytes start code.toList ++ sliceBytes start n.span.stop code.toList := by
        have := sliceBytes_append (onBoundary_zero code.toList) hboundary (Nat.zero_le start) hle.le
        simpa [sliceBytes] using this.symm
      have hends : ModuleRecord.endsWithSemicolon (takeBytes n.span.stop code.toList) =
          ModuleRecord.endsWithSemicolon (sliceBytes start n.span.stop code.toList) := by
        rw [hsplit, ModuleRecord.endsWithSemicolon_append (solid n (List.mem_singleton_self n) span start hitem)]
      simp only [LinkedPart.piece, LinkedPart.closes, Node.bareText, hitem, LinkedPiece.chars, variableText,
        strippedPart, hends]
      cases ModuleRecord.endsWithSemicolon (sliceBytes start n.span.stop code.toList) <;> simp
  | _ => simp [LinkedPart.piece, LinkedPart.closes, Node.bareText, hitem, LinkedPiece.chars]

/-- Only module syntax has an edit at its start. -/
theorem startsWithModuleSyntax_of_edit {p : LinkedPart} {position : Nat} {nodes : List Node}
    (h : EditSlot.startsWithEdit position (nodes.map p.slot) = true) :
    startsWithModuleSyntax position nodes = true := by
  cases nodes with
  | nil => cases h
  | cons next rest =>
    obtain ⟨hhead, hstart⟩ := Bool.and_eq_true_iff.1 h
    refine Bool.and_eq_true_iff.2 ⟨?_, hstart⟩
    change (p.head? next).isSome = true at hhead
    unfold LinkedPart.head? at hhead
    cases hitem : ModuleItem.ofNode next <;> simp_all [ModuleItem.isModuleSyntax]

/-- If no semicolon is lost, the parts are the texts that statements become. -/
theorem flatMap_piecesFrom {cursor : Nat} {nodes : List Node} (placed : PlacedFrom code.toList cursor nodes)
    (solid : Solid code.toList nodes)
    (hlinks : ∀ n ∈ nodes, LinkedPart.isImport n = true →
      ((strippedPart id code defaultLocal record).linkAt? n).isSome = true)
    (hkept : ¬ LosesSemicolon code.toList nodes) :
    ((strippedPart id code defaultLocal record).piecesFrom cursor nodes).flatMap (·.chars code.toList) =
      bareFrom defaultLocal code.toList cursor nodes := by
  induction placed with
  | nil => simp [LinkedPart.piecesFrom, bareFrom, LinkedPiece.chars]
  | @cons cursor n rest _ _ hn _ ih =>
    rw [LosesSemicolon, not_or] at hkept
    have hfirst : ((strippedPart id code defaultLocal record).piece n).chars code.toList ++ _ =
        n.bareText defaultLocal code.toList :=
      chars_piece_append hn (fun m hm => solid m (by simp_all)) (hlinks n List.mem_cons_self)
    have hrest := ih (fun m hm => solid m (List.mem_cons_of_mem n hm))
      (fun m hm => hlinks m (List.mem_cons_of_mem n hm)) hkept.2
    have hwritten (hcloses : (strippedPart id code defaultLocal record).closes n = true) :
        EditSlot.startsWithEdit n.span.stop (rest.map (strippedPart id code defaultLocal record).slot) =
          false := by
      by_contra hfollows
      have hsyntax := startsWithModuleSyntax_of_edit (by simpa using hfollows)
      unfold LinkedPart.closes at hcloses
      split at hcloses
      · rename_i hitem
        exact hkept.1 ⟨Node.hasDefaultValue_iff.2 ⟨_, _, hitem⟩, by simpa [strippedPart] using hcloses, hsyntax⟩
      · cases hcloses
    rw [LinkedPart.piecesFrom, bareFrom, ← hfirst, ← hrest]
    cases hcloses : (strippedPart id code defaultLocal record).closes n with
    | false => simp [LinkedPiece.chars]
    | true => simp [LinkedPiece.chars, hwritten hcloses]

/-- Every import of a module has a place in its record. -/
theorem isSome_linkAt? {p : Program} (h : ModuleRecord.ofItems id code.toList defaultLocal p.items = .ok record)
    (hn : n ∈ p.body) (himport : LinkedPart.isImport n = true) :
    ((strippedPart id code defaultLocal record).linkAt? n).isSome = true := by
  have hspans := (LinkedPart.edits_ofItems (p := strippedPart id code defaultLocal record) h).2
  have hmem : n.span ∈ record.imports.map (·.span) :=
    hspans ▸ List.mem_map_of_mem (List.mem_filter.2 ⟨hn, himport⟩)
  obtain ⟨i, hi, hspan⟩ := List.mem_map.1 hmem
  refine List.find?_isSome.2 ⟨⟨i, .outside, []⟩, List.mem_map_of_mem hi, ?_⟩
  exact decide_eq_true hspan

/-- The text of a module without its module syntax is made of its statements and of what stands between
them. -/
theorem strippedText_eq {p : Program} (placed : p.Placed code.toList)
    (h : ModuleRecord.ofItems id code.toList defaultLocal p.items = .ok record) :
    strippedText code record = String.ofList
      ((ScopedModule.pieces ⟨strippedPart id code defaultLocal record, p⟩).flatMap (·.chars code.toList)) := by
  rw [← code_strippedPart id code defaultLocal record]
  refine ScopedModule.code_eq (s := ⟨strippedPart id code defaultLocal record, p⟩) placed h (.inr ?_)
  simp only [strippedPart, List.map_map]
  exact List.map_id _

end Parts

/-! ## Records -/

namespace ModuleRecord

variable {id defaultLocal id' defaultLocal' : String} {source text : List Char} {n : Node}

/-- Without its module syntax a statement only declares what it declared. -/
theorem ofItem_bare {record : ModuleRecord} (h : ofItem id source defaultLocal (.ofNode n) = .ok record)
    (hn : n.stays = true) (span : Span) :
    ofItem id' text defaultLocal' ((ModuleItem.ofNode n).bare defaultLocal span) =
      .ok { declared := record.declared } := by
  unfold Node.stays at hn
  cases hitem : ModuleItem.ofNode n with
  | exportDefault _ _ name =>
    rw [hitem] at h
    cases name <;> obtain rfl := Except.ok.inj h <;> rfl
  | exportDeclaration _ _ names =>
    rw [hitem] at h
    cases names with
    | none => cases h
    | some names =>
      obtain rfl := Except.ok.inj h
      rfl
  | importFrom | exportList => simp [hitem] at hn
  | exportAll =>
    rw [hitem] at h
    cases h
  | declaration | other =>
    rw [hitem] at h
    obtain rfl := Except.ok.inj h
    rfl

/-- Imports and export lists declare nothing. -/
theorem declared_of_not_stays {record : ModuleRecord}
    (h : ofItem id source defaultLocal (.ofNode n) = .ok record) (hn : n.stays = false) :
    record.declared = [] := by
  unfold Node.stays at hn
  cases hitem : ModuleItem.ofNode n with
  | exportList _ _ from? =>
    rw [hitem] at h
    cases from? with
    | none =>
      obtain rfl := Except.ok.inj h
      rfl
    | some _ => cases h
  | importFrom =>
    rw [hitem] at h
    obtain rfl := Except.ok.inj h
    rfl
  | _ => simp [hitem] at hn

/-- The record of statements that have lost their module syntax: they declare what they declared. -/
theorem ofItems_stripped {position : Nat} {nodes results : List Node} {record : ModuleRecord}
    (h : StrippedFrom defaultLocal source text position nodes results)
    (hrecord : ofItems id source defaultLocal (nodes.map ModuleItem.ofNode) = .ok record) :
    ofItems id' text defaultLocal' (results.map ModuleItem.ofNode) = .ok { declared := record.declared } := by
  induction h generalizing record with
  | nil =>
    obtain rfl := Except.ok.inj hrecord
    rfl
  | leave leaves _ ih =>
    obtain ⟨own, hown, hrecord⟩ := bind_eq_ok.1 hrecord
    obtain ⟨more, hmore, hrecord⟩ := bind_eq_ok.1 hrecord
    obtain rfl := Except.ok.inj hrecord
    rw [ih hmore, append, declared_of_not_stays hown leaves, List.nil_append]
  | stay stays _ _ stripped _ ih =>
    obtain ⟨own, hown, hrecord⟩ := bind_eq_ok.1 hrecord
    obtain ⟨more, hmore, hrecord⟩ := bind_eq_ok.1 hrecord
    obtain rfl := Except.ok.inj hrecord
    rw [List.map_cons, ofItems, stripped.item, ofItem_bare hown stays, ih hmore]
    rfl

theorem ofItem_of_ofItems {nodes : List Node} {record : ModuleRecord}
    (h : ofItems id source defaultLocal (nodes.map ModuleItem.ofNode) = .ok record) (hn : n ∈ nodes) :
    ∃ own, ofItem id source defaultLocal (.ofNode n) = .ok own := by
  induction nodes generalizing record with
  | nil => cases hn
  | cons m rest ih =>
    obtain ⟨own, hown, h⟩ := bind_eq_ok.1 h
    obtain ⟨more, hmore, h⟩ := bind_eq_ok.1 h
    rcases List.mem_cons.1 hn with rfl | hn
    · exact ⟨own, hown⟩
    · exact ih hmore hn

end ModuleRecord

/-! ## Modules -/

section Module

variable {parse : String → Option Program} {id code defaultLocal : String} {record : ModuleRecord} {p : Program}

/-- What is read in the text of a module without its module syntax. -/
theorem exists_strippedFrom (laws : StatementLaws parse defaultLocal) (hvariable : IsVariable defaultLocal)
    (hparse : parse code = some p) (placed : p.Placed code.toList)
    (hrecord : ModuleRecord.ofItems id code.toList defaultLocal p.items = .ok record)
    (hkept : ¬ LosesSemicolon code.toList p.body)
    (happart : StaysApart defaultLocal code.toList True p.body) :
    ∃ q, parse (strippedText code record) = some q ∧
      StrippedFrom defaultLocal code.toList (strippedText code record).toList 0 p.body q.body := by
  have hsolid : Solid code.toList p.body := fun n hn span start hitem => laws.solid hparse hn hitem
  have htext : strippedText code record = String.ofList (bareFrom defaultLocal code.toList 0 p.body) := by
    rw [strippedText_eq placed hrecord]
    exact congrArg String.ofList (flatMap_piecesFrom placed.from hsolid
      (fun n hn => isSome_linkAt? hrecord hn) hkept)
  have hstart : ReadUpTo parse code.toList [] 0 [] p.body := by
    refine ⟨⟨p, p.body, by simpa using hparse, rfl, ?_⟩, List.forall_mem_nil _⟩
    exact List.forall₂_same.2 fun n _ => .refl (fun x => by simp [moveTo]) n
  obtain ⟨q, results, hread, hbody, hstripped⟩ := hstart.run laws hvariable placed.from
    (fun n hn => ModuleRecord.ofItem_of_ofItems hrecord hn) happart (by simp)
  rw [htext]
  exact ⟨q, hread, by simpa [hbody] using hstripped⟩

/-- A module without its module syntax is made of its statements that are no imports and no export lists and of
what stands between them, and all that is read in it are these statements, each by itself and in their order:
exports as declarations with the same names, and default values as the values of variables. It imports and
exports nothing and declares the same names. For this, no import or export may directly follow a default value
without a semicolon, and no statement may go on behind an import or an export list that is left out. -/
theorem strippedText_reads (laws : StatementLaws parse defaultLocal) (hvariable : IsVariable defaultLocal)
    (hparse : parse code = some p) (placed : p.Placed code.toList)
    (hrecord : ModuleRecord.ofText (fun code => (parse code).map Program.items) id code defaultLocal =
      .ok record) :
    strippedText code record = String.ofList
        ((ScopedModule.pieces ⟨strippedPart id code defaultLocal record, p⟩).flatMap (·.chars code.toList)) ∧
      (¬ LosesSemicolon code.toList p.body → StaysApart defaultLocal code.toList True p.body →
        ∃ q, parse (strippedText code record) = some q ∧
          List.Forall₂ (Node.StrippedTo defaultLocal code.toList (strippedText code record).toList)
            (p.body.filter Node.stays) q.body ∧
          (q.body.Pairwise fun a b => a.span.stop ≤ b.span.start) ∧
          ∀ id' defaultLocal', ModuleRecord.ofText (fun code => (parse code).map Program.items) id'
            (strippedText code record) defaultLocal' = .ok { declared := record.declared }) := by
  obtain ⟨p', hparse', hitems⟩ := ModuleRecord.ofText_ok hrecord
  obtain rfl := Option.some.inj (hparse.symm.trans hparse')
  refine ⟨strippedText_eq placed hitems, fun hkept happart => ?_⟩
  obtain ⟨q, hread, hstripped⟩ := exists_strippedFrom laws hvariable hparse placed hitems hkept happart
  refine ⟨q, hread, hstripped.forall₂, hstripped.inOrder, fun id' defaultLocal' => ?_⟩
  simp only [ModuleRecord.ofText, hread, Option.map_some]
  exact ModuleRecord.ofItems_stripped hstripped hitems

end Module

/-! ## A module that loses its module syntax -/

/-- The statement `export default b` at a position. -/
def valueAt (s : Nat) : Node :=
  .exportDefault ⟨s, s + 16⟩ (.ident ⟨s + 15, s + 16⟩ "b")

/-- The statement `var _default = b;` at a position. -/
def heldAt (s : Nat) : Node :=
  .var ⟨s, s + 17⟩ .varDecl
    [.declarator ⟨s + 4, s + 16⟩ (.binding ⟨s + 4, s + 12⟩ "_default") (some (.ident ⟨s + 15, s + 16⟩ "b"))]

/-- The statement `const [y]=x;` at a position. -/
def patternAt (s : Nat) : Node :=
  .var ⟨s, s + 12⟩ .constDecl
    [.declarator ⟨s + 6, s + 11⟩ (.arrayPattern ⟨s + 6, s + 9⟩ [.binding ⟨s + 7, s + 8⟩ "y"])
      (some (.ident ⟨s + 10, s + 11⟩ "x"))]

/-- The statement `import 'a';` at the start of a text. -/
def firstImport : Node :=
  .importModule ⟨0, 11⟩ { specifiers := none, source := ⟨"a", "a", false⟩ }

/-- A module with an import and a default value. -/
def stagedText : String := "import 'a';export default b\nconst [y]=x;"

/-- Its text without module syntax. -/
def bareStagedText : String := "var _default = b;\nconst [y]=x;"

/-- Its statements. -/
def staged : Program where
  hashbang := none
  body := [firstImport, valueAt 11, patternAt 28]
  comments := []
  size := 40

/-- A module, and what becomes of it as its statements lose their module syntax. -/
def stages : List (String × Program) :=
  [(stagedText, staged),
    ("export default b\nconst [y]=x;",
      { hashbang := none, body := [valueAt 0, patternAt 17], comments := [], size := 29 }),
    (bareStagedText,
      { hashbang := none, body := [heldAt 0, patternAt 18], comments := [], size := 30 })]

/-- The parser that reads these texts. -/
def parseStages (text : String) : Option Program :=
  stages.lookup text

section Stages

variable {a b s : Nat}

theorem Script.Node.binds_of_topNames {n : Node} {names : List String} (fuel : Nat)
    (hall : ∀ fuel, n.topNames fuel ⊆ names) (hnames : names ⊆ n.topNames fuel) (x : String) :
    n.Binds x ↔ x ∈ names :=
  ⟨fun ⟨fuel, hx⟩ => hall fuel hx, fun hx => ⟨fuel, hnames hx⟩⟩

theorem binds_valueAt (s : Nat) (x : String) : (valueAt s).Binds x ↔ x ∈ [] := by
  refine Node.binds_of_topNames 0 ?_ (List.nil_subset _) x
  rintro (_ | _ | _ | fuel)
  all_goals exact List.Subset.refl _

theorem binds_heldAt (s : Nat) (x : String) : (heldAt s).Binds x ↔ x ∈ ["_default"] := by
  refine Node.binds_of_topNames 1 ?_ (List.Subset.refl _) x
  rintro (_ | _ | fuel)
  · exact List.nil_subset _
  · exact List.Subset.refl _
  · exact List.append_subset.2 ⟨List.Subset.refl _, List.Subset.refl _⟩

theorem binds_patternAt (s : Nat) (x : String) : (patternAt s).Binds x ↔ x ∈ ["y"] := by
  refine Node.binds_of_topNames 2 ?_ (List.Subset.refl _) x
  rintro (_ | _ | _ | _ | _ | fuel)
  · exact List.nil_subset _
  · exact List.nil_subset _
  all_goals exact List.Subset.refl _

theorem movedBy_valueAt (h : a ≤ s) : Node.MovedBy (moveTo a b) (valueAt s) (valueAt (moveTo a b s)) where
  item := by simp [valueAt, ModuleItem.ofNode, ModuleItem.mapPositions, moveTo_add h, declarationName, Node.span]
  closed := ⟨(nomatch ·), (nomatch ·)⟩
  binds x := by rw [binds_valueAt, binds_valueAt]

theorem movedBy_patternAt (h : a ≤ s) :
    Node.MovedBy (moveTo a b) (patternAt s) (patternAt (moveTo a b s)) where
  item := by
    simp [patternAt, ModuleItem.ofNode, ModuleItem.mapPositions, moveTo_add h, plainNames?, plainDeclarator?]
  closed := ⟨(nomatch ·), (nomatch ·)⟩
  binds x := by rw [binds_patternAt, binds_patternAt]

theorem Script.Node.isModuleSyntax_of_not_stays {n : Node} (h : n.stays = false) :
    (ModuleItem.ofNode n).isModuleSyntax = true := by
  unfold Node.stays at h
  cases hitem : ModuleItem.ofNode n <;> simp_all [ModuleItem.isModuleSyntax]

/-- Which statement of these texts loses its module syntax first. -/
theorem first_of_stages {text : String} {p : Program} {before behind : List Node} {n : Node}
    (hparse : parseStages text = some p) (hbody : p.body = before ++ n :: behind) (hbare : Bare before)
    (hn : (ModuleItem.ofNode n).isModuleSyntax = true) :
    (text = stagedText ∧ before = [] ∧ n = firstImport ∧
        behind = [valueAt 11, patternAt 28]) ∨
      (text = "export default b\nconst [y]=x;" ∧ before = [] ∧ n = valueAt 0 ∧ behind = [patternAt 17]) := by
  have hmem := mem_of_lookup hparse
  simp only [stages, List.mem_cons, Prod.mk.injEq, List.not_mem_nil, or_false] at hmem
  -- the first statement of each text but the last one is module syntax, and no other statement comes before it
  have hfirst {m : Node} {rest : List Node} (hm : (ModuleItem.ofNode m).isModuleSyntax = true)
      (hnodes : m :: rest = before ++ n :: behind) : before = [] ∧ n = m ∧ behind = rest := by
    cases before with
    | nil =>
      obtain ⟨rfl, rfl⟩ := List.cons.inj hnodes
      exact ⟨rfl, rfl, rfl⟩
    | cons k before =>
      obtain ⟨rfl, -⟩ := List.cons.inj hnodes
      rw [hbare _ List.mem_cons_self] at hm
      cases hm
  rcases hmem with ⟨rfl, rfl⟩ | ⟨rfl, rfl⟩ | ⟨rfl, rfl⟩
  · exact .inl ⟨rfl, hfirst rfl hbody⟩
  · exact .inr ⟨rfl, hfirst rfl hbody⟩
  · have hnodes : [heldAt 0, patternAt 18] = before ++ n :: behind := hbody
    have hmem : n ∈ [heldAt 0, patternAt 18] := hnodes ▸ List.mem_append_cons_self
    rcases List.mem_pair.1 hmem with rfl | rfl <;> cases hn

theorem statementLaws_stages : StatementLaws parseStages "_default" where
  bare {text p before behind n start names} hparse hbody hbare _ hn := by
    have hsyntax : (ModuleItem.ofNode n).isModuleSyntax = true := by
      unfold Node.exported? at hn
      cases hitem : ModuleItem.ofNode n <;> simp_all [ModuleItem.isModuleSyntax]
    rcases first_of_stages hparse hbody hbare hsyntax with ⟨-, -, rfl, -⟩ | ⟨-, -, rfl, -⟩ <;> cases hn
  valued hparse hbody hbare _ hn _ := by
    rcases first_of_stages hparse hbody hbare (by rw [hn]; rfl) with ⟨-, -, rfl, -⟩ | ⟨rfl, rfl, rfl, rfl⟩
    · cases hn
    · obtain rfl : 15 = _ := (ModuleItem.exportDefault.inj hn).2.1
      have hnew : variableText (sliceBytes 15 (valueAt 0).span.stop "export default b\nconst [y]=x;".toList)
          "_default" = "var _default = b;".toList := by
        decide +kernel
      have htext : replaced "export default b\nconst [y]=x;" (valueAt 0).span.start (valueAt 0).span.stop
          "var _default = b;".toList = bareStagedText := by
        decide +kernel
      simp only [hnew, htext]
      refine ⟨_, heldAt 0, [patternAt 18], rfl, rfl, by decide +kernel, fun x => ?_, ?_⟩
      · rw [binds_heldAt, binds_valueAt]
        simp
      · exact .cons (movedBy_patternAt (by decide)) .nil
  removed hparse hbody hbare _ hn _ := by
    rcases first_of_stages hparse hbody hbare (Node.isModuleSyntax_of_not_stays hn) with
      ⟨rfl, rfl, rfl, rfl⟩ | ⟨-, -, rfl, -⟩
    · have htext : replaced stagedText firstImport.span.start
          firstImport.span.stop [] = "export default b\nconst [y]=x;" := by
        decide +kernel
      rw [htext]
      exact ⟨_, [valueAt 0, patternAt 17], rfl, rfl,
        .cons (movedBy_valueAt (by decide)) (.cons (movedBy_patternAt (by decide)) .nil)⟩
    · cases hn
  solid hparse hmem hn := by
    have hstage := mem_of_lookup hparse
    simp only [stages, List.mem_cons, Prod.mk.injEq, List.not_mem_nil, or_false] at hstage
    rcases hstage with ⟨rfl, rfl⟩ | ⟨rfl, rfl⟩ | ⟨rfl, rfl⟩ <;>
      simp only [staged, List.mem_cons, List.not_mem_nil, or_false] at hmem
    · rcases hmem with rfl | rfl | rfl
      · cases hn
      · obtain rfl : 26 = _ := (ModuleItem.exportDefault.inj hn).2.1
        decide +kernel
      · cases hn
    · rcases hmem with rfl | rfl
      · obtain rfl : 15 = _ := (ModuleItem.exportDefault.inj hn).2.1
        decide +kernel
      · cases hn
    · rcases hmem with rfl | rfl <;> cases hn

/-- The record of the module. -/
def stagedRecord : ModuleRecord where
  imports := [⟨⟨0, 11⟩, "a", [], "import 'a';"⟩]
  exports := [("default", "_default")]
  declared := ["_default"]
  edits := [⟨11, 26, "var _default = "⟩, ⟨27, 27, ";"⟩]

theorem strippedText_staged : strippedText stagedText stagedRecord = bareStagedText := by
  have hplaced : staged.Placed stagedText.toList := by decide +kernel
  have hrecord : ModuleRecord.ofItems "m" stagedText.toList "_default" staged.items = .ok stagedRecord := by
    decide +kernel
  rw [strippedText_eq hplaced hrecord]
  decide +kernel

theorem not_losesSemicolon_staged : ¬ LosesSemicolon stagedText.toList staged.body := by
  rintro (⟨h, -⟩ | ⟨-, -, h⟩ | ⟨h, -⟩ | h)
  · cases h
  · cases h
  · cases h
  · exact h

end Stages

/-- What is read in the text of this module without its module syntax. -/
theorem strippedText_reads_stages :
    let read (code : String) : Option (List ModuleItem) := (parseStages code).map Program.items
    ModuleRecord.ofText read "m" stagedText "_default" = .ok stagedRecord ∧
      strippedText stagedText stagedRecord = bareStagedText ∧
      ∃ q, parseStages bareStagedText = some q ∧
        List.Forall₂ (Node.StrippedTo "_default" stagedText.toList bareStagedText.toList)
          [valueAt 11, patternAt 28] q.body ∧
        (q.body.Pairwise fun a b => a.span.stop ≤ b.span.start) ∧
        ModuleRecord.ofText read "m" bareStagedText "_default" = .ok { declared := ["_default"] } := by
  intro read
  have hrecord : ModuleRecord.ofText read "m" stagedText "_default" = .ok stagedRecord := by decide +kernel
  have hplaced : staged.Placed stagedText.toList := by decide +kernel
  obtain ⟨-, hreads⟩ := strippedText_reads statementLaws_stages (by decide +kernel) rfl hplaced hrecord
  obtain ⟨q, hparse, hstripped, hinOrder, hagain⟩ :=
    hreads not_losesSemicolon_staged ⟨.inl trivial, trivial⟩
  rw [strippedText_staged] at hparse hstripped hagain
  exact ⟨hrecord, strippedText_staged, q, hparse, hstripped, hinOrder, hagain "m" "_default"⟩

end ModuleBuild
