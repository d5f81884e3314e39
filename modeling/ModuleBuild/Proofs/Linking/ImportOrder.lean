import Mathlib
import ModuleBuild.Proofs.Compile.CommonJs
import ModuleBuild.Proofs.Linking.Emission
import ModuleBuild.Proofs.Linking.Globals

/-!
# The order of a linked module

In a chunk a module is its statements and what stands between them, without its module syntax. The variables
that stand for an import are written in place of the import, wherever the module has it. In the module itself
an import is bound before anything runs. So a statement that stands before an import runs before the
variables of the import have their values.

## Main definitions

* `LinkedPiece` — the parts of the text of a linked module.
* `ScopedModule.pieces` — the parts that a module becomes.
* `ScopedModule.ImportsFirst` — the variables for imports stand before all statements.

## Main statements

* `ScopedModule.code_eq` — a linked module is made of these parts.
* `bundle_importsFirst_iff` — when the modules of a bundle bind their imports first.
-/

namespace ModuleBuild

open Linking Script Text

/-- A part of the text of a linked module. -/
inductive LinkedPiece where
  /-- What stands between two statements. -/
  | gap (start stop : Nat)
  /-- What stands behind the last statement. -/
  | tail (start : Nat)
  /-- A statement from a position on, without what exports it. -/
  | statement (n : Node) (start : Nat)
  /-- A default value, which a variable holds. -/
  | defaultValue (n : Node) (start : Nat) (name : String)
  /-- The semicolon behind a default value. -/
  | semicolon
  /-- The variables in place of an import. -/
  | importVariables (pairs : List (String × String))
  /-- An import that is not linked. -/
  | unlinked (n : Node)
  /-- Nothing, in place of an export list. -/
  | nothing

namespace LinkedPiece

/-- The text of a part. -/
def chars (source : List Char) : LinkedPiece → List Char
  | gap start stop => sliceBytes start stop source
  | tail start => dropBytes start source
  | statement n start => sliceBytes start n.span.stop source
  | defaultValue n start name => ("var " ++ name ++ " = ").toList ++ sliceBytes start n.span.stop source
  | semicolon => [';']
  | importVariables pairs => (LinkedModule.aliasLines pairs).toList
  | unlinked n => sliceBytes n.span.start n.span.stop source
  | nothing => []

/-- Whether a part is a statement of the module. -/
def isStatement : LinkedPiece → Bool
  | statement .. | defaultValue .. => true
  | _ => false

/-- Whether a part binds imports. -/
def bindsImports : LinkedPiece → Bool
  | importVariables pairs => !pairs.isEmpty
  | _ => false

@[simp] theorem isStatement_gap (start stop : Nat) : (gap start stop).isStatement = false := rfl

@[simp] theorem bindsImports_gap (start stop : Nat) : (gap start stop).bindsImports = false := rfl

@[simp] theorem bindsImports_tail (start : Nat) : (tail start).bindsImports = false := rfl

@[simp] theorem isStatement_semicolon : semicolon.isStatement = false := rfl

@[simp] theorem bindsImports_semicolon : semicolon.bindsImports = false := rfl

end LinkedPiece

/-! ## Statements of a linked module -/

/-- Statements stand in different places. -/
theorem Script.Program.Placed.nodup_spans {source : List Char} {program : Program}
    (h : program.Placed source) : (program.body.map (·.span)).Nodup := by
  refine List.pairwise_map.2 (h.inOrder.imp_of_mem ?_)
  intro m n hm hn hle heq
  have hlt := (h.placed n hn).start_lt
  rw [heq] at hle
  omega

namespace LinkedPart

/-- What a module links in place of a statement. -/
def linkAt? (p : LinkedPart) (n : Node) : Option ImportLink :=
  p.links.find? (·.record.span = n.span)

/-- The part that stands for a statement. -/
def piece (p : LinkedPart) (n : Node) : LinkedPiece :=
  match ModuleItem.ofNode n with
  | .importFrom .. =>
    match p.linkAt? n with
    | some link => .importVariables link.aliases
    | none => .unlinked n
  | .exportDefault _ start none => .defaultValue n start p.defaultLocal
  | .exportDefault _ start (some _) | .exportDeclaration _ start _ => .statement n start
  | .exportList .. => .nothing
  | _ => .statement n n.span.start

/-- Where the beginning of a statement that is replaced ends, and what stands for it. -/
def head? (p : LinkedPart) (n : Node) : Option (Nat × String) :=
  match ModuleItem.ofNode n with
  | .importFrom .. => (p.linkAt? n).map fun link => (n.span.stop, LinkedModule.aliasLines link.aliases)
  | .exportDefault _ start none => some (start, "var " ++ p.defaultLocal ++ " = ")
  | .exportDefault _ start (some _) | .exportDeclaration _ start _ => some (start, "")
  | .exportList .. => some (n.span.stop, "")
  | _ => none

/-- Whether a semicolon is written behind a statement. -/
def closes (p : LinkedPart) (n : Node) : Bool :=
  match ModuleItem.ofNode n with
  | .exportDefault _ _ none => !ModuleRecord.endsWithSemicolon (takeBytes n.span.stop p.source.toList)
  | _ => false

/-- A statement with its edits. -/
def slot (p : LinkedPart) (n : Node) : EditSlot where
  start := n.span.start
  stop := n.span.stop
  head? := p.head? n
  close? := if p.closes n then some ";" else none

/-- The parts of statements and of what stands before them from a position on. The semicolon behind a
default value is lost where a statement with an edit follows directly. -/
def piecesFrom (p : LinkedPart) : (cursor : Nat) → List Node → List LinkedPiece
  | cursor, [] => [.tail cursor]
  | cursor, n :: rest =>
    .gap cursor n.span.start :: p.piece n ::
      (if p.closes n && !EditSlot.startsWithEdit n.span.stop (rest.map p.slot) then [.semicolon] else []) ++
      p.piecesFrom n.span.stop rest

variable {p : LinkedPart}

theorem chars_slot (p : LinkedPart) (n : Node) (source : List Char) :
    (p.slot n).chars source = (p.piece n).chars source := by
  unfold EditSlot.chars slot head? piece
  cases ModuleItem.ofNode n with
  | importFrom => cases p.linkAt? n <;> simp [LinkedPiece.chars]
  | exportDefault _ _ name => cases name <;> simp [LinkedPiece.chars]
  | _ => simp [LinkedPiece.chars]

/-- The edits of statements give their parts. -/
theorem joined_slots (p : LinkedPart) (source : List Char) (cursor : Nat) (nodes : List Node) :
    EditSlot.joined source cursor (nodes.map p.slot) =
      (p.piecesFrom cursor nodes).flatMap (·.chars source) := by
  induction nodes generalizing cursor with
  | nil => simp [EditSlot.joined, piecesFrom, LinkedPiece.chars]
  | cons n rest ih =>
    rw [List.map_cons, EditSlot.joined, chars_slot, piecesFrom]
    change sliceBytes cursor n.span.start source ++ _ ++
      (if EditSlot.startsWithEdit n.span.stop _ then _ else _) ++ EditSlot.joined source n.span.stop _ = _
    rw [ih]
    cases hcloses : p.closes n <;> cases EditSlot.startsWithEdit n.span.stop (rest.map p.slot) <;>
      simp [LinkedPiece.chars, EditSlot.closing, slot, hcloses]

/-- The statements of a program stand in order, with their edits. -/
theorem inOrder_slots {source : List Char} {cursor : Nat} {nodes : List Node}
    (h : PlacedFrom source cursor nodes) : EditSlot.InOrder source cursor (nodes.map p.slot) := by
  induction h with
  | nil boundary => exact .nil boundary
  | @cons cursor n rest boundary le placed _ ih =>
    refine .cons boundary le ⟨placed.start_lt, placed.start_boundary, placed.stop_boundary, ?_⟩ ih
    intro head hhead
    unfold slot head? at hhead
    dsimp only at hhead
    split at hhead
    · obtain ⟨link, -, rfl⟩ := Option.map_eq_some_iff.1 hhead
      exact ⟨placed.start_lt, le_rfl, placed.stop_boundary⟩
    · rename_i hitem
      obtain rfl := Option.some.inj hhead
      exact placed.keptStart hitem rfl
    · rename_i hitem
      obtain rfl := Option.some.inj hhead
      exact placed.keptStart hitem rfl
    · rename_i hitem
      obtain rfl := Option.some.inj hhead
      exact placed.keptStart hitem rfl
    · obtain rfl := Option.some.inj hhead
      exact ⟨placed.start_lt, le_rfl, placed.stop_boundary⟩
    · cases hhead

/-! ## Edits of a linked module -/

/-- Whether a statement is an import. -/
def isImport (n : Node) : Bool :=
  (ModuleItem.ofNode n).imported?.isSome

/-- What the record of a statement says: the edits of a statement other than an import, and where an import
stands. -/
theorem edits_ofItem {n : Node} {record : ModuleRecord}
    (h : ModuleRecord.ofItem p.id p.source.toList p.defaultLocal (.ofNode n) = .ok record) :
    record.edits = (if isImport n then [] else (p.slot n).edits) ∧
      record.imports.map (·.span) = if isImport n then [n.span] else [] := by
  have hspan := ModuleItem.span_ofNode n
  unfold isImport EditSlot.edits EditSlot.headEdit? EditSlot.closeEdit? slot head? closes
  cases hitem : ModuleItem.ofNode n with
  | exportDefault span start name =>
    rw [hitem] at h hspan
    obtain rfl : span = n.span := hspan
    cases name with
    | none =>
      obtain rfl := Except.ok.inj h
      cases ModuleRecord.endsWithSemicolon (takeBytes n.span.stop p.source.toList) <;>
        simp [ModuleItem.imported?]
    | some name =>
      obtain rfl := Except.ok.inj h
      simp [ModuleItem.imported?]
  | exportDeclaration span start names =>
    rw [hitem] at h hspan
    obtain rfl : span = n.span := hspan
    cases names with
    | none => cases h
    | some names =>
      obtain rfl := Except.ok.inj h
      simp [ModuleItem.imported?]
  | exportList span names source =>
    rw [hitem] at h hspan
    obtain rfl : span = n.span := hspan
    cases source with
    | none =>
      obtain rfl := Except.ok.inj h
      simp [ModuleItem.imported?]
    | some source => cases h
  | exportAll =>
    rw [hitem] at h
    cases h
  | importFrom span moduleName bindings =>
    rw [hitem] at h hspan
    obtain rfl : span = n.span := hspan
    obtain rfl := Except.ok.inj h
    simp [ModuleItem.imported?]
  | declaration | other =>
    rw [hitem] at h
    obtain rfl := Except.ok.inj h
    simp [ModuleItem.imported?]

/-- What the record of a module says: the edits of its statements other than imports, and where the imports
stand. -/
theorem edits_ofItems {nodes : List Node} {record : ModuleRecord}
    (h : ModuleRecord.ofItems p.id p.source.toList p.defaultLocal (nodes.map ModuleItem.ofNode) =
      .ok record) :
    record.edits = (nodes.filter (!isImport ·)).flatMap (fun n => (p.slot n).edits) ∧
      record.imports.map (·.span) = (nodes.filter isImport).map (·.span) := by
  induction nodes generalizing record with
  | nil =>
    obtain rfl := Except.ok.inj h
    exact ⟨rfl, rfl⟩
  | cons n rest ih =>
    obtain ⟨own, hown, h⟩ := bind_eq_ok.1 h
    obtain ⟨more, hmore, h⟩ := bind_eq_ok.1 h
    obtain rfl := Except.ok.inj h
    obtain ⟨hedits, himports⟩ := edits_ofItem hown
    obtain ⟨hmoreEdits, hmoreImports⟩ := ih hmore
    rw [ModuleRecord.append, hedits, hmoreEdits, List.map_append, himports, hmoreImports]
    cases hn : isImport n <;> simp [hn]

/-- An import finds itself by its place. -/
theorem find?_span {links : List ImportLink} (h : (links.map (·.record.span)).Nodup) {link : ImportLink}
    (hlink : link ∈ links) : links.find? (·.record.span = link.record.span) = some link := by
  cases hfound : links.find? (·.record.span = link.record.span) with
  | none => simpa using List.find?_eq_none.1 hfound link hlink
  | some found =>
    have hsame : found.record.span = link.record.span := by simpa using List.find?_some hfound
    rw [List.inj_on_of_nodup_map h (List.mem_of_find?_eq_some hfound) hlink hsame]

/-- The edits of an import are those of what is linked in its place. -/
theorem edits_slot_of_isImport {n : Node} (h : isImport n = true) :
    (p.slot n).edits = ((p.linkAt? n).map (·.edit)).toList := by
  unfold isImport at h
  unfold EditSlot.edits EditSlot.headEdit? EditSlot.closeEdit? slot head? closes
  cases hitem : ModuleItem.ofNode n with
  | importFrom =>
    cases hlink : p.linkAt? n with
    | none => rfl
    | some link =>
      have hspan : link.record.span = n.span := by simpa using List.find?_some hlink
      simp [ImportLink.edit, hspan]
  | _ => simp [hitem, ModuleItem.imported?] at h

/-- The imports of a module, of which each is linked, have the edits of what is linked. -/
theorem edits_imports {nodes : List Node} (himports : ∀ n ∈ nodes, isImport n = true)
    (hspans : p.links.map (·.record.span) = nodes.map (·.span)) (hnodup : (nodes.map (·.span)).Nodup) :
    nodes.flatMap (fun n => (p.slot n).edits) = p.links.map (·.edit) := by
  let linked (span : Span) : List Edit := ((p.links.find? (·.record.span = span)).map (·.edit)).toList
  calc
    nodes.flatMap (fun n => (p.slot n).edits)
    _ = nodes.flatMap (fun n => linked n.span) := by
      refine List.flatMap_congr fun n hn => ?_
      exact edits_slot_of_isImport (himports n hn)
    _ = p.links.flatMap (fun link => linked link.record.span) := by
      rw [← List.flatMap_map, ← hspans, List.flatMap_map]
    _ = p.links.flatMap (fun link => [link.edit]) := by
      refine List.flatMap_congr fun link hlink => ?_
      simp only [linked, find?_span (hspans ▸ hnodup) hlink]
      rfl
    _ = p.links.map (·.edit) := List.map_eq_flatMap.symm

/-- The edits of a linked module are those of its statements. -/
theorem allEdits_perm {program : Program} (placed : program.Placed p.source.toList)
    (hrecord : ModuleRecord.ofItems p.id p.source.toList p.defaultLocal program.items = .ok p.record)
    (hlinks : p.links = [] ∨ p.links.map (·.record) = p.record.imports) :
    p.allEdits.Perm ((program.body.map p.slot).flatMap EditSlot.edits) := by
  obtain ⟨hedits, hspans⟩ := edits_ofItems hrecord
  have hlinked : (program.body.filter isImport).flatMap (fun n => (p.slot n).edits) =
      p.links.map (·.edit) := by
    rcases hlinks with hnone | hrecords
    · rw [hnone, List.map_nil, List.flatMap_eq_nil_iff]
      intro n hn
      rw [edits_slot_of_isImport (List.mem_filter.1 hn).2, linkAt?, hnone]
      rfl
    · refine edits_imports (fun n hn => (List.mem_filter.1 hn).2) ?_ ?_
      · rw [← hspans, ← hrecords, List.map_map]
        rfl
      · exact placed.nodup_spans.sublist (List.filter_sublist.map _)
  have hsplit : (p.early.map (·.edit) ++ p.late.map (·.edit)).Perm (p.links.map (·.edit)) := by
    rw [← List.map_append]
    refine List.Perm.map _ (List.perm_append_comm.trans ?_)
    exact List.filter_append_perm (·.isHelper) p.links
  calc
    p.allEdits
    _ = p.record.edits ++ (p.early.map (·.edit) ++ p.late.map (·.edit)) := by
      rw [allEdits, LinkedPart.edits, List.append_assoc]
    List.Perm _ (p.record.edits ++ p.links.map (·.edit)) := hsplit.append_left _
    List.Perm _ (p.links.map (·.edit) ++ p.record.edits) := List.perm_append_comm
    _ = (program.body.filter isImport ++ program.body.filter (!isImport ·)).flatMap
          (fun n => (p.slot n).edits) := by
      rw [List.flatMap_append, hlinked, hedits]
    List.Perm _ (program.body.flatMap fun n => (p.slot n).edits) :=
      (List.filter_append_perm isImport program.body).flatMap_right _
    _ = (program.body.map p.slot).flatMap EditSlot.edits := (List.flatMap_map ..).symm

/-- The variables that stand for an import. -/
def variablesAt (p : LinkedPart) (n : Node) : List (String × String) :=
  if isImport n then ((p.linkAt? n).map (·.aliases)).getD [] else []

end LinkedPart

/-- Whether a statement is one of a linked module: it is no import and no export list. -/
def Script.Node.stays (n : Node) : Bool :=
  match ModuleItem.ofNode n with
  | .importFrom .. | .exportList .. => false
  | _ => true

/-! ## The order of parts -/

namespace LinkedPart

variable {p : LinkedPart}

theorem bindsImports_piece (n : Node) : (p.piece n).bindsImports = true ↔ p.variablesAt n ≠ [] := by
  unfold piece variablesAt isImport
  cases ModuleItem.ofNode n with
  | importFrom => cases p.linkAt? n <;> simp [ModuleItem.imported?, LinkedPiece.bindsImports]
  | exportDefault _ _ name => cases name <;> simp [ModuleItem.imported?, LinkedPiece.bindsImports]
  | _ => simp [ModuleItem.imported?, LinkedPiece.bindsImports]

theorem isStatement_piece (n : Node) : (p.piece n).isStatement = n.stays := by
  unfold piece Node.stays
  cases ModuleItem.ofNode n with
  | importFrom => cases p.linkAt? n <;> rfl
  | exportDefault _ _ name => cases name <;> rfl
  | _ => rfl

theorem exists_bindsImports_piecesFrom (cursor : Nat) (nodes : List Node) :
    (∃ b ∈ p.piecesFrom cursor nodes, b.bindsImports = true) ↔ ∃ n ∈ nodes, p.variablesAt n ≠ [] := by
  induction nodes generalizing cursor with
  | nil => simp [piecesFrom]
  | cons n rest ih =>
    rw [piecesFrom]
    split <;> simp [bindsImports_piece, ih]

/-- The variables for imports stand before all statements just if the imports do. -/
theorem pairwise_piecesFrom_iff (cursor : Nat) (nodes : List Node) :
    ((p.piecesFrom cursor nodes).Pairwise fun a b => b.bindsImports = true → a.isStatement = false) ↔
      nodes.Pairwise fun m n => p.variablesAt n ≠ [] → m.stays = false := by
  induction nodes generalizing cursor with
  | nil => simp [piecesFrom]
  | cons n rest ih =>
    have hrest := exists_bindsImports_piecesFrom (p := p) n.span.stop rest
    have hfirst : (∀ b ∈ p.piecesFrom n.span.stop rest,
        b.bindsImports = true → (p.piece n).isStatement = false) ↔
          ∀ m ∈ rest, p.variablesAt m ≠ [] → n.stays = false := by
      rw [isStatement_piece]
      simpa only [forall_exists_index, and_imp] using imp_congr_left hrest
    rw [piecesFrom, List.pairwise_cons, ← ih n.span.stop, ← hfirst]
    split <;> simp

end LinkedPart

namespace ScopedModule

/-- The parts of the text of a linked module. -/
def pieces (s : ScopedModule) : List LinkedPiece :=
  s.part.piecesFrom 0 s.program.body

/-- The variables for imports stand before all statements of the module. -/
def ImportsFirst (s : ScopedModule) : Prop :=
  s.pieces.Pairwise fun a b => b.bindsImports = true → a.isStatement = false

/-- A linked module is made of its parts. -/
theorem code_eq {s : ScopedModule} (placed : s.program.Placed s.part.source.toList)
    (hrecord : ModuleRecord.ofItems s.part.id s.part.source.toList s.part.defaultLocal s.program.items =
      .ok s.part.record)
    (hlinks : s.part.links = [] ∨ s.part.links.map (·.record) = s.part.record.imports) :
    s.part.code = String.ofList (s.pieces.flatMap (·.chars s.part.source.toList)) := by
  rw [LinkedPart.code, applyEdits_slots (LinkedPart.inOrder_slots placed.from)
    (LinkedPart.allEdits_perm placed hrecord hlinks), LinkedPart.joined_slots, pieces]

/-- The variables for imports stand before all statements just if no statement stands before an import that
needs some. -/
theorem importsFirst_iff (s : ScopedModule) : s.ImportsFirst ↔
    s.program.body.Pairwise fun m n => s.part.variablesAt n ≠ [] → m.stays = false :=
  LinkedPart.pairwise_piecesFrom_iff 0 s.program.body

end ScopedModule

section Bundle

variable {m : Type → Type} [Monad m] [LawfulMonad m]

/-- Each module of a bundle is made of its statements in their order, with the variables for imports in place
of these. So the variables stand before all statements of the module just if in the module no statement
stands before an import that needs a variable. -/
theorem bundle_importsFirst_iff (parse : String → Option Program) (input : InputPlugin m)
    (output : Option (OutputPlugin m)) (files : FileTree) (config : BundleConfig)
    (loads : String → Except BundleError String → Prop)
    (hloads : ∀ id, SatisfiesM (loads id) (input.loadCompiled files id)) :
    SatisfiesM (fun b => ∃ (l : ChunkLayout) (chunk : ChunkParts),
        l.Describes (input.project (fun code => (parse code).map Program.items) files config.basePath) loads
          parse (config.name.getD defaultBundleName)
          ⟨chunk.render (config.name.getD defaultBundleName) .es, none, b.modules⟩ ∧
        (output = none → b.code = chunk.render (config.name.getD defaultBundleName) config.format) ∧
        l.Leads ∧ ∀ s ∈ l.modules, s.program.Placed s.part.source.toList →
          s.part.code = String.ofList (s.pieces.flatMap (·.chars s.part.source.toList)) ∧
          (s.ImportsFirst ↔
            s.program.body.Pairwise fun m n => s.part.variablesAt n ≠ [] → m.stays = false))
      (bundle (fun code => (parse code).map Program.items) files config input output) := by
  refine SatisfiesM.imp (bundle_layout parse input output files config loads hloads) ?_
  rintro b ⟨l, chunk, hdescribes, hcode, leads, -⟩
  refine ⟨l, chunk, hdescribes, hcode, leads, fun s hs placed => ⟨?_, s.importsFirst_iff⟩⟩
  refine s.code_eq placed (hdescribes.record_eq s hs) ?_
  exact (hdescribes.links s hs).imp And.right fun h => h.2.1

end Bundle

/-! ## An import behind a statement -/

/-- A module with an import behind a use of it. -/
def lateFile : SourceFile where
  name := "a"
  text := "g;import \x7bf as g\x7d from './b';"
  program := {
    hashbang := none
    body := [.expr ⟨0, 2⟩ (.ident ⟨0, 1⟩ "g"),
      .importModule ⟨2, 29⟩ { specifiers := some [.named (.word "f") "g"], source := ⟨"./b", "./b", false⟩ }]
    comments := []
    size := 29 }

/-- The module that it imports. -/
def exportingFile : SourceFile where
  name := "b"
  text := "export const f=1;"
  program := {
    hashbang := none
    body := [.exportDecl ⟨0, 17⟩ (.var ⟨7, 17⟩ .constDecl
      [.declarator ⟨13, 16⟩ (.binding ⟨13, 14⟩ "f") (some (.number ⟨15, 16⟩ "1"))])]
    comments := []
    size := 17 }

/-- These modules. -/
def lateFiles : List SourceFile :=
  [lateFile, exportingFile]

theorem readable_lateFiles : SourceFile.Readable lateFiles where
  texts_eq := by decide +kernel
  source_eq := by decide +kernel
  refused := by decide +kernel
  ne_helper := by decide +kernel
  parse_eq := by
    simp only [lateFiles, List.forall_mem_cons]
    exact ⟨rfl, rfl, nofun⟩

theorem target_lateFiles :
    idlePlugin.target (.create (SourceFile.tree lateFiles) ⟨"."⟩ idlePlugin.config.extensions) "./b" "/a" =
      .ok (.module "/b") := by
  unfold InputPlugin.target ModuleResolver.resolve? ModuleResolver.resolveFrom?
  simp only [String.contains_char_eq]
  decide +kernel

theorem bundled_lateFiles : SourceFile.bundled lateFiles [⟨"/a"⟩] =
    .ok ⟨"// /b\nconst f=1;\n\n// /a\ng;var g = f;\n\n", none, ["/b", "/a"]⟩ := by
  have htarget : ∀ i ∈ [("b", "a")], idlePlugin.target
      (.create (SourceFile.tree lateFiles) ⟨"."⟩ idlePlugin.config.extensions) ("./" ++ i.1) ("/" ++ i.2) =
        .ok (.module ("/" ++ i.1)) :=
    List.forall_mem_singleton.2 target_lateFiles
  unfold SourceFile.bundled bundle InputPlugin.project
  dsimp only
  rw [eq_tabledTarget htarget]
  decide +kernel

/-- In a bundle of these modules, a name is used before its variable has a value. -/
theorem bundle_importsFirst_iff_late : ∃ (b : Bundle) (l : ChunkLayout),
    SourceFile.bundled lateFiles [⟨"/a"⟩] = .ok b ∧ b.code = "// /b\nconst f=1;\n\n// /a\ng;var g = f;\n\n" ∧
    l.Describes (SourceFile.project lateFiles) (SourceFile.Loads lateFiles) (SourceFile.parse lateFiles)
      defaultBundleName b ∧
    ∃ s ∈ l.modules, s.program.Placed s.part.source.toList ∧
      s.part.code = String.ofList (s.pieces.flatMap (·.chars s.part.source.toList)) ∧ ¬ s.ImportsFirst := by
  obtain ⟨l, chunk, hdescribes, hcode, leads, hmodules⟩ := SourceFile.of_bundled
    (bundle_importsFirst_iff (SourceFile.parse lateFiles) idlePlugin none (SourceFile.tree lateFiles)
      { entries := [⟨"/a"⟩] } (SourceFile.Loads lateFiles) readable_lateFiles.satisfiesM_loads)
    bundled_lateFiles
  rw [← hcode rfl] at hdescribes
  obtain ⟨s, hs, hlate⟩ := readable_lateFiles.exists_becomes hdescribes lateFile
    (by simp [lateFiles]) (by simp [SourceFile.id, lateFile])
  obtain ⟨q, hq, hexporting⟩ := readable_lateFiles.exists_becomes hdescribes exportingFile
    (by simp [lateFiles]) (by simp [SourceFile.id, exportingFile])
  have hplaced : s.program.Placed s.part.source.toList := by
    rw [hlate.program_eq, hlate.source_eq]
    decide +kernel
  obtain ⟨hparts, horder⟩ := hmodules s hs hplaced
  refine ⟨_, l, bundled_lateFiles, rfl, hdescribes, s, hs, hplaced, hparts, fun hfirst => ?_⟩
  obtain ⟨link, hlinks, hlink⟩ : ∃ link, s.part.links = [link] ∧
      (link.record.source, link.record.bindings) = ("./b", [.named "f" "g"]) := by
    have himports := hlate.imports_eq
    rw [← hlate.records_eq, List.map_map] at himports
    exact List.map_eq_singleton_iff.1 himports
  obtain ⟨hsource, hbindings⟩ := Prod.mk.inj hlink
  have hmem : link ∈ s.part.links := hlinks ▸ List.mem_singleton_self link
  have hspan : link.record.span = ⟨2, 29⟩ := by
    have hspans := (LinkedPart.edits_ofItems (hdescribes.record_eq s hs)).2
    rw [← hlate.records_eq, hlinks, hlate.program_eq] at hspans
    exact List.singleton_inj.1 hspans
  have htarget : link.target = .module q.part.id := by
    rcases hdescribes.links s hs with ⟨hhelper, -⟩ | ⟨-, -, hresolve⟩
    · exact absurd (hlate.id_eq.symm.trans hhelper) (by decide)
    · have hresolved := hresolve link hmem
      rw [hsource, hlate.id_eq] at hresolved
      rw [hexporting.id_eq]
      exact Except.ok.inj (hresolved.symm.trans target_lateFiles)
  have hvalue : q.part.linked.value q.part.id (.named "f" "g") = .ok "f" := by
    have hexports := ModuleRecord.exports_ofItems (hdescribes.record_eq q hq)
    rw [hexporting.program_eq] at hexports
    rw [LinkedModule.value_eq_ok rfl]
    change (lastOfEach q.part.record.exports).lookup "f" = some "f"
    rw [hexports]
    rfl
  have hpair : ("g", "f") ∈ link.aliases :=
    (ChunkLayout.mem_aliases_iff leads hdescribes.ids_nodup hs hmem).2
      ⟨.named "f" "g", hbindings ▸ List.mem_singleton_self _, rfl, q, hq, htarget, hvalue, by decide⟩
  have hpairs := horder.1 hfirst
  rw [hlate.program_eq] at hpairs
  have huse := (List.pairwise_cons.1 hpairs).1 _ (List.mem_singleton_self _) ?_
  · cases huse
  · intro hnone
    have hlinked (d : ImportDecl) : s.part.linkAt? (.importModule ⟨2, 29⟩ d) = some link := by
      rw [LinkedPart.linkAt?, hlinks]
      exact List.find?_cons_of_pos (decide_eq_true hspan)
    rw [LinkedPart.variablesAt, hlinked] at hnone
    exact List.ne_nil_of_mem hpair hnone

end ModuleBuild
