import Mathlib
import ModuleBuild.Compile.CommonJs
import ModuleBuild.Proofs.Answer
import ModuleBuild.Proofs.Text.Slots

/-!
# The text of a module without module syntax

A module is its statements and what stands between them. Its rewrite keeps all of that except imports and
exports, in whose places it writes statements of its own. The assignments behind an exported declaration
are made at a position, the end of the declaration; where an edit of the next statement starts at the same
position, that edit comes first, and the assignments are dropped as if they were inside of it.

## Main definitions

* `Program.Placed` — the statements of a program stand in order in its source.
* `WrittenLine`, `RewrittenPart` — statements that the rewrite writes, and the parts of its text.
* `Program.rewritten` — the parts of the text that the rewrite gives.

## Main statements

* `applyEdits_commonJsEdits` — the edits give this text.
-/

namespace ModuleBuild

open Script Text

/-! ## Statements in their source -/

namespace Script

/-- Whether a statement is an import or an export. -/
def ModuleItem.isModuleSyntax : ModuleItem → Bool
  | .declaration .. | .other _ => false
  | _ => true

/-- Where the value or the declaration of an export starts, which stays. -/
def ModuleItem.keptStart? : ModuleItem → Option Nat
  | .exportDefault _ start _ | .exportDeclaration _ start _ => some start
  | _ => none

/-- A statement is a part of a source that splits no character, and of an export something is not part of
the value or the declaration. -/
structure Node.Placed (source : List Char) (n : Node) : Prop where
  start_lt : n.span.start < n.span.stop
  start_boundary : OnBoundary source n.span.start
  stop_boundary : OnBoundary source n.span.stop
  kept : ∀ start ∈ (ModuleItem.ofNode n).keptStart?,
    n.span.start < start ∧ start < n.span.stop ∧ OnBoundary source start

instance (source : List Char) (n : Node) : Decidable (n.Placed source) :=
  decidable_of_iff (n.span.start < n.span.stop ∧ OnBoundary source n.span.start ∧
      OnBoundary source n.span.stop ∧ ∀ start ∈ (ModuleItem.ofNode n).keptStart?,
        n.span.start < start ∧ start < n.span.stop ∧ OnBoundary source start)
    ⟨fun ⟨lt, start, stop, kept⟩ => ⟨lt, start, stop, kept⟩,
      fun ⟨lt, start, stop, kept⟩ => ⟨lt, start, stop, kept⟩⟩

/-- The statements of a program stand in order in its source. -/
structure Program.Placed (source : List Char) (p : Program) : Prop where
  inOrder : p.body.Pairwise fun a b => a.span.stop ≤ b.span.start
  placed : ∀ n ∈ p.body, n.Placed source

instance (source : List Char) (p : Program) : Decidable (p.Placed source) :=
  decidable_of_iff (p.body.Pairwise (fun a b => a.span.stop ≤ b.span.start) ∧
      ∀ n ∈ p.body, n.Placed source)
    ⟨fun ⟨order, placed⟩ => ⟨order, placed⟩, fun ⟨order, placed⟩ => ⟨order, placed⟩⟩

/-- Statements stand in order behind a position. -/
inductive PlacedFrom (source : List Char) : Nat → List Node → Prop
  | nil {cursor : Nat} (boundary : OnBoundary source cursor) : PlacedFrom source cursor []
  | cons {cursor : Nat} {n : Node} {rest : List Node} (boundary : OnBoundary source cursor)
    (le : cursor ≤ n.span.start) (placed : n.Placed source) (behind : PlacedFrom source n.span.stop rest) :
    PlacedFrom source cursor (n :: rest)

theorem PlacedFrom.boundary {source : List Char} {cursor : Nat} {nodes : List Node}
    (h : PlacedFrom source cursor nodes) : OnBoundary source cursor := by
  cases h with
  | nil boundary => exact boundary
  | cons boundary => exact boundary

theorem Program.Placed.from {source : List Char} {p : Program} (h : p.Placed source) :
    PlacedFrom source 0 p.body := by
  obtain ⟨inOrder, placed⟩ := h
  generalize p.body = nodes at inOrder placed
  have hstart : OnBoundary source 0 := onBoundary_zero source
  have hle : ∀ n ∈ nodes, 0 ≤ n.span.start := fun _ _ => Nat.zero_le _
  generalize 0 = cursor at hstart hle ⊢
  induction nodes generalizing cursor with
  | nil => exact .nil hstart
  | cons n rest ih =>
    have hn := placed n List.mem_cons_self
    rw [List.pairwise_cons] at inOrder
    exact .cons hstart (hle n List.mem_cons_self) hn
      (ih inOrder.2 (fun m hm => placed m (List.mem_cons_of_mem n hm)) _ hn.stop_boundary inOrder.1)

end Script

/-! ## Parts of the rewritten text -/

/-- The variable that holds a module of which exports are taken. -/
def reexportVariable (number : Nat) : String :=
  "_reexport" ++ toString number

/-- A statement that the rewrite writes. -/
inductive WrittenLine where
  | load (source : String)
  /-- A variable for a binding of an import. -/
  | importVariable (source : String) (binding : ImportBinding)
  /-- A variable for a module of which exports are taken. -/
  | holdModule (number : Nat) (source : String)
  | assignVariable (exported name : String)
  /-- Assigns an export of a module that a variable holds. -/
  | assignMember (number : Nat) (exported imported : String)
  | assignModule (exported source : String)
  /-- Assigns all exports of a module but the default value. -/
  | copyAll (source : String)
  deriving DecidableEq, Repr

/-- The text of such a statement. -/
def WrittenLine.text : WrittenLine → String
  | load source => requireCall source ++ ";"
  | importVariable source binding => requireLine source binding
  | holdModule number source => "var " ++ reexportVariable number ++ " = " ++ requireCall source ++ ";"
  | assignVariable exported name => exportLine exported name
  | assignMember number exported imported =>
    exportLine exported (reexportVariable number ++ "[" ++ quote imported ++ "]")
  | assignModule exported source => exportLine exported (requireCall source)
  | copyAll source => exportAllText none source

/-- What is written in place of an import, of an export list or of an export of a whole module. -/
def Script.ModuleItem.lines (number : Nat) : ModuleItem → List WrittenLine
  | .importFrom _ source [] => [.load source]
  | .importFrom _ source bindings => bindings.map (.importVariable source)
  | .exportList _ names none => names.map fun (l, exported) => .assignVariable exported l
  | .exportList _ names (some source) =>
    .holdModule number source :: names.map fun (l, exported) => .assignMember number exported l
  | .exportAll _ (some exported) source => [.assignModule exported source]
  | .exportAll _ none source => [.copyAll source]
  | _ => []

/-- A part of the rewritten text. -/
inductive RewrittenPart where
  /-- What stands between two statements. -/
  | gap (start stop : Nat)
  /-- What stands behind the last statement. -/
  | tail (start : Nat)
  /-- A statement that stays as it is. -/
  | kept (n : Node)
  /-- An assignment to the export `default`, without a semicolon of its own. -/
  | defaultValue (n : Node) (start : Nat)
  /-- A declaration without its `export`. -/
  | declaration (n : Node) (start : Nat)
  | assignments (names : List String)
  | lines (ls : List WrittenLine)

/-- The assignments of exported variables behind their declaration. -/
def assignmentText (names : List String) : String :=
  String.join (names.map fun name => "\nexports." ++ name ++ " = " ++ name ++ ";")

/-- What is written before a default value. -/
def defaultAssignment : String :=
  "exports.default = "

/-- The text of a part. -/
def RewrittenPart.chars (source : List Char) : RewrittenPart → List Char
  | gap start stop => sliceBytes start stop source
  | tail start => dropBytes start source
  | kept n => sliceBytes n.span.start n.span.stop source
  | defaultValue n start => defaultAssignment.toList ++ sliceBytes start n.span.stop source
  | declaration n start => sliceBytes start n.span.stop source
  | assignments names => (assignmentText names).toList
  | lines ls => ("\n".intercalate (ls.map (·.text))).toList

namespace Script

/-- The part that stands for a statement. -/
def Node.part (number : Nat) (n : Node) : RewrittenPart :=
  match ModuleItem.ofNode n with
  | .declaration .. | .other _ => .kept n
  | .exportDefault _ start _ => .defaultValue n start
  | .exportDeclaration _ start _ => .declaration n start
  | item => .lines (item.lines number)

/-- The names that are assigned behind an exported declaration. -/
def Node.declaredExports (n : Node) : List String :=
  match ModuleItem.ofNode n with
  | .exportDeclaration _ _ names => names.getD []
  | _ => []

/-- Whether the first of some statements is an import or an export that starts at a position. -/
def startsWithModuleSyntax (start : Nat) : List Node → Bool
  | [] => false
  | next :: _ => (ModuleItem.ofNode next).isModuleSyntax && next.span.start == start

/-- The number of the next statement that takes exports from a module. -/
def Node.numberBehind (number : Nat) (n : Node) : Nat :=
  if takesExports (ModuleItem.ofNode n) then number + 1 else number

/-- The parts of statements and of what stands before them from a position on. The assignments behind a
declaration are lost where module syntax follows directly. -/
def rewrittenFrom : (cursor number : Nat) → List Node → List RewrittenPart
  | cursor, _, [] => [.tail cursor]
  | cursor, number, n :: rest =>
    .gap cursor n.span.start :: n.part number ::
      (if startsWithModuleSyntax n.span.stop rest then [] else [.assignments n.declaredExports]) ++
      rewrittenFrom n.span.stop (n.numberBehind number) rest

/-- The parts of the rewritten text. -/
def Program.rewritten (p : Program) : List RewrittenPart :=
  rewrittenFrom 0 1 p.body

end Script

/-! ## Edits in order -/

namespace Script

/-- The edit at the start of a statement. -/
def Node.ownEdit? (number : Nat) (n : Node) : Option Edit :=
  match ModuleItem.ofNode n with
  | .declaration .. | .other _ => none
  | .exportDefault _ start _ => some ⟨n.span.start, start, defaultAssignment⟩
  | .exportDeclaration _ start _ => some ⟨n.span.start, start, ""⟩
  | item => some ⟨n.span.start, n.span.stop, "\n".intercalate ((item.lines number).map (·.text))⟩

/-- The edit at the end of a statement. -/
def Node.insertion? (n : Node) : Option Edit :=
  match ModuleItem.ofNode n with
  | .exportDeclaration .. => some ⟨n.span.stop, n.span.stop, assignmentText n.declaredExports⟩
  | _ => none

/-- The edits of statements. -/
def editsFrom : Nat → List Node → List Edit
  | _, [] => []
  | number, n :: rest =>
    (n.ownEdit? number).toList ++ n.insertion?.toList ++ editsFrom (n.numberBehind number) rest

theorem ModuleItem.span_ofNode (n : Node) : (ModuleItem.ofNode n).span = n.span := by
  unfold ModuleItem.ofNode
  split <;> rfl

theorem Node.commonJsEdits_eq {number : Nat} {n : Node} {edits : List Edit}
    (h : (ModuleItem.ofNode n).commonJsEdits number = .ok edits) :
    edits = (n.ownEdit? number).toList ++ n.insertion?.toList := by
  unfold Node.ownEdit? Node.insertion? Node.declaredExports
  rw [← ModuleItem.span_ofNode n]
  cases hitem : ModuleItem.ofNode n with
  | importFrom span source bindings =>
    rw [hitem] at h
    obtain rfl := Except.ok.inj h
    cases bindings with
    | nil => rfl
    | cons b rest =>
      simp [ModuleItem.lines, ModuleItem.span, importLines, WrittenLine.text, Function.comp_def]
  | exportDefault span start name =>
    rw [hitem] at h
    exact (Except.ok.inj h).symm
  | exportDeclaration span start names =>
    rw [hitem] at h
    cases names with
    | none => cases h
    | some names => exact (Except.ok.inj h).symm
  | exportList span names source =>
    rw [hitem] at h
    obtain rfl := Except.ok.inj h
    cases source with
    | none =>
      simp [ModuleItem.lines, ModuleItem.span, exportListLines, WrittenLine.text, Function.comp_def]
    | some source =>
      simp [ModuleItem.lines, ModuleItem.span, exportListLines, WrittenLine.text, Function.comp_def,
        reexportVariable]
  | exportAll span exported source =>
    rw [hitem] at h
    obtain rfl := Except.ok.inj h
    cases exported <;> simp [ModuleItem.lines, ModuleItem.span, exportAllText, WrittenLine.text]
  | declaration span names =>
    rw [hitem] at h
    exact (Except.ok.inj h).symm
  | other span =>
    rw [hitem] at h
    exact (Except.ok.inj h).symm

theorem commonJsEditsFrom_eq {number : Nat} {nodes : List Node} {edits : List Edit}
    (h : commonJsEditsFrom number (nodes.map ModuleItem.ofNode) = .ok edits) :
    edits = editsFrom number nodes := by
  induction nodes generalizing number edits with
  | nil => exact (Except.ok.inj h).symm
  | cons n rest ih =>
    obtain ⟨own, hown, h⟩ := bind_eq_ok.mp h
    obtain ⟨more, hmore, h⟩ := bind_eq_ok.mp h
    obtain rfl := Except.ok.inj h
    rw [Node.commonJsEdits_eq hown, ih hmore, editsFrom, Node.numberBehind]

/-- What is kept of a statement starts inside of it. -/
theorem Node.Placed.keptStart {source : List Char} {n : Node} (h : n.Placed source) {item : ModuleItem}
    (hitem : ModuleItem.ofNode n = item) {start : Nat} (hstart : item.keptStart? = some start) :
    n.span.start < start ∧ start ≤ n.span.stop ∧ OnBoundary source start := by
  subst hitem
  obtain ⟨hlt, hstop, hboundary⟩ := h.kept start hstart
  exact ⟨hlt, hstop.le, hboundary⟩

/-- The edit at the start of a statement is inside of it and not empty. -/
theorem Node.Placed.ownEdit {source : List Char} {n : Node} (h : n.Placed source) {number : Nat} {e : Edit}
    (he : n.ownEdit? number = some e) :
    e.start = n.span.start ∧ e.start < e.stop ∧ e.stop ≤ n.span.stop ∧ OnBoundary source e.stop := by
  unfold Node.ownEdit? at he
  split at he
  · cases he
  · cases he
  · rename_i hitem
    obtain rfl := Option.some.inj he
    exact ⟨rfl, h.keptStart hitem rfl⟩
  · rename_i hitem
    obtain rfl := Option.some.inj he
    exact ⟨rfl, h.keptStart hitem rfl⟩
  · obtain rfl := Option.some.inj he
    exact ⟨rfl, h.start_lt, le_rfl, h.stop_boundary⟩

/-- A statement with its edits. -/
def Node.slot (number : Nat) (n : Node) : EditSlot where
  start := n.span.start
  stop := n.span.stop
  head? := (n.ownEdit? number).map fun e => (e.stop, e.text)
  close? := n.insertion?.map (·.text)

/-- Statements with their edits. -/
def slotsFrom : Nat → List Node → List EditSlot
  | _, [] => []
  | number, n :: rest => n.slot number :: slotsFrom (n.numberBehind number) rest

theorem Node.edits_slot (number : Nat) (n : Node) :
    (n.slot number).edits = (n.ownEdit? number).toList ++ n.insertion?.toList := by
  unfold EditSlot.edits EditSlot.headEdit? EditSlot.closeEdit? slot ownEdit? insertion?
  cases ModuleItem.ofNode n <;> rfl

theorem editsFrom_eq (number : Nat) (nodes : List Node) :
    editsFrom number nodes = (slotsFrom number nodes).flatMap EditSlot.edits := by
  induction nodes generalizing number with
  | nil => rfl
  | cons n rest ih => rw [editsFrom, slotsFrom, List.flatMap_cons, n.edits_slot, ih]

theorem PlacedFrom.inOrder {source : List Char} {cursor : Nat} {nodes : List Node}
    (h : PlacedFrom source cursor nodes) (number : Nat) :
    EditSlot.InOrder source cursor (slotsFrom number nodes) := by
  induction h generalizing number with
  | nil boundary => exact .nil boundary
  | @cons cursor n rest boundary le placed _ ih =>
    refine .cons boundary le ⟨placed.start_lt, placed.start_boundary, placed.stop_boundary, ?_⟩ (ih _)
    rintro _ hhead
    obtain ⟨e, he, rfl⟩ := Option.map_eq_some_iff.1 hhead
    obtain ⟨hstart, hlt, hstop, hboundary⟩ := placed.ownEdit he
    exact ⟨hstart.symm.trans_lt hlt, hstop, hboundary⟩

/-! ## The rewritten text -/

/-- The part of a statement is the text of its edit and what the edit leaves of it. -/
theorem Node.chars_part {number : Nat} {n : Node} {e : Edit} (h : n.ownEdit? number = some e)
    (source : List Char) :
    (n.part number).chars source = e.text.toList ++ sliceBytes e.stop n.span.stop source := by
  unfold Node.ownEdit? at h
  unfold Node.part
  cases hitem : ModuleItem.ofNode n with
  | declaration | other => simp [hitem] at h
  | exportDefault span start name =>
    simp only [hitem, Option.some.injEq] at h
    rw [← h, RewrittenPart.chars]
  | exportDeclaration span start names =>
    simp only [hitem, Option.some.injEq] at h
    rw [← h, RewrittenPart.chars, String.toList_empty, List.nil_append]
  | importFrom | exportList | exportAll =>
    simp only [hitem, Option.some.injEq] at h
    rw [← h, RewrittenPart.chars, sliceBytes_self, List.append_nil]

theorem Node.isModuleSyntax_eq (number : Nat) (n : Node) :
    (ModuleItem.ofNode n).isModuleSyntax = (n.ownEdit? number).isSome := by
  unfold Node.ownEdit?
  cases ModuleItem.ofNode n <;> rfl

/-- A statement without an edit stays as it is. -/
theorem Node.part_of_kept {number : Nat} {n : Node} (h : n.ownEdit? number = none) :
    n.part number = .kept n ∧ n.insertion? = none ∧ n.declaredExports = [] := by
  unfold Node.ownEdit? at h
  unfold Node.part Node.insertion? Node.declaredExports
  cases hitem : ModuleItem.ofNode n with
  | declaration | other => exact ⟨rfl, rfl, rfl⟩
  | _ => simp [hitem] at h

/-- The edit at the end of a declaration writes the assignments behind it. -/
theorem Node.chars_assignments (n : Node) (source : List Char) :
    (n.insertion?.map (·.text.toList)).getD [] =
      (RewrittenPart.assignments n.declaredExports).chars source := by
  rw [RewrittenPart.chars]
  unfold Node.insertion?
  cases hitem : ModuleItem.ofNode n with
  | exportDeclaration span start names => rfl
  | _ => simp [Node.declaredExports, hitem, assignmentText]

theorem Node.chars_slot (number : Nat) (n : Node) (source : List Char) :
    (n.slot number).chars source = (n.part number).chars source := by
  cases hown : n.ownEdit? number with
  | none =>
    have hhead : (n.slot number).head? = none := Option.map_eq_none_iff.2 hown
    rw [EditSlot.chars, hhead, (n.part_of_kept hown).1]
    rfl
  | some e =>
    have hhead : (n.slot number).head? = some (e.stop, e.text) := Option.map_eq_some_iff.2 ⟨e, hown, rfl⟩
    rw [EditSlot.chars, hhead, n.chars_part hown]
    rfl

theorem startsWithEdit_slotsFrom (position number : Nat) (nodes : List Node) :
    EditSlot.startsWithEdit position (slotsFrom number nodes) = startsWithModuleSyntax position nodes := by
  cases nodes with
  | nil => rfl
  | cons n rest =>
    rw [startsWithModuleSyntax, n.isModuleSyntax_eq number, slotsFrom, EditSlot.startsWithEdit, Node.slot,
      Option.isSome_map]

/-- The edits of statements give the parts of the rewrite. -/
theorem joined_slotsFrom (source : List Char) (cursor number : Nat) (nodes : List Node) :
    EditSlot.joined source cursor (slotsFrom number nodes) =
      (rewrittenFrom cursor number nodes).flatMap (·.chars source) := by
  induction nodes generalizing cursor number with
  | nil => simp [slotsFrom, EditSlot.joined, rewrittenFrom, RewrittenPart.chars]
  | cons n rest ih =>
    have hclosing : (n.slot number).closing = (RewrittenPart.assignments n.declaredExports).chars source := by
      rw [← n.chars_assignments source, EditSlot.closing, Node.slot, Option.map_map]
      rfl
    rw [slotsFrom, EditSlot.joined, ih, startsWithEdit_slotsFrom, n.chars_slot, hclosing, rewrittenFrom]
    change sliceBytes cursor n.span.start source ++ _ ++
      (if startsWithModuleSyntax n.span.stop rest then _ else _) ++ _ = _
    split <;> simp [RewrittenPart.chars, Node.slot]

/-- The edits of a module give the parts of its rewrite. -/
theorem applyEdits_commonJsEdits {source : String} {p : Program} (h : p.Placed source.toList)
    {edits : List Edit} (hedits : commonJsEdits p.items = .ok edits) :
    applyEdits source edits = String.ofList (p.rewritten.flatMap (·.chars source.toList)) := by
  have hlisted : edits = (slotsFrom 1 p.body).flatMap EditSlot.edits := by
    rw [commonJsEditsFrom_eq hedits, editsFrom_eq]
  rw [applyEdits_slots (h.from.inOrder 1) (hlisted ▸ .refl _), joined_slotsFrom, Program.rewritten]

end Script

end ModuleBuild
