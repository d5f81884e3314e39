import Mathlib
import ModuleBuild.Proofs.Compile.CommonJs
import ModuleBuild.Proofs.Linking.Scope

/-!
# The exports of a module without module syntax

When the rewrite of a module is run, its statements assign to `exports` what the module exports, each
export once and with its value. The assignments behind an exported declaration are missing where an import
or export follows without a space between them.

## Main definitions

* `ModuleExport` — an export with its value.
* `ModuleItem.moduleExports` — what a statement of a module exports.
* `RewrittenPart.run` — what a part of the rewrite assigns to `exports`.
* `Program.LosesExports` — module syntax follows an exported declaration directly.

## Main statements

* `run_rewrittenFrom` — what the rewrite of some statements assigns.
* `commonJs_exports_iff` — the rewrite assigns all exports of a module just if it loses none in this way.
-/

namespace ModuleBuild

open Script Text

/-! ## Exports and their values -/

/-- What an export of a module gives. -/
inductive ExportValue where
  | variable (name : String)
  /-- The value of the text between two positions of the module. -/
  | valueAt (start stop : Nat)
  /-- An export of another module. -/
  | member (source imported : String)
  | wholeModule (source : String)
  deriving DecidableEq, Repr

/-- An export of a module. -/
inductive ModuleExport where
  | named (name : String) (value : ExportValue)
  /-- All exports of another module but its default value. -/
  | everything (source : String)
  deriving DecidableEq, Repr

/-- The name of an export, if it has one name. -/
def ModuleExport.name? : ModuleExport → Option String
  | named name _ => some name
  | everything _ => none

namespace Script

/-- What a statement exports. -/
def ModuleItem.moduleExports : ModuleItem → List ModuleExport
  | .exportDefault span start _ => [.named "default" (.valueAt start span.stop)]
  | .exportDeclaration _ _ names => (names.getD []).map fun name => .named name (.variable name)
  | .exportList _ names none => names.map fun (l, exported) => .named exported (.variable l)
  | .exportList _ names (some source) =>
    names.map fun (l, exported) => .named exported (.member source l)
  | .exportAll _ (some exported) source => [.named exported (.wholeModule source)]
  | .exportAll _ none source => [.everything source]
  | .importFrom .. | .declaration .. | .other _ => []

/-- What a module exports. -/
def Program.moduleExports (p : Program) : List ModuleExport :=
  p.items.flatMap (·.moduleExports)

/-- No exported declaration of an accepted module has patterns. -/
theorem plain_of_commonJsEditsFrom {number : Nat} {nodes : List Node} {edits : List Edit}
    (h : commonJsEditsFrom number (nodes.map ModuleItem.ofNode) = .ok edits) {n : Node} (hn : n ∈ nodes)
    {span : Span} {start : Nat} : ModuleItem.ofNode n ≠ .exportDeclaration span start none := by
  induction nodes generalizing number edits with
  | nil => cases hn
  | cons m rest ih =>
    obtain ⟨own, hown, h⟩ := bind_eq_ok.mp h
    obtain ⟨more, hmore, -⟩ := bind_eq_ok.mp h
    rcases List.mem_cons.mp hn with rfl | hn
    · intro hitem
      rw [hitem] at hown
      cases hown
    · exact ih hmore hn

/-- The exports with names are those by which a parser finds that two exports of a module have one. -/
theorem filterMap_moduleExports {n : Node} (fuel : Nat)
    (h : ∀ span start, ModuleItem.ofNode n ≠ .exportDeclaration span start none) :
    (ModuleItem.ofNode n).moduleExports.filterMap ModuleExport.name? = exportedNames (fuel + 1) n := by
  unfold ModuleItem.ofNode at h ⊢
  split at h
  case h_3 span d =>
    obtain ⟨names, hnames⟩ := Option.ne_none_iff_exists'.mp fun hnone => h _ _ (congrArg _ hnone)
    simp [ModuleItem.moduleExports, exportedNames, hnames, declaredNames_of_plain hnames,
      ModuleExport.name?, Function.comp_def]
  case h_4 span specifiers source attributes =>
    cases source <;>
      simp [ModuleItem.moduleExports, exportedNames, ModuleExport.name?, Function.comp_def]
  case h_5 span exported source attributes =>
    cases exported <;> simp [ModuleItem.moduleExports, exportedNames, ModuleExport.name?]
  case h_8 himport hdefault hdecl hlist hall hvar hother =>
    unfold exportedNames
    split
    · exact (hdecl _ _ rfl).elim
    · exact (hlist _ _ _ _ rfl).elim
    · exact (hall _ _ _ _ rfl).elim
    · exact (hdefault _ _ rfl).elim
    · rfl
  all_goals rfl

/-- An exported declaration that module syntax follows without anything between them. -/
def Node.RunsInto (n next : Node) : Prop :=
  n.declaredExports ≠ [] ∧ (ModuleItem.ofNode next).isModuleSyntax = true ∧ next.span.start = n.span.stop

/-- Some exported declaration runs into the statement behind it. -/
def LosesExports (nodes : List Node) : Prop :=
  ∃ n next, [n, next] <:+: nodes ∧ n.RunsInto next

end Script

/-! ## Running the rewrite -/

/-- What the statements so far have done. -/
structure ExportRun where
  /-- The modules that variables hold, by the numbers of these. -/
  held : List (Nat × String) := []
  assigned : List ModuleExport := []

namespace ExportRun

/-- Assigns exports. -/
def assign (r : ExportRun) (es : List ModuleExport) : ExportRun :=
  { r with assigned := r.assigned ++ es }

@[simp] theorem assigned_assign (r : ExportRun) (es : List ModuleExport) :
    (r.assign es).assigned = r.assigned ++ es := rfl

@[simp] theorem held_assign (r : ExportRun) (es : List ModuleExport) : (r.assign es).held = r.held := rfl

@[simp] theorem assign_nil (r : ExportRun) : r.assign [] = r := by
  simp [assign]

theorem assign_assign (r : ExportRun) (es more : List ModuleExport) :
    (r.assign es).assign more = r.assign (es ++ more) := by
  simp [assign]

end ExportRun

/-- Runs a written statement. -/
def WrittenLine.run (r : ExportRun) : WrittenLine → ExportRun
  | load _ | importVariable .. => r
  | holdModule number source => { r with held := (number, source) :: r.held }
  | assignVariable exported name => r.assign [.named exported (.variable name)]
  | assignMember number exported imported =>
    r.assign ((r.held.lookup number).toList.map fun source => .named exported (.member source imported))
  | assignModule exported source => r.assign [.named exported (.wholeModule source)]
  | copyAll source => r.assign [.everything source]

/-- Runs a part of the rewrite. Of what stays of a module nothing assigns an export. -/
def RewrittenPart.run (r : ExportRun) : RewrittenPart → ExportRun
  | gap .. | tail _ | kept _ | declaration .. => r
  | defaultValue n start => r.assign [.named "default" (.valueAt start n.span.stop)]
  | assignments names => r.assign (names.map fun name => .named name (.variable name))
  | lines ls => ls.foldl WrittenLine.run r

/-- What the rewrite of a module assigns to `exports`. -/
def Script.Program.assignedExports (p : Program) : List ModuleExport :=
  (p.rewritten.foldl RewrittenPart.run {}).assigned

/-- Lines that each assign one export assign all of them. -/
theorem foldl_run_of_assign {α : Type} (line : α → WrittenLine) (e : α → ModuleExport)
    (held : List (Nat × String))
    (h : ∀ a (r : ExportRun), r.held = held → (line a).run r = r.assign [e a]) (items : List α)
    {r : ExportRun} (hr : r.held = held) :
    (items.map line).foldl WrittenLine.run r = r.assign (items.map e) := by
  induction items generalizing r with
  | nil => simp
  | cons a rest ih =>
    have hnext : (r.assign [e a]).held = held := hr
    rw [List.map_cons, List.foldl_cons, h a r hr, ih hnext, ExportRun.assign_assign]
    rfl

namespace Script

/-- The statements in place of an import, of an export list or of an export of a whole module assign what
it exports. -/
theorem ModuleItem.run_lines (item : ModuleItem) (number : Nat) (r : ExportRun)
    (h : item.isModuleSyntax = true) (hkept : item.keptStart? = none) :
    ((item.lines number).foldl WrittenLine.run r).assigned = r.assigned ++ item.moduleExports := by
  cases item with
  | importFrom span source bindings =>
    have hrun : ∀ bindings : List ImportBinding,
        (bindings.map (WrittenLine.importVariable source)).foldl WrittenLine.run r = r := by
      intro bindings
      induction bindings with
      | nil => rfl
      | cons b rest ih => exact ih
    cases bindings with
    | nil => simp [ModuleItem.lines, ModuleItem.moduleExports, WrittenLine.run]
    | cons b rest =>
      rw [ModuleItem.lines, hrun]
      · simp [ModuleItem.moduleExports]
      · simp
  | exportList span names source =>
    cases source with
    | none =>
      rw [ModuleItem.lines, foldl_run_of_assign _ (fun e => .named e.2 (.variable e.1)) r.held
        (fun _ _ _ => rfl) names rfl]
      rfl
    | some source =>
      have hheld : ∀ (e : String × String) (r' : ExportRun), r'.held = (number, source) :: r.held →
          (WrittenLine.assignMember number e.2 e.1).run r' =
            r'.assign [.named e.2 (.member source e.1)] := by
        intro e r' hr'
        simp [WrittenLine.run, hr']
      rw [ModuleItem.lines, List.foldl_cons, foldl_run_of_assign _ _ _ hheld names rfl]
      rfl
  | exportAll span exported source =>
    cases exported <;> rfl
  | exportDefault | exportDeclaration => cases hkept
  | declaration | other => cases h

/-- The part of a statement assigns what it exports, unless this waits for the end of a declaration. -/
theorem Node.run_part (n : Node) (number : Nat) (r : ExportRun) :
    ((n.part number).run r).assigned =
      r.assigned ++ if n.declaredExports = [] then (ModuleItem.ofNode n).moduleExports else [] := by
  have hspan := ModuleItem.span_ofNode n
  unfold Node.part Node.declaredExports
  cases hitem : ModuleItem.ofNode n with
  | declaration | other => simp [RewrittenPart.run, ModuleItem.moduleExports]
  | exportDefault span start name =>
    rw [hitem] at hspan
    simp [RewrittenPart.run, ModuleItem.moduleExports, ← hspan, ModuleItem.span]
  | exportDeclaration span start names =>
    have hnone : names.getD [] = [] →
        (ModuleItem.exportDeclaration span start names).moduleExports = [] := by
      intro hnames
      simp [ModuleItem.moduleExports, hnames]
    simp only [RewrittenPart.run]
    split
    · rename_i hnames
      rw [hnone hnames, List.append_nil]
    · rw [List.append_nil]
  | importFrom | exportList | exportAll =>
    rw [if_pos rfl]
    exact ModuleItem.run_lines _ number r rfl rfl

/-- The assignments behind a declaration are what it exports. -/
theorem Node.moduleExports_of_declared {n : Node} (h : n.declaredExports ≠ []) :
    (ModuleItem.ofNode n).moduleExports = n.declaredExports.map fun name => .named name (.variable name) := by
  unfold Node.declaredExports at h ⊢
  split at h
  · rename_i hitem
    rw [hitem]
    rfl
  · exact (h rfl).elim

/-- What the rewrite of statements assigns. -/
def assignedFrom : List Node → List ModuleExport
  | [] => []
  | n :: rest =>
    (if n.declaredExports ≠ [] ∧ startsWithModuleSyntax n.span.stop rest = true then []
      else (ModuleItem.ofNode n).moduleExports) ++ assignedFrom rest

theorem run_rewrittenFrom (cursor number : Nat) (nodes : List Node) (r : ExportRun) :
    ((rewrittenFrom cursor number nodes).foldl RewrittenPart.run r).assigned =
      r.assigned ++ assignedFrom nodes := by
  induction nodes generalizing cursor number r with
  | nil => simp [rewrittenFrom, assignedFrom, RewrittenPart.run]
  | cons n rest ih =>
    have hpart := n.run_part number r
    rw [rewrittenFrom, List.cons_append, List.cons_append, List.foldl_cons, List.foldl_cons,
      List.foldl_append, ih, assignedFrom, ← List.append_assoc]
    congr 1
    change (List.foldl RewrittenPart.run ((n.part number).run r) _).assigned = _
    by_cases hnames : n.declaredExports = []
    · rw [if_pos hnames] at hpart
      have hkept : ¬ (n.declaredExports ≠ [] ∧ startsWithModuleSyntax n.span.stop rest = true) :=
        fun h => h.1 hnames
      rw [if_neg hkept, ← hpart, hnames]
      split <;> simp [RewrittenPart.run]
    · rw [if_neg hnames, List.append_nil] at hpart
      by_cases hfollows : startsWithModuleSyntax n.span.stop rest = true
      · rw [if_pos hfollows, if_pos ⟨hnames, hfollows⟩, List.foldl_nil, hpart, List.append_nil]
      · rw [if_neg hfollows, if_neg (fun h => hfollows h.2), List.foldl_cons, List.foldl_nil,
          RewrittenPart.run, ExportRun.assigned_assign, hpart, n.moduleExports_of_declared hnames]

theorem assignedFrom_sublist (nodes : List Node) :
    (assignedFrom nodes).Sublist ((nodes.map ModuleItem.ofNode).flatMap (·.moduleExports)) := by
  induction nodes with
  | nil => exact .slnil
  | cons n rest ih =>
    rw [assignedFrom, List.map_cons, List.flatMap_cons]
    refine List.Sublist.append ?_ ih
    split
    · exact List.nil_sublist _
    · exact .refl _

theorem losesExports_cons {n : Node} {rest : List Node} : LosesExports (n :: rest) ↔
    (n.declaredExports ≠ [] ∧ startsWithModuleSyntax n.span.stop rest = true) ∨ LosesExports rest := by
  have hfollows : (∃ next, [next] <+: rest ∧ n.RunsInto next) ↔
      n.declaredExports ≠ [] ∧ startsWithModuleSyntax n.span.stop rest = true := by
    cases rest <;> simp [Node.RunsInto, startsWithModuleSyntax]
  simp only [LosesExports, List.infix_cons_iff, List.cons_prefix_cons, or_and_right, exists_or,
    and_assoc, exists_and_left, exists_eq_left, hfollows]

/-- All exports are assigned just if no declaration runs into the statement behind it. -/
theorem assignedFrom_eq_iff (nodes : List Node) :
    assignedFrom nodes = (nodes.map ModuleItem.ofNode).flatMap (·.moduleExports) ↔
      ¬ LosesExports nodes := by
  induction nodes with
  | nil => simp [assignedFrom, LosesExports]
  | cons n rest ih =>
    rw [losesExports_cons, not_or, ← ih, assignedFrom, List.map_cons, List.flatMap_cons]
    by_cases hlost : n.declaredExports ≠ [] ∧ startsWithModuleSyntax n.span.stop rest = true
    · have hlength := (assignedFrom_sublist rest).length_le
      have hmore : 0 < (ModuleItem.ofNode n).moduleExports.length := by
        rw [n.moduleExports_of_declared hlost.1, List.length_map]
        exact List.length_pos_of_ne_nil hlost.1
      rw [if_pos hlost, List.nil_append]
      refine iff_of_false (fun heq => ?_) fun h => h.1 hlost
      have heq := congrArg List.length heq
      rw [List.length_append] at heq
      omega
    · rw [if_neg hlost, List.append_cancel_left_eq]
      exact ⟨fun h => ⟨hlost, h⟩, fun h => h.2⟩

end Script

/-! ## Parts of the rewrite -/

/-- The statement of which a part has something. -/
def RewrittenPart.node? : RewrittenPart → Option Node
  | kept n | defaultValue n _ | declaration n _ => some n
  | gap .. | tail _ | assignments _ | lines _ => none

namespace Script

theorem Node.eq_of_node?_part {m n : Node} {k : Nat} (h : (m.part k).node? = some n) :
    m = n := by
  unfold Node.part at h
  cases hitem : ModuleItem.ofNode m with
  | importFrom | exportList | exportAll =>
    rw [hitem] at h
    cases h
  | _ =>
    rw [hitem] at h
    exact Option.some.inj h

/-- A part that has something of a statement is the part of this statement. -/
theorem exists_eq_part {cursor number : Nat} {nodes : List Node} {part : RewrittenPart} {n : Node}
    (h : part ∈ rewrittenFrom cursor number nodes) (hn : part.node? = some n) :
    n ∈ nodes ∧ ∃ k, part = n.part k := by
  induction nodes generalizing cursor number with
  | nil =>
    obtain rfl := List.mem_singleton.mp h
    cases hn
  | cons m rest ih =>
    rw [rewrittenFrom, List.cons_append, List.cons_append, List.mem_cons, List.mem_cons,
      List.mem_append] at h
    rcases h with rfl | rfl | h | h
    · cases hn
    · obtain rfl := Node.eq_of_node?_part hn
      exact ⟨List.mem_cons_self, number, rfl⟩
    · split at h
      · cases h
      · obtain rfl := List.mem_singleton.mp h
        cases hn
    · obtain ⟨hmem, hpart⟩ := ih h
      exact ⟨List.mem_cons_of_mem m hmem, hpart⟩

theorem exists_part_mem_rewrittenFrom {n : Node} {nodes : List Node} (h : n ∈ nodes)
    (cursor number : Nat) : ∃ k, n.part k ∈ rewrittenFrom cursor number nodes := by
  induction nodes generalizing cursor number with
  | nil => cases h
  | cons m rest ih =>
    rw [rewrittenFrom]
    rcases List.mem_cons.mp h with rfl | h
    · exact ⟨number, by simp⟩
    · obtain ⟨k, hk⟩ := ih h m.span.stop (m.numberBehind number)
      exact ⟨k, List.mem_append_right _ hk⟩

/-- What stays of a module as it is are the statements that are no module syntax. -/
theorem kept_mem_rewritten {p : Program} {n : Node} :
    .kept n ∈ p.rewritten ↔ n ∈ p.body ∧ (ModuleItem.ofNode n).isModuleSyntax = false := by
  constructor
  · intro h
    obtain ⟨hn, k, hpart⟩ := exists_eq_part h rfl
    refine ⟨hn, ?_⟩
    unfold Node.part at hpart
    cases hitem : ModuleItem.ofNode n with
    | declaration | other => rfl
    | _ =>
      rw [hitem] at hpart
      cases hpart
  · rintro ⟨hn, hsyntax⟩
    obtain ⟨k, hk⟩ := exists_part_mem_rewrittenFrom hn 0 1
    rw [n.isModuleSyntax_eq k, Option.isSome_eq_false_iff, Option.isNone_iff_eq_none] at hsyntax
    rwa [(n.part_of_kept hsyntax).1] at hk

theorem defaultValue_mem_rewritten {p : Program} {n : Node} {start : Nat}
    (h : .defaultValue n start ∈ p.rewritten) :
    n ∈ p.body ∧ ∃ span name, ModuleItem.ofNode n = .exportDefault span start name := by
  obtain ⟨hn, k, hpart⟩ := exists_eq_part h rfl
  refine ⟨hn, ?_⟩
  unfold Node.part at hpart
  cases hitem : ModuleItem.ofNode n with
  | exportDefault span valueStart name =>
    rw [hitem] at hpart
    obtain ⟨-, rfl⟩ := RewrittenPart.defaultValue.inj hpart
    exact ⟨span, name, rfl⟩
  | _ =>
    rw [hitem] at hpart
    cases hpart

end Script

/-! ## Ends of statements -/

/-- A text ends with a semicolon, so that what is behind it is a statement of its own. -/
def IsClosed (text : List Char) : Prop :=
  text.getLast? = some ';'

theorem IsClosed.append {text : List Char} (h : IsClosed text) (before : List Char) :
    IsClosed (before ++ text) := by
  rw [IsClosed, List.getLast?_append, h]
  rfl

theorem isClosed_toList_append {text : String} (h : IsClosed text.toList) (before : String) :
    IsClosed (before ++ text).toList := by
  rw [String.toList_append]
  exact h.append _

theorem isClosed_exportLine (exported value : String) : IsClosed (exportLine exported value).toList :=
  isClosed_toList_append (by rfl) _

/-- The statements that the rewrite writes are closed. -/
theorem WrittenLine.isClosed_text (l : WrittenLine) : IsClosed l.text.toList := by
  cases l with
  | load | holdModule => exact isClosed_toList_append (by rfl) _
  | importVariable source binding => cases binding <;> exact isClosed_toList_append (by rfl) _
  | assignVariable | assignMember | assignModule => exact isClosed_exportLine _ _
  | copyAll source =>
    rw [WrittenLine.text, exportAllText, String.append_assoc]
    exact isClosed_toList_append (by rfl) _

theorem isClosed_join {ls : List String} (hls : ls ≠ []) (h : ∀ l ∈ ls, IsClosed l.toList) :
    IsClosed (String.join ls).toList := by
  rw [String.toList_join, ← List.dropLast_append_getLast hls, List.flatMap_append]
  simpa using (h _ (List.getLast_mem hls)).append _

theorem isClosed_intercalate {ls : List String} (hls : ls ≠ []) (h : ∀ l ∈ ls, IsClosed l.toList)
    (separator : String) : IsClosed (separator.intercalate ls).toList := by
  induction ls with
  | nil => exact (hls rfl).elim
  | cons l rest ih =>
    by_cases hrest : rest = []
    · rw [hrest, String.intercalate_singleton]
      exact h l List.mem_cons_self
    · rw [String.intercalate_cons_of_ne_nil hrest]
      exact isClosed_toList_append (ih hrest fun l hl => h l (List.mem_cons_of_mem _ hl)) _

/-- A part that assigns exports is closed, unless it is a default value of which the statement is not. -/
theorem isClosed_of_assigned {source : List Char} {p : Program} (h : p.Placed source)
    {part : RewrittenPart} (hpart : part ∈ p.rewritten) (hassigned : (part.run {}).assigned ≠ []) :
    IsClosed (part.chars source) ∨ ∃ n start, part = .defaultValue n start ∧
      ¬ IsClosed (sliceBytes n.span.start n.span.stop source) := by
  cases part with
  | gap | tail | kept | declaration => exact (hassigned rfl).elim
  | assignments names =>
    have hnames : names ≠ [] := by
      rintro rfl
      exact hassigned rfl
    refine .inl (isClosed_join (by simpa using hnames) ?_)
    simp only [List.mem_map]
    rintro _ ⟨name, -, rfl⟩
    exact isClosed_toList_append (by rfl) _
  | lines ls =>
    have hls : ls ≠ [] := by
      rintro rfl
      exact hassigned rfl
    refine .inl (isClosed_intercalate (by simpa using hls) ?_ _)
    simp only [List.mem_map]
    rintro _ ⟨l, -, rfl⟩
    exact l.isClosed_text
  | defaultValue n start =>
    by_cases hclosed : IsClosed (sliceBytes n.span.start n.span.stop source)
    · obtain ⟨hn, span, name, hitem⟩ := defaultValue_mem_rewritten hpart
      have placed := h.placed n hn
      obtain ⟨hlt, hstop, hboundary⟩ := placed.kept start (by rw [hitem]; rfl)
      have hvalue : sliceBytes start n.span.stop source ≠ [] := by
        intro hempty
        have hlength := byteLength_sliceBytes hboundary placed.stop_boundary hstop.le
        rw [hempty, byteLength] at hlength
        omega
      rw [← sliceBytes_append placed.start_boundary hboundary hlt.le hstop.le, IsClosed,
        List.getLast?_append_of_ne_nil _ hvalue] at hclosed
      exact .inl (IsClosed.append hclosed _)
    · exact .inr ⟨n, start, rfl, hclosed⟩

/-- A program that is rewritten assigns all its exports, each once and with its value, just if none of its
exported declarations runs into the statement behind it. -/
theorem commonJs_exports_iff {source : String} {p : Program} (h : p.Placed source.toList)
    {edits : List Edit} (hedits : commonJsEdits p.items = .ok edits) :
    applyEdits source edits = String.ofList (p.rewritten.flatMap (·.chars source.toList)) ∧
      (∀ n, .kept n ∈ p.rewritten ↔ n ∈ p.body ∧ (ModuleItem.ofNode n).isModuleSyntax = false) ∧
      p.moduleExports.filterMap ModuleExport.name? = p.body.flatMap (exportedNames p.depth) ∧
      p.assignedExports.Sublist p.moduleExports ∧
      (p.assignedExports = p.moduleExports ↔ ¬ LosesExports p.body) ∧
      (∀ part ∈ p.rewritten, (part.run {}).assigned ≠ [] → IsClosed (part.chars source.toList) ∨
        ∃ n start, part = .defaultValue n start ∧
          ¬ IsClosed (sliceBytes n.span.start n.span.stop source.toList)) ∧
      (hasExports p.items = true ↔ ∃ n ∈ p.body, (ModuleItem.ofNode n).isExport = true) := by
  have hassigned : p.assignedExports = assignedFrom p.body := run_rewrittenFrom 0 1 p.body {}
  refine ⟨applyEdits_commonJsEdits h hedits, fun n => kept_mem_rewritten, ?_, ?_, ?_,
    fun part hpart => isClosed_of_assigned h hpart, ?_⟩
  · rw [Program.moduleExports, Program.items, List.flatMap_map, List.filterMap_flatMap]
    refine List.flatMap_congr fun n hn => ?_
    exact filterMap_moduleExports (16 * p.size + 63) fun span start =>
      plain_of_commonJsEditsFrom hedits hn
  · rw [hassigned]
    exact assignedFrom_sublist p.body
  · rw [hassigned]
    exact assignedFrom_eq_iff p.body
  · simp [hasExports, Program.items]

/-- A module in which nothing stands between two exports. -/
def adjacentExports : String :=
  "export const d=1;export default d;"

/-- The assignment of `d` is lost. -/
theorem commonJs_exports_iff_adjacent : ∃ p edits, Program.parse? {} adjacentExports = some p ∧
    commonJsEdits p.items = .ok edits ∧
    applyEdits adjacentExports edits = "const d=1;exports.default = d;" ∧
    p.moduleExports = [.named "d" (.variable "d"), .named "default" (.valueAt 32 34)] ∧
    p.assignedExports = [.named "default" (.valueAt 32 34)] ∧ LosesExports p.body := by
  have hrun : ((Program.parse? {} adjacentExports).any fun p =>
      decide (p.Placed adjacentExports.toList) && (commonJsEdits p.items).isOk &&
      decide (p.rewritten.flatMap (·.chars adjacentExports.toList) =
        "const d=1;exports.default = d;".toList) &&
      decide (p.moduleExports = [.named "d" (.variable "d"), .named "default" (.valueAt 32 34)]) &&
      decide (p.assignedExports = [.named "default" (.valueAt 32 34)])) = true := by
    decide +kernel
  obtain ⟨p, hparse, hp⟩ := Option.any_eq_true _ _ |>.mp hrun
  simp only [Bool.and_eq_true, decide_eq_true_eq] at hp
  obtain ⟨⟨⟨⟨placed, accepted⟩, htext⟩, hexports⟩, hassigned⟩ := hp
  obtain ⟨edits, hedits⟩ := exists_eq_ok_of_isOk accepted
  obtain ⟨happlied, -, -, -, hiff, -, -⟩ := commonJs_exports_iff placed hedits
  refine ⟨p, edits, hparse, hedits, ?_, hexports, hassigned, ?_⟩
  · rw [happlied, htext, String.ofList_toList]
  · by_contra hkept
    have heq := hiff.mpr hkept
    rw [hexports, hassigned] at heq
    exact absurd heq (by decide)

end ModuleBuild
