import Mathlib
import ModuleBuild.Proofs.Compile.Bindings
import ModuleBuild.Proofs.Compile.Exports

/-!
# The order of a module without module syntax

The rewrite of a module writes each statement where the module has it. In the module itself imports are
bound before anything runs, and an export list speaks of variables wherever these are declared. So a
statement that stands before an import runs before the import is loaded, and an export list that stands
before a variable assigns it too early. A function is there from the start, wherever it is declared.

## Main definitions

* `RewrittenPart.bindsImport`, `RewrittenPart.runs` — what a part of the rewrite does when it is reached.
* `usedBehind` — names are used behind their declarations.

## Main statements

* `pairwise_rewrittenFrom_iff`, `usedBehind_rewrittenFrom` — the order of the rewrite of statements.
* `commonJs_order_iff` — when imports are loaded first, and variables assigned behind their declarations.
-/

namespace ModuleBuild

open Script Text

/-! ## What parts do -/

namespace Script

/-- Whether a statement declares a function, which is there from the start. -/
def Node.isFunction : Node → Bool
  | .decl (.func ..) | .exportDecl _ (.decl (.func ..)) | .exportDefault _ (.decl (.func ..)) => true
  | _ => false

/-- Whether something is done when a statement other than an import is reached. -/
def Node.runs (n : Node) : Bool :=
  match ModuleItem.ofNode n with
  | .importFrom .. => false
  | .exportList _ names source => !names.isEmpty || source.isSome
  | _ => !n.isFunction

/-- The variables that an export list of the module itself names. -/
def Node.listedLocals (n : Node) : List String :=
  match ModuleItem.ofNode n with
  | .exportList _ names none => names.map (·.1)
  | _ => []

/-- Whether a name is that of a variable or class, and of no function. -/
def Program.isVariable (p : Program) (x : String) : Bool :=
  (p.body.any fun n => !n.isFunction && (n.topNames p.depth).contains x) &&
    !p.body.any fun n => n.isFunction && (n.topNames p.depth).contains x

end Script

/-- Whether a written statement stands for a binding of an import. -/
def WrittenLine.bindsImport : WrittenLine → Bool
  | importVariable .. => true
  | _ => false

/-- Whether a written statement stands for an import. -/
def WrittenLine.isImport : WrittenLine → Bool
  | load _ | importVariable .. => true
  | _ => false

/-- The variable of the module that a written statement assigns to an export. -/
def WrittenLine.assigned? : WrittenLine → Option String
  | assignVariable _ name => some name
  | _ => none

namespace RewrittenPart

/-- Whether a part binds an import. -/
def bindsImport : RewrittenPart → Bool
  | lines ls => ls.any (·.bindsImport)
  | _ => false

/-- Whether a part does what a statement other than an import does. -/
def runs : RewrittenPart → Bool
  | kept n | declaration n _ | defaultValue n _ => !n.isFunction
  | lines ls => ls.any (!·.isImport)
  | gap .. | tail _ | assignments _ => false

/-- The variables of the module that a part assigns to exports. -/
def assignedLocals : RewrittenPart → List String
  | lines ls => ls.filterMap (·.assigned?)
  | assignments names => names
  | _ => []

/-- The names that the statement of a part binds. -/
def declares (fuel : Nat) (part : RewrittenPart) : List String :=
  part.node?.toList.flatMap (·.topNames fuel)

variable (start stop fuel : Nat) (names : List String)

@[simp] theorem bindsImport_gap : (gap start stop).bindsImport = false := rfl

@[simp] theorem bindsImport_assignments : (assignments names).bindsImport = false := rfl

@[simp] theorem runs_gap : (gap start stop).runs = false := rfl

@[simp] theorem runs_assignments : (assignments names).runs = false := rfl

@[simp] theorem assignedLocals_gap : (gap start stop).assignedLocals = [] := rfl

@[simp] theorem assignedLocals_assignments : (assignments names).assignedLocals = names := rfl

@[simp] theorem declares_gap : (gap start stop).declares fuel = [] := rfl

@[simp] theorem declares_assignments : (assignments names).declares fuel = [] := rfl

end RewrittenPart

/-- Whether all names that the members of a row use are known or declared by members before. -/
def usedBehind {α : Type} (uses declares : α → List String) : (known : List String) → List α → Bool
  | _, [] => true
  | known, a :: rest =>
    (uses a).all (known.contains ·) && usedBehind uses declares (known ++ declares a) rest

theorem usedBehind_iff {α : Type} {uses declares : α → List String} {known : List String} {row : List α} :
    usedBehind uses declares known row = true ↔ ∀ before a behind, row = before ++ a :: behind →
      ∀ x ∈ uses a, x ∈ known ∨ ∃ d ∈ before, x ∈ declares d := by
  induction row generalizing known with
  | nil => simp [usedBehind]
  | cons first rest ih =>
    rw [usedBehind, Bool.and_eq_true, ih, List.all_eq_true]
    simp only [List.contains_iff_mem, List.mem_append]
    constructor
    · rintro ⟨hfirst, hrest⟩ before a behind hrow x hx
      cases before with
      | nil =>
        obtain ⟨rfl, -⟩ := List.cons.inj hrow
        exact .inl (hfirst x hx)
      | cons d before =>
        rw [List.cons_append] at hrow
        obtain ⟨rfl, hbehind⟩ := List.cons.inj hrow
        rcases hrest before a behind hbehind x hx with (hknown | hdeclared) | ⟨d, hd, hdeclared⟩
        · exact .inl hknown
        · exact .inr ⟨_, List.mem_cons_self, hdeclared⟩
        · exact .inr ⟨d, List.mem_cons_of_mem _ hd, hdeclared⟩
    · intro h
      refine ⟨fun x hx => ?_, fun before a behind hrow x hx => ?_⟩
      · simpa using h [] first rest rfl x hx
      · rcases h (first :: before) a behind (by rw [hrow, List.cons_append]) x hx with hknown | ⟨d, hd, hx⟩
        · exact .inl (.inl hknown)
        · rcases List.mem_cons.mp hd with rfl | hd
          · exact .inl (.inr hx)
          · exact .inr ⟨d, hd, hx⟩

namespace Script

/-! ## Statements and their parts -/

theorem Node.bindsImport_part (n : Node) (number : Nat) :
    (n.part number).bindsImport = true ↔ n.importedNames ≠ [] := by
  unfold Node.part Node.importedNames
  cases ModuleItem.ofNode n with
  | importFrom span source bindings =>
    cases bindings <;>
      simp [RewrittenPart.bindsImport, ModuleItem.lines, WrittenLine.bindsImport, ModuleItem.imported?]
  | exportList span names source =>
    cases source <;>
      simp [RewrittenPart.bindsImport, ModuleItem.lines, WrittenLine.bindsImport, ModuleItem.imported?]
  | exportAll span exported source =>
    cases exported <;>
      simp [RewrittenPart.bindsImport, ModuleItem.lines, WrittenLine.bindsImport, ModuleItem.imported?]
  | _ => simp [RewrittenPart.bindsImport, ModuleItem.imported?]

theorem Node.runs_part (n : Node) (number : Nat) : (n.part number).runs = n.runs := by
  have hall : ∀ span exported source, ModuleItem.ofNode n = .exportAll span exported source →
      n.isFunction = false := by
    intro span exported source h
    cases n <;> first | rfl | (simp [ModuleItem.ofNode] at h)
  unfold Node.part Node.runs
  cases hitem : ModuleItem.ofNode n with
  | importFrom span source bindings =>
    cases bindings <;> simp [RewrittenPart.runs, ModuleItem.lines, WrittenLine.isImport]
  | exportList span names source =>
    cases source <;> cases names <;> simp [RewrittenPart.runs, ModuleItem.lines, WrittenLine.isImport]
  | exportAll span exported source =>
    rw [hall _ _ _ hitem]
    cases exported <;> rfl
  | _ => rfl

theorem Node.assignedLocals_part (n : Node) (number : Nat) :
    (n.part number).assignedLocals = n.listedLocals := by
  unfold Node.part Node.listedLocals
  cases ModuleItem.ofNode n with
  | importFrom span source bindings =>
    cases bindings <;>
      simp [RewrittenPart.assignedLocals, ModuleItem.lines, WrittenLine.assigned?, List.filterMap_map]
  | exportList span names source =>
    cases source <;>
      simp [RewrittenPart.assignedLocals, ModuleItem.lines, WrittenLine.assigned?, List.filterMap_map]
  | exportAll span exported source =>
    cases exported <;> simp [RewrittenPart.assignedLocals, ModuleItem.lines, WrittenLine.assigned?]
  | _ => rfl

theorem Node.declares_part (n : Node) (fuel number : Nat) :
    (n.part number).declares fuel = n.topNames fuel := by
  have hreplaced := n.topNames_of_replaced
  unfold Node.part RewrittenPart.declares
  cases hitem : ModuleItem.ofNode n with
  | importFrom | exportList | exportAll =>
    rw [hitem] at hreplaced
    rw [hreplaced rfl rfl fuel]
    rfl
  | _ => simp [RewrittenPart.node?]

/-- The assignments behind a declaration are of names that it declares. -/
theorem Node.declaredExports_subset {n : Node} (fuel : Nat)
    (h : ∀ span start, ModuleItem.ofNode n ≠ .exportDeclaration span start none) :
    n.declaredExports ⊆ n.topNames (fuel + 1) := by
  unfold Node.declaredExports
  cases hitem : ModuleItem.ofNode n with
  | exportDeclaration span start names =>
    cases n with
    | exportDecl _ d =>
      obtain ⟨-, -, rfl⟩ := ModuleItem.exportDeclaration.inj hitem
      obtain ⟨names, hnames⟩ := Option.ne_none_iff_exists'.mp fun hnone => h _ _ (congrArg _ hnone)
      rw [hnames, Node.topNames, Node.ownNames, declaredNames_of_plain hnames]
      exact List.subset_append_left _ _
    | _ => simp [ModuleItem.ofNode] at hitem
  | _ => exact List.nil_subset _

/-! ## Programs and their rewrites -/

theorem any_bindsImport_rewrittenFrom (cursor number : Nat) (nodes : List Node) :
    (∃ b ∈ rewrittenFrom cursor number nodes, b.bindsImport = true) ↔
      ∃ m ∈ nodes, m.importedNames ≠ [] := by
  induction nodes generalizing cursor number with
  | nil => simp [rewrittenFrom, RewrittenPart.bindsImport]
  | cons n rest ih =>
    rw [rewrittenFrom]
    split <;> simp [n.bindsImport_part number, ih]

/-- Imports of the rewrite are loaded first just if they are in the module. -/
theorem pairwise_rewrittenFrom_iff (cursor number : Nat) (nodes : List Node) :
    ((rewrittenFrom cursor number nodes).Pairwise fun a b => b.bindsImport = true → a.runs = false) ↔
      nodes.Pairwise fun m n => n.importedNames ≠ [] → m.runs = false := by
  induction nodes generalizing cursor number with
  | nil => simp [rewrittenFrom]
  | cons n rest ih =>
    have hrest := any_bindsImport_rewrittenFrom n.span.stop (n.numberBehind number) rest
    have hfirst : (∀ b ∈ rewrittenFrom n.span.stop (n.numberBehind number) rest,
        b.bindsImport = true → (n.part number).runs = false) ↔
          ∀ m ∈ rest, m.importedNames ≠ [] → n.runs = false := by
      rw [n.runs_part]
      simpa only [forall_exists_index, and_imp] using imp_congr_left hrest
    rw [rewrittenFrom, List.pairwise_cons, ← ih n.span.stop (n.numberBehind number), ← hfirst]
    split <;> simp

/-- Variables are assigned behind their declarations just if export lists name them there. -/
theorem usedBehind_rewrittenFrom {fuel : Nat} (counts : String → Bool) {nodes : List Node}
    (h : ∀ n ∈ nodes, n.declaredExports ⊆ n.topNames fuel) (cursor number : Nat) (known : List String) :
    usedBehind (fun part => part.assignedLocals.filter counts) (RewrittenPart.declares fuel) known
        (rewrittenFrom cursor number nodes) =
      usedBehind (fun n => n.listedLocals.filter counts) (Node.topNames fuel) known nodes := by
  induction nodes generalizing cursor number known with
  | nil => simp [rewrittenFrom, usedBehind, RewrittenPart.assignedLocals]
  | cons n rest ih =>
    have hrest := ih (fun m hm => h m (List.mem_cons_of_mem n hm)) n.span.stop (n.numberBehind number)
      (known ++ n.topNames fuel)
    have hown : ((n.declaredExports.filter counts).all ((known ++ n.topNames fuel).contains ·)) = true := by
      refine List.all_eq_true.mpr fun x hx => ?_
      have := h n List.mem_cons_self (List.mem_of_mem_filter hx)
      simp [this]
    rw [rewrittenFrom]
    split
    · simp [usedBehind, n.assignedLocals_part, n.declares_part, hrest]
    · simp only [List.cons_append, List.nil_append, usedBehind, RewrittenPart.assignedLocals_gap,
        RewrittenPart.assignedLocals_assignments, RewrittenPart.declares_gap,
        RewrittenPart.declares_assignments, List.append_nil, n.assignedLocals_part, n.declares_part,
        hown, hrest]
      simp

end Script

/-- In the rewrite of a module, imports are loaded before anything runs just if no statement that runs
stands before an import in the module, and variables are assigned to exports behind their declarations just
if no export list names one before its declaration. -/
theorem commonJs_order_iff {source : String} {p : Program} (h : p.Placed source.toList)
    {edits : List Edit} (hedits : commonJsEdits p.items = .ok edits) :
    applyEdits source edits = String.ofList (p.rewritten.flatMap (·.chars source.toList)) ∧
      ((p.rewritten.Pairwise fun a b => b.bindsImport = true → a.runs = false) ↔
        p.body.Pairwise fun m n => n.importedNames ≠ [] → m.runs = false) ∧
      ((∀ before part behind, p.rewritten = before ++ part :: behind → ∀ x ∈ part.assignedLocals,
          p.isVariable x = true → ∃ d ∈ before, x ∈ d.declares p.depth) ↔
        ∀ before n behind, p.body = before ++ n :: behind → ∀ x ∈ n.listedLocals,
          p.isVariable x = true → ∃ m ∈ before, x ∈ m.topNames p.depth) := by
  refine ⟨applyEdits_commonJsEdits h hedits, pairwise_rewrittenFrom_iff 0 1 p.body, ?_⟩
  have hdeclared : ∀ n ∈ p.body, n.declaredExports ⊆ n.topNames p.depth := fun n hn =>
    Node.declaredExports_subset (16 * p.size + 63) fun span start => plain_of_commonJsEditsFrom hedits hn
  have hsame := usedBehind_rewrittenFrom p.isVariable hdeclared 0 1 []
  rw [Bool.eq_iff_iff, usedBehind_iff, usedBehind_iff] at hsame
  rw [Program.rewritten]
  simpa only [List.mem_filter, and_imp, List.not_mem_nil, false_or] using hsame

/-- A module with an import behind a call of it, and an export list before the variable that it names. -/
def latePlaces : String :=
  "export {x};f();import {f} from 'm';const x=1;"

/-- Its rewrite. -/
def latePlacesRewrite : String :=
  "exports[\"x\"] = x;f();var f = require(\"m\")[\"f\"];const x=1;"

/-- The rewrite calls `f` before it is loaded, and assigns `x` before it has a value. -/
theorem commonJs_order_iff_late : ∃ p edits, Program.parse? {} latePlaces = some p ∧
    commonJsEdits p.items = .ok edits ∧ applyEdits latePlaces edits = latePlacesRewrite ∧
    (¬ p.rewritten.Pairwise fun a b => b.bindsImport = true → a.runs = false) ∧
    ∃ before part behind x, p.rewritten = before ++ part :: behind ∧ x ∈ part.assignedLocals ∧
      p.isVariable x = true ∧ ∀ d ∈ before, x ∉ d.declares p.depth := by
  have hrun : ((Program.parse? {} latePlaces).any fun p =>
      decide (p.Placed latePlaces.toList) && (commonJsEdits p.items).isOk &&
      decide (p.rewritten.flatMap (·.chars latePlaces.toList) = latePlacesRewrite.toList) &&
      decide (¬ p.body.Pairwise fun m n => n.importedNames ≠ [] → m.runs = false) &&
      !usedBehind (fun n => n.listedLocals.filter p.isVariable) (Node.topNames p.depth) [] p.body) = true := by
    decide +kernel
  obtain ⟨p, hparse, hp⟩ := Option.any_eq_true _ _ |>.mp hrun
  simp only [Bool.and_eq_true, decide_eq_true_eq, Bool.not_eq_true'] at hp
  obtain ⟨⟨⟨⟨placed, accepted⟩, htext⟩, himports⟩, hlists⟩ := hp
  obtain ⟨edits, hedits⟩ := exists_eq_ok_of_isOk accepted
  obtain ⟨happlied, horder, hbehind⟩ := commonJs_order_iff placed hedits
  refine ⟨p, edits, hparse, hedits, ?_, fun hpairs => himports (horder.mp hpairs), ?_⟩
  · rw [happlied, htext, String.ofList_toList]
  · by_contra hnone
    push Not at hnone
    have hmodule := hbehind.mp fun before part behind hrow x hx => hnone before part behind x hrow hx
    have hlisted : usedBehind (fun n => n.listedLocals.filter p.isVariable) (Node.topNames p.depth) []
        p.body = true := by
      rw [usedBehind_iff]
      simpa only [List.mem_filter, and_imp, List.not_mem_nil, false_or] using hmodule
    rw [hlists] at hlisted
    cases hlisted

end ModuleBuild
