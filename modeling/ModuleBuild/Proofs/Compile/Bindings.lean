import Mathlib
import ModuleBuild.Proofs.Compile.CommonJs
import ModuleBuild.Proofs.Linking.Resolution

/-!
# The scope of a module without module syntax

The rewrite of a module binds what the statements that stay in it bind, the names of its imports, and
variables that the rewrite makes up. A function or class that a module exports as its default value becomes
the value of an assignment, and its name is bound no longer. The names of made-up variables depend on
nothing in the module, so that it may have variables with these names itself.

## Main definitions

* `RewrittenPart.bound` — the names that a part of the rewrite binds.
* `RewrittenPart.introduced` — the ones of them that the rewrite makes up.

## Main statements

* `mem_bound_rewrittenFrom`, `mem_introduced_rewrittenFrom` — these names for the rewrite of statements.
* `commonJs_scope_iff` — when the rewrite binds all names of a module, and when its own names are fresh.
-/

namespace ModuleBuild

open Script Text

/-! ## Names of the rewrite -/

/-- The variables that a written statement makes up. -/
def WrittenLine.introduced : WrittenLine → List String
  | holdModule number _ => [reexportVariable number]
  | copyAll _ => ["_all", "_key"]
  | load _ | importVariable .. | assignVariable .. | assignMember .. | assignModule .. => []

/-- The variables that a written statement declares. -/
def WrittenLine.bound : WrittenLine → List String
  | importVariable _ binding => [binding.localName]
  | l => l.introduced

/-- The variables that a part of the rewrite makes up. -/
def RewrittenPart.introduced : RewrittenPart → List String
  | lines ls => ls.flatMap (·.introduced)
  | gap .. | tail _ | kept _ | defaultValue .. | declaration .. | assignments _ => []

/-- The names that a part of the rewrite binds on the top level. A function or class that is a value is
known by its name inside of it only. -/
def RewrittenPart.bound (fuel : Nat) : RewrittenPart → List String
  | gap .. | tail _ | assignments _ => []
  | kept n | declaration n _ => n.topNames fuel
  | defaultValue n _ => hoistedNames fuel n
  | lines ls => ls.flatMap (·.bound)

namespace Script

/-- The names that the rewrite of a program binds. -/
def Program.rewrittenNames (p : Program) : List String :=
  p.rewritten.flatMap (·.bound p.depth)

/-- The variables that the rewrite of a program makes up. -/
def Program.introducedNames (p : Program) : List String :=
  p.rewritten.flatMap (·.introduced)

/-! ## Names of the module -/

/-- Whether a statement exports a whole module under the names that its exports have. -/
def ModuleItem.copiesExports : ModuleItem → Bool
  | .exportAll _ none _ => true
  | _ => false

/-- The names that a statement imports. -/
def Node.importedNames (n : Node) : List String :=
  (ModuleItem.ofNode n).imported?.toList.flatMap fun i => i.2.map (·.localName)

/-- The name of a function or class that a statement exports as the default value. -/
def Node.defaultNames (n : Node) : List String :=
  match ModuleItem.ofNode n with
  | .exportDefault _ _ name => name.toList
  | _ => []

/-- The names of functions and classes that a program exports as default values. -/
def Program.defaultNames (p : Program) : List String :=
  p.body.flatMap (·.defaultNames)

/-- The names that a statement binds, without the one of a default value. -/
def Node.keptNames (fuel : Nat) (n : Node) : List String :=
  match ModuleItem.ofNode n with
  | .exportDefault .. => hoistedNames fuel n
  | _ => n.topNames fuel

theorem Node.ownNames_of_exportDefault {n : Node} {span : Span} {start : Nat} {name : Option String}
    (h : ModuleItem.ofNode n = .exportDefault span start name) (fuel : Nat) :
    n.ownNames fuel = name.toList := by
  unfold ModuleItem.ofNode at h
  split at h
  case h_2 =>
    obtain ⟨-, -, rfl⟩ := ModuleItem.exportDefault.inj h
    rfl
  all_goals cases h

theorem Node.mem_topNames {fuel : Nat} {n : Node} {x : String} :
    x ∈ n.topNames fuel ↔ x ∈ n.defaultNames ∨ x ∈ n.keptNames fuel := by
  unfold Node.defaultNames Node.keptNames
  cases hitem : ModuleItem.ofNode n with
  | exportDefault => rw [Node.topNames, List.mem_append, Node.ownNames_of_exportDefault hitem]
  | _ => simp

theorem Program.mem_importLocals_iff {p : Program} {x : String} :
    x ∈ p.importLocals ↔ ∃ n ∈ p.body, x ∈ n.importedNames := by
  simp only [Program.importLocals, Program.imports, Program.items, Node.importedNames, List.mem_flatMap,
    List.mem_filterMap, List.mem_map, exists_exists_and_eq_and, Option.mem_toList]
  constructor
  · rintro ⟨i, ⟨n, hn, hi⟩, hx⟩
    exact ⟨n, hn, i, hi, hx⟩
  · rintro ⟨n, hn, i, hi, hx⟩
    exact ⟨i, ⟨n, hn, hi⟩, hx⟩

/-! ## Statements and their parts -/

theorem Node.mem_introduced_part {number : Nat} {n : Node} {x : String} :
    x ∈ (n.part number).introduced ↔
      (takesExports (ModuleItem.ofNode n) = true ∧ x = reexportVariable number) ∨
        ((ModuleItem.ofNode n).copiesExports = true ∧ (x = "_all" ∨ x = "_key")) := by
  unfold Node.part
  cases ModuleItem.ofNode n with
  | importFrom span source bindings =>
    cases bindings <;>
      simp [RewrittenPart.introduced, ModuleItem.lines, WrittenLine.introduced, takesExports,
        ModuleItem.copiesExports]
  | exportList span names source =>
    cases source <;>
      simp [RewrittenPart.introduced, ModuleItem.lines, WrittenLine.introduced, takesExports,
        ModuleItem.copiesExports]
  | exportAll span exported source =>
    cases exported <;>
      simp [RewrittenPart.introduced, ModuleItem.lines, WrittenLine.introduced, takesExports,
        ModuleItem.copiesExports]
  | _ => simp [RewrittenPart.introduced, takesExports, ModuleItem.copiesExports]

/-- Statements that the rewrite replaces bind nothing but imports. -/
theorem Node.topNames_of_replaced {n : Node} (h : (ModuleItem.ofNode n).isModuleSyntax = true)
    (hkept : (ModuleItem.ofNode n).keptStart? = none) (fuel : Nat) : n.topNames fuel = [] := by
  unfold ModuleItem.ofNode at h hkept
  split at h
  case h_1 | h_4 | h_5 => cases fuel <;> rfl
  case h_2 | h_3 => cases hkept
  all_goals cases h

theorem ModuleItem.mem_bound_lines {item : ModuleItem} {number : Nat} {x : String} :
    x ∈ (item.lines number).flatMap (·.bound) ↔ x ∈ (item.lines number).flatMap (·.introduced) ∨
      x ∈ item.imported?.toList.flatMap fun i => i.2.map (·.localName) := by
  cases item with
  | importFrom span source bindings =>
    cases bindings <;>
      simp [ModuleItem.lines, WrittenLine.bound, WrittenLine.introduced, ModuleItem.imported?, eq_comm]
  | exportList span names source =>
    cases source <;>
      simp [ModuleItem.lines, WrittenLine.bound, WrittenLine.introduced, ModuleItem.imported?]
  | exportAll span exported source =>
    cases exported <;>
      simp [ModuleItem.lines, WrittenLine.bound, WrittenLine.introduced, ModuleItem.imported?]
  | _ => simp [ModuleItem.lines, ModuleItem.imported?]

/-- The part of a statement binds made-up variables, imports, and what the statement itself binds. -/
theorem Node.mem_bound_part {fuel number : Nat} {n : Node} {x : String} :
    x ∈ (n.part number).bound fuel ↔
      x ∈ (n.part number).introduced ∨ x ∈ n.importedNames ∨ x ∈ n.keptNames fuel := by
  have hreplaced := n.topNames_of_replaced
  unfold Node.part Node.importedNames Node.keptNames
  cases hitem : ModuleItem.ofNode n with
  | declaration | other | exportDefault | exportDeclaration =>
    simp [RewrittenPart.bound, RewrittenPart.introduced, ModuleItem.imported?]
  | importFrom | exportList | exportAll =>
    rw [hitem] at hreplaced
    rw [hreplaced rfl rfl fuel, List.mem_nil_iff, or_false]
    exact ModuleItem.mem_bound_lines

/-! ## Programs and their rewrites -/

theorem mem_flatMap_rewrittenFrom {f : RewrittenPart → List String} {x : String}
    (hgap : ∀ start stop, f (.gap start stop) = []) (hnames : ∀ names, f (.assignments names) = [])
    {cursor number : Nat} {n : Node} {rest : List Node} :
    x ∈ (rewrittenFrom cursor number (n :: rest)).flatMap f ↔
      x ∈ f (n.part number) ∨
        x ∈ (rewrittenFrom n.span.stop (n.numberBehind number) rest).flatMap f := by
  rw [rewrittenFrom]
  split <;> simp [hgap, hnames]

/-- The numbers of statements that take exports from a module, by the number of the first one. -/
theorem exists_number_cons {P : Nat → Prop} {number : Nat} {n : Node} {rest : List Node} :
    (∃ k, number ≤ k ∧ k < number + (n :: rest).countP (takesExports ∘ ModuleItem.ofNode) ∧ P k) ↔
      (takesExports (ModuleItem.ofNode n) = true ∧ P number) ∨
        ∃ k, n.numberBehind number ≤ k ∧
          k < n.numberBehind number + rest.countP (takesExports ∘ ModuleItem.ofNode) ∧ P k := by
  unfold Node.numberBehind
  cases htakes : takesExports (ModuleItem.ofNode n) with
  | false =>
    rw [List.countP_cons_of_neg (by simp [htakes])]
    simp
  | true =>
    rw [List.countP_cons_of_pos (by simp [htakes])]
    simp only [true_and, if_true]
    constructor
    · rintro ⟨k, hle, hlt, hk⟩
      rcases hle.eq_or_lt with rfl | hle
      · exact .inl hk
      · exact .inr ⟨k, hle, by omega, hk⟩
    · rintro (hk | ⟨k, hle, hlt, hk⟩)
      · exact ⟨number, le_rfl, by omega, hk⟩
      · exact ⟨k, by omega, by omega, hk⟩

/-- The names that the rewrite of statements makes up. -/
theorem mem_introduced_rewrittenFrom {cursor number : Nat} {nodes : List Node} {x : String} :
    x ∈ (rewrittenFrom cursor number nodes).flatMap (·.introduced) ↔
      (∃ k, number ≤ k ∧ k < number + nodes.countP (takesExports ∘ ModuleItem.ofNode) ∧
        x = reexportVariable k) ∨
      ((∃ n ∈ nodes, (ModuleItem.ofNode n).copiesExports = true) ∧ (x = "_all" ∨ x = "_key")) := by
  induction nodes generalizing cursor number with
  | nil =>
    have hnone : ¬ ∃ k, number ≤ k ∧ k < number + 0 ∧ x = reexportVariable k := by
      rintro ⟨k, hle, hlt, -⟩
      omega
    simpa [rewrittenFrom, RewrittenPart.introduced] using hnone
  | cons n rest ih =>
    rw [mem_flatMap_rewrittenFrom (fun _ _ => rfl) (fun _ => rfl), ih, n.mem_introduced_part,
      exists_number_cons, or_or_or_comm, ← or_and_right]
    simp only [List.mem_cons, exists_eq_or_imp]

/-- The rewrite of statements binds the names that it makes up, the imports, and what the statements bind
without the names of default values. -/
theorem mem_bound_rewrittenFrom {fuel cursor number : Nat} {nodes : List Node} {x : String} :
    x ∈ (rewrittenFrom cursor number nodes).flatMap (·.bound fuel) ↔
      x ∈ (rewrittenFrom cursor number nodes).flatMap (·.introduced) ∨
        ∃ n ∈ nodes, x ∈ n.importedNames ∨ x ∈ n.keptNames fuel := by
  induction nodes generalizing cursor number with
  | nil => simp [rewrittenFrom, RewrittenPart.introduced, RewrittenPart.bound]
  | cons n rest ih =>
    rw [mem_flatMap_rewrittenFrom (fun _ _ => rfl) (fun _ => rfl), ih, n.mem_bound_part, or_or_or_comm,
      mem_flatMap_rewrittenFrom (fun _ _ => rfl) (fun _ => rfl)]
    simp only [List.mem_cons, exists_eq_or_imp]

/-- The names that the rewrite of a program binds. -/
theorem Program.mem_rewrittenNames {p : Program} {x : String} :
    x ∈ p.rewrittenNames ↔
      x ∈ p.introducedNames ∨ x ∈ p.importLocals ∨ ∃ n ∈ p.body, x ∈ n.keptNames p.depth := by
  rw [Program.rewrittenNames, Program.rewritten, mem_bound_rewrittenFrom, Program.mem_importLocals_iff]
  simp only [and_or_left, exists_or]
  rfl

/-- The names that the rewrite of a program makes up depend on how often it takes exports from a module, and
on whether it copies all of them. -/
theorem Program.mem_introducedNames {p : Program} {x : String} :
    x ∈ p.introducedNames ↔
      (∃ k, 1 ≤ k ∧ k ≤ p.items.countP takesExports ∧ x = reexportVariable k) ∨
        (p.items.any (·.copiesExports) = true ∧ (x = "_all" ∨ x = "_key")) := by
  rw [Program.introducedNames, Program.rewritten, mem_introduced_rewrittenFrom, Program.items,
    List.countP_map, List.any_map, List.any_eq_true]
  simp only [Nat.lt_one_add_iff, Function.comp_apply]

theorem Program.mem_topNames {p : Program} {x : String} :
    x ∈ p.topNames ↔ x ∈ p.defaultNames ∨ ∃ n ∈ p.body, x ∈ n.keptNames p.depth := by
  simp only [Program.topNames, Program.defaultNames, List.mem_flatMap, Node.mem_topNames, and_or_left,
    exists_or]

end Script

/-- The rewrite of a module binds all names that the module binds, but for names of default values that
nothing else binds, and the names that it makes up are fresh just if the module has no variable `_reexport1`
and so on, and no `_all` or `_key` if it copies all exports of a module. -/
theorem commonJs_scope_iff {source : String} {p : Program} (h : p.Placed source.toList)
    {edits : List Edit} (hedits : commonJsEdits p.items = .ok edits) :
    applyEdits source edits = String.ofList (p.rewritten.flatMap (·.chars source.toList)) ∧
      (∀ x, (x ∈ p.topNames ∨ x ∈ p.importLocals) ∧ x ∉ p.rewrittenNames ↔
        x ∈ p.defaultNames ∧ x ∉ p.importLocals ∧ (∀ n ∈ p.body, x ∉ n.keptNames p.depth) ∧
          x ∉ p.introducedNames) ∧
      ((∀ x ∈ p.introducedNames, x ∉ p.identifiers) ↔
        (∀ k, 1 ≤ k → k ≤ p.items.countP takesExports → reexportVariable k ∉ p.identifiers) ∧
          (p.items.any (·.copiesExports) = true → "_all" ∉ p.identifiers ∧ "_key" ∉ p.identifiers)) := by
  refine ⟨applyEdits_commonJsEdits h hedits, fun x => ?_, ?_⟩
  · rw [Program.mem_rewrittenNames, Program.mem_topNames]
    constructor
    · rintro ⟨hbound, hlost⟩
      obtain ⟨hmade, himport, hkept⟩ : x ∉ p.introducedNames ∧ x ∉ p.importLocals ∧
          ¬ ∃ n ∈ p.body, x ∈ n.keptNames p.depth := by
        simpa only [not_or] using hlost
      refine ⟨?_, himport, fun n hn hx => hkept ⟨n, hn, hx⟩, hmade⟩
      rcases hbound with (hdefault | hbound) | hbound
      · exact hdefault
      · exact (hkept hbound).elim
      · exact (himport hbound).elim
    · rintro ⟨hdefault, himport, hkept, hmade⟩
      refine ⟨.inl (.inl hdefault), ?_⟩
      rintro (hx | hx | ⟨n, hn, hx⟩)
      · exact hmade hx
      · exact himport hx
      · exact hkept n hn hx
  · constructor
    · intro hfresh
      refine ⟨fun k hone hk => ?_, fun hcopies => ⟨?_, ?_⟩⟩
      · exact hfresh _ (Program.mem_introducedNames.mpr (.inl ⟨k, hone, hk, rfl⟩))
      · exact hfresh _ (Program.mem_introducedNames.mpr (.inr ⟨hcopies, .inl rfl⟩))
      · exact hfresh _ (Program.mem_introducedNames.mpr (.inr ⟨hcopies, .inr rfl⟩))
    · rintro ⟨hnumbered, hcopied⟩ x hx
      rcases Program.mem_introducedNames.mp hx with ⟨k, hone, hk, rfl⟩ | ⟨hcopies, rfl | rfl⟩
      · exact hnumbered k hone hk
      · exact (hcopied hcopies).1
      · exact (hcopied hcopies).2

/-- A module that uses its default value, and has a variable with a name that the rewrite makes up. -/
def takenNames : String :=
  "var _reexport1=3;export {a} from 'm';export default function f() {}\nf(_reexport1);"

/-- Its rewrite. -/
def takenNamesRewrite : String :=
  "var _reexport1=3;var _reexport1 = require(\"m\");\nexports[\"a\"] = _reexport1[\"a\"];" ++
    "exports.default = function f() {}\nf(_reexport1);"

/-- The rewrite does not bind `f`, and binds `_reexport1` again. -/
theorem commonJs_scope_iff_taken : ∃ p edits, Program.parse? {} takenNames = some p ∧
    commonJsEdits p.items = .ok edits ∧
    applyEdits takenNames edits = takenNamesRewrite ∧ "f" ∈ p.topNames ∧ "f" ∉ p.rewrittenNames ∧
    ∃ x ∈ p.introducedNames, x ∈ p.identifiers := by
  have hrun : ((Program.parse? {} takenNames).any fun p =>
      decide (p.Placed takenNames.toList) && (commonJsEdits p.items).isOk &&
      decide (p.rewritten.flatMap (·.chars takenNames.toList) = takenNamesRewrite.toList) &&
      decide ("f" ∈ p.defaultNames ∧ "f" ∉ p.importLocals ∧ (∀ n ∈ p.body, "f" ∉ n.keptNames p.depth) ∧
          "f" ∉ p.introducedNames) &&
      decide (1 ≤ p.items.countP takesExports ∧ reexportVariable 1 ∈ p.identifiers)) = true := by
    decide +kernel
  obtain ⟨p, hparse, hp⟩ := Option.any_eq_true _ _ |>.mp hrun
  simp only [Bool.and_eq_true, decide_eq_true_eq] at hp
  obtain ⟨⟨⟨⟨placed, accepted⟩, htext⟩, hlost⟩, htakes, htaken⟩ := hp
  obtain ⟨edits, hedits⟩ := exists_eq_ok_of_isOk accepted
  obtain ⟨happlied, hnames, hfresh⟩ := commonJs_scope_iff placed hedits
  refine ⟨p, edits, hparse, hedits, ?_, ?_⟩
  · rw [happlied, htext, String.ofList_toList]
  · obtain ⟨-, hf⟩ := (hnames "f").mpr hlost
    refine ⟨Program.mem_topNames.mpr (.inl hlost.1), hf, ?_⟩
    by_contra hnone
    have hall : ∀ x ∈ p.introducedNames, x ∉ p.identifiers := fun x hx htaken => hnone ⟨x, hx, htaken⟩
    exact (hfresh.mp hall).1 1 le_rfl htakes htaken

end ModuleBuild
