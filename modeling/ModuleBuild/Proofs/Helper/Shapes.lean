import ModuleBuild.Proofs.Helper.ReadBack
import ModuleBuild.Script.Names

/-!
# What the units of helpers give out

All shapes of the unit of helpers have the same functions, and give the same ones out under the same names: as
exports, or as members of the object of one variable. In both scripts this variable is one of a function that is
called at once, so that code behind a script only sees what the global object gets. The object of the first script
is a member of the global object. The object of the second one is not, and nothing behind this script finds it.

## Main definitions

* `exportPairs`, `memberPairs`, `declarations` — what statements export, assign to an object and declare.
* `Provides` — statements declare helpers and give some of them out.
* `Program.Wraps` — a program only calls a function of its own with the global object.
* `Program.outerNames` — the names that code behind a program sees.

## Main statements

* `helperBundle_provides` — what the three shapes give out.
-/

namespace ModuleBuild

namespace Script

/-! ## What statements give out -/

/-- What an export list of the module's own variables exports: the names, with the variables. -/
def exportPairs : Node → List (String × String)
  | .exportList _ specifiers none _ => specifiers.map fun s => (s.exported.text, s.localName.text)
  | _ => []

/-- What a statement assigns to the object of a variable: the member, with the variable that has its value. -/
def memberPairs (object : String) : Node → List (String × String)
  | .expr _ (.assign _ op (.member _ (.ident _ x) key false) (.ident _ value)) =>
    if op = "=" ∧ x = object then [(key, value)] else []
  | _ => []

/-- The function or class that a statement declares. -/
def declarations : Node → List Node
  | .decl n => [n]
  | _ => []

/-- A program only calls a function of these statements, with the global object as its parameter. -/
def Program.Wraps (p : Program) (ns : List Node) : Prop :=
  ∃ span callSpan parenSpan funcSpan paramSpan bodySpan argument,
    p.body = [.expr span (.call callSpan (.paren parenSpan (.func funcSpan { isWrapped := true } none
      [.binding paramSpan "global"] (.body bodySpan ns))) [argument] false false)] ∧ globalObject.Shape argument

/-- The variables of a program that code behind it sees. -/
def Program.outerNames (fuel : Nat) (p : Program) : List String :=
  p.body.flatMap fun n => declaredNames fuel n ++ hoistedNames fuel n

/-- Nodes other than `var` hoist what is hoisted inside. -/
theorem hoistedNames_eq_nil {n : Node} (hn : ∀ span kind declarators, n ≠ .var span kind declarators)
    (hchildren : ∀ m ∈ n.children, ∀ fuel, hoistedNames fuel m = []) (fuel : Nat) : hoistedNames fuel n = [] := by
  cases fuel with
  | zero => rfl
  | succ fuel =>
    unfold hoistedNames
    split
    · rfl
    · rfl
    · rfl
    · exact absurd rfl (hn _ _ _)
    · exact List.flatMap_eq_nil_iff.2 fun m hm => hchildren m hm fuel

end Script

open Script Phrase

/-- Statements declare the functions of these helpers, and give those out: each under its name, by its binding. -/
structure Provides (helpers provided : List Helper) (pairs : Node → List (String × String))
    (ns : List Node) : Prop where
  functions : List.Forall₂ (fun (h : Helper) f => h.code.Shape f) helpers (ns.flatMap declarations)
  pairs : ns.flatMap pairs = provided.map fun h => (h.name, h.localName)

/-- An object that the global object has, or gets as an empty one. -/
def IsSharedObject (n : Node) : Prop :=
  ∃ span targetSpan globalSpan orSpan memberSpan globalSpan' objectSpan,
    n = .assign span "=" (.member targetSpan (.ident globalSpan "global") helperNamespace false)
      (.binary orSpan "||" (.member memberSpan (.ident globalSpan' "global") helperNamespace false)
      (.object objectSpan []))

/-- An object of its own, which is empty. -/
def IsOwnObject (n : Node) : Prop :=
  ∃ span, n = .object span []

/-- A script gives helpers out by an object of this kind: no variable of it is seen behind it, and its function
starts with the variable of the object, declares helpers, makes some of them members of this, and does nothing else. -/
structure GivesBy (object : Node → Prop) (helpers provided : List Helper) (p : Program) : Prop where
  outer : ∀ fuel, p.outerNames fuel = []
  inner : ∃ span span' nameSpan value rest, object value ∧
    p.Wraps (.var span .varDecl [.declarator span' (.binding nameSpan helperNamespace) (some value)] :: rest) ∧
    Provides helpers provided (memberPairs helperNamespace) rest ∧ rest.length = helpers.length + provided.length

/-! ## Parts of the units -/

theorem shape_append {returns : Bool} {xs ys : List (Phrase (.statement returns))} {ns : List Node}
    (h : List.Forall₂ (fun s n => s.Shape n) (xs ++ ys) ns) : ∃ ms rest, ns = ms ++ rest ∧
      List.Forall₂ (fun s n => s.Shape n) xs ms ∧ List.Forall₂ (fun s n => s.Shape n) ys rest :=
  ⟨ns.take xs.length, ns.drop xs.length, (List.take_append_drop ..).symm,
    by simpa using List.forall₂_take xs.length h, by simpa using List.forall₂_drop xs.length h⟩

/-- Functions are declared, and nothing is given out with them. -/
theorem functions_declare {returns : Bool} {helpers : List Helper} {ns : List Node}
    (h : List.Forall₂ (fun s n => s.Shape n) (helpers.map fun h => (h.code.phrase : Phrase (.statement returns))) ns) :
    List.Forall₂ (fun (h : Helper) f => h.code.Shape f) helpers (ns.flatMap declarations) ∧
      ns.flatMap exportPairs = [] ∧ ∀ object, ns.flatMap (memberPairs object) = [] := by
  rw [List.forall₂_map_left_iff] at h
  induction h with
  | nil => exact ⟨.nil, rfl, fun _ => rfl⟩
  | cons hn _ ih =>
    obtain ⟨f, rfl, hf⟩ := PlainFunction.shape_phrase.1 hn
    obtain ⟨hdeclared, hexports, hmembers⟩ := ih
    exact ⟨.cons hf hdeclared, hexports, hmembers⟩

/-- The statements behind the functions of a script give helpers out, and declare nothing. -/
theorem assignments_give {provided : List Helper} (hprovided : ∀ h ∈ provided, h ∈ helperRegistry) {ns : List Node}
    (h : List.Forall₂ (fun s n => s.Shape n) (provided.map (·.assignment)) ns) : ns.flatMap declarations = [] ∧
      ns.flatMap (memberPairs helperNamespace) = provided.map fun h => (h.name, h.localName) := by
  rw [List.forall₂_map_left_iff] at h
  induction h with
  | nil => exact ⟨rfl, rfl⟩
  | @cons h n provided ns hn _ ih =>
    obtain ⟨hh, hprovided⟩ := List.forall_mem_cons.1 hprovided
    obtain ⟨span, span', inner, target, m, rfl, ⟨targetSpan, rfl⟩, ⟨valueSpan, rfl⟩⟩ := hn
    obtain ⟨hdeclared, hmembers⟩ := ih hprovided
    refine ⟨hdeclared, ?_⟩
    rw [List.flatMap_cons, hmembers, List.map_cons, ← name_code h hh]
    rfl

/-- The global object hoists nothing. -/
theorem hoistedNames_globalObject {n : Node} (h : globalObject.Shape n) (fuel : Nat) : hoistedNames fuel n = [] := by
  obtain ⟨span, a, b, c, rfl, ⟨_, _, _, rfl, ⟨_, _, rfl, _, rfl⟩, _, rfl⟩, ⟨_, rfl⟩, _, rfl⟩ := h
  have hleaf {m : Node} (hm : m.children = []) (hvar : ∀ span kind declarators, m ≠ .var span kind declarators)
      (fuel : Nat) :
      hoistedNames fuel m = [] :=
    hoistedNames_eq_nil hvar (by simp [hm]) fuel
  refine hoistedNames_eq_nil (by simp) (List.forall_mem_cons.2 ⟨hoistedNames_eq_nil (by simp) ?_, ?_⟩) fuel
  · refine List.forall_mem_cons.2 ⟨hoistedNames_eq_nil (by simp) ?_, ?_⟩
    · exact List.forall_mem_singleton.2 (hleaf rfl (by simp))
    · exact List.forall_mem_singleton.2 (hleaf rfl (by simp))
  · exact List.forall_mem_cons.2 ⟨hleaf rfl (by simp), List.forall_mem_singleton.2 (hleaf rfl (by simp))⟩

/-- Code behind a program that only calls a function sees no variable of it. -/
theorem outerNames_eq_nil {p : Program} {ns : List Node} (h : p.Wraps ns) (fuel : Nat) : p.outerNames fuel = [] := by
  obtain ⟨span, callSpan, parenSpan, funcSpan, paramSpan, bodySpan, argument, hbody, hargument⟩ := h
  have hfunction (fuel : Nat) : hoistedNames fuel (.func funcSpan { isWrapped := true } none
      [.binding paramSpan "global"]       (.body bodySpan ns)) = [] := by
    cases fuel <;> rfl
  have hhoisted (fuel : Nat) : hoistedNames fuel (.expr span
      (.call callSpan (.paren parenSpan (.func funcSpan { isWrapped := true } none
      [.binding paramSpan "global"] (.body bodySpan ns))) [argument] false false)) = [] := by
    refine hoistedNames_eq_nil (by simp) (List.forall_mem_singleton.2 (hoistedNames_eq_nil (by simp) ?_)) fuel
    refine List.forall_mem_cons.2 ⟨hoistedNames_eq_nil (by simp) (List.forall_mem_singleton.2 hfunction), ?_⟩
    exact List.forall_mem_singleton.2 (hoistedNames_globalObject hargument)
  rw [Program.outerNames, hbody, List.flatMap_singleton, hhoisted]
  rfl

/-! ## The shapes -/

section

variable {shape : HelperBundleShape} {helpers provided : List Helper}

/-- The object of a script is shared or its own. -/
theorem isObject_of_shape {n : Node} (h : shape.object.Shape n) :
    if shape = .global then IsSharedObject n else IsOwnObject n := by
  cases shape with
  | module | var => exact h
  | global =>
    obtain ⟨span, globalSpan, target, value, rfl, ⟨targetSpan, rfl⟩, orSpan, a, b, rfl,
        ⟨globalSpan', memberSpan, rfl⟩, objectSpan, rfl⟩ := h
    exact ⟨_, _, _, _, _, _, _, rfl⟩

theorem script_gives (hshape : shape ≠ .module) (hprovided : ∀ h ∈ provided, h ∈ helperRegistry) {p : Program}
    (h : (shape.program helpers provided).Shape p.body) :
    GivesBy (fun n => if shape = .global then IsSharedObject n else IsOwnObject n) helpers provided p := by
  rw [program_script hshape] at h
  obtain ⟨n, rest, ⟨span, callSpan, parenSpan, funcSpan, paramSpan, bodySpan, ns, argument, rfl, hns, hargument⟩,
      hrest, hbody⟩ :=
    List.forall₂_cons_left_iff.1 h
  obtain rfl := List.forall₂_nil_left_iff.1 hrest
  have hwraps : p.Wraps ns := ⟨span, callSpan, parenSpan, funcSpan, paramSpan, bodySpan, argument, hbody, hargument⟩
  refine ⟨outerNames_eq_nil hwraps, ?_⟩
  obtain ⟨first, rest, ⟨varSpan, span', nameSpan, value, rfl, hvalue⟩, hrest, rfl⟩ :=
    List.forall₂_cons_left_iff.1 (shape_list.1 hns)
  obtain ⟨functions, assignments, rfl, hfunctions, hassignments⟩ := shape_append hrest
  obtain ⟨hdeclared, -, hnone⟩ := functions_declare hfunctions
  obtain ⟨hnothing, hmembers⟩ := assignments_give hprovided hassignments
  refine ⟨varSpan, span', nameSpan, value, functions ++ assignments, isObject_of_shape hvalue, hwraps, ⟨?_, ?_⟩, ?_⟩
  · rw [List.flatMap_append, hnothing, List.append_nil]
    exact hdeclared
  · rw [List.flatMap_append, hnone, hmembers, List.nil_append]
  · simpa using hrest.length_eq.symm

theorem module_gives (hprovided : ∀ h ∈ provided, h ∈ helperRegistry) {ns : List Node}
    (h : (HelperBundleShape.module.program helpers provided).Shape ns) : Provides helpers provided exportPairs ns := by
  obtain ⟨functions, rest, rfl, hfunctions, hrest⟩ := shape_append h
  obtain ⟨hdeclared, hnone, -⟩ := functions_declare hfunctions
  obtain ⟨n, last, ⟨span, rfl⟩, hlast, rfl⟩ := List.forall₂_cons_left_iff.1 hrest
  obtain rfl := List.forall₂_nil_left_iff.1 hlast
  constructor
  · rw [List.flatMap_append]
    simpa [declarations] using hdeclared
  · rw [List.flatMap_append, hnone, List.flatMap_singleton, List.nil_append, exportPairs, List.map_map, List.map_map]
    refine List.map_congr_left fun h hh => ?_
    rw [← name_code h (hprovided h hh)]
    rfl

end

/-- Whatever is asked for, all shapes of the unit declare the functions of the same helpers, as their texts say.
They give the ones out that are asked for, each under its name: the module as exports, the scripts as members of an
object. The first script shares the object with the global object. The second one has an object of its own, in a
variable of a function that is called at once, so that code behind it sees neither. -/
theorem helperBundle_provides (whitelist : Option (List String)) :
    (∃ m, Program.parse? {} (helperBundle helperRegistry whitelist .module) = some m ∧
      Provides (helpersOf whitelist) (providedOf whitelist) exportPairs m.body) ∧
    (∃ s, Program.parse? { isModule := false } (helperBundle helperRegistry whitelist .global) = some s ∧
      GivesBy IsSharedObject (helpersOf whitelist) (providedOf whitelist) s) ∧
    (∃ s, Program.parse? { isModule := false } (helperBundle helperRegistry whitelist .var) = some s ∧
      GivesBy IsOwnObject (helpersOf whitelist) (providedOf whitelist) s) ∧
    ∀ h ∈ helpersOf whitelist, h.code.chars = h.body.toList := by
  have hhelpers : ∀ h ∈ helpersOf whitelist, h ∈ helperRegistry := fun h => mem_helperRegistry_of_mem_helpersOf
  have hprovided : ∀ h ∈ providedOf whitelist, h ∈ helperRegistry := fun h hh =>
    hhelpers h (mem_helpersOf_of_mem_providedOf hh)
  refine ⟨?_, ?_, ?_, fun h hh => chars_code h (hhelpers h hh)⟩
  · obtain ⟨m, hm, hshape⟩ := @helperBundle_parse? whitelist .module {} rfl rfl
    exact ⟨m, hm, module_gives hprovided hshape⟩
  · obtain ⟨s, hs, hshape⟩ := @helperBundle_parse? whitelist .global { isModule := false } rfl rfl
    exact ⟨s, hs, by simpa using script_gives (by simp) hprovided hshape⟩
  · obtain ⟨s, hs, hshape⟩ := @helperBundle_parse? whitelist .var { isModule := false } rfl rfl
    exact ⟨s, hs, by simpa using script_gives (by simp) hprovided hshape⟩

end ModuleBuild
