import ModuleBuild.Proofs.Helper.Code
import ModuleBuild.Proofs.Helper.ModuleText

/-!
# The units of helpers as listings

In each of its shapes, the unit that provides helpers is a listing: the functions of the helpers, and an
export list behind them or a function around them that is called at once and assigns them. So the parser reads
the unit as it is written, whatever is asked for.

## Main definitions

* `HelperBundleShape.program` — the program of a unit of helpers.

## Main statements

* `text_program` — the text of the unit is what the program is written as.
* `helperBundle_parse?` — the unit is read as its program.
-/

namespace ModuleBuild

open Script Phrase

/-! ## Pieces of the scripts -/

/-- The variable that the scripts add helpers to. -/
def namespaceName : Name := .mk helperNamespace (by decide)

/-- The parameter of the scripts' function: the global object. -/
def globalName : Name := .mk "global"

/-- What the scripts' function is called with. -/
def globalObject : Phrase .assignment :=
  .cond (.binary .different (.operand (.typeOf (.plain (ofName (.mk "globalThis"))))) (ofValue (.string "undefined")))
    (valueOf "globalThis") (alone .this)

/-- The object that a script adds helpers to: one that the global object has or gets, or one of its own. -/
def HelperBundleShape.object : HelperBundleShape → Phrase .assignment
  | .module | .var => alone .emptyObject
  | .global => .assign globalName (property₁ helperNamespace)
    (.simple (.binary .or (ofValue (.name globalName (property₁ helperNamespace))) (ofValue .emptyObject)))

/-- The statement of a script that adds a helper to the object. -/
def Helper.assignment (h : Helper) : Phrase (.statement true) :=
  .set namespaceName (property₁ h.name) (alone (ofName h.code.name))

/-! ## Programs -/

section

variable (shape : HelperBundleShape) (helpers provided : List Helper)

/-- The statements of a script's function. -/
def HelperBundleShape.statements : List (Phrase (.statement true)) :=
  .var namespaceName shape.object :: (helpers.map (·.code.phrase) ++ provided.map (·.assignment))

/-- The program of these helpers that provides those. -/
def HelperBundleShape.program : Listing :=
  match shape with
  | .module => helpers.map (·.code.phrase) ++ [.exports (provided.map fun h => (h.code.name, h.name))]
  | .global | .var => [.wrapped globalName (list (shape.statements helpers provided)) globalObject]

end

section

variable {shape : HelperBundleShape} {helpers provided : List Helper}

theorem program_script (h : shape ≠ .module) : shape.program helpers provided =
    [.wrapped globalName (list (shape.statements helpers provided)) globalObject] := by
  cases shape with
  | module => exact absurd rfl h
  | global | var => rfl

/-! ## What they are written as -/

theorem chars_globalObject : rowChars (globalObject.row [] 0) =
    "typeof globalThis !== \"undefined\" ? globalThis : this".toList := by
  decide +kernel

/-- A script starts with its function and the variable that helpers are added to. -/
theorem opening_script (h : shape ≠ .module) : shape.opening.toList =
    ("(function (" ++ globalName.text ++ ") \x7b\n").toList ++
    ((.var namespaceName shape.object : Phrase (.statement true)).chars ++ ['\n']) := by
  cases shape with
  | module => exact absurd rfl h
  | global | var => decide +kernel

theorem chars_assignment {h : Helper} (hh : h ∈ helperRegistry) :
    h.assignment.chars = (helperNamespace ++ "." ++ h.name ++ " = " ++ h.localName ++ ";").toList := by
  simp [Phrase.chars, Helper.assignment, row, Lexeme.chars, Glyph.chars, property₁, alone, ofValue, ofName,
    namespaceName,
    name_code h hh]

theorem flatMap_functions {returns : Bool} (hhelpers : ∀ h ∈ helpers, h ∈ helperRegistry) :
    (helpers.map fun h => (h.code.phrase : Phrase (.statement returns))).flatMap (fun s => s.chars ++ ['\n']) =
      (String.join (helpers.map fun h => h.body ++ "\n")).toList := by
  rw [String.toList_join, List.flatMap_map, List.flatMap_map]
  refine List.flatMap_congr fun h hh => ?_
  simp [chars_code h (hhelpers h hh)]

theorem flatMap_assignments (hprovided : ∀ h ∈ provided, h ∈ helperRegistry) :
    (provided.map (·.assignment)).flatMap (fun s => s.chars ++ ['\n']) =
      (String.join (provided.map fun h =>
        helperNamespace ++ "." ++ h.name ++ " = " ++ h.localName ++ ";\n")).toList := by
  rw [String.toList_join, List.flatMap_map, List.flatMap_map]
  refine List.flatMap_congr fun h hh => ?_
  simp [chars_assignment (hprovided h hh)]

theorem closing_module (hprovided : ∀ h ∈ provided, h ∈ helperRegistry) :
    (HelperBundleShape.module.closing provided).toList =
    (.exports (provided.map fun h => (h.code.name, h.name)) : Phrase (.statement false)).chars ++ ['\n'] := by
  have hentries : (provided.map fun h => (h.code.name, h.name)).map (fun e => e.1.text ++ " as " ++ e.2) =
      provided.map fun h => h.localName ++ " as " ++ h.name := by
    rw [List.map_map]
    refine List.map_congr_left fun h hh => ?_
    rw [Function.comp_apply, name_code h (hprovided h hh)]
  rw [chars_exports, hentries, HelperBundleShape.closing]
  simp

theorem closing_script (h : shape ≠ .module) (hprovided : ∀ h ∈ provided, h ∈ helperRegistry) :
    (shape.closing provided).toList = (provided.map (·.assignment)).flatMap (fun s => s.chars ++ ['\n']) ++
      "\x7d)(".toList ++ rowChars (globalObject.row [] 0) ++ ");".toList ++ ['\n'] := by
  rw [flatMap_assignments hprovided, chars_globalObject]
  cases shape with
  | module => exact absurd rfl h
  | global | var =>
    rw [HelperBundleShape.closing]
    simp

/-- The text of the unit is what the program is written as. -/
theorem text_program (hhelpers : ∀ h ∈ helpers, h ∈ helperRegistry) (hprovided : ∀ h ∈ provided, h ∈ helperRegistry) :
    (shape.program helpers provided).text =
      shape.opening ++ String.join (helpers.map fun h => h.body ++ "\n") ++ shape.closing provided := by
  rw [← String.toList_inj, String.toList_append, String.toList_append]
  by_cases hshape : shape = .module
  · obtain rfl := hshape
    have hne : HelperBundleShape.module.program helpers provided ≠ [] := by simp [HelperBundleShape.program]
    have hopening : HelperBundleShape.module.opening.toList = [] := rfl
    rw [Listing.toList_text hne, closing_module hprovided, ← @flatMap_functions _ false hhelpers, hopening,
      List.nil_append, HelperBundleShape.program, List.flatMap_append, List.flatMap_singleton]
  · rw [opening_script hshape, closing_script hshape hprovided, ← @flatMap_functions _ true hhelpers]
    rw [program_script hshape, Listing.toList_text (List.cons_ne_nil _ _), List.flatMap_singleton, chars_wrapped,
      HelperBundleShape.statements, List.flatMap_cons, List.flatMap_append]
    simp only [List.append_assoc]

/-! ## Their tokens -/

/-- Names of helpers and of their bindings are words, and the assignments of helpers are clear. -/
theorem clear_names : ∀ h ∈ helperRegistry, (Glyph.word h.code.name.text).Clear none ∧ (Glyph.word h.name).Clear none ∧
    Spelled (some '\n') (h.assignment.row [] 0) := by
  decide +kernel

theorem spelled_program (hhelpers : ∀ h ∈ helpers, h ∈ helperRegistry)
    (hprovided : ∀ h ∈ provided, h ∈ helperRegistry) :
    Spelled none (shape.program helpers provided).row := by
  have hfunctions {returns : Bool} : ∀ s ∈ helpers.map (fun h => (h.code.phrase : Phrase (.statement returns))),
      Spelled (some '\n') (s.row [] 0) := by
    intro s hs
    obtain ⟨h, hh, rfl⟩ := List.mem_map.1 hs
    exact (clear_code h (hhelpers h hh)).spelled
  have hscript (shape : HelperBundleShape) : Spelled (some '\n')
      ((.wrapped globalName (list (shape.statements helpers provided)) globalObject :
        Phrase (.statement false)).row [] 0) := by
    refine spelled_wrapped (by decide) ?_ (by decide +kernel)
    refine List.forall_mem_cons.2 ⟨?_, List.forall_mem_append.2 ⟨hfunctions, ?_⟩⟩
    · cases shape <;> decide +kernel
    · intro s hs
      obtain ⟨h, hh, rfl⟩ := List.mem_map.1 hs
      exact (clear_names h (hprovided h hh)).2.2
  refine Listing.spelled_row ?_
  cases shape with
  | module =>
    refine List.forall_mem_append.2 ⟨hfunctions, List.forall_mem_singleton.2 (spelled_exports fun e he => ?_)⟩
    obtain ⟨h, hh, rfl⟩ := List.mem_map.1 he
    obtain ⟨hlocal, hname, -⟩ := clear_names h (hprovided h hh)
    exact ⟨hlocal, hname⟩
  | global | var => exact List.forall_mem_singleton.2 (hscript _)

/-! ## What they are read as -/

theorem names_providedOf_nodup {whitelist : Option (List String)} : ((providedOf whitelist).map (·.name)).Nodup :=
  (Registry.names_closure_nodup _).sublist (List.Sublist.map _ List.filter_sublist)

theorem allDifferent_iff {names : List String} : allDifferent names = true ↔ names.Nodup := by
  induction names with
  | nil => simp [allDifferent]
  | cons name names ih => simp [allDifferent, ih]

/-- Only the module exports something: what it provides. -/
theorem exported_program : (shape.program helpers provided).flatMap exported =
    if shape = .module then provided.map (·.name) else [] := by
  have hfunctions : (helpers.map fun h => (h.code.phrase : Phrase (.statement false))).flatMap exported = [] := by
    simp [List.flatMap_map, PlainFunction.phrase, exported]
  cases shape with
  | module => simp [HelperBundleShape.program, hfunctions, exported]
  | global | var => simp [HelperBundleShape.program, exported]

end

/-- Whatever is asked for, the unit is read as its program. -/
theorem helperBundle_parse? (whitelist : Option (List String)) (shape : HelperBundleShape) {dialect : Dialect}
    (htypes : dialect.hasTypes = false) (hmarkup : dialect.hasMarkup = false) : ∃ p,
    Program.parse? dialect (helperBundle helperRegistry whitelist shape) = some p ∧
      (shape.program (helpersOf whitelist) (providedOf whitelist)).Shape p.body := by
  have hhelpers : ∀ h ∈ helpersOf whitelist, h ∈ helperRegistry := fun h => mem_helperRegistry_of_mem_helpersOf
  have hprovided : ∀ h ∈ providedOf whitelist, h ∈ helperRegistry := fun h hh =>
    hhelpers h (mem_helpersOf_of_mem_providedOf hh)
  have htext : (shape.program (helpersOf whitelist) (providedOf whitelist)).text =
      helperBundle helperRegistry whitelist shape :=
    text_program hhelpers hprovided
  have hexports :
      allDifferent ((shape.program (helpersOf whitelist) (providedOf whitelist)).flatMap exported) = true := by
    rw [allDifferent_iff, exported_program]
    split
    · exact names_providedOf_nodup
    · exact List.nodup_nil
  rw [← htext]
  exact Listing.parse?_text htypes hmarkup (spelled_program hhelpers hprovided) hexports

end ModuleBuild
