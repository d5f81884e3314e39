import Mathlib
import ModuleBuild.Bundle.Graph
import ModuleBuild.Proofs.Answer
import ModuleBuild.Proofs.Association
import ModuleBuild.Proofs.Helper.Closure
import ModuleBuild.Proofs.Text.Words

/-!
# The helper module as it is written

The helper module is a row of function declarations with one export list behind them. A parser that
reads it so, under its own names or under the new names that linking gives it, finds a record in which
each helper that is provided is exported under its name.

## Main definitions

* `helpersOf`, `providedOf` — the helpers that the module declares, and those that it exports.
* `newName` — the name of a helper binding under renames.
* `HelperModuleRead` — a parser reads the helper module as it is written, before and behind its renaming.

## Main statements

* `newName_not_mem_owned` — under its new names the helper module has no name of another module.
* `newName_inj` — it has as many names as before.
* `helperModule_ok`, `helperModule_text` — the record and the text of the helper module.
* `lookup_exports_helper` — what it exports.
-/

namespace ModuleBuild

open Script Text

/-! ## New names -/

/-- The search for a free name ends before the names run out. -/
theorem freeName_not_mem (taken : List String) (name : String) (i : Nat) :
    freeName taken.contains name taken.length i ∉ taken := by
  have hsearch (fuel i : Nat) : freeName taken.contains name fuel i ∉ taken ∨
      ∀ j ∈ List.range' i (fuel + 1), name ++ toString j ∈ taken := by
    induction fuel generalizing i with
    | zero =>
      by_cases h : name ++ toString i ∈ taken
      · refine .inr fun j hj => ?_
        obtain rfl : j = i := by simpa using hj
        exact h
      · exact .inl h
    | succ fuel ih =>
      by_cases h : name ++ toString i ∈ taken
      · rw [freeName, if_pos (by simpa using h)]
        refine (ih (i + 1)).imp id fun hall j hj => ?_
        rw [List.range'_succ] at hj
        rcases List.mem_cons.1 hj with rfl | hj
        · exact h
        · exact hall j hj
      · rw [freeName, if_neg (by simpa using h)]
        exact .inl h
  rcases hsearch taken.length i with h | hall
  · exact h
  · -- More names than are taken would be among those that are.
    have hnodup : ((List.range' i (taken.length + 1)).map fun j => name ++ toString j).Nodup := by
      refine List.Nodup.map (fun a b hab => ?_) List.nodup_range'
      exact Nat.repr_inj.1 ((String.append_right_inj _).1 hab)
    have hsub : ((List.range' i (taken.length + 1)).map fun j => name ++ toString j) ⊆ taken := by
      intro n hn
      obtain ⟨j, hj, rfl⟩ := List.mem_map.1 hn
      exact hall j hj
    have hlength := (List.subperm_of_subset hnodup hsub).length_le
    simp at hlength

/-- The name of a helper binding under renames. -/
def newName (renames : List (String × String)) (name : String) : String :=
  (renames.lookup name).getD name

/-- Each name of the helper module that another module owns gets a name that none owns. -/
theorem lookup_helperRenames (owned declared : List String) :
    (∀ name new, (helperRenames owned declared).lookup name = some new → new ∉ owned) ∧
      ∀ name ∈ declared, name ∈ owned → (helperRenames owned declared).lookup name ≠ none := by
  have hfold (clashing : List String) (renames : List (String × String))
      (hnew : ∀ name new, renames.lookup name = some new → new ∉ owned) :
      let result := clashing.foldl (fun renames name =>
        let taken := owned ++ declared ++ renames.map (·.2)
        let fresh := freeName taken.contains name taken.length 2
        (name, fresh) :: renames.filter (·.1 != name)) renames
      (∀ name new, result.lookup name = some new → new ∉ owned) ∧
        ∀ name, name ∈ clashing ∨ renames.lookup name ≠ none → result.lookup name ≠ none := by
    induction clashing generalizing renames with
    | nil => exact ⟨hnew, fun name h => h.resolve_left (by simp)⟩
    | cons first rest ih =>
      rw [List.foldl_cons]
      dsimp only
      refine (ih _ ?_).imp_right fun hsome name h => hsome name ?_
      · intro name new hlookup
        rw [lookup_replace] at hlookup
        split at hlookup
        · obtain rfl := Option.some.inj hlookup
          have hfree := freeName_not_mem (owned ++ declared ++ renames.map (·.2)) first 2
          exact fun hmem => hfree (List.mem_append_left _ (List.mem_append_left _ hmem))
        · exact hnew name new hlookup
      · rw [lookup_replace]
        by_cases hname : name = first
        · simp [hname]
        · rw [if_neg hname]
          exact h.imp_left fun hmem => (List.mem_cons.1 hmem).resolve_left hname
  obtain ⟨hnew, hsome⟩ := hfold (declared.filter owned.contains) [] (by simp)
  exact ⟨hnew, fun name hdeclared howned =>
    hsome name (.inl (List.mem_filter.2 ⟨hdeclared, by simpa using howned⟩))⟩

/-- Under its new names the helper module has no name of another module. -/
theorem newName_not_mem_owned {owned declared : List String} {name : String} (h : name ∈ declared) :
    newName (helperRenames owned declared) name ∉ owned := by
  obtain ⟨hnew, hsome⟩ := lookup_helperRenames owned declared
  unfold newName
  cases hlookup : (helperRenames owned declared).lookup name with
  | some new => exact hnew name new hlookup
  | none => exact fun howned => hsome name h howned hlookup

/-- New names are not among the names of the helper module, and each is the one of one name. -/
theorem helperRenames_inj (owned declared : List String) :
    (∀ name new, (helperRenames owned declared).lookup name = some new → new ∉ declared) ∧
      ∀ a b new, (helperRenames owned declared).lookup a = some new →
        (helperRenames owned declared).lookup b = some new → a = b := by
  unfold helperRenames
  generalize declared.filter owned.contains = clashing
  dsimp only
  generalize hnone : ([] : List (String × String)) = renames
  have hnew : ∀ name new, renames.lookup name = some new → new ∉ declared := by simp [← hnone]
  have hinj : ∀ a b new, renames.lookup a = some new → renames.lookup b = some new → a = b := by
    simp [← hnone]
  clear hnone
  induction clashing generalizing renames with
  | nil => exact ⟨hnew, hinj⟩
  | cons first rest ih =>
    have hfree := freeName_not_mem (owned ++ declared ++ renames.map (·.2)) first 2
    simp only [List.mem_append, not_or] at hfree
    obtain ⟨⟨-, hdeclared⟩, hused⟩ := hfree
    have hold {name : String} : renames.lookup name ≠ some (freeName
        (owned ++ declared ++ renames.map (·.2)).contains first
        (owned ++ declared ++ renames.map (·.2)).length 2) :=
      fun h => hused (List.mem_map_of_mem (mem_of_lookup h))
    rw [List.foldl_cons]
    refine ih _ ?_ ?_
    · intro name new hlookup
      rw [lookup_replace] at hlookup
      split at hlookup
      · exact Option.some.inj hlookup ▸ hdeclared
      · exact hnew name new hlookup
    · intro a b new ha hb
      rw [lookup_replace] at ha hb
      split at ha <;> split at hb
      · rename_i hfirst hsecond
        rw [hfirst, hsecond]
      · exact absurd (hb.trans ha.symm) hold
      · exact absurd (ha.trans hb.symm) hold
      · exact hinj a b new ha hb

/-- Different names of the helper module get different new names. -/
theorem newName_inj {owned declared : List String} {a b : String} (ha : a ∈ declared) (hb : b ∈ declared)
    (h : newName (helperRenames owned declared) a = newName (helperRenames owned declared) b) : a = b := by
  obtain ⟨hnew, hinj⟩ := helperRenames_inj owned declared
  unfold newName at h
  cases hlookup : (helperRenames owned declared).lookup a with
  | none =>
    cases hlookup' : (helperRenames owned declared).lookup b with
    | none => simpa [hlookup, hlookup'] using h
    | some new =>
      obtain rfl : a = new := by simpa [hlookup, hlookup'] using h
      exact absurd ha (hnew b a hlookup')
  | some new =>
    cases hlookup' : (helperRenames owned declared).lookup b with
    | none =>
      obtain rfl : new = b := by simpa [hlookup, hlookup'] using h
      exact absurd hb (hnew a new hlookup)
    | some new' =>
      obtain rfl : new = new' := by simpa [hlookup, hlookup'] using h
      exact hinj a b new hlookup hlookup'

/-! ## The text -/

/-- The helpers that the helper module is asked for. -/
def requestedOf (whitelist : Option (List String)) : List String :=
  whitelist.getD (helperRegistry.map (·.name))

/-- The helpers that the helper module declares. -/
def helpersOf (whitelist : Option (List String)) : List Helper :=
  helperRegistry.closure (requestedOf whitelist)

/-- The helpers that the helper module exports. -/
def providedOf (whitelist : Option (List String)) : List Helper :=
  (helpersOf whitelist).filter fun h => (requestedOf whitelist).contains h.name

/-- Whether a whitelist lets a helper through; none lets all through. -/
def Allowed (whitelist : Option (List String)) (name : String) : Prop :=
  ∀ names ∈ whitelist, name ∈ names

/-- The helper module exports the helpers of the registry that the whitelist lets through. -/
theorem mem_providedOf {whitelist : Option (List String)} {h : Helper} :
    h ∈ providedOf whitelist ↔ helperRegistry.get? h.name = some h ∧ Allowed whitelist h.name := by
  have hrequested (hget : helperRegistry.get? h.name = some h) :
      h.name ∈ requestedOf whitelist ↔ Allowed whitelist h.name := by
    cases whitelist with
    | none =>
      have hmem : h.name ∈ requestedOf none := List.mem_map_of_mem (List.mem_of_find?_eq_some hget)
      simp [hmem, Allowed]
    | some names => simp [requestedOf, Allowed]
  rw [providedOf, List.mem_filter, List.contains_iff_mem]
  constructor
  · rintro ⟨hmem, hname⟩
    have hget := Registry.get?_of_mem_closure hmem
    exact ⟨hget, (hrequested hget).1 hname⟩
  · rintro ⟨hget, hallowed⟩
    have hname := (hrequested hget).2 hallowed
    exact ⟨Registry.mem_closure_of_mem hname hget, hname⟩

/-- The new names of the helper module beside other modules. -/
def helperNewNames (whitelist : Option (List String)) (owned : List String) : List (String × String) :=
  helperRenames owned ((helpersOf whitelist).map (·.localName))

/-- A parser reads a text as declarations of helpers under some names, with one export list behind
them. -/
def ReadAs (read : String → Option (List ModuleItem)) (text : String) (localOf : String → String)
    (helpers provided : List Helper) : Prop :=
  ∃ (spans : List Span) (last : Span), spans.length = helpers.length ∧
    read text = some (List.zipWith
      (fun (h : Helper) span => ModuleItem.declaration span (some [localOf h.localName])) helpers spans ++
      [.exportList last (provided.map fun h => (localOf h.localName, h.name)) none])

/-- A parser reads the helper module as it is written, and still does so when the names that other
modules own are replaced. -/
structure HelperModuleRead (read : String → Option (List ModuleItem))
    (whitelist : Option (List String)) (owned : List String) : Prop where
  written : ReadAs read (helperBundle helperRegistry whitelist .module) id (helpersOf whitelist)
    (providedOf whitelist)
  renamed : let renames := helperNewNames whitelist owned
    renames ≠ [] →
      ReadAs read (rename (fun name => renames.lookup name) (helperBundle helperRegistry whitelist .module))
        (newName renames) (helpersOf whitelist) (providedOf whitelist)

/-- Whatever names are replaced, the helper module is read as it is linked. -/
theorem HelperModuleRead.linked {read : String → Option (List ModuleItem)}
    {whitelist : Option (List String)} {owned : List String} (h : HelperModuleRead read whitelist owned) :
    ReadAs read (rename (fun name => (helperNewNames whitelist owned).lookup name)
        (helperBundle helperRegistry whitelist .module))
      (newName (helperNewNames whitelist owned)) (helpersOf whitelist) (providedOf whitelist) := by
  by_cases hnone : helperNewNames whitelist owned = []
  · rw [hnone, rename_eq_self (fun _ _ hnew => by cases hnew)]
    exact h.written
  · exact h.renamed hnone

/-! ## The record -/

/-- The record of a text that is read as helpers. -/
theorem ReadAs.record {read : String → Option (List ModuleItem)} {text : String}
    {localOf : String → String} {helpers provided : List Helper}
    (h : ReadAs read text localOf helpers provided) (id defaultLocal : String) :
    ∃ record, ModuleRecord.ofText read id text defaultLocal = .ok record ∧
      record.imports = [] ∧ record.declared = helpers.map (fun h => localOf h.localName) ∧
      record.exports = provided.map fun h => (h.name, localOf h.localName) := by
  obtain ⟨spans, last, hlength, hread⟩ := h
  unfold ModuleRecord.ofText
  simp only [hread]
  clear hread
  generalize text.toList = source
  induction helpers generalizing spans with
  | nil =>
    refine ⟨_, rfl, rfl, rfl, ?_⟩
    simp [ModuleRecord.append]
  | cons first rest ih =>
    obtain _ | ⟨span, spans⟩ := spans
    · simp at hlength
    · obtain ⟨record, hrecord, himports, hdeclared, hexports⟩ := ih spans (by simpa using hlength)
      refine ⟨(ModuleRecord.append { declared := [localOf first.localName] } record), ?_, ?_, ?_, ?_⟩
      · rw [List.zipWith_cons_cons, List.cons_append, ModuleRecord.ofItems, hrecord]
        rfl
      · simp [ModuleRecord.append, himports]
      · simp [ModuleRecord.append, hdeclared]
      · simp [ModuleRecord.append, hexports]

section HelperModule

variable {m : Type → Type} {project : Project m} {whitelist : Option (List String)} {owned : List String}

/-- The record of the helper module has the new names in it. -/
theorem helperModule_ok (hread : HelperModuleRead project.read whitelist owned)
    (htext : project.helperText = helperBundle helperRegistry whitelist .module) :
    ∃ code record, helperModule project owned = .ok (code, record) ∧ record.imports = [] ∧
      record.declared =
        (helpersOf whitelist).map (fun h => newName (helperNewNames whitelist owned) h.localName) ∧
      record.exports = (providedOf whitelist).map fun h =>
        (h.name, newName (helperNewNames whitelist owned) h.localName) := by
  obtain ⟨first, hfirst, himports, hdeclared, hexports⟩ :=
    hread.written.record helperModuleId helperDefaultLocal
  have hnames : helperRenames owned ((helpersOf whitelist).map fun h => id h.localName) =
      helperNewNames whitelist owned := rfl
  unfold helperModule
  dsimp only
  rw [htext, hfirst]
  simp only [bind, Except.bind, hdeclared, hnames]
  cases hrenames : helperNewNames whitelist owned with
  | nil => exact ⟨_, first, rfl, himports, hdeclared, hexports⟩
  | cons pair rest =>
    have hne : helperNewNames whitelist owned ≠ [] := by simp [hrenames]
    obtain ⟨second, hsecond, hrest⟩ := (hread.renamed hne).record helperModuleId helperDefaultLocal
    rw [hrenames] at hsecond hrest
    refine ⟨rename (fun name => (pair :: rest).lookup name) (helperBundle helperRegistry whitelist .module),
      second, ?_, hrest⟩
    simp only [hsecond]
    rfl

/-- The helper module is put in place with new names for the ones that it declares. -/
theorem helperModule_text {code : String} {record : ModuleRecord}
    (h : helperModule project owned = .ok (code, record)) : ∃ first,
      ModuleRecord.ofText project.read helperModuleId project.helperText helperDefaultLocal = .ok first ∧
      code = rename (fun name => (helperRenames owned first.declared).lookup name) project.helperText := by
  unfold helperModule at h
  obtain ⟨first, hfirst, h⟩ := bind_eq_ok.1 h
  refine ⟨first, hfirst, ?_⟩
  split at h
  · rename_i hnone
    obtain ⟨rfl, -⟩ := Prod.mk.inj (Except.ok.inj h)
    rw [hnone]
    exact (rename_eq_self (fun _ _ hnew => by cases hnew) _).symm
  · obtain ⟨second, -, h⟩ := bind_eq_ok.1 h
    obtain ⟨rfl, -⟩ := Prod.mk.inj (Except.ok.inj h)
    rfl

/-- Where each name stands once, all pairs are the last ones of their names. -/
theorem lastOfEach_of_nodup {pairs : List (String × String)} (h : (pairs.map (·.1)).Nodup) :
    lastOfEach pairs = pairs := by
  induction pairs with
  | nil => rfl
  | cons pair rest ih =>
    rw [List.map_cons, List.nodup_cons] at h
    have hnone : rest.any (·.1 == pair.1) = false := by
      rw [List.any_eq_false]
      intro p hp heq
      exact h.1 (List.mem_map.2 ⟨p, hp, by simpa using heq⟩)
    rw [lastOfEach, hnone, ih h.2]
    rfl

/-- What the helper module exports under a name. -/
theorem lookup_exports_helper (localOf : String → String) (name : String) :
    (lastOfEach ((providedOf whitelist).map fun h => (h.name, localOf h.localName))).lookup name =
      some (localOf (helperLocal name)) ∧ helperRegistry.has name = true ∧ Allowed whitelist name ∨
    (lastOfEach ((providedOf whitelist).map fun h => (h.name, localOf h.localName))).lookup name = none ∧
      ¬ (helperRegistry.has name = true ∧ Allowed whitelist name) := by
  have hnodup : (((providedOf whitelist).map fun h => (h.name, localOf h.localName)).map
      (·.1)).Nodup := by
    rw [List.map_map]
    exact (Registry.names_closure_nodup _).sublist (List.filter_sublist.map _)
  rw [lastOfEach_of_nodup hnodup]
  cases hlookup : ((providedOf whitelist).map fun h => (h.name, localOf h.localName)).lookup name with
  | some l =>
    obtain ⟨h, hh, heq⟩ := List.mem_map.1 (mem_of_lookup hlookup)
    obtain ⟨rfl, rfl⟩ := Prod.mk.inj heq
    obtain ⟨hget, hallowed⟩ := mem_providedOf.1 hh
    exact .inl ⟨rfl, Registry.has_iff.2 ⟨h, hget⟩, hallowed⟩
  | none =>
    refine .inr ⟨rfl, ?_⟩
    rintro ⟨hhas, hallowed⟩
    obtain ⟨h, hget⟩ := Registry.has_iff.1 hhas
    obtain rfl := Registry.name_of_get? hget
    exact not_mem_of_lookup hlookup _ (List.mem_map_of_mem (mem_providedOf.2 ⟨hget, hallowed⟩))

end HelperModule

end ModuleBuild
