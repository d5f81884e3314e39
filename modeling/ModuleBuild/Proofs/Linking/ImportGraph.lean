import Mathlib
import ModuleBuild.Proofs.Linking.Depth
import ModuleBuild.Proofs.Linking.Entries
import ModuleBuild.Proofs.Linking.Resolution

/-!
# The graph of imports

The texts of modules say which ones they import, and the modules that entries reach are the ones of a
chunk. Their order is one of the graph, so a graph with a cycle has none.

## Main definitions

* `Project.ImportsIn`, `Project.Needs`, `Project.Reached` — imports as the texts of modules say.
* `Project.Emits` — modules in an order of the graph.

## Main statements

* `Project.Emits.not_transGen` — modules in an order of the graph have no cycle.
* `linkEntries_emits` — linking entries puts the modules in order.
* `linkEntries_circular` — a reported cycle is one.
-/

namespace ModuleBuild

open Linking Relation Script

namespace Project

variable {m : Type → Type} (project : Project m) (answers : String → Except BundleError String)

/-- A module has an import declaration that leads to another one, if loading gives these answers. -/
def ImportsIn (importer module : String) : Prop :=
  ∃ text items span source bindings, answers importer = .ok text ∧ project.read text = some items ∧
    ModuleItem.importFrom span source bindings ∈ items ∧
    project.resolve source importer = .ok (.module module)

/-- A module imports another one, which is not the helper module. -/
def Needs (importer module : String) : Prop :=
  module ≠ helperModuleId ∧ project.ImportsIn answers importer module

/-- Imports lead to a module from one of the entries. -/
def Reached (idOf : Path → Except BundleError String) (entries : List Path) (id : String) : Prop :=
  ∃ entry ∈ entries, ∃ root, idOf entry = .ok root ∧ ReflTransGen (project.Needs answers) root id

/-- These are the modules that entries reach, each once and behind the ones it imports. The helper module
is the first of them if one of the others imports it. -/
structure Emits (idOf : Path → Except BundleError String) (entries : List Path) (modules : List String) :
    Prop where
  nodup : modules.Nodup
  mem_iff : ∀ id, id ≠ helperModuleId → (id ∈ modules ↔ project.Reached answers idOf entries id)
  helper_iff : helperModuleId ∈ modules ↔
    ∃ id, project.Reached answers idOf entries id ∧ project.ImportsIn answers id helperModuleId
  helper_first : helperModuleId ∈ modules → modules.head? = some helperModuleId
  behind : ∀ earlier id later, modules = earlier ++ id :: later → id ≠ helperModuleId →
    ∀ d, project.Needs answers id d → d ∈ earlier

variable {project answers} {answers' : String → Except BundleError String}
  {idOf : Path → Except BundleError String} {entries : List Path} {modules : List String} {id d : String}

theorem Reached.tail (h : project.Reached answers idOf entries id) (hneeds : project.Needs answers id d) :
    project.Reached answers idOf entries d := by
  obtain ⟨entry, hentry, root, hroot, hpath⟩ := h
  exact ⟨entry, hentry, root, hroot, hpath.tail hneeds⟩

/-- A module that entries reach is an entry or where an import leads. -/
theorem Reached.mem_entries_or_modules (hmodules : ∀ specifier importer d,
      project.resolve specifier importer = .ok (.module d) → d ≠ helperModuleId → d ∈ modules)
    (h : project.Reached answers idOf entries id) :
    id ∈ entries.filterMap (fun entry => (idOf entry).toOption) ++ modules := by
  obtain ⟨entry, hentry, root, hroot, hpath⟩ := h
  rw [List.mem_append]
  cases hpath with
  | refl => exact .inl (List.mem_filterMap.mpr ⟨entry, hentry, by rw [hroot]; rfl⟩)
  | tail _ hneeds =>
    obtain ⟨hne, text, items, span, source, bindings, -, -, -, htarget⟩ := hneeds
    exact .inr (hmodules source _ id htarget hne)

theorem ImportsIn.mono (hsame : ∀ id text, answers id = .ok text → answers' id = .ok text)
    (h : project.ImportsIn answers id d) : project.ImportsIn answers' id d := by
  obtain ⟨text, items, span, source, bindings, htext, hread, hmem, htarget⟩ := h
  exact ⟨text, items, span, source, bindings, hsame id text htext, hread, hmem, htarget⟩

theorem Needs.mono (hsame : ∀ id text, answers id = .ok text → answers' id = .ok text)
    (h : project.Needs answers id d) : project.Needs answers' id d :=
  ⟨h.1, h.2.mono hsame⟩

theorem Reached.mono (hsame : ∀ id text, answers id = .ok text → answers' id = .ok text)
    (h : project.Reached answers idOf entries id) : project.Reached answers' idOf entries id := by
  obtain ⟨entry, hentry, root, hroot, hpath⟩ := h
  exact ⟨entry, hentry, root, hroot, ReflTransGen.mono (fun _ _ => Needs.mono hsame) root id hpath⟩

namespace Emits

/-- A module comes behind the ones that it needs. -/
theorem idxOf_lt (h : project.Emits answers idOf entries modules) (hid : id ∈ modules)
    (hne : id ≠ helperModuleId) (hneeds : project.Needs answers id d) :
    modules.idxOf d < modules.idxOf id := by
  obtain ⟨earlier, later, heq⟩ := List.append_of_mem hid
  have hd : d ∈ earlier := h.behind earlier id later heq hne d hneeds
  have hnodup := h.nodup
  rw [heq] at hnodup ⊢
  have hid : id ∉ earlier := fun hmem => (List.nodup_append.mp hnodup).2.2 id hmem id List.mem_cons_self rfl
  rw [List.idxOf_append_of_mem hd, List.idxOf_append_of_notMem hid, List.idxOf_cons_self, Nat.add_zero]
  exact List.idxOf_lt_length_of_mem hd

/-- Modules in an order of the graph have no cycle. -/
theorem not_transGen (h : project.Emits answers idOf entries modules)
    (hreached : project.Reached answers idOf entries id) (hne : id ≠ helperModuleId) :
    ¬ TransGen (project.Needs answers) id id := by
  suffices hlt : ∀ {d}, TransGen (project.Needs answers) id d →
      project.Reached answers idOf entries d ∧ d ≠ helperModuleId ∧ modules.idxOf d < modules.idxOf id from
    fun hcycle => (hlt hcycle).2.2.false
  intro d hpath
  induction hpath with
  | single hneeds =>
    exact ⟨hreached.tail hneeds, hneeds.1, h.idxOf_lt ((h.mem_iff id hne).mpr hreached) hne hneeds⟩
  | tail _ hneeds ih =>
    obtain ⟨hreached, hne, hlt⟩ := ih
    exact ⟨hreached.tail hneeds, hneeds.1,
      (h.idxOf_lt ((h.mem_iff _ hne).mpr hreached) hne hneeds).trans hlt⟩

end Emits

end Project

/-! ## Records and texts -/

/-- Whether an error reports a cycle of imports. -/
def BundleError.IsCircular : BundleError → Prop
  | .circularImport .. => True
  | _ => False

/-- A text that cannot be linked is no cycle. -/
theorem ModuleRecord.ofText_not_isCircular {read : String → Option (List ModuleItem)}
    {id code defaultLocal : String} {e : BundleError} (h : ofText read id code defaultLocal = .error e) :
    ¬ e.IsCircular := by
  have hitem : ∀ item, ofItem id code.toList defaultLocal item = .error e → ¬ e.IsCircular := by
    intro item h
    unfold ofItem at h
    split at h <;> cases h <;> exact not_false
  unfold ofText at h
  split at h
  · rename_i items hitems
    clear hitems
    induction items with
    | nil => cases h
    | cons item rest ih =>
      rcases bind_eq_error.mp h with hone | ⟨own, -, h⟩
      · exact hitem item hone
      rcases bind_eq_error.mp h with hrest | ⟨more, -, h⟩
      · exact ih hrest
      · cases h
  · cases h
    exact not_false

theorem helperModule_not_isCircular {m : Type → Type} {project : Project m} {owned : List String}
    {e : BundleError} (h : helperModule project owned = .error e) : ¬ e.IsCircular := by
  unfold helperModule at h
  rcases bind_eq_error.mp h with hfirst | ⟨record, -, h⟩
  · exact ModuleRecord.ofText_not_isCircular hfirst
  split at h
  · cases h
  · rcases bind_eq_error.mp h with hsecond | ⟨record, -, h⟩
    · exact ModuleRecord.ofText_not_isCircular hsecond
    · cases h

section Linked

variable {m : Type → Type} {project : Project m} {answers : String → Except BundleError String}
  {idOf : Path → Except BundleError String} {entries : List Path}

/-- What is known about a project whose loads give these answers. -/
def Project.factsOf (project : Project m) (answers : String → Except BundleError String)
    (idOf : Path → Except BundleError String) (entries : List Path) : Project.Facts where
  loads id answer := answers id = answer
  reach := project.Reached answers idOf entries

/-- The record of a module has the imports of its text. -/
theorem Project.importsIn_iff_record {id source defaultLocal : String} {record : ModuleRecord}
    (hload : answers id = .ok source)
    (hrecord : ModuleRecord.ofText project.read id source defaultLocal = .ok record) (d : String) :
    project.ImportsIn answers id d ↔
      ∃ r ∈ record.imports, project.resolve r.source id = .ok (.module d) := by
  unfold ModuleRecord.ofText at hrecord
  split at hrecord
  case h_2 => cases hrecord
  rename_i items hitems
  have himports := ModuleRecord.imports_ofItems hrecord
  constructor
  · rintro ⟨text, items', span, specifier, bindings, htext, hread, hmem, htarget⟩
    obtain rfl := Except.ok.inj (hload.symm.trans htext)
    obtain rfl := Option.some.inj (hitems.symm.trans hread)
    have himport : (specifier, bindings) ∈ items.filterMap (·.imported?) :=
      List.mem_filterMap.mpr ⟨_, hmem, rfl⟩
    rw [← himports] at himport
    obtain ⟨r, hr, heq⟩ := List.mem_map.mp himport
    obtain ⟨rfl, rfl⟩ := Prod.mk.inj heq
    exact ⟨r, hr, htarget⟩
  · rintro ⟨r, hr, htarget⟩
    have himport : (r.source, r.bindings) ∈ items.filterMap (·.imported?) := by
      rw [← himports]
      exact List.mem_map_of_mem (f := fun r : ImportRecord => (r.source, r.bindings)) hr
    obtain ⟨item, hitem, heq⟩ := List.mem_filterMap.mp himport
    cases item with
    | importFrom span specifier bindings =>
      obtain ⟨rfl, rfl⟩ := Prod.mk.inj (Option.some.inj heq)
      exact ⟨source, items, span, r.source, r.bindings, hload, hitems, hitem, htarget⟩
    | _ => cases heq

theorem Project.needs_of_imports (project : Project m) {importer module : String}
    (h : (project.answering answers).Imports (project.factsOf answers idOf entries) importer module) :
    project.Needs answers importer module := by
  obtain ⟨hne, source, defaultLocal, record, hanalyzed, r, hr, htarget⟩ := h
  exact ⟨hne, (project.importsIn_iff_record hanalyzed.loaded hanalyzed.record_eq module).mpr
    ⟨r, hr, htarget⟩⟩

theorem Project.knows_factsOf (project : Project m) (answers : String → Except BundleError String)
    (idOf : Path → Except BundleError String) (entries : List Path) :
    (project.answering answers).Knows (project.factsOf answers idOf entries) where
  load _ := SatisfiesM_Id_eq.mpr rfl
  reach_import _ _ hreach himports := hreach.tail (project.needs_of_imports himports)
  start_imports _ h := nomatch h

theorem Project.ready_factsOf (project : Project m) (answers : String → Except BundleError String)
    (hentries : ∀ entry ∈ entries, ∀ id, idOf entry = .ok id → id ≠ helperModuleId) :
    EntriesReady (project.answering answers) (project.factsOf answers idOf entries) idOf entries where
  reach entry hentry id hid := ⟨⟨entry, hentry, id, hid, .refl⟩, hentries entry hentry id hid⟩
  start _ h := nomatch h

/-! ## Parts in order -/

/-- A part has an import link for each module that its text imports. -/
theorem LinkedPart.LinkedBehind.importsIn_iff {p : LinkedPart} {earlier : List LinkedPart}
    (h : p.LinkedBehind (project.answering answers) (project.factsOf answers idOf entries) earlier)
    (d : String) : project.ImportsIn answers p.id d ↔ ∃ link ∈ p.links, link.target = .module d := by
  rw [project.importsIn_iff_record h.analyzed.loaded h.analyzed.record_eq, ← h.records_eq]
  constructor
  · rintro ⟨r, hr, htarget⟩
    obtain ⟨link, hlink, rfl⟩ := List.mem_map.mp hr
    have hone := (h.links link hlink).target_eq
    exact ⟨link, hlink, Except.ok.inj (hone.symm.trans htarget)⟩
  · rintro ⟨link, hlink, htarget⟩
    exact ⟨link.record, List.mem_map_of_mem hlink, htarget ▸ (h.links link hlink).target_eq⟩

/-- The parts that a part needs are before it. -/
theorem LinkedPart.LinkedBehind.mem_of_needs {p : LinkedPart} {earlier : List LinkedPart}
    (h : p.LinkedBehind (project.answering answers) (project.factsOf answers idOf entries) earlier)
    {d : String} (hneeds : project.Needs answers p.id d) : d ∈ earlier.map (·.id) := by
  obtain ⟨link, hlink, htarget⟩ := (h.importsIn_iff d).mp hneeds.2
  obtain ⟨q, hq, rfl, -⟩ := (h.links link hlink).module_aliases d htarget hneeds.1
  exact List.mem_map_of_mem hq

/-- The parts of visited entries are the modules that entries reach. -/
theorem EntriesVisited.mem_iff {ids : List String} {g : Graph} {t : LinkTrace}
    (h : EntriesVisited (project.answering answers) (project.factsOf answers idOf entries) ids g t)
    (hids : ∀ entry ∈ entries, ∃ id ∈ ids, idOf entry = .ok id) (id : String) :
    id ∈ t.parts.map (·.id) ↔ project.Reached answers idOf entries id := by
  constructor
  · intro hid
    obtain ⟨p, hp, rfl⟩ := List.mem_map.mp hid
    obtain ⟨earlier, later, -, hbehind⟩ := h.holds.linked.of_mem hp
    exact hbehind.reach
  · rintro ⟨entry, hentry, root, hroot, hpath⟩
    obtain ⟨root', hmem, hroot'⟩ := hids entry hentry
    obtain rfl := Except.ok.inj (hroot.symm.trans hroot')
    induction hpath with
    | refl =>
      obtain ⟨p, hp, rfl⟩ := h.linked root hmem
      exact List.mem_map_of_mem hp
    | tail _ hneeds ih =>
      obtain ⟨p, hp, rfl⟩ := List.mem_map.mp ih
      obtain ⟨earlier, later, heq, hbehind⟩ := h.holds.linked.of_mem hp
      rw [heq, List.map_append]
      exact List.mem_append_left _ (hbehind.mem_of_needs hneeds)

/-- The parts of visited entries come behind the ones that they need. -/
theorem EntriesVisited.behind {ids : List String} {g : Graph} {t : LinkTrace}
    (h : EntriesVisited (project.answering answers) (project.factsOf answers idOf entries) ids g t)
    {earlier later : List String} {id d : String} (heq : t.parts.map (·.id) = earlier ++ id :: later)
    (hneeds : project.Needs answers id d) : d ∈ earlier := by
  obtain ⟨before, rest, hparts, rfl, hrest⟩ := List.map_eq_append_iff.mp heq
  obtain ⟨p, behind, rfl, rfl, -⟩ := List.map_eq_cons_iff.mp hrest
  exact (h.holds.linked before p behind hparts).mem_of_needs hneeds

/-- A part waits for the helper module if its text imports it. -/
theorem LinkedPart.LinkedBehind.late_ne_nil {p : LinkedPart} {earlier : List LinkedPart}
    (h : p.LinkedBehind (project.answering answers) (project.factsOf answers idOf entries) earlier) :
    p.late ≠ [] ↔ project.ImportsIn answers p.id helperModuleId := by
  rw [h.importsIn_iff, ← List.isEmpty_eq_false_iff, List.isEmpty_eq_false_iff_exists_mem]
  simp only [late, List.mem_filter, ImportLink.isHelper, beq_iff_eq]

/-- Linking entries puts the modules that they reach in an order of the graph. -/
theorem linkEntries_emits (hentries : ∀ entry ∈ entries, ∀ id, idOf entry = .ok id → id ≠ helperModuleId)
    {ids : List String} {g : Graph}
    (h : ((linkEntries (project.answering answers) idOf entries).run.run {} :
      Except BundleError (List String) × Graph) = (.ok ids, g)) :
    project.Emits answers idOf entries g.order ∧
      ∀ id ∈ g.order, id ≠ helperModuleId → ∃ text, answers id = .ok text := by
  have hlinks := SatisfiesM_Id_eq.mp (linkEntries_ensures
    (project.knows_factsOf answers idOf entries) (project.ready_factsOf answers hentries))
  rw [h] at hlinks
  obtain ⟨hids, -, t, parts, hlinked⟩ := hlinks
  obtain ⟨before, hvisited⟩ := hlinked.visited
  have hmem := hvisited.mem_iff hids
  have hne : ∀ p ∈ t.parts, p.id ≠ helperModuleId := fun p hp => hvisited.holds.ne_helper hp
  have hnot : helperModuleId ∉ t.parts.map (·.id) := by
    rintro hin
    obtain ⟨p, hp, hid⟩ := List.mem_map.mp hin
    exact hne p hp hid
  have hlate : (∃ p ∈ t.parts, p.late ≠ []) ↔
      ∃ id, project.Reached answers idOf entries id ∧ project.ImportsIn answers id helperModuleId := by
    constructor
    · rintro ⟨p, hp, hlate⟩
      obtain ⟨earlier, later, -, hbehind⟩ := hvisited.holds.linked.of_mem hp
      exact ⟨p.id, hbehind.reach, hbehind.late_ne_nil.mp hlate⟩
    · rintro ⟨id, hreached, himports⟩
      obtain ⟨p, hp, rfl⟩ := List.mem_map.mp ((hmem id).mpr hreached)
      obtain ⟨earlier, later, -, hbehind⟩ := hvisited.holds.linked.of_mem hp
      exact ⟨p, hp, hbehind.late_ne_nil.mpr himports⟩
  have hloaded : ∀ id ∈ t.parts.map (·.id), ∃ text, answers id = .ok text := by
    intro id hid
    obtain ⟨p, hp, rfl⟩ := List.mem_map.mp hid
    obtain ⟨earlier, later, -, hbehind⟩ := hvisited.holds.linked.of_mem hp
    exact ⟨p.source, hbehind.analyzed.loaded⟩
  have horder : g.order = parts.map (·.id) := by simpa using hlinked.shows.order_eq
  rcases hlinked.completed with unused | @⟨helper, used, part, -⟩
  · have hunused : ¬ ∃ p ∈ t.parts, p.late ≠ [] := fun ⟨p, hp, hlate⟩ => hlate (unused p hp)
    rw [horder]
    exact ⟨{
      nodup := hvisited.holds.ids_nodup
      mem_iff := fun id _ => hmem id
      helper_iff := iff_of_false hnot (mt hlate.mpr hunused)
      helper_first := fun hin => absurd hin hnot
      behind := fun earlier id later heq _ d hneeds => hvisited.behind heq hneeds },
      fun id hid _ => hloaded id hid⟩
  · have hmodules : g.order = helperModuleId :: t.parts.map (·.id) := by
      rw [horder, List.map_cons, List.map_map, part.id_eq]
      rfl
    rw [hmodules]
    refine ⟨?_, fun id hid hne => hloaded id ((List.mem_cons.mp hid).resolve_left hne)⟩
    exact {
      nodup := List.nodup_cons.mpr ⟨hnot, hvisited.holds.ids_nodup⟩
      mem_iff := fun id hne => by rw [List.mem_cons, or_iff_right hne, hmem id]
      helper_iff := iff_of_true List.mem_cons_self (hlate.mp used)
      helper_first := fun _ => rfl
      behind := by
        intro earlier id later heq hne d hneeds
        cases earlier with
        | nil => exact absurd (List.cons.inj heq).1.symm hne
        | cons first earlier =>
          exact List.mem_cons_of_mem _ (hvisited.behind (List.cons.inj heq).2 hneeds) }

/-! ## Cycles -/

/-- If a cycle is reported, there is one. -/
theorem linkEntries_circular {modules : List String} (hmodules : ∀ specifier importer d,
      project.resolve specifier importer = .ok (.module d) → d ≠ helperModuleId → d ∈ modules)
    (hroom : modules.length < project.depth)
    (hentries : ∀ entry ∈ entries, ∀ id, idOf entry = .ok id → id ≠ helperModuleId)
    (hidOf : ∀ entry e, idOf entry = .error e → ¬ e.IsCircular)
    (hresolve : ∀ specifier importer e, project.resolve specifier importer = .error e → ¬ e.IsCircular)
    (hload : ∀ id e, answers id = .error e → ¬ e.IsCircular) {module importer : String} {g : Graph}
    (h : ((linkEntries (project.answering answers) idOf entries).run.run {} :
      Except BundleError (List String) × Graph) = (.error (.circularImport module importer), g)) :
    project.Reached answers idOf entries importer ∧ project.Needs answers importer module ∧
      ReflTransGen (project.Needs answers) module importer := by
  -- With a bound that is greater than the number of entries and modules, no chain is as long as it.
  let deeper : Project m := { project with depth := project.depth + entries.length }
  have hsame : ((linkEntries (deeper.answering answers) idOf entries).run.run {} :
      Except BundleError (List String) × Graph) = (.error (.circularImport module importer), g) :=
    (linkEntries_deeper (project.answering answers) hmodules idOf entries hroom _).trans h
  have hlinks := SatisfiesM_Id_eq.mp (linkEntries_ensures
    (deeper.knows_factsOf answers idOf entries) (deeper.ready_factsOf answers hentries))
  rw [hsame] at hlinks
  rcases hlinks with ⟨-, hid⟩ | failure | ⟨-, -, failure⟩
  · exact absurd trivial (hidOf _ _ hid)
  · cases failure with
    | load _ loaded => exact absurd trivial (hload _ _ loaded)
    | analysis _ _ record_eq => exact absurd trivial (ModuleRecord.ofText_not_isCircular record_eq)
    | resolution _ _ _ target_eq => exact absurd trivial (hresolve _ _ _ target_eq)
    | circular reach imports back =>
      exact ⟨reach, deeper.needs_of_imports imports,
        ReflTransGen.mono (fun _ _ => deeper.needs_of_imports) _ _ back⟩
    | tooDeep reach nodup length_eq needs =>
      have hsub := nodup.length_le_of_subset fun v hv =>
        Project.Reached.mem_entries_or_modules hmodules (needs v hv).1
      rw [length_eq, List.length_append] at hsub
      have hcount := List.length_filterMap_le (fun entry => (idOf entry).toOption) entries
      change project.depth + entries.length ≤ _ at hsub
      omega
  · cases failure with
    | analysis _ record_eq => exact absurd trivial (helperModule_not_isCircular record_eq)

end Linked

end ModuleBuild
