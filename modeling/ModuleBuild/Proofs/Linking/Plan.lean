import Mathlib
import ModuleBuild.Proofs.Linking.Resolution

/-!
# Linking modules that are known

Where all modules that entries reach can be loaded and analyzed, and do not need each other in circles, it
is known beforehand what each of them becomes: default values are numbered in the order in which modules are
started, and imports get variables where the names differ.

## Main definitions

* `ModuleMap.startOrder`, `ModuleMap.part` — the order in which modules are started, and the part that a
  module becomes.
* `Project.Has` — a project whose modules are known.
* `ModuleMap.Misses` — a module imports what another one does not export.

## Main statements

* `LinkedInOrder.planned` — linked parts are the ones that were known beforehand.
-/

namespace ModuleBuild

open Linking Script

/-! ## Orders -/

theorem Project.nodup_preorder {imports : String → List String} {fuel : Nat} {started : List String}
    {id : String} (h : started.Nodup) : (Project.preorder imports fuel started id).Nodup := by
  induction fuel generalizing started id with
  | zero => exact h
  | succ fuel ih =>
    by_cases hid : id ∈ started
    · rw [Project.preorder_of_mem hid]
      exact h
    · rw [Project.preorder_succ hid]
      have hstart : (started ++ [id]).Nodup := by
        rw [← List.concat_eq_append]
        exact h.concat hid
      generalize started ++ [id] = more at hstart
      induction imports id generalizing more with
      | nil => exact hstart
      | cons d rest hrest => exact hrest _ (ih hstart)

namespace ModuleMap

variable (M : ModuleMap)

/-- The modules that a module imports, up to the helper module. -/
def needs (id : String) : List String :=
  (M.program id).imports.filterMap fun i =>
    match M.target i.1 id with
    | .module d => if d = helperModuleId then none else some d
    | .outside => none

/-- A module is one of these, or is imported by one that they reach. -/
def Reaches (ids : List String) (id : String) : Prop :=
  ∃ start ∈ ids, Relation.ReflTransGen (fun a b => b ∈ M.needs a) start id

/-- The order in which modules are started from these on. -/
def startOrder (depth : Nat) (ids : List String) : List String :=
  ids.foldl (Project.preorder M.needs depth) []

/-- A module that these reach imports something that another module does not export. -/
def Misses (ids : List String) (d name : String) : Prop :=
  ∃ id specifier b, M.Reaches ids id ∧ M.Binds id specifier b ∧ M.target specifier id = .module d ∧
    b.imported? = some name ∧ ∀ l, ¬ M.Exports d name l

variable {M} {ids : List String}

theorem mem_needs {id d : String} : d ∈ M.needs id ↔ d ≠ helperModuleId ∧
    ∃ i ∈ (M.program id).imports, M.target i.1 id = .module d := by
  unfold needs
  rw [List.mem_filterMap]
  constructor
  · rintro ⟨i, hi, hd⟩
    cases htarget : M.target i.1 id with
    | outside => simp [htarget] at hd
    | module d' =>
      simp only [htarget] at hd
      split at hd
      · cases hd
      · rename_i hne
        obtain rfl := Option.some.inj hd
        exact ⟨hne, i, hi, htarget⟩
  · rintro ⟨hne, i, hi, htarget⟩
    exact ⟨i, hi, by simp [htarget, hne]⟩

theorem Reaches.step {id d : String} (h : M.Reaches ids id) (hd : d ∈ M.needs id) : M.Reaches ids d := by
  obtain ⟨start, hstart, hsteps⟩ := h
  exact ⟨start, hstart, hsteps.tail hd⟩

/-- Modules that only need each other reach no others. -/
theorem mem_of_reaches {known : List String} (hids : ids ⊆ known)
    (hneeds : ∀ a ∈ known, ∀ b ∈ M.needs a, b ∈ known) {id : String} (h : M.Reaches ids id) : id ∈ known := by
  obtain ⟨start, hstart, hsteps⟩ := h
  induction hsteps with
  | refl => exact hids hstart
  | tail _ hstep ih => exact hneeds _ ih _ hstep

/-- Modules that only need ones of a lower rank do not need each other in circles. -/
theorem not_transGen_of_rank {known : List String} {rank : String → Nat}
    (hneeds : ∀ a ∈ known, ∀ b ∈ M.needs a, b ∈ known ∧ rank b < rank a) {id : String} (hid : id ∈ known) :
    ¬ Relation.TransGen (fun a b => b ∈ M.needs a) id id := by
  have hrank {b : String} (hsteps : Relation.TransGen (fun a b => b ∈ M.needs a) id b) :
      b ∈ known ∧ rank b < rank id := by
    induction hsteps with
    | single hstep => exact hneeds id hid _ hstep
    | tail _ hstep ih => exact (hneeds _ ih.1 _ hstep).imp_right (·.trans ih.2)
  exact fun hsteps => lt_irrefl _ (hrank hsteps).2

theorem nodup_startOrder (depth : Nat) : (M.startOrder depth ids).Nodup := by
  unfold startOrder
  generalize hnone : ([] : List String) = started
  have hstarted : started.Nodup := hnone ▸ List.nodup_nil
  clear hnone
  induction ids generalizing started with
  | nil => exact hstarted
  | cons id rest ih => exact ih _ (Project.nodup_preorder hstarted)

/-! ## Parts -/

variable (M)

/-- The name of a default value without one, if modules are started in this order. -/
def defaultLocal (order : List String) (id : String) : String :=
  "_default" ++ toString (order.idxOf id + 1)

/-- The record of a module. -/
def record (order : List String) (id : String) : ModuleRecord :=
  (ModuleRecord.ofItems id (M.source id).toList (defaultLocal order id)
    (M.program id).items).toOption.getD {}

/-- An import of a module with the variables that stand for it. -/
def link (order : List String) (id : String) (r : ImportRecord) : ImportLink where
  record := r
  target := M.target r.source id
  aliases :=
    match M.target r.source id with
    | .outside => []
    | .module d =>
      if d = helperModuleId then []
      else ((LinkedModule.aliases ⟨"", lastOfEach (M.record order d).exports⟩ d r.bindings).toOption).getD []

/-- The part that a module becomes. -/
def part (order : List String) (id : String) : LinkedPart where
  id
  source := M.source id
  defaultLocal := defaultLocal order id
  record := M.record order id
  links := (M.record order id).imports.map (M.link order id)

/-- The parts that the modules become that are started. -/
def parts (order : List String) : List LinkedPart :=
  order.map (M.part order)

/-- What is known about the answers of a project with these modules. -/
def facts (ids order : List String) : Project.Facts where
  loads id answer := M.Reaches ids id → answer = .ok (M.source id)
  reach := M.Reaches ids
  start := some ⟨M.needs, order⟩

end ModuleMap

theorem LinkedModule.aliases_congr {a b : LinkedModule} (h : a.exports = b.exports) (id : String)
    (bindings : List ImportBinding) : a.aliases id bindings = b.aliases id bindings := by
  have hlocal : a.exportLocal id = b.exportLocal id := by
    funext name
    rw [LinkedModule.exportLocal, LinkedModule.exportLocal, h]
  have hwhole : a.wholeObject = b.wholeObject := by
    unfold LinkedModule.wholeObject
    rw [h]
  have hvalue : a.value id = b.value id := by
    funext c
    cases c with
    | named imported _ => exact congrFun hlocal imported
    | byDefault _ => exact congrFun hlocal "default"
    | wholeModule _ => exact congrArg Except.ok hwhole
  induction bindings with
  | nil => rfl
  | cons c rest ih => rw [LinkedModule.aliases, LinkedModule.aliases, hvalue, ih]

/-! ## Projects -/

section Known

variable {m : Type → Type} [Monad m]

/-- A project whose modules are known: those that entries reach can be loaded and analyzed, and their
imports lead somewhere. -/
structure Project.Has (project : Project m) (M : ModuleMap) (parse : String → Option Program)
    (ids : List String) : Prop where
  read_eq : project.read = fun code => (parse code).map Program.items
  load : ∀ id, M.Reaches ids id → SatisfiesM (· = .ok (M.source id)) (project.load id)
  parse_eq : ∀ id, M.Reaches ids id → parse (M.source id) = some (M.program id)
  analyzed : ∀ id, M.Reaches ids id → ∀ defaultLocal,
    ∃ record, ModuleRecord.ofText project.read id (M.source id) defaultLocal = .ok record
  resolve_eq : ∀ id, M.Reaches ids id → ∀ i ∈ (M.program id).imports,
    project.resolve i.1 id = .ok (M.target i.1 id)
  /-- The bound on the length of chains of imports is one on the number of modules. -/
  depth : ∃ modules : List String, modules.length < project.depth ∧ ∀ id, M.Reaches ids id → id ∈ modules

variable {project : Project m} {M : ModuleMap} {parse : String → Option Program} {ids order : List String}

namespace Project.Has

variable (has : project.Has M parse ids)
include has

/-- The record of a module comes from its statements. -/
theorem ofItems_eq {id defaultLocal : String} {record : ModuleRecord} (hreach : M.Reaches ids id)
    (h : ModuleRecord.ofText project.read id (M.source id) defaultLocal = .ok record) :
    ModuleRecord.ofItems id (M.source id).toList defaultLocal (M.program id).items = .ok record := by
  rw [has.read_eq] at h
  obtain ⟨program, hprogram, hitems⟩ := ModuleRecord.ofText_ok h
  rw [has.parse_eq id hreach] at hprogram
  obtain rfl := Option.some.inj hprogram
  exact hitems

theorem record_imports {id source defaultLocal : String} {record : ModuleRecord} (hreach : M.Reaches ids id)
    (h : project.Analyzed (M.facts ids order) id source defaultLocal record) :
    record.imports.map (fun r => (r.source, r.bindings)) = (M.program id).imports := by
  obtain rfl : source = M.source id := Except.ok.inj (h.loaded hreach)
  exact ModuleRecord.imports_ofItems (has.ofItems_eq hreach h.record_eq)

theorem imports_iff {importer d : String} (hreach : M.Reaches ids importer) :
    project.Imports (M.facts ids order) importer d → d ∈ M.needs importer := by
  rintro ⟨hne, source, defaultLocal, record, hanalyzed, r, hr, htarget⟩
  have himport : (r.source, r.bindings) ∈ (M.program importer).imports := by
    rw [← has.record_imports hreach hanalyzed]
    exact List.mem_map_of_mem hr
  rw [has.resolve_eq importer hreach _ himport] at htarget
  exact ModuleMap.mem_needs.2 ⟨hne, _, himport, Except.ok.inj htarget⟩

theorem dependencies_eq {id source defaultLocal : String} {record : ModuleRecord}
    (hreach : M.Reaches ids id)
    (h : project.Analyzed (M.facts ids order) id source defaultLocal record) :
    project.dependencies id record.imports = M.needs id := by
  have himports := has.record_imports hreach h
  unfold Project.dependencies ModuleMap.needs
  rw [← himports, List.filterMap_map]
  refine List.filterMap_congr fun r hr => ?_
  have himport : (r.source, r.bindings) ∈ (M.program id).imports := himports ▸ List.mem_map_of_mem hr
  simp only [has.resolve_eq id hreach _ himport, Function.comp]
  cases M.target r.source id <;> rfl

variable [LawfulMonad m] in
theorem knows : project.Knows (M.facts ids order) where
  load id := by
    by_cases hreach : M.Reaches ids id
    · exact (has.load id hreach).imp fun h _ => h
    · exact SatisfiesM.of_true fun _ h => absurd h hreach
  reach_import importer module hreach himports := hreach.step (has.imports_iff hreach himports)
  start_imports := by
    rintro start hstart id source defaultLocal record hreach hanalyzed
    obtain rfl := Option.some.inj hstart
    exact has.dependencies_eq hreach hanalyzed

end Project.Has

/-! ## Linked parts -/

/-- A default value is named by the place of its module in the order. -/
theorem LinkedPart.Numbered.defaultLocal_eq {started : List String} {p : LinkedPart}
    (h : p.Numbered started) (hstarted : started <+: order) (nodup : order.Nodup) :
    p.defaultLocal = ModuleMap.defaultLocal order p.id := by
  obtain ⟨n, hn, hlocal⟩ := h.mono hstarted
  obtain ⟨hlt, hget⟩ := List.getElem?_eq_some_iff.1 hn
  rw [hlocal, ModuleMap.defaultLocal, ← hget, nodup.idxOf_getElem n hlt]

omit [Monad m] in
/-- An import that leads to parts that were known beforehand has variables that were known. -/
theorem ImportLink.LinkedBehind.planned {earlier : List LinkedPart} {id : String} {link : ImportLink}
    (h : link.LinkedBehind project earlier id) (htarget : M.target link.record.source id = link.target)
    (hearlier : ∀ q ∈ earlier, q = M.part order q.id) : M.link order id link.record = link := by
  have haliases : (M.link order id link.record).aliases = link.aliases := by
    simp only [ModuleMap.link, htarget]
    cases hlink : link.target with
    | outside => exact (h.outside_aliases hlink).symm
    | module d =>
      dsimp only
      split
      · rename_i hd
        exact (h.helper_aliases (by simp [ImportLink.isHelper, hlink, hd])).symm
      · rename_i hd
        obtain ⟨q, hq, rfl, haliases⟩ := h.module_aliases d hlink hd
        have hexports : q.linked.exports = lastOfEach (M.record order q.id).exports :=
          congrArg LinkedPart.exports (hearlier q hq)
        rw [LinkedModule.aliases_congr (b := q.linked) hexports.symm, haliases]
        rfl
  obtain ⟨record, target, aliases⟩ := link
  obtain rfl : (M.link order id record).aliases = aliases := haliases
  obtain rfl : M.target record.source id = target := htarget
  rfl

/-- A part that is linked behind parts that were known beforehand is such a part. -/
theorem LinkedPart.LinkedBehind.planned (has : project.Has M parse ids) {earlier : List LinkedPart}
    {p : LinkedPart} (h : p.LinkedBehind project (M.facts ids order) earlier)
    (hlocal : p.defaultLocal = ModuleMap.defaultLocal order p.id)
    (hearlier : ∀ q ∈ earlier, q = M.part order q.id) : p = M.part order p.id := by
  have hreach : M.Reaches ids p.id := h.reach
  have hsource : p.source = M.source p.id := Except.ok.inj (h.analyzed.loaded hreach)
  have hrecord : M.record order p.id = p.record := by
    have hitems := has.ofItems_eq hreach (hsource ▸ h.analyzed.record_eq)
    rw [hlocal] at hitems
    rw [ModuleMap.record, hitems]
    rfl
  have hlinks : (M.record order p.id).imports.map (M.link order p.id) = p.links := by
    rw [hrecord, ← h.records_eq, List.map_map]
    refine (List.map_congr_left fun link hlink => ?_).trans (List.map_id _)
    have hbehind := h.links link hlink
    have himport : (link.record.source, link.record.bindings) ∈ (M.program p.id).imports := by
      rw [← has.record_imports hreach h.analyzed, ← h.records_eq]
      exact List.mem_map_of_mem (List.mem_map_of_mem hlink)
    have htarget : M.target link.record.source p.id = link.target :=
      Except.ok.inj ((has.resolve_eq p.id hreach _ himport).symm.trans hbehind.target_eq)
    exact hbehind.planned htarget hearlier
  obtain ⟨id, source, defaultLocal, record, links⟩ := p
  simp only [ModuleMap.part, LinkedPart.mk.injEq, true_and]
  exact ⟨hsource, hlocal, hrecord.symm, hlinks.symm⟩

/-- Linked parts are the ones that were known beforehand. -/
theorem LinkedInOrder.planned (has : project.Has M parse ids) {parts : List LinkedPart}
    (h : LinkedInOrder project (M.facts ids order) parts)
    (hlocal : ∀ p ∈ parts, p.defaultLocal = ModuleMap.defaultLocal order p.id) :
    ∀ p ∈ parts, p = M.part order p.id := by
  induction parts using List.reverseRecOn with
  | nil => simp
  | append_singleton earlier p ih =>
    have hearlier : LinkedInOrder project (M.facts ids order) earlier := fun before q behind heq =>
      h before q (behind ++ [p]) (by simp [heq])
    have hall := ih hearlier fun q hq => hlocal q (List.mem_append_left _ hq)
    intro q hq
    rcases List.mem_append.1 hq with hq | hq
    · exact hall q hq
    · obtain rfl := List.mem_singleton.1 hq
      exact (h earlier q [] rfl).planned has (hlocal q (by simp)) hall

end Known

end ModuleBuild
