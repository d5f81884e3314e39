import Mathlib
import ModuleBuild.Proofs.Linking.Plan

/-!
# Missing exports

Linking the modules of a project that is known fails for one reason only, as long as no two modules have
recorded a name: a module imports what another one does not export.

## Main definitions

* `Project.HasHelpers` — the helper module is the one of the registry.
* `HelperShape` — the helper module as it is linked.

## Main statements

* `linkEntries_planned` — what linking known modules comes to.
-/

namespace ModuleBuild

open Linking Script

variable {m : Type → Type} {project : Project m} {M : ModuleMap} {parse : String → Option Program}
  {ids order : List String} {whitelist : Option (List String)}

/-! ## The helper module -/

/-- A program that is read as helpers has no imports and exports those that are provided. -/
theorem ReadAs.program {read : String → Option (List ModuleItem)} {text : String}
    {localOf : String → String} {helpers provided : List Helper} {p : Program}
    (h : ReadAs read text localOf helpers provided) (hread : read text = some p.items) :
    p.imports = [] ∧ p.exports = provided.map fun h => (h.name, some (localOf h.localName)) := by
  obtain ⟨spans, last, -, hitems⟩ := h
  have hp : p.items = _ := Option.some.inj (hread.symm.trans hitems)
  have hdeclarations : ∀ item ∈ List.zipWith (fun (h : Helper) span =>
      ModuleItem.declaration span (some [localOf h.localName])) helpers spans,
      item.imported? = none ∧ item.exported = [] := by
    clear hp hitems
    induction helpers generalizing spans with
    | nil => simp
    | cons first rest ih =>
      cases spans with
      | nil => simp
      | cons span spans =>
        rw [List.zipWith_cons_cons, List.forall_mem_cons]
        exact ⟨⟨rfl, rfl⟩, ih spans⟩
  unfold Program.imports Program.exports
  rw [hp, List.filterMap_append, List.flatMap_append,
    List.filterMap_eq_nil_iff.2 fun item hitem => (hdeclarations item hitem).1,
    List.flatMap_eq_nil_iff.2 fun item hitem => (hdeclarations item hitem).2]
  simp [ModuleItem.imported?, ModuleItem.exported]

/-- The helper module of a project is the one of the registry, and a parser reads it as it is written,
also beside these parts. -/
structure Project.HasHelpers (project : Project m) (M : ModuleMap) (parse : String → Option Program)
    (whitelist : Option (List String)) (parts : List LinkedPart) : Prop where
  text_eq : project.helperText = helperBundle helperRegistry whitelist .module
  program_eq : parse project.helperText = some (M.program helperModuleId)
  read : ∀ owned : List String, (∀ x, x ∈ owned ↔ ∃ p ∈ parts, x ∈ p.claims) →
    HelperModuleRead project.read whitelist owned

/-- The helper module as it is linked beside these parts. Under new names it is the module that was
written. -/
structure HelperShape (project : Project m) (M : ModuleMap) (parts : List LinkedPart) (helper : LinkedPart)
    (renames : List (String × String)) : Prop where
  source_eq : helper.source = Text.rename (fun x => renames.lookup x) project.helperText
  imports_eq : helper.record.imports = []
  exports_eq : helper.record.exports =
    (M.program helperModuleId).exportsAs fun l => newName renames (l.getD helperDefaultLocal)
  /-- What is exported has a name, and is declared under its new one. -/
  declared : ∀ name l, M.Exports helperModuleId name l → ∃ x ∈ l, newName renames x ∈ helper.record.declared
  noDefault : ∀ p : Program, project.read helper.source = some p.items → p.hasDefaultValue = false
  apart : ∀ x ∈ helper.record.declared, ∀ p ∈ parts, x ∉ p.claims
  names_inj : ∀ name name' x y, M.Exports helperModuleId name (some x) →
    M.Exports helperModuleId name' (some y) → newName renames x = newName renames y → x = y

section Helpers

variable {parts : List LinkedPart} (helpers : project.HasHelpers M parse whitelist parts)
  (hread : project.read = fun code => (parse code).map Program.items)
include helpers hread

/-- The helper module as it is written imports nothing, and exports the helpers that are provided. -/
theorem Project.HasHelpers.program : (M.program helperModuleId).imports = [] ∧
    (M.program helperModuleId).exports = (providedOf whitelist).map fun h => (h.name, some h.localName) := by
  have hitems : project.read (helperBundle helperRegistry whitelist .module) =
      some (M.program helperModuleId).items := by
    rw [← helpers.text_eq, hread]
    simp [helpers.program_eq]
  have howned := helpers.read (parts.flatMap (·.claims)) fun x => List.mem_flatMap
  exact howned.written.program hitems

omit hread in
theorem Project.HasHelpers.exists_helper {owned : List String}
    (howned : ∀ x, x ∈ owned ↔ ∃ p ∈ parts, x ∈ p.claims) :
    ∃ code record, helperModule project owned = .ok (code, record) ∧
      HelperPart project parts (helperPart code record) := by
  obtain ⟨code, record, hmodule, -⟩ := helperModule_ok (helpers.read owned howned) helpers.text_eq
  exact ⟨code, record, hmodule, rfl, rfl, rfl, owned, howned, hmodule⟩

/-- The helper module as it is linked. -/
theorem Project.HasHelpers.shape {helper : LinkedPart} (part : HelperPart project parts helper) :
    ∃ renames, HelperShape project M parts helper renames := by
  obtain ⟨owned, howned, hmodule⟩ := part.text_eq
  have hwritten := helpers.read owned howned
  obtain ⟨code, record, hmodule', himports, hdeclared, hexports⟩ :=
    helperModule_ok hwritten helpers.text_eq
  obtain ⟨hcode, hrecord⟩ := Prod.mk.inj (Except.ok.inj (hmodule.symm.trans hmodule'))
  obtain ⟨first, hfirst, hsource⟩ := helperModule_text hmodule
  obtain ⟨first', hfirst', -, hnames, -⟩ := hwritten.written.record helperModuleId helperDefaultLocal
  rw [helpers.text_eq, hfirst'] at hfirst
  obtain rfl := Except.ok.inj hfirst
  obtain ⟨-, hprovided⟩ := helpers.program hread
  have hmem {name : String} {l : Option String} (h : M.Exports helperModuleId name l) :
      ∃ h' ∈ helpersOf whitelist, l = some h'.localName := by
    rw [ModuleMap.Exports, hprovided] at h
    obtain ⟨h', hh', heq⟩ := List.mem_map.1 h
    exact ⟨h', (List.mem_filter.1 hh').1, (Prod.mk.inj heq).2.symm⟩
  have hrenamed : helper.source = Text.rename (fun x => (helperNewNames whitelist owned).lookup x)
      project.helperText := by
    rw [hsource, hnames]
    rfl
  refine ⟨helperNewNames whitelist owned, hrenamed, ?_, ?_, ?_, ?_, ?_, ?_⟩
  · rw [hrecord, himports]
  · rw [hrecord, hexports, Program.exportsAs, hprovided, List.map_map]
    rfl
  · intro name l h
    obtain ⟨h', hh', rfl⟩ := hmem h
    rw [hrecord, hdeclared]
    exact ⟨_, rfl, List.mem_map_of_mem hh'⟩
  · intro p hp
    have hexported := (hwritten.linked.program (helpers.text_eq ▸ hrenamed ▸ hp)).2
    by_contra hdefault
    have hmem := Program.exports_of_hasDefaultValue (by simpa using hdefault)
    rw [hexported] at hmem
    obtain ⟨h', -, heq⟩ := List.mem_map.1 hmem
    cases (Prod.mk.inj heq).2
  · intro x hx p hp hclaims
    rw [hrecord, hdeclared] at hx
    obtain ⟨h', hh', rfl⟩ := List.mem_map.1 hx
    exact newName_not_mem_owned (List.mem_map_of_mem hh') ((howned _).2 ⟨p, hp, hclaims⟩)
  · intro name name' x y hx hy hsame
    obtain ⟨h', hh', hx⟩ := hmem hx
    obtain ⟨h'', hh'', hy⟩ := hmem hy
    obtain rfl := Option.some.inj hx
    obtain rfl := Option.some.inj hy
    exact newName_inj (List.mem_map_of_mem hh') (List.mem_map_of_mem hh'') hsame

end Helpers

/-! ## Recorded names -/

section Parts

variable {parts parts' : List LinkedPart} (hparts : ∀ p, p ∈ parts ↔ p ∈ parts')

/-- No two modules have recorded a name: neither one that they declare nor one of the variables for their
imports, those of helpers included. -/
def Project.RecordsApart (project : Project m) (parts : List LinkedPart) : Prop :=
  ∀ helper, HelperPart project parts helper →
    ∀ p ∈ helper :: parts.map (LinkedPart.settle helper),
    ∀ q ∈ helper :: parts.map (LinkedPart.settle helper), p.id ≠ q.id → ∀ x ∈ p.allClaims, x ∉ q.allClaims

include hparts

/-- Only what the parts claim matters for the helper module. -/
theorem HelperPart.congr {helper : LinkedPart} (h : HelperPart project parts helper) :
    HelperPart project parts' helper where
  id_eq := h.id_eq
  local_eq := h.local_eq
  links_eq := h.links_eq
  text_eq := by
    obtain ⟨owned, howned, hmodule⟩ := h.text_eq
    exact ⟨owned, fun name => by simp [howned, hparts], hmodule⟩

theorem Project.HasHelpers.congr (h : project.HasHelpers M parse whitelist parts) :
    project.HasHelpers M parse whitelist parts' where
  text_eq := h.text_eq
  program_eq := h.program_eq
  read owned howned := h.read owned fun x => by simp [howned, hparts]

theorem Project.RecordsApart.congr (h : project.RecordsApart parts) : project.RecordsApart parts' := by
  intro helper hhelper
  have hsame : ∀ x ∈ helper :: parts'.map (LinkedPart.settle helper),
      x ∈ helper :: parts.map (LinkedPart.settle helper) := by
    intro x hx
    rcases List.mem_cons.1 hx with rfl | hx
    · exact List.mem_cons_self
    · obtain ⟨q, hq, rfl⟩ := List.mem_map.1 hx
      exact List.mem_cons_of_mem _ (List.mem_map_of_mem ((hparts q).2 hq))
  exact fun p hp q hq => h helper (hhelper.congr fun p => (hparts p).symm) p (hsame p hp) q (hsame q hq)

omit hparts in
/-- The names that are claimed before the helper module is linked are among those that are recorded. -/
theorem Project.RecordsApart.claims (h : project.RecordsApart parts)
    (helpers : project.HasHelpers M parse whitelist parts) :
    ∀ p ∈ parts, ∀ q ∈ parts, p.id ≠ q.id → ∀ x ∈ p.claims, x ∉ q.claims := by
  have howned (x : String) : x ∈ parts.flatMap (·.claims) ↔ ∃ p ∈ parts, x ∈ p.claims := List.mem_flatMap
  obtain ⟨code, record, -, hhelper⟩ := helpers.exists_helper howned
  intro p hp q hq hne x hx hx'
  exact h _ hhelper _ (List.mem_cons_of_mem _ (List.mem_map_of_mem hp)) _
    (List.mem_cons_of_mem _ (List.mem_map_of_mem hq)) hne x (LinkedPart.mem_allClaims_settle.2 (.inl hx))
    (LinkedPart.mem_allClaims_settle.2 (.inl hx'))

end Parts

/-! ## Failures -/

/-- Two parts claim a name, of which the second one is to be linked behind the first. -/
structure LinkConflict (project : Project m) (facts : Project.Facts) (parts : List LinkedPart)
    (started : List String) (p q : LinkedPart) (name : String) : Prop where
  start : ∀ s ∈ facts.start, started <+: s.order
  linked : LinkedInOrder project facts parts
  mem : p ∈ parts
  linked_new : q.LinkedBehind project facts parts
  numbered : ∀ p ∈ parts, p.Numbered started
  numbered_new : q.Numbered started
  ne : p.id ≠ q.id
  claims : name ∈ p.claims
  claims_new : name ∈ q.claims

section Failures

variable [Monad m] (has : project.Has M parse ids)
include has

theorem Project.Has.reflTransGen_needs {a b : String} (hreach : M.Reaches ids a)
    (h : Relation.ReflTransGen (project.Imports (M.facts ids order)) a b) :
    M.Reaches ids b ∧ Relation.ReflTransGen (fun a b => b ∈ M.needs a) a b := by
  induction h with
  | refl => exact ⟨hreach, .refl⟩
  | tail _ himports ih =>
    obtain ⟨hmiddle, hsteps⟩ := ih
    have hneeds := has.imports_iff hmiddle himports
    exact ⟨hmiddle.step hneeds, hsteps.tail hneeds⟩

/-- An import of an analyzed module creates its bindings. -/
theorem Project.Has.binds {id source defaultLocal : String} {record : ModuleRecord} {r : ImportRecord}
    {b : ImportBinding} (hreach : M.Reaches ids id)
    (h : project.Analyzed (M.facts ids order) id source defaultLocal record) (hr : r ∈ record.imports)
    (hb : b ∈ r.bindings) : M.Binds id r.source b :=
  ⟨(r.source, r.bindings), has.record_imports hreach h ▸ List.mem_map_of_mem hr, rfl, hb⟩

/-- An import of an analyzed module leads where it was known to lead. -/
theorem Project.Has.target_eq {id source defaultLocal : String} {record : ModuleRecord} {r : ImportRecord}
    {target : ImportTarget} (hreach : M.Reaches ids id)
    (h : project.Analyzed (M.facts ids order) id source defaultLocal record) (hr : r ∈ record.imports)
    (htarget : project.resolve r.source id = .ok target) : M.target r.source id = target := by
  have himport : (r.source, r.bindings) ∈ (M.program id).imports :=
    has.record_imports hreach h ▸ List.mem_map_of_mem hr
  exact Except.ok.inj ((has.resolve_eq id hreach _ himport).symm.trans htarget)

/-- A linked part exports what its statements say. -/
theorem LinkedPart.LinkedBehind.exports_eq {earlier : List LinkedPart} {q : LinkedPart}
    (h : q.LinkedBehind project (M.facts ids order) earlier) (valid : (M.program q.id).NamesValid) :
    q.exports = (M.program q.id).exportsAs (·.getD q.defaultLocal) := by
  have hreach : M.Reaches ids q.id := h.reach
  have hsource : q.source = M.source q.id := Except.ok.inj (h.analyzed.loaded hreach)
  have hrecord := ModuleRecord.exports_ofItems (has.ofItems_eq hreach (hsource ▸ h.analyzed.record_eq))
  rw [LinkedPart.exports, hrecord]
  exact Program.lastOfEach_exportsAs valid.exports_nodup (·.getD q.defaultLocal)

/-- Visiting known modules fails because of a missing export, or because two modules claim a name. -/
theorem LinkFailure.misses_or_conflict (valid : ∀ id, M.Reaches ids id → (M.program id).NamesValid)
    (acyclic : ∀ id, M.Reaches ids id → ¬ Relation.TransGen (fun a b => b ∈ M.needs a) id id)
    {e : BundleError} (h : LinkFailure project (M.facts ids order) e) :
    (∃ d name, e = .missingExport d name ∧ M.Misses ids d name) ∨
      ∃ parts started p q name, e = .nameConflict name p.id q.id ∧
        LinkConflict project (M.facts ids order) parts started p q name := by
  cases h with
  | load reach loaded => cases loaded reach
  | @analysis id source defaultLocal e reach loaded record_eq =>
    obtain rfl : source = M.source id := Except.ok.inj (loaded reach)
    obtain ⟨record, hrecord⟩ := has.analyzed id reach defaultLocal
    cases hrecord.symm.trans record_eq
  | @resolution id source defaultLocal record r e reach analyzed mem target_eq =>
    have himport : (r.source, r.bindings) ∈ (M.program id).imports :=
      has.record_imports reach analyzed ▸ List.mem_map_of_mem mem
    cases (has.resolve_eq id reach _ himport).symm.trans target_eq
  | @circular importer module reach imports back =>
    have hneeds := has.imports_iff reach imports
    have hback := (has.reflTransGen_needs (ModuleMap.Reaches.step reach hneeds) back).2
    exact absurd (Relation.TransGen.head' hneeds hback) (acyclic importer reach)
  | @tooDeep id chain reach chain_nodup length_eq needs =>
    obtain ⟨modules, hdepth, hmodules⟩ := has.depth
    have hsub : chain ⊆ modules := fun v hv => hmodules v (needs v hv).1
    have hlength := (List.subperm_of_subset chain_nodup hsub).length_le
    omega
  | conflict start linked mem linked_new numbered numbered_new ne claims claims_new =>
    exact .inr ⟨_, _, _, _, _, rfl, start, linked, mem, linked_new, numbered, numbered_new, ne, claims,
      claims_new⟩
  | @missing importer source defaultLocal record r b parts q name reach analyzed mem target_eq mem_bindings
      imported linked absent =>
    refine .inl ⟨q.id, name, rfl, importer, r.source, b, reach, has.binds reach analyzed mem mem_bindings,
      has.target_eq reach analyzed mem target_eq, imported, ?_⟩
    rw [linked.exports_eq has (valid q.id linked.reach)] at absent
    exact Program.lookup_exportsAs_eq_none.1 absent

/-- Visiting known modules that claim no name twice fails only because of a missing export. -/
theorem LinkFailure.misses (valid : ∀ id, M.Reaches ids id → (M.program id).NamesValid)
    (acyclic : ∀ id, M.Reaches ids id → ¬ Relation.TransGen (fun a b => b ∈ M.needs a) id id)
    (nodup : order.Nodup)
    (apart : ∀ p ∈ M.parts order, ∀ q ∈ M.parts order, p.id ≠ q.id → ∀ x ∈ p.claims, x ∉ q.claims)
    {e : BundleError} (h : LinkFailure project (M.facts ids order) e) :
    ∃ d name, e = .missingExport d name ∧ M.Misses ids d name := by
  rcases h.misses_or_conflict has valid acyclic with
    hmisses | ⟨parts, started, p, q, name, -, conflict⟩
  · exact hmisses
  have hstarted : started <+: order := conflict.start _ rfl
  have hlocal := fun p hp => (conflict.numbered p hp).defaultLocal_eq hstarted nodup
  have hplanned := conflict.linked.planned has hlocal
  have hnew := conflict.linked_new.planned has (conflict.numbered_new.defaultLocal_eq hstarted nodup)
    hplanned
  have hmem {p : LinkedPart} (hp : p.Numbered started) (hplan : p = M.part order p.id) :
      p ∈ M.parts order := by
    obtain ⟨n, hn, -⟩ := hp.mono hstarted
    exact hplan ▸ List.mem_map_of_mem (List.mem_of_getElem? hn)
  exact absurd conflict.claims_new (apart p
    (hmem (conflict.numbered p conflict.mem) (hplanned p conflict.mem)) q
    (hmem conflict.numbered_new hnew) conflict.ne name conflict.claims)

/-- Linking the helper module fails only because of a missing export. -/
theorem HelperFailure.misses (hread : project.read = fun code => (parse code).map Program.items)
    {t : LinkTrace} {g : Graph} (holds : g.Holds project (M.facts ids order) t)
    (helpers : project.HasHelpers M parse whitelist t.parts)
    (valid : (M.program helperModuleId).NamesValid)
    (apart : project.RecordsApart t.parts)
    {e : BundleError} (h : HelperFailure project t.parts e) :
    ∃ d name, e = .missingExport d name ∧ M.Misses ids d name := by
  cases h with
  | analysis mem_owned record_eq =>
    obtain ⟨code, record, hmodule, -⟩ := helpers.exists_helper mem_owned
    cases hmodule.symm.trans record_eq
  | @conflict helper p name part mem claims declared =>
    obtain ⟨renames, shape⟩ := helpers.shape hread part
    exact absurd claims (shape.apart name declared p mem)
  | @missing helper p link b name part mem mem_late mem_bindings imported absent =>
    obtain ⟨renames, shape⟩ := helpers.shape hread part
    obtain ⟨earlier, later, -, hbehind⟩ := holds.linked.of_mem mem
    obtain ⟨hlink, hhelper⟩ := List.mem_filter.1 mem_late
    have hrecord : link.record ∈ p.record.imports := hbehind.records_eq ▸ List.mem_map_of_mem hlink
    have htarget : link.target = .module helperModuleId := by simpa [ImportLink.isHelper] using hhelper
    refine ⟨_, name, rfl, p.id, link.record.source, b, hbehind.reach,
      has.binds hbehind.reach hbehind.analyzed hrecord mem_bindings,
      has.target_eq hbehind.reach hbehind.analyzed hrecord
        (htarget ▸ (hbehind.links link hlink).target_eq), imported, ?_⟩
    rw [LinkedPart.exports, shape.exports_eq, Program.lastOfEach_exportsAs valid.exports_nodup] at absent
    exact Program.lookup_exportsAs_eq_none.1 absent
  | @lateConflict helper p q name part mem locals mem_other ne claims =>
    have hp : LinkedPart.settle helper p ∈ helper :: t.parts.map (LinkedPart.settle helper) :=
      List.mem_cons_of_mem _ (List.mem_map_of_mem mem)
    exact absurd (LinkedPart.mem_allClaims_settle.2 (.inr locals))
      (apart helper part q mem_other _ hp ne name claims)

/-- The parts that are visited from known entries are the ones that were known beforehand. -/
theorem EntriesVisited.mem_parts {g : Graph} {t : LinkTrace}
    (h : EntriesVisited project (M.facts ids (M.startOrder project.depth ids)) ids g t) (p : LinkedPart) :
    p ∈ t.parts ↔ p ∈ M.parts (M.startOrder project.depth ids) := by
  have hstarted : t.started = M.startOrder project.depth ids := h.start _ rfl
  have hplanned := h.holds.linked.planned has fun p hp =>
    (h.holds.numbered p hp).defaultLocal_eq (hstarted ▸ List.prefix_refl _) (ModuleMap.nodup_startOrder _)
  have hids (id : String) : id ∈ M.startOrder project.depth ids ↔ ∃ p ∈ t.parts, p.id = id := by
    rw [← hstarted, h.holds.mem_started, h.visiting_eq]
    simp
  constructor
  · intro hp
    rw [hplanned p hp]
    exact List.mem_map_of_mem ((hids p.id).2 ⟨p, hp, rfl⟩)
  · intro hp
    obtain ⟨id, hid, rfl⟩ := List.mem_map.1 hp
    obtain ⟨q, hq, rfl⟩ := (hids id).1 hid
    rw [← hplanned q hq]
    exact hq

/-- A module that entries reach is visited. -/
theorem EntriesVisited.exists_part {g : Graph} {t : LinkTrace}
    (h : EntriesVisited project (M.facts ids order) ids g t) {id : String} (hreach : M.Reaches ids id) :
    ∃ p ∈ t.parts, p.id = id := by
  obtain ⟨start, hstart, hsteps⟩ := hreach
  induction hsteps with
  | refl => exact h.linked start hstart
  | tail hbefore hneeds ih =>
    obtain ⟨p, hp, rfl⟩ := ih
    obtain ⟨earlier, later, heq, hbehind⟩ := h.holds.linked.of_mem hp
    obtain ⟨hne, i, hi, htarget⟩ := ModuleMap.mem_needs.1 hneeds
    rw [← has.record_imports hbehind.reach hbehind.analyzed, ← hbehind.records_eq, List.map_map] at hi
    obtain ⟨link, hlink, rfl⟩ := List.mem_map.1 hi
    have hrecord : link.record ∈ p.record.imports := hbehind.records_eq ▸ List.mem_map_of_mem hlink
    have hlinked := has.target_eq hbehind.reach hbehind.analyzed hrecord (hbehind.links link hlink).target_eq
    obtain ⟨q, hq, hqid, -⟩ :=
      (hbehind.links link hlink).module_aliases _ (hlinked.symm.trans htarget) hne
    exact ⟨q, heq ▸ List.mem_append_left _ hq, hqid⟩

omit [Monad m] has in
/-- The entries that have identifiers are all of them. -/
theorem filterMap_toOption_idOf {idOf : Path → Except BundleError String} {entries : List Path}
    (hids : entries.map idOf = ids.map .ok) :
    entries.filterMap (fun entry => (idOf entry).toOption) = ids := by
  have hmap : entries.filterMap (fun entry => (idOf entry).toOption) =
      (entries.map idOf).filterMap Except.toOption := by
    rw [List.filterMap_map]
    rfl
  rw [hmap, hids, List.filterMap_map]
  exact List.filterMap_some

omit [Monad m] has in
/-- Known entries can be visited. -/
theorem ModuleMap.entriesReady {idOf : Path → Except BundleError String} {entries : List Path}
    (hids : entries.map idOf = ids.map .ok) (hne : helperModuleId ∉ ids) :
    EntriesReady project (M.facts ids (M.startOrder project.depth ids)) idOf entries where
  reach := by
    intro entry hentry id hid
    have hmem : id ∈ ids := by
      have : Except.ok id ∈ ids.map (.ok : String → Except BundleError String) :=
        hids ▸ hid ▸ List.mem_map_of_mem hentry
      simpa using this
    exact ⟨⟨id, hmem, .refl⟩, fun heq => hne (heq ▸ hmem)⟩
  start := by
    intro start hs
    obtain rfl := Option.some.inj hs
    rw [filterMap_toOption_idOf hids]
    exact List.prefix_refl _

variable [LawfulMonad m]

/-- Linking known modules that record no name twice comes to their parts, or to a missing export. -/
theorem linkEntries_planned {idOf : Path → Except BundleError String} {entries : List Path}
    (hids : entries.map idOf = ids.map .ok) (hne : helperModuleId ∉ ids)
    (valid : ∀ id, M.Reaches ids id ∨ id = helperModuleId → (M.program id).NamesValid)
    (acyclic : ∀ id, M.Reaches ids id → ¬ Relation.TransGen (fun a b => b ∈ M.needs a) id id)
    (helpers : project.HasHelpers M parse whitelist (M.parts (M.startOrder project.depth ids)))
    (apart : project.RecordsApart (M.parts (M.startOrder project.depth ids))) :
    Ensures (linkEntries project idOf entries) {}
      (fun found g => found = ids ∧ ∃ t parts,
        EntriesLinked project (M.facts ids (M.startOrder project.depth ids)) ids g t parts ∧
        project.HasHelpers M parse whitelist t.parts)
      (fun e => ∃ d name, e = .missingExport d name ∧ M.Misses ids d name) := by
  have hfound := filterMap_toOption_idOf hids
  have hready : EntriesReady project (M.facts ids (M.startOrder project.depth ids)) idOf entries :=
    ModuleMap.entriesReady hids hne
  generalize hstart : M.startOrder project.depth ids = order at helpers apart hready ⊢
  have nodup : order.Nodup := hstart ▸ ModuleMap.nodup_startOrder project.depth
  refine (linkEntries_ensures has.knows hready).mono ?_ ?_
  · rintro found g ⟨-, rfl, t, parts, hparts⟩
    rw [hfound] at hparts ⊢
    obtain ⟨before, hvisited⟩ := hparts.visited
    have hmem := fun p => (EntriesVisited.mem_parts has (hstart ▸ hvisited) p).symm
    exact ⟨rfl, t, parts, hparts, helpers.congr (hstart ▸ hmem)⟩
  · intro e he
    cases he with
    | @entry entry e mem id_eq =>
      have : Except.error e ∈ ids.map (Except.ok (ε := BundleError)) :=
        hids ▸ id_eq ▸ List.mem_map_of_mem mem
      simp at this
    | visit failure =>
      exact failure.misses has (fun id hid => valid id (.inl hid)) acyclic nodup (apart.claims helpers)
    | helpers visited ids_eq failure =>
      rw [ids_eq, hfound] at visited
      have hmem := fun p => (EntriesVisited.mem_parts has (hstart ▸ visited) p).symm
      rw [hstart] at hmem
      exact failure.misses has has.read_eq visited.holds (helpers.congr hmem) (valid _ (.inr rfl))
        (apart.congr hmem)

end Failures

end ModuleBuild
