import Mathlib
import ModuleBuild.Proofs.Helper.Written
import ModuleBuild.Proofs.Linking.HelperModule

/-!
# Names beside the helper module

The helper module gives way to the names that other modules own. The variables that stand for imports of
helpers do not: their names were chosen while each module was compiled, when nothing was known about the
others. So linking the helper module fails exactly if one of these variables has a name that is in use.

## Main definitions

* `Graph.helperBinding` — the name of a helper beside the modules of a graph.
* `Graph.helperVariables` — the variables that the imports of helpers of a module need.
* `Graph.Contested` — such a variable has a name that another module uses.

## Main statements

* `linkHelpers_ok_iff` — when linking the helper module fails, and how.
-/

namespace ModuleBuild

open Linking Script

/-! ## Variables for helpers -/

namespace Graph

/-- The new names of the helper module with all helpers beside the modules of a graph. -/
def newNames (g : Graph) : List (String × String) :=
  helperNewNames none (g.owners.map (·.1))

/-- The name of a helper beside the modules of a graph. -/
def helperBinding (g : Graph) (name : String) : String :=
  newName g.newNames (helperLocal name)

/-- The variables that bindings of an import of helpers need: all but those that are named as the helper
is. -/
def bindingVariables (g : Graph) (bindings : List ImportBinding) : List String :=
  bindings.filterMap fun
    | .named imported l => if g.helperBinding imported = l then none else some l
    | .byDefault l | .wholeModule l => some l

/-- The variables that the imports of helpers of a module need. -/
def helperVariables (g : Graph) (d : DeferredModule) : List String :=
  d.helperImports.flatMap fun r => g.bindingVariables r.bindings

/-- A name that a module needs for a helper, and that another one uses: as a name that it owns, as the
name of a helper, or for a helper as well. -/
structure Contested (g : Graph) (name id owner : String) : Prop where
  needed : ∃ d, (id, d) ∈ g.deferred ∧ name ∈ g.helperVariables d
  ne : owner ≠ id
  used : g.owners.lookup name = some owner ∨
    (owner = helperModuleId ∧ ∃ h ∈ helpersOf none, name = g.helperBinding h.name) ∨
    ∃ d, (owner, d) ∈ g.deferred ∧ name ∈ g.helperVariables d

end Graph

section Aliases

variable {linked : LinkedModule} {id : String} {bindings : List ImportBinding} {g : Graph}

/-- Bindings of helpers that are exported need the variables that were counted. -/
theorem aliases_bindingVariables (hall : ∀ b ∈ bindings, ∃ name l, b = .named name l ∧
      linked.exports.lookup name = some (g.helperBinding name)) :
    ∃ pairs, linked.aliases id bindings = .ok pairs ∧ pairs.map (·.1) = g.bindingVariables bindings := by
  induction bindings with
  | nil => exact ⟨[], rfl, rfl⟩
  | cons b rest ih =>
    obtain ⟨name, l, rfl, hlookup⟩ := hall b List.mem_cons_self
    obtain ⟨more, hmore, hnames⟩ := ih fun b hb => hall b (List.mem_cons_of_mem _ hb)
    have hvalue : linked.value id (.named name l) = .ok (g.helperBinding name) := by
      simp only [LinkedModule.value, LinkedModule.exportLocal, hlookup]
    unfold LinkedModule.aliases
    rw [hvalue, hmore]
    by_cases hsame : g.helperBinding name = l
    · refine ⟨more, ?_, ?_⟩
      · simp [bind, Except.bind, ImportBinding.localName, hsame, pure, Except.pure]
      · simp [Graph.bindingVariables, hsame, hnames]
    · refine ⟨(l, g.helperBinding name) :: more, ?_, ?_⟩
      · simp [bind, Except.bind, ImportBinding.localName, hsame, pure, Except.pure]
      · simp [Graph.bindingVariables, hsame, hnames]

end Aliases

section Project

variable {m : Type → Type} {project : Project m} {facts : Project.Facts} {g g' : Graph} {t : LinkTrace}

/-- All that modules import from the helper module are helpers of the registry. -/
def ImportsHelpers (project : Project m) (facts : Project.Facts) : Prop :=
  ∀ id source defaultLocal record, project.Analyzed facts id source defaultLocal record →
    ∀ r ∈ record.imports, project.resolve r.source id = .ok (.module helperModuleId) →
    ∀ b ∈ r.bindings, ∃ name l, b = .named name l ∧ helperRegistry.has name = true

/-- The helper module as linking puts it beside the modules of a graph. -/
structure HelperBeside (g : Graph) (helper : LinkedPart) : Prop where
  id_eq : helper.id = helperModuleId
  links_eq : helper.links = []
  declared_eq : helper.record.declared = (helpersOf none).map fun h => g.helperBinding h.name
  exports_eq : ∀ name, helperRegistry.has name = true →
    helper.linked.exports.lookup name = some (g.helperBinding name)

variable {helper p : LinkedPart}

theorem HelperBeside.allClaims_eq (h : HelperBeside g helper) :
    helper.allClaims = (helpersOf none).map fun h => g.helperBinding h.name := by
  simp [LinkedPart.allClaims, LinkedPart.claims, LinkedPart.early, LinkedPart.late, h.links_eq,
    h.declared_eq]

/-- The imports of helpers of a part are all exported, and their variables were counted. -/
theorem Graph.Holds.settle_late (h : g.Holds project facts t) (himports : ImportsHelpers project facts)
    (hhelper : HelperBeside g helper) (hp : p ∈ t.parts) :
    (∀ link ∈ p.late, ∃ pairs,
      helper.linked.aliases helperModuleId link.record.bindings = .ok pairs) ∧
    (LinkedPart.settle helper p).late.flatMap (·.locals) =
      p.late.flatMap fun link => g.bindingVariables link.record.bindings := by
  obtain ⟨earlier, later, -, hbehind⟩ := h.linked.of_mem hp
  have hone : ∀ link ∈ p.late, ∃ pairs,
      helper.linked.aliases helperModuleId link.record.bindings = .ok pairs ∧
        pairs.map (·.1) = g.bindingVariables link.record.bindings := by
    intro link hlink
    obtain ⟨hmem, hlate⟩ := List.mem_filter.1 hlink
    have htarget : link.target = .module helperModuleId := by simpa [ImportLink.isHelper] using hlate
    refine aliases_bindingVariables fun b hb => ?_
    have hrecord : link.record ∈ p.record.imports := hbehind.records_eq ▸ List.mem_map_of_mem hmem
    obtain ⟨name, l, rfl, hhas⟩ := himports _ _ _ _ hbehind.analyzed link.record hrecord
      (htarget ▸ (hbehind.links link hmem).target_eq) b hb
    exact ⟨name, l, rfl, hhelper.exports_eq name hhas⟩
  refine ⟨fun link hlink => (hone link hlink).imp fun _ => And.left, ?_⟩
  rw [LinkedPart.late_settle, List.flatMap_map]
  refine List.flatMap_congr fun link hlink => ?_
  obtain ⟨pairs, haliases, hnames⟩ := hone link hlink
  have hlate : link.isHelper = true := (List.mem_filter.1 hlink).2
  simp [ImportLink.settle, hlate, ImportLink.locals, haliases, Except.toOption, hnames]

/-- What waits are the parts with imports of helpers. -/
theorem Graph.Holds.mem_deferred (h : g.Holds project facts t) {id : String} {d : DeferredModule} :
    (id, d) ∈ g.deferred ↔ ∃ p ∈ t.parts, p.late ≠ [] ∧ p.id = id ∧
      ⟨p.source, p.edits, p.late.map (·.record)⟩ = d := by
  rw [h.deferred_eq, List.mem_filterMap]
  refine exists_congr fun p => and_congr_right fun _ => ?_
  rw [LinkedPart.deferred?_eq]
  split <;> simp_all

/-- A part needs a variable for a helper exactly if this was counted for it. -/
theorem Graph.Holds.exists_deferred_iff (h : g.Holds project facts t)
    (himports : ImportsHelpers project facts) (hhelper : HelperBeside g helper) {name id : String} :
    (∃ d, (id, d) ∈ g.deferred ∧ name ∈ g.helperVariables d) ↔
      ∃ p ∈ t.parts, p.id = id ∧ name ∈ (LinkedPart.settle helper p).late.flatMap (·.locals) := by
  have hvariables (p : LinkedPart) : g.helperVariables ⟨p.source, p.edits, p.late.map (·.record)⟩ =
      p.late.flatMap fun link => g.bindingVariables link.record.bindings := by
    simp [Graph.helperVariables, List.flatMap_map]
  constructor
  · rintro ⟨d, hd, hname⟩
    obtain ⟨p, hp, -, hid, rfl⟩ := h.mem_deferred.1 hd
    rw [hvariables, ← (h.settle_late himports hhelper hp).2] at hname
    exact ⟨p, hp, hid, hname⟩
  · rintro ⟨p, hp, hid, hname⟩
    rw [(h.settle_late himports hhelper hp).2] at hname
    have hlate : p.late ≠ [] := by
      intro hnone
      simp [hnone] at hname
    exact ⟨_, h.mem_deferred.2 ⟨p, hp, hlate, hid, rfl⟩, hvariables p ▸ hname⟩

/-- The helper module is read, and has its new names. -/
theorem exists_helperBeside (hread : HelperModuleRead project.read none (g.owners.map (·.1)))
    (htext : project.helperText = helperBundle helperRegistry none .module) :
    ∃ code record, helperModule project (g.owners.map (·.1)) = .ok (code, record) ∧
      HelperBeside g (helperPart code record) := by
  obtain ⟨code, record, hmodule, -, hdeclared, hexports⟩ := helperModule_ok hread htext
  refine ⟨code, record, hmodule, rfl, rfl, hdeclared, fun name hhas => ?_⟩
  show (lastOfEach record.exports).lookup name = _
  rw [hexports]
  rcases lookup_exports_helper (newName g.newNames) name with ⟨hsome, -⟩ | ⟨-, hserved⟩
  · exact hsome
  · exact absurd ⟨hhas, fun _ h => nomatch h⟩ hserved

/-- A failure to link the helper module is a contested name. -/
theorem Graph.Holds.contested_of_error (h : g.Holds project facts t) (hpending : t.pending = [])
    (himports : ImportsHelpers project facts)
    (htext : project.helperText = helperBundle helperRegistry none .module)
    (hread : HelperModuleRead project.read none (g.owners.map (·.1))) {e : BundleError}
    (herror : g.linkHelpers project = .error e) :
    ∃ name id owner, e = .nameConflict name owner id ∧ g.Contested name id owner := by
  obtain ⟨code, record, hmodule, hhelper⟩ := exists_helperBeside hread htext
  rw [Graph.linkHelpers_eq] at herror
  split at herror
  · cases herror
  rw [hmodule] at herror
  rcases bind_eq_error.1 (show g.linkBefore (helperPart code record) = _ from herror) with
    hdeclare | ⟨mid, hdeclare, hloop⟩
  · -- The new names are those that no other module owns.
    obtain ⟨name, hdeclared, first, -, howner, -⟩ := Graph.declare_error hdeclare
    have howned : name ∈ g.owners.map (·.1) := List.mem_map_of_mem (mem_of_lookup howner)
    rw [hhelper.declared_eq] at hdeclared
    obtain ⟨h', hh', rfl⟩ := List.mem_map.1 hdeclared
    exact absurd howned (newName_not_mem_owned (List.mem_map_of_mem hh'))
  rw [h.linkBefore_eq hdeclare] at hloop
  obtain ⟨p, hp, hfail⟩ := (h.shows_helper hpending rfl rfl hdeclare).linkAll_error
    (h.ids_nodup_helper rfl) (List.mem_singleton_self _) rfl rfl (h.lookup_putBefore hdeclare) hloop
  rcases hfail with ⟨link, hlink, hmissing⟩ | ⟨name, hname, q, hq, hne, hclaims, rfl⟩
  · obtain ⟨pairs, haliases⟩ := (h.settle_late himports hhelper hp).1 link hlink
    rw [haliases] at hmissing
    cases hmissing
  · have hneeded := (h.exists_deferred_iff himports hhelper).2 ⟨p, hp, rfl, hname⟩
    refine ⟨name, p.id, q.id, rfl, hneeded, hne, ?_⟩
    rcases List.mem_append.1 hq with hq | hq
    · obtain rfl := List.mem_singleton.1 hq
      rw [hhelper.allClaims_eq] at hclaims
      obtain ⟨h', hh', rfl⟩ := List.mem_map.1 hclaims
      exact .inr (.inl ⟨rfl, h', hh', rfl⟩)
    · obtain ⟨other, hother, rfl⟩ := List.mem_map.1 hq
      rcases LinkedPart.mem_allClaims_settle.1 hclaims with hclaims | hclaims
      · exact .inl ((h.owner_iff name other.id).2 ⟨other, hother, rfl, hclaims⟩)
      · exact .inr (.inr ((h.exists_deferred_iff himports hhelper).2 ⟨other, hother, rfl, hclaims⟩))

/-- With a contested name the helper module is not linked. -/
theorem Graph.Holds.not_contested_of_ok (h : g.Holds project facts t) (hpending : t.pending = [])
    (himports : ImportsHelpers project facts)
    (htext : project.helperText = helperBundle helperRegistry none .module)
    (hread : HelperModuleRead project.read none (g.owners.map (·.1)))
    (hok : g.linkHelpers project = .ok g') (name id owner : String) : ¬ g.Contested name id owner := by
  intro hcontested
  obtain ⟨code, record, hmodule, hhelper⟩ := exists_helperBeside hread htext
  rw [Graph.linkHelpers_eq] at hok
  split at hok
  · rename_i hempty
    obtain ⟨d, hd, -⟩ := hcontested.needed
    rw [List.isEmpty_iff.1 hempty] at hd
    cases hd
  rw [hmodule] at hok
  obtain ⟨mid, hdeclare, hloop⟩ := bind_eq_ok.1 (show g.linkBefore (helperPart code record) = _ from hok)
  rw [h.linkBefore_eq hdeclare] at hloop
  obtain ⟨hshows, -⟩ := (h.shows_helper hpending rfl rfl hdeclare).linkAll_ok
    (h.ids_nodup_helper rfl) (List.mem_singleton_self _) rfl rfl (h.lookup_putBefore hdeclare) hloop
  -- The name would belong to two modules.
  have howner {q : LinkedPart} (hq : q ∈ [helperPart code record] ++ t.parts.map
      (LinkedPart.settle (helperPart code record))) (hclaims : name ∈ q.allClaims) :
      g'.owners.lookup name = some q.id :=
    (hshows.owner_iff name q.id).2 (.inl ⟨q, hq, rfl, hclaims⟩)
  have hsettled {q : LinkedPart} (hq : q ∈ t.parts)
      (hclaims : name ∈ q.claims ∨
        name ∈ (LinkedPart.settle (helperPart code record) q).late.flatMap (·.locals)) :
      g'.owners.lookup name = some q.id :=
    howner (q := LinkedPart.settle (helperPart code record) q)
      (List.mem_append_right _ (List.mem_map_of_mem hq)) (LinkedPart.mem_allClaims_settle.2 hclaims)
  obtain ⟨p, hp, rfl, hname⟩ := (h.exists_deferred_iff himports hhelper).1 hcontested.needed
  have hfirst := hsettled hp (.inr hname)
  have hsecond : g'.owners.lookup name = some owner := by
    rcases hcontested.used with howned | ⟨rfl, h', hh', rfl⟩ | hneeded
    · obtain ⟨q, hq, rfl, hclaims⟩ := (h.owner_iff name owner).1 howned
      exact hsettled hq (.inl hclaims)
    · refine howner (List.mem_append_left _ (List.mem_singleton_self _)) ?_
      rw [hhelper.allClaims_eq]
      exact List.mem_map_of_mem hh'
    · obtain ⟨q, hq, rfl, hlate⟩ := (h.exists_deferred_iff himports hhelper).1 hneeded
      exact hsettled hq (.inr hlate)
  exact hcontested.ne (Option.some.inj (hsecond.symm.trans hfirst))

variable [Monad m]

/-- Visits all that entries reach; gives the identifiers of the entries. -/
def visitEntries (project : Project m) (idOf : Path → Except BundleError String) (entries : List Path) :
    Linking m (List String) :=
  entries.mapM fun entry => do
    let id ← ofAnswer (idOf entry)
    visit project project.depth id
    return id

variable [LawfulMonad m]

/-- When the modules that entries reach are visited, no module is kept back by the helper module itself:
linking it fails exactly if a variable for a helper has a name that another module uses, and then with
the conflict about such a name. -/
theorem linkHelpers_ok_iff (hknows : project.Knows facts) {idOf : Path → Except BundleError String}
    {entries : List Path} (ready : EntriesReady project facts idOf entries)
    (himports : ImportsHelpers project facts)
    (htext : project.helperText = helperBundle helperRegistry none .module) :
    Ensures (visitEntries project idOf entries) {}
      (fun _ g => HelperModuleRead project.read none (g.owners.map (·.1)) →
        ((∃ g', g.linkHelpers project = .ok g') ↔ ∀ name id owner, ¬ g.Contested name id owner) ∧
        ∀ e, g.linkHelpers project = .error e →
          ∃ name id owner, e = .nameConflict name owner id ∧ g.Contested name id owner)
      (fun _ => True) := by
  refine (visitEntries_ensures hknows ready).mono ?_ fun _ _ => trivial
  rintro ids g ⟨-, -, t, hvisited⟩ hread
  have herror := fun e => hvisited.holds.contested_of_error hvisited.pending_eq himports htext hread (e := e)
  refine ⟨⟨fun ⟨g', hok⟩ =>
    hvisited.holds.not_contested_of_ok hvisited.pending_eq himports htext hread hok, fun hnone => ?_⟩, herror⟩
  cases hlink : g.linkHelpers project with
  | ok g' => exact ⟨g', rfl⟩
  | error e =>
    obtain ⟨name, id, owner, -, hcontested⟩ := herror e hlink
    exact absurd hcontested (hnone name id owner)

end Project

/-- The text of a module whose compile imported a helper, where `_extends` stood in its source. -/
def extendingText : String :=
  (InjectedImport.named "extends" "_extends2" helperModuleId).render .esm ++ "\n_extends2(_extends);"

/-- The helper module with all helpers. -/
def allHelpersText : String := helperBundle helperRegistry none .module

/-- Where the declarations of the helper module stand. -/
def helperSpans : List Span :=
  [⟨0, 401⟩, ⟨402, 601⟩, ⟨602, 1074⟩, ⟨1075, 1236⟩, ⟨1237, 1542⟩, ⟨1543, 1768⟩]

/-- The statements of the helper module. -/
def helperItems : List ModuleItem :=
  List.zipWith (fun (h : Helper) span => ModuleItem.declaration span (some [h.localName]))
      (helpersOf none) helperSpans ++
    [.exportList ⟨1769, 1947⟩ ((providedOf none).map fun h => (h.localName, h.name)) none]

/-- A parser that knows the module and the helper module. -/
def readContested (text : String) : Option (List ModuleItem) :=
  if text = extendingText then
    some [.importFrom ⟨0, 66⟩ helperModuleId [.named "extends" "_extends2"], .other ⟨67, 87⟩]
  else if text = allHelpersText then some helperItems
  else none

/-- A project where all modules but the helper module have the same text. -/
def contestedProject : Project Id where
  load _ := .ok extendingText
  resolve specifier _ := .ok (.module specifier)
  read := readContested
  helperText := allHelpersText
  depth := 2

/-- The graph of two modules of this project before the helper module is linked. -/
def contestedGraph : Graph :=
  let waiting : DeferredModule := ⟨extendingText, [], [⟨⟨0, 66⟩, helperModuleId,
    [.named "extends" "_extends2"], (InjectedImport.named "extends" "_extends2" helperModuleId).render .esm⟩]⟩
  { order := ["/a", "/b"]
    modules := [("/b", ⟨"", []⟩), ("/a", ⟨"", []⟩)]
    deferred := [("/a", waiting), ("/b", waiting)] }

/-- Visits the two modules. -/
def visitContested : Linking Id (List String) :=
  visitEntries contestedProject (fun entry => .ok entry.text) [⟨"/a"⟩, ⟨"/b"⟩]

/-- What is known about this project. -/
def contestedFacts : Project.Facts where
  loads _ answer := answer = .ok extendingText
  reach _ := True

theorem importsHelpers_contested : ImportsHelpers contestedProject contestedFacts := by
  intro id source defaultLocal record hanalyzed r hr _ b hb
  obtain rfl : source = extendingText := Except.ok.inj hanalyzed.loaded
  have hread : contestedProject.read extendingText = some
      [.importFrom ⟨0, 66⟩ helperModuleId [.named "extends" "_extends2"], .other ⟨67, 87⟩] := by
    decide +kernel
  have hrecord := hanalyzed.record_eq
  rw [ModuleRecord.ofText, hread] at hrecord
  obtain rfl := Except.ok.inj hrecord
  obtain rfl := List.mem_singleton.1 hr
  obtain rfl := List.mem_singleton.1 hb
  exact ⟨_, _, rfl, by decide +kernel⟩

theorem helperModuleRead_contested : HelperModuleRead readContested none [] where
  written := by
    refine ⟨helperSpans, ⟨1769, 1947⟩, by decide +kernel, ?_⟩
    have hne : allHelpersText ≠ extendingText := by decide +kernel
    show readContested allHelpersText = some helperItems
    rw [readContested, if_neg hne, if_pos rfl]
  renamed hne := absurd (show helperNewNames none [] = [] by decide +kernel) hne

/-- A helper that two modules import under one name is not linked. -/
theorem linkHelpers_ok_iff_contested :
    (visitContested.run.run {}).run = (.ok ["/a", "/b"], contestedGraph) ∧
      contestedGraph.Contested "_extends2" "/b" "/a" ∧
      ¬ ∃ g, contestedGraph.linkHelpers contestedProject = .ok g := by
  have hrun : (visitContested.run.run {}).run = (.ok ["/a", "/b"], contestedGraph) := by decide +kernel
  have hcontested : contestedGraph.Contested "_extends2" "/b" "/a" := by
    refine ⟨⟨_, List.mem_cons_of_mem _ List.mem_cons_self, ?_⟩, by decide,
      .inr (.inr ⟨_, List.mem_cons_self, ?_⟩)⟩ <;> decide +kernel
  have hknows : contestedProject.Knows contestedFacts := {
    load := fun id => SatisfiesM_Id_eq.2 rfl
    reach_import := fun _ _ _ _ => trivial
    start_imports := fun _ h => nomatch h }
  have hready : EntriesReady contestedProject contestedFacts (fun entry => .ok entry.text)
      [⟨"/a"⟩, ⟨"/b"⟩] := {
    reach := by
      intro entry hentry id hid
      obtain rfl := Except.ok.inj hid
      refine ⟨trivial, ?_⟩
      rcases List.mem_pair.1 hentry with rfl | rfl <;> decide
    start := fun s hs => nomatch hs }
  have hlinked := SatisfiesM_Id_eq.1 (linkHelpers_ok_iff hknows hready importsHelpers_contested rfl)
  rw [show (visitEntries contestedProject (fun entry => .ok entry.text)
    [⟨"/a"⟩, ⟨"/b"⟩]).run.run {} = _ from hrun] at hlinked
  exact ⟨hrun, hcontested, fun hok =>
    (hlinked helperModuleRead_contested).1.1 hok "_extends2" "/b" "/a" hcontested⟩

end ModuleBuild
