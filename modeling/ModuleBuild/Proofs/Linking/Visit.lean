import Mathlib
import ModuleBuild.Proofs.Linking.Run
import ModuleBuild.Proofs.Linking.State

/-!
# Visiting modules

A visit starts from a graph in which modules wait, and comes to one in which the same modules wait and
the visited one is a part. On the way it may fail for one of a few reasons, of which each is a fact about
the project.

## Main definitions

* `LinkFailure` — why visiting fails.
* `VisitReady`, `Visited` — what holds before and after a visit.

## Main statements

* `visit_ensures` — what every visit comes to.
-/

namespace ModuleBuild

open Linking Script

section Visit

variable {m : Type → Type} (project : Project m) (facts : Project.Facts)

/-- Why visiting fails. -/
inductive LinkFailure : BundleError → Prop
  | load {id : String} {e : BundleError} (reach : facts.reach id) (loaded : facts.loads id (.error e)) :
    LinkFailure e
  | analysis {id source defaultLocal : String} {e : BundleError} (reach : facts.reach id)
    (loaded : facts.loads id (.ok source))
    (record_eq : ModuleRecord.ofText project.read id source defaultLocal = .error e) : LinkFailure e
  | resolution {id source defaultLocal : String} {record : ModuleRecord} {r : ImportRecord}
    {e : BundleError} (reach : facts.reach id)
    (analyzed : project.Analyzed facts id source defaultLocal record) (mem : r ∈ record.imports)
    (target_eq : project.resolve r.source id = .error e) : LinkFailure e
  /-- A module imports one that needs it. -/
  | circular {importer module : String} (reach : facts.reach importer)
    (imports : project.Imports facts importer module)
    (back : Relation.ReflTransGen (project.Imports facts) module importer) :
    LinkFailure (.circularImport module importer)
  /-- More modules need each other than the bound on their number. -/
  | tooDeep {id : String} {chain : List String} (reach : facts.reach id) (nodup : chain.Nodup)
    (length_eq : chain.length = project.depth)
    (needs : ∀ v ∈ chain, facts.reach v ∧ v ≠ helperModuleId ∧
      Relation.TransGen (project.Imports facts) v id) :
    LinkFailure (.circularImport id id)
  /-- Two modules claim a name. -/
  | conflict {parts : List LinkedPart} {started : List String} {p q : LinkedPart} {name : String}
    (start : ∀ s ∈ facts.start, started <+: s.order) (linked : LinkedInOrder project facts parts)
    (mem : p ∈ parts) (linked_new : q.LinkedBehind project facts parts)
    (numbered : ∀ p ∈ parts, p.Numbered started) (numbered_new : q.Numbered started) (ne : p.id ≠ q.id)
    (claims : name ∈ p.claims) (claims_new : name ∈ q.claims) :
    LinkFailure (.nameConflict name p.id q.id)
  /-- A module does not export what another one imports. -/
  | missing {importer source defaultLocal : String} {record : ModuleRecord} {r : ImportRecord}
    {b : ImportBinding} {parts : List LinkedPart} {q : LinkedPart} {name : String}
    (reach : facts.reach importer)
    (analyzed : project.Analyzed facts importer source defaultLocal record)
    (mem : r ∈ record.imports) (target_eq : project.resolve r.source importer = .ok (.module q.id))
    (mem_bindings : b ∈ r.bindings) (imported : b.imported? = some name)
    (linked : q.LinkedBehind project facts parts) (absent : q.exports.lookup name = none) :
    LinkFailure (.missingExport q.id name)

/-- What holds before a visit. -/
structure VisitReady (g : Graph) (t : LinkTrace) (fuel : Nat) (id : String) : Prop where
  holds : g.Holds project facts t
  reach : facts.reach id
  ne_helper : id ≠ helperModuleId
  fresh : id ∉ g.visiting
  /-- The modules that wait need the one that is visited. -/
  behind : ∀ v ∈ g.visiting, facts.reach v ∧ v ≠ helperModuleId ∧
    Relation.TransGen (project.Imports facts) v id
  depth : g.visiting.length + fuel = project.depth
  start : ∀ s ∈ facts.start, Project.preorder s.imports fuel t.started id <+: s.order

/-- What holds after a visit. -/
structure Visited (g : Graph) (t : LinkTrace) (fuel : Nat) (id : String) (g' : Graph)
    (t' : LinkTrace) : Prop where
  holds : g'.Holds project facts t'
  visiting_eq : g'.visiting = g.visiting
  parts : t.parts <+: t'.parts
  pending_eq : t'.pending = t.pending
  linked : ∃ p ∈ t'.parts, p.id = id
  started : t.started <+: t'.started
  start : ∀ s ∈ facts.start, t'.started = Project.preorder s.imports fuel t.started id

/-- What holds while the imports of a module are linked, of which `p` has the ones that are. -/
structure ImportsLinked (g : Graph) (t : LinkTrace) (fuel : Nat) (p : LinkedPart) (g' : Graph)
    (t' : LinkTrace) : Prop where
  holds : g'.Holds project facts t'
  visiting_eq : g'.visiting = p.id :: g.visiting
  parts : t.parts <+: t'.parts
  pending_eq : t'.pending = t.pending ++ p.outside
  begun : p.BegunBehind project facts t'.parts
  started : t.started ++ [p.id] <+: t'.started
  start : ∀ s ∈ facts.start, t'.started =
    (project.dependencies p.id (p.links.map (·.record))).foldl (Project.preorder s.imports fuel)
      (t.started ++ [p.id])

variable {project facts} {g g' : Graph} {t t' : LinkTrace} {fuel : Nat} {id : String}
  {p : LinkedPart}

theorem VisitReady.not_started (h : VisitReady project facts g t fuel id)
    (hnew : ¬ ∃ p ∈ t.parts, p.id = id) : id ∉ t.started := by
  rw [h.holds.mem_started]
  rintro (hpart | hvisiting)
  · exact hnew hpart
  · exact h.fresh hvisiting

/-- A module that is linked already is visited. -/
theorem VisitReady.visited (h : VisitReady project facts g t fuel id)
    (hlinked : ∃ p ∈ t.parts, p.id = id) : Visited project facts g t fuel id g t where
  holds := h.holds
  visiting_eq := rfl
  parts := List.prefix_refl t.parts
  pending_eq := rfl
  linked := hlinked
  started := List.prefix_refl t.started
  start _ _ := (Project.preorder_of_mem (h.holds.mem_started.mpr (.inl hlinked))).symm

theorem ImportsLinked.imports (h : ImportsLinked project facts g t fuel p g' t') {d : String}
    {r : ImportRecord} (hr : r ∈ p.record.imports)
    (hd : project.resolve r.source p.id = .ok (.module d)) (hne : d ≠ helperModuleId) :
    project.Imports facts p.id d :=
  ⟨hne, p.source, p.defaultLocal, p.record, h.begun.analyzed, r, hr, hd⟩

/-- One more import is linked. -/
theorem ImportsLinked.addLink (h : ImportsLinked project facts g t fuel p g' t') {link : ImportLink}
    {g'' : Graph} {t'' : LinkTrace} (hholds : g''.Holds project facts t'')
    (hvisiting : g''.visiting = g'.visiting) (hparts : t'.parts <+: t''.parts)
    (hpending : t''.pending = t'.pending ++ link.outside) (hlink : link.LinkedBehind project t''.parts p.id)
    (hstarted : t'.started <+: t''.started)
    (hstart : ∀ s ∈ facts.start, t''.started =
      (project.dependencies p.id [link.record]).foldl (Project.preorder s.imports fuel) t'.started) :
    ImportsLinked project facts g t fuel (p.addLink link) g'' t'' where
  holds := hholds
  visiting_eq := hvisiting.trans h.visiting_eq
  parts := h.parts.trans hparts
  pending_eq := by
    rw [hpending, h.pending_eq, LinkedPart.outside_addLink, List.append_assoc]
  begun := (h.begun.mono hparts.subset).addLink hlink
  started := h.started.trans hstarted
  start s hs := by
    have hrecords := LinkedPart.records_addLink p link
    rw [show (p.addLink link).id = p.id from rfl, hrecords, Project.dependencies_append,
      List.foldl_append, ← h.start s hs]
    exact hstart s hs

variable [Monad m] [LawfulMonad m]

omit [LawfulMonad m] in
/-- The modules that are started for one more import are as planned. -/
theorem ImportsLinked.start_next (hknows : project.Knows facts)
    (ready : VisitReady project facts g t (fuel + 1) p.id) (hnew : p.id ∉ t.started)
    (h : ImportsLinked project facts g t fuel p g' t') {r : ImportRecord} {rest : List ImportRecord}
    (hrecords : p.record.imports = p.links.map (·.record) ++ r :: rest) {d : String}
    (hd : project.dependencies p.id [r] = [d]) :
    ∀ s ∈ facts.start, Project.preorder s.imports fuel t'.started d <+: s.order := by
  intro s hs
  have himports := hknows.start_imports s hs p.id p.source p.defaultLocal p.record ready.reach
    h.begun.analyzed
  have hrest : project.dependencies p.id (r :: rest) = d :: project.dependencies p.id rest := by
    rw [← List.singleton_append, Project.dependencies_append, hd, List.singleton_append]
  have hplan := ready.start s hs
  rw [Project.preorder_succ hnew, ← himports, hrecords, Project.dependencies_append, hrest,
    List.foldl_append, ← h.start s hs, List.foldl_cons] at hplan
  exact (Project.started_foldl (Project.started_preorder s.imports fuel) _ _).trans hplan

/-- An import of another module is linked behind a visit of it. -/
theorem linkModule_ensures (hknows : project.Knows facts)
    (hvisit : ∀ g t id, VisitReady project facts g t fuel id → Ensures (visit project fuel id) g
      (fun _ g' => ∃ t', Visited project facts g t fuel id g' t') (LinkFailure project facts))
    (ready : VisitReady project facts g t (fuel + 1) p.id) (hnew : p.id ∉ t.started)
    (h : ImportsLinked project facts g t fuel p g' t') {r : ImportRecord} {rest : List ImportRecord}
    (hrecords : p.record.imports = p.links.map (·.record) ++ r :: rest) {d : String}
    (htarget : project.resolve r.source p.id = .ok (.module d)) (hd : d ≠ helperModuleId)
    (hfresh : d ∉ g'.visiting) :
    Ensures (do
        visit project fuel d
        ofAnswer ((← get).importText d r) : Linking m (String × List String)) g'
      (fun answer g'' => ∃ (link : ImportLink) (t'' : LinkTrace), link.record = r ∧
        link.isHelper = false ∧ answer = (link.edit.text, link.locals) ∧
        ImportsLinked project facts g t fuel (p.addLink link) g'' t'')
      (LinkFailure project facts) := by
  have hmem : r ∈ p.record.imports := by simp [hrecords]
  have himports : project.Imports facts p.id d := h.imports hmem htarget hd
  have hdeps : project.dependencies p.id [r] = [d] := by
    simp [Project.dependencies, htarget, hd]
  have hready : VisitReady project facts g' t' fuel d := {
    holds := h.holds
    reach := hknows.reach_import p.id d ready.reach himports
    ne_helper := hd
    fresh := hfresh
    behind := by
      intro v hv
      rw [h.visiting_eq] at hv
      rcases List.mem_cons.mp hv with rfl | hv
      · exact ⟨ready.reach, ready.ne_helper, .single himports⟩
      · obtain ⟨hreach, hne, hneeds⟩ := ready.behind v hv
        exact ⟨hreach, hne, hneeds.tail himports⟩
    depth := by
      have := ready.depth
      rw [h.visiting_eq, List.length_cons]
      omega
    start := h.start_next hknows ready hnew hrecords hdeps }
  refine .bind (hvisit g' t' d hready) ?_
  rintro - g'' ⟨t'', hvisited⟩
  refine .get ?_
  obtain ⟨q, hq, rfl⟩ := hvisited.linked
  rw [hvisited.holds.importText hq]
  refine .ofAnswer ?_ ?_
  · intro answer hanswer
    obtain ⟨pairs, haliases, rfl⟩ := map_eq_ok.mp hanswer
    let link : ImportLink := ⟨r, .module q.id, pairs⟩
    refine ⟨link, t'', rfl, by simp [link, ImportLink.isHelper, hd], rfl, ?_⟩
    refine h.addLink hvisited.holds hvisited.visiting_eq hvisited.parts
      (by simp [link, ImportLink.outside, hvisited.pending_eq]) ?_ hvisited.started ?_
    · refine ⟨htarget, by simp [link], ?_, ?_⟩
      · intro hhelper
        simp [link, ImportLink.isHelper, hd] at hhelper
      · rintro d' hd' -
        obtain rfl : q.id = d' := by simpa [link] using hd'
        exact ⟨q, hq, rfl, haliases⟩
    · intro s hs
      rw [show link.record = r from rfl, hdeps]
      exact hvisited.start s hs
  · intro e he
    have haliases := map_eq_error.mp he
    obtain ⟨b, hb, name, himported, hlookup, rfl⟩ := LinkedModule.aliases_error haliases
    obtain ⟨earlier, later, -, hbehind⟩ := hvisited.holds.linked.of_mem hq
    exact .missing ready.reach h.begun.analyzed hmem htarget hb himported hbehind hlookup

/-- One import of a module is linked, given what visits with one step less come to. -/
theorem linkImport_ensures (hknows : project.Knows facts)
    (hvisit : ∀ g t id, VisitReady project facts g t fuel id → Ensures (visit project fuel id) g
      (fun _ g' => ∃ t', Visited project facts g t fuel id g' t') (LinkFailure project facts))
    (ready : VisitReady project facts g t (fuel + 1) p.id) (hnew : p.id ∉ t.started)
    (h : ImportsLinked project facts g t fuel p g' t') {r : ImportRecord} {rest : List ImportRecord}
    (hrecords : p.record.imports = p.links.map (·.record) ++ r :: rest) :
    Ensures (linkImport project (visit project fuel) p.id p.importState r) g'
      (fun s g'' => ∃ link t'', link.record = r ∧ s = (p.addLink link).importState ∧
        ImportsLinked project facts g t fuel (p.addLink link) g'' t'')
      (LinkFailure project facts) := by
  have hmem : r ∈ p.record.imports := by simp [hrecords]
  unfold linkImport
  refine .bind (p := fun target g'' => project.resolve r.source p.id = .ok target ∧ g' = g'')
    (.ofAnswer (fun target htarget => ⟨htarget, rfl⟩) fun e he =>
      .resolution ready.reach h.begun.analyzed hmem he) ?_
  rintro target g'' ⟨htarget, rfl⟩
  cases target with
  | outside =>
    let link : ImportLink := ⟨r, .outside, []⟩
    refine .bind (p := fun _ g'' =>
        g'' = { g' with externals := g'.externals ++ [(r.source, r.text)] }) (.modify rfl) ?_
    rintro - g'' rfl
    refine .pure ⟨link, { t' with pending := t'.pending ++ [(r.source, r.text)] }, rfl, ?_, ?_⟩
    · rw [LinkedPart.importState_addLink p (show link.isHelper = false from rfl)]
      simp [link, ImportLink.edit, ImportLink.locals, LinkedModule.aliasLines]
    · have hlink : link.LinkedBehind project t'.parts p.id :=
        ⟨htarget, fun _ => rfl, by simp [link], by simp [link]⟩
      exact h.addLink (h.holds.addExternal _) rfl (List.prefix_refl _) rfl hlink (List.prefix_refl _)
        (by simp [link, Project.dependencies, htarget])
  | module d =>
    dsimp only
    by_cases hd : d = helperModuleId
    · subst hd
      let link : ImportLink := ⟨r, .module helperModuleId, []⟩
      rw [if_pos (beq_self_eq_true _)]
      refine .pure ⟨link, t', rfl, ?_, ?_⟩
      · have hhelper : link.isHelper = true := by simp [link, ImportLink.isHelper]
        rw [LinkedPart.importState_addLink_helper p hhelper]
      · have hlink : link.LinkedBehind project t'.parts p.id :=
          ⟨htarget, by simp [link], fun _ => rfl, by simp [link]⟩
        exact h.addLink h.holds rfl (List.prefix_refl _) (by simp [link, ImportLink.outside]) hlink
          (List.prefix_refl _) (by simp [link, Project.dependencies, htarget])
    · rw [if_neg (by simpa using hd)]
      refine .get ?_
      by_cases hwaits : d ∈ g'.visiting
      · rw [if_pos (by simpa using hwaits)]
        refine .throw (.circular ready.reach (h.imports hmem htarget hd) ?_)
        rw [h.visiting_eq] at hwaits
        rcases List.mem_cons.mp hwaits with rfl | hwaits
        · exact .refl
        · exact (ready.behind d hwaits).2.2.to_reflTransGen
      · rw [if_neg (by simpa using hwaits)]
        have hmodule := linkModule_ensures hknows hvisit ready hnew h hrecords htarget hd hwaits
        let next (answer : String × List String) : ImportState := { p.importState with
          edits := p.importState.edits ++ [⟨r.span.start, r.span.stop, answer.1⟩]
          declared := p.importState.declared ++ answer.2 }
        have hbind := hmodule.bind (f := fun answer => (pure (next answer) : Linking m ImportState))
          (q := fun s g'' => ∃ link t'', link.record = r ∧ s = (p.addLink link).importState ∧
            ImportsLinked project facts g t fuel (p.addLink link) g'' t'') ?_
        · simpa only [bind_assoc] using hbind
        · rintro answer g'' ⟨link, t'', rfl, hhelper, rfl, hlinked⟩
          exact .pure ⟨link, t'', rfl, (LinkedPart.importState_addLink p hhelper).symm, hlinked⟩

/-- All imports of a module are linked, given what visits with one step less come to. -/
theorem linkImports_ensures (hknows : project.Knows facts)
    (hvisit : ∀ g t id, VisitReady project facts g t fuel id → Ensures (visit project fuel id) g
      (fun _ g' => ∃ t', Visited project facts g t fuel id g' t') (LinkFailure project facts))
    (ready : VisitReady project facts g t (fuel + 1) p.id) (hnew : p.id ∉ t.started)
    (h : ImportsLinked project facts g t fuel p g' t') (hnone : p.links = []) :
    Ensures (p.record.imports.foldlM (linkImport project (visit project fuel) p.id) p.importState) g'
      (fun s g'' => ∃ links t'', links.map (·.record) = p.record.imports ∧
        s = LinkedPart.importState { p with links } ∧
        ImportsLinked project facts g t fuel { p with links } g'' t'')
      (LinkFailure project facts) := by
  refine Ensures.foldlM (m := m) (fun done s g'' => ∃ links t'', links.map (·.record) = done ∧
    s = LinkedPart.importState { p with links } ∧
    ImportsLinked project facts g t fuel { p with links } g'' t'') ?_ ?_
  · refine ⟨[], t', rfl, ?_, ?_⟩
    · rw [← hnone]
    · rw [← hnone]
      exact h
  · rintro done r rest s before hrecords ⟨links, t'', rfl, rfl, hlinked⟩
    have hone := linkImport_ensures (p := { p with links }) hknows hvisit ready hnew hlinked hrecords
    refine hone.mono ?_ fun _ he => he
    rintro s after ⟨link, next, rfl, rfl, hnext⟩
    exact ⟨links ++ [link], next, by simp, rfl, hnext⟩

/-- A module whose imports are linked is put in place. -/
theorem ImportsLinked.finish_ensures (hknows : project.Knows facts)
    (ready : VisitReady project facts g t (fuel + 1) p.id) (hnew : p.id ∉ t.started)
    (h : ImportsLinked project facts g t fuel p g' t')
    (hrecords : p.links.map (·.record) = p.record.imports) (hnumbered : p.Numbered t'.started) :
    Ensures (do set (← ofAnswer (g'.finish p.id p.source p.record.exports p.importState)) :
        Linking m PUnit) g'
      (fun _ g'' => ∃ t'', Visited project facts g t (fuel + 1) p.id g'' t'')
      (LinkFailure project facts) := by
  have hbehind : p.LinkedBehind project facts t'.parts := { h.begun with records_eq := hrecords }
  have hstart : ∀ s ∈ facts.start,
      t'.started = Project.preorder s.imports (fuel + 1) t.started p.id := by
    intro s hs
    have himports := hknows.start_imports s hs p.id p.source p.defaultLocal p.record ready.reach
      h.begun.analyzed
    rw [h.start s hs, hrecords, himports, Project.preorder_succ hnew]
  refine .bind (p := fun g'' _ => g'.finish p.id p.source p.record.exports p.importState = .ok g'')
    (.ofAnswer (fun g'' hfinish => hfinish) ?_) ?_
  · intro e he
    obtain ⟨name, hclaims, first, hne, howner, rfl⟩ := Graph.finish_error he
    obtain ⟨q, hq, rfl, hqclaims⟩ := (h.holds.owner_iff name first).mp howner
    exact .conflict (fun s hs => hstart s hs ▸ ready.start s hs) h.holds.linked hq hbehind
      h.holds.numbered hnumbered hne hqclaims hclaims
  · rintro g'' - hfinish
    refine .set ⟨{ t' with parts := t'.parts ++ [p], pending := t.pending }, ?_⟩
    have hholds : g'.Holds project facts { t' with pending := t.pending ++ p.outside } := by
      rw [← h.pending_eq]
      exact h.holds
    obtain ⟨hfinished, hvisiting⟩ := hholds.finish h.visiting_eq hbehind hnumbered hfinish
    exact {
      holds := hfinished
      visiting_eq := hvisiting
      parts := h.parts.trans (List.prefix_append _ _)
      pending_eq := rfl
      linked := ⟨p, by simp, rfl⟩
      started := (List.prefix_append _ _).trans h.started
      start := hstart }

/-- What every visit comes to. -/
theorem visit_ensures (hknows : project.Knows facts) : ∀ (fuel : Nat) (g : Graph) (t : LinkTrace)
    (id : String), VisitReady project facts g t fuel id → Ensures (visit project fuel id) g
      (fun _ g' => ∃ t', Visited project facts g t fuel id g' t') (LinkFailure project facts) := by
  intro fuel
  induction fuel with
  | zero =>
    intro g t id ready
    have hlength : g.visiting.length = project.depth := by
      have := ready.depth
      omega
    exact .throw (.tooDeep ready.reach ready.holds.visiting_nodup hlength ready.behind)
  | succ fuel ih =>
    intro g t id ready
    unfold visit
    refine .get ?_
    by_cases hlinked : ∃ p ∈ t.parts, p.id = id
    · rw [if_pos (ready.holds.isSome_module?.mpr hlinked)]
      exact .pure ⟨t, ready.visited hlinked⟩
    rw [if_neg (mt ready.holds.isSome_module?.mp hlinked)]
    have hnew : id ∉ t.started := ready.not_started hlinked
    obtain ⟨hstarted, hvisiting⟩ := ready.holds.start hnew
    rw [hvisiting] at hstarted
    refine .bind (p := fun _ g' => g' = { g with visiting := id :: g.visiting })
      (.modify (by rw [hvisiting])) ?_
    rintro - g' rfl
    refine .bind (p := fun source g' => g' = { g with visiting := id :: g.visiting } ∧
      facts.loads id (.ok source)) (.act (hknows.load id) (fun source hsource => ⟨rfl, hsource⟩)
        fun e he => .load ready.reach he) ?_
    rintro source g' ⟨rfl, hsource⟩
    refine .get ?_
    generalize hlocal : Graph.defaultLocal { g with visiting := id :: g.visiting } = defaultLocal
    refine .bind (p := fun record g' => g' = { g with visiting := id :: g.visiting } ∧
      ModuleRecord.ofText project.read id source defaultLocal = .ok record)
      (.ofAnswer (fun record hrecord => ⟨rfl, hrecord⟩) fun e he => .analysis ready.reach hsource he) ?_
    rintro record g' ⟨rfl, hrecord⟩
    let p : LinkedPart := ⟨id, source, defaultLocal, record, []⟩
    have hbegun : p.BegunBehind project facts t.parts :=
      ⟨ready.reach, ready.ne_helper, ⟨hsource, hrecord⟩, by simp [p]⟩
    have himports : ImportsLinked project facts g t fuel p { g with visiting := id :: g.visiting }
        { t with started := t.started ++ [id] } := {
      holds := hstarted
      visiting_eq := rfl
      parts := List.prefix_refl _
      pending_eq := by simp [p, LinkedPart.outside]
      begun := hbegun
      started := List.prefix_refl _
      start := by simp [p, Project.dependencies] }
    have hstate : p.importState = { edits := record.edits, declared := record.declared } := by
      simp [p, LinkedPart.importState, LinkedPart.edits, LinkedPart.claims, LinkedPart.early,
        LinkedPart.late]
    have hloop := linkImports_ensures hknows ih ready hnew himports rfl
    rw [hstate] at hloop
    refine .bind hloop ?_
    rintro s g' ⟨links, t', hrecords, rfl, hall⟩
    refine .get ?_
    have hnumbered : LinkedPart.Numbered t'.started { p with links } := by
      have hfirst : (t.started ++ [id])[t.started.length]? = some id := by simp
      have hlast : t.started.length < (t.started ++ [id]).length := by simp
      refine ⟨t.started.length, ?_, ?_⟩
      · rw [List.prefix_iff_getElem?.mp hall.started _ hlast, ← List.getElem?_eq_getElem hlast]
        exact hfirst
      · rw [ready.holds.length_started]
        exact hlocal.symm
    have hfinish := hall.finish_ensures hknows ready hnew hrecords hnumbered
    exact hfinish

/-! ## Entries -/

/-- What holds before entries are visited. -/
structure EntriesReady (project : Project m) (facts : Project.Facts)
    (idOf : Path → Except BundleError String) (entries : List Path) : Prop where
  reach : ∀ entry ∈ entries, ∀ id, idOf entry = .ok id → facts.reach id ∧ id ≠ helperModuleId
  start : ∀ s ∈ facts.start, (entries.filterMap fun entry => (idOf entry).toOption).foldl
    (Project.preorder s.imports project.depth) [] <+: s.order

/-- What holds when the entries of these modules are visited. -/
structure EntriesVisited (project : Project m) (facts : Project.Facts) (ids : List String) (g : Graph)
    (t : LinkTrace) : Prop where
  holds : g.Holds project facts t
  visiting_eq : g.visiting = []
  pending_eq : t.pending = []
  linked : ∀ id ∈ ids, ∃ p ∈ t.parts, p.id = id
  start : ∀ s ∈ facts.start, t.started = ids.foldl (Project.preorder s.imports project.depth) []

/-- What visiting all entries comes to. -/
theorem visitEntries_ensures (hknows : project.Knows facts) {idOf : Path → Except BundleError String}
    {entries : List Path} (ready : EntriesReady project facts idOf entries) :
    Ensures (entries.mapM fun entry => do
        let id ← ofAnswer (idOf entry)
        visit project project.depth id
        return id : Linking m (List String)) {}
      (fun ids g => (∀ entry ∈ entries, ∃ id ∈ ids, idOf entry = .ok id) ∧
        ids = entries.filterMap (fun entry => (idOf entry).toOption) ∧
        ∃ t, EntriesVisited project facts ids g t)
      (fun e => LinkFailure project facts e ∨ ∃ entry ∈ entries, idOf entry = .error e) := by
  refine Ensures.mapM (m := m) (fun done ids g => (∀ entry ∈ done, ∃ id ∈ ids, idOf entry = .ok id) ∧
    ids = done.filterMap (fun entry => (idOf entry).toOption) ∧
    ∃ t, EntriesVisited project facts ids g t) ?_ ?_
  · exact ⟨by simp, rfl, {}, ⟨.empty, rfl, rfl, by simp, by simp⟩⟩
  · rintro done entry rest ids g hentries ⟨hof, hids, t, hvisited⟩
    have hmem : entry ∈ entries := by simp [hentries]
    refine .bind (p := fun id g' => idOf entry = .ok id ∧ g = g')
      (.ofAnswer (fun id hid => ⟨hid, rfl⟩) fun e he => .inr ⟨entry, hmem, he⟩) ?_
    rintro id g' ⟨hid, rfl⟩
    have hready : VisitReady project facts g t project.depth id := {
      holds := hvisited.holds
      reach := (ready.reach entry hmem id hid).1
      ne_helper := (ready.reach entry hmem id hid).2
      fresh := by simp [hvisited.visiting_eq]
      behind := by simp [hvisited.visiting_eq]
      depth := by simp [hvisited.visiting_eq]
      start := by
        intro s hs
        have hplan := ready.start s hs
        rw [hentries, List.filterMap_append, List.foldl_append, ← hids, ← hvisited.start s hs] at hplan
        simp only [List.filterMap_cons, hid, Except.toOption, List.foldl_cons] at hplan
        exact (Project.started_foldl (Project.started_preorder s.imports _) _ _).trans hplan }
    refine .bind ((visit_ensures hknows _ g t id hready).mono (fun _ _ h => h) fun e he => .inl he) ?_
    rintro - g' ⟨t', hone⟩
    refine .pure ⟨?_, ?_, t', ?_⟩
    · intro other hother
      rcases List.mem_append.mp hother with hother | hother
      · obtain ⟨before, hbefore, heq⟩ := hof other hother
        exact ⟨before, List.mem_append_left _ hbefore, heq⟩
      · obtain rfl := List.mem_singleton.mp hother
        exact ⟨id, by simp, hid⟩
    · simp [hids, hid, Except.toOption]
    · exact {
        holds := hone.holds
        visiting_eq := hone.visiting_eq.trans hvisited.visiting_eq
        pending_eq := hone.pending_eq.trans hvisited.pending_eq
        linked := by
          intro other hother
          rcases List.mem_append.mp hother with hother | hother
          · obtain ⟨p, hp, hpid⟩ := hvisited.linked other hother
            exact ⟨p, hone.parts.subset hp, hpid⟩
          · obtain rfl := List.mem_singleton.mp hother
            exact hone.linked
        start := by
          intro s hs
          rw [hone.start s hs, hvisited.start s hs, List.foldl_append, List.foldl_cons, List.foldl_nil] }

end Visit

end ModuleBuild
