import Mathlib
import ModuleBuild.Proofs.Helper.Imports
import ModuleBuild.Proofs.Linking.Log

/-!
# Names of default values

A default value without a name is named by the number of the modules visited so far, those that wait for their
imports among them. Each visit adds one to this number, and the end of a visit leaves it as it is. So the first
module gets the number one, the next one the number two, whatever imports what, and no name comes twice.

## Main definitions

* `NamedModule`, `NameLog` — the modules visited, in this order, with the names that they get.
* `NameLog.Numbered` — each module is there once and named by its place.
* `linkEntriesNoting` — linking entries with such a log.
* `Linking.Ends` — what all runs of a step of linking with a log end in.
* `Graph.Counts` — the modules of a log are those that a graph counts.

## Main statements

* `fst_linkEntriesNoting` — the log changes nothing.
* `visitNoting_ends` — a visit numbers the modules that it comes to.
* `defaultNames_numbered` — the names in all runs, and whose names they are.
-/

namespace ModuleBuild

open Linking Script

/-! ## Logs of names -/

/-- A module that was visited, with its text and the name for a default value without one. -/
structure NamedModule where
  id : String
  source : String
  defaultLocal : String
  deriving DecidableEq, Inhabited, Repr

/-- The modules that were visited, in this order. -/
abbrev NameLog : Type := List NamedModule

/-- Each module is there once, and named by its place. -/
structure NameLog.Numbered (log : NameLog) : Prop where
  nodup : (log.map (·.id)).Nodup
  name_eq : ∀ k e, log[k]? = some e → e.defaultLocal = "_default" ++ toString (k + 1)

namespace NameLog.Numbered

variable {log : NameLog} {a b e : NamedModule}

theorem nil : NameLog.Numbered [] :=
  ⟨List.nodup_nil, fun _ _ h => nomatch h⟩

theorem concat (h : log.Numbered) (hid : e.id ∉ log.map (·.id))
    (hname : e.defaultLocal = "_default" ++ toString (log.length + 1)) : NameLog.Numbered (log ++ [e]) where
  nodup := by
    rw [List.map_append, List.map_singleton, ← List.concat_eq_append]
    exact h.nodup.concat hid
  name_eq k x hx := by
    rcases Nat.lt_trichotomy k log.length with hlt | rfl | hgt
    · exact h.name_eq k x (by rwa [List.getElem?_append_left hlt] at hx)
    · obtain rfl : e = x := by simpa using hx
      exact hname
    · have hnone : (log ++ [e])[k]? = none := List.getElem?_eq_none (by simpa using hgt)
      rw [hnone] at hx
      cases hx

/-- Modules with one name are one. -/
theorem eq_of_defaultLocal_eq (h : log.Numbered) (ha : a ∈ log) (hb : b ∈ log)
    (heq : a.defaultLocal = b.defaultLocal) : a = b := by
  obtain ⟨i, hi⟩ := List.mem_iff_getElem?.1 ha
  obtain ⟨j, hj⟩ := List.mem_iff_getElem?.1 hb
  rw [h.name_eq i a hi, h.name_eq j b hj, String.append_right_inj] at heq
  obtain rfl : i = j := Nat.succ_inj.1 (Nat.repr_inj.1 heq)
  exact Option.some.inj (hi.symm.trans hj)

end NameLog.Numbered

/-! ## Linking with a log of names -/

variable {m : Type → Type} [Monad m] {α β σ : Type}

/-- Puts a module behind those that were visited. -/
def note (e : NamedModule) : Linking (StateT NameLog m) Unit :=
  ExceptT.lift (StateT.lift (modify (· ++ [e])))

/-- The project, for linking with a log. -/
def Project.noting (project : Project m) : Project (StateT NameLog m) :=
  project.withLoad fun id => StateT.lift (project.load id)

/-- Links a module that has its name behind the modules it imports, which `visit` links. -/
def linkNamed (project : Project m) (visit : String → Linking m Unit) (e : NamedModule) : Linking m Unit := do
  let record ← ofAnswer (ModuleRecord.ofText project.read e.id e.source e.defaultLocal)
  let start : ImportState := { edits := record.edits, declared := record.declared }
  let s ← record.imports.foldlM (linkImport project visit e.id) start
  set (← ofAnswer ((← get).finish e.id e.source record.exports s))

/-- Visits a module as `visit` does, and puts it into the log when it gets its name. -/
def visitNoting (project : Project m) : Nat → String → Linking (StateT NameLog m) Unit
  | 0, id => throw (.circularImport id id)
  | fuel + 1, id => do
    if ((← get).module? id).isSome then return
    else
      modify fun g => { g with visiting := id :: g.visiting.filter (· != id) }
      let code ← act (project.noting.load id)
      let e : NamedModule := ⟨id, code, (← get).defaultLocal⟩
      note e
      linkNamed project.noting (visitNoting project fuel) e

/-- Links all that entries reach, with a log of the modules visited. -/
def linkEntriesNoting (project : Project m) (idOf : Path → Except BundleError String) (entries : List Path) :
    Linking (StateT NameLog m) (List String) := do
  let ids ← visitEach (visitNoting project project.depth) idOf entries
  set (← ofAnswer ((← get).linkHelpers project))
  return ids

section Erasure

variable [LawfulMonad m]

theorem act_noting (project : Project m) (id : String) :
    erasedParallel.rel (act (project.load id)) (act (project.noting.load id)) := by
  refine erasedParallel.rel_bind ?_ fun answer => ?_
  · intro g log
    simp [Project.noting, Project.withLoad]
  · cases answer with
    | ok a => exact erasedParallel.rel_pure a
    | error e => exact erasedParallel.rel_throw e

theorem rel_note {x : Linking m α} {y : Linking (StateT NameLog m) α} (h : erasedParallel.rel x y)
    (e : NamedModule) : erasedParallel.rel x (note e >>= fun _ => y) := by
  intro g log
  rw [← h g (log ++ [e]), ExceptT.run_bind, StateT.run_bind, StateT.run_bind]
  simp [note, modify]

theorem visitNoting_erased (project : Project m) (fuel : Nat) (id : String) :
    erasedParallel.rel (visit project fuel id) (visitNoting project fuel id) := by
  induction fuel generalizing id with
  | zero => exact erasedParallel.rel_throw _
  | succ fuel ih =>
    refine erasedParallel.rel_bind erasedParallel.rel_get fun g => ?_
    split
    · exact erasedParallel.rel_pure _
    · refine erasedParallel.rel_bind (erasedParallel.rel_modify _) fun _ => ?_
      refine erasedParallel.rel_bind (act_noting project id) fun code => ?_
      refine erasedParallel.rel_bind erasedParallel.rel_get fun g => rel_note ?_ _
      refine erasedParallel.rel_bind (erasedParallel.rel_ofAnswer _) fun record => ?_
      refine erasedParallel.rel_bind (erasedParallel.rel_foldlM (erasedParallel.rel_linkImport ih id) _) fun s => ?_
      exact erasedParallel.rel_bind erasedParallel.rel_get fun g =>
        erasedParallel.rel_bind (erasedParallel.rel_ofAnswer _) fun g => erasedParallel.rel_set g

/-- Linking entries with a log of names is linking them. -/
theorem fst_linkEntriesNoting (project : Project m) (idOf : Path → Except BundleError String)
    (entries : List Path) (g : Graph) (log : NameLog) :
    Prod.fst <$> ((linkEntriesNoting project idOf entries).run.run g).run log =
      (linkEntries project idOf entries).run.run g := by
  suffices h : erasedParallel.rel (linkEntries project idOf entries) (linkEntriesNoting project idOf entries) from
    h g log
  rw [linkEntries_eq_visitEach]
  have hvisits : erasedParallel.rel (visitEach (visit project project.depth) idOf entries)
      (visitEach (visitNoting project project.depth) idOf entries) :=
    erasedParallel.rel_mapM fun _ => erasedParallel.rel_bind (erasedParallel.rel_ofAnswer _) fun id =>
      erasedParallel.rel_bind (visitNoting_erased project _ id) fun _ => erasedParallel.rel_pure id
  exact erasedParallel.rel_bind hvisits fun ids => erasedParallel.rel_bind erasedParallel.rel_get fun g =>
    erasedParallel.rel_bind (erasedParallel.rel_ofAnswer _) fun g =>
      erasedParallel.rel_bind (erasedParallel.rel_set g) fun _ => erasedParallel.rel_pure ids

end Erasure

/-! ## Runs with a log -/

namespace Linking

/-- All runs of `x` that start from `g` with a log that is `fine` end with such a log, and where they end well, `ok`
holds. -/
def Ends (fine : σ → Prop) (x : Linking (StateT σ m) α) (g : Graph) (log : σ) (ok : α → Graph → σ → Prop) : Prop :=
  fine log → SatisfiesM (fun r : (Except BundleError α × Graph) × σ =>
    fine r.2 ∧ ∀ a, r.1.1 = .ok a → ok a r.1.2 r.2) ((x.run.run g).run log)

variable [LawfulMonad m] {fine : σ → Prop} {x : Linking (StateT σ m) α} {g : Graph} {log : σ}
  {ok ok' : α → Graph → σ → Prop}

protected theorem Ends.mono (h : Ends fine x g log ok) (hok : ∀ a g' log', ok a g' log' → ok' a g' log') :
    Ends fine x g log ok' :=
  fun hlog => SatisfiesM.imp (h hlog) fun hr => ⟨hr.1, fun a ha => hok a _ _ (hr.2 a ha)⟩

/-- A step that ends at once. -/
protected theorem Ends.of_run {r : Except BundleError α × Graph} {log' : σ}
    (hx : (x.run.run g).run log = pure (r, log')) (hfine : fine log → fine log')
    (hok : ∀ a, r.1 = .ok a → ok a r.2 log') : Ends fine x g log ok := by
  intro hlog
  rw [hx]
  exact SatisfiesM.pure ⟨hfine hlog, hok⟩

protected theorem Ends.pure {a : α} (h : ok a g log) : Ends fine (pure a : Linking (StateT σ m) α) g log ok := by
  refine .of_run (r := (.ok a, g)) (by simp) id fun b hb => ?_
  obtain rfl := Except.ok.inj hb
  exact h

protected theorem Ends.throw (e : BundleError) : Ends fine (throw e : Linking (StateT σ m) α) g log ok :=
  .of_run (r := (.error e, g)) (by simp) id fun _ hb => nomatch hb

protected theorem Ends.set {g' : Graph} {ok : PUnit → Graph → σ → Prop} (h : ok ⟨⟩ g' log) :
    Ends fine (set g' : Linking (StateT σ m) PUnit) g log ok := by
  refine .of_run (r := (.ok ⟨⟩, g')) ?_ id fun _ _ => h
  rw [run_set, StateT.run_pure]

protected theorem Ends.modify {f : Graph → Graph} {ok : PUnit → Graph → σ → Prop} (h : ok ⟨⟩ (f g) log) :
    Ends fine (modify f : Linking (StateT σ m) PUnit) g log ok := by
  refine .of_run (r := (.ok ⟨⟩, f g)) ?_ id fun _ _ => h
  rw [run_modify, StateT.run_pure]

protected theorem Ends.ofAnswer {answer : Except BundleError α} (h : ∀ a, answer = .ok a → ok a g log) :
    Ends fine (ofAnswer answer : Linking (StateT σ m) α) g log ok := by
  cases answer with
  | ok a => exact .pure (h a rfl)
  | error e => exact .throw e

/-- One step behind the other. -/
protected theorem Ends.bind {f : α → Linking (StateT σ m) β} {p : α → Graph → σ → Prop} {q : β → Graph → σ → Prop}
    (hx : Ends fine x g log p) (hf : ∀ a g' log', p a g' log' → Ends fine (f a) g' log' q) :
    Ends fine (x >>= f) g log q := by
  intro hlog
  rw [ExceptT.run_bind, StateT.run_bind, StateT.run_bind]
  refine SatisfiesM.bind (hx hlog) fun r hr => ?_
  obtain ⟨⟨e | a, g'⟩, log'⟩ := r
  · exact SatisfiesM.pure ⟨hr.1, fun _ hb => nomatch hb⟩
  · exact hf a g' log' (hr.2 a rfl) hr.1

protected theorem Ends.get {f : Graph → Linking (StateT σ m) β} {q : β → Graph → σ → Prop}
    (h : Ends fine (f g) g log q) : Ends fine (get >>= f) g log q := by
  have hget : Ends fine (get : Linking (StateT σ m) Graph) g log fun a g' log' => a = g ∧ g' = g ∧ log' = log := by
    refine .of_run (r := (.ok g, g)) ?_ id fun a ha => ⟨(Except.ok.inj ha).symm, rfl, rfl⟩
    rw [run_get, StateT.run_pure]
  refine hget.bind ?_
  rintro a g' log' ⟨rfl, rfl, rfl⟩
  exact h

/-- An action of the project leaves the graph and the log as they are. -/
protected theorem Ends.act {action : m (Except BundleError α)} (h : ∀ a, ok a g log) :
    Ends fine (act (StateT.lift action)) g log ok := by
  have hlift : Ends fine (ExceptT.lift (StateT.lift (StateT.lift action)) : Linking (StateT σ m) _) g log
      fun _ g' log' => g' = g ∧ log' = log := by
    intro hlog
    have hrun : ((ExceptT.lift (StateT.lift (StateT.lift action)) : Linking (StateT σ m) _).run.run g).run log =
        (fun answer => ((.ok answer, g), log)) <$> action := by
      simp
    rw [hrun]
    exact SatisfiesM.map_pre (SatisfiesM.of_true fun _ => ⟨hlog, fun _ _ => ⟨rfl, rfl⟩⟩)
  refine hlift.bind ?_
  rintro answer g' log' ⟨rfl, rfl⟩
  cases answer with
  | ok a => exact .pure (h a)
  | error e => exact .throw e

/-- A loop keeps an invariant. -/
protected theorem Ends.foldlM {γ : Type} {items : List γ} {step : β → γ → Linking (StateT σ m) β} {start : β}
    (inv : Graph → σ → Prop) (hstart : inv g log)
    (hstep : ∀ b item g log, inv g log → Ends fine (step b item) g log fun _ => inv) :
    Ends fine (items.foldlM step start) g log fun _ => inv := by
  induction items generalizing start g log with
  | nil => exact .pure hstart
  | cons item rest ih => exact (hstep start item g log hstart).bind fun b g' log' h => ih h

/-- A loop that gives a result for each item keeps an invariant. -/
protected theorem Ends.mapM {γ : Type} {items : List γ} {step : γ → Linking (StateT σ m) β}
    (inv : Graph → σ → Prop) (hstart : inv g log)
    (hstep : ∀ item g log, inv g log → Ends fine (step item) g log fun _ => inv) :
    Ends fine (items.mapM step) g log fun _ => inv := by
  induction items generalizing g log with
  | nil => exact .pure hstart
  | cons item rest ih =>
    simp only [List.mapM_cons]
    exact (hstep item g log hstart).bind fun b g' log' h => (ih h).bind fun bs g'' log'' h => .pure h

/-- A module that is not in the log yet comes behind the others, with the next number. -/
theorem Ends.note {log : NameLog} {e : NamedModule} {ok : Unit → Graph → NameLog → Prop}
    (hid : e.id ∉ log.map (·.id)) (hname : e.defaultLocal = "_default" ++ toString (log.length + 1))
    (h : ok () g (log ++ [e])) : Ends NameLog.Numbered (note e : Linking (StateT NameLog m) Unit) g log ok :=
  .of_run (r := (.ok (), g)) (by simp [ModuleBuild.note, modify]) (fun hlog => hlog.concat hid hname) fun _ _ => h

end Linking

/-! ## Counting -/

section Counts

omit [Monad m]

/-- The module is linked: its exports are those of its text, with this name for a default value. -/
def NamedModule.LinkedIn (project : Project m) (g : Graph) (e : NamedModule) : Prop :=
  ∃ record linked, ModuleRecord.ofText project.read e.id e.source e.defaultLocal = .ok record ∧
    g.module? e.id = some linked ∧ linked.exports = lastOfEach record.exports

/-- The log has the modules that are linked and those that wait, as many as the graph counts. -/
structure Graph.Counts (project : Project m) (g : Graph) (log : NameLog) : Prop where
  length_eq : log.length = g.order.length + g.visiting.length
  known : ∀ e ∈ log, e.id ∈ g.order ∨ e.id ∈ g.visiting
  linked : ∀ id ∈ g.order, ∃ e ∈ log, e.id = id ∧ e.LinkedIn project g

namespace Graph.Counts

variable {project : Project m} {g g' : Graph} {log : NameLog} {id : String}

theorem empty : Graph.Counts project {} [] :=
  ⟨rfl, fun _ h => absurd h List.not_mem_nil, fun _ h => absurd h List.not_mem_nil⟩

/-- A module that is not linked and does not wait was not visited. -/
theorem not_mem (h : g.Counts project log) (hmodule : ¬ (g.module? id).isSome) (hvisiting : id ∉ g.visiting) :
    id ∉ log.map (·.id) := by
  intro hmem
  obtain ⟨e, he, rfl⟩ := List.mem_map.1 hmem
  rcases h.known e he with horder | hwaits
  · obtain ⟨e', -, hid, record, linked, -, hlinked, -⟩ := h.linked e.id horder
    rw [hid] at hlinked
    exact hmodule (by rw [hlinked]; rfl)
  · exact hvisiting hwaits

/-- A module that starts to wait is one more. -/
theorem start (h : g.Counts project log) (id source defaultLocal : String) :
    Graph.Counts project { g with visiting := id :: g.visiting } (log ++ [⟨id, source, defaultLocal⟩]) where
  length_eq := by
    rw [List.length_append, h.length_eq]
    simp only [List.length_cons, List.length_nil]
    omega
  known e he := by
    rcases List.mem_append.1 he with he | he
    · exact (h.known e he).imp_right (List.mem_cons_of_mem id)
    · obtain rfl := List.mem_singleton.1 he
      exact .inr List.mem_cons_self
  linked i hi := by
    obtain ⟨e, he, hid, hlinked⟩ := h.linked i hi
    exact ⟨e, List.mem_append_left _ he, hid, hlinked⟩

/-- A module that is put in place waits no longer. -/
theorem finish (h : g.Counts project log) {e : NamedModule} {visiting : List String}
    (hvisiting : g.visiting = e.id :: visiting) (hid : e.id ∉ visiting) (he : e ∈ log) {record : ModuleRecord}
    (hrecord : ModuleRecord.ofText project.read e.id e.source e.defaultLocal = .ok record) {s : ImportState}
    (hfinish : g.finish e.id e.source record.exports s = .ok g') :
    g'.Counts project log ∧ g'.visiting = visiting := by
  obtain ⟨⟨text, hmodule⟩, horder, hwaiting⟩ := Graph.finish_ok_module? hfinish
  rw [hvisiting, List.filter_cons_of_neg (by simp), filter_ne_of_not_mem hid] at hwaiting
  refine ⟨⟨?_, fun x hx => ?_, fun i hi => ?_⟩, hwaiting⟩
  · rw [h.length_eq, hvisiting, horder, hwaiting]
    simp only [List.length_cons, List.length_append, List.length_nil]
    omega
  · rw [horder, hwaiting]
    rcases h.known x hx with hlinked | hwaits
    · exact .inl (List.mem_append_left _ hlinked)
    · rw [hvisiting] at hwaits
      rcases List.mem_cons.1 hwaits with hx | hwaits
      · exact .inl (by simp [hx])
      · exact .inr hwaits
  · by_cases hi' : i = e.id
    · exact ⟨e, he, hi'.symm, record, _, hrecord, (hmodule e.id).trans (if_pos rfl), rfl⟩
    · rw [horder, List.mem_append, List.mem_singleton, or_iff_left hi'] at hi
      obtain ⟨x, hx, rfl, record', linked, hrecord', hlinked, hexports⟩ := h.linked i hi
      exact ⟨x, hx, rfl, record', linked, hrecord', ((hmodule x.id).trans (if_neg hi')).trans hlinked, hexports⟩

end Graph.Counts

end Counts

/-! ## Visits -/

section Visits

variable [LawfulMonad m] {project : Project m} {g : Graph} {log : NameLog}

/-- What holds of the log behind a step that leaves the same modules waiting. -/
def Graph.CountsBehind (project : Project m) (g : Graph) (log : NameLog) (g' : Graph) (log' : NameLog) : Prop :=
  g'.Counts project log' ∧ g'.visiting = g.visiting ∧ log <+: log'

/-- An import is linked without a module out of count, if visits are. -/
theorem linkImport_ends {visit : String → Linking (StateT NameLog m) Unit}
    (hvisit : ∀ g log id, g.Counts project log → id ∉ g.visiting →
      Ends NameLog.Numbered (visit id) g log fun _ => g.CountsBehind project log)
    (id : String) (s : ImportState) (record : ImportRecord) (h : g.Counts project log) :
    Ends NameLog.Numbered (linkImport project.noting visit id s record) g log fun _ => g.CountsBehind project log := by
  refine .bind (p := fun _ g' log' => g' = g ∧ log' = log) (.ofAnswer fun _ _ => ⟨rfl, rfl⟩) ?_
  rintro target g' log' ⟨rfl, rfl⟩
  cases target with
  | outside =>
    refine .bind (p := fun _ => g'.CountsBehind project log')
      (.modify ⟨⟨h.length_eq, h.known, h.linked⟩, rfl, List.prefix_refl _⟩) ?_
    exact fun _ g'' log'' hdone => .pure hdone
  | module dependency =>
    dsimp only
    split
    · exact .pure ⟨h, rfl, List.prefix_refl _⟩
    · refine .get ?_
      split
      · exact .throw _
      · rename_i hwaits
        refine (hvisit g' log' dependency h (by simpa using hwaits)).bind fun _ g'' log'' hdone => ?_
        refine .get (.bind (p := fun _ => g'.CountsBehind project log') (.ofAnswer fun _ _ => hdone) ?_)
        exact fun _ g₃ log₃ hdone => .pure hdone

/-- A module that waits with its name is linked, if visits link what it imports. -/
theorem linkNamed_ends {visit : String → Linking (StateT NameLog m) Unit}
    (hvisit : ∀ g log id, g.Counts project log → id ∉ g.visiting →
      Ends NameLog.Numbered (visit id) g log fun _ => g.CountsBehind project log)
    {e : NamedModule} (he : e ∈ log) {visiting : List String} (hvisiting : g.visiting = e.id :: visiting)
    (hid : e.id ∉ visiting) (h : g.Counts project log) :
    Ends NameLog.Numbered (linkNamed project.noting visit e) g log
      fun _ g' log' => g'.Counts project log' ∧ g'.visiting = visiting ∧ log <+: log' := by
  refine .bind (p := fun record g' log' =>
      ModuleRecord.ofText project.read e.id e.source e.defaultLocal = .ok record ∧ g.CountsBehind project log g' log')
    (.ofAnswer fun record hrecord => ⟨hrecord, h, rfl, List.prefix_refl _⟩) ?_
  rintro record g₁ log₁ ⟨hrecord, hone⟩
  refine .bind (p := fun _ => g.CountsBehind project log) (.foldlM _ hone fun s r g₂ log₂ htwo => ?_) ?_
  · refine (linkImport_ends hvisit e.id s r htwo.1).mono fun _ g₃ log₃ hthree => ?_
    exact ⟨hthree.1, hthree.2.1.trans htwo.2.1, htwo.2.2.trans hthree.2.2⟩
  · rintro s g₂ log₂ ⟨hcounts, hsame, hlog⟩
    refine .get (.bind (p := fun g₃ _ log₃ => g₃.Counts project log₃ ∧ g₃.visiting = visiting ∧ log <+: log₃)
      (.ofAnswer fun g₃ hfinish => ?_) fun g₃ _ log₃ hdone => .set hdone)
    obtain ⟨hcounts', hwaiting⟩ := hcounts.finish (hsame.trans hvisiting) hid (hlog.subset he) hrecord hfinish
    exact ⟨hcounts', hwaiting, hlog⟩

/-- A visit numbers the modules that it comes to, and leaves those waiting that wait already. -/
theorem visitNoting_ends (fuel : Nat) : ∀ (g : Graph) (log : NameLog) (id : String), g.Counts project log →
    id ∉ g.visiting →
    Ends NameLog.Numbered (visitNoting project fuel id) g log fun _ => g.CountsBehind project log := by
  induction fuel with
  | zero => exact fun _ _ _ _ _ => .throw _
  | succ fuel ih =>
    intro g log id h hid
    refine .get ?_
    by_cases hmodule : (g.module? id).isSome = true
    · rw [if_pos hmodule]
      exact .pure ⟨h, rfl, List.prefix_refl _⟩
    rw [if_neg hmodule]
    refine .bind (p := fun _ g' log' => g' = { g with visiting := id :: g.visiting } ∧ log' = log)
      (.modify ⟨by rw [filter_ne_of_not_mem hid], rfl⟩) ?_
    rintro - g' log' ⟨rfl, rfl⟩
    refine .bind (p := fun _ g'' log'' => g'' = { g with visiting := id :: g.visiting } ∧ log'' = log')
      (.act fun _ => ⟨rfl, rfl⟩) ?_
    rintro code g'' log'' ⟨rfl, rfl⟩
    refine .get ?_
    -- The number of modules visited is the place of this one in the log.
    have hname : Graph.defaultLocal { g with visiting := id :: g.visiting } =
        "_default" ++ toString (log''.length + 1) := by
      rw [Graph.defaultLocal, h.length_eq, List.length_cons, Nat.add_assoc]
    generalize Graph.defaultLocal { g with visiting := id :: g.visiting } = defaultLocal at hname ⊢
    refine .bind (p := fun _ g₁ log₁ => g₁ = { g with visiting := id :: g.visiting } ∧
        log₁ = log'' ++ [⟨id, code, defaultLocal⟩])
      (.note (h.not_mem hmodule hid) hname ⟨rfl, rfl⟩) ?_
    rintro - g₁ log₁ ⟨rfl, rfl⟩
    refine (linkNamed_ends ih (by simp) rfl hid (h.start id code defaultLocal)).mono fun _ g₂ log₂ hdone => ?_
    exact ⟨hdone.1, hdone.2.1, (List.prefix_append _ _).trans hdone.2.2⟩

/-- Visits of entries number the modules that they come to, and leave none waiting. -/
theorem visitEach_ends (idOf : Path → Except BundleError String) (entries : List Path) (fuel : Nat) :
    Ends NameLog.Numbered (visitEach (visitNoting project fuel) idOf entries) {} []
      fun _ g log => g.Counts project log ∧ g.visiting = [] := by
  refine .mapM (fun g log => g.Counts project log ∧ g.visiting = []) ⟨.empty, rfl⟩ fun entry g log h => ?_
  refine .bind (p := fun _ g' log' => g'.Counts project log' ∧ g'.visiting = []) (.ofAnswer fun _ _ => h)
    fun id g' log' h => ?_
  refine (visitNoting_ends fuel g' log' id h.1 (by simp [h.2])).bind fun _ g'' log'' hdone => ?_
  exact .pure ⟨hdone.1, hdone.2.1.trans h.2⟩

end Visits

/-! ## The helper module -/

section HelperModule

omit [Monad m]

variable {project : Project m} {g g' : Graph}

/-- What waited is linked without a change to what the modules export. -/
theorem Graph.foldlM_linkWaiting_exports {ids : List String} (h : ids.foldlM Graph.linkWaiting g = .ok g')
    {id : String} {linked : LinkedModule} (hmodule : g.module? id = some linked) :
    ∃ linked', g'.module? id = some linked' ∧ linked'.exports = linked.exports := by
  induction ids generalizing g linked with
  | nil =>
    obtain rfl := Except.ok.inj h
    exact ⟨linked, hmodule, rfl⟩
  | cons first rest ih =>
    rw [List.foldlM_cons] at h
    obtain ⟨mid, hone, hrest⟩ := bind_eq_ok.1 h
    unfold Graph.linkWaiting at hone
    split at hone
    · obtain ⟨linked', hmodule', hexports⟩ := Graph.linkDeferred_exports hone hmodule
      exact hexports ▸ ih hrest hmodule'
    · obtain rfl := Except.ok.inj hone
      exact ih hrest hmodule

/-- The helper module changes nothing of what the other modules export. -/
theorem Graph.linkHelpers_exports (h : g.linkHelpers project = .ok g') {id : String} (hid : id ≠ helperModuleId)
    {linked : LinkedModule} (hmodule : g.module? id = some linked) :
    ∃ linked', g'.module? id = some linked' ∧ linked'.exports = linked.exports := by
  rw [Graph.linkHelpers_eq] at h
  split at h
  · obtain rfl := Except.ok.inj h
    exact ⟨linked, hmodule, rfl⟩
  obtain ⟨⟨code, record⟩, -, h⟩ := bind_eq_ok.1 h
  obtain ⟨mid, hdeclare, hloop⟩ := bind_eq_ok.1 (show g.linkBefore (helperPart code record) = .ok g' from h)
  refine Graph.foldlM_linkWaiting_exports hloop ?_
  rw [← hmodule, ← (Graph.declare_ok hdeclare).1]
  exact (Graph.module?_setModule _ helperModuleId id _).trans (if_neg hid)

end HelperModule

/-! ## Entries -/

/-- The modules that are linked are those of the log, with the names that it says, and the helper module. -/
def Graph.NamedBy (project : Project m) (g : Graph) (log : NameLog) : Prop :=
  (∀ e ∈ log, e.id ∈ g.order) ∧
    ∀ id ∈ g.order, id ≠ helperModuleId → ∃ e ∈ log, e.id = id ∧ e.LinkedIn project g

omit [Monad m] in
/-- The helper module comes to the others, when none of them waits. -/
theorem Graph.Counts.linkHelpers {project : Project m} {g g' : Graph} {log : NameLog} (h : g.Counts project log)
    (hwaiting : g.visiting = []) (hhelpers : g.linkHelpers project = .ok g') : g'.NamedBy project log := by
  refine ⟨fun e he => ?_, fun id hmem hid => ?_⟩
  · refine Graph.linkHelpers_order hhelpers ((h.known e he).resolve_right ?_)
    simp [hwaiting]
  · have horder : id ∈ g.order := by
      rcases Graph.linkHelpers_order_eq hhelpers with heq | heq
      · exact heq ▸ hmem
      · rw [heq] at hmem
        exact (List.mem_cons.1 hmem).resolve_left hid
    obtain ⟨e, he, rfl, record, linked, hrecord, hlinked, hexports⟩ := h.linked id horder
    obtain ⟨linked', hlinked', hexports'⟩ := Graph.linkHelpers_exports hhelpers hid hlinked
    exact ⟨e, he, rfl, record, linked', hrecord, hlinked', hexports'.trans hexports⟩

/-- Linking entries numbers the modules that it comes to, and all of them are linked. -/
theorem linkEntriesNoting_ends [LawfulMonad m] (project : Project m)
    (idOf : Path → Except BundleError String) (entries : List Path) :
    Ends NameLog.Numbered (linkEntriesNoting project idOf entries) {} []
      fun _ g log => g.NamedBy project log := by
  refine (visitEach_ends idOf entries project.depth).bind fun ids g log ⟨hcounts, hwaiting⟩ => .get ?_
  refine .bind (p := fun g' _ log' => g'.NamedBy project log')
    (.ofAnswer fun g' hhelpers => hcounts.linkHelpers hwaiting hhelpers) fun g' _ log' hdone => ?_
  exact .bind (p := fun _ g'' log'' => g''.NamedBy project log'') (.set hdone) fun _ _ _ hdone => .pure hdone

/-! ## Default values without names -/

/-- What a statement adds to a record is in the record. -/
theorem ModuleRecord.exists_ofItem {id defaultLocal : String} {source : List Char} {items : List ModuleItem}
    {record : ModuleRecord} (h : ofItems id source defaultLocal items = .ok record) {item : ModuleItem}
    (hitem : item ∈ items) : ∃ own, ofItem id source defaultLocal item = .ok own ∧
      own.exports ⊆ record.exports ∧ own.declared ⊆ record.declared ∧ own.edits ⊆ record.edits := by
  induction items generalizing record with
  | nil => cases hitem
  | cons first rest ih =>
    obtain ⟨own, hown, h⟩ := bind_eq_ok.1 h
    obtain ⟨more, hmore, h⟩ := bind_eq_ok.1 h
    obtain rfl := Except.ok.inj h
    rcases List.mem_cons.1 hitem with rfl | hitem
    · exact ⟨own, hown, List.subset_append_left _ _, List.subset_append_left _ _, List.subset_append_left _ _⟩
    · obtain ⟨found, hfound, hexports, hdeclared, hedits⟩ := ih hmore hitem
      exact ⟨found, hfound, List.subset_append_of_subset_right _ hexports,
        List.subset_append_of_subset_right _ hdeclared, List.subset_append_of_subset_right _ hedits⟩

/-- A default value without a name is put into a variable, which holds the export. -/
theorem ModuleRecord.exportDefault_ofText {read : String → Option (List ModuleItem)} {id source defaultLocal : String}
    {items : List ModuleItem} (hitems : read source = some items) {span : Span} {valueStart : Nat}
    (hitem : .exportDefault span valueStart none ∈ items) {record : ModuleRecord}
    (h : ofText read id source defaultLocal = .ok record) :
    ("default", defaultLocal) ∈ record.exports ∧ defaultLocal ∈ record.declared ∧
      ⟨span.start, valueStart, "var " ++ defaultLocal ++ " = "⟩ ∈ record.edits := by
  rw [ofText, hitems] at h
  obtain ⟨own, hown, hexports, hdeclared, hedits⟩ := exists_ofItem h hitem
  obtain rfl := Except.ok.inj hown
  exact ⟨hexports List.mem_cons_self, hdeclared List.mem_cons_self, hedits List.mem_cons_self⟩

/-- In all runs of linking that start from nothing, each module that is visited gets a name for a default value of
its own: the first one the number one, the next one the number two. Where linking ends well, the modules that are
linked are those with a name, each with the exports of its text with this name, and the helper module. A default
value without a name is put into a variable of this name. -/
theorem defaultNames_numbered [LawfulMonad m] (project : Project m) (idOf : Path → Except BundleError String)
    (entries : List Path) :
    (∀ g log, Prod.fst <$> ((linkEntriesNoting project idOf entries).run.run g).run log =
      (linkEntries project idOf entries).run.run g) ∧
    SatisfiesM (fun r : (Except BundleError (List String) × Graph) × NameLog =>
        (∀ k e, r.2[k]? = some e → e.defaultLocal = "_default" ++ toString (k + 1)) ∧
        (r.2.map (·.id)).Nodup ∧
        (∀ a ∈ r.2, ∀ b ∈ r.2, a.id ≠ b.id → a.defaultLocal ≠ b.defaultLocal) ∧
        ∀ ids, r.1.1 = .ok ids → r.1.2.NamedBy project r.2)
      (((linkEntriesNoting project idOf entries).run.run {}).run []) ∧
    ∀ (e : NamedModule) (items : List ModuleItem) (record : ModuleRecord) (span : Span) (valueStart : Nat),
      project.read e.source = some items → .exportDefault span valueStart none ∈ items →
      ModuleRecord.ofText project.read e.id e.source e.defaultLocal = .ok record →
      ("default", e.defaultLocal) ∈ record.exports ∧ e.defaultLocal ∈ record.declared ∧
        ⟨span.start, valueStart, "var " ++ e.defaultLocal ++ " = "⟩ ∈ record.edits := by
  refine ⟨fst_linkEntriesNoting project idOf entries, ?_, fun e items record span valueStart hitems hitem h =>
    ModuleRecord.exportDefault_ofText hitems hitem h⟩
  refine (linkEntriesNoting_ends project idOf entries .nil).imp fun {r} hr => ?_
  obtain ⟨hnumbered, hdone⟩ := hr
  exact ⟨hnumbered.name_eq, hnumbered.nodup, fun a ha b hb hne heq =>
    hne (congrArg NamedModule.id (hnumbered.eq_of_defaultLocal_eq ha hb heq)), hdone⟩

/-- Two modules whose default values have no name, one of which imports the other one. -/
def namingProject : Project Id where
  load id := if id == "/a" then .ok "import b from '/b'; export default b + 1;" else .ok "export default 1;"
  resolve specifier _ := .ok (.module specifier)
  read code :=
    if code == "export default 1;" then some [.exportDefault ⟨0, 17⟩ 15 none]
    else some [.importFrom ⟨0, 19⟩ "/b" [.byDefault "b"], .exportDefault ⟨20, 41⟩ 35 none]
  helperText := ""
  depth := 2

/-- Links the two modules of this project, from one of them. -/
def namingRun : (Except BundleError (List String) × Graph) × NameLog :=
  ((linkEntriesNoting namingProject (fun entry => .ok entry.text) [⟨"/a"⟩]).run.run {}).run []

/-- The module that is imported is linked first, and has the second number. -/
theorem defaultNames_numbered_nested :
    namingRun.1.1 = .ok ["/a"] ∧ namingRun.1.2.order = ["/b", "/a"] ∧
      namingRun.2.map (fun e => (e.id, e.defaultLocal)) = [("/a", "_default1"), ("/b", "_default2")] ∧
      (namingRun.2.map (·.id)).Nodup ∧ namingRun.1.2.NamedBy namingProject namingRun.2 ∧
      ∃ record, ModuleRecord.ofText namingProject.read "/b" "export default 1;" "_default2" = .ok record ∧
        ("default", "_default2") ∈ record.exports := by
  have hok : namingRun.1.1 = .ok ["/a"] := by decide +kernel
  have horder : namingRun.1.2.order = ["/b", "/a"] := by decide +kernel
  have hnames : namingRun.2.map (fun e => (e.id, e.defaultLocal)) = [("/a", "_default1"), ("/b", "_default2")] := by
    decide +kernel
  have hrecord : ModuleRecord.ofText namingProject.read "/b" "export default 1;" "_default2" = .ok
      { exports := [("default", "_default2")], declared := ["_default2"],
        edits := [⟨0, 15, "var _default2 = "⟩] } := by decide +kernel
  obtain ⟨-, hruns, hvariable⟩ := defaultNames_numbered namingProject (fun entry => .ok entry.text) [⟨"/a"⟩]
  rw [show ((linkEntriesNoting namingProject (fun entry => .ok entry.text) [⟨"/a"⟩]).run.run {}).run [] =
    namingRun from rfl] at hruns
  obtain ⟨-, hnodup, -, hdone⟩ := SatisfiesM_Id_eq.1 hruns
  exact ⟨hok, horder, hnames, hnodup, hdone _ hok, _, hrecord,
    (hvariable ⟨"/b", "export default 1;", "_default2"⟩ _ _ _ _ rfl List.mem_cons_self hrecord).1⟩

end ModuleBuild
