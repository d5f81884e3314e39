import Mathlib
import ModuleBuild.Proofs.Linking.Loads
import ModuleBuild.Proofs.Linking.State

/-!
# The log of loads

Linking over any monad loads modules one behind the other, and what it does next depends on nothing but
the answers. So a run with a log of its loads is the run with these answers known beforehand, and no
module is in the log twice.

## Main definitions

* `LoadLog`, `LoadLog.Agrees` — the loads of a run, and answers that agree with them.
* `LoadLog.restrict` — such answers for no other modules.
* `Project.logged` — a project that logs its loads.
* `Linking.Logged` — what all logged runs of a step of linking end in.

## Main statements

* `fst_linkEntries_logged` — the log changes nothing.
* `visitEach_logged`, `linkEntries_logged` — a logged run is the run with the answers of its log, and
  loads each module once.
-/

namespace ModuleBuild

open Linking

/-- The modules that were loaded, in this order, with the answers. -/
abbrev LoadLog : Type := List (String × Except BundleError String)

namespace LoadLog

/-- The modules that were loaded. -/
def ids (log : LoadLog) : List String :=
  log.map (·.1)

/-- Loading gives these answers, as far as the log says. -/
def Agrees (log : LoadLog) (answers : String → Except BundleError String) : Prop :=
  ∀ l ∈ log, answers l.1 = l.2

/-- These answers for the modules in the log, and an error for all others. -/
def restrict (log : LoadLog) (answers : String → Except BundleError String) (id : String) :
    Except BundleError String :=
  if id ∈ log.ids then answers id else .error .noEntries

variable {log more : LoadLog} {answers : String → Except BundleError String}

theorem Agrees.of_earlier (h : more.Agrees answers) (hmore : log <+: more) : log.Agrees answers :=
  fun l hl => h l (hmore.subset hl)

theorem Agrees.restrict (h : log.Agrees answers) : log.Agrees (log.restrict answers) :=
  fun l hl => (if_pos (List.mem_map_of_mem hl)).trans (h l hl)

/-- Where each module is there once, some answers agree with a log. -/
theorem exists_agrees (nodup : log.ids.Nodup) : ∃ answers, log.Agrees answers := by
  refine ⟨fun id => (log.lookup id).getD (.error .noEntries), fun l hl => ?_⟩
  have hlookup : log.lookup l.1 = some l.2 := lookup_of_mem nodup hl
  simp [hlookup]

theorem restrict_eq_ok {id text : String} :
    log.restrict answers id = .ok text ↔ id ∈ log.ids ∧ answers id = .ok text := by
  unfold LoadLog.restrict
  split <;> simp_all

/-- The errors of the answers for the modules in the log are those of the log. -/
theorem Agrees.restrict_error {id : String} {e : BundleError} (h : log.Agrees answers)
    (herror : log.restrict answers id = .error e) : e = .noEntries ∨ (id, .error e) ∈ log := by
  unfold LoadLog.restrict at herror
  split at herror
  · rename_i hid
    obtain ⟨l, hl, rfl⟩ := List.mem_map.mp hid
    exact .inr (herror ▸ h l hl ▸ hl)
  · exact .inl (Except.error.inj herror).symm

end LoadLog

variable {m : Type → Type} [Monad m]

/-- The project with a log of its loads. -/
def Project.logged (project : Project m) : Project (StateT LoadLog m) :=
  project.withLoad fun id => do
    let answer ← project.load id
    modify (· ++ [(id, answer)])
    return answer

variable [LawfulMonad m] {α β : Type}

/-! ## Runs without the log -/

namespace Linking

/-- Linking with a log of any kind corresponds to linking that does the same without one. -/
def erasedParallel {σ : Type} : Parallel m (StateT σ m) where
  rel x y := ∀ (g : Graph) (log : σ), Prod.fst <$> (y.run.run g).run log = x.run.run g
  rel_pure a g log := by simp
  rel_throw e g log := by simp
  rel_get g log := by rw [run_get, run_get, StateT.run_pure, map_pure]
  rel_set g' g log := by rw [run_set, run_set, StateT.run_pure, map_pure]
  rel_modify f g log := by rw [run_modify, run_modify, StateT.run_pure, map_pure]
  rel_bind hx hf g log := by
    rw [ExceptT.run_bind, ExceptT.run_bind, StateT.run_bind, StateT.run_bind, StateT.run_bind,
      ← hx g log, map_bind, bind_map_left]
    refine bind_congr fun r => ?_
    obtain ⟨⟨_ | a, g'⟩, log'⟩ := r
    · simp
    · exact hf a g' log'

/-- A load with a log gives what the load gives. -/
theorem act_logged (project : Project m) (id : String) :
    erasedParallel.rel (act (project.load id)) (act (project.logged.load id)) := by
  refine erasedParallel.rel_bind ?_ fun answer => ?_
  · intro g log
    simp [Project.logged, Project.withLoad, modify]
  · cases answer with
    | ok a => exact erasedParallel.rel_pure a
    | error e => exact erasedParallel.rel_throw e

end Linking

/-- Linking entries with a log is linking them. -/
theorem fst_linkEntries_logged (project : Project m) (idOf : Path → Except BundleError String)
    (entries : List Path) (g : Graph) (log : LoadLog) :
    Prod.fst <$> ((linkEntries project.logged idOf entries).run.run g).run log =
      (linkEntries project idOf entries).run.run g :=
  erasedParallel.rel_linkEntries (act_logged project) idOf entries g log

/-! ## Runs with the log -/

namespace Linking

/-- All runs of `x` that start from `g` with a log of loads only add loads of some kind to the log. They
end as `y` does with any answers that agree with the log then, and where they end well, `ok` holds. -/
def Logged (loads : String → Except BundleError String → Prop) (x : Linking (StateT LoadLog m) α)
    (y : (String → Except BundleError String) → Linking Id α) (g : Graph) (log : LoadLog)
    (ok : α → Graph → LoadLog → Prop) : Prop :=
  SatisfiesM (fun r : (Except BundleError α × Graph) × LoadLog =>
      log <+: r.2 ∧ (∀ l ∈ r.2, l ∈ log ∨ loads l.1 l.2) ∧
      (∀ answers, r.2.Agrees answers → ((y answers).run.run g : Except BundleError α × Graph) = r.1) ∧
      ∀ a, r.1.1 = .ok a → ok a r.1.2 r.2)
    ((x.run.run g).run log)

variable {loads : String → Except BundleError String → Prop} {x : Linking (StateT LoadLog m) α}
  {y : (String → Except BundleError String) → Linking Id α}
  {g : Graph} {log : LoadLog} {ok ok' : α → Graph → LoadLog → Prop}

protected theorem Logged.mono (h : Logged loads x y g log ok) (hok : ∀ a g' log', ok a g' log' → ok' a g' log') :
    Logged loads x y g log ok' :=
  SatisfiesM.imp h fun hr => ⟨hr.1, hr.2.1, hr.2.2.1, fun a ha => hok a _ _ (hr.2.2.2 a ha)⟩

/-- A step that ends at once, and does so with all answers. -/
protected theorem Logged.of_run {r : Except BundleError α × Graph} (hx : (x.run.run g).run log = pure (r, log))
    (hy : ∀ answers, ((y answers).run.run g : Except BundleError α × Graph) = r)
    (hok : ∀ a, r.1 = .ok a → ok a r.2 log) : Logged loads x y g log ok := by
  rw [Logged, hx]
  exact SatisfiesM.pure ⟨List.prefix_refl log, fun _ hl => .inl hl, fun answers _ => hy answers, hok⟩

protected theorem Logged.pure {a : α} (h : ok a g log) :
    Logged loads (pure a : Linking (StateT LoadLog m) α) (fun _ => pure a) g log ok := by
  refine .of_run (r := (.ok a, g)) (by simp) (fun _ => rfl) fun b hb => ?_
  obtain rfl := Except.ok.inj hb
  exact h

protected theorem Logged.throw (e : BundleError) :
    Logged loads (throw e : Linking (StateT LoadLog m) α) (fun _ => throw e) g log ok :=
  .of_run (r := (.error e, g)) (by simp) (fun _ => rfl) fun _ hb => nomatch hb

protected theorem Logged.set {g' : Graph} {ok : PUnit → Graph → LoadLog → Prop} (h : ok ⟨⟩ g' log) :
    Logged loads (set g' : Linking (StateT LoadLog m) PUnit) (fun _ => set g') g log ok := by
  refine .of_run (r := (.ok ⟨⟩, g')) ?_ (fun _ => rfl) fun _ _ => h
  rw [run_set, StateT.run_pure]

protected theorem Logged.modify {f : Graph → Graph} {ok : PUnit → Graph → LoadLog → Prop} (h : ok ⟨⟩ (f g) log) :
    Logged loads (modify f : Linking (StateT LoadLog m) PUnit) (fun _ => modify f) g log ok := by
  refine .of_run (r := (.ok ⟨⟩, f g)) ?_ (fun _ => rfl) fun _ _ => h
  rw [run_modify, StateT.run_pure]

protected theorem Logged.ofAnswer {answer : Except BundleError α} (h : ∀ a, answer = .ok a → ok a g log) :
    Logged loads (ofAnswer answer : Linking (StateT LoadLog m) α) (fun _ => ofAnswer answer) g log ok := by
  cases answer with
  | ok a => exact .pure (h a rfl)
  | error e => exact .throw e

/-- One step behind the other. -/
protected theorem Logged.bind {f : α → Linking (StateT LoadLog m) β}
    {f' : (String → Except BundleError String) → α → Linking Id β} {p : α → Graph → LoadLog → Prop}
    {q : β → Graph → LoadLog → Prop} (hx : Logged loads x y g log p) (hf : ∀ a g' log', p a g' log' →
      Logged loads (f a) (fun answers => f' answers a) g' log' q) :
    Logged loads (x >>= f) (fun answers => y answers >>= f' answers) g log q := by
  rw [Logged, ExceptT.run_bind, StateT.run_bind, StateT.run_bind]
  refine SatisfiesM.bind hx fun r hr => ?_
  obtain ⟨⟨e | a, g'⟩, log'⟩ := r
  · obtain ⟨hlog, hloads, hrun, -⟩ := hr
    refine SatisfiesM.pure ⟨hlog, hloads, fun answers hanswers => ?_, fun _ hb => nomatch hb⟩
    rw [run_bind, hrun answers hanswers]
  · obtain ⟨hlog, hloads, hrun, hok⟩ := hr
    refine SatisfiesM.imp (hf a g' log' (hok a rfl)) fun {r} hr => ?_
    obtain ⟨hmore, hmoreLoads, hrest, hok⟩ := hr
    refine ⟨hlog.trans hmore, fun l hl => (hmoreLoads l hl).elim (hloads l) .inr,
      fun answers hanswers => ?_, hok⟩
    rw [run_bind, hrun answers (hanswers.of_earlier hmore)]
    exact hrest answers hanswers

protected theorem Logged.get {f : Graph → Linking (StateT LoadLog m) β}
    {f' : (String → Except BundleError String) → Graph → Linking Id β} {q : β → Graph → LoadLog → Prop}
    (h : Logged loads (f g) (fun answers => f' answers g) g log q) :
    Logged loads (get >>= f) (fun answers => get >>= f' answers) g log q := by
  have hget : Logged loads (get : Linking (StateT LoadLog m) Graph) (fun _ => get) g log
      fun a g' log' => a = g ∧ g' = g ∧ log' = log := by
    refine .of_run (r := (.ok g, g)) ?_ (fun _ => rfl) ?_
    · rw [run_get, StateT.run_pure]
    · rintro a ha
      exact ⟨(Except.ok.inj ha).symm, rfl, rfl⟩
  refine hget.bind ?_
  rintro a g' log' ⟨rfl, rfl, rfl⟩
  exact h

/-- A load adds its module to the log. -/
protected theorem Logged.load {project : Project m} {id : String} {ok : String → Graph → LoadLog → Prop}
    (hload : SatisfiesM (loads id) (project.load id))
    (h : ∀ text, ok text g (log ++ [(id, .ok text)])) :
    Logged loads (act (project.logged.load id)) (fun answers => act (m := Id) (answers id)) g log ok := by
  have hlift : Logged loads (ExceptT.lift (StateT.lift (project.logged.load id)))
      (fun answers => ExceptT.lift (StateT.lift (m := Id) (answers id))) g log
      fun answer g' log' => g' = g ∧ log' = log ++ [(id, answer)] := by
    have hrun : ((ExceptT.lift (StateT.lift (project.logged.load id)) :
        Linking (StateT LoadLog m) _).run.run g).run log =
          (fun answer => ((.ok answer, g), log ++ [(id, answer)])) <$> project.load id := by
      simp [Project.logged, Project.withLoad]
    rw [Logged, hrun]
    refine SatisfiesM.map_pre (hload.imp fun {answer} hanswer => ?_)
    refine ⟨List.prefix_append log _, fun l hl => ?_, fun answers hanswers => ?_, ?_⟩
    · rcases List.mem_append.mp hl with hl | hl
      · exact .inl hl
      · obtain rfl := List.mem_singleton.mp hl
        exact .inr hanswer
    · have hanswer : answers id = answer := hanswers (id, answer) (by simp)
      rw [← hanswer]
      rfl
    · rintro a ha
      obtain rfl := Except.ok.inj ha
      exact ⟨rfl, rfl⟩
  refine hlift.bind ?_
  rintro answer g' log' ⟨rfl, rfl⟩
  cases answer with
  | ok text => exact .pure (h text)
  | error e => exact .throw e

/-- A loop keeps an invariant. -/
protected theorem Logged.foldlM {γ : Type} {items : List γ} {step : β → γ → Linking (StateT LoadLog m) β}
    {step' : (String → Except BundleError String) → β → γ → Linking Id β} {start : β}
    (inv : β → Graph → LoadLog → Prop) (hstart : inv start g log)
    (hstep : ∀ b item g log, inv b g log →
      Logged loads (step b item) (fun answers => step' answers b item) g log inv) :
    Logged loads (items.foldlM step start) (fun answers => items.foldlM (step' answers) start) g log inv := by
  induction items generalizing start g log with
  | nil => exact .pure hstart
  | cons item rest ih => exact (hstep start item g log hstart).bind fun b g' log' h => ih h

/-- A loop that gives a result for each item keeps an invariant. -/
protected theorem Logged.mapM {γ : Type} {items : List γ} {step : γ → Linking (StateT LoadLog m) β}
    {step' : (String → Except BundleError String) → γ → Linking Id β}
    (inv : Graph → LoadLog → Prop) (hstart : inv g log)
    (hstep : ∀ item ∈ items, ∀ g log, inv g log →
      Logged loads (step item) (fun answers => step' answers item) g log fun _ => inv) :
    Logged loads (items.mapM step) (fun answers => items.mapM (step' answers)) g log fun _ => inv := by
  induction items generalizing g log with
  | nil => exact .pure hstart
  | cons item rest ih =>
    simp only [List.mapM_cons]
    exact (hstep item List.mem_cons_self g log hstart).bind fun b g' log' h =>
      (ih h fun i hi => hstep i (List.mem_cons_of_mem _ hi)).bind fun bs g'' log'' h => .pure h

end Linking

/-! ## Visits -/

/-- The modules in the log are linked or wait, and each is there once. -/
structure Graph.Tracks (g : Graph) (log : LoadLog) : Prop where
  nodup : log.ids.Nodup
  not_helper : helperModuleId ∉ log.ids
  known : ∀ id ∈ log.ids, (g.module? id).isSome ∧ id ∈ g.order ∨ id ∈ g.visiting

/-- A module that is put in place is linked, with its exports, and waits no longer. -/
theorem Graph.finish_ok_module? {g g' : Graph} {id code : String} {exports : List (String × String)}
    {s : ImportState} (h : g.finish id code exports s = .ok g') :
    (∃ text, ∀ i, g'.module? i = if i = id then some ⟨text, lastOfEach exports⟩ else g.module? i) ∧
      g'.order = g.order ++ [id] ∧ g'.visiting = g.visiting.filter (· != id) := by
  unfold Graph.finish at h
  obtain ⟨mid, hdeclare, h⟩ := bind_eq_ok.mp h
  obtain ⟨hmid, -⟩ := Graph.declare_ok hdeclare
  obtain rfl := Except.ok.inj h
  rw [← hmid]
  exact ⟨⟨_, fun i => Graph.module?_setModule g id i _⟩, rfl, rfl⟩

namespace Graph.Tracks

variable {g g' : Graph} {log : LoadLog} {id : String}

theorem empty : Graph.Tracks {} [] :=
  ⟨List.nodup_nil, List.not_mem_nil, fun _ h => nomatch h⟩

theorem not_mem (h : g.Tracks log) (hmodule : ¬ (g.module? id).isSome) (hvisiting : id ∉ g.visiting) :
    id ∉ log.ids :=
  fun hmem => (h.known id hmem).elim (fun hlinked => hmodule hlinked.1) hvisiting

/-- A module that is not in the log yet waits when it is loaded. -/
theorem load (h : g.Tracks log) (hnew : id ∉ log.ids) (hid : id ≠ helperModuleId) (answer : Except BundleError String) :
    Graph.Tracks { g with visiting := id :: g.visiting } (log ++ [(id, answer)]) where
  nodup := by
    rw [LoadLog.ids, List.map_append, List.map_singleton, ← List.concat_eq_append]
    exact h.nodup.concat hnew
  not_helper := by
    rw [LoadLog.ids, List.map_append, List.mem_append, not_or]
    exact ⟨h.not_helper, by simpa using Ne.symm hid⟩
  known i hi := by
    rw [LoadLog.ids, List.map_append, List.mem_append] at hi
    rcases hi with hi | hi
    · exact (h.known i hi).imp_right (List.mem_cons_of_mem id)
    · obtain rfl := List.mem_singleton.mp hi
      exact .inr List.mem_cons_self

theorem finish (h : g.Tracks log) {code : String} {exports : List (String × String)} {s : ImportState}
    (hfinish : g.finish id code exports s = .ok g') : g'.Tracks log where
  nodup := h.nodup
  not_helper := h.not_helper
  known i hi := by
    obtain ⟨⟨text, hmodule⟩, horder, hvisiting⟩ := Graph.finish_ok_module? hfinish
    rw [hmodule, horder, hvisiting]
    by_cases hid : i = id
    · exact .inl ⟨by simp [hid], by simp [hid]⟩
    · rw [if_neg hid]
      refine (h.known i hi).imp (fun hlinked => ?_) fun hmem => ?_
      · exact ⟨hlinked.1, List.mem_append_left _ hlinked.2⟩
      · exact List.mem_filter.mpr ⟨hmem, by simpa using hid⟩

end Graph.Tracks

variable {project : Project m} {loads : String → Except BundleError String → Prop}

/-- An import is linked as with the answers of the log, if visits are. -/
theorem linkImport_logged {visit : String → Linking (StateT LoadLog m) Unit}
    {visit' : (String → Except BundleError String) → String → Linking Id Unit}
    (hvisit : ∀ g log id, g.Tracks log → id ≠ helperModuleId → id ∉ g.visiting →
      Logged loads (visit id) (fun answers => visit' answers id) g log
        fun _ g' log' => g'.Tracks log' ∧ g'.visiting = g.visiting)
    (id : String) (s : ImportState) (record : ImportRecord) {g : Graph} {log : LoadLog}
    (htracks : g.Tracks log) :
    Logged loads (linkImport project.logged visit id s record)
      (fun answers => linkImport (project.answering answers) (visit' answers) id s record) g log
      fun _ g' log' => g'.Tracks log' ∧ g'.visiting = g.visiting := by
  refine .bind (p := fun _ g' log' => g' = g ∧ log' = log) (.ofAnswer fun _ _ => ⟨rfl, rfl⟩) ?_
  rintro target g' log' ⟨rfl, rfl⟩
  cases target with
  | outside =>
    refine .bind (p := fun _ g'' log'' => g''.Tracks log'' ∧ g''.visiting = g'.visiting)
      (.modify ⟨⟨htracks.nodup, htracks.not_helper, htracks.known⟩, rfl⟩) ?_
    exact fun _ g'' log'' h => .pure h
  | module dependency =>
    dsimp only
    split
    · exact .pure ⟨htracks, rfl⟩
    · rename_i hhelper
      refine .get ?_
      split
      · exact .throw _
      · rename_i hwaits
        refine (hvisit g' log' dependency htracks (by simpa using hhelper) (by simpa using hwaits)).bind ?_
        intro _ g'' log'' h
        refine .get (.bind (p := fun _ g₃ log₃ => g₃ = g'' ∧ log₃ = log'')
          (.ofAnswer fun _ _ => ⟨rfl, rfl⟩) ?_)
        rintro answer g₃ log₃ ⟨rfl, rfl⟩
        exact .pure h

/-- A visit is the visit with the answers of its log, and loads no module that is in the log already. -/
theorem visit_logged (hload : ∀ id, SatisfiesM (loads id) (project.load id)) (fuel : Nat) :
    ∀ (g : Graph) (log : LoadLog) (id : String), g.Tracks log → id ≠ helperModuleId → id ∉ g.visiting →
      Logged loads (visit project.logged fuel id) (fun answers => visit (project.answering answers) fuel id) g log
      fun _ g' log' => g'.Tracks log' ∧ g'.visiting = g.visiting := by
  induction fuel with
  | zero => exact fun _ _ _ _ _ _ => .throw _
  | succ fuel ih =>
    intro g log id htracks hne hid
    refine .get ?_
    by_cases hmodule : (g.module? id).isSome = true
    · rw [if_pos hmodule]
      simp only [if_pos hmodule]
      exact .pure ⟨htracks, rfl⟩
    simp only [if_neg hmodule]
    have hwaiting : g.visiting.filter (· != id) = g.visiting := filter_ne_of_not_mem hid
    refine .bind (p := fun _ g' log' => g' = { g with visiting := id :: g.visiting } ∧ log' = log)
      (.modify ⟨by rw [hwaiting], rfl⟩) ?_
    rintro - g' log' ⟨rfl, rfl⟩
    refine .bind (p := fun _ g' log' => g'.Tracks log' ∧ g'.visiting = id :: g.visiting)
      (.load (hload id) fun text => ⟨htracks.load (htracks.not_mem hmodule hid) hne _, rfl⟩) ?_
    rintro text g' log' hloaded
    refine .get (.bind (p := fun _ g'' log'' => g''.Tracks log'' ∧ g''.visiting = id :: g.visiting)
      (.ofAnswer fun _ _ => hloaded) ?_)
    rintro record g'' log'' hrecord
    refine .bind (p := fun _ g₃ log₃ => g₃.Tracks log₃ ∧ g₃.visiting = id :: g.visiting)
      (.foldlM (fun _ g₃ log₃ => g₃.Tracks log₃ ∧ g₃.visiting = id :: g.visiting) hrecord ?_) ?_
    · intro s r g₃ log₃ h
      refine (linkImport_logged ih id s r h.1).mono ?_
      exact fun _ g₄ log₄ hnext => ⟨hnext.1, hnext.2.trans h.2⟩
    · intro s g₃ log₃ h
      refine .get (.bind (p := fun g₄ _ log₄ => g₄.Tracks log₄ ∧ g₄.visiting = g.visiting)
        (.ofAnswer fun g₄ hfinish => ⟨h.1.finish hfinish, ?_⟩) ?_)
      · rw [(Graph.finish_ok_module? hfinish).2.2, h.2, List.filter_cons_of_neg (by simp), hwaiting]
      · exact fun g₄ _ log₄ hdone => .set hdone

/-- Visits of entries are the visits with the answers of their log, and load each module once. -/
theorem visitEach_logged (hload : ∀ id, SatisfiesM (loads id) (project.load id))
    {idOf : Path → Except BundleError String} {entries : List Path}
    (hentries : ∀ entry ∈ entries, ∀ id, idOf entry = .ok id → id ≠ helperModuleId) (fuel : Nat) :
    Logged loads (visitEach (visit project.logged fuel) idOf entries)
      (fun answers => visitEach (visit (project.answering answers) fuel) idOf entries) {} []
      fun _ g log => g.Tracks log ∧ g.visiting = [] := by
  refine .mapM (fun g log => g.Tracks log ∧ g.visiting = []) ⟨.empty, rfl⟩ fun entry hentry g log h => ?_
  refine .bind (p := fun id g' log' => idOf entry = .ok id ∧ g'.Tracks log' ∧ g'.visiting = [])
    (.ofAnswer fun id hid => ⟨hid, h⟩) fun id g' log' ⟨hid, h⟩ => ?_
  have hvisit := visit_logged hload fuel g' log' id h.1 (hentries entry hentry id hid) (by simp [h.2])
  refine hvisit.bind fun _ g'' log'' hdone => ?_
  exact .pure ⟨hdone.1, hdone.2.trans h.2⟩

omit [Monad m] [LawfulMonad m] in
/-- Steps that keep the order keep it together. -/
theorem Graph.foldlM_order {step : Graph → String → Except BundleError Graph}
    (hstep : ∀ {id : String} {g g' : Graph}, step g id = .ok g' → g'.order = g.order)
    {ids : List String} {g g' : Graph} (h : ids.foldlM step g = .ok g') : g'.order = g.order := by
  induction ids generalizing g with
  | nil => exact congrArg Graph.order (Except.ok.inj h).symm
  | cons id ids ih =>
    rw [List.foldlM_cons] at h
    obtain ⟨next, hone, hrest⟩ := bind_eq_ok.mp h
    exact (ih hrest).trans (hstep hone)

omit [Monad m] [LawfulMonad m] in
/-- The helper module comes before the others, if at all. -/
theorem Graph.linkHelpers_order_eq {project : Project m} {g g' : Graph}
    (h : g.linkHelpers project = .ok g') : g'.order = g.order ∨ g'.order = helperModuleId :: g.order := by
  have hdeferred : ∀ {id d} {g g' : Graph}, g.linkDeferred id d = .ok g' → g'.order = g.order := by
    intro id d g g' h
    obtain ⟨texts, -, h⟩ := bind_eq_ok.mp h
    obtain ⟨mid, hdeclare, h⟩ := bind_eq_ok.mp h
    obtain rfl := Except.ok.inj h
    rw [← (Graph.declare_ok hdeclare).1]
    rfl
  unfold Graph.linkHelpers at h
  split at h
  · obtain rfl := Except.ok.inj h
    exact .inl rfl
  obtain ⟨⟨code, record⟩, -, h⟩ := bind_eq_ok.mp h
  obtain ⟨mid, hdeclare, h⟩ := bind_eq_ok.mp h
  have hkept := Graph.foldlM_order (fun {id next next'} hone => by
    split at hone
    · exact hdeferred hone
    · exact congrArg Graph.order (Except.ok.inj hone).symm) h
  rw [hkept, ← (Graph.declare_ok hdeclare).1]
  exact .inr rfl

omit [Monad m] [LawfulMonad m] in
theorem Graph.linkHelpers_order {project : Project m} {g g' : Graph}
    (h : g.linkHelpers project = .ok g') : g.order ⊆ g'.order := by
  rcases Graph.linkHelpers_order_eq h with horder | horder <;> simp [horder]

/-- Linking entries is linking them with the answers of its log, and loads each module once. -/
theorem linkEntries_logged (hload : ∀ id, SatisfiesM (loads id) (project.load id))
    {idOf : Path → Except BundleError String} {entries : List Path}
    (hentries : ∀ entry ∈ entries, ∀ id, idOf entry = .ok id → id ≠ helperModuleId) :
    Logged loads (linkEntries project.logged idOf entries)
      (fun answers => linkEntries (project.answering answers) idOf entries) {} []
      fun _ g log => log.ids.Nodup ∧ helperModuleId ∉ log.ids ∧ log.ids ⊆ g.order := by
  simp only [linkEntries_eq_visitEach]
  refine (visitEach_logged hload hentries project.depth).bind fun ids g log h => .get ?_
  refine .bind (p := fun g' _ log' => log'.ids.Nodup ∧ helperModuleId ∉ log'.ids ∧ log'.ids ⊆ g'.order)
    (.ofAnswer ?_) ?_
  · intro g' hhelpers
    refine ⟨h.1.nodup, h.1.not_helper, fun id hid => Graph.linkHelpers_order hhelpers ?_⟩
    rcases h.1.known id hid with hlinked | hwaits
    · exact hlinked.2
    · rw [h.2] at hwaits
      cases hwaits
  · intro g' g'' log' hdone
    exact .bind (p := fun _ g₃ log₃ => log₃.ids.Nodup ∧ helperModuleId ∉ log₃.ids ∧ log₃.ids ⊆ g₃.order) (.set hdone)
      fun _ _ _ hdone => .pure hdone

end ModuleBuild
