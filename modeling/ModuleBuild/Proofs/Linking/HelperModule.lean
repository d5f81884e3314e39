import Mathlib
import ModuleBuild.Proofs.Linking.Visit

/-!
# Linking the helper module

When all other modules are linked, the helper module comes before them, and the imports that waited for
it get their variables. What was linked before stays as it is.

## Main definitions

* `LinkedPart.settle` — a part whose imports of the helper module are linked.
* `Graph.Shows` — a graph that is complete up to the texts of modules that still wait.
* `HelperFailure` — why linking the helper module fails.

## Main statements

* `Graph.linkHelpers_ok`, `Graph.linkHelpers_error` — what linking the helper module comes to.
-/

namespace ModuleBuild

open Linking Script

/-! ## Settled parts -/

/-- The import with variables for what it takes from the helper module, if it waited for it. -/
def ImportLink.settle (helper : LinkedPart) (link : ImportLink) : ImportLink :=
  if link.isHelper then
    { link with aliases :=
        ((helper.linked.aliases helperModuleId link.record.bindings).toOption).getD [] }
  else link

namespace LinkedPart

/-- The part with variables for what it takes from the helper module. -/
def settle (helper p : LinkedPart) : LinkedPart :=
  { p with links := p.links.map (ImportLink.settle helper) }

/-- All edits of a module whose imports are linked. -/
def allEdits (p : LinkedPart) : List Edit :=
  p.edits ++ p.late.map (·.edit)

/-- The text of a module whose imports are linked. -/
def code (p : LinkedPart) : String :=
  applyEdits p.source p.allEdits

/-- All top-level names that a module claims. -/
def allClaims (p : LinkedPart) : List String :=
  p.claims ++ p.late.flatMap (·.locals)

/-- A module claims the names that it declares, and the ones of the variables for its imports. -/
theorem mem_allClaims {p : LinkedPart} {name : String} :
    name ∈ p.allClaims ↔ name ∈ p.record.declared ∨ name ∈ p.links.flatMap (·.locals) := by
  have hsplit : name ∈ p.links.flatMap (·.locals) ↔
      name ∈ p.early.flatMap (·.locals) ∨ name ∈ p.late.flatMap (·.locals) := by
    simp only [List.mem_flatMap, early, late, List.mem_filter]
    constructor
    · rintro ⟨link, hlink, hname⟩
      cases hhelper : link.isHelper with
      | false => exact .inl ⟨link, ⟨hlink, by simp [hhelper]⟩, hname⟩
      | true => exact .inr ⟨link, ⟨hlink, hhelper⟩, hname⟩
    · rintro (⟨link, ⟨hlink, -⟩, hname⟩ | ⟨link, ⟨hlink, -⟩, hname⟩)
      · exact ⟨link, hlink, hname⟩
      · exact ⟨link, hlink, hname⟩
  rw [hsplit, allClaims, claims, List.mem_append, List.mem_append, or_assoc]

theorem record_settle (helper : LinkedPart) (link : ImportLink) :
    (link.settle helper).record = link.record := by
  unfold ImportLink.settle
  split <;> rfl

theorem target_settle (helper : LinkedPart) (link : ImportLink) :
    (link.settle helper).target = link.target := by
  unfold ImportLink.settle
  split <;> rfl

theorem isHelper_settle (helper : LinkedPart) (link : ImportLink) :
    (link.settle helper).isHelper = link.isHelper := by
  rw [ImportLink.isHelper, target_settle, ImportLink.isHelper]

theorem early_settle (helper p : LinkedPart) : (settle helper p).early = p.early := by
  unfold early settle
  rw [List.filter_map]
  have hsame : (fun link : ImportLink => !link.isHelper) ∘ ImportLink.settle helper =
      fun link => !link.isHelper := by
    funext link
    simp [isHelper_settle]
  rw [hsame]
  refine (List.map_congr_left ?_).trans (List.map_id _)
  intro link hlink
  have hearly : link.isHelper = false := by simpa using (List.mem_filter.mp hlink).2
  simp [ImportLink.settle, hearly]

theorem late_settle (helper p : LinkedPart) :
    (settle helper p).late = p.late.map (ImportLink.settle helper) := by
  unfold late settle
  rw [List.filter_map]
  have hsame : (fun link : ImportLink => link.isHelper) ∘ ImportLink.settle helper =
      fun link => link.isHelper := by
    funext link
    simp [isHelper_settle]
  rw [hsame]

theorem outside_settle (helper p : LinkedPart) : (settle helper p).outside = p.outside := by
  unfold outside settle
  rw [List.flatMap_map]
  refine List.flatMap_congr fun link _ => ?_
  rw [ImportLink.outside, target_settle, record_settle, ImportLink.outside]

theorem id_settle (helper p : LinkedPart) : (settle helper p).id = p.id := rfl

theorem claims_settle (helper p : LinkedPart) : (settle helper p).claims = p.claims := by
  unfold claims
  rw [early_settle]
  rfl

theorem mem_allClaims_settle {helper p : LinkedPart} {name : String} :
    name ∈ (settle helper p).allClaims ↔
      name ∈ p.claims ∨ name ∈ (settle helper p).late.flatMap (·.locals) := by
  rw [allClaims, claims_settle, List.mem_append]

theorem edits_settle (helper p : LinkedPart) : (settle helper p).edits = p.edits := by
  unfold edits
  rw [early_settle]
  rfl

/-- A part without imports of the helper module is settled. -/
theorem settle_of_late {helper p : LinkedPart} (h : p.late = []) : settle helper p = p := by
  have hlinks : p.links.map (ImportLink.settle helper) = p.links := by
    refine (List.map_congr_left ?_).trans (List.map_id _)
    intro link hlink
    have hearly : link.isHelper = false := by
      by_contra hhelper
      have hmem : link ∈ p.late := List.mem_filter.mpr ⟨hlink, by simpa using hhelper⟩
      simp [h] at hmem
    simp [ImportLink.settle, hearly]
  unfold settle
  rw [hlinks]

theorem linked_of_late {p : LinkedPart} (h : p.late = []) : p.linked = ⟨p.code, p.exports⟩ := by
  simp [linked, code, allEdits, h]

theorem allClaims_of_late {p : LinkedPart} (h : p.late = []) : p.allClaims = p.claims := by
  simp [allClaims, h]

end LinkedPart

/-! ## Imports of one module -/

section Deferred

variable {g g' : Graph} {helper p : LinkedPart}

/-- What stands for an import that waited, with the names that it declares. -/
theorem helperText_eq (hmodule : g.module? helperModuleId = some helper.linked) (link : ImportLink)
    (hhelper : link.isHelper = true) : (do
        let (text, names) ← g.importText helperModuleId link.record
        return ((⟨link.record.span.start, link.record.span.stop, text⟩ : Edit), names)) =
      (fun _ => ((link.settle helper).edit, (link.settle helper).locals)) <$>
        helper.linked.aliases helperModuleId link.record.bindings := by
  rw [Graph.importText_of_module? hmodule]
  cases haliases : helper.linked.aliases helperModuleId link.record.bindings with
  | error e => rfl
  | ok pairs =>
    simp [ImportLink.settle, hhelper, haliases, ImportLink.edit, ImportLink.locals, Except.toOption]

/-- What stands for the imports that waited, if the helper module exports all that they name. -/
theorem helperTexts_ok (hmodule : g.module? helperModuleId = some helper.linked)
    {links : List ImportLink} (hlinks : ∀ link ∈ links, link.isHelper = true)
    {texts : List (Edit × List String)}
    (h : ((links.map (·.record)).mapM fun record => do
      let (text, names) ← g.importText helperModuleId record
      return ((⟨record.span.start, record.span.stop, text⟩ : Edit), names)) = .ok texts) :
    (∀ link ∈ links, ∃ aliases,
        helper.linked.aliases helperModuleId link.record.bindings = .ok aliases) ∧
      texts = links.map fun link => ((link.settle helper).edit, (link.settle helper).locals) := by
  induction links generalizing texts with
  | nil =>
    obtain rfl := Except.ok.inj h
    simp
  | cons link rest ih =>
    have hone := helperText_eq hmodule link (hlinks link List.mem_cons_self)
    rw [List.map_cons, List.mapM_cons, hone] at h
    obtain ⟨text, htext, h⟩ := bind_eq_ok.mp h
    obtain ⟨pairs, haliases, rfl⟩ := map_eq_ok.mp htext
    obtain ⟨more, hmore, h⟩ := bind_eq_ok.mp h
    obtain rfl := Except.ok.inj h
    obtain ⟨hall, rfl⟩ := ih (fun l hl => hlinks l (List.mem_cons_of_mem _ hl)) hmore
    refine ⟨?_, rfl⟩
    intro l hl
    rcases List.mem_cons.mp hl with rfl | hl
    · exact ⟨pairs, haliases⟩
    · exact hall l hl

theorem helperTexts_error (hmodule : g.module? helperModuleId = some helper.linked)
    {links : List ImportLink} (hlinks : ∀ link ∈ links, link.isHelper = true) {e : BundleError}
    (h : ((links.map (·.record)).mapM fun record => do
      let (text, names) ← g.importText helperModuleId record
      return ((⟨record.span.start, record.span.stop, text⟩ : Edit), names)) = .error e) :
    ∃ link ∈ links, helper.linked.aliases helperModuleId link.record.bindings = .error e := by
  induction links with
  | nil => cases h
  | cons link rest ih =>
    have hone := helperText_eq hmodule link (hlinks link List.mem_cons_self)
    rw [List.map_cons, List.mapM_cons, hone] at h
    rcases bind_eq_error.mp h with htext | ⟨text, -, h⟩
    · exact ⟨link, List.mem_cons_self, map_eq_error.mp htext⟩
    rcases bind_eq_error.mp h with hmore | ⟨more, -, h⟩
    · obtain ⟨l, hl, hfail⟩ := ih (fun l hl => hlinks l (List.mem_cons_of_mem _ hl)) hmore
      exact ⟨l, List.mem_cons_of_mem _ hl, hfail⟩
    · cases h

theorem settledLocals_eq (helper p : LinkedPart) :
    (p.late.map fun link => ((link.settle helper).edit, (link.settle helper).locals)).flatMap (·.2) =
      (LinkedPart.settle helper p).late.flatMap (·.locals) := by
  rw [LinkedPart.late_settle, List.flatMap_map, List.flatMap_map]

theorem settledCode_eq (helper p : LinkedPart) :
    applyEdits p.source (p.edits ++ (p.late.map fun link =>
        ((link.settle helper).edit, (link.settle helper).locals)).map (·.1)) =
      (LinkedPart.settle helper p).code := by
  rw [LinkedPart.code, LinkedPart.allEdits, LinkedPart.late_settle, LinkedPart.edits_settle,
    List.map_map, List.map_map]
  rfl

/-- What linking the imports that waited changes. -/
theorem linkDeferred_ok (hmodule : g.module? helperModuleId = some helper.linked)
    (hpart : g.module? p.id = some p.linked)
    (h : g.linkDeferred p.id ⟨p.source, p.edits, p.late.map (·.record)⟩ = .ok g') :
    (∀ link ∈ p.late, ∃ aliases,
        helper.linked.aliases helperModuleId link.record.bindings = .ok aliases) ∧
      ∃ owners, (∀ name owner, owners.lookup name = some owner ↔ g.owners.lookup name = some owner ∨
          owner = p.id ∧ name ∈ (LinkedPart.settle helper p).late.flatMap (·.locals)) ∧
        g' = { g with
          modules := (g.setModule p.id ⟨(LinkedPart.settle helper p).code, p.exports⟩).modules
          owners } := by
  have hlate : ∀ link ∈ p.late, link.isHelper = true := fun link hlink => (List.mem_filter.mp hlink).2
  unfold Graph.linkDeferred at h
  obtain ⟨texts, htexts, h⟩ := bind_eq_ok.mp h
  obtain ⟨hall, rfl⟩ := helperTexts_ok hmodule hlate htexts
  obtain ⟨mid, hdeclare, h⟩ := bind_eq_ok.mp h
  rw [settledLocals_eq] at hdeclare
  obtain ⟨hmid, howners⟩ := Graph.declare_ok hdeclare
  refine ⟨hall, mid.owners, howners, ?_⟩
  have hexports : ((mid.module? p.id).map (·.exports)).getD [] = p.exports := by
    have hsame : mid.module? p.id = some p.linked := by
      rw [← hmid]
      exact hpart
    simp [hsame, LinkedPart.linked]
  obtain rfl := Except.ok.inj h
  rw [hexports, settledCode_eq, ← hmid]
  rfl

/-- Imports that waited cannot be linked if the helper module does not export what they name, or if
another module owns one of their variables. -/
theorem linkDeferred_error (hmodule : g.module? helperModuleId = some helper.linked) {e : BundleError}
    (h : g.linkDeferred p.id ⟨p.source, p.edits, p.late.map (·.record)⟩ = .error e) :
    (∃ link ∈ p.late, helper.linked.aliases helperModuleId link.record.bindings = .error e) ∨
      ∃ name ∈ (LinkedPart.settle helper p).late.flatMap (·.locals), ∃ first, first ≠ p.id ∧
        g.owners.lookup name = some first ∧ e = .nameConflict name first p.id := by
  have hlate : ∀ link ∈ p.late, link.isHelper = true := fun link hlink => (List.mem_filter.mp hlink).2
  unfold Graph.linkDeferred at h
  rcases bind_eq_error.mp h with htexts | ⟨texts, htexts, h⟩
  · exact .inl (helperTexts_error hmodule hlate htexts)
  obtain ⟨-, rfl⟩ := helperTexts_ok hmodule hlate htexts
  rcases bind_eq_error.mp h with hdeclare | ⟨mid, -, h⟩
  · rw [settledLocals_eq] at hdeclare
    exact .inr (Graph.declare_error hdeclare)
  · cases h

end Deferred

/-! ## All modules -/

/-- A graph in which `done` are complete, and `rest` as far as they do not wait for the helper
module. -/
structure Graph.Shows (g : Graph) (done rest : List LinkedPart) : Prop where
  order_eq : g.order = (done ++ rest).map (·.id)
  done_modules : ∀ p ∈ done, g.module? p.id = some ⟨p.code, p.exports⟩
  rest_modules : ∀ p ∈ rest, g.module? p.id = some p.linked
  owner_iff : ∀ name id, g.owners.lookup name = some id ↔
    (∃ p ∈ done, p.id = id ∧ name ∈ p.allClaims) ∨ ∃ p ∈ rest, p.id = id ∧ name ∈ p.claims
  mem_externals : ∀ i, i ∈ g.externals ↔ ∃ p ∈ done ++ rest, i ∈ p.outside

/-- Links the imports of a module that wait for the helper module, if there are any. -/
def Graph.linkWaiting (g : Graph) (id : String) : Except BundleError Graph :=
  match g.deferred.lookup id with
  | some d => g.linkDeferred id d
  | none => .ok g

theorem Graph.linkWaiting_of_none {g : Graph} {id : String} (h : g.deferred.lookup id = none) :
    g.linkWaiting id = .ok g := by
  unfold Graph.linkWaiting
  rw [h]

theorem LinkedPart.deferred?_eq (p : LinkedPart) : p.deferred? =
    if p.late = [] then none else some (p.id, ⟨p.source, p.edits, p.late.map (·.record)⟩) := by
  simp [LinkedPart.deferred?]

theorem lookup_deferred_of_not_part {parts : List LinkedPart} {id : String}
    (h : ∀ p ∈ parts, p.id ≠ id) : (parts.filterMap (·.deferred?)).lookup id = none := by
  rw [List.lookup_eq_none_iff]
  intro pair hpair
  obtain ⟨p, hp, hdeferred⟩ := List.mem_filterMap.mp hpair
  rw [LinkedPart.deferred?_eq] at hdeferred
  split at hdeferred
  · cases hdeferred
  · obtain rfl := Option.some.inj hdeferred
    simpa using (h p hp).symm

/-- What waits of a part. -/
theorem lookup_deferred {parts : List LinkedPart} (hnodup : (parts.map (·.id)).Nodup)
    {p : LinkedPart} (hp : p ∈ parts) :
    (parts.filterMap (·.deferred?)).lookup p.id =
      if p.late = [] then none else some ⟨p.source, p.edits, p.late.map (·.record)⟩ := by
  induction parts with
  | nil => cases hp
  | cons q rest ih =>
    rw [List.map_cons, List.nodup_cons] at hnodup
    have hrest : ∀ p ∈ rest, p.id ≠ q.id := fun p hp heq =>
      hnodup.1 (heq ▸ List.mem_map_of_mem hp)
    rcases List.mem_cons.mp hp with rfl | hp
    · by_cases hlate : p.late = []
      · rw [List.filterMap_cons_none (by simp [LinkedPart.deferred?_eq, hlate]), if_pos hlate]
        exact lookup_deferred_of_not_part hrest
      · rw [List.filterMap_cons_some (by rw [LinkedPart.deferred?_eq, if_neg hlate]), if_neg hlate,
          List.lookup_cons_self]
    · have hne : (p.id == q.id) = false := by simpa using hrest p hp
      by_cases hlate : q.late = []
      · rw [List.filterMap_cons_none (by simp [LinkedPart.deferred?_eq, hlate])]
        exact ih hnodup.2 hp
      · rw [List.filterMap_cons_some (by rw [LinkedPart.deferred?_eq, if_neg hlate]), List.lookup_cons,
          hne]
        exact ih hnodup.2 hp

namespace Graph.Shows

variable {g g' : Graph} {helper p : LinkedPart} {done rest : List LinkedPart}

theorem module?_helper (h : g.Shows done rest) (hmem : helper ∈ done) (hid : helper.id = helperModuleId)
    (hlinks : helper.links = []) : g.module? helperModuleId = some helper.linked := by
  have hlate : helper.late = [] := by simp [LinkedPart.late, hlinks]
  rw [← hid, h.done_modules helper hmem, LinkedPart.linked_of_late hlate]

/-- A module that need not wait is complete. -/
theorem next (h : g.Shows done (p :: rest)) (hlate : p.late = []) : g.Shows (done ++ [p]) rest where
  order_eq := by simpa using h.order_eq
  done_modules q hq := by
    rcases List.mem_append.mp hq with hq | hq
    · exact h.done_modules q hq
    · obtain rfl := List.mem_singleton.mp hq
      rw [← LinkedPart.linked_of_late hlate]
      exact h.rest_modules q List.mem_cons_self
  rest_modules q hq := h.rest_modules q (List.mem_cons_of_mem _ hq)
  owner_iff name id := by
    rw [h.owner_iff]
    simp [or_and_right, exists_or, LinkedPart.allClaims_of_late hlate, or_assoc]
  mem_externals i := by simpa using h.mem_externals i

/-- A module that waited is complete once its imports of the helper module are linked. -/
theorem settle (h : g.Shows done (p :: rest)) (hnodup : ((done ++ p :: rest).map (·.id)).Nodup)
    {owners : List (String × String)}
    (howners : ∀ name owner, owners.lookup name = some owner ↔ g.owners.lookup name = some owner ∨
      owner = p.id ∧ name ∈ (LinkedPart.settle helper p).late.flatMap (·.locals)) :
    Graph.Shows { g with
      modules := (g.setModule p.id ⟨(LinkedPart.settle helper p).code, p.exports⟩).modules
      owners } (done ++ [LinkedPart.settle helper p]) rest := by
  have hother : ∀ q ∈ done ++ rest, q.id ≠ p.id := by
    have hmiddle : (done ++ p :: rest).Perm (p :: (done ++ rest)) := List.perm_middle
    have hcons := (hmiddle.map (·.id)).nodup_iff.mp hnodup
    rw [List.map_cons, List.nodup_cons] at hcons
    exact fun q hq heq => hcons.1 (heq ▸ List.mem_map_of_mem hq)
  have hmodule : ∀ q ∈ done ++ rest, (g.setModule p.id
      ⟨(LinkedPart.settle helper p).code, p.exports⟩).module? q.id = g.module? q.id := by
    intro q hq
    rw [Graph.module?_setModule, if_neg (hother q hq)]
  exact {
    order_eq := by simpa [LinkedPart.id_settle] using h.order_eq
    done_modules := by
      intro q hq
      rcases List.mem_append.mp hq with hq | hq
      · exact (hmodule q (List.mem_append_left _ hq)).trans (h.done_modules q hq)
      · obtain rfl := List.mem_singleton.mp hq
        exact (Graph.module?_setModule g p.id p.id _).trans (if_pos rfl)
    rest_modules := fun q hq => (hmodule q (List.mem_append_right _ hq)).trans
      (h.rest_modules q (List.mem_cons_of_mem _ hq))
    owner_iff := by
      intro name id
      rw [howners, h.owner_iff, eq_comm]
      simp only [List.mem_append, List.mem_cons, or_and_right, exists_or, exists_eq_left,
        LinkedPart.mem_allClaims_settle, LinkedPart.id_settle, List.not_mem_nil, or_false,
        and_or_left]
      grind
    mem_externals := by
      intro i
      refine (h.mem_externals i).trans ?_
      simp [or_and_right, exists_or, LinkedPart.outside_settle] }

/-- Why a module that waits cannot be linked, in terms of all parts. -/
def WaitingFailure (helper : LinkedPart) (parts rest : List LinkedPart) (e : BundleError) : Prop :=
  ∃ p ∈ rest,
    (∃ link ∈ p.late, helper.linked.aliases helperModuleId link.record.bindings = .error e) ∨
    ∃ name ∈ (LinkedPart.settle helper p).late.flatMap (·.locals), ∃ q ∈ parts, q.id ≠ p.id ∧
      name ∈ q.allClaims ∧ e = .nameConflict name q.id p.id

/-- One module is linked, if it waits. -/
theorem linkWaiting_ok (h : g.Shows done (p :: rest)) (hnodup : ((done ++ p :: rest).map (·.id)).Nodup)
    (hmem : helper ∈ done) (hid : helper.id = helperModuleId) (hlinks : helper.links = [])
    (hdeferred : g.deferred.lookup p.id =
      if p.late = [] then none else some ⟨p.source, p.edits, p.late.map (·.record)⟩)
    (hstep : g.linkWaiting p.id = .ok g') :
    g'.Shows (done ++ [LinkedPart.settle helper p]) rest ∧ g'.deferred = g.deferred ∧
      ∀ link ∈ p.late, ∃ aliases,
        helper.linked.aliases helperModuleId link.record.bindings = .ok aliases := by
  unfold Graph.linkWaiting at hstep
  by_cases hlate : p.late = []
  · rw [hdeferred, if_pos hlate] at hstep
    obtain rfl := Except.ok.inj hstep
    rw [LinkedPart.settle_of_late hlate]
    exact ⟨h.next hlate, rfl, by simp [hlate]⟩
  · rw [hdeferred, if_neg hlate] at hstep
    obtain ⟨haliases, owners, howners, rfl⟩ :=
      linkDeferred_ok (h.module?_helper hmem hid hlinks) (h.rest_modules p List.mem_cons_self) hstep
    exact ⟨h.settle hnodup howners, rfl, haliases⟩

theorem linkWaiting_error (h : g.Shows done (p :: rest))
    (hmem : helper ∈ done) (hid : helper.id = helperModuleId) (hlinks : helper.links = [])
    (hdeferred : g.deferred.lookup p.id =
      if p.late = [] then none else some ⟨p.source, p.edits, p.late.map (·.record)⟩)
    {e : BundleError} (hstep : g.linkWaiting p.id = .error e) :
    WaitingFailure helper (done ++ (p :: rest).map (LinkedPart.settle helper)) [p] e := by
  unfold Graph.linkWaiting at hstep
  by_cases hlate : p.late = []
  · rw [hdeferred, if_pos hlate] at hstep
    cases hstep
  · rw [hdeferred, if_neg hlate] at hstep
    refine ⟨p, List.mem_singleton_self p, ?_⟩
    rcases linkDeferred_error (h.module?_helper hmem hid hlinks) hstep with
      hmissing | ⟨name, hname, first, hne, howner, rfl⟩
    · exact .inl hmissing
    · rcases (h.owner_iff name first).mp howner with ⟨q, hq, rfl, hclaims⟩ | ⟨q, hq, rfl, hclaims⟩
      · exact .inr ⟨name, hname, q, List.mem_append_left _ hq, hne, hclaims, rfl⟩
      · exact .inr ⟨name, hname, LinkedPart.settle helper q,
          List.mem_append_right _ (List.mem_map_of_mem hq), hne,
          LinkedPart.mem_allClaims_settle.mpr (.inl hclaims), rfl⟩

/-- All modules are linked that wait. -/
theorem linkAll_ok (h : g.Shows done rest) (hnodup : ((done ++ rest).map (·.id)).Nodup)
    (hmem : helper ∈ done) (hid : helper.id = helperModuleId) (hlinks : helper.links = [])
    (hdeferred : ∀ p ∈ rest, g.deferred.lookup p.id =
      if p.late = [] then none else some ⟨p.source, p.edits, p.late.map (·.record)⟩)
    (hloop : (rest.map (·.id)).foldlM Graph.linkWaiting g = .ok g') :
    g'.Shows (done ++ rest.map (LinkedPart.settle helper)) [] ∧
      ∀ p ∈ rest, ∀ link ∈ p.late, ∃ aliases,
        helper.linked.aliases helperModuleId link.record.bindings = .ok aliases := by
  induction rest generalizing g done with
  | nil =>
    obtain rfl := Except.ok.inj hloop
    simpa using h
  | cons p rest ih =>
    rw [List.map_cons, List.foldlM_cons] at hloop
    obtain ⟨mid, hone, hrest⟩ := bind_eq_ok.mp hloop
    obtain ⟨hshows, hsame, haliases⟩ :=
      linkWaiting_ok h hnodup hmem hid hlinks (hdeferred p List.mem_cons_self) hone
    obtain ⟨hall, hmore⟩ := ih hshows (by simpa [LinkedPart.id_settle] using hnodup)
      (List.mem_append_left _ hmem) (fun q hq => hsame ▸ hdeferred q (List.mem_cons_of_mem _ hq)) hrest
    refine ⟨by simpa using hall, ?_⟩
    intro q hq
    rcases List.mem_cons.mp hq with rfl | hq
    · exact haliases
    · exact hmore q hq

theorem linkAll_error (h : g.Shows done rest) (hnodup : ((done ++ rest).map (·.id)).Nodup)
    (hmem : helper ∈ done) (hid : helper.id = helperModuleId) (hlinks : helper.links = [])
    (hdeferred : ∀ p ∈ rest, g.deferred.lookup p.id =
      if p.late = [] then none else some ⟨p.source, p.edits, p.late.map (·.record)⟩)
    {e : BundleError} (hloop : (rest.map (·.id)).foldlM Graph.linkWaiting g = .error e) :
    WaitingFailure helper (done ++ rest.map (LinkedPart.settle helper)) rest e := by
  induction rest generalizing g done with
  | nil => cases hloop
  | cons p rest ih =>
    rw [List.map_cons, List.foldlM_cons] at hloop
    rcases bind_eq_error.mp hloop with hone | ⟨mid, hone, hrest⟩
    · obtain ⟨q, hq, hfail⟩ :=
        linkWaiting_error h hmem hid hlinks (hdeferred p List.mem_cons_self) hone
      obtain rfl := List.mem_singleton.mp hq
      exact ⟨q, List.mem_cons_self, hfail⟩
    · obtain ⟨hshows, hsame, -⟩ :=
        linkWaiting_ok h hnodup hmem hid hlinks (hdeferred p List.mem_cons_self) hone
      obtain ⟨q, hq, hfail⟩ := ih hshows (by simpa [LinkedPart.id_settle] using hnodup)
        (List.mem_append_left _ hmem) (fun q hq => hsame ▸ hdeferred q (List.mem_cons_of_mem _ hq)) hrest
      refine ⟨q, List.mem_cons_of_mem _ hq, ?_⟩
      simpa using hfail

end Graph.Shows

/-! ## The helper module -/

section Helpers

variable {m : Type → Type} (project : Project m)

/-- The part of the helper module, whose names are free of those that the other parts claim. -/
structure HelperPart (parts : List LinkedPart) (helper : LinkedPart) : Prop where
  id_eq : helper.id = helperModuleId
  local_eq : helper.defaultLocal = helperDefaultLocal
  links_eq : helper.links = []
  text_eq : ∃ owned, (∀ name, name ∈ owned ↔ ∃ p ∈ parts, name ∈ p.claims) ∧
    helperModule project owned = .ok (helper.source, helper.record)

/-- The parts that make up a chunk, of which some are linked before the helper module. -/
inductive Completed (parts : List LinkedPart) : List LinkedPart → Prop
  | alone (unused : ∀ p ∈ parts, p.late = []) : Completed parts parts
  | withHelpers {helper : LinkedPart} (used : ∃ p ∈ parts, p.late ≠ [])
    (part : HelperPart project parts helper)
    (exported : ∀ p ∈ parts, ∀ link ∈ p.late, ∃ aliases,
      helper.linked.aliases helperModuleId link.record.bindings = .ok aliases) :
    Completed parts (helper :: parts.map (LinkedPart.settle helper))

/-- Why linking the helper module fails. -/
inductive HelperFailure (parts : List LinkedPart) : BundleError → Prop
  | analysis {owned : List String} {e : BundleError}
    (mem_owned : ∀ name, name ∈ owned ↔ ∃ p ∈ parts, name ∈ p.claims)
    (record_eq : helperModule project owned = .error e) : HelperFailure parts e
  /-- Another module has a name of the helper module. -/
  | conflict {helper p : LinkedPart} {name : String} (part : HelperPart project parts helper)
    (mem : p ∈ parts) (claims : name ∈ p.claims) (declared : name ∈ helper.record.declared) :
    HelperFailure parts (.nameConflict name p.id helperModuleId)
  /-- The helper module does not export what another one imports. -/
  | missing {helper p : LinkedPart} {link : ImportLink} {b : ImportBinding} {name : String}
    (part : HelperPart project parts helper) (mem : p ∈ parts) (mem_late : link ∈ p.late)
    (mem_bindings : b ∈ link.record.bindings) (imported : b.imported? = some name)
    (absent : helper.exports.lookup name = none) : HelperFailure parts (.missingExport helperModuleId name)
  /-- A module has a name under which another one imports a helper. -/
  | lateConflict {helper p q : LinkedPart} {name : String} (part : HelperPart project parts helper)
    (mem : p ∈ parts) (locals : name ∈ (LinkedPart.settle helper p).late.flatMap (·.locals))
    (mem_other : q ∈ helper :: parts.map (LinkedPart.settle helper)) (ne : q.id ≠ p.id)
    (claims : name ∈ q.allClaims) : HelperFailure parts (.nameConflict name q.id p.id)

variable {project} {facts : Project.Facts} {g g' : Graph} {t : LinkTrace}

/-- A graph whose modules are visited shows its parts. -/
theorem Graph.Holds.shows (h : g.Holds project facts t) (hpending : t.pending = []) :
    g.Shows [] t.parts where
  order_eq := h.order_eq
  done_modules := by simp
  rest_modules p hp := (h.module_iff p.id p.linked).mpr ⟨p, hp, rfl, rfl⟩
  owner_iff name id := by simpa using h.owner_iff name id
  mem_externals i := by simpa [hpending] using h.mem_externals i

theorem Graph.Shows.complete {done rest : List LinkedPart} (h : g.Shows done rest)
    (hlate : ∀ p ∈ rest, p.late = []) : g.Shows (done ++ rest) [] := by
  induction rest generalizing done with
  | nil => simpa using h
  | cons p rest ih =>
    have hnext := ih (h.next (hlate p List.mem_cons_self)) fun q hq => hlate q (List.mem_cons_of_mem _ hq)
    simpa using hnext

theorem deferred_isEmpty (h : g.Holds project facts t) :
    g.deferred.isEmpty = true ↔ ∀ p ∈ t.parts, p.late = [] := by
  rw [h.deferred_eq, List.isEmpty_iff, List.filterMap_eq_nil_iff]
  simp [LinkedPart.deferred?_eq]

theorem Graph.Holds.ne_helper (h : g.Holds project facts t) {p : LinkedPart} (hp : p ∈ t.parts) :
    p.id ≠ helperModuleId := by
  obtain ⟨earlier, later, -, hbehind⟩ := h.linked.of_mem hp
  exact hbehind.ne_helper

/-- Puts the helper module before all others. -/
def Graph.putBefore (g : Graph) (helper : LinkedPart) : Graph :=
  { g.setModule helperModuleId helper.linked with order := helperModuleId :: g.order }

/-- A graph with the helper module shows it before the other parts. -/
theorem Graph.Holds.shows_helper (h : g.Holds project facts t) (hpending : t.pending = [])
    {helper : LinkedPart} (hid : helper.id = helperModuleId) (hlinks : helper.links = [])
    {mid : Graph} (hdeclare : g.declare helperModuleId helper.record.declared = .ok mid) :
    (mid.putBefore helper).Shows [helper] t.parts := by
  have hlate : helper.late = [] := by simp [LinkedPart.late, hlinks]
  have hclaims : helper.allClaims = helper.record.declared := by
    simp [LinkedPart.allClaims, LinkedPart.claims, LinkedPart.early, hlate, hlinks]
  have houtside : helper.outside = [] := by simp [LinkedPart.outside, hlinks]
  obtain ⟨hmid, howners⟩ := Graph.declare_ok hdeclare
  have hold := h.shows hpending
  have hmodule : ∀ i, (mid.setModule helperModuleId helper.linked).module? i =
      if i = helperModuleId then some helper.linked else g.module? i := by
    intro i
    rw [Graph.module?_setModule, ← hmid]
    rfl
  have horder : mid.order = g.order := by rw [← hmid]
  have hexternals : mid.externals = g.externals := by rw [← hmid]
  exact {
    order_eq := by simp [Graph.putBefore, horder, h.order_eq, hid]
    done_modules := by
      intro p hp
      obtain rfl := List.mem_singleton.mp hp
      rw [← LinkedPart.linked_of_late hlate]
      exact (hmodule p.id).trans (if_pos hid)
    rest_modules := fun p hp => ((hmodule p.id).trans (if_neg (h.ne_helper hp))).trans
      (hold.rest_modules p hp)
    owner_iff := by
      intro name id
      refine (howners name id).trans ?_
      rw [hold.owner_iff name id, or_comm, eq_comm]
      simp [hclaims, hid]
    mem_externals := by
      intro i
      have := hold.mem_externals i
      simpa [houtside, Graph.putBefore, Graph.setModule, hexternals] using this }

variable {ids : List String}

/-- The names that are claimed are the ones of the parts. -/
theorem Graph.Holds.mem_owned (h : g.Holds project facts t) (name : String) :
    name ∈ g.owners.map (·.1) ↔ ∃ p ∈ t.parts, name ∈ p.claims := by
  have hlookup : name ∈ g.owners.map (·.1) ↔ ∃ id, g.owners.lookup name = some id := by
    rw [← Option.isSome_iff_exists, List.lookup_isSome_iff, List.mem_map]
    constructor
    · rintro ⟨pair, hpair, rfl⟩
      exact ⟨pair, hpair, beq_self_eq_true _⟩
    · rintro ⟨pair, hpair, hname⟩
      exact ⟨pair, hpair, (beq_iff_eq.mp hname).symm⟩
  rw [hlookup]
  constructor
  · rintro ⟨id, hid⟩
    obtain ⟨p, hp, -, hclaims⟩ := (h.owner_iff name id).mp hid
    exact ⟨p, hp, hclaims⟩
  · rintro ⟨p, hp, hclaims⟩
    exact ⟨p.id, (h.owner_iff name p.id).mpr ⟨p, hp, rfl, hclaims⟩⟩

/-- The helper module as a part. -/
def helperPart (code : String) (record : ModuleRecord) : LinkedPart :=
  ⟨helperModuleId, code, helperDefaultLocal, record, []⟩

/-- Links the helper module before all others, and the modules that wait for it. -/
def Graph.linkBefore (g : Graph) (helper : LinkedPart) : Except BundleError Graph := do
  let mid ← g.declare helperModuleId helper.record.declared
  (mid.putBefore helper).order.foldlM Graph.linkWaiting (mid.putBefore helper)

theorem Graph.linkHelpers_eq (g : Graph) : g.linkHelpers project =
    if g.deferred.isEmpty then .ok g
    else helperModule project (g.owners.map (·.1)) >>= fun text =>
      g.linkBefore (helperPart text.1 text.2) := by
  have hlinked : ∀ code record, (helperPart code record).linked =
      ⟨applyEdits code record.edits, lastOfEach record.exports⟩ := by
    intro code record
    simp [helperPart, LinkedPart.linked, LinkedPart.late, LinkedPart.edits, LinkedPart.early,
      LinkedPart.exports]
  simp only [Graph.linkBefore, Graph.putBefore, hlinked]
  rfl

/-- The other modules are linked once the helper module is there. -/
theorem Graph.Holds.linkBefore_eq (h : g.Holds project facts t) {helper : LinkedPart} {mid : Graph}
    (hdeclare : g.declare helperModuleId helper.record.declared = .ok mid) :
    (mid.putBefore helper).order.foldlM Graph.linkWaiting (mid.putBefore helper) =
      (t.parts.map (·.id)).foldlM Graph.linkWaiting (mid.putBefore helper) := by
  obtain ⟨hmid, -⟩ := Graph.declare_ok hdeclare
  have hnone : (mid.putBefore helper).deferred.lookup helperModuleId = none := by
    have hsame : (mid.putBefore helper).deferred = g.deferred := by
      rw [← hmid]
      rfl
    rw [hsame, h.deferred_eq]
    exact lookup_deferred_of_not_part fun p hp => h.ne_helper hp
  have horder : (mid.putBefore helper).order = helperModuleId :: t.parts.map (·.id) := by
    rw [← hmid, ← h.order_eq]
    rfl
  rw [horder, List.foldlM_cons, Graph.linkWaiting_of_none hnone]
  rfl

theorem Graph.Holds.lookup_putBefore (h : g.Holds project facts t) {helper : LinkedPart} {mid : Graph}
    (hdeclare : g.declare helperModuleId helper.record.declared = .ok mid) :
    ∀ p ∈ t.parts, (mid.putBefore helper).deferred.lookup p.id =
      if p.late = [] then none else some ⟨p.source, p.edits, p.late.map (·.record)⟩ := by
  intro p hp
  obtain ⟨hmid, -⟩ := Graph.declare_ok hdeclare
  have hsame : (mid.putBefore helper).deferred = g.deferred := by
    rw [← hmid]
    rfl
  rw [hsame, h.deferred_eq]
  exact lookup_deferred h.ids_nodup hp

theorem Graph.Holds.ids_nodup_helper (h : g.Holds project facts t) {helper : LinkedPart}
    (hid : helper.id = helperModuleId) : (([helper] ++ t.parts).map (·.id)).Nodup := by
  rw [List.singleton_append, List.map_cons, List.nodup_cons]
  refine ⟨?_, h.ids_nodup⟩
  rw [List.mem_map, hid]
  rintro ⟨p, hp, heq⟩
  exact h.ne_helper hp heq

/-- What linking the helper module comes to. -/
theorem Graph.Holds.linkHelpers_ok (h : g.Holds project facts t) (hpending : t.pending = [])
    (hok : g.linkHelpers project = .ok g') :
    ∃ parts, Completed project t.parts parts ∧ g'.Shows parts [] := by
  rw [Graph.linkHelpers_eq] at hok
  by_cases hempty : g.deferred.isEmpty = true
  · rw [if_pos hempty] at hok
    obtain rfl := Except.ok.inj hok
    have hlate := (deferred_isEmpty h).mp hempty
    exact ⟨t.parts, .alone hlate, by simpa using (h.shows hpending).complete hlate⟩
  · rw [if_neg hempty] at hok
    have hused : ∃ p ∈ t.parts, p.late ≠ [] := by simpa using mt (deferred_isEmpty h).mpr hempty
    obtain ⟨⟨code, record⟩, htext, hok⟩ := bind_eq_ok.mp hok
    obtain ⟨mid, hdeclare, hok⟩ := bind_eq_ok.mp hok
    have hpart : HelperPart project t.parts (helperPart code record) :=
      ⟨rfl, rfl, rfl, g.owners.map (·.1), h.mem_owned, htext⟩
    rw [h.linkBefore_eq hdeclare] at hok
    obtain ⟨hshows, hexported⟩ := (h.shows_helper hpending rfl rfl hdeclare).linkAll_ok
      (h.ids_nodup_helper rfl) (List.mem_singleton_self _) rfl rfl (h.lookup_putBefore hdeclare) hok
    exact ⟨_, .withHelpers hused hpart hexported, hshows⟩

/-- Why linking the helper module fails. -/
theorem Graph.Holds.linkHelpers_error (h : g.Holds project facts t) (hpending : t.pending = [])
    {e : BundleError} (herror : g.linkHelpers project = .error e) : HelperFailure project t.parts e := by
  rw [Graph.linkHelpers_eq] at herror
  by_cases hempty : g.deferred.isEmpty = true
  · rw [if_pos hempty] at herror
    cases herror
  · rw [if_neg hempty] at herror
    rcases bind_eq_error.mp herror with hanalysis | ⟨⟨code, record⟩, htext, herror⟩
    · exact .analysis h.mem_owned hanalysis
    have hpart : HelperPart project t.parts (helperPart code record) :=
      ⟨rfl, rfl, rfl, g.owners.map (·.1), h.mem_owned, htext⟩
    rcases bind_eq_error.mp herror with hdeclare | ⟨mid, hdeclare, herror⟩
    · obtain ⟨name, hdeclared, first, hne, howner, rfl⟩ := Graph.declare_error hdeclare
      obtain ⟨p, hp, rfl, hclaims⟩ := (h.owner_iff name first).mp howner
      exact .conflict hpart hp hclaims hdeclared
    rw [h.linkBefore_eq hdeclare] at herror
    obtain ⟨p, hp, hfail⟩ := (h.shows_helper hpending rfl rfl hdeclare).linkAll_error
      (h.ids_nodup_helper rfl) (List.mem_singleton_self _) rfl rfl (h.lookup_putBefore hdeclare) herror
    rcases hfail with ⟨link, hlink, haliases⟩ | ⟨name, hname, q, hq, hne, hclaims, rfl⟩
    · obtain ⟨b, hb, name, himported, hlookup, rfl⟩ := LinkedModule.aliases_error haliases
      exact .missing hpart hp hlink hb himported hlookup
    · exact .lateConflict hpart hp hname hq hne hclaims

end Helpers

end ModuleBuild
