import Mathlib
import ModuleBuild.Proofs.Linking.Part

/-!
# The state of linking

A graph holds a list of parts if its fields say the same as the parts do. The operations on graphs keep
it so.

## Main definitions

* `LinkTrace` — what linking has come to, as parts and as the order in which modules were started.
* `Graph.Holds` — a graph says what a trace says.

## Main statements

* `Graph.declare_ok`, `Graph.declare_error` — names are claimed by one module each, or two modules
  claim the same one.
* `Graph.Holds.finish` — a module that is put in place is one more part.
-/

namespace ModuleBuild

/-- What linking has come to. -/
structure LinkTrace where
  parts : List LinkedPart := []
  /-- The modules in the order in which they were started. -/
  started : List String := []
  /-- The imports that stay, of modules that are not linked yet. -/
  pending : List (String × String) := []

/-- The default value of a part without a name is named by its place among the modules started. -/
def LinkedPart.Numbered (started : List String) (p : LinkedPart) : Prop :=
  ∃ n, started[n]? = some p.id ∧ p.defaultLocal = "_default" ++ toString (n + 1)

theorem LinkedPart.Numbered.mono {started more : List String} {p : LinkedPart}
    (h : p.Numbered started) (hmore : started <+: more) : p.Numbered more := by
  obtain ⟨n, hn, hlocal⟩ := h
  have hlt : n < started.length := (List.getElem?_eq_some_iff.mp hn).1
  refine ⟨n, ?_, hlocal⟩
  rw [← hn, List.prefix_iff_getElem?.mp hmore n hlt, List.getElem?_eq_getElem hlt]

/-- Nothing is taken out of modules among which one is not. -/
theorem filter_ne_of_not_mem {ids : List String} {id : String} (h : id ∉ ids) : ids.filter (· != id) = ids := by
  rw [List.filter_eq_self]
  intro other hother
  have hne : other ≠ id := fun heq => h (heq ▸ hother)
  simpa using hne

/-! ## Claiming names -/

namespace Graph

variable {g g' : Graph} {id : String}

theorem declareName_ok {name : String} (h : g.declareName id name = .ok g') :
    { g with owners := g'.owners } = g' ∧ ∀ other owner, g'.owners.lookup other = some owner ↔
      g.owners.lookup other = some owner ∨ (owner = id ∧ other = name) := by
  unfold declareName at h
  cases hlookup : g.owners.lookup name with
  | some first =>
    simp only [hlookup] at h
    split at h
    · rename_i hfirst
      obtain rfl : first = id := by simpa using hfirst
      obtain rfl := Except.ok.inj h
      refine ⟨rfl, fun other owner => ⟨Or.inl, ?_⟩⟩
      rintro (hother | ⟨rfl, rfl⟩)
      · exact hother
      · exact hlookup
    · cases h
  | none =>
    simp only [hlookup] at h
    obtain rfl := Except.ok.inj h
    refine ⟨rfl, fun other owner => ?_⟩
    rw [List.lookup_cons]
    by_cases hother : other = name
    · subst hother
      simp [hlookup, eq_comm]
    · have hbeq : (other == name) = false := by simpa using hother
      simp [hbeq, hother]

theorem declareName_error {name : String} {e : BundleError}
    (h : g.declareName id name = .error e) :
    ∃ first, first ≠ id ∧ g.owners.lookup name = some first ∧ e = .nameConflict name first id := by
  unfold declareName at h
  cases hlookup : g.owners.lookup name with
  | some first =>
    simp only [hlookup] at h
    split at h
    · cases h
    · rename_i hfirst
      exact ⟨first, by simpa using hfirst, rfl, (Except.error.inj h).symm⟩
  | none =>
    simp only [hlookup] at h
    cases h

/-- Names that are claimed belong to the module from then on, and nothing else changes. -/
theorem declare_ok {names : List String} (h : g.declare id names = .ok g') :
    { g with owners := g'.owners } = g' ∧ ∀ name owner, g'.owners.lookup name = some owner ↔
      g.owners.lookup name = some owner ∨ (owner = id ∧ name ∈ names) := by
  unfold declare at h
  induction names generalizing g with
  | nil =>
    obtain rfl := Except.ok.inj h
    simp
  | cons name names ih =>
    rw [List.foldlM_cons] at h
    obtain ⟨mid, hone, hrest⟩ := bind_eq_ok.mp h
    obtain ⟨hmid, hone⟩ := declareName_ok hone
    obtain ⟨hrest, hmany⟩ := ih hrest
    refine ⟨by rw [← hrest, ← hmid], fun other owner => ?_⟩
    rw [hmany, hone, List.mem_cons]
    tauto

/-- Names that cannot be claimed contain one that another module owns. -/
theorem declare_error {names : List String} {e : BundleError} (h : g.declare id names = .error e) :
    ∃ name ∈ names, ∃ first, first ≠ id ∧ g.owners.lookup name = some first ∧
      e = .nameConflict name first id := by
  unfold declare at h
  induction names generalizing g with
  | nil => cases h
  | cons name names ih =>
    rw [List.foldlM_cons] at h
    rcases bind_eq_error.mp h with hone | ⟨mid, hone, hrest⟩
    · obtain ⟨first, hne, hlookup, he⟩ := declareName_error hone
      exact ⟨name, List.mem_cons_self, first, hne, hlookup, he⟩
    · obtain ⟨other, hmem, first, hne, hlookup, he⟩ := ih hrest
      have hold : g.owners.lookup other = some first := by
        rcases ((declareName_ok hone).2 other first).mp hlookup with hold | ⟨hid, -⟩
        · exact hold
        · exact absurd hid hne
      exact ⟨other, List.mem_cons_of_mem _ hmem, first, hne, hold, he⟩

theorem module?_setModule (g : Graph) (k i : String) (linked : LinkedModule) :
    (g.setModule k linked).module? i = if i = k then some linked else g.module? i :=
  lookup_replace k i linked g.modules

/-- What stands for an import of a module that is linked. -/
theorem importText_of_module? {linked : LinkedModule} (h : g.module? id = some linked)
    (r : ImportRecord) : g.importText id r =
      (fun pairs => (LinkedModule.aliasLines pairs, pairs.map (·.1))) <$>
        linked.aliases id r.bindings := by
  unfold importText
  rw [h]
  rfl

end Graph

/-! ## Graphs and traces -/

section Holds

variable {m : Type → Type} (project : Project m) (facts : Project.Facts)

/-- A graph says what a trace says. -/
structure Graph.Holds (g : Graph) (t : LinkTrace) : Prop where
  order_eq : g.order = t.parts.map (·.id)
  module_iff : ∀ id linked, g.module? id = some linked ↔ ∃ p ∈ t.parts, p.id = id ∧ p.linked = linked
  owner_iff : ∀ name id, g.owners.lookup name = some id ↔ ∃ p ∈ t.parts, p.id = id ∧ name ∈ p.claims
  deferred_eq : g.deferred = t.parts.filterMap (·.deferred?)
  mem_externals : ∀ i, i ∈ g.externals ↔ i ∈ t.pending ∨ ∃ p ∈ t.parts, i ∈ p.outside
  linked : LinkedInOrder project facts t.parts
  started_perm : t.started.Perm (g.order ++ g.visiting)
  started_nodup : t.started.Nodup
  numbered : ∀ p ∈ t.parts, p.Numbered t.started

variable {project facts} {g g' : Graph} {t : LinkTrace} {id : String}

namespace Graph.Holds

theorem empty : Graph.Holds project facts {} {} where
  order_eq := rfl
  module_iff := by simp [Graph.module?]
  owner_iff := by simp
  deferred_eq := rfl
  mem_externals := by simp
  linked := by
    intro earlier p later heq
    simp at heq
  started_perm := List.Perm.refl _
  started_nodup := List.nodup_nil
  numbered := by simp

theorem mem_started (h : g.Holds project facts t) :
    id ∈ t.started ↔ (∃ p ∈ t.parts, p.id = id) ∨ id ∈ g.visiting := by
  rw [h.started_perm.mem_iff, List.mem_append, h.order_eq, List.mem_map]

theorem isSome_module? (h : g.Holds project facts t) :
    (g.module? id).isSome ↔ ∃ p ∈ t.parts, p.id = id := by
  constructor
  · intro hsome
    obtain ⟨linked, hlinked⟩ := Option.isSome_iff_exists.mp hsome
    obtain ⟨p, hp, hid, -⟩ := (h.module_iff id linked).mp hlinked
    exact ⟨p, hp, hid⟩
  · rintro ⟨p, hp, hid⟩
    exact Option.isSome_iff_exists.mpr ⟨p.linked, (h.module_iff id p.linked).mpr ⟨p, hp, hid, rfl⟩⟩

/-- A module that waits is no part yet. -/
theorem not_part_of_visiting (h : g.Holds project facts t) (hid : id ∈ g.visiting) :
    ¬ ∃ p ∈ t.parts, p.id = id := by
  rintro ⟨p, hp, hpid⟩
  have hnodup := h.started_perm.nodup_iff.mp h.started_nodup
  refine (List.nodup_append.mp hnodup).2.2 id ?_ id hid rfl
  rw [h.order_eq, List.mem_map]
  exact ⟨p, hp, hpid⟩

theorem visiting_nodup (h : g.Holds project facts t) : g.visiting.Nodup :=
  (List.nodup_append.mp (h.started_perm.nodup_iff.mp h.started_nodup)).2.1

theorem ids_nodup (h : g.Holds project facts t) : (t.parts.map (·.id)).Nodup :=
  h.order_eq ▸ (List.nodup_append.mp (h.started_perm.nodup_iff.mp h.started_nodup)).1

theorem length_started (h : g.Holds project facts t) :
    t.started.length = g.order.length + g.visiting.length := by
  rw [h.started_perm.length_eq, List.length_append]

/-- What stands for an import comes from the part that it names. -/
theorem importText (h : g.Holds project facts t) {q : LinkedPart} (hq : q ∈ t.parts)
    (r : ImportRecord) : g.importText q.id r =
      (fun pairs => (LinkedModule.aliasLines pairs, pairs.map (·.1))) <$>
        q.linked.aliases q.id r.bindings :=
  Graph.importText_of_module? ((h.module_iff q.id q.linked).mpr ⟨q, hq, rfl, rfl⟩) r

/-- A module that is started waits from then on. -/
theorem start (h : g.Holds project facts t) (hid : id ∉ t.started) :
    Graph.Holds project facts { g with visiting := id :: g.visiting.filter (· != id) }
      { t with started := t.started ++ [id] } ∧ g.visiting.filter (· != id) = g.visiting := by
  have hvisiting : g.visiting.filter (· != id) = g.visiting :=
    filter_ne_of_not_mem fun hwaits => hid (h.mem_started.mpr (.inr hwaits))
  refine ⟨?_, hvisiting⟩
  rw [hvisiting]
  exact {
    order_eq := h.order_eq
    module_iff := h.module_iff
    owner_iff := h.owner_iff
    deferred_eq := h.deferred_eq
    mem_externals := h.mem_externals
    linked := h.linked
    started_perm := by
      have hmiddle : (g.order ++ id :: g.visiting).Perm (id :: (g.order ++ g.visiting)) :=
        List.perm_middle
      exact (List.perm_append_singleton id t.started).trans
        ((h.started_perm.cons id).trans hmiddle.symm)
    started_nodup := by
      rw [← List.concat_eq_append]
      exact h.started_nodup.concat hid
    numbered := fun p hp => (h.numbered p hp).mono (List.prefix_append _ _) }

/-- An import that stays waits with its module. -/
theorem addExternal (h : g.Holds project facts t) (i : String × String) :
    Graph.Holds project facts { g with externals := g.externals ++ [i] }
      { t with pending := t.pending ++ [i] } where
  order_eq := h.order_eq
  module_iff := h.module_iff
  owner_iff := h.owner_iff
  deferred_eq := h.deferred_eq
  mem_externals j := by
    simp only [List.mem_append, h.mem_externals j, List.mem_singleton]
    exact or_right_comm
  linked := h.linked
  started_perm := h.started_perm
  started_nodup := h.started_nodup
  numbered := h.numbered

end Graph.Holds

/-! ## Putting a module in place -/

/-- What putting a module in place changes. -/
theorem Graph.finish_ok {p : LinkedPart}
    (h : g.finish p.id p.source p.record.exports p.importState = .ok g') :
    ∃ owners, (∀ name owner, owners.lookup name = some owner ↔
        g.owners.lookup name = some owner ∨ (owner = p.id ∧ name ∈ p.claims)) ∧
      g' = { g with
        modules := (g.setModule p.id p.linked).modules
        owners
        visiting := g.visiting.filter (· != p.id)
        order := g.order ++ [p.id]
        deferred := g.deferred ++ p.deferred?.toList } := by
  unfold Graph.finish at h
  obtain ⟨mid, hdeclare, h⟩ := bind_eq_ok.mp h
  obtain ⟨hmid, howners⟩ := Graph.declare_ok hdeclare
  refine ⟨mid.owners, howners, ?_⟩
  obtain rfl := Except.ok.inj h
  rw [← hmid]
  by_cases hlate : p.late.isEmpty = true
  · simp [hlate, Graph.setModule, LinkedPart.linked, LinkedPart.deferred?, LinkedPart.exports,
      LinkedPart.importState]
  · simp [hlate, Graph.setModule, LinkedPart.linked, LinkedPart.deferred?, LinkedPart.exports,
      LinkedPart.importState]

/-- A module cannot be put in place only if it claims a name of another one. -/
theorem Graph.finish_error {p : LinkedPart} {e : BundleError}
    (h : g.finish p.id p.source p.record.exports p.importState = .error e) :
    ∃ name ∈ p.claims, ∃ first, first ≠ p.id ∧ g.owners.lookup name = some first ∧
      e = .nameConflict name first p.id := by
  unfold Graph.finish at h
  rcases bind_eq_error.mp h with hdeclare | ⟨mid, -, h⟩
  · exact Graph.declare_error hdeclare
  · cases h

/-- A module that is put in place is one more part; its imports wait no longer. -/
theorem Graph.Holds.finish {p : LinkedPart} {visiting : List String} {pending : List (String × String)}
    (h : g.Holds project facts { t with pending := pending ++ p.outside })
    (hvisiting : g.visiting = p.id :: visiting) (hp : p.LinkedBehind project facts t.parts)
    (hnumbered : p.Numbered t.started)
    (hfinish : g.finish p.id p.source p.record.exports p.importState = .ok g') :
    g'.Holds project facts { t with parts := t.parts ++ [p], pending } ∧ g'.visiting = visiting := by
  have hnew : ∀ q ∈ t.parts, q.id ≠ p.id := fun q hq hid =>
    h.not_part_of_visiting (by simp [hvisiting]) ⟨q, hq, hid⟩
  have hrest : g.visiting.filter (· != p.id) = visiting := by
    have hnot : p.id ∉ visiting := (List.nodup_cons.mp (hvisiting ▸ h.visiting_nodup)).1
    rw [hvisiting, List.filter_cons_of_neg (by simp), filter_ne_of_not_mem hnot]
  obtain ⟨owners, howners, rfl⟩ := Graph.finish_ok hfinish
  refine ⟨?_, hrest⟩
  exact {
    order_eq := by simp [h.order_eq]
    module_iff := by
      intro id linked
      change (g.setModule p.id p.linked).module? id = some linked ↔ _
      rw [g.module?_setModule]
      by_cases hid : id = p.id
      · subst hid
        simp only [if_true, Option.some.injEq, List.mem_append, List.mem_singleton]
        constructor
        · intro hlinked
          exact ⟨p, .inr rfl, rfl, hlinked⟩
        · rintro ⟨q, hq | rfl, hqid, hlinked⟩
          · exact absurd hqid (hnew q hq)
          · exact hlinked
      · rw [if_neg hid, h.module_iff]
        simp [or_and_right, exists_or, Ne.symm hid]
    owner_iff := by
      intro name id
      rw [howners, h.owner_iff]
      simp [or_and_right, exists_or, eq_comm]
    deferred_eq := by
      rw [h.deferred_eq, List.filterMap_append]
      cases hdeferred : p.deferred? with
      | none => simp [hdeferred]
      | some d => simp [hdeferred]
    mem_externals := by
      intro i
      refine (h.mem_externals i).trans ?_
      simp [or_and_right, exists_or, or_assoc, or_comm]
    linked := h.linked.concat hp
    started_perm := by
      have hmiddle : (g.order ++ p.id :: visiting).Perm (g.order ++ [p.id] ++ visiting) := by simp
      rw [hrest]
      exact (hvisiting ▸ h.started_perm).trans hmiddle
    started_nodup := h.started_nodup
    numbered := by
      intro q hq
      rcases List.mem_append.mp hq with hq | hq
      · exact h.numbered q hq
      · obtain rfl := List.mem_singleton.mp hq
        exact hnumbered }

end Holds

end ModuleBuild
