import ModuleBuild.Proofs.Helper.Closure

/-!
# The order of closures

The search for the helpers that names need comes to an end on every registry, also where helpers call each other
in circles. Where they do not, it finds each helper when it is needed first: the helpers come in the order in
which one would write them who does not look at what is written already, each where it stands first.

## Main definitions

* `Registry.Explores` — the search as a recursion that nothing bounds.
* `Registry.Acyclic` — no helper calls itself, directly or through others.
* `Registry.Needs` — all that names need, dependencies first, with repetitions.

## Main statements

* `Registry.explores_foldl_visit` — the search comes to an end, and the bound cuts nothing off.
* `Registry.Explores.eraseDups_found` — without circles, a search finds what is needed, each where it is needed first.
* `Registry.closure_in_order` — the order of a closure.
-/

namespace ModuleBuild

/-! ## Repetitions -/

section EraseDups

variable {α : Type*} [BEq α] [LawfulBEq α] {xs xs' ys : List α}

theorem eraseDups_eq_self (h : xs.Nodup) : xs.eraseDups = xs := by
  induction xs with
  | nil => rfl
  | cons x xs ih =>
    obtain ⟨hx, hxs⟩ := List.nodup_cons.1 h
    have hkeep : xs.filter (fun y => !y == x) = xs :=
      List.filter_eq_self.2 fun y hy => by simpa using fun heq : y = x => hx (heq ▸ hy)
    rw [List.eraseDups_cons, hkeep, ih hxs]

theorem eraseDups_append_of_subset (h : ys ⊆ xs) : (xs ++ ys).eraseDups = xs.eraseDups := by
  have hnone : ys.removeAll xs = [] :=
    List.filter_eq_nil_iff.2 fun y hy => by simpa using h hy
  rw [List.eraseDups_append, hnone, List.eraseDups_nil, List.append_nil]

theorem eraseDups_append_congr (h : xs.eraseDups = xs'.eraseDups) (ys : List α) :
    (xs ++ ys).eraseDups = (xs' ++ ys).eraseDups := by
  have hmem : ∀ y, y ∈ xs ↔ y ∈ xs' := fun y => by rw [← List.mem_eraseDups, h, List.mem_eraseDups]
  have hrest : ys.removeAll xs = ys.removeAll xs' := List.filter_congr fun y _ => by
    rw [Bool.eq_iff_iff]
    simp [hmem]
  rw [List.eraseDups_append, List.eraseDups_append, h, hrest]

end EraseDups

namespace Registry

variable {registry : Registry} {s s' : Search} {fuel : Nat} {name : String} {names : List String} {h : Helper}

/-! ## The search without a bound -/

/-- The search for names, one by one, as a recursion that nothing bounds: unknown names and helpers that were
entered are passed over, and another helper is entered, then what it depends on is searched, then it is left. -/
inductive Explores (registry : Registry) : Search → List String → Search → Prop
  | nil {s : Search} : Explores registry s [] s
  | unknown {s s' : Search} {name : String} {names : List String} (hget : registry.get? name = none)
      (rest : Explores registry s names s') : Explores registry s (name :: names) s'
  | again {s s' : Search} {name : String} {names : List String} {h : Helper} (hget : registry.get? name = some h)
      (hentered : h.name ∈ s.entered) (rest : Explores registry s names s') :
      Explores registry s (name :: names) s'
  | enter {s inner s' : Search} {name : String} {names : List String} {h : Helper}
      (hget : registry.get? name = some h) (hnew : h.name ∉ s.entered)
      (inside : Explores registry { s with entered := h.name :: s.entered } h.dependencies inner)
      (rest : Explores registry { inner with found := inner.found ++ [h] } names s') :
      Explores registry s (name :: names) s'

/-- A search comes to one end only. -/
theorem Explores.unique (hs : registry.Explores s names s') {other : Search}
    (hother : registry.Explores s names other) : other = s' := by
  induction hs generalizing other with
  | nil =>
    cases hother
    rfl
  | unknown hget _ ih =>
    cases hother with
    | unknown _ rest => exact ih rest
    | again hget' | enter hget' => simp [hget] at hget'
  | again hget hentered _ ih =>
    cases hother with
    | unknown hget' => simp [hget] at hget'
    | again _ _ rest => exact ih rest
    | enter hget' hnew =>
      obtain rfl := Option.some.inj (hget.symm.trans hget')
      exact absurd hentered hnew
  | enter hget hnew _ _ ihinside ihrest =>
    cases hother with
    | unknown hget' => simp [hget] at hget'
    | again hget' hentered =>
      obtain rfl := Option.some.inj (hget.symm.trans hget')
      exact absurd hentered hnew
    | enter hget' _ inside rest =>
      obtain rfl := Option.some.inj (hget.symm.trans hget')
      obtain rfl := ihinside inside
      exact ihrest rest

/-- A search with fuel for all that is ahead of it is the search without a bound. -/
theorem explores_foldl_visit (hfuel : (registry.ahead s).length < fuel) (names : List String) :
    registry.Explores s names (names.foldl (registry.visit fuel) s) := by
  induction fuel generalizing s names with
  | zero => exact absurd hfuel (Nat.not_lt_zero _)
  | succ fuel ihfuel =>
    induction names generalizing s with
    | nil => exact .nil
    | cons name rest ih =>
      have hrest := ih (s := registry.visit (fuel + 1) s name)
        (Nat.lt_of_le_of_lt (grows_visit (fuel + 1) s name).ahead_le hfuel)
      rw [List.foldl_cons]
      revert hrest
      rw [visit]
      cases hget : registry.get? name with
      | none => exact .unknown hget
      | some h =>
        dsimp only
        split
        · rename_i hentered
          exact .again hget (by simpa using hentered)
        · rename_i hentered
          have hnew : h.name ∉ s.entered := by simpa using hentered
          have hless := ahead_enter_lt (s := s) ((name_of_get? hget).symm ▸ hget) hnew
          exact .enter hget hnew (ihfuel (by omega) h.dependencies)

theorem Explores.eq_foldl (hs : registry.Explores s names s') :
    s' = names.foldl (registry.visit (registry.length + 1)) s :=
  (explores_foldl_visit (Nat.lt_succ_of_le (length_ahead_le registry s)) names).unique hs

theorem Explores.grows (hs : registry.Explores s names s') : Search.Grows registry s s' :=
  hs.eq_foldl ▸ Search.Grows.foldl (grows_visit _) names s

/-! ## More names -/

/-- More names behind some names add helpers behind theirs. -/
theorem closure_append (names more : List String) :
    registry.closure names <+: registry.closure (names ++ more) := by
  obtain ⟨added, hadded, -⟩ := (Search.Grows.foldl (grows_visit (registry.length + 1)) more
    (names.foldl (registry.visit (registry.length + 1)) ⟨[], []⟩)).found
  rw [closure, closure, List.foldl_append]
  exact ⟨added, hadded.symm⟩

/-- More names before some names add helpers. -/
theorem closure_subset (more names : List String) :
    registry.closure names ⊆ registry.closure (more ++ names) := by
  intro h hmem
  obtain ⟨hget, name, hname, hcalls⟩ := mem_closure_iff.1 hmem
  exact mem_closure_iff.2 ⟨hget, name, List.mem_append_right more hname, hcalls⟩

/-! ## Registries without circles -/

/-- No helper calls itself, directly or through others. -/
def Acyclic (registry : Registry) : Prop :=
  ∀ name, ¬ Relation.TransGen registry.Calls name name

/-- Helpers that call only helpers of a lower rank do not call in circles. -/
theorem acyclic_of_rank (rank : String → Nat)
    (hrank : ∀ name called, registry.Calls name called → rank called < rank name) : registry.Acyclic := by
  have hlower : ∀ name called, Relation.TransGen registry.Calls name called → rank called < rank name := by
    intro name called hcalls
    induction hcalls with
    | single hcall => exact hrank _ _ hcall
    | tail _ hcall ih => exact Nat.lt_trans (hrank _ _ hcall) ih
  exact fun name hcalls => Nat.lt_irrefl _ (hlower name name hcalls)

/-- All that names need, one name after another: what a helper depends on, and the helper behind it, whatever was
needed before. -/
inductive Needs (registry : Registry) : List String → List Helper → Prop
  | nil : Needs registry [] []
  | unknown {name : String} {names : List String} {needed : List Helper} (hget : registry.get? name = none)
      (rest : Needs registry names needed) : Needs registry (name :: names) needed
  | helper {name : String} {names : List String} {h : Helper} {own more : List Helper}
      (hget : registry.get? name = some h) (inside : Needs registry h.dependencies own)
      (rest : Needs registry names more) : Needs registry (name :: names) (own ++ h :: more)

namespace Needs

variable {needed : List Helper}

theorem unique (hn : registry.Needs names needed) {other : List Helper} (hother : registry.Needs names other) :
    other = needed := by
  induction hn generalizing other with
  | nil =>
    cases hother
    rfl
  | unknown hget _ ih =>
    cases hother with
    | unknown _ rest => exact ih rest
    | helper hget' => simp [hget] at hget'
  | helper hget _ _ ihinside ihrest =>
    cases hother with
    | unknown hget' => simp [hget] at hget'
    | helper hget' inside rest =>
      obtain rfl := Option.some.inj (hget.symm.trans hget')
      obtain rfl := ihinside inside
      obtain rfl := ihrest rest
      rfl

/-- Names need the helpers that they name. -/
theorem mem_of_mem (hn : registry.Needs names needed) (hmem : name ∈ names) (hget : registry.get? name = some h) :
    h ∈ needed := by
  induction hn with
  | nil => cases hmem
  | unknown hget' _ ih =>
    rcases List.mem_cons.1 hmem with rfl | hmem
    · simp [hget] at hget'
    · exact ih hmem
  | helper hget' _ _ _ ih =>
    rcases List.mem_cons.1 hmem with rfl | hmem
    · obtain rfl := Option.some.inj (hget.symm.trans hget')
      simp
    · exact List.mem_append_right _ (List.mem_cons_of_mem _ (ih hmem))

end Needs

/-- Each of these helpers stands behind all that it needs. -/
def Settled (registry : Registry) (found : List Helper) : Prop :=
  ∀ before h after, found = before ++ h :: after →
    registry.get? h.name = some h ∧ ∃ own, registry.Needs h.dependencies own ∧ own ⊆ before

theorem Settled.concat {found own : List Helper} (hfound : registry.Settled found)
    (hget : registry.get? h.name = some h) (hneeds : registry.Needs h.dependencies own) (hsub : own ⊆ found) :
    registry.Settled (found ++ [h]) := by
  intro before g after hsplit
  rcases List.eq_nil_or_concat after with rfl | ⟨after, last, rfl⟩
  · obtain ⟨rfl, hlast⟩ := List.append_inj' hsplit rfl
    obtain rfl := List.singleton_inj.1 hlast
    exact ⟨hget, own, hneeds, hsub⟩
  · refine hfound before g after ?_
    rw [List.concat_eq_append, ← List.cons_append, ← List.append_assoc] at hsplit
    exact (List.append_inj' hsplit rfl).1

/-- What a helper needs that is found is found too. -/
theorem Settled.exists_needs {found : List Helper} (hfound : registry.Settled found) (hmem : h ∈ found) :
    registry.get? h.name = some h ∧ ∃ own, registry.Needs h.dependencies own ∧ own ++ [h] ⊆ found := by
  obtain ⟨before, after, hsplit⟩ := List.append_of_mem hmem
  obtain ⟨hget, own, hown, hsub⟩ := hfound before h after hsplit
  refine ⟨hget, own, hown, ?_⟩
  rw [hsplit]
  exact List.append_subset.2 ⟨List.subset_append_of_subset_left _ hsub, by simp⟩

/-- A helper that a search entered is found, or it waits for all of these names: it calls each of them, directly or
through others. -/
def Search.Pending (registry : Registry) (s : Search) (names : List String) : Prop :=
  ∀ n ∈ s.entered, (∃ h ∈ s.found, h.name = n) ∨ ∀ name ∈ names, Relation.TransGen registry.Calls n name

namespace Search.Pending

theorem tail (hp : s.Pending registry (name :: names)) : s.Pending registry names := fun n hn =>
  (hp n hn).imp_right fun hcalls called hcalled => hcalls called (List.mem_cons_of_mem _ hcalled)

/-- A helper that is entered waits for what it depends on, and so do all that waited for it. -/
theorem enter (hp : s.Pending registry (name :: names)) (hget : registry.get? name = some h) :
    Search.Pending registry { s with entered := h.name :: s.entered } h.dependencies := by
  intro n hn
  rcases List.mem_cons.1 hn with rfl | hn
  · exact .inr fun called hcalled => .single ⟨h, (name_of_get? hget).symm ▸ hget, hcalled⟩
  · refine (hp n hn).imp_right fun hcalls called hcalled => ?_
    exact (hcalls name List.mem_cons_self).tail ⟨h, hget, hcalled⟩

/-- A helper that is left waits no longer. -/
theorem leave (hp : s.Pending registry (name :: names))
    (hgrows : Search.Grows registry { s with entered := h.name :: s.entered } s') :
    Search.Pending registry { s' with found := s'.found ++ [h] } names := by
  intro n hn
  rcases hgrows.left n hn with hn | ⟨g, hg, hname⟩
  · rcases List.mem_cons.1 hn with rfl | hn
    · exact .inl ⟨h, by simp, rfl⟩
    · refine (hp.tail n hn).imp_left ?_
      rintro ⟨g, hg, hname⟩
      exact ⟨g, List.mem_append_left _ (hgrows.found_subset hg), hname⟩
  · exact .inl ⟨g, List.mem_append_left _ hg, hname⟩

/-- Without circles, a helper that is met again is found: one that waits would call itself. -/
theorem mem_found (hp : s.Pending registry (name :: names)) (hacyclic : registry.Acyclic)
    (hfound : registry.Settled s.found) (hget : registry.get? name = some h) (hentered : h.name ∈ s.entered) :
    h ∈ s.found := by
  obtain ⟨g, hg, hname⟩ := (hp h.name hentered).resolve_right fun hcalls =>
    hacyclic h.name (by simpa [name_of_get? hget] using hcalls name List.mem_cons_self)
  have hget' := (hfound.exists_needs hg).1
  rw [hname, name_of_get? hget, hget] at hget'
  exact Option.some.inj hget' ▸ hg

end Search.Pending

/-- Without circles, a search finds what is needed, each helper where it is needed first. -/
theorem Explores.eraseDups_found (hacyclic : registry.Acyclic) (hs : registry.Explores s names s')
    (hfound : registry.Settled s.found) (hp : s.Pending registry names) :
    registry.Settled s'.found ∧
      ∃ needed, registry.Needs names needed ∧ s'.found.eraseDups = (s.found ++ needed).eraseDups := by
  induction hs with
  | nil => exact ⟨hfound, [], .nil, by rw [List.append_nil]⟩
  | unknown hget _ ih =>
    obtain ⟨hfound', needed, hneeds, heq⟩ := ih hfound hp.tail
    exact ⟨hfound', needed, .unknown hget hneeds, heq⟩
  | @again _ _ _ _ h hget hentered _ ih =>
    obtain ⟨hfound', more, hmore, heq⟩ := ih hfound hp.tail
    obtain ⟨-, own, hown, hsub⟩ := hfound.exists_needs (hp.mem_found hacyclic hfound hget hentered)
    refine ⟨hfound', own ++ h :: more, .helper hget hown hmore, ?_⟩
    rw [heq, List.append_cons own, ← List.append_assoc]
    exact eraseDups_append_congr (eraseDups_append_of_subset hsub).symm more
  | @enter _ inner _ _ _ h hget hnew inside _ ihinside ihrest =>
    obtain ⟨hinner, own, hown, heq⟩ := ihinside hfound (hp.enter hget)
    have hsub : own ⊆ inner.found := fun g hg => by
      rw [← List.mem_eraseDups, heq, List.mem_eraseDups]
      exact List.mem_append_right _ hg
    have hsettled := hinner.concat ((name_of_get? hget).symm ▸ hget) hown hsub
    obtain ⟨hfound', more, hmore, hrest⟩ := ihrest hsettled (hp.leave inside.grows)
    refine ⟨hfound', own ++ h :: more, .helper hget hown hmore, ?_⟩
    have hall := eraseDups_append_congr heq (h :: more)
    rwa [hrest, List.append_assoc, List.singleton_append, ← List.append_assoc]

theorem acyclic_helperRegistry : helperRegistry.Acyclic := by
  -- No helper calls one that calls another one.
  refine acyclic_of_rank (fun name => ((helperRegistry.get? name).map (·.dependencies.length)).getD 0) ?_
  rintro name called ⟨h, hget, hcalled⟩
  have hall : ∀ h ∈ helperRegistry, ∀ called ∈ h.dependencies,
      ((helperRegistry.get? called).map (·.dependencies.length)).getD 0 < h.dependencies.length := by decide +kernel
  simpa [hget] using hall h (List.mem_of_find?_eq_some hget) called hcalled

/-- The search for helpers comes to one end, on every registry, and the closure is what it finds: each helper that
the names call for, directly or through others, once. Names behind some names add helpers behind theirs, and names
before them add helpers. If no helper calls itself, each stands behind all that it calls, and they come in the order
in which they are needed first. The helpers of this compiler are such a registry. -/
theorem closure_in_order (registry : Registry) (names : List String) :
    (∃ s, (∀ s', registry.Explores ⟨[], []⟩ names s' ↔ s' = s) ∧ registry.closure names = s.found) ∧
    ((registry.closure names).map (·.name)).Nodup ∧
    (∀ h, h ∈ registry.closure names ↔ registry.get? h.name = some h ∧ registry.Reaches names h) ∧
    (∀ more, registry.closure names <+: registry.closure (names ++ more) ∧
      registry.closure names ⊆ registry.closure (more ++ names)) ∧
    (registry.Acyclic →
      (∀ before h after, registry.closure names = before ++ h :: after →
        ∀ name ∈ h.dependencies, ∀ called, registry.get? name = some called → called ∈ before) ∧
      ∃ needed, (∀ other, registry.Needs names other ↔ other = needed) ∧
        registry.closure names = needed.eraseDups) ∧
    helperRegistry.Acyclic := by
  have hsearch := explores_foldl_visit (Nat.lt_succ_of_le (length_ahead_le registry ⟨[], []⟩)) names
  refine ⟨⟨_, fun s' => ⟨fun hs' => hsearch.unique hs', fun hs' => hs' ▸ hsearch⟩, rfl⟩,
    names_closure_nodup names, fun h => mem_closure_iff,
    fun more => ⟨closure_append names more, closure_subset more names⟩, fun hacyclic => ?_, acyclic_helperRegistry⟩
  obtain ⟨hsettled, needed, hneeds, heq⟩ := hsearch.eraseDups_found hacyclic
    (fun before h after hsplit => by simp at hsplit) fun n hn => absurd hn List.not_mem_nil
  refine ⟨fun before h after hsplit name hname called hcalled => ?_,
    needed, fun other => ⟨fun hother => hneeds.unique hother, fun hother => hother ▸ hneeds⟩, ?_⟩
  · obtain ⟨-, own, hown, hsub⟩ := hsettled before h after hsplit
    exact hsub (hown.mem_of_mem hname hcalled)
  · have hnodup : (registry.closure names).Nodup := (names_closure_nodup names).of_map
    rw [← eraseDups_eq_self hnodup]
    exact heq

/-- A name that comes twice, and one that is not known. -/
theorem closure_in_order_inherits :
    helperRegistry.Acyclic ∧
      helperRegistry.Needs ["inherits", "notAHelper", "extends", "inherits"]
        [setPrototypeOf, inheritsHelper, extendsHelper, setPrototypeOf, inheritsHelper] ∧
      helperRegistry.closure ["inherits", "notAHelper", "extends", "inherits"] =
        [setPrototypeOf, inheritsHelper, extendsHelper] := by
  have hinherits : helperRegistry.get? "inherits" = some inheritsHelper := rfl
  have hextends : helperRegistry.get? "extends" = some extendsHelper := rfl
  have hprototype : helperRegistry.get? "setPrototypeOf" = some setPrototypeOf := rfl
  have hunknown : helperRegistry.get? "notAHelper" = none := rfl
  have hown : helperRegistry.Needs inheritsHelper.dependencies [setPrototypeOf] :=
    .helper hprototype .nil .nil
  have hneeds : helperRegistry.Needs ["inherits", "notAHelper", "extends", "inherits"]
      [setPrototypeOf, inheritsHelper, extendsHelper, setPrototypeOf, inheritsHelper] :=
    .helper hinherits hown (.unknown hunknown (.helper hextends .nil (.helper hinherits hown .nil)))
  obtain ⟨-, needed, hall, heq⟩ := (closure_in_order helperRegistry
    ["inherits", "notAHelper", "extends", "inherits"]).2.2.2.2.1 acyclic_helperRegistry
  obtain rfl := (hall _).1 hneeds
  have hnodup : [setPrototypeOf, inheritsHelper, extendsHelper].Nodup := List.Nodup.of_map (·.name) (by decide)
  have hagain : [setPrototypeOf, inheritsHelper] ⊆ [setPrototypeOf, inheritsHelper, extendsHelper] := by simp
  exact ⟨acyclic_helperRegistry, hneeds,
    heq.trans ((eraseDups_append_of_subset hagain).trans (eraseDups_eq_self hnodup))⟩

end Registry

end ModuleBuild
