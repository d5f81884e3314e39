import Mathlib.Data.List.Nodup
import Mathlib.Logic.Relation
import ModuleBuild.Helper.Bundle

/-!
# Closures of helpers

A search enters a helper once, and leaves every helper that it entered. So the closure of some names has
each helper that is named in it, and none of them twice.

## Main definitions

* `Registry.Search.Grows` — what a search adds.
* `Registry.Calls`, `Registry.Reaches` — which helper calls which, and what names call for.

## Main statements

* `Registry.grows_visit` — a visit adds helpers of the registry that were not entered before.
* `Registry.mem_closure_of_mem`, `Registry.names_closure_nodup` — the closure of names.
* `Registry.reaches_of_mem_closure` — whatever is in a closure is called for by a name.
* `Registry.dependency_mem_closure` — what a helper of a closure calls is in it too.
* `Registry.mem_closure_iff` — which helpers a closure has.
-/

namespace ModuleBuild

namespace Registry

variable {registry : Registry} {s s' s'' : Search} {fuel : Nat} {name : String} {h : Helper}

theorem name_of_get? (hget : registry.get? name = some h) : h.name = name := by
  simpa using List.find?_some hget

theorem has_iff : registry.has name = true ↔ ∃ h, registry.get? name = some h :=
  Option.isSome_iff_exists

/-- What a search adds to what it has met: helpers that were not entered before, each once, and all that
it entered meanwhile. -/
structure Search.Grows (registry : Registry) (s s' : Search) : Prop where
  entered_subset : s.entered ⊆ s'.entered
  left : ∀ n ∈ s'.entered, n ∈ s.entered ∨ ∃ h ∈ s'.found, h.name = n
  found : ∃ added, s'.found = s.found ++ added ∧ (added.map (·.name)).Nodup ∧
    ∀ h ∈ added, h.name ∉ s.entered ∧ h.name ∈ s'.entered ∧ registry.get? h.name = some h

namespace Search.Grows

theorem refl (s : Search) : Grows registry s s where
  entered_subset := List.Subset.refl _
  left _ hn := .inl hn
  found := ⟨[], by simp, List.nodup_nil, by simp⟩

theorem found_subset (hs : Grows registry s s') : s.found ⊆ s'.found := by
  obtain ⟨added, heq, -⟩ := hs.found
  rw [heq]
  exact List.subset_append_left _ _

theorem trans (hs : Grows registry s s') (hs' : Grows registry s' s'') : Grows registry s s'' where
  entered_subset := List.Subset.trans hs.entered_subset hs'.entered_subset
  left n hn := by
    rcases hs'.left n hn with hn | hfound
    · rcases hs.left n hn with hn | ⟨h, hh, hname⟩
      · exact .inl hn
      · exact .inr ⟨h, hs'.found_subset hh, hname⟩
    · exact .inr hfound
  found := by
    obtain ⟨first, hfirst, hnodup, hnew⟩ := hs.found
    obtain ⟨second, hsecond, hnodup', hnew'⟩ := hs'.found
    refine ⟨first ++ second, by rw [hsecond, hfirst, List.append_assoc], ?_, ?_⟩
    · rw [List.map_append]
      refine List.Nodup.append hnodup hnodup' fun n hn hn' => ?_
      obtain ⟨h, hh, rfl⟩ := List.mem_map.1 hn
      obtain ⟨h', hh', hname⟩ := List.mem_map.1 hn'
      exact (hnew' h' hh').1 (hname ▸ (hnew h hh).2.1)
    · intro h hh
      rcases List.mem_append.1 hh with hh | hh
      · obtain ⟨hout, hin, hget⟩ := hnew h hh
        exact ⟨hout, hs'.entered_subset hin, hget⟩
      · obtain ⟨hout, hin, hget⟩ := hnew' h hh
        exact ⟨fun hmem => hout (hs.entered_subset hmem), hin, hget⟩

/-- A row of steps that grow grows. -/
theorem foldl {step : Search → String → Search} (hstep : ∀ s name, Grows registry s (step s name))
    (names : List String) (s : Search) : Grows registry s (names.foldl step s) := by
  induction names generalizing s with
  | nil => exact refl s
  | cons name rest ih => exact (hstep s name).trans (ih (step s name))

/-- A helper that is entered first and left last is one more helper found. -/
theorem leave (hnew : h.name ∉ s.entered) (hget : registry.get? h.name = some h)
    (hs : Grows registry { s with entered := h.name :: s.entered } s') :
    Grows registry s { s' with found := s'.found ++ [h] } where
  entered_subset := fun _ hn => hs.entered_subset (List.mem_cons_of_mem _ hn)
  left n hn := by
    rcases hs.left n hn with hn | ⟨h', hh', hname⟩
    · rcases List.mem_cons.1 hn with rfl | hn
      · exact .inr ⟨h, by simp, rfl⟩
      · exact .inl hn
    · exact .inr ⟨h', List.mem_append_left _ hh', hname⟩
  found := by
    obtain ⟨added, heq, hnodup, hadded⟩ := hs.found
    refine ⟨added ++ [h], by simp [heq], ?_, ?_⟩
    · rw [List.map_append, List.map_singleton, ← List.concat_eq_append]
      refine List.Nodup.concat (fun hmem => ?_) hnodup
      obtain ⟨h', hh', hname⟩ := List.mem_map.1 hmem
      exact (hadded h' hh').1 (hname ▸ List.mem_cons_self)
    · intro h' hh'
      rcases List.mem_append.1 hh' with hh' | hh'
      · obtain ⟨hout, hin, hget'⟩ := hadded h' hh'
        exact ⟨fun hmem => hout (List.mem_cons_of_mem _ hmem), hin, hget'⟩
      · obtain rfl := List.mem_singleton.1 hh'
        exact ⟨hnew, hs.entered_subset List.mem_cons_self, hget⟩

end Search.Grows

/-- A visit adds helpers of the registry, whatever its fuel. -/
theorem grows_visit (fuel : Nat) (s : Search) (name : String) :
    Search.Grows registry s (registry.visit fuel s name) := by
  induction fuel generalizing s name with
  | zero => exact .refl s
  | succ fuel ih =>
    unfold visit
    split
    · exact .refl s
    · rename_i h hget
      dsimp only
      split
      · exact .refl s
      · rename_i hentered
        have hname := name_of_get? hget
        refine .leave (by simpa using hentered) (hname.symm ▸ hget) ?_
        exact Search.Grows.foldl ih h.dependencies _

/-- A visit enters the helper that it names. -/
theorem entered_visit (hget : registry.get? name = some h) (s : Search) :
    h.name ∈ (registry.visit (fuel + 1) s name).entered := by
  unfold visit
  simp only [hget]
  split
  · rename_i hentered
    simpa using hentered
  · exact (Search.Grows.foldl (grows_visit fuel) h.dependencies _).entered_subset List.mem_cons_self

variable (registry) in
theorem grows_closure (names : List String) :
    Search.Grows registry ⟨[], []⟩ (names.foldl (registry.visit (registry.length + 1)) ⟨[], []⟩) :=
  Search.Grows.foldl (grows_visit _) names _

theorem entered_foldl_visit {names : List String} (hmem : name ∈ names)
    (hget : registry.get? name = some h) (s : Search) :
    h.name ∈ (names.foldl (registry.visit (fuel + 1)) s).entered := by
  induction names generalizing s with
  | nil => cases hmem
  | cons first rest ih =>
    rcases List.mem_cons.1 hmem with rfl | hmem
    · exact (Search.Grows.foldl (grows_visit _) rest _).entered_subset (entered_visit hget s)
    · exact ih hmem _

/-- The helpers of a closure are those that the registry has under their names. -/
theorem get?_of_mem_closure {names : List String} (hmem : h ∈ registry.closure names) :
    registry.get? h.name = some h := by
  obtain ⟨added, heq, -, hadded⟩ := (grows_closure registry names).found
  rw [List.nil_append] at heq
  exact (hadded h (heq ▸ hmem)).2.2

/-- A closure has each helper that is named in it. -/
theorem mem_closure_of_mem {names : List String} (hmem : name ∈ names)
    (hget : registry.get? name = some h) : h ∈ registry.closure names := by
  rcases (grows_closure registry names).left h.name (entered_foldl_visit hmem hget _) with
    hnone | ⟨h', hh', hname⟩
  · cases hnone
  · have hget' := get?_of_mem_closure hh'
    rw [hname, name_of_get? hget, hget] at hget'
    exact Option.some.inj hget' ▸ hh'

/-- A closure has no two helpers of one name. -/
theorem names_closure_nodup (names : List String) : ((registry.closure names).map (·.name)).Nodup := by
  obtain ⟨added, heq, hnodup, -⟩ := (grows_closure registry names).found
  rw [closure, heq]
  exact hnodup

/-! ## Calls -/

/-- The helper of the first name calls the second one. -/
def Calls (registry : Registry) (name called : String) : Prop :=
  ∃ h, registry.get? name = some h ∧ called ∈ h.dependencies

/-- Names call for a helper, directly or through other helpers. -/
def Reaches (registry : Registry) (names : List String) (h : Helper) : Prop :=
  ∃ name ∈ names, Relation.ReflTransGen registry.Calls name h.name

theorem reaches_foldl {step : Search → String → Search} {names : List String}
    (hstep : ∀ s name, ∀ h ∈ (step s name).found, h ∈ s.found ∨ registry.Reaches [name] h)
    (s : Search) (hmem : h ∈ (names.foldl step s).found) : h ∈ s.found ∨ registry.Reaches names h := by
  induction names generalizing s with
  | nil => exact .inl hmem
  | cons first rest ih =>
    rcases ih (step s first) hmem with hfound | ⟨name, hname, hreach⟩
    · rcases hstep s first h hfound with hfound | ⟨name, hname, hreach⟩
      · exact .inl hfound
      · obtain rfl := List.mem_singleton.mp hname
        exact .inr ⟨name, List.mem_cons_self, hreach⟩
    · exact .inr ⟨name, List.mem_cons_of_mem _ hname, hreach⟩

/-- A visit finds what its name calls for. -/
theorem reaches_of_mem_visit (s : Search) (hmem : h ∈ (registry.visit fuel s name).found) :
    h ∈ s.found ∨ registry.Reaches [name] h := by
  induction fuel generalizing s name h with
  | zero => exact .inl hmem
  | succ fuel ih =>
    unfold visit at hmem
    split at hmem
    · exact .inl hmem
    · rename_i entered hget
      split at hmem
      · exact .inl hmem
      · rcases List.mem_append.mp hmem with hmem | hmem
        · refine (reaches_foldl (fun s name h hh => ih s hh) _ hmem).imp_right ?_
          rintro ⟨called, hcalled, hreach⟩
          exact ⟨name, List.mem_cons_self, .head ⟨entered, hget, hcalled⟩ hreach⟩
        · obtain rfl := List.mem_singleton.mp hmem
          rw [← name_of_get? hget]
          exact .inr ⟨_, List.mem_cons_self, .refl⟩

/-- Whatever is in a closure is called for by a name. -/
theorem reaches_of_mem_closure {names : List String} (hmem : h ∈ registry.closure names) :
    registry.Reaches names h :=
  (reaches_foldl (fun s _ _ hh => reaches_of_mem_visit s hh) _ hmem).resolve_left List.not_mem_nil

/-! ## Dependencies -/

/-- The names of the registry that a search did not enter. -/
def ahead (registry : Registry) (s : Search) : List String :=
  (registry.map (·.name)).filter fun name => !s.entered.contains name

theorem length_ahead_le (registry : Registry) (s : Search) : (registry.ahead s).length ≤ registry.length := by
  have hle := List.length_filter_le (fun name => !s.entered.contains name) (registry.map (·.name))
  rwa [List.length_map] at hle

/-- What each helper found depends on is entered, as far as the registry has it. -/
def Search.Closed (registry : Registry) (s : Search) : Prop :=
  ∀ h ∈ s.found, ∀ d ∈ h.dependencies, registry.has d = true → d ∈ s.entered

theorem Search.Grows.ahead_le (hs : Search.Grows registry s s') :
    (registry.ahead s').length ≤ (registry.ahead s).length := by
  refine List.Sublist.length_le (List.monotone_filter_right _ fun name hname => ?_)
  have hnot : name ∉ s'.entered := by simpa using hname
  simpa using fun hmem => hnot (hs.entered_subset hmem)

/-- Less is ahead of a search behind each helper that it enters. -/
theorem ahead_enter_lt (hget : registry.get? h.name = some h) (hnew : h.name ∉ s.entered) :
    (registry.ahead { s with entered := h.name :: s.entered }).length < (registry.ahead s).length := by
  have hmem : h.name ∈ registry.ahead s :=
    List.mem_filter.2 ⟨List.mem_map_of_mem (List.mem_of_find?_eq_some hget), by simpa using hnew⟩
  have hstep : registry.ahead { s with entered := h.name :: s.entered } =
      (registry.ahead s).filter fun name => name != h.name := by
    rw [ahead, ahead, List.filter_filter]
    refine List.filter_congr fun name _ => ?_
    grind
  rw [hstep, List.length_filter_lt_length_iff_exists]
  exact ⟨h.name, hmem, by simp⟩

theorem Search.Closed.foldl {step : Search → String → Search}
    (hgrows : ∀ s name, Search.Grows registry s (step s name))
    (hstep : ∀ s name, (registry.ahead s).length < fuel → s.Closed registry → (step s name).Closed registry)
    (names : List String) (hfuel : (registry.ahead s).length < fuel) (hs : s.Closed registry) :
    (names.foldl step s).Closed registry := by
  induction names generalizing s with
  | nil => exact hs
  | cons name rest ih =>
    have hless := (hgrows s name).ahead_le
    exact ih (by omega) (hstep s name hfuel hs)

/-- A search with fuel for all that is ahead of it enters what the helpers that it finds depend on. -/
theorem closed_visit (hfuel : (registry.ahead s).length < fuel) (hs : s.Closed registry) (name : String) :
    (registry.visit fuel s name).Closed registry := by
  induction fuel generalizing s name with
  | zero => exact hs
  | succ fuel ih =>
    unfold visit
    split
    · exact hs
    · rename_i h hget
      have hname := name_of_get? hget
      dsimp only
      split
      · exact hs
      · rename_i hentered
        have hless := ahead_enter_lt (s := s) (hname.symm ▸ hget) (by simpa using hentered)
        have hbelow : (registry.ahead { s with entered := h.name :: s.entered }).length < fuel := by omega
        have hinside := Search.Closed.foldl (grows_visit fuel) (fun s name hlt hs => ih hlt hs name)
          h.dependencies hbelow fun g hg d hd hhas => List.mem_cons_of_mem _ (hs g hg d hd hhas)
        intro g hg d hd hhas
        rcases List.mem_append.1 hg with hg | hg
        · exact hinside g hg d hd hhas
        · obtain rfl := List.mem_singleton.1 hg
          obtain ⟨called, hcalled⟩ := has_iff.1 hhas
          obtain ⟨k, rfl⟩ := Nat.exists_eq_succ_of_ne_zero (Nat.ne_of_gt (Nat.zero_lt_of_lt hbelow))
          exact name_of_get? hcalled ▸ entered_foldl_visit hd hcalled _

/-- What a helper of a closure calls is in the closure too. -/
theorem dependency_mem_closure {names : List String} (hmem : h ∈ registry.closure names) {d : String}
    (hd : d ∈ h.dependencies) (hhas : registry.has d = true) :
    ∃ called ∈ registry.closure names, called.name = d := by
  have hfuel := Nat.lt_succ_of_le (length_ahead_le registry ⟨[], []⟩)
  have hclosed : (names.foldl (registry.visit (registry.length + 1)) ⟨[], []⟩).Closed registry :=
    Search.Closed.foldl (grows_visit _) (fun s name hlt hs => closed_visit hlt hs name) names hfuel (by
      intro g hg
      cases hg)
  exact ((grows_closure registry names).left d (hclosed h hmem d hd hhas)).resolve_left List.not_mem_nil

/-- The closure of names has the helpers of the registry that they call for. -/
theorem mem_closure_iff {names : List String} :
    h ∈ registry.closure names ↔ registry.get? h.name = some h ∧ registry.Reaches names h := by
  constructor
  · exact fun hmem => ⟨get?_of_mem_closure hmem, reaches_of_mem_closure hmem⟩
  · rintro ⟨hget, first, hfirst, hreach⟩
    -- Whatever is called is in the closure, if the registry has it.
    have hall {name : String} (hname : Relation.ReflTransGen registry.Calls first name) :
        ∀ g, registry.get? name = some g → g ∈ registry.closure names := by
      induction hname with
      | refl => exact fun g hg => mem_closure_of_mem hfirst hg
      | tail _ hcalls ih =>
        obtain ⟨caller, hcaller, hd⟩ := hcalls
        intro g hg
        obtain ⟨called, hcalled, rfl⟩ := dependency_mem_closure (ih caller hcaller) hd (has_iff.2 ⟨g, hg⟩)
        obtain rfl := Option.some.inj (hg.symm.trans (get?_of_mem_closure hcalled))
        exact hcalled
    exact hall hreach h hget

end Registry

end ModuleBuild
