/-!
# Association lists

Linked modules, the answers of probes and new names of bindings are kept in lists of pairs, in which a
new pair takes the place of the ones of its key.

## Main statements

* `lookup_filter_key_ne`, `lookup_replace` — what such a list answers without a key, and with a new
  value for one.
* `mem_of_lookup`, `not_mem_of_lookup` — which pairs an answer speaks of.
* `lookup_of_mem` — where each key stands once, each pair is found.
-/

namespace ModuleBuild

variable {α : Type}

theorem lookup_filter_key_ne {k i : String} (h : i ≠ k) (pairs : List (String × α)) :
    (pairs.filter (·.1 != k)).lookup i = pairs.lookup i := by
  induction pairs with
  | nil => rfl
  | cons p rest ih =>
    obtain ⟨key, a⟩ := p
    by_cases hp : key = k
    · have hi : (i == key) = false := by simpa [hp] using h
      rw [List.filter_cons_of_neg (by simpa using hp), List.lookup_cons, hi, ih]
    · rw [List.filter_cons_of_pos (by simpa using hp), List.lookup_cons, List.lookup_cons, ih]

theorem lookup_replace (k i : String) (a : α) (pairs : List (String × α)) :
    ((k, a) :: pairs.filter (·.1 != k)).lookup i = if i = k then some a else pairs.lookup i := by
  rw [List.lookup_cons]
  by_cases h : i = k
  · simp [h]
  · have hk : (i == k) = false := by simpa using h
    rw [hk, if_neg h]
    exact lookup_filter_key_ne h pairs

theorem mem_of_lookup {k : String} {a : α} {pairs : List (String × α)} (h : pairs.lookup k = some a) :
    (k, a) ∈ pairs := by
  obtain ⟨before, behind, rfl, -⟩ := List.lookup_eq_some_iff.1 h
  simp

theorem not_mem_of_lookup {k : String} {pairs : List (String × α)} (h : pairs.lookup k = none) (a : α) :
    (k, a) ∉ pairs := fun hmem => by
  simpa using List.lookup_eq_none_iff.1 h _ hmem

theorem lookup_of_mem {pairs : List (String × α)} {k : String} {a : α}
    (hnodup : (pairs.map (·.1)).Nodup) (h : (k, a) ∈ pairs) : pairs.lookup k = some a := by
  induction pairs with
  | nil => cases h
  | cons pair rest ih =>
    obtain ⟨key, b⟩ := pair
    rw [List.map_cons, List.nodup_cons] at hnodup
    rcases List.mem_cons.1 h with heq | hrest
    · obtain ⟨rfl, rfl⟩ := Prod.mk.inj heq
      exact List.lookup_cons_self
    · have hne : (k == key) = false := by
        rw [beq_eq_false_iff_ne]
        rintro rfl
        exact hnodup.1 (List.mem_map.2 ⟨_, hrest, rfl⟩)
      rw [List.lookup_cons, hne]
      exact ih hnodup.2 hrest

end ModuleBuild
