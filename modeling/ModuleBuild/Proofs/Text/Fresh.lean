import Mathlib
import ModuleBuild.Proofs.Text.Words
import ModuleBuild.Text.Fresh

/-!
# The search for a fresh name

Numbered names are apart from each other, so only as many of them can be taken as there are reserved names
and words. A search that may pass over all of these ends with a name that is free.

## Main results

* `numbered_inj` — numbered names are apart.
* `firstFree_eq` — what the search gives.
* `isWord_numbered` — numbered names are words.
* `exists_numbered_new` — one of so many numbered names is not taken.
-/

namespace ModuleBuild.Text

theorem toString_ne_empty (n : Nat) : toString n ≠ "" := by
  intro h
  have hnil : Nat.toDigits 10 n = [] := by
    rw [← Nat.toList_repr, ← Nat.toString_eq_repr, h]
    rfl
  exact Nat.toDigits_ne_nil hnil

/-- Names with different numbers are different. -/
theorem numbered_inj {base : String} {i j : Nat} (hi : 1 ≤ i) (hj : 1 ≤ j)
    (h : numbered base i = numbered base j) : i = j := by
  unfold numbered at h
  have hdigits (n : Nat) : base ≠ base ++ toString n := by
    intro heq
    have happ : base ++ "" = base ++ toString n := by simpa using heq
    exact toString_ne_empty n ((String.append_right_inj base).mp happ).symm
  split at h <;> split at h
  · omega
  · exact absurd h (hdigits j)
  · exact absurd h.symm (hdigits i)
  · exact Nat.repr_inj.mp ((String.append_right_inj base).mp h)

/-- The search gives the first name that is not taken, or the one behind all names it may pass over. -/
theorem firstFree_eq (taken : String → Bool) (base : String) (fuel i : Nat) :
    ∃ k, i ≤ k ∧ k ≤ i + fuel ∧ firstFree taken base fuel i = numbered base k ∧
      (∀ j, i ≤ j → j < k → taken (numbered base j) = true) ∧
      (k < i + fuel → taken (numbered base k) = false) := by
  induction fuel generalizing i with
  | zero => exact ⟨i, le_rfl, le_rfl, rfl, by omega, by omega⟩
  | succ fuel ih =>
    unfold firstFree
    split
    · rename_i htaken
      obtain ⟨k, hle, hbound, heq, hbefore, hfree⟩ := ih (i + 1)
      refine ⟨k, by omega, by omega, heq, fun j hij hjk => ?_, fun hk => hfree (by omega)⟩
      rcases hij.eq_or_lt with rfl | hlt
      · exact htaken
      · exact hbefore j hlt hjk
    · rename_i hfree
      exact ⟨i, le_rfl, by omega, rfl, by omega, fun _ => by simpa using hfree⟩

/-! ## The letters of numbered names -/

theorem isDigit_of_mem_toString {n : Nat} {c : Char} (h : c ∈ (toString n).toList) : c.isDigit = true := by
  have : c ∈ Nat.toDigits 10 n := by simpa [Nat.toString_eq_repr, Nat.toList_repr] using h
  exact Nat.isDigit_of_mem_toDigits (by decide) (by decide) this

theorem toNat_lt_of_isDigit {c : Char} (h : c.isDigit = true) : c.toNat < 128 := by
  have hle : c.val ≤ 57 := by
    simp only [Char.isDigit, Bool.and_eq_true, decide_eq_true_eq] at h
    exact h.2
  have : c.val.toNat ≤ 57 := UInt32.le_iff_toNat_le.mp hle
  have hc : c.toNat = c.val.toNat := rfl
  omega

theorem isWordChar_of_isDigit {c : Char} (h : c.isDigit = true) : isWordChar c = true := by
  simp [isWordChar, isAlphanumeric, toNat_lt_of_isDigit h, Char.isAlphanum, h]

/-- A number behind a word makes another word. -/
theorem isWord_numbered {base : String} (h : IsWord base) (i : Nat) : IsWord (numbered base i) := by
  unfold numbered
  split
  · exact h
  · refine ⟨fun hempty => h.1 (String.append_eq_empty_iff.mp hempty).1, fun c hc => ?_⟩
    rw [String.toList_append, List.mem_append] at hc
    rcases hc with hc | hc
    · exact h.2 c hc
    · exact isWordChar_of_isDigit (isDigit_of_mem_toString hc)

/-! ## How many of them are taken -/

/-- Of numbered names, no more are taken than there are reserved names and places in a text. -/
theorem exists_numbered_new {base : String} (h : IsWord base) (reserved : List String) (text : String) :
    ∃ j < reserved.length + text.length + 1,
      numbered base (1 + j) ∉ reserved ∧ ¬ HasWord text (numbered base (1 + j)) := by
  by_contra hnone
  push Not at hnone
  let candidates := (List.range (reserved.length + text.length + 1)).map fun j => numbered base (1 + j)
  have hnodup : candidates.Nodup := by
    refine List.Nodup.map_on (fun i _ j _ hij => ?_) List.nodup_range
    have := numbered_inj (by omega) (by omega) hij
    omega
  have hreserved : (candidates.filter fun x => reserved.contains x).length ≤ reserved.length := by
    refine (List.subperm_of_subset (hnodup.filter _) fun x hx => ?_).length_le
    simpa using (List.mem_filter.mp hx).2
  have hmentioned : (candidates.filter fun x => !reserved.contains x).length ≤ text.toList.length := by
    refine length_le_of_hasWord (hnodup.filter _) fun x hx => ?_
    obtain ⟨hmem, hnew⟩ := List.mem_filter.mp hx
    obtain ⟨j, hj, rfl⟩ := List.mem_map.mp hmem
    exact ⟨isWord_numbered h _, hnone j (List.mem_range.mp hj) (by simpa using hnew)⟩
  have hlength := List.length_eq_length_filter_add (l := candidates) fun x => reserved.contains x
  have htotal : candidates.length = reserved.length + text.length + 1 := by simp [candidates]
  have htext : text.toList.length = text.length := String.length_toList
  omega

end ModuleBuild.Text
