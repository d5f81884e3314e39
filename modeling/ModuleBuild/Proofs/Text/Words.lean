import Mathlib.Data.List.Perm.Subperm
import Mathlib.Data.List.Range
import ModuleBuild.Text.Words

/-!
# Words of a text

A word of a text is a row of identifier characters that none stands next to. The search for a name finds
exactly the words, because an occurrence that overlaps another one has an identifier character beside it.

## Main definitions

* `IsWordText`, `IsWord`, `HasWord` — what a word is, and where one stands in a text.
* `functionName?` — the name of the function that a text starts with.

## Main results

* `mentions_iff` — the search finds the words of a text.
* `length_le_of_hasWord` — a text has no more words than characters.
* `rename_eq_self` — replacing words by themselves changes nothing.
* `functionName?_rename` — how a function is called behind a renaming.
-/

namespace ModuleBuild.Text

/-! ## Where a word stands -/

/-- A row of identifier characters. -/
def IsWordText (name : String) : Prop :=
  ∀ c ∈ name.toList, isWordChar c = true

instance (name : String) : Decidable (IsWordText name) :=
  List.decidableBAll (isWordChar · = true) name.toList

/-- A word: identifier characters only, at least one of them. -/
def IsWord (name : String) : Prop :=
  name ≠ "" ∧ IsWordText name

instance (name : String) : Decidable (IsWord name) :=
  inferInstanceAs (Decidable (_ ∧ _))

/-- A name stands in a text with no identifier character on either side. -/
def HasWord (text name : String) : Prop :=
  ∃ before behind, text.toList = before ++ name.toList ++ behind ∧
    isBoundary before.getLast? = true ∧ isBoundary behind.head? = true

/-- An occurrence that starts inside of another one has an identifier character before it. So it is safe
to search behind the end of each occurrence. -/
theorem mentionsAfter_iff {name : List Char} (hname : name ≠ [])
    (hchars : ∀ c ∈ name, isWordChar c = true) (before : Option Char) (cs : List Char) :
    mentionsAfter name before cs = true ↔ ∃ xs ys, cs = xs ++ name ++ ys ∧
      isBoundary (xs.getLast?.or before) = true ∧ isBoundary ys.head? = true := by
  fun_induction mentionsAfter name before cs with
  | case1 before =>
    simp [hname]
  | case2 before c rest hprefix after ih =>
    have hlast (xs : List Char) :
        (name ++ xs).getLast?.or before = xs.getLast?.or name.getLast? := by
      rw [List.getLast?_append, List.getLast?_eq_some_getLast hname, Option.or_assoc, Option.some_or]
    obtain ⟨behind, hcs⟩ := List.isPrefixOf_iff_prefix.mp hprefix
    have hafter : after = behind := by
      have hdrop : (c :: rest).drop name.length = behind := by rw [← hcs, List.drop_left]
      obtain ⟨n, hn⟩ := Nat.exists_eq_succ_of_ne_zero (List.length_pos_of_ne_nil hname).ne'
      rw [← hdrop]
      simp [after, hn]
    rw [Bool.or_eq_true, Bool.and_eq_true, ih, hafter, ← hcs]
    constructor
    · rintro (⟨hleft, hright⟩ | ⟨xs, ys, hbehind, hleft, hright⟩)
      · exact ⟨[], behind, rfl, hleft, hright⟩
      · exact ⟨name ++ xs, ys, by simp [hbehind], hlast xs ▸ hleft, hright⟩
    · rintro ⟨xs, ys, heq, hleft, hright⟩
      by_cases hxs : xs = []
      · subst hxs
        obtain rfl : behind = ys := by simpa using heq
        exact .inl ⟨hleft, hright⟩
      rw [List.append_assoc] at heq
      rcases List.append_eq_append_iff.mp heq with ⟨xs', rfl, hbehind⟩ | ⟨inner, rfl, -⟩
      · exact .inr ⟨xs', ys, by simp [hbehind], hlast xs' ▸ hleft, hright⟩
      · -- The occurrence starts inside of the one found here.
        have hinside := hchars (xs.getLast hxs) (List.mem_append_left _ (List.getLast_mem hxs))
        rw [List.getLast?_eq_some_getLast hxs] at hleft
        simp [isBoundary, hinside] at hleft
  | case3 before c rest hprefix ih =>
    have hlast (xs : List Char) : (c :: xs).getLast?.or before = xs.getLast?.or (some c) := by
      rw [List.getLast?_cons]
      cases xs.getLast? <;> rfl
    rw [ih]
    constructor
    · rintro ⟨xs, ys, rfl, hleft, hright⟩
      exact ⟨c :: xs, ys, rfl, hlast xs ▸ hleft, hright⟩
    · rintro ⟨xs, ys, heq, hleft, hright⟩
      cases xs with
      | nil =>
        refine absurd (List.isPrefixOf_iff_prefix.mpr ⟨ys, ?_⟩) hprefix
        simpa using heq.symm
      | cons x xs =>
        obtain ⟨rfl, rfl⟩ := List.cons.inj heq
        exact ⟨xs, ys, rfl, hlast xs ▸ hleft, hright⟩

/-- The search finds the words of a text. -/
theorem mentions_iff {text name : String} (h : IsWord name) :
    mentions text name = true ↔ HasWord text name := by
  have hname : name.toList ≠ [] := by simpa using h.1
  simpa [mentions, HasWord] using mentionsAfter_iff hname h.2 none text.toList

/-- Behind a word, no identifier character comes first. -/
theorem stops_of_isBoundary {cs : List Char} (h : isBoundary cs.head? = true) :
    cs.takeWhile isWordChar = [] ∧ cs.dropWhile isWordChar = cs := by
  cases cs with
  | nil => exact ⟨rfl, rfl⟩
  | cons c rest =>
    have hc : isWordChar c = false := by simpa [isBoundary] using h
    simp [hc]

/-- A word is known by its place. -/
theorem HasWord.exists_place {text name : String} (h : IsWord name) (hmem : HasWord text name) :
    ∃ i < text.toList.length, (text.toList.drop i).takeWhile isWordChar = name.toList := by
  obtain ⟨before, behind, htext, -, hright⟩ := hmem
  have hlength : 0 < name.toList.length := List.length_pos_of_ne_nil (by simpa using h.1)
  refine ⟨before.length, ?_, ?_⟩
  · simp only [htext, List.length_append]
    omega
  · rw [htext, List.append_assoc, List.drop_left, List.takeWhile_append_of_pos h.2,
      (stops_of_isBoundary hright).1, List.append_nil]

/-- A text has no more words than characters. -/
theorem length_le_of_hasWord {text : String} {names : List String} (hnodup : names.Nodup)
    (h : ∀ name ∈ names, IsWord name ∧ HasWord text name) : names.length ≤ text.toList.length := by
  have hsub : names ⊆ (List.range text.toList.length).map fun i =>
      String.ofList ((text.toList.drop i).takeWhile isWordChar) := by
    intro name hname
    obtain ⟨i, hi, hplace⟩ := (h name hname).2.exists_place (h name hname).1
    exact List.mem_map.mpr ⟨i, List.mem_range.mpr hi, by rw [hplace, String.ofList_toList]⟩
  simpa using (List.subperm_of_subset hnodup hsub).length_le

/-! ## Words replaced -/

theorem renameAfter_eq_self {image : String → Option String}
    (himage : ∀ name new, image name = some new → new = name) (before : Option Char)
    (cs : List Char) : renameAfter image before cs = cs := by
  fun_induction renameAfter image before cs with
  | case1 => rfl
  | case2 before c rest hword word last text ih =>
    have htext : text = word := by
      unfold text
      split
      · split
        · rfl
        · exact himage _ _ ‹_›
      · rfl
    rw [htext, ih]
    simp [word, List.takeWhile_append_dropWhile]
  | case3 before c rest hword ih => rw [ih]

/-- A renaming that gives each word its own name changes nothing. -/
theorem rename_eq_self {image : String → Option String}
    (himage : ∀ name new, image name = some new → new = name) (text : String) :
    rename image text = text := by
  rw [rename, renameAfter_eq_self himage, String.ofList_toList]

/-- A word is replaced as a whole. -/
theorem renameAfter_word {image : String → Option String} {name : String} (hname : IsWord name)
    {before : Option Char} (hpoint : before ≠ some '.') {rest : List Char}
    (hrest : isBoundary rest.head? = true) :
    renameAfter image before (name.toList ++ rest) =
      ((image name).getD name).toList ++ renameAfter image name.toList.getLast? rest := by
  obtain ⟨c, cs, hcs⟩ := List.exists_cons_of_ne_nil (by simpa using hname.1 : name.toList ≠ [])
  have hchars : ∀ d ∈ c :: cs, isWordChar d = true := hcs ▸ hname.2
  obtain ⟨hnone, hall⟩ := stops_of_isBoundary hrest
  have htake : (cs ++ rest).takeWhile isWordChar = cs := by
    rw [List.takeWhile_append_of_pos fun d hd => hchars d (List.mem_cons_of_mem c hd), hnone, List.append_nil]
  have hdrop : (cs ++ rest).dropWhile isWordChar = rest := by
    rw [List.dropWhile_append_of_pos fun d hd => hchars d (List.mem_cons_of_mem c hd), hall]
  have hword : String.ofList (c :: cs) = name := by rw [← hcs, String.ofList_toList]
  rw [hcs, List.cons_append, renameAfter, if_pos (hchars c List.mem_cons_self)]
  simp only [htake, hdrop, hword, beq_eq_false_iff_ne.mpr hpoint, List.getLast?_cons, List.getLastD_eq_getLast?]
  cases image name <;> simp

/-- A character between words stays. -/
theorem renameAfter_cons {image : String → Option String} {c : Char} (hc : isWordChar c = false)
    (before : Option Char) (rest : List Char) :
    renameAfter image before (c :: rest) = c :: renameAfter image (some c) rest := by
  rw [renameAfter, if_neg (by simp [hc])]

theorem isBoundary_renameAfter {image : String → Option String} {cs : List Char}
    (h : isBoundary cs.head? = true) (before : Option Char) :
    isBoundary (renameAfter image before cs).head? = true := by
  cases cs with
  | nil => simpa [renameAfter] using h
  | cons c rest =>
    have hc : isWordChar c = false := by simpa [isBoundary] using h
    simpa [renameAfter_cons hc] using h

/-- The name of the function that a text starts with. -/
def functionName? (text : String) : Option String :=
  if "function ".toList.isPrefixOf text.toList then
    some (String.ofList ((text.toList.drop 9).takeWhile isWordChar))
  else none

/-- A function is called what its name is replaced by. -/
theorem functionName?_rename {image : String → Option String} {name fresh text : String} {rest : List Char}
    (hname : IsWord name) (hfresh : IsWord fresh) (hkeyword : image "function" = none)
    (himage : image name = some fresh) (hrest : isBoundary rest.head? = true)
    (htext : text.toList = "function".toList ++ ' ' :: (name.toList ++ rest)) :
    functionName? (rename image text) = some fresh := by
  have hrename : (rename image text).toList =
      "function ".toList ++ (fresh.toList ++ renameAfter image name.toList.getLast? rest) := by
    rw [rename, String.toList_ofList, htext, renameAfter_word (by decide +kernel) (by simp) rfl, hkeyword,
      renameAfter_cons (by decide), renameAfter_word hname (by simp) hrest, himage]
    rfl
  have hafter : ((fresh.toList ++ renameAfter image name.toList.getLast? rest).takeWhile isWordChar) =
      fresh.toList := by
    rw [List.takeWhile_append_of_pos hfresh.2, (stops_of_isBoundary (isBoundary_renameAfter hrest _)).1,
      List.append_nil]
  have hlength : "function ".toList.length = 9 := rfl
  rw [functionName?, hrename, if_pos (List.isPrefixOf_iff_prefix.mpr (List.prefix_append _ _)), ← hlength,
    List.drop_left, hafter, String.ofList_toList]

end ModuleBuild.Text
