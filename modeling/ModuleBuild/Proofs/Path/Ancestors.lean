import Mathlib
import ModuleBuild.Path.Basic

/-!
# Directories above a path

The parent of a path says the same steps but the last one. So the directories above a path are fewer steps
of it each, and of two of them one lies in the other one.

## Main definitions

* `Path.LiesIn` — a path is somewhere in a directory.

## Main statements

* `Path.components_parent?` — the steps of a parent.
* `Path.LiesIn.components` — the steps of a directory are the first ones of what lies in it.
* `Path.mem_ancestors_iff`, `Path.pairwise_ancestors` — the directories above a path, from its own to the top.
-/

namespace ModuleBuild.Path

/-! ## Segments -/

theorem not_mem_of_mem_splitSegments {cs s : List Char} (h : s ∈ splitSegments cs) : '/' ∉ s := by
  induction cs generalizing s with
  | nil => simp_all [splitSegments]
  | cons c cs ih =>
    rw [splitSegments] at h
    split at h
    · rcases List.mem_cons.mp h with rfl | h
      · exact List.not_mem_nil
      · exact ih h
    · rename_i hc
      cases hs : splitSegments cs with
      | nil => exact absurd hs (splitSegments_ne_nil cs)
      | cons first rest =>
        rw [hs] at h ih
        rcases List.mem_cons.mp h with rfl | h
        · have hfirst := ih List.mem_cons_self
          simp_all [eq_comm]
        · exact ih (List.mem_cons_of_mem first h)

/-- Segments that are joined are found again. -/
theorem splitSegments_joinSegments {xs : List (List Char)} (hne : xs ≠ []) (hxs : ∀ s ∈ xs, '/' ∉ s) :
    splitSegments (joinSegments xs) = xs := by
  have hsegment (s : List Char) (hs : '/' ∉ s) : splitSegments s = [s] := by
    induction s with
    | nil => rfl
    | cons c s ih =>
      obtain ⟨hc, hs⟩ : c ≠ '/' ∧ '/' ∉ s := by simpa [eq_comm] using hs
      rw [splitSegments, if_neg hc, ih hs]
  have hbefore (s cs : List Char) (hs : '/' ∉ s) :
      splitSegments (s ++ '/' :: cs) = s :: splitSegments cs := by
    induction s with
    | nil => simp [splitSegments]
    | cons c s ih =>
      obtain ⟨hc, hs⟩ : c ≠ '/' ∧ '/' ∉ s := by simpa [eq_comm] using hs
      rw [List.cons_append, splitSegments, if_neg hc, ih hs]
  fun_induction joinSegments xs with
  | case1 => exact absurd rfl hne
  | case2 s => exact hsegment s (hxs s List.mem_cons_self)
  | case3 s t rest ih =>
    rw [hbefore s _ (hxs s List.mem_cons_self), ih (by simp) fun r hr => hxs r (List.mem_cons_of_mem s hr)]

theorem joinSegments_prefix (xs ys : List (List Char)) : joinSegments xs <+: joinSegments (xs ++ ys) := by
  fun_induction joinSegments xs with
  | case1 => exact List.nil_prefix
  | case2 s => cases ys <;> simp [joinSegments]
  | case3 s t rest ih => simpa [joinSegments] using ih

/-- The steps that segments say. -/
def segmentSteps (segments : List (List Char)) : List Component :=
  (segments.filter fun s => !isIdle s).map fun s =>
    if s == ['.', '.'] then .up else .name (String.ofList s)

/-- The step that stands before the segments. -/
def leadSteps : List Char → List Component
  | ['/'] => [.root]
  | ['.'] => [.current]
  | _ => []

theorem components_eq (p : Path) : p.components = leadSteps p.lead ++ segmentSteps p.body := by
  rfl

@[simp] theorem segmentSteps_append (xs ys : List (List Char)) :
    segmentSteps (xs ++ ys) = segmentSteps xs ++ segmentSteps ys := by
  simp [segmentSteps]

theorem isIdle_of_mem_dropped {xs : List (List Char)} {s : List Char}
    (h : s ∈ (xs.reverse.takeWhile isIdle).reverse) : isIdle s = true := by
  rw [List.mem_reverse] at h
  exact List.mem_takeWhile_imp h

/-- Segments without meaning say no steps. -/
theorem segmentSteps_trimEnd (xs : List (List Char)) : segmentSteps (trimEnd xs) = segmentSteps xs := by
  have hsplit : xs = trimEnd xs ++ (xs.reverse.takeWhile isIdle).reverse := by
    rw [trimEnd, ← List.reverse_append, List.takeWhile_append_dropWhile, List.reverse_reverse]
  have hidle : segmentSteps (xs.reverse.takeWhile isIdle).reverse = [] := by
    rw [segmentSteps, List.map_eq_nil_iff, List.filter_eq_nil_iff]
    intro s hs
    simp [isIdle_of_mem_dropped hs]
  conv_rhs => rw [hsplit]
  rw [segmentSteps_append, hidle, List.append_nil]

/-- What is left ends with a segment that says a step. -/
theorem isIdle_getLast_trimEnd {xs : List (List Char)} (hne : trimEnd xs ≠ []) :
    isIdle ((trimEnd xs).getLast hne) = false := by
  have hdropped : xs.reverse.dropWhile isIdle ≠ [] := by simpa [trimEnd] using hne
  have hhead : isIdle ((xs.reverse.dropWhile isIdle).head hdropped) = false := by
    simpa using List.head_dropWhile_not isIdle hdropped
  simpa [trimEnd, List.getLast_reverse] using hhead

theorem trimEnd_ne_idle {xs : List (List Char)} {s : List Char} (hs : isIdle s = true) : trimEnd xs ≠ [s] := by
  intro h
  have hlast := @isIdle_getLast_trimEnd xs (by simp [h])
  simp [h, hs] at hlast

/-- Segments that are left are segments of the text. -/
theorem trimEnd_subset (xs : List (List Char)) : trimEnd xs ⊆ xs := by
  obtain ⟨dropped, hsplit⟩ := exists_append_trimEnd xs
  intro s hs
  rw [hsplit]
  exact List.mem_append_left dropped hs

/-! ## Parents -/

/-- A text that begins as another one does has the same lead, unless a single point is left of it. -/
theorem lead_of_prefix {cs kept : List Char} (h : cs.take (leadLength cs) ++ kept <+: cs)
    (hpoint : leadLength cs = 0 → kept ≠ ['.']) :
    (cs.take (leadLength cs) ++ kept).take (leadLength (cs.take (leadLength cs) ++ kept)) =
      cs.take (leadLength cs) := by
  have hcases : leadLength cs = 0 ∨ (∃ rest, cs = '/' :: rest) ∨ cs = ['.'] ∨ ∃ rest, cs = '.' :: '/' :: rest := by
    unfold leadLength
    split <;> simp
  rcases hcases with hzero | ⟨rest, rfl⟩ | rfl | ⟨rest, rfl⟩
  · rw [hzero, List.take_zero, List.nil_append] at h ⊢
    have hkept : leadLength kept = 0 := by
      obtain ⟨behind, rfl⟩ := h
      have hpoint := hpoint hzero
      unfold leadLength at hzero ⊢
      split <;> simp_all
    rw [hkept, List.take_zero]
  · rfl
  · obtain rfl : kept = [] := by simpa [leadLength] using h
    rfl
  · rcases kept with _ | ⟨c, kept⟩
    · rfl
    · obtain ⟨rfl, -⟩ : c = '/' ∧ kept <+: rest := by simpa [leadLength, List.cons_prefix_cons] using h
      rfl

/-- The steps of a text that is made of a lead and of segments. -/
theorem components_ofList {start : List Char} {xs : List (List Char)} (hxs : ∀ s ∈ xs, '/' ∉ s)
    (hlead : (start ++ joinSegments xs).take (leadLength (start ++ joinSegments xs)) = start) :
    components ⟨String.ofList (start ++ joinSegments xs)⟩ = leadSteps start ++ segmentSteps xs := by
  have hlength : leadLength (start ++ joinSegments xs) ≤ (start ++ joinSegments xs).length := by
    unfold leadLength
    split <;> simp_all
  have hstart : leadLength (start ++ joinSegments xs) = start.length := by
    have hcount := congrArg List.length hlead
    rw [List.length_take, Nat.min_eq_left hlength] at hcount
    exact hcount
  have hbody : segmentSteps (splitSegments (joinSegments xs)) = segmentSteps xs := by
    cases xs with
    | nil => rfl
    | cons s rest => rw [splitSegments_joinSegments (by simp) hxs]
  rw [components_eq, lead, body, String.toList_ofList, hlead, hstart, List.drop_left, hbody]

/-- The parent of a path says all of its steps but the last one, and no path is the parent of a root. -/
theorem components_parent? {p q : Path} (h : p.parent? = some q) :
    ∃ step, step ≠ .root ∧ p.components = q.components ++ [step] := by
  have hslash : ∀ s ∈ p.body, '/' ∉ s := fun s hs => not_mem_of_mem_splitSegments hs
  rw [parent?] at h
  split at h
  · rename_i hempty
    have hsteps : segmentSteps p.body = [] := by
      rw [← segmentSteps_trimEnd, List.isEmpty_iff.mp hempty]
      rfl
    split at h
    · rename_i hlead
      obtain rfl := Option.some.inj h
      rw [beq_iff_eq] at hlead
      exact ⟨.current, by simp, by rw [components_eq, hlead, hsteps]; rfl⟩
    · cases h
  · rename_i hne
    have hne : trimEnd p.body ≠ [] := by simpa using hne
    obtain rfl := Option.some.inj h
    set kept := trimEnd (trimEnd p.body).dropLast with hkept
    have hsub : kept ⊆ p.body := fun s hs =>
      trimEnd_subset p.body (List.dropLast_subset _ (trimEnd_subset _ hs))
    have hlast := isIdle_getLast_trimEnd hne
    have hbody : segmentSteps p.body = segmentSteps kept ++ segmentSteps [(trimEnd p.body).getLast hne] :=
      calc segmentSteps p.body
          = segmentSteps (trimEnd p.body) := (segmentSteps_trimEnd p.body).symm
        _ = segmentSteps ((trimEnd p.body).dropLast ++ [(trimEnd p.body).getLast hne]) := by
          rw [List.dropLast_concat_getLast]
        _ = _ := by rw [segmentSteps_append, hkept, segmentSteps_trimEnd]
    have hlead : (p.lead ++ joinSegments kept).take (leadLength (p.lead ++ joinSegments kept)) = p.lead := by
      refine lead_of_prefix ?_ fun _ hpoint => ?_
      · obtain ⟨dropped, hdropped⟩ := exists_append_trimEnd (trimEnd p.body).dropLast
        obtain ⟨last, htrimmed⟩ := exists_append_trimEnd p.body
        have hstart : joinSegments kept <+: joinSegments p.body := by
          rw [htrimmed, ← List.dropLast_concat_getLast hne, hdropped, List.append_assoc, List.append_assoc]
          exact joinSegments_prefix kept _
        have htext : p.text.toList = p.lead ++ joinSegments p.body := by
          rw [body, joinSegments_splitSegments, lead, List.take_append_drop]
        conv_rhs => rw [htext]
        exact (List.prefix_append_right_inj p.lead).mpr hstart
      · have hsome : kept ≠ [] := fun hnone => by simp [hnone, joinSegments] at hpoint
        have hone : kept = [['.']] := by
          rw [← splitSegments_joinSegments hsome fun s hs => hslash s (hsub hs), hpoint]
          rfl
        exact trimEnd_ne_idle (s := ['.']) rfl hone
    refine ⟨if (trimEnd p.body).getLast hne == ['.', '.'] then .up
      else .name (String.ofList ((trimEnd p.body).getLast hne)), ?_, ?_⟩
    · split <;> simp
    · rw [components_ofList (fun s hs => hslash s (hsub hs)) hlead, components_eq, hbody, List.append_assoc]
      simp [segmentSteps, hlast]

/-! ## Directories -/

/-- A path is somewhere in a directory, which is its parent or a directory above that. -/
def LiesIn : Path → Path → Prop :=
  Relation.TransGen fun p directory => p.parent? = some directory

namespace LiesIn

variable {p d e : Path}

/-- A directory says some of the steps of what lies in it. -/
theorem components (h : p.LiesIn d) : ∃ steps, steps ≠ [] ∧ p.components = d.components ++ steps := by
  induction h with
  | single h =>
    obtain ⟨step, -, hsteps⟩ := components_parent? h
    exact ⟨[step], by simp, hsteps⟩
  | tail _ h ih =>
    obtain ⟨steps, hne, hsteps⟩ := ih
    obtain ⟨step, -, hstep⟩ := components_parent? h
    exact ⟨step :: steps, by simp, by rw [hsteps, hstep, List.append_assoc, List.singleton_append]⟩

theorem trans (h : p.LiesIn d) (h' : d.LiesIn e) : p.LiesIn e :=
  Relation.TransGen.trans h h'

/-- No directory lies in itself, and of two directories that say the same none lies in the other one. -/
theorem not_same (h : p.LiesIn d) : p.same d = false := by
  obtain ⟨steps, hne, hsteps⟩ := h.components
  rw [same, beq_eq_false_iff_ne, hsteps]
  simpa using hne

theorem irrefl (p : Path) : ¬ p.LiesIn p := fun h => by
  have hsame := h.not_same
  simp [same] at hsame

theorem asymm (h : p.LiesIn d) : ¬ d.LiesIn p := fun h' =>
  irrefl p (h.trans h')

end LiesIn

theorem ancestors_of_parent? {p d : Path} (h : p.parent? = some d) : p.ancestors = d :: d.ancestors := by
  rw [ancestors]
  split <;> simp_all

/-- The directories above a path are those that it lies in. -/
theorem mem_ancestors_iff {p d : Path} : d ∈ p.ancestors ↔ p.LiesIn d := by
  constructor
  · intro h
    fun_induction ancestors p with
    | case1 => cases h
    | case2 p q hparent ih =>
      rcases List.mem_cons.mp h with rfl | h
      · exact .single hparent
      · exact .head hparent (ih h)
  · intro h
    induction h using Relation.TransGen.head_induction_on with
    | single h => simp [ancestors_of_parent? h]
    | head h _ ih => exact ancestors_of_parent? h ▸ List.mem_cons_of_mem _ ih

/-- Each directory above a path lies in those that come behind it. -/
theorem pairwise_ancestors (p : Path) : p.ancestors.Pairwise LiesIn := by
  fun_induction ancestors p with
  | case1 => exact .nil
  | case2 p q _ ih => exact ih.cons fun d hd => mem_ancestors_iff.mp hd

end ModuleBuild.Path
