import Mathlib
import ModuleBuild.Proofs.Text.EditedText

/-!
# The lines of edited texts

A line that no edit touches is a line of the edited text as well. Which one it is there depends on the line
ends that the edits before it put and take out.

## Main definitions

* `Text.WholeLines` — a text of whole lines.
* `Text.Line` — a line of a text, with what stands before and behind it.
* `Edit.Touches` — an edit takes part of a line out, or has an end where the line has one.
* `Edit.made` — the edits of a list that are made.
* `Edit.drift`, `Edit.removed` — how many lines an edit moves down what stands behind it, and how many line ends
  edits take out.

## Main statements

* `Text.exists_line` — the lines of a text are those that it splits into.
* `Edit.splice_append` — edits on both sides of a position are made apart from each other.
* `Edit.exists_line_applyEdits` — a line that no edit touches stays, and where it is then.
-/

namespace ModuleBuild

namespace Text

/-! ## Lines -/

/-- A text of whole lines. -/
def WholeLines (cs : List Char) : Prop :=
  cs = [] ∨ ∃ lines, cs = lines ++ ['\n']

theorem wholeLines_concat (lines : List Char) : WholeLines (lines ++ ['\n']) :=
  .inr ⟨lines, rfl⟩

/-- What may stand behind a line: nothing, or a line end first. -/
def EndsLine (cs : List Char) : Prop :=
  cs = [] ∨ ∃ lines, cs = '\n' :: lines

/-- A line of a text, with what stands before and behind it. -/
structure Line (cs : List Char) where
  before : List Char
  line : List Char
  behind : List Char
  eq_append : cs = before ++ (line ++ behind)
  not_mem : '\n' ∉ line
  starts : WholeLines before
  ends : EndsLine behind

namespace Line

variable {cs : List Char}

/-- The number of the lines before a line. -/
def number (x : Line cs) : Nat :=
  x.before.count '\n'

/-- The position where a line starts. -/
def start (x : Line cs) : Nat :=
  byteLength x.before

/-- The position behind the last character of a line. -/
def stop (x : Line cs) : Nat :=
  x.start + byteLength x.line

/-- A line with more lines before the text. -/
def below (x : Line cs) (lead : List Char) (h : WholeLines lead) : Line (lead ++ cs) where
  before := lead ++ x.before
  line := x.line
  behind := x.behind
  eq_append := by rw [List.append_assoc, ← x.eq_append]
  not_mem := x.not_mem
  starts := by
    rcases x.starts with hnone | ⟨lines, hlines⟩
    · rwa [hnone, List.append_nil]
    · exact .inr ⟨lead ++ lines, by rw [hlines, List.append_assoc]⟩
  ends := x.ends

theorem number_below (x : Line cs) (lead : List Char) (h : WholeLines lead) :
    (x.below lead h).number = lead.count '\n' + x.number :=
  List.count_append

end Line

theorem length_splitOn_newline (cs : List Char) : (cs.splitOn '\n').length = cs.count '\n' + 1 := by
  induction cs with
  | nil => rfl
  | cons c cs ih =>
    rw [List.splitOn_cons_eq_if_modifyHead, List.count_cons]
    split <;> simp [ih]

/-- A line is the one of its number. -/
theorem Line.getElem?_number {cs : List Char} (x : Line cs) : (cs.splitOn '\n')[x.number]? = some x.line := by
  obtain ⟨before, line, behind, rfl, hline, hstarts, hends⟩ := x
  have hfirst : ((line ++ behind).splitOn '\n')[0]? = some line := by
    rcases hends with rfl | ⟨lines, rfl⟩
    · rw [List.append_nil, List.splitOn_eq_singleton hline]
      rfl
    · rw [List.splitOn_append_cons_self_of_not_mem hline]
      rfl
  rcases hstarts with rfl | ⟨lines, rfl⟩
  · exact hfirst
  · have hnumber : (lines ++ ['\n']).count '\n' = (lines.splitOn '\n').length := by
      rw [length_splitOn_newline]
      simp
    change ((lines ++ ['\n'] ++ (line ++ behind)).splitOn '\n')[(lines ++ ['\n']).count '\n']? = some line
    rw [hnumber, List.append_assoc, List.singleton_append, List.splitOn_append_cons_self,
      List.getElem?_append_right le_rfl, Nat.sub_self, hfirst]

/-- The lines of a text are those that it splits into. -/
theorem exists_line {cs line : List Char} {n : Nat} (h : (cs.splitOn '\n')[n]? = some line) :
    ∃ x : Line cs, x.number = n ∧ x.line = line := by
  induction n generalizing cs with
  | zero =>
    by_cases hbreak : '\n' ∈ cs
    · obtain ⟨first, rest, rfl, hfirst⟩ := List.eq_append_cons_of_mem hbreak
      rw [List.splitOn_append_cons_self_of_not_mem hfirst] at h
      obtain rfl := Option.some.inj h
      exact ⟨⟨[], first, '\n' :: rest, rfl, hfirst, .inl rfl, .inr ⟨rest, rfl⟩⟩, rfl, rfl⟩
    · rw [List.splitOn_eq_singleton hbreak] at h
      obtain rfl := Option.some.inj h
      exact ⟨⟨[], cs, [], by simp, hbreak, .inl rfl, .inl rfl⟩, rfl, rfl⟩
  | succ n ih =>
    by_cases hbreak : '\n' ∈ cs
    · obtain ⟨first, rest, rfl, hfirst⟩ := List.eq_append_cons_of_mem hbreak
      rw [List.splitOn_append_cons_self_of_not_mem hfirst, List.getElem?_cons_succ] at h
      obtain ⟨x, hnumber, hline⟩ := ih h
      have hlead : (first ++ ['\n']).count '\n' = 1 := by simp [List.count_eq_zero.2 hfirst]
      rw [List.append_cons]
      refine ⟨x.below (first ++ ['\n']) (wholeLines_concat first), ?_, hline⟩
      rw [Line.number_below, hlead, hnumber, Nat.add_comm]
    · rw [List.splitOn_eq_singleton hbreak] at h
      simp at h

/-! ## The beginning of a text -/

theorem takeBytes_append_of_le {n : Nat} {xs : List Char} (h : n ≤ byteLength xs) (ys : List Char) :
    takeBytes n (xs ++ ys) = takeBytes n xs := by
  induction xs generalizing n with
  | nil =>
    obtain rfl := Nat.le_zero.1 h
    simp
  | cons x xs ih =>
    rw [byteLength] at h
    rw [List.cons_append, takeBytes, takeBytes, ih (by omega)]

theorem dropBytes_append_of_le {n : Nat} {xs : List Char} (h : n ≤ byteLength xs) (ys : List Char) :
    dropBytes n (xs ++ ys) = dropBytes n xs ++ ys := by
  induction xs generalizing n with
  | nil =>
    obtain rfl := Nat.le_zero.1 h
    simp
  | cons x xs ih =>
    rw [byteLength] at h
    rw [List.cons_append, dropBytes, dropBytes, ih (by omega)]
    split <;> rfl

theorem dropBytes_byteLength_append (xs ys : List Char) : dropBytes (byteLength xs) (xs ++ ys) = ys := by
  simpa using dropBytes_append xs ys 0

theorem OnBoundary.le {n : Nat} {cs : List Char} (h : OnBoundary cs n) : n ≤ byteLength cs := by
  have hlength := congrArg byteLength (takeBytes_append_dropBytes n cs)
  rw [byteLength_append, h] at hlength
  omega

theorem onBoundary_append (xs ys : List Char) : OnBoundary (xs ++ ys) (byteLength xs) := by
  simpa [OnBoundary] using congrArg byteLength (takeBytes_append xs ys 0)

theorem onBoundary_append_iff {n : Nat} {xs : List Char} (h : n ≤ byteLength xs) (ys : List Char) :
    OnBoundary (xs ++ ys) n ↔ OnBoundary xs n := by
  rw [OnBoundary, OnBoundary, takeBytes_append_of_le h]

theorem sliceBytes_append_of_le {a b : Nat} {xs : List Char} (ha : OnBoundary xs a) (hab : a ≤ b)
    (hb : b ≤ byteLength xs) (ys : List Char) : sliceBytes a b (xs ++ ys) = sliceBytes a b xs := by
  have hlength : byteLength (takeBytes a xs) + byteLength (dropBytes a xs) = byteLength xs := by
    rw [← byteLength_append, takeBytes_append_dropBytes]
  rw [OnBoundary] at ha
  rw [sliceBytes, sliceBytes, dropBytes_append_of_le (by omega), takeBytes_append_of_le (by omega)]

end Text

open Text

namespace Edit

variable {xs ys : List Char} {edits : List Edit}

/-! ## Edits on both sides of a position -/

/-- What stands before all edits stays. -/
theorem splice_append_of_behind {cursor : Nat} (hcursor : OnBoundary xs cursor)
    (hedits : ∀ e ∈ edits, byteLength xs ≤ e.start) : splice (xs ++ ys) cursor edits =
      dropBytes cursor xs ++ splice (xs ++ ys) (byteLength xs) edits := by
  have hslice : sliceBytes cursor (byteLength xs) (xs ++ ys) = dropBytes cursor xs := by
    have hend : dropBytes (byteLength xs) xs = [] := by simpa using dropBytes_byteLength_append xs []
    have hstop : OnBoundary xs (byteLength xs) := by simpa using onBoundary_append xs []
    have hwhole := sliceBytes_append_dropBytes hcursor hstop hcursor.le
    rw [hend, List.append_nil] at hwhole
    rw [sliceBytes_append_of_le hcursor hcursor.le le_rfl, hwhole]
  rw [splice_advance ((onBoundary_append_iff hcursor.le ys).2 hcursor) (onBoundary_append xs ys) hcursor.le hedits,
    hslice]

/-- Edits before and behind a position are made apart from each other. -/
theorem splice_append {cursor : Nat} (hcursor : OnBoundary xs cursor) (hfits : ∀ e ∈ edits, e.Fits (xs ++ ys))
    (hstart : ∀ e ∈ edits, cursor ≤ e.start) (horder : edits.Pairwise fun a b => a.stop ≤ b.start)
    (hsides : ∀ e ∈ edits, e.stop ≤ byteLength xs ∨ byteLength xs < e.start) :
    splice (xs ++ ys) cursor edits = splice xs cursor (edits.filter (·.stop ≤ byteLength xs)) ++
      splice (xs ++ ys) (byteLength xs) (edits.filter (byteLength xs < ·.start)) := by
  induction edits generalizing cursor with
  | nil => exact splice_append_of_behind hcursor (by simp)
  | cons e rest ih =>
    obtain ⟨hown, hfits⟩ := List.forall_mem_cons.1 hfits
    obtain ⟨hbehind, horder⟩ := List.pairwise_cons.1 horder
    obtain ⟨hside, hsides⟩ := List.forall_mem_cons.1 hsides
    have hfirst : cursor ≤ e.start := hstart e List.mem_cons_self
    have hle := hown.le
    rcases hside with hside | hside
    · have hin : OnBoundary xs e.stop := (onBoundary_append_iff hside ys).1 hown.stop_boundary
      have hnot : ¬ byteLength xs < e.start := by omega
      rw [List.filter_cons_of_pos (by simpa using hside), List.filter_cons_of_neg (by simpa using hnot),
        splice_cons hfirst, splice_cons hfirst, sliceBytes_append_of_le hcursor hfirst (by omega),
        ih hin hfits hbehind horder hsides]
      simp only [List.append_assoc]
    · -- the other edits stand behind this one
      have hall : ∀ e' ∈ e :: rest, byteLength xs < e'.start ∧ e'.start ≤ e'.stop := by
        intro e' he'
        rcases List.mem_cons.1 he' with rfl | he'
        · exact ⟨hside, hle⟩
        · have := hbehind e' he'
          exact ⟨by omega, (hfits e' he').le⟩
      have hnone : (e :: rest).filter (·.stop ≤ byteLength xs) = [] := by
        refine List.filter_eq_nil_iff.2 fun e' he' => ?_
        have := hall e' he'
        simp
        omega
      have hsame : (e :: rest).filter (byteLength xs < ·.start) = e :: rest :=
        List.filter_eq_self.2 fun e' he' => by simpa using (hall e' he').1
      rw [hnone, hsame]
      exact splice_append_of_behind hcursor fun e' he' => (hall e' he').1.le

/-! ## The lines of an edited text -/

/-- The edits of a list that are made, in order. -/
def made (edits : List Edit) : List Edit :=
  applied 0 (edits.mergeSort before)

theorem mem_of_mem_made {e : Edit} (he : e ∈ made edits) : e ∈ edits :=
  List.mem_mergeSort.1 ((applied_sublist 0 _).subset he)

/-- How many lines an edit moves down what stands behind it: the line ends that it puts, less those that it
takes out. -/
def drift (source : List Char) (e : Edit) : ℤ :=
  e.text.toList.count '\n' - (sliceBytes e.start e.stop source).count '\n'

/-- The line ends that edits take out. -/
def removed (source : List Char) (edits : List Edit) : Nat :=
  (edits.map fun e => (sliceBytes e.start e.stop source).count '\n').sum

/-- Edits that put no line ends move lines up by those that they take out. -/
theorem sum_drift_of_not_mem {source : List Char} (h : ∀ e ∈ edits, '\n' ∉ e.text.toList) :
    (edits.map (drift source)).sum = -(removed source edits : ℤ) := by
  induction edits with
  | nil => rfl
  | cons e rest ih =>
    obtain ⟨hown, hrest⟩ := List.forall_mem_cons.1 h
    have hremoved : removed source (e :: rest) =
        (sliceBytes e.start e.stop source).count '\n' + removed source rest := rfl
    rw [List.map_cons, List.sum_cons, ih hrest, drift, List.count_eq_zero.2 hown, hremoved]
    omega

/-- An edit takes part of a line out, or has an end where the line has one. -/
def Touches {source : List Char} (e : Edit) (x : Line source) : Prop :=
  e.start ≤ x.stop ∧ x.start ≤ e.stop

instance {source : List Char} (e : Edit) (x : Line source) : Decidable (e.Touches x) :=
  inferInstanceAs (Decidable (_ ∧ _))

/-- The line ends of an edited text. -/
theorem count_splice {source : List Char} {cursor : Nat} (hcursor : OnBoundary source cursor)
    (hfits : ∀ e ∈ edits, e.Fits source) (hstart : ∀ e ∈ edits, cursor ≤ e.start)
    (horder : edits.Pairwise fun a b => a.stop ≤ b.start) :
    ((splice source cursor edits).count '\n' : ℤ) =
      (dropBytes cursor source).count '\n' + (edits.map (drift source)).sum := by
  induction edits generalizing cursor with
  | nil => simp [splice]
  | cons e rest ih =>
    obtain ⟨hown, hfits⟩ := List.forall_mem_cons.1 hfits
    obtain ⟨hbehind, horder⟩ := List.pairwise_cons.1 horder
    have hfirst : cursor ≤ e.start := hstart e List.mem_cons_self
    rw [splice_cons hfirst, ← sliceBytes_append_dropBytes hcursor hown.start_boundary hfirst,
      ← sliceBytes_append_dropBytes hown.start_boundary hown.stop_boundary hown.le, List.map_cons,
      List.sum_cons, drift]
    simp only [List.count_append, Nat.cast_add]
    rw [ih hown.stop_boundary hfits hbehind horder]
    omega

/-- Where the text before a line ends with a line end, it does so as well when it is edited. -/
theorem splice_line_starts {before : List Char} (hbefore : WholeLines before)
    (hfits : ∀ e ∈ edits, e.Fits before) (horder : edits.Pairwise fun a b => a.stop ≤ b.start)
    (hstop : ∀ e ∈ edits, e.stop < byteLength before) :
    WholeLines (splice before 0 edits) := by
  rcases hbefore with rfl | ⟨lines, rfl⟩
  · have hnone : edits = [] := List.eq_nil_iff_forall_not_mem.2 fun e he => by simpa using hstop e he
    rw [hnone]
    exact .inl rfl
  · have hin : ∀ e ∈ edits, e.stop ≤ byteLength lines := fun e he => by
      have hsize : byteLength ['\n'] = 1 := rfl
      have := hstop e he
      rw [byteLength_append, hsize] at this
      omega
    have hnone : edits.filter (byteLength lines < ·.start) = [] := by
      refine List.filter_eq_nil_iff.2 fun e he => ?_
      have := hin e he
      have := (hfits e he).le
      simp
      omega
    refine .inr ⟨splice lines 0 (edits.filter (·.stop ≤ byteLength lines)), ?_⟩
    rw [splice_append (onBoundary_zero lines) hfits (fun _ _ => Nat.zero_le _) horder fun e he => .inl (hin e he),
      hnone, splice, dropBytes_byteLength_append]

/-- A line before all edits stays a line. -/
theorem splice_line_ends {before line behind : List Char} (hbehind : EndsLine behind)
    (hfits : ∀ e ∈ edits, e.Fits (before ++ (line ++ behind)))
    (hstart : ∀ e ∈ edits, byteLength before + byteLength line < e.start) :
    ∃ rest, splice (before ++ (line ++ behind)) (byteLength before) edits = line ++ rest ∧
      EndsLine rest := by
  have hline : splice (before ++ (line ++ behind)) (byteLength before) edits =
      line ++ splice ((before ++ line) ++ behind) (byteLength (before ++ line)) edits := by
    rw [← List.append_assoc, splice_append_of_behind (onBoundary_append before line), dropBytes_byteLength_append]
    intro e he
    have := hstart e he
    rw [byteLength_append]
    omega
  refine ⟨_, hline, ?_⟩
  rcases hbehind with rfl | ⟨lines, rfl⟩
  · have hnone : edits = [] := List.eq_nil_iff_forall_not_mem.2 fun e he => by
      have := hstart e he
      have := (hfits e he).start_boundary.le
      simp only [List.append_nil, byteLength_append] at this
      omega
    rw [hnone, splice, dropBytes_byteLength_append]
    exact .inl rfl
  · refine .inr ⟨splice (((before ++ line) ++ ['\n']) ++ lines) (byteLength ((before ++ line) ++ ['\n'])) edits,
      ?_⟩
    have hcons : (before ++ line) ++ '\n' :: lines = ((before ++ line) ++ ['\n']) ++ lines := by simp
    rw [hcons, splice_append_of_behind (onBoundary_append (before ++ line) ['\n']), dropBytes_byteLength_append]
    · rfl
    · intro e he
      have hsize : byteLength ['\n'] = 1 := rfl
      have := hstart e he
      rw [byteLength_append, byteLength_append, hsize]
      omega

/-- A line that no edit touches stays. Before it stands the edited text that stood before it, and its number
changes with the line ends that the edits there put and take out. -/
theorem exists_line_splice {source : List Char} (hfits : ∀ e ∈ edits, e.Fits source)
    (horder : edits.Pairwise fun a b => a.stop ≤ b.start) (x : Line source) (hx : ∀ e ∈ edits, ¬ e.Touches x) :
    ∃ y : Line (splice source 0 edits), y.line = x.line ∧
      y.before = splice x.before 0 (edits.filter (·.stop ≤ x.start)) ∧
      (y.number : ℤ) = x.number + ((edits.filter (·.stop ≤ x.start)).map (drift source)).sum := by
  obtain ⟨before, line, behind, rfl, hline, hstarts, hends⟩ := x
  have hsides : ∀ e ∈ edits, e.stop < byteLength before ∨ byteLength before + byteLength line < e.start := by
    intro e he
    have := hx e he
    simp only [Touches, Line.stop, Line.start, not_and_or, not_le] at this
    exact this.symm
  have hfront : ∀ e ∈ edits.filter (·.stop ≤ byteLength before),
      e.stop < byteLength before ∧ e.Fits before := by
    intro e he
    obtain ⟨he, hstop⟩ := List.mem_filter.1 he
    have hstop : e.stop ≤ byteLength before := of_decide_eq_true hstop
    have hown := hfits e he
    have hstart := hown.le.trans hstop
    refine ⟨?_, hown.le, (onBoundary_append_iff hstart _).1 hown.start_boundary,
      (onBoundary_append_iff hstop _).1 hown.stop_boundary⟩
    have := hsides e he
    omega
  have hbehind : ∀ e ∈ edits.filter (byteLength before < ·.start),
      e.Fits (before ++ (line ++ behind)) ∧ byteLength before + byteLength line < e.start := by
    intro e he
    obtain ⟨he, hstart⟩ := List.mem_filter.1 he
    have hstart : byteLength before < e.start := of_decide_eq_true hstart
    have hown := hfits e he
    refine ⟨hown, ?_⟩
    have := hsides e he
    have := hown.le
    omega
  have hcut : splice (before ++ (line ++ behind)) 0 edits =
      splice before 0 (edits.filter (·.stop ≤ byteLength before)) ++
        splice (before ++ (line ++ behind)) (byteLength before) (edits.filter (byteLength before < ·.start)) :=
    splice_append (onBoundary_zero before) hfits (fun _ _ => Nat.zero_le _) horder fun e he => by
      have := hsides e he
      omega
  obtain ⟨rest, hrest, hends⟩ :=
    splice_line_ends hends (fun e he => (hbehind e he).1) fun e he => (hbehind e he).2
  have hstarts := splice_line_starts hstarts (fun e he => (hfront e he).2)
    (horder.filter _) fun e he => (hfront e he).1
  rw [hrest] at hcut
  refine ⟨⟨_, line, rest, hcut, hline, hstarts, hends⟩, rfl, rfl, ?_⟩
  have hcount := count_splice (onBoundary_zero before) (fun e he => (hfront e he).2)
    (fun _ _ => Nat.zero_le _) (horder.filter (·.stop ≤ byteLength before))
  have hdrift : (edits.filter (·.stop ≤ byteLength before)).map (drift before) =
      (edits.filter (·.stop ≤ byteLength before)).map (drift (before ++ (line ++ behind))) := by
    refine List.map_congr_left fun e he => ?_
    obtain ⟨hstop, hown⟩ := hfront e he
    rw [drift, drift, sliceBytes_append_of_le hown.start_boundary hown.le hstop.le]
  rw [dropBytes_zero, hdrift] at hcount
  exact hcount

/-- Make edits that fit a text. A line that none of them touches is a line of the edited text as well, and it
is moved down by the lines that the edits made before it add. -/
theorem exists_line_applyEdits {source : String} (hfits : ∀ e ∈ edits, e.Fits source.toList)
    (x : Line source.toList) (hx : ∀ e ∈ edits, ¬ e.Touches x) :
    ∃ y : Line (applyEdits source edits).toList, y.line = x.line ∧
      y.before = splice x.before 0 ((made edits).filter (·.stop ≤ x.start)) ∧
      (y.number : ℤ) = x.number + (((made edits).filter (·.stop ≤ x.start)).map (drift source.toList)).sum := by
  have hsorted : ∀ e ∈ edits.mergeSort before, e.start ≤ e.stop := fun e he =>
    (hfits e (List.mem_mergeSort.1 he)).le
  have htext : (applyEdits source edits).toList = splice source.toList 0 (made edits) := by
    rw [applyEdits, String.toList_ofList, made, splice_applied]
  rw [htext]
  exact exists_line_splice (fun e he => hfits e (mem_of_mem_made he)) (applied_pairwise hsorted) x
    fun e he => hx e (mem_of_mem_made he)

end Edit

end ModuleBuild
