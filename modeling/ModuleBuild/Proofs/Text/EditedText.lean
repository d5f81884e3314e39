import Mathlib
import ModuleBuild.Proofs.Text.Splice

/-!
# Edited texts

What edits should give can be said position by position: first what is inserted there, then what the
replacement puts that starts there, then the character that stands there, unless it is replaced. Making edits
one behind the other gives this text for all of them that are made. Edits that overlap with one that is made
are left out, and so is what is to be inserted where a replacement starts: the longer one of two edits that
start together is made first, and the other one then counts as inside of it.

## Main definitions

* `Edit.textFrom` — the text that edits should give.
* `Edit.applied`, `Edit.leftOut` — the edits that are made, and the others.
* `Edit.Apart` — two edits that do not overlap.
* `Edit.Lost`, `Edit.kept` — insertions where a replacement starts, and the edits that are none of them.

## Main statements

* `Edit.splice_eq_textFrom` — the edits that are made give their text.
* `Edit.applyEdits_made_iff` — which edits are made, and when it is all of them.
-/

namespace ModuleBuild

open Text

namespace Edit

/-! ## The text that edits should give -/

/-- Whether an edit takes nothing out at a position, but only puts something there. -/
def insertsAt (p : Nat) (e : Edit) : Bool :=
  e.start == p && e.stop == p

/-- Whether an edit replaces the character at a position and those before it not. -/
def replacesAt (p : Nat) (e : Edit) : Bool :=
  e.start == p && p < e.stop

/-- Whether an edit replaces the character at a position. -/
def covers (p : Nat) (e : Edit) : Bool :=
  e.start ≤ p && p < e.stop

/-- What edits put at a position: insertions come before what replaces. -/
def putAt (edits : List Edit) (p : Nat) : List Char :=
  (edits.filter (insertsAt p)).flatMap (·.text.toList) ++ (edits.filter (replacesAt p)).flatMap (·.text.toList)

/-- The text from a position on that edits should give: at each position what they put there, and the
character that stands there unless it is replaced. -/
def textFrom (edits : List Edit) (p : Nat) : List Char → List Char
  | [] => putAt edits p
  | c :: rest =>
    putAt edits p ++ (if edits.any (covers p) then [] else [c]) ++ textFrom edits (p + c.utf8Size) rest

variable {edits : List Edit} {e : Edit} {p : Nat}

theorem insertsAt_iff : e.insertsAt p = true ↔ e.start = p ∧ e.stop = p := by
  simp [insertsAt]

theorem replacesAt_iff : e.replacesAt p = true ↔ e.start = p ∧ p < e.stop := by
  simp [replacesAt]

theorem covers_iff : e.covers p = true ↔ e.start ≤ p ∧ p < e.stop := by
  simp [covers]

/-- Edits that start later put nothing at a position. -/
theorem putAt_eq_nil (h : ∀ e ∈ edits, p < e.start) : putAt edits p = [] := by
  have hinserts : edits.filter (insertsAt p) = [] := by
    rw [List.filter_eq_nil_iff]
    intro e he
    have := h e he
    simp only [insertsAt_iff]
    omega
  have hreplaces : edits.filter (replacesAt p) = [] := by
    rw [List.filter_eq_nil_iff]
    intro e he
    have := h e he
    simp only [replacesAt_iff]
    omega
  rw [putAt, hinserts, hreplaces]
  rfl

/-- Edits that start later replace nothing at a position. -/
theorem any_covers_eq_false (h : ∀ e ∈ edits, p < e.start) : edits.any (covers p) = false := by
  rw [List.any_eq_false]
  intro e he
  have := h e he
  simp only [covers_iff]
  omega

/-- A text is known from what edits put and cover at its positions. -/
theorem textFrom_congr {others : List Edit} (cs : List Char)
    (hput : ∀ q, p ≤ q → putAt edits q = putAt others q)
    (hcovers : ∀ q, p ≤ q → edits.any (covers q) = others.any (covers q)) :
    textFrom edits p cs = textFrom others p cs := by
  induction cs generalizing p with
  | nil => exact hput p le_rfl
  | cons c rest ih =>
    rw [textFrom, textFrom, hput p le_rfl, hcovers p le_rfl,
      ih (fun q hq => hput q (by omega)) fun q hq => hcovers q (by omega)]

/-- An edit whose text is put already does not matter any more. -/
theorem textFrom_cons_of_past (cs : List Char) (hpast : e.start < p ∧ e.stop ≤ p) :
    textFrom (e :: edits) p cs = textFrom edits p cs := by
  have hno (q : Nat) (hq : p ≤ q) :
      e.insertsAt q = false ∧ e.replacesAt q = false ∧ e.covers q = false := by
    simp only [← Bool.not_eq_true, insertsAt_iff, replacesAt_iff, covers_iff]
    omega
  refine textFrom_congr cs (fun q hq => ?_) fun q hq => ?_
  · obtain ⟨hinserts, hreplaces, -⟩ := hno q hq
    simp [putAt, hinserts, hreplaces]
  · obtain ⟨-, -, hcovers⟩ := hno q hq
    simp [hcovers]

/-- Up to the first edit a text stays as it is. -/
theorem textFrom_append (xs ys : List Char) (h : ∀ e ∈ edits, p + byteLength xs ≤ e.start) :
    textFrom edits p (xs ++ ys) = xs ++ textFrom edits (p + byteLength xs) ys := by
  induction xs generalizing p with
  | nil => simp
  | cons x xs ih =>
    rw [byteLength] at h ⊢
    have hpos := x.utf8Size_pos
    have hlater : ∀ e ∈ edits, p < e.start := fun e he => by
      have := h e he
      omega
    rw [List.cons_append, textFrom, putAt_eq_nil hlater, any_covers_eq_false hlater, ih, Nat.add_assoc]
    · simp
    · intro e he
      have := h e he
      omega

/-- What an edit replaces is left out. -/
theorem textFrom_cons_inside (xs ys : List Char) (hinside : e.start < p) (hstop : p + byteLength xs = e.stop)
    (hbehind : ∀ e' ∈ edits, e.stop ≤ e'.start) :
    textFrom (e :: edits) p (xs ++ ys) = textFrom edits e.stop ys := by
  induction xs generalizing p with
  | nil =>
    rw [byteLength_nil, Nat.add_zero] at hstop
    rw [List.nil_append, textFrom_cons_of_past ys ⟨hinside, hstop.ge⟩, hstop]
  | cons x xs ih =>
    rw [byteLength] at hstop
    have hpos := x.utf8Size_pos
    have hlater : ∀ e' ∈ edits, p < e'.start := fun e' he' => by
      have := hbehind e' he'
      omega
    have hcovers : e.covers p = true := by
      rw [covers_iff]
      omega
    have hput : putAt (e :: edits) p = putAt edits p := by
      have hinserts : e.insertsAt p = false := by
        rw [← Bool.not_eq_true, insertsAt_iff]
        omega
      have hreplaces : e.replacesAt p = false := by
        rw [← Bool.not_eq_true, replacesAt_iff]
        omega
      simp [putAt, hinserts, hreplaces]
    rw [List.cons_append, textFrom, hput, putAt_eq_nil hlater, List.any_cons, hcovers]
    exact ih (by omega) (by omega)

/-- Where an edit starts, its text is put, and what it replaces is left out. -/
theorem textFrom_cons_start (xs ys : List Char) (hstop : e.start + byteLength xs = e.stop)
    (hbehind : ∀ e' ∈ edits, e.stop ≤ e'.start) :
    textFrom (e :: edits) e.start (xs ++ ys) = e.text.toList ++ textFrom edits e.stop ys := by
  cases xs with
  | nil =>
    rw [byteLength_nil, Nat.add_zero] at hstop
    have hinserts : e.insertsAt e.start = true := insertsAt_iff.2 ⟨rfl, hstop.symm⟩
    have hreplaces : e.replacesAt e.start = false := by
      rw [← Bool.not_eq_true, replacesAt_iff]
      omega
    have hput : putAt (e :: edits) e.start = e.text.toList ++ putAt edits e.start := by
      simp [putAt, hinserts, hreplaces]
    have hcovers : (e :: edits).any (covers e.start) = edits.any (covers e.start) := by
      have hnot : e.covers e.start = false := by
        rw [← Bool.not_eq_true, covers_iff]
        omega
      simp [hnot]
    rw [List.nil_append, ← hstop]
    cases ys with
    | nil => exact hput
    | cons y ys =>
      have hpos := y.utf8Size_pos
      rw [textFrom, hput, hcovers, textFrom_cons_of_past ys (by omega), textFrom]
      simp only [List.append_assoc]
  | cons x xs =>
    rw [byteLength] at hstop
    have hpos := x.utf8Size_pos
    have hlater : ∀ e' ∈ edits, e.start < e'.start := fun e' he' => by
      have := hbehind e' he'
      omega
    have hcovers : e.covers e.start = true := by
      rw [covers_iff]
      omega
    have hput : putAt (e :: edits) e.start = e.text.toList := by
      have hrest := putAt_eq_nil hlater
      have hinserts : e.insertsAt e.start = false := by
        rw [← Bool.not_eq_true, insertsAt_iff]
        omega
      have hreplaces : e.replacesAt e.start = true := by
        rw [replacesAt_iff]
        omega
      obtain ⟨hnone, hnone'⟩ := List.append_eq_nil_iff.1 hrest
      simp [putAt, hinserts, hreplaces, hnone, hnone']
    rw [List.cons_append, textFrom, hput, List.any_cons, hcovers,
      textFrom_cons_inside xs ys (by omega) (by omega) hbehind]
    simp

/-! ## Edits that are made -/

/-- An edit takes out a part of a text and splits no character. -/
structure Fits (source : List Char) (e : Edit) : Prop where
  le : e.start ≤ e.stop
  start_boundary : OnBoundary source e.start
  stop_boundary : OnBoundary source e.stop

instance (source : List Char) (e : Edit) : Decidable (e.Fits source) :=
  decidable_of_iff (e.start ≤ e.stop ∧ OnBoundary source e.start ∧ OnBoundary source e.stop)
    ⟨fun ⟨le, start, stop⟩ => ⟨le, start, stop⟩, fun ⟨le, start, stop⟩ => ⟨le, start, stop⟩⟩

/-- Of ordered edits, the ones that are made behind a position. -/
def applied : Nat → List Edit → List Edit
  | _, [] => []
  | cursor, e :: rest => if e.start < cursor then applied cursor rest else e :: applied e.stop rest

/-- Of ordered edits, the ones that are not made behind a position. -/
def leftOut : Nat → List Edit → List Edit
  | _, [] => []
  | cursor, e :: rest => if e.start < cursor then e :: leftOut cursor rest else leftOut e.stop rest

variable {source : List Char} {cursor : Nat}

theorem applied_append_leftOut_perm (cursor : Nat) (edits : List Edit) :
    (applied cursor edits ++ leftOut cursor edits).Perm edits := by
  induction edits generalizing cursor with
  | nil => exact .nil
  | cons e rest ih =>
    rw [applied, leftOut]
    split
    · exact List.perm_middle.trans ((ih cursor).cons e)
    · exact (ih e.stop).cons e

theorem applied_sublist (cursor : Nat) (edits : List Edit) : (applied cursor edits).Sublist edits := by
  induction edits generalizing cursor with
  | nil => exact .slnil
  | cons e rest ih =>
    rw [applied]
    split
    · exact (ih cursor).cons e
    · exact (ih e.stop).cons_cons e

/-- Only edits that are made matter. -/
theorem splice_applied (source : List Char) (cursor : Nat) (edits : List Edit) :
    splice source cursor (applied cursor edits) = splice source cursor edits := by
  induction edits generalizing cursor with
  | nil => rfl
  | cons e rest ih =>
    rw [applied]
    split
    · rename_i hlt
      rw [ih, splice_cons_of_lt hlt]
    · rename_i hle
      rw [splice_cons (by omega), splice_cons (by omega), ih]

theorem le_start_of_mem_applied (hle : ∀ e ∈ edits, e.start ≤ e.stop) (he : e ∈ applied cursor edits) :
    cursor ≤ e.start := by
  induction edits generalizing cursor with
  | nil => cases he
  | cons first rest ih =>
    obtain ⟨hfirst, hrest⟩ := List.forall_mem_cons.1 hle
    rw [applied] at he
    split at he
    · exact ih hrest he
    · rcases List.mem_cons.1 he with rfl | he
      · omega
      · have := ih hrest he
        omega

/-- Each edit that is made stands behind those made before it. -/
theorem applied_pairwise (hle : ∀ e ∈ edits, e.start ≤ e.stop) :
    (applied cursor edits).Pairwise fun a b => a.stop ≤ b.start := by
  induction edits generalizing cursor with
  | nil => exact .nil
  | cons e rest ih =>
    obtain ⟨-, hrest⟩ := List.forall_mem_cons.1 hle
    rw [applied]
    split
    · exact ih hrest
    · exact .cons (fun b hb => le_start_of_mem_applied hrest hb) (ih hrest)

/-- An edit that is left out starts inside of one that is made, or inside of what was taken out before all of
them. -/
theorem exists_of_mem_leftOut (hsorted : edits.Pairwise fun a b => before a b = true)
    (he : e ∈ leftOut cursor edits) :
    e.start < cursor ∨ ∃ a ∈ applied cursor edits, a.start ≤ e.start ∧ e.start < a.stop := by
  induction edits generalizing cursor with
  | nil => cases he
  | cons first rest ih =>
    obtain ⟨hfirst, hrest⟩ := List.pairwise_cons.1 hsorted
    rw [leftOut] at he
    rw [applied]
    split at he
    · rename_i hlt
      rw [if_pos hlt]
      rcases List.mem_cons.1 he with rfl | he
      · exact .inl hlt
      · exact ih hrest he
    · rename_i hle
      rw [if_neg hle]
      have hmem : e ∈ rest := (applied_append_leftOut_perm _ _).subset (List.mem_append_right _ he)
      have hstart : first.start ≤ e.start := by
        rcases before_iff.1 (hfirst e hmem) with h | h <;> omega
      rcases ih hrest he with hinside | ⟨a, ha, hinside⟩
      · exact .inr ⟨first, List.mem_cons_self, hstart, hinside⟩
      · exact .inr ⟨a, List.mem_cons_of_mem _ ha, hinside⟩

/-- Edits in order give the text that they should give. -/
theorem splice_eq_textFrom (hcursor : OnBoundary source cursor) (hfits : ∀ e ∈ edits, e.Fits source)
    (hstart : ∀ e ∈ edits, cursor ≤ e.start) (horder : edits.Pairwise fun a b => a.stop ≤ b.start) :
    splice source cursor edits = textFrom edits cursor (dropBytes cursor source) := by
  induction edits generalizing cursor with
  | nil =>
    have hkept : textFrom [] cursor (dropBytes cursor source ++ []) = dropBytes cursor source ++ _ :=
      textFrom_append _ _ (by simp)
    rw [List.append_nil] at hkept
    rw [splice, hkept]
    simp [textFrom, putAt]
  | cons e rest ih =>
    obtain ⟨hbehind, horder⟩ := List.pairwise_cons.1 horder
    obtain ⟨hown, hrest⟩ := List.forall_mem_cons.1 hfits
    have hle : cursor ≤ e.start := hstart e List.mem_cons_self
    have hafter : ∀ e' ∈ e :: rest, e.start ≤ e'.start := by
      intro e' he'
      rcases List.mem_cons.1 he' with rfl | he'
      · exact le_rfl
      · exact hown.le.trans (hbehind e' he')
    have hgap : cursor + byteLength (sliceBytes cursor e.start source) = e.start := by
      rw [byteLength_sliceBytes hcursor hown.start_boundary hle]
      omega
    have hspan : e.start + byteLength (sliceBytes e.start e.stop source) = e.stop := by
      rw [byteLength_sliceBytes hown.start_boundary hown.stop_boundary hown.le]
      have := hown.le
      omega
    rw [splice_cons hle, ih hown.stop_boundary hrest hbehind horder,
      ← sliceBytes_append_dropBytes hcursor hown.start_boundary hle,
      textFrom_append _ _ (by rwa [hgap]), hgap,
      ← sliceBytes_append_dropBytes hown.start_boundary hown.stop_boundary hown.le,
      textFrom_cons_start _ _ hspan hbehind, List.append_assoc]

/-! ## Which edits are made -/

/-- Two edits that share no more than an end point. -/
def Apart (a b : Edit) : Prop :=
  a.stop ≤ b.start ∨ b.stop ≤ a.start

instance (a b : Edit) : Decidable (a.Apart b) :=
  inferInstanceAs (Decidable (_ ∨ _))

/-- An insertion where something is replaced that starts there. -/
def Lost (edits : List Edit) (e : Edit) : Prop :=
  e.start = e.stop ∧ ∃ a ∈ edits, a.start = e.start ∧ a.start < a.stop

instance (edits : List Edit) (e : Edit) : Decidable (e.Lost edits) :=
  inferInstanceAs (Decidable (_ ∧ _))

theorem Apart.symm {a b : Edit} (h : a.Apart b) : b.Apart a :=
  Or.symm h

theorem before_trans (a b c : Edit) (hab : before a b = true) (hbc : before b c = true) :
    before a c = true := by
  rw [before_iff] at *
  omega

theorem before_total (a b : Edit) : (before a b || before b a) = true := by
  rw [Bool.or_eq_true, before_iff, before_iff]
  omega

theorem pairwise_before_mergeSort (edits : List Edit) :
    (edits.mergeSort before).Pairwise fun a b => before a b = true :=
  List.pairwise_mergeSort before_trans before_total edits

/-- Edits that are in order already keep theirs, whichever stand between them. -/
theorem filter_mergeSort {f : Edit → Bool}
    (horder : (edits.filter f).Pairwise fun a b => before a b = true) :
    (edits.mergeSort before).filter f = edits.filter f := by
  have hsub : (edits.filter f).Sublist (edits.mergeSort before) :=
    List.sublist_mergeSort before_trans before_total horder List.filter_sublist
  have hsub : (edits.filter f).Sublist ((edits.mergeSort before).filter f) := by
    simpa using hsub.filter f
  have hlength := ((List.mergeSort_perm edits before).filter f).length_eq
  exact (hsub.eq_of_length hlength.symm).symm

/-- What edits that do not overlap should give does not depend on their order, except that insertions at one
position keep theirs, as they do when they are sorted. -/
theorem textFrom_mergeSort (hapart : edits.Pairwise Apart) (f : Edit → Bool) (cs : List Char) :
    textFrom ((edits.mergeSort before).filter f) p cs = textFrom (edits.filter f) p cs := by
  have hperm : ((edits.mergeSort before).filter f).Perm (edits.filter f) :=
    (List.mergeSort_perm edits before).filter f
  refine textFrom_congr cs (fun q _ => ?_) fun q _ => hperm.any_eq
  have hinserts : (edits.filter fun e => insertsAt q e && f e).Pairwise fun a b => before a b = true := by
    refine List.pairwise_of_forall_mem_list fun a ha b hb => ?_
    simp only [List.mem_filter, Bool.and_eq_true, insertsAt_iff] at ha hb
    rw [before_iff]
    omega
  have hreplaces : (edits.filter fun e => replacesAt q e && f e).Pairwise fun a b => before a b = true := by
    refine (hapart.filter _).imp_of_mem fun {a b} ha hb hab => ?_
    simp only [List.mem_filter, Bool.and_eq_true, replacesAt_iff] at ha hb
    rcases hab with hab | hab <;> omega
  rw [putAt, putAt, List.filter_filter, List.filter_filter, List.filter_filter, List.filter_filter,
    filter_mergeSort hinserts, filter_mergeSort hreplaces]

/-- The edits that are made are those with some property, if no other one has it. -/
theorem applied_eq_filter {f : Edit → Bool} (happlied : ∀ e ∈ applied cursor edits, f e = true)
    (hleft : ∀ e ∈ leftOut cursor edits, f e = false) : applied cursor edits = edits.filter f := by
  induction edits generalizing cursor with
  | nil => rfl
  | cons e rest ih =>
    rw [applied] at happlied ⊢
    rw [leftOut] at hleft
    split at hleft
    · rename_i hlt
      obtain ⟨hown, hleft⟩ := List.forall_mem_cons.1 hleft
      rw [if_pos hlt] at happlied ⊢
      rw [List.filter_cons_of_neg (by simp [hown]), ih happlied hleft]
    · rename_i hle
      rw [if_neg hle] at happlied ⊢
      obtain ⟨hown, happlied⟩ := List.forall_mem_cons.1 happlied
      rw [List.filter_cons_of_pos hown, ih happlied hleft]

/-- Of ordered edits that do not overlap, those that are not made are the insertions where something is replaced. -/
theorem lost_of_mem_leftOut (hle : ∀ e ∈ edits, e.start ≤ e.stop) (hapart : edits.Pairwise Apart)
    (hsorted : edits.Pairwise fun a b => before a b = true) (he : e ∈ leftOut 0 edits) : e.Lost edits := by
  have hperm := applied_append_leftOut_perm 0 edits
  have hparts : (applied 0 edits ++ leftOut 0 edits).Pairwise Apart :=
    (hperm.pairwise_iff Apart.symm).2 hapart
  obtain hnone | ⟨a, ha, hstart, hstop⟩ := exists_of_mem_leftOut hsorted he
  · omega
  · have hown := hle e (hperm.subset (List.mem_append_right _ he))
    have hmem : a ∈ edits := hperm.subset (List.mem_append_left _ ha)
    have hapart : a.Apart e := (List.pairwise_append.1 hparts).2.2 a ha e he
    rcases hapart with h | h
    · omega
    · exact ⟨by omega, a, hmem, by omega, by omega⟩

/-- Of ordered edits that do not overlap, no insertion is made where something is replaced. -/
theorem not_lost_of_mem_applied (hle : ∀ e ∈ edits, e.start ≤ e.stop) (hapart : edits.Pairwise Apart)
    (hsorted : edits.Pairwise fun a b => before a b = true) (he : e ∈ applied 0 edits) : ¬ e.Lost edits := by
  rintro ⟨hempty, a, ha, hstart, hstop⟩
  have ha : a ∈ applied 0 edits := by
    rcases List.mem_append.1 ((applied_append_leftOut_perm 0 edits).symm.subset ha) with ha | ha
    · exact ha
    · have hlost := (lost_of_mem_leftOut hle hapart hsorted ha).1
      omega
  -- a replacement stands in front of an insertion at its start, and so the insertion is inside of it
  have hboth : (applied 0 edits).Pairwise fun a b => a.stop ≤ b.start ∧ before a b = true :=
    (applied_pairwise hle).and (hsorted.sublist (applied_sublist 0 edits))
  have hne : a ≠ e := by
    rintro rfl
    omega
  have : Std.Symm fun a b : Edit =>
      (a.stop ≤ b.start ∧ before a b = true) ∨ (b.stop ≤ a.start ∧ before b a = true) := ⟨fun _ _ => Or.symm⟩
  have heither : (applied 0 edits).Pairwise fun a b =>
      (a.stop ≤ b.start ∧ before a b = true) ∨ (b.stop ≤ a.start ∧ before b a = true) := hboth.imp Or.inl
  rcases heither.forall ha he hne with ⟨h, -⟩ | ⟨-, h⟩
  · omega
  · rw [before_iff] at h
    omega

/-! ## When no text is lost -/

theorem putAt_filter_sublist (f : Edit → Bool) : (putAt (edits.filter f) p).Sublist (putAt edits p) := by
  have hpart (g : Edit → Bool) : (((edits.filter f).filter g).flatMap (·.text.toList)).Sublist
      ((edits.filter g).flatMap (·.text.toList)) :=
    (List.filter_sublist.filter g).flatMap _
  exact (hpart _).append (hpart _)

/-- Leaving out edits that replace nothing leaves out their text. -/
theorem textFrom_sublist {fewer : List Edit} (cs : List Char)
    (hput : ∀ q, (putAt fewer q).Sublist (putAt edits q))
    (hcovers : ∀ q, fewer.any (covers q) = edits.any (covers q)) :
    (textFrom fewer p cs).Sublist (textFrom edits p cs) := by
  induction cs generalizing p with
  | nil => exact hput p
  | cons c rest ih =>
    rw [textFrom, textFrom, hcovers p]
    exact ((hput p).append (List.Sublist.refl _)).append ih

/-- Where nothing is left out of a text, nothing is left out at any position. -/
theorem putAt_eq_of_textFrom_eq {fewer : List Edit} {cs : List Char} {n : Nat}
    (hput : ∀ q, (putAt fewer q).Sublist (putAt edits q))
    (hcovers : ∀ q, fewer.any (covers q) = edits.any (covers q))
    (hsame : textFrom fewer p cs = textFrom edits p cs) (hn : OnBoundary cs n) :
    putAt fewer (p + n) = putAt edits (p + n) := by
  induction cs generalizing p n with
  | nil =>
    have hzero : n = 0 := by simpa [OnBoundary, takeBytes] using hn.symm
    simpa [hzero, textFrom] using hsame
  | cons c rest ih =>
    rw [textFrom, textFrom, hcovers p] at hsame
    have hrest := textFrom_sublist (p := p + c.utf8Size) rest hput hcovers
    have hlength := congrArg List.length hsame
    simp only [List.length_append] at hlength
    have hle := (hput p).length_le
    have hrestle := hrest.length_le
    rw [OnBoundary, takeBytes] at hn
    split at hn
    · rename_i hfits
      rw [byteLength] at hn
      have hn' : OnBoundary rest (n - c.utf8Size) := by
        rw [OnBoundary]
        omega
      have hnext := ih (hrest.eq_of_length (by omega)) hn'
      rwa [show p + c.utf8Size + (n - c.utf8Size) = p + n by omega] at hnext
    · have hzero : n = 0 := hn.symm
      rw [hzero]
      exact (hput p).eq_of_length (by omega)

/-- Elements without a text may be left out. -/
theorem flatMap_filter_eq {f : Edit → Bool} (h : ∀ e ∈ edits, f e = false → e.text.toList = []) :
    (edits.filter f).flatMap (·.text.toList) = edits.flatMap (·.text.toList) := by
  induction edits with
  | nil => rfl
  | cons e rest ih =>
    obtain ⟨hown, hrest⟩ := List.forall_mem_cons.1 h
    cases hf : f e with
    | true => rw [List.filter_cons_of_pos hf, List.flatMap_cons, List.flatMap_cons, ih hrest]
    | false => rw [List.filter_cons_of_neg (by simp [hf]), List.flatMap_cons, hown hf, ih hrest, List.nil_append]

/-- The edits among others that are not lost. -/
def kept (edits : List Edit) : List Edit :=
  edits.filter fun e => !decide (e.Lost edits)

/-- A lost insertion replaces nothing. -/
theorem any_covers_kept (edits : List Edit) (q : Nat) : (kept edits).any (covers q) = edits.any (covers q) := by
  rw [Bool.eq_iff_iff, List.any_eq_true, List.any_eq_true]
  constructor
  · rintro ⟨e, he, hcovers⟩
    exact ⟨e, (List.mem_filter.1 he).1, hcovers⟩
  · rintro ⟨e, he, hcovers⟩
    refine ⟨e, List.mem_filter.2 ⟨he, ?_⟩, hcovers⟩
    rw [covers_iff] at hcovers
    have hnot : ¬ e.Lost edits := fun hlost => by
      have := hlost.1
      omega
    simp [hnot]

/-- Where an insertion is lost, no other one is kept, and what replaces is. -/
theorem putAt_kept_of_lost (he : e.Lost edits) :
    putAt (kept edits) e.start = (edits.filter (replacesAt e.start)).flatMap (·.text.toList) := by
  have hinserts : (kept edits).filter (insertsAt e.start) = [] := by
    rw [List.filter_eq_nil_iff]
    intro e' he' hat
    obtain ⟨hstart, hstop⟩ := insertsAt_iff.1 hat
    have hlost : e'.Lost edits := by
      refine ⟨by omega, ?_⟩
      rw [hstart]
      exact he.2
    simpa [hlost] using (List.mem_filter.1 he').2
  have hreplaces : (kept edits).filter (replacesAt e.start) = edits.filter (replacesAt e.start) := by
    rw [kept, List.filter_filter]
    refine List.filter_congr fun e' _ => ?_
    have hnot : e'.replacesAt e.start = true → ¬ e'.Lost edits := fun hat hlost => by
      rw [replacesAt_iff] at hat
      have := hlost.1
      omega
    grind
  rw [putAt, hinserts, hreplaces]
  rfl

/-- Leaving out the lost insertions does not change a text just if they have none themselves. -/
theorem textFrom_kept_eq_iff {source : List Char} (hfits : ∀ e ∈ edits, e.Fits source) :
    textFrom (kept edits) 0 source = textFrom edits 0 source ↔ ∀ e ∈ edits, e.Lost edits → e.text = "" := by
  constructor
  · intro hsame e he hlost
    have hfewer (q : Nat) : (putAt (kept edits) q).Sublist (putAt edits q) := putAt_filter_sublist _
    have hput := putAt_eq_of_textFrom_eq hfewer (any_covers_kept edits) hsame (hfits e he).start_boundary
    rw [Nat.zero_add, putAt_kept_of_lost hlost, putAt, List.self_eq_append_left, List.flatMap_eq_nil_iff] at hput
    have hnone := hput e (List.mem_filter.2 ⟨he, insertsAt_iff.2 ⟨rfl, hlost.1.symm⟩⟩)
    exact String.toList_eq_nil_iff.1 hnone
  · intro hnone
    refine textFrom_congr source (fun q _ => ?_) fun q _ => any_covers_kept edits q
    have hpart (g : Edit → Bool) : ((kept edits).filter g).flatMap (·.text.toList) =
        (edits.filter g).flatMap (·.text.toList) := by
      rw [kept, List.filter_comm]
      refine flatMap_filter_eq fun e he hlost => ?_
      have hlost : e.Lost edits := by simpa using hlost
      rw [hnone e (List.mem_filter.1 he).1 hlost]
      rfl
    rw [putAt, putAt, hpart, hpart]

/-- The text that edits make is the one that some of them should give, of which each stands behind the
others before it. An edit that is not among these starts inside of one that is, or where one starts that
replaces something, and then it either replaces something too or is an insertion. If no two edits overlap,
these insertions are all that is left out, and every edit is made just if they are without text. -/
theorem applyEdits_made_iff (source : String) (edits : List Edit) (hfits : ∀ e ∈ edits, e.Fits source.toList) :
    (∃ made out, (made ++ out).Perm edits ∧ (made.Pairwise fun a b => a.stop ≤ b.start) ∧
      applyEdits source edits = String.ofList (textFrom made 0 source.toList) ∧
      ∀ e ∈ out, ∃ a ∈ made, a.start < e.start ∧ e.start < a.stop ∨
        e.start = a.start ∧ a.start < a.stop ∧ (e.start < e.stop ∨ e.Lost edits)) ∧
    (edits.Pairwise Apart →
      applyEdits source edits = String.ofList (textFrom (kept edits) 0 source.toList) ∧
      (applyEdits source edits = String.ofList (textFrom edits 0 source.toList) ↔
        ∀ e ∈ edits, e.Lost edits → e.text = "")) := by
  have hsorted := pairwise_before_mergeSort edits
  have hmem {e : Edit} (he : e ∈ edits.mergeSort before) : e ∈ edits := List.mem_mergeSort.1 he
  have hle : ∀ e ∈ edits.mergeSort before, e.start ≤ e.stop := fun e he => (hfits e (hmem he)).le
  have hperm := applied_append_leftOut_perm 0 (edits.mergeSort before)
  have hmade : applyEdits source edits =
      String.ofList (textFrom (applied 0 (edits.mergeSort before)) 0 source.toList) := by
    rw [applyEdits, ← splice_applied, splice_eq_textFrom (onBoundary_zero _)
      (fun e he => hfits e (hmem ((applied_sublist _ _).subset he))) (fun _ _ => Nat.zero_le _)
      (applied_pairwise hle), dropBytes_zero]
  refine ⟨⟨_, _, hperm.trans (List.mergeSort_perm edits before), applied_pairwise hle, hmade, ?_⟩, ?_⟩
  · intro e he
    obtain hnone | ⟨a, ha, hstart, hstop⟩ := exists_of_mem_leftOut hsorted he
    · omega
    · have hown := hle e (hperm.subset (List.mem_append_right _ he))
      have haedits : a ∈ edits := hmem (hperm.subset (List.mem_append_left _ ha))
      refine ⟨a, ha, ?_⟩
      rcases hstart.lt_or_eq with hlt | hsame
      · exact .inl ⟨hlt, hstop⟩
      · refine .inr ⟨hsame.symm, by omega, ?_⟩
        rcases hown.lt_or_eq with hown | hempty
        · exact .inl hown
        · exact .inr ⟨hempty, a, haedits, hsame, by omega⟩
  · intro hapart
    have hapart' : (edits.mergeSort before).Pairwise Apart :=
      ((List.mergeSort_perm edits before).pairwise_iff Apart.symm).2 hapart
    have hlost {e : Edit} : e.Lost (edits.mergeSort before) ↔ e.Lost edits := by
      simp only [Lost, List.mem_mergeSort]
    have hkept : applyEdits source edits = String.ofList (textFrom (kept edits) 0 source.toList) := by
      have hfilter : applied 0 (edits.mergeSort before) =
          (edits.mergeSort before).filter fun e => !decide (e.Lost edits) := by
        refine applied_eq_filter (fun e he => ?_) fun e he => ?_
        · have := hlost.not.1 (not_lost_of_mem_applied hle hapart' hsorted he)
          simp [this]
        · have := hlost.1 (lost_of_mem_leftOut hle hapart' hsorted he)
          simp [this]
      rw [hmade, hfilter, textFrom_mergeSort hapart, kept]
    refine ⟨hkept, ?_⟩
    rw [hkept, String.ofList_inj, textFrom_kept_eq_iff hfits]

/-- An insertion at a place and a replacement that starts there. -/
def touching : List Edit :=
  [⟨1, 1, "X"⟩, ⟨1, 3, "Y"⟩]

/-- The two do not overlap, but the insertion is lost. -/
theorem applyEdits_made_iff_touching : (∀ e ∈ touching, e.Fits "abcd".toList) ∧ touching.Pairwise Apart ∧
    textFrom touching 0 "abcd".toList = "aXYd".toList ∧ applyEdits "abcd" touching = "aYd" ∧
    applyEdits "abcd" touching ≠ String.ofList (textFrom touching 0 "abcd".toList) := by
  have hfits : ∀ e ∈ touching, e.Fits "abcd".toList := by decide +kernel
  have hapart : touching.Pairwise Apart := by decide
  obtain ⟨hkept, hall⟩ := (applyEdits_made_iff "abcd" touching hfits).2 hapart
  have htext : textFrom (kept touching) 0 "abcd".toList = "aYd".toList := by decide +kernel
  have hlost : ∃ e ∈ touching, e.Lost touching ∧ e.text ≠ "" := by decide
  refine ⟨hfits, hapart, by decide +kernel, by rw [hkept, htext, String.ofList_toList], fun hsame => ?_⟩
  obtain ⟨e, he, hlost, hne⟩ := hlost
  exact hne (hall.1 hsame e he hlost)

end Edit

end ModuleBuild
