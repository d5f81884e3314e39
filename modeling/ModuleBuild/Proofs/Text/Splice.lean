import Mathlib
import ModuleBuild.Compile.Edit

/-!
# Texts and edits

Edits are given by positions of bytes, and a text can be cut at those of them that do not split a
character. Where edits are made in order, what comes before the next one stays as it is.

## Main definitions

* `Text.OnBoundary` — positions between two characters.
* `Edit.StrictlyBefore` — one edit is made before another one, wherever the two stand in a list.

## Main statements

* `Text.sliceBytes_append` — a part of a text is cut in two at a position inside of it.
* `Edit.mergeSort_eq` — edits that are strictly in order are the sorted ones.
* `Edit.splice_advance` — a text stays as it is up to the next edit.
-/

namespace ModuleBuild

namespace Text

/-! ## Cutting texts -/

@[simp] theorem takeBytes_zero (cs : List Char) : takeBytes 0 cs = [] := by
  cases cs with
  | nil => rfl
  | cons c cs => simp [takeBytes, c.utf8Size_pos.ne']

@[simp] theorem dropBytes_zero (cs : List Char) : dropBytes 0 cs = cs := by
  cases cs with
  | nil => rfl
  | cons c cs => simp [dropBytes, c.utf8Size_pos.ne']

@[simp] theorem sliceBytes_self (n : Nat) (cs : List Char) : sliceBytes n n cs = [] := by
  simp [sliceBytes]

/-- What is taken behind a text is taken from what follows it. -/
theorem takeBytes_append (xs ys : List Char) (n : Nat) :
    takeBytes (byteLength xs + n) (xs ++ ys) = xs ++ takeBytes n ys := by
  induction xs with
  | nil => simp
  | cons x xs ih =>
    have hfits : x.utf8Size ≤ byteLength (x :: xs) + n := by
      rw [byteLength]
      omega
    have hrest : byteLength (x :: xs) + n - x.utf8Size = byteLength xs + n := by
      rw [byteLength]
      omega
    rw [List.cons_append, takeBytes, if_pos hfits, hrest, ih, List.cons_append]

theorem dropBytes_append (xs ys : List Char) (n : Nat) :
    dropBytes (byteLength xs + n) (xs ++ ys) = dropBytes n ys := by
  induction xs with
  | nil => simp
  | cons x xs ih =>
    have hfits : x.utf8Size ≤ byteLength (x :: xs) + n := by
      rw [byteLength]
      omega
    have hrest : byteLength (x :: xs) + n - x.utf8Size = byteLength xs + n := by
      rw [byteLength]
      omega
    rw [List.cons_append, dropBytes, if_pos hfits, hrest, ih]

/-- A position between two characters of a text, or at one of its ends. -/
def OnBoundary (cs : List Char) (n : Nat) : Prop :=
  byteLength (takeBytes n cs) = n

instance (cs : List Char) (n : Nat) : Decidable (OnBoundary cs n) :=
  inferInstanceAs (Decidable (_ = _))

theorem onBoundary_zero (cs : List Char) : OnBoundary cs 0 := by
  simp [OnBoundary]

/-- A text is cut at such a position. -/
theorem OnBoundary.exists_append {cs : List Char} {n : Nat} (h : OnBoundary cs n) :
    ∃ xs ys, cs = xs ++ ys ∧ byteLength xs = n :=
  ⟨takeBytes n cs, dropBytes n cs, (takeBytes_append_dropBytes n cs).symm, h⟩

/-- A text is cut at two such positions. -/
theorem OnBoundary.exists_append_append {cs : List Char} {a b : Nat} (ha : OnBoundary cs a)
    (hb : OnBoundary cs b) (hab : a ≤ b) :
    ∃ xs ys zs, cs = xs ++ (ys ++ zs) ∧ byteLength xs = a ∧ byteLength xs + byteLength ys = b := by
  obtain ⟨xs, rest, rfl, hxs⟩ := ha.exists_append
  have hrest : OnBoundary rest (b - a) := by
    have hsplit : b = byteLength xs + (b - a) := by omega
    unfold OnBoundary at hb ⊢
    rw [hsplit, takeBytes_append, byteLength_append] at hb
    omega
  obtain ⟨ys, zs, rfl, hys⟩ := hrest.exists_append
  exact ⟨xs, ys, zs, rfl, hxs, by omega⟩

variable {cs : List Char} {a b c : Nat}

/-- A part of a text is cut in two at a position inside of it. -/
theorem sliceBytes_append (ha : OnBoundary cs a) (hb : OnBoundary cs b) (hab : a ≤ b) (hbc : b ≤ c) :
    sliceBytes a b cs ++ sliceBytes b c cs = sliceBytes a c cs := by
  obtain ⟨xs, ys, zs, rfl, rfl, rfl⟩ := ha.exists_append_append hb hab
  obtain ⟨n, rfl⟩ := Nat.exists_eq_add_of_le hbc
  have hdrop : dropBytes (byteLength xs) (xs ++ (ys ++ zs)) = ys ++ zs := by
    simpa using dropBytes_append xs (ys ++ zs) 0
  have hone : byteLength xs + byteLength ys - byteLength xs = byteLength ys + 0 := by omega
  have htwo : byteLength xs + byteLength ys + n - (byteLength xs + byteLength ys) = n := by omega
  have hall : byteLength xs + byteLength ys + n - byteLength xs = byteLength ys + n := by omega
  have hrest := dropBytes_append ys zs 0
  rw [Nat.add_zero, dropBytes_zero] at hrest
  rw [sliceBytes, sliceBytes, sliceBytes, hdrop, dropBytes_append, hone, htwo, hall, hrest,
    takeBytes_append, takeBytes_append, takeBytes_zero, List.append_nil]

/-- A part of a text between two positions is as long as they are apart. -/
theorem byteLength_sliceBytes (ha : OnBoundary cs a) (hb : OnBoundary cs b) (hab : a ≤ b) :
    byteLength (sliceBytes a b cs) = b - a := by
  obtain ⟨xs, ys, zs, rfl, rfl, rfl⟩ := ha.exists_append_append hb hab
  have hdrop : dropBytes (byteLength xs) (xs ++ (ys ++ zs)) = ys ++ zs := by
    simpa using dropBytes_append xs (ys ++ zs) 0
  have hlength : byteLength xs + byteLength ys - byteLength xs = byteLength ys + 0 := by omega
  rw [sliceBytes, hdrop, hlength, takeBytes_append, takeBytes_zero, List.append_nil, Nat.add_zero]

/-- The end of a text is cut in two at a position inside of it. -/
theorem sliceBytes_append_dropBytes (ha : OnBoundary cs a) (hb : OnBoundary cs b) (hab : a ≤ b) :
    sliceBytes a b cs ++ dropBytes b cs = dropBytes a cs := by
  obtain ⟨xs, ys, zs, rfl, rfl, rfl⟩ := ha.exists_append_append hb hab
  have hone : byteLength xs + byteLength ys - byteLength xs = byteLength ys + 0 := by omega
  have hdrop : dropBytes (byteLength xs) (xs ++ (ys ++ zs)) = ys ++ zs := by
    simpa using dropBytes_append xs (ys ++ zs) 0
  have hrest := dropBytes_append ys zs 0
  rw [Nat.add_zero, dropBytes_zero] at hrest
  rw [sliceBytes, hdrop, hone, takeBytes_append, takeBytes_zero, List.append_nil, dropBytes_append, hrest]

end Text

open Text

namespace Edit

/-! ## The order of edits -/

/-- An edit is made before another one, wherever the two stand. -/
def StrictlyBefore (a b : Edit) : Prop :=
  a.start < b.start ∨ a.start = b.start ∧ b.stop < a.stop

theorem before_iff {a b : Edit} :
    before a b = true ↔ a.start < b.start ∨ a.start = b.start ∧ b.stop ≤ a.stop := by
  simp [before]

theorem before_of_strictlyBefore {a b : Edit} (h : a.StrictlyBefore b) : before a b = true := by
  rw [before_iff]
  exact h.imp_right fun hsame => ⟨hsame.1, hsame.2.le⟩

theorem not_before_of_strictlyBefore {a b : Edit} (h : a.StrictlyBefore b) : before b a ≠ true := by
  rw [Ne, before_iff]
  rcases h with h | ⟨h, hstop⟩ <;> omega

/-- Edits that are strictly in order are the sorted ones. -/
theorem mergeSort_eq {edits sorted : List Edit} (hperm : edits.Perm sorted)
    (hsorted : sorted.Pairwise StrictlyBefore) : edits.mergeSort before = sorted := by
  have htrans : ∀ a b c : Edit, before a b = true → before b c = true → before a c = true := by
    intro a b c hab hbc
    rw [before_iff] at *
    omega
  have htotal : ∀ a b : Edit, (before a b || before b a) = true := by
    intro a b
    rw [Bool.or_eq_true, before_iff, before_iff]
    omega
  refine ((List.mergeSort_perm edits before).trans hperm).eq_of_pairwise ?_
    (List.pairwise_mergeSort htrans htotal edits) (hsorted.imp before_of_strictlyBefore)
  intro a b ha hb hab hba
  have ha : a ∈ sorted := hperm.subset ((List.mergeSort_perm edits before).subset ha)
  by_contra hne
  have : Std.Symm fun a b : Edit => a.StrictlyBefore b ∨ b.StrictlyBefore a := ⟨fun _ _ => Or.symm⟩
  have heither : sorted.Pairwise fun a b => a.StrictlyBefore b ∨ b.StrictlyBefore a := hsorted.imp Or.inl
  rcases heither.forall ha hb hne with h | h
  · exact not_before_of_strictlyBefore h hba
  · exact not_before_of_strictlyBefore h hab

/-! ## Making edits -/

theorem splice_cons {source : List Char} {cursor : Nat} {e : Edit} {rest : List Edit}
    (h : cursor ≤ e.start) : splice source cursor (e :: rest) =
      sliceBytes cursor e.start source ++ e.text.toList ++ splice source e.stop rest :=
  if_neg (by omega)

/-- An edit inside of an earlier one is dropped. -/
theorem splice_cons_of_lt {source : List Char} {cursor : Nat} {e : Edit} {rest : List Edit}
    (h : e.start < cursor) : splice source cursor (e :: rest) = splice source cursor rest :=
  if_pos h

/-- A text stays as it is up to the next edit. -/
theorem splice_advance {source : List Char} {cursor next : Nat} {edits : List Edit}
    (hcursor : OnBoundary source cursor) (hnext : OnBoundary source next) (hle : cursor ≤ next)
    (hedits : ∀ e ∈ edits, next ≤ e.start) :
    splice source cursor edits = sliceBytes cursor next source ++ splice source next edits := by
  cases edits with
  | nil => exact (sliceBytes_append_dropBytes hcursor hnext hle).symm
  | cons e rest =>
    have hstart : next ≤ e.start := hedits e List.mem_cons_self
    rw [splice_cons (hle.trans hstart), splice_cons hstart, ← sliceBytes_append hcursor hnext hle hstart]
    simp only [List.append_assoc]

end Edit

end ModuleBuild
