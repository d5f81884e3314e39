import Mathlib
import ModuleBuild.Proofs.Text.Splice

/-!
# Edits around parts of a text

Parts of a text stand one behind the other. One edit may replace the beginning of a part, and another one may
write something at its end. Where the next part follows directly and its beginning is replaced, what was to
be written is lost: both edits start at the same position, the longer one is made first, and the other one
counts as inside of it.

## Main definitions

* `EditSlot` — a part of a text with its edits.
* `EditSlot.InOrder` — parts of a text stand one behind the other.
* `EditSlot.joined` — the text that the edits give.

## Main statements

* `applyEdits_slots` — edits give this text, in whatever order they are listed.
-/

namespace ModuleBuild

open Text

/-- A part of a text, of which an edit may replace the beginning and another one write something at the
end. -/
structure EditSlot where
  start : Nat
  stop : Nat
  /-- Where the beginning that is replaced ends, and what stands for it. -/
  head? : Option (Nat × String)
  /-- What is written at the end. -/
  close? : Option String
  deriving DecidableEq, Inhabited, Repr

namespace EditSlot

/-- The edit of the beginning. -/
def headEdit? (s : EditSlot) : Option Edit :=
  s.head?.map fun (stop, text) => ⟨s.start, stop, text⟩

/-- The edit at the end. -/
def closeEdit? (s : EditSlot) : Option Edit :=
  s.close?.map fun text => ⟨s.stop, s.stop, text⟩

/-- The edits of a part. -/
def edits (s : EditSlot) : List Edit :=
  s.headEdit?.toList ++ s.closeEdit?.toList

/-- A part splits no character of its text, and what is replaced is a beginning of it. -/
structure Fits (source : List Char) (s : EditSlot) : Prop where
  start_lt : s.start < s.stop
  start_boundary : OnBoundary source s.start
  stop_boundary : OnBoundary source s.stop
  head : ∀ h ∈ s.head?, s.start < h.1 ∧ h.1 ≤ s.stop ∧ OnBoundary source h.1

/-- Parts stand in order behind a position. -/
inductive InOrder (source : List Char) : Nat → List EditSlot → Prop
  | nil {cursor : Nat} (boundary : OnBoundary source cursor) : InOrder source cursor []
  | cons {cursor : Nat} {s : EditSlot} {rest : List EditSlot} (boundary : OnBoundary source cursor)
    (le : cursor ≤ s.start) (fits : s.Fits source) (behind : InOrder source s.stop rest) :
    InOrder source cursor (s :: rest)

/-- Whether the first of some parts starts at a position and its beginning is replaced. -/
def startsWithEdit (position : Nat) : List EditSlot → Bool
  | [] => false
  | s :: _ => s.head?.isSome && s.start == position

/-- The text of a part, with its beginning replaced. -/
def chars (source : List Char) (s : EditSlot) : List Char :=
  match s.head? with
  | none => sliceBytes s.start s.stop source
  | some (stop, text) => text.toList ++ sliceBytes stop s.stop source

/-- What the edit at the end writes. -/
def closing (s : EditSlot) : List Char :=
  (s.close?.map (·.toList)).getD []

/-- The text behind a position, with the edits of these parts made. -/
def joined (source : List Char) : (cursor : Nat) → List EditSlot → List Char
  | cursor, [] => dropBytes cursor source
  | cursor, s :: rest =>
    sliceBytes cursor s.start source ++ s.chars source ++
      (if startsWithEdit s.stop rest then [] else s.closing) ++ joined source s.stop rest

/-! ## Edits in order -/

/-- The edits of parts in the order in which they are made. The edit at the end of the part before comes
behind one that starts there. -/
def arranged : (pending : Option Edit) → List EditSlot → List Edit
  | pending, [] => pending.toList
  | pending, s :: rest =>
    match s.headEdit? with
    | none => pending.toList ++ arranged s.closeEdit? rest
    | some e =>
      (if pending.any (·.start == e.start) then e :: pending.toList else pending.toList ++ [e]) ++
        arranged s.closeEdit? rest

theorem arranged_perm (pending : Option Edit) (slots : List EditSlot) :
    (pending.toList ++ slots.flatMap edits).Perm (arranged pending slots) := by
  induction slots generalizing pending with
  | nil => simp [arranged]
  | cons s rest ih =>
    have hrest := ih s.closeEdit?
    rw [arranged, List.flatMap_cons, edits]
    cases hown : s.headEdit? with
    | none => simpa using hrest.append_left pending.toList
    | some e =>
      dsimp only
      have hfirst : (pending.toList ++ [e]).Perm
          (if pending.any (·.start == e.start) then e :: pending.toList else pending.toList ++ [e]) := by
        split
        · exact List.perm_append_singleton e pending.toList
        · exact .refl _
      simpa using hfirst.append hrest

/-- An edit at the end of a part is one at a position, and so is none. -/
def IsInsertion (position : Nat) (pending : Option Edit) : Prop :=
  ∀ e ∈ pending, e.start = position ∧ e.stop = position

theorem isInsertion_closeEdit? (s : EditSlot) : IsInsertion s.stop s.closeEdit? := by
  intro e he
  obtain ⟨text, -, rfl⟩ := Option.map_eq_some_iff.1 he
  exact ⟨rfl, rfl⟩

/-- The edit of the beginning of a part is inside of it and not empty. -/
theorem Fits.headEdit {source : List Char} {s : EditSlot} (h : s.Fits source) {e : Edit}
    (he : s.headEdit? = some e) :
    e.start = s.start ∧ e.start < e.stop ∧ e.stop ≤ s.stop ∧ OnBoundary source e.stop := by
  obtain ⟨⟨stop, text⟩, hhead, rfl⟩ := Option.map_eq_some_iff.1 he
  exact ⟨rfl, h.head _ hhead⟩

variable {source : List Char} {cursor : Nat} {slots : List EditSlot} {pending : Option Edit}

theorem le_start_of_mem_arranged (h : InOrder source cursor slots) (hpending : IsInsertion cursor pending)
    {e : Edit} (he : e ∈ arranged pending slots) : cursor ≤ e.start := by
  induction h generalizing pending with
  | nil => exact (hpending e (Option.mem_toList.1 he)).1.ge
  | @cons cursor s rest _ le fits _ ih =>
    have hle : s.stop ≤ e.start → cursor ≤ e.start := fun h => le.trans (fits.start_lt.le.trans h)
    unfold arranged at he
    split at he
    · rcases List.mem_append.1 he with he | he
      · exact (hpending e (Option.mem_toList.1 he)).1.ge
      · exact hle (ih s.isInsertion_closeEdit? he)
    · rename_i own hown
      rcases List.mem_append.1 he with he | he
      · have hone : e ∈ pending ∨ e = own := by
          split at he <;> simpa [or_comm] using he
        rcases hone with he | rfl
        · exact (hpending e he).1.ge
        · exact (fits.headEdit hown).1 ▸ le
      · exact hle (ih s.isInsertion_closeEdit? he)

/-- The edits of parts in the order in which they are made are strictly in order. -/
theorem arranged_pairwise (h : InOrder source cursor slots) (hpending : IsInsertion cursor pending) :
    (arranged pending slots).Pairwise Edit.StrictlyBefore := by
  induction h generalizing pending with
  | nil => cases pending <;> simp [arranged]
  | @cons cursor s rest _ le fits behind ih =>
    have hlater : ∀ e ∈ arranged s.closeEdit? rest, s.stop ≤ e.start :=
      fun e he => le_start_of_mem_arranged behind s.isInsertion_closeEdit? he
    have hrest := ih s.isInsertion_closeEdit?
    unfold arranged
    split
    · rw [List.pairwise_append]
      refine ⟨by cases pending <;> simp, hrest, fun a ha b hb => .inl ?_⟩
      have hstart := (hpending a (Option.mem_toList.1 ha)).1
      have hlt := fits.start_lt
      have hle := hlater b hb
      omega
    · rename_i own hown
      obtain ⟨hstart, hlt, hstop, -⟩ := fits.headEdit hown
      rw [List.pairwise_append]
      refine ⟨?_, hrest, fun a ha b hb => .inl ?_⟩
      · cases pending with
        | none => split <;> simp
        | some e =>
          obtain ⟨hposition, hend⟩ := hpending e rfl
          split
          · rename_i hsame
            have hsame : e.start = own.start := by simpa using hsame
            have hbefore : own.StrictlyBefore e := .inr ⟨hsame.symm, by omega⟩
            simpa using hbefore
          · rename_i hother
            have hother : e.start ≠ own.start := by simpa using hother
            have hbefore : e.StrictlyBefore own := .inl (by omega)
            simpa using hbefore
      · have hle := hlater b hb
        have hone : a ∈ pending ∨ a = own := by
          split at ha <;> simpa [or_comm] using ha
        rcases hone with ha | rfl
        · have hposition := (hpending a ha).1
          omega
        · omega

/-! ## Edits made -/

/-- The text of a part is that of the edit of its beginning and what the edit leaves. -/
theorem chars_of_headEdit {s : EditSlot} {e : Edit} (h : s.headEdit? = some e) (source : List Char) :
    s.chars source = e.text.toList ++ sliceBytes e.stop s.stop source := by
  obtain ⟨⟨stop, text⟩, hhead, rfl⟩ := Option.map_eq_some_iff.1 h
  rw [chars, hhead]

/-- A part without an edit of its beginning stays as it is. -/
theorem chars_of_none {s : EditSlot} (h : s.headEdit? = none) (source : List Char) :
    s.chars source = sliceBytes s.start s.stop source := by
  rw [chars, Option.map_eq_none_iff.1 h]

theorem isSome_head? (s : EditSlot) : s.head?.isSome = s.headEdit?.isSome := by
  rw [headEdit?, Option.isSome_map]

/-- An edit at a position is made there. -/
theorem splice_pending (h : IsInsertion cursor pending) (edits : List Edit) :
    Edit.splice source cursor (pending.toList ++ edits) =
      (pending.map (·.text.toList)).getD [] ++ Edit.splice source cursor edits := by
  cases pending with
  | none => rfl
  | some e =>
    obtain ⟨hstart, hstop⟩ := h e rfl
    rw [Option.toList_some, List.singleton_append, Edit.splice_cons hstart.ge, hstart, hstop]
    simp

/-- Edits that are made in order give the text of the parts, behind what is still to be written. -/
theorem splice_arranged (h : InOrder source cursor slots) (hpending : IsInsertion cursor pending) :
    Edit.splice source cursor (arranged pending slots) =
      (if startsWithEdit cursor slots then [] else (pending.map (·.text.toList)).getD []) ++
        joined source cursor slots := by
  induction h generalizing pending with
  | nil =>
    have hsplice : Edit.splice source _ (pending.toList ++ []) = _ := splice_pending hpending []
    rwa [List.append_nil] at hsplice
  | @cons cursor s rest boundary le fits behind ih =>
    have hlater : ∀ e ∈ arranged s.closeEdit? rest, s.stop ≤ e.start :=
      fun e he => le_start_of_mem_arranged behind s.isInsertion_closeEdit? he
    have hrest := ih s.isInsertion_closeEdit?
    have hclosing : (s.closeEdit?.map (·.text.toList)).getD [] = s.closing := by
      rw [closeEdit?, Option.map_map]
      rfl
    have hjoined : joined source cursor (s :: rest) = sliceBytes cursor s.start source ++
        (s.chars source ++ Edit.splice source s.stop (arranged s.closeEdit? rest)) := by
      rw [hrest, hclosing, joined]
      simp only [List.append_assoc]
    rw [hjoined, arranged]
    cases hown : s.headEdit? with
    | none =>
      have hfollows : startsWithEdit cursor (s :: rest) = false := by
        simp [startsWithEdit, s.isSome_head?, hown]
      dsimp only
      rw [hfollows, splice_pending hpending, chars_of_none hown,
        Edit.splice_advance boundary fits.start_boundary le fun e he => fits.start_lt.le.trans (hlater e he),
        Edit.splice_advance fits.start_boundary fits.stop_boundary fits.start_lt.le hlater]
      rfl
    | some e =>
      obtain ⟨hstart, hlt, hstop, hend⟩ := fits.headEdit hown
      have hmade : Edit.splice source cursor (e :: arranged s.closeEdit? rest) =
          sliceBytes cursor s.start source ++
            (s.chars source ++ Edit.splice source s.stop (arranged s.closeEdit? rest)) := by
        rw [Edit.splice_cons (hstart ▸ le), Edit.splice_advance hend fits.stop_boundary hstop hlater,
          chars_of_headEdit hown, hstart]
        simp only [List.append_assoc]
      dsimp only
      split
      · -- the part follows directly, and its edit comes before the one that waits
        rename_i hsame
        obtain ⟨late, rfl, hlate⟩ := Option.any_eq_true _ _ |>.1 hsame
        obtain ⟨hposition, -⟩ := hpending late rfl
        have hlate : late.start = e.start := by simpa using hlate
        have hfollows : startsWithEdit cursor (s :: rest) = true := by
          simp [startsWithEdit, s.isSome_head?, hown, ← hstart, ← hlate, hposition]
        have hdropped : Edit.splice source e.stop (late :: arranged s.closeEdit? rest) =
            Edit.splice source e.stop (arranged s.closeEdit? rest) :=
          Edit.splice_cons_of_lt (hlate ▸ hlt)
        rw [hfollows, if_pos rfl, List.nil_append, ← hmade, Option.toList_some, List.cons_append,
          List.singleton_append, Edit.splice_cons (hstart ▸ le), hdropped, Edit.splice_cons (hstart ▸ le)]
      · rename_i hother
        rw [List.append_assoc, List.singleton_append, splice_pending hpending, hmade]
        congr 1
        cases pending with
        | none => simp
        | some late =>
          obtain ⟨hposition, -⟩ := hpending late rfl
          have hother : late.start ≠ e.start := by simpa using hother
          have hfollows : startsWithEdit cursor (s :: rest) = false := by
            simp [startsWithEdit, ← hstart, ← hposition, hother.symm]
          rw [hfollows, if_neg Bool.false_ne_true]

end EditSlot

/-- Edits around parts give the text of the parts, in whatever order the edits are listed. -/
theorem applyEdits_slots {source : String} {slots : List EditSlot} (h : EditSlot.InOrder source.toList 0 slots)
    {edits : List Edit} (hedits : edits.Perm (slots.flatMap EditSlot.edits)) :
    applyEdits source edits = String.ofList (EditSlot.joined source.toList 0 slots) := by
  have hnone : EditSlot.IsInsertion 0 none := fun _ he => nomatch he
  have hsorted : edits.mergeSort Edit.before = EditSlot.arranged none slots :=
    Edit.mergeSort_eq (hedits.trans (EditSlot.arranged_perm none slots)) (EditSlot.arranged_pairwise h hnone)
  rw [applyEdits, hsorted, EditSlot.splice_arranged h hnone]
  simp

end ModuleBuild
