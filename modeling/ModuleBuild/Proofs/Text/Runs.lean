import ModuleBuild.Proofs.Association
import ModuleBuild.Proofs.Text.Pieces
import ModuleBuild.Text.Search

/-!
# Runs of identifier characters

There is one way only to cut a text into runs of identifier characters and single other characters in which
no run goes on behind another one: into its pieces. A renaming replaces some of the runs and leaves all other
pieces as they are. What it puts there are runs as well, so it can be undone.

## Main definitions

* `IsCut` — a text is cut into these runs and single characters.
* `renamedPiece` — what a renaming makes of a piece.

## Main statements

* `isCut_iff` — a text is cut into its pieces, and into nothing else.
* `mem_pieces_iff` — the runs of a text are its words.
* `rename_eq_join` — a renaming goes over the pieces.
* `rename_rename` — names that are new to a text are taken back by the inverse renaming.
* `rename_runs` — how a map of names renames, and how it is undone.
-/

namespace ModuleBuild.Text

/-! ## Cuts of a text -/

/-- A text is cut into runs of identifier characters, which are as long as they can be, and the single
characters between them. -/
structure IsCut (text : String) (parts : List String) : Prop where
  join_eq : String.join parts = text
  run_or_single : ∀ p ∈ parts, IsWord p ∨ ∃ c, isWordChar c = false ∧ p = String.ofList [c]
  maximal : parts.IsChain fun p q => ¬ (IsWord p ∧ IsWord q)

theorem not_isWord_single {c : Char} (hc : isWordChar c = false) : ¬ IsWord (String.ofList [c]) := by
  intro h
  simpa [hc] using h.2 c (by simp)

theorem isWord_run {c : Char} (hc : isWordChar c = true) (rest : List Char) :
    IsWord (String.ofList (c :: rest.takeWhile isWordChar)) := by
  have htake : ∀ d ∈ rest.takeWhile isWordChar, isWordChar d = true :=
    List.all_eq_true.mp List.all_takeWhile
  exact ⟨by simp, by simpa [IsWordText, hc] using htake⟩

theorem not_isWord_head_piecesOf {cs : List Char} (h : isBoundary cs.head? = true) :
    ∀ p ∈ (piecesOf cs).head?, ¬ IsWord p := by
  cases cs with
  | nil => simp [piecesOf]
  | cons c rest =>
    have hc : isWordChar c = false := by simpa [isBoundary] using h
    simpa [piecesOf_cons hc] using not_isWord_single hc

/-- A text is cut into its pieces. -/
theorem isCut_pieces (text : String) : IsCut text (pieces text) := by
  suffices h : ∀ cs, (∀ p ∈ piecesOf cs, IsWord p ∨ ∃ c, isWordChar c = false ∧ p = String.ofList [c]) ∧
      (piecesOf cs).IsChain fun p q => ¬ (IsWord p ∧ IsWord q) by
    exact ⟨join_pieces text, (h _).1, (h _).2⟩
  intro cs
  fun_induction piecesOf cs with
  | case1 => exact ⟨by simp, .nil⟩
  | case2 c rest hc ih =>
    refine ⟨List.forall_mem_cons.2 ⟨.inl (isWord_run hc rest), ih.1⟩, List.isChain_cons.2 ⟨?_, ih.2⟩⟩
    exact fun q hq hboth => not_isWord_head_piecesOf (isBoundary_dropWhile rest) q hq hboth.2
  | case3 c rest hc ih =>
    have hc : isWordChar c = false := by simpa using hc
    refine ⟨List.forall_mem_cons.2 ⟨.inr ⟨c, hc, rfl⟩, ih.1⟩, List.isChain_cons.2 ⟨?_, ih.2⟩⟩
    exact fun q _ hboth => not_isWord_single hc hboth.1

section Join

variable {parts : List String}
  (hparts : ∀ p ∈ parts, IsWord p ∨ ∃ c, isWordChar c = false ∧ p = String.ofList [c])
include hparts

theorem isBoundary_head_join (hfirst : ∀ p ∈ parts.head?, ¬ IsWord p) :
    isBoundary (String.join parts).toList.head? = true := by
  cases parts with
  | nil => rfl
  | cons p rest =>
    obtain ⟨c, hc, rfl⟩ := (hparts p List.mem_cons_self).resolve_left (hfirst p rfl)
    simp [isBoundary, hc]

theorem isBoundary_getLast_join (hlast : ∀ p ∈ parts.getLast?, ¬ IsWord p) :
    isBoundary (String.join parts).toList.getLast? = true := by
  rcases List.eq_nil_or_concat parts with rfl | ⟨before, p, rfl⟩
  · rfl
  · obtain ⟨c, hc, rfl⟩ := (hparts p (by simp)).resolve_left (hlast p (by simp))
    simp [isBoundary, hc]

end Join

/-- A text is cut into its pieces, and into nothing else. -/
theorem isCut_iff {text : String} {parts : List String} : IsCut text parts ↔ parts = pieces text := by
  refine ⟨fun h => ?_, fun h => h ▸ isCut_pieces text⟩
  obtain ⟨rfl, hparts, hchain⟩ := h
  unfold pieces
  induction parts with
  | nil => simp [piecesOf]
  | cons p rest ih =>
    obtain ⟨hp, hrest⟩ := List.forall_mem_cons.1 hparts
    obtain ⟨hnext, hchain⟩ := List.isChain_cons.1 hchain
    have htail : rest = piecesOf (String.join rest).toList := ih hrest hchain
    rw [String.join_cons, String.toList_append]
    rcases hp with hword | ⟨c, hc, rfl⟩
    · -- What comes behind a run is no run, so the run ends where the part ends.
      have hboundary := isBoundary_head_join hrest fun q hq hqword => hnext q hq ⟨hword, hqword⟩
      rw [piecesOf_word hword hboundary, ← htail]
    · rw [String.toList_ofList, List.singleton_append, piecesOf_cons hc, ← htail]

/-- The runs of a text are the words that stand in it. -/
theorem mem_pieces_iff {text name : String} (h : IsWord name) : name ∈ pieces text ↔ HasWord text name := by
  constructor
  · intro hmem
    obtain ⟨before, behind, hsplit⟩ := List.append_of_mem hmem
    obtain ⟨hjoin, hparts, hchain⟩ := isCut_pieces text
    rw [hsplit] at hjoin hparts hchain
    obtain ⟨-, hbehind, hnext⟩ := List.isChain_append.1 hchain
    refine ⟨(String.join before).toList, (String.join behind).toList, ?_, ?_, ?_⟩
    · simp [← hjoin]
    · refine isBoundary_getLast_join (fun p hp => hparts p (List.mem_append_left _ hp)) fun p hp hword => ?_
      exact hnext p hp name rfl ⟨hword, h⟩
    · refine isBoundary_head_join (fun p hp => hparts p (by simp [hp])) fun p hp hword => ?_
      exact (List.isChain_cons.1 hbehind).1 p hp ⟨h, hword⟩
  · rintro ⟨before, behind, htext, hleft, hright⟩
    rw [pieces, htext, List.append_assoc, piecesOf_append (.inl hleft), piecesOf_word h hright]
    exact List.mem_append_right _ List.mem_cons_self

/-! ## Renaming -/

/-- What a renaming makes of a piece behind a text: a run that has an image becomes this image, unless a
point stands directly before it. -/
def renamedPiece (image : String → Option String) (before piece : String) : String :=
  if IsWord piece ∧ endsWith before "." = false then (image piece).getD piece else piece

theorem endsWith_point (text : String) : endsWith text "." = (text.toList.getLast? == some '.') := by
  rw [Bool.eq_iff_iff, endsWith, List.isSuffixOf_iff_suffix, beq_iff_eq, List.getLast?_eq_some_iff]
  constructor
  · rintro ⟨xs, hxs⟩
    exact ⟨xs, hxs.symm⟩
  · rintro ⟨xs, hxs⟩
    exact ⟨xs, hxs.symm⟩

theorem renamedPiece_word (image : String → Option String) (before : String) {word : String} (h : IsWord word) :
    renamedPiece image before word =
      match image word with
      | some new => if before.toList.getLast? == some '.' then word else new
      | none => word := by
  rw [renamedPiece, endsWith_point]
  cases before.toList.getLast? == some '.' <;> cases image word <;> simp [h]

/-- A renaming goes over the pieces of a text and looks at what stands before each of them. -/
theorem rename_eq_join (image : String → Option String) (text : String) :
    rename image text = String.join ((pieces text).mapIdx fun i piece =>
      renamedPiece image (String.join ((pieces text).take i)) piece) := by
  suffices h : ∀ cs (before : String), renameAfter image before.toList.getLast? cs =
      (String.join ((piecesOf cs).mapIdx fun i piece =>
        renamedPiece image (before ++ String.join ((piecesOf cs).take i)) piece)).toList by
    have hall := h text.toList ""
    simp only [String.empty_append] at hall
    rw [rename]
    exact (congrArg String.ofList hall).trans String.ofList_toList
  intro cs
  fun_induction piecesOf cs with
  | case1 => simp [renameAfter]
  | case2 c rest hc ih =>
    intro before
    have hlast : (before ++ String.ofList (c :: rest.takeWhile isWordChar)).toList.getLast? =
        some ((rest.takeWhile isWordChar).getLastD c) := by
      simp [List.getLast?_cons, List.getLastD_eq_getLast?]
    have hmore := ih (before ++ String.ofList (c :: rest.takeWhile isWordChar))
    rw [hlast] at hmore
    rw [renameAfter, if_pos hc]
    dsimp only
    rw [hmore, List.mapIdx_cons, String.join_cons, String.toList_append]
    simp only [List.take_zero, String.join_nil, String.append_empty, List.take_succ_cons, String.join_cons,
      ← String.append_assoc]
    exact congrArg (·.toList ++ _) (renamedPiece_word image before (isWord_run hc rest)).symm
  | case3 c rest hc ih =>
    intro before
    have hc : isWordChar c = false := by simpa using hc
    have hmore := ih (before ++ String.ofList [c])
    rw [String.toList_append, String.toList_ofList, List.getLast?_concat] at hmore
    rw [renameAfter_cons hc, hmore, List.mapIdx_cons, String.join_cons, String.toList_append]
    simp only [List.take_zero, String.join_nil, String.append_empty, List.take_succ_cons, String.join_cons,
      ← String.append_assoc]
    rw [renamedPiece, if_neg fun h => not_isWord_single hc h.1, String.toList_ofList, List.singleton_append]

section Inverse

variable {image inverse : String → Option String}
  (hwords : ∀ name new, image name = some new → IsWord name ∧ IsWord new)
  (hinverse : ∀ name new, inverse new = some name ↔ image name = some new)
include hwords hinverse

/-- Pieces that are no new names are taken back one by one, because a run becomes a run: no point comes up,
and none goes away. -/
theorem renamePieces_renamePieces {parts : List String} (hnew : ∀ p ∈ parts, ∀ name, image name ≠ some p)
    (point : Bool) : renamePieces inverse point (renamePieces image point parts) = parts := by
  induction parts generalizing point with
  | nil => rfl
  | cons p rest ih =>
    obtain ⟨hp, hrest⟩ := List.forall_mem_cons.1 hnew
    have hfixed : inverse p = none := by
      rw [Option.eq_none_iff_forall_ne_some]
      exact fun name h => hp name ((hinverse name p).1 h)
    have hback : (if point then (if point then p else (image p).getD p) else
        (inverse (if point then p else (image p).getD p)).getD (if point then p else (image p).getD p)) = p := by
      cases point with
      | true => rfl
      | false =>
        cases himage : image p with
        | none => simp [hfixed]
        | some new => simp [(hinverse p new).2 himage]
    have hpoint : ((if point then p else (image p).getD p) == ".") = (p == ".") := by
      cases point with
      | true => rfl
      | false =>
        cases himage : image p with
        | none => rfl
        | some new =>
          obtain ⟨hword, hnewword⟩ := hwords p new himage
          have hne : p ≠ "." := fun h => not_isWordText_point (h ▸ hword.2)
          have hne' : new ≠ "." := fun h => not_isWordText_point (h ▸ hnewword.2)
          simp [hne, hne']
    rw [renamePieces, renamePieces, hback, hpoint, ih hrest]

/-- Names that are new to a text are taken back by the inverse renaming. -/
theorem rename_rename {text : String} (hnew : ∀ name new, image name = some new → new ∉ pieces text) :
    rename inverse (rename image text) = text := by
  have hwords' : ∀ new name, inverse new = some name → IsWord new ∧ IsWord name := fun new name h =>
    (hwords name new ((hinverse name new).1 h)).symm
  have hpieces : pieces (rename inverse (rename image text)) = pieces text := by
    rw [pieces_rename hwords', pieces_rename hwords]
    exact renamePieces_renamePieces hwords hinverse (fun p hp name h => hnew name p h hp) false
  rw [← join_pieces (rename inverse (rename image text)), hpieces, join_pieces]

end Inverse

/-- A map without two names for one is undone by the swapped map. -/
theorem lookup_swap_eq_some {renames : List (String × String)} (hkeys : (renames.map (·.1)).Nodup)
    (hvalues : (renames.map (·.2)).Nodup) (name new : String) :
    (renames.map Prod.swap).lookup new = some name ↔ renames.lookup name = some new := by
  have hswapped : ((renames.map Prod.swap).map (·.1)).Nodup := by
    rw [List.map_map]
    exact hvalues
  constructor
  · intro h
    obtain ⟨pair, hpair, heq⟩ := List.mem_map.1 (mem_of_lookup h)
    obtain ⟨rfl, rfl⟩ := Prod.mk.inj heq
    exact lookup_of_mem hkeys hpair
  · intro h
    exact lookup_of_mem hswapped (List.mem_map.2 ⟨_, mem_of_lookup h, rfl⟩)

/-- A text is cut in one way only into runs of identifier characters that are as long as they can be and the
single characters between them. A renaming keeps each of these pieces, but puts the image of a run in its
place if it has one and no point stands directly before it. A map of words to different words that are no
runs of the text is undone by the inverse map. -/
theorem rename_runs (text : String) :
    (∀ parts, IsCut text parts ↔ parts = pieces text) ∧
    (∀ image : String → Option String, rename image text = String.join ((pieces text).mapIdx fun i piece =>
      renamedPiece image (String.join ((pieces text).take i)) piece)) ∧
    ∀ renames : List (String × String), (renames.map (·.1)).Nodup → (renames.map (·.2)).Nodup →
      (∀ pair ∈ renames, IsWord pair.1 ∧ IsWord pair.2 ∧ pair.2 ∉ pieces text) →
      rename (fun new => (renames.map Prod.swap).lookup new) (rename (fun name => renames.lookup name) text) =
        text := by
  refine ⟨fun parts => isCut_iff, fun image => rename_eq_join image text, ?_⟩
  intro renames hkeys hvalues hpairs
  refine rename_rename (fun name new h => ?_) (lookup_swap_eq_some hkeys hvalues) fun name new h => ?_
  · obtain ⟨hname, hnew, -⟩ := hpairs _ (mem_of_lookup h)
    exact ⟨hname, hnew⟩
  · exact (hpairs _ (mem_of_lookup h)).2.2

/-- A property of the same name stays, and so does a longer run. -/
theorem rename_runs_helpers :
    let text := "x._t(_t, _ta, _u);"
    let renames := [("_t", "_ta2"), ("_u", "_t2")]
    rename (fun name => renames.lookup name) text = "x._t(_ta2, _ta, _t2);" ∧
      (renames.map (·.1)).Nodup ∧ (renames.map (·.2)).Nodup ∧
      (∀ pair ∈ renames, IsWord pair.1 ∧ IsWord pair.2 ∧ pair.2 ∉ pieces text) ∧
      rename (fun new => (renames.map Prod.swap).lookup new) "x._t(_ta2, _ta, _t2);" = text := by
  intro text renames
  have hrename : rename (fun name => renames.lookup name) text = "x._t(_ta2, _ta, _t2);" := by decide +kernel
  have hkeys : (renames.map (·.1)).Nodup := by decide
  have hvalues : (renames.map (·.2)).Nodup := by decide
  have hpairs : ∀ pair ∈ renames, IsWord pair.1 ∧ IsWord pair.2 ∧ pair.2 ∉ pieces text := by decide +kernel
  refine ⟨hrename, hkeys, hvalues, hpairs, ?_⟩
  rw [← hrename]
  exact (rename_runs text).2.2 renames hkeys hvalues hpairs

end ModuleBuild.Text
