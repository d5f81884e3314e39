import ModuleBuild.Proofs.Text.Words

/-!
# Pieces of a text

A text is a row of pieces: words, which are as long as they can be, and the single characters between
them. A renaming goes over the pieces one by one. It replaces words by words, so the pieces of the text
behind it are those of the text before it, each of them replaced or left as it is.

## Main definitions

* `pieces` — the pieces of a text.
* `renamePieces` — what a renaming does to a row of pieces.

## Main statements

* `join_pieces` — a text is what its pieces make.
* `pieces_rename` — a renaming goes piece by piece.
* `pieces_append` — where no word goes on, the pieces of two texts are those of one.
* `infix_of_mem_pieces` — a piece is a part of its text.
-/

namespace ModuleBuild.Text

/-- The pieces of a row of characters. -/
def piecesOf (cs : List Char) : List String :=
  match cs with
  | [] => []
  | c :: rest =>
    if isWordChar c then
      String.ofList (c :: rest.takeWhile isWordChar) :: piecesOf (rest.dropWhile isWordChar)
    else String.ofList [c] :: piecesOf rest
termination_by cs.length
decreasing_by
  · have := (List.dropWhile_sublist (l := rest) isWordChar).length_le
    simp only [List.length_cons]
    omega
  · simp

/-- The pieces of a text. -/
def pieces (text : String) : List String :=
  piecesOf text.toList

/-- Nothing of a text is lost in its pieces. -/
theorem join_pieces (text : String) : String.join (pieces text) = text := by
  suffices h : ∀ cs, (String.join (piecesOf cs)).toList = cs by
    exact String.toList_injective (h text.toList)
  intro cs
  fun_induction piecesOf cs with
  | case1 => rfl
  | case2 c rest hword ih => simp [ih, List.takeWhile_append_dropWhile]
  | case3 c rest hword ih => simp [ih]

/-- A character between words is a piece. -/
theorem piecesOf_cons {c : Char} (hc : isWordChar c = false) (rest : List Char) :
    piecesOf (c :: rest) = String.ofList [c] :: piecesOf rest := by
  rw [piecesOf, if_neg (by simp [hc])]

/-- A word is a piece as a whole. -/
theorem piecesOf_word {name : String} (hname : IsWord name) {rest : List Char}
    (hrest : isBoundary rest.head? = true) : piecesOf (name.toList ++ rest) = name :: piecesOf rest := by
  obtain ⟨c, cs, hcs⟩ := List.exists_cons_of_ne_nil (by simpa using hname.1 : name.toList ≠ [])
  have hchars : ∀ d ∈ c :: cs, isWordChar d = true := hcs ▸ hname.2
  obtain ⟨hnone, hall⟩ := stops_of_isBoundary hrest
  have htail : ∀ d ∈ cs, isWordChar d = true := fun d hd => hchars d (List.mem_cons_of_mem c hd)
  rw [hcs, List.cons_append, piecesOf, if_pos (hchars c List.mem_cons_self),
    List.takeWhile_append_of_pos htail, List.dropWhile_append_of_pos htail, hnone, hall, List.append_nil, ← hcs,
    String.ofList_toList]

/-- What a renaming does to pieces, the first of which may stand behind a point. -/
def renamePieces (image : String → Option String) : Bool → List String → List String
  | _, [] => []
  | point, piece :: rest =>
    (if point then piece else (image piece).getD piece) :: renamePieces image (piece == ".") rest

/-- Behind a word that is as long as it can be, no identifier character comes first. -/
theorem isBoundary_dropWhile (cs : List Char) : isBoundary (cs.dropWhile isWordChar).head? = true := by
  have hnot := List.head?_dropWhile_not isWordChar cs
  cases hhead : (cs.dropWhile isWordChar).head? with
  | none => rfl
  | some c =>
    rw [hhead] at hnot
    simpa [isBoundary] using hnot

theorem not_isWordText_point : ¬ IsWordText "." := by
  decide

theorem piecesOf_renameAfter {image : String → Option String}
    (himage : ∀ name new, image name = some new → IsWord name ∧ IsWord new) (before : Option Char)
    (cs : List Char) :
    piecesOf (renameAfter image before cs) = renamePieces image (before == some '.') (piecesOf cs) := by
  fun_induction renameAfter image before cs with
  | case1 => simp [piecesOf, renamePieces]
  | case2 before c rest hc word last text ih =>
    have hchars : ∀ d ∈ c :: rest.takeWhile isWordChar, isWordChar d = true := by
      have htake : ∀ d ∈ rest.takeWhile isWordChar, isWordChar d = true :=
        List.all_eq_true.mp List.all_takeWhile
      simpa [hc] using htake
    have hword : IsWord word := ⟨by simp [word], by simpa [IsWordText, word] using hchars⟩
    have htext : text = if before == some '.' then word else (image word).getD word := by
      unfold text
      cases image word <;> simp
    have hnew : IsWord text := by
      rw [htext]
      split
      · exact hword
      · cases himageword : image word with
        | none => exact hword
        | some new => exact (himage _ _ himageword).2
    have hlast : last ∈ c :: rest.takeWhile isWordChar := by
      simp only [last, List.getLastD_eq_getLast?]
      cases htake : (rest.takeWhile isWordChar).getLast? with
      | none => simp
      | some d => exact List.mem_cons_of_mem c (List.mem_of_getLast? htake)
    -- No point stands before what follows a word.
    have hpoint : (some last == some '.') = (word == ".") := by
      have hleft : last ≠ '.' := fun h => absurd (h ▸ hchars _ hlast) (by decide)
      have hright : word ≠ "." := fun h => not_isWordText_point (h ▸ hword.2)
      simp [hleft, hright]
    rw [piecesOf_word hnew (isBoundary_renameAfter (isBoundary_dropWhile rest) _), ih, hpoint, htext]
    conv_rhs => rw [piecesOf, if_pos hc, renamePieces]
  | case3 before c rest hc ih =>
    have hboundary : isWordChar c = false := by simpa using hc
    have hkept : image (String.ofList [c]) = none := by
      by_contra h
      obtain ⟨new, hnew⟩ := Option.ne_none_iff_exists'.mp h
      have hchar := (himage _ _ hnew).1.2 c (by simp)
      simp [hboundary] at hchar
    have hpoint : (some c == some '.') = (String.ofList [c] == ".") := by
      rw [Bool.eq_iff_iff]
      simp [← String.toList_inj]
    rw [piecesOf_cons hboundary, ih, piecesOf_cons hboundary, renamePieces, hkept, hpoint]
    simp

/-- A renaming of words to words goes piece by piece. -/
theorem pieces_rename {image : String → Option String}
    (himage : ∀ name new, image name = some new → IsWord name ∧ IsWord new) (text : String) :
    pieces (rename image text) = renamePieces image false (pieces text) := by
  rw [pieces, rename, String.toList_ofList, piecesOf_renameAfter himage]
  rfl

/-! ## Pieces of parts -/

theorem piecesOf_append {xs ys : List Char}
    (h : isBoundary xs.getLast? = true ∨ isBoundary ys.head? = true) :
    piecesOf (xs ++ ys) = piecesOf xs ++ piecesOf ys := by
  fun_induction piecesOf xs with
  | case1 => rfl
  | case2 c rest hc ih =>
    have hall : ∀ d ∈ rest.takeWhile isWordChar, isWordChar d = true :=
      List.all_eq_true.mp List.all_takeWhile
    by_cases hend : rest.dropWhile isWordChar = []
    · -- The word goes up to the end, and so none goes on behind it.
      have hrest : rest.takeWhile isWordChar = rest := by
        have := List.takeWhile_append_dropWhile (p := isWordChar) (l := rest)
        rwa [hend, List.append_nil] at this
      rw [hrest] at hall
      have hchars : ∀ d ∈ c :: rest, isWordChar d = true := by
        simpa [hc] using hall
      have hhead : isBoundary ys.head? = true := by
        refine h.resolve_left fun hlast => ?_
        rw [List.getLast?_eq_some_getLast (List.cons_ne_nil c rest)] at hlast
        have := hchars _ (List.getLast_mem (List.cons_ne_nil c rest))
        simp [isBoundary, this] at hlast
      obtain ⟨hnone, hsame⟩ := stops_of_isBoundary hhead
      rw [List.cons_append, piecesOf, if_pos hc, List.takeWhile_append_of_pos hall,
        List.dropWhile_append_of_pos hall, hnone, hsame, hrest, hend, List.append_nil]
      simp [piecesOf]
    · have hlast : (rest.dropWhile isWordChar).getLast? = (c :: rest).getLast? := by
        conv_rhs => rw [← List.takeWhile_append_dropWhile (p := isWordChar) (l := rest), ← List.cons_append,
          List.getLast?_append_of_ne_nil _ hend]
      have hlength : (rest.takeWhile isWordChar).length ≠ rest.length := by
        intro heq
        have := List.takeWhile_append_dropWhile (p := isWordChar) (l := rest)
        rw [(List.takeWhile_prefix isWordChar).eq_of_length heq] at this
        exact hend (List.append_right_eq_self.1 this)
      rw [List.cons_append, piecesOf, if_pos hc, List.takeWhile_append, if_neg hlength,
        List.dropWhile_append, if_neg (by simpa using hend), ih (h.imp_left fun hl => hlast ▸ hl)]
      rfl
  | case3 c rest hc ih =>
    have hrest : isBoundary rest.getLast? = true ∨ isBoundary ys.head? = true := by
      refine h.imp_left fun hlast => ?_
      cases rest with
      | nil => rfl
      | cons d rest => simpa using hlast
    rw [List.cons_append, piecesOf_cons (by simpa using hc), ih hrest]
    rfl

/-- Where no word goes on, the pieces of two texts are those of one. -/
theorem pieces_append {a b : String}
    (h : isBoundary a.toList.getLast? = true ∨ isBoundary b.toList.head? = true) :
    pieces (a ++ b) = pieces a ++ pieces b := by
  rw [pieces, String.toList_append, piecesOf_append h]
  rfl

/-- A word is its only piece. -/
theorem pieces_word {name : String} (h : IsWord name) : pieces name = [name] := by
  have hword : piecesOf (name.toList ++ []) = name :: piecesOf [] := piecesOf_word h rfl
  rwa [List.append_nil, piecesOf] at hword

/-- A piece stands in its text. -/
theorem infix_of_mem_pieces {text piece : String} (h : piece ∈ pieces text) : piece.toList <:+: text.toList := by
  unfold pieces at h
  generalize text.toList = cs at h
  fun_induction piecesOf cs with
  | case1 => cases h
  | case2 c rest hc ih =>
    rcases List.mem_cons.1 h with rfl | h
    · rw [String.toList_ofList]
      exact ((List.prefix_cons_inj c).2 (List.takeWhile_prefix _)).isInfix
    · exact (ih h).trans ((List.dropWhile_suffix _).trans (List.suffix_cons c rest)).isInfix
  | case3 c rest hc ih =>
    rcases List.mem_cons.1 h with rfl | h
    · rw [String.toList_ofList]
      exact ⟨[], rest, rfl⟩
    · exact (ih h).trans (List.suffix_cons c rest).isInfix

end ModuleBuild.Text
