import ModuleBuild.Proofs.Text.Lines
import ModuleBuild.Proofs.Text.Runs

/-!
# Matches of a name

The search for a name visits matches that do not overlap, and looks at the characters beside each of them. What
it passes over starts inside of a match, so there is one list of positions only that such a search can visit.
A text can be cut at all of them, and the search finds the runs of the text.

## Main definitions

* `IsSearch` — which positions a search from left to right visits.
* `matchPositions` — these positions.
* `mentionsByPosition?` — the search as it goes from position to position and cuts the text at each of them.

## Main statements

* `isSearch_iff` — a search visits these positions and no others.
* `mentionsByPosition?_eq` — no cut fails, and the search finds what a pass over the characters finds.
* `mentions_runs` — the search finds the runs of a text.
-/

namespace ModuleBuild.Text

variable {name cs : List Char} {start : Nat}

/-! ## Positions of matches -/

/-- Which positions a search for a name visits, the first one of the text being `start`: places where the name
stands, no two of which overlap, and such that each other place of the name starts inside of one of them. -/
structure IsSearch (name : List Char) (start : Nat) (cs : List Char) (positions : List Nat) : Prop where
  found : ∀ p ∈ positions, ∃ before behind, cs = before ++ (name ++ behind) ∧ p = start + byteLength before
  apart : positions.Pairwise fun p q => p + byteLength name ≤ q
  complete : ∀ before behind, cs = before ++ (name ++ behind) →
    ∃ p ∈ positions, p ≤ start + byteLength before ∧ start + byteLength before < p + byteLength name

/-- The positions at which a search from left to right finds a name. It goes on behind each of its matches. -/
def matchesFrom (name : List Char) (start : Nat) (cs : List Char) : List Nat :=
  match cs with
  | [] => []
  | c :: rest =>
    if name.isPrefixOf (c :: rest) then
      start :: matchesFrom name (start + byteLength name) (rest.drop (name.length - 1))
    else matchesFrom name (start + c.utf8Size) rest
termination_by cs.length
decreasing_by
  · simp only [List.length_drop, List.length_cons]
    omega
  · simp

/-- The positions of the matches of a name in a text. -/
def matchPositions (text name : String) : List Nat :=
  matchesFrom name.toList 0 text.toList

theorem byteLength_pos (h : cs ≠ []) : 0 < byteLength cs := by
  obtain ⟨c, rest, rfl⟩ := List.exists_cons_of_ne_nil h
  have := c.utf8Size_pos
  rw [byteLength]
  omega

/-- A match ends where the search goes on. -/
theorem exists_append_of_isPrefixOf {c : Char} {rest : List Char} (hname : name ≠ [])
    (h : name.isPrefixOf (c :: rest) = true) :
    ∃ behind, c :: rest = name ++ behind ∧ rest.drop (name.length - 1) = behind := by
  obtain ⟨behind, hcs⟩ := List.isPrefixOf_iff_prefix.1 h
  obtain ⟨d, tail, rfl⟩ := List.exists_cons_of_ne_nil hname
  obtain ⟨-, rfl⟩ := List.cons.inj hcs
  exact ⟨behind, hcs.symm, by simp⟩

namespace IsSearch

theorem nil (hname : name ≠ []) : IsSearch name start [] [] where
  found p hp := absurd hp List.not_mem_nil
  apart := .nil
  complete before behind h := by simp [hname] at h

/-- Behind a match, the search goes on. -/
theorem matched {behind : List Char} {positions : List Nat}
    (h : IsSearch name (start + byteLength name) behind positions) :
    IsSearch name start (name ++ behind) (start :: positions) where
  found p hp := by
    rcases List.mem_cons.1 hp with rfl | hp
    · exact ⟨[], behind, rfl, rfl⟩
    · obtain ⟨before, rest, rfl, rfl⟩ := h.found p hp
      exact ⟨name ++ before, rest, by simp, by rw [byteLength_append, Nat.add_assoc]⟩
  apart := by
    refine List.pairwise_cons.2 ⟨fun q hq => ?_, h.apart⟩
    obtain ⟨before, rest, -, rfl⟩ := h.found q hq
    omega
  complete before rest hsplit := by
    have hlater : ∀ inner, before = name ++ inner → behind = inner ++ (name ++ rest) →
        ∃ p ∈ start :: positions, p ≤ start + byteLength before ∧
          start + byteLength before < p + byteLength name := by
      rintro inner rfl hbehind
      obtain ⟨p, hp, hle, hlt⟩ := h.complete inner rest hbehind
      rw [byteLength_append, ← Nat.add_assoc]
      exact ⟨p, List.mem_cons_of_mem _ hp, hle, hlt⟩
    rcases List.append_eq_append_iff.1 hsplit with ⟨inner, hbefore, hbehind⟩ | ⟨inner, hsame, hrest⟩
    · exact hlater inner hbefore hbehind
    · rcases eq_or_ne inner [] with rfl | hinner
      · exact hlater [] (by simpa using hsame.symm) (by simpa using hrest.symm)
      · -- This place starts inside of the match.
        have hpos := byteLength_pos hinner
        have hlength : byteLength name = byteLength before + byteLength inner := by
          rw [hsame, byteLength_append]
        exact ⟨start, List.mem_cons_self, by omega, by omega⟩

/-- Where the name does not stand, the search goes on behind one character. -/
theorem passed {c : Char} {rest : List Char} {positions : List Nat}
    (hnot : ¬ name.isPrefixOf (c :: rest) = true) (h : IsSearch name (start + c.utf8Size) rest positions) :
    IsSearch name start (c :: rest) positions where
  found p hp := by
    obtain ⟨before, behind, rfl, rfl⟩ := h.found p hp
    exact ⟨c :: before, behind, rfl, by rw [byteLength, Nat.add_assoc]⟩
  apart := h.apart
  complete before behind hsplit := by
    cases before with
    | nil => exact absurd (List.isPrefixOf_iff_prefix.2 ⟨behind, hsplit.symm⟩) hnot
    | cons d before =>
      obtain ⟨rfl, hrest⟩ := List.cons.inj hsplit
      obtain ⟨p, hp, hle, hlt⟩ := h.complete before behind hrest
      rw [byteLength, ← Nat.add_assoc]
      exact ⟨p, hp, hle, hlt⟩

variable {ps qs : List Nat}

theorem apart_of_lt (h : IsSearch name start cs ps) {p q : Nat} (hp : p ∈ ps) (hq : q ∈ ps) (hlt : p < q) :
    p + byteLength name ≤ q := by
  obtain ⟨i, hi, rfl⟩ := List.mem_iff_getElem.1 hp
  obtain ⟨j, hj, rfl⟩ := List.mem_iff_getElem.1 hq
  rcases Nat.lt_trichotomy i j with hij | rfl | hji
  · exact List.pairwise_iff_getElem.1 h.apart i j hi hj hij
  · omega
  · have := List.pairwise_iff_getElem.1 h.apart j i hj hi hji
    omega

/-- A place that one search visits and another one passes over would start inside of a match of both. -/
theorem mem_of_mem (hp : IsSearch name start cs ps) (hq : IsSearch name start cs qs) {p : Nat}
    (ih : ∀ q < p, q ∈ qs → q ∈ ps) (h : p ∈ ps) : p ∈ qs := by
  obtain ⟨before, behind, hcs, rfl⟩ := hp.found p h
  obtain ⟨q, hmem, hle, hlt⟩ := hq.complete before behind hcs
  rcases hle.eq_or_lt with rfl | hless
  · exact hmem
  · have hapart := hp.apart_of_lt (ih q hless hmem) h hless
    omega

/-- Only one list of positions can be visited. -/
theorem unique (hname : name ≠ []) (hp : IsSearch name start cs ps) (hq : IsSearch name start cs qs) : ps = qs := by
  have hmem : ∀ p, p ∈ ps ↔ p ∈ qs := by
    intro p
    induction p using Nat.strong_induction_on with
    | _ p ih => exact ⟨hp.mem_of_mem hq fun q hq => (ih q hq).2, hq.mem_of_mem hp fun q hq => (ih q hq).1⟩
  have hpos := byteLength_pos hname
  have hlt : ∀ p q, p + byteLength name ≤ q → p < q := fun p q h => by omega
  exact (hp.apart.imp (hlt _ _)).eq_of_mem_iff (hq.apart.imp (hlt _ _)) hmem

end IsSearch

theorem isSearch_matchesFrom (hname : name ≠ []) (start : Nat) (cs : List Char) :
    IsSearch name start cs (matchesFrom name start cs) := by
  fun_induction matchesFrom name start cs with
  | case1 start => exact .nil hname
  | case2 start c rest hprefix ih =>
    obtain ⟨behind, hcs, hbehind⟩ := exists_append_of_isPrefixOf hname hprefix
    rw [hbehind] at ih ⊢
    exact hcs ▸ ih.matched
  | case3 start c rest hnot ih => exact ih.passed hnot

/-- A search visits these positions and no others. -/
theorem isSearch_iff {text name : String} (hname : name ≠ "") {positions : List Nat} :
    IsSearch name.toList 0 text.toList positions ↔ positions = matchPositions text name := by
  have hlist : name.toList ≠ [] := by simpa using hname
  have hsearch := isSearch_matchesFrom hlist 0 text.toList
  exact ⟨fun h => h.unique hlist hsearch, fun h => h ▸ hsearch⟩

/-! ## Cutting at the matches -/

/-- A text can be cut at both ends of a match. -/
theorem onBoundary_of_mem_matchPositions {text name : String} (hname : name ≠ "") {p : Nat}
    (h : p ∈ matchPositions text name) :
    OnBoundary text.toList p ∧ OnBoundary text.toList (p + byteLength name.toList) := by
  obtain ⟨before, behind, htext, rfl⟩ := ((isSearch_iff hname).2 rfl).found p h
  rw [htext, Nat.zero_add]
  refine ⟨onBoundary_append before _, ?_⟩
  rw [← List.append_assoc, ← byteLength_append]
  exact onBoundary_append (before ++ name.toList) behind

/-- The two parts of a text at a position, if it can be cut there. -/
def cutAt? (cs : List Char) (position : Nat) : Option (List Char × List Char) :=
  if OnBoundary cs position then some (takeBytes position cs, dropBytes position cs) else none

theorem cutAt?_append (before behind : List Char) :
    cutAt? (before ++ behind) (byteLength before) = some (before, behind) := by
  have htake : takeBytes (byteLength before) (before ++ behind) = before := by
    simpa using takeBytes_append before behind 0
  rw [cutAt?, if_pos (onBoundary_append before behind), htake, dropBytes_byteLength_append]

/-- Whether a match is a whole identifier, which the characters beside it tell. There is no answer if the text
cannot be cut at both of its ends. -/
def standsAlone? (name cs : List Char) (position : Nat) : Option Bool := do
  let (before, _) ← cutAt? cs position
  let (_, behind) ← cutAt? cs (position + byteLength name)
  return isBoundary before.getLast? && isBoundary behind.head?

theorem standsAlone?_append (name before behind : List Char) :
    standsAlone? name (before ++ (name ++ behind)) (byteLength before) =
      some (isBoundary before.getLast? && isBoundary behind.head?) := by
  have hbehind := cutAt?_append (before ++ name) behind
  rw [byteLength_append, List.append_assoc] at hbehind
  rw [standsAlone?, cutAt?_append, hbehind]
  rfl

/-- Goes from match to match until one of them is a whole identifier, and cuts the text at both ends of each. -/
def mentionsByPosition? (text name : String) : Option Bool :=
  (matchPositions text name).anyM (standsAlone? name.toList text.toList)

/-- What stands before the rest of a text matters by its last character only. -/
theorem anyM_standsAlone? (hname : name ≠ []) (before rest : List Char) :
    (matchesFrom name (byteLength before) rest).anyM (standsAlone? name (before ++ rest)) =
      some (mentionsAfter name before.getLast? rest) := by
  generalize hlast : before.getLast? = last
  fun_induction mentionsAfter name last rest generalizing before with
  | case1 => simp [matchesFrom]
  | case2 last c rest hprefix after ih =>
    obtain ⟨behind, hcs, hbehind⟩ := exists_append_of_isPrefixOf hname hprefix
    have hmore := ih (before ++ name) (by
      rw [List.getLast?_append, List.getLast?_eq_some_getLast hname, Option.some_or])
    rw [byteLength_append, List.append_assoc] at hmore
    have hafter : after = behind := hbehind
    rw [hafter] at hmore ⊢
    rw [matchesFrom, if_pos hprefix, hbehind, List.anyM_cons, hcs, standsAlone?_append, hlast]
    cases isBoundary last && isBoundary behind.head? with
    | true => rfl
    | false => exact hmore
  | case3 last c rest hnot ih =>
    have hmore := ih (before ++ [c]) (by simp)
    rw [byteLength_append, List.append_assoc, byteLength, byteLength, Nat.add_zero] at hmore
    rw [matchesFrom, if_neg hnot]
    exact hmore

/-- No cut fails, and the search finds what a pass over the characters finds. -/
theorem mentionsByPosition?_eq {name : String} (hname : name ≠ "") (text : String) :
    mentionsByPosition? text name = some (mentions text name) := by
  have hlist : name.toList ≠ [] := by simpa using hname
  exact anyM_standsAlone? hlist [] text.toList

/-- A search for a run of identifier characters visits the matches from left to right, each behind the one before
it, and no others. The text can be cut at both ends of each match, so the search by positions has an answer. It
finds the name exactly if it is a run of the text, because what it passes over has an identifier character before
it. -/
theorem mentions_runs (text : String) {name : String} (h : IsWord name) :
    (mentions text name = true ↔ name ∈ pieces text) ∧
    (∀ positions, IsSearch name.toList 0 text.toList positions ↔ positions = matchPositions text name) ∧
    (∀ p ∈ matchPositions text name,
      OnBoundary text.toList p ∧ OnBoundary text.toList (p + byteLength name.toList)) ∧
    mentionsByPosition? text name = some (mentions text name) := by
  refine ⟨?_, fun positions => isSearch_iff h.1, fun p hp => ?_, mentionsByPosition?_eq h.1 text⟩
  · rw [mentions_iff h, mem_pieces_iff h]
  · exact onBoundary_of_mem_matchPositions h.1 hp

/-- A name that overlaps itself, behind a character of several bytes. -/
theorem mentions_runs_overlapping :
    IsWord "aa" ∧ matchPositions "é aaa aa" "aa" = [3, 7] ∧ mentions "é aaa aa" "aa" = true ∧
      "aa" ∈ pieces "é aaa aa" ∧ mentionsByPosition? "é aaa aa" "aa" = some true := by
  have hword : IsWord "aa" := by decide +kernel
  have hpositions : matchPositions "é aaa aa" "aa" = [3, 7] := by decide +kernel
  have hmentions : mentions "é aaa aa" "aa" = true := by decide +kernel
  obtain ⟨hiff, -, -, hanswer⟩ := mentions_runs "é aaa aa" hword
  exact ⟨hword, hpositions, hmentions, hiff.1 hmentions, hanswer.trans (congrArg some hmentions)⟩

end ModuleBuild.Text
