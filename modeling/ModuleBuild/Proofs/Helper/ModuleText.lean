import ModuleBuild.Proofs.Compile.InlineHelpers
import ModuleBuild.Proofs.Helper.Written

/-!
# The pieces of the helper module

The helper module is made of the bodies of helpers and of one export list. All its pieces are known, because
no word goes on from one part of it to the next one: which of them are bindings of helpers, that none of these
stands behind a point, and that no name with an underscore before it is numbered.

## Main definitions

* `PlainText`, `Unnumbered` — texts of plain signs, and texts without numbered names.
* `listPieces` — the pieces of the entries of the export list.

## Main statements

* `pieces_helperBundle` — the pieces of the helper module.
* `callsOnly_helperBundle` — the helpers that it names are those that it declares.
* `plainText_helperBundle`, `unnumbered_helperBundle` — what all of its pieces have in common.
-/

namespace ModuleBuild

open Text

/-! ## Rows of pieces -/

section CallsOnly

variable {bindings more : List String} {point : Bool} {ps xs ys : List String} {piece : String}

theorem callsOnly_append : CallsOnly bindings point (xs ++ ys) ↔
    CallsOnly bindings point xs ∧ CallsOnly bindings (xs.getLast?.elim point (· == ".")) ys := by
  induction xs generalizing point with
  | nil => simp [CallsOnly]
  | cons x xs ih =>
    have hlast : (x :: xs).getLast?.elim point (· == ".") = xs.getLast?.elim (x == ".") (· == ".") := by
      rw [List.getLast?_cons]
      cases xs.getLast? <;> rfl
    rw [List.cons_append, CallsOnly, CallsOnly, ih, hlast, and_assoc]

theorem CallsOnly.mono (hsub : bindings ⊆ more) (h : CallsOnly bindings point ps) :
    CallsOnly more point ps := by
  induction ps generalizing point with
  | nil => trivial
  | cons x ps ih => exact ⟨fun hx => (h.1 hx).imp_right (hsub ·), ih h.2⟩

/-- Without points, it only matters which bindings there are. -/
theorem callsOnly_of_forall (h : ∀ x ∈ ps, x ≠ "." ∧ (x ∈ helperRegistry.map (·.localName) → x ∈ bindings)) :
    CallsOnly bindings false ps := by
  induction ps with
  | nil => trivial
  | cons x ps ih =>
    obtain ⟨⟨hpoint, hown⟩, hrest⟩ := List.forall_mem_cons.1 h
    refine ⟨fun hx => ⟨rfl, hown hx⟩, ?_⟩
    rw [beq_eq_false_iff_ne.2 hpoint]
    exact ih hrest

theorem CallsOnly.mem (h : CallsOnly bindings point ps) (hpiece : piece ∈ ps)
    (hlocal : piece ∈ helperRegistry.map (·.localName)) : piece ∈ bindings := by
  obtain ⟨before, behind, rfl⟩ := List.append_of_mem hpiece
  exact ((callsOnly_append.1 h).2.1 hlocal).2

/-- No binding of a helper stands behind a point. -/
theorem CallsOnly.not_behind_point (h : CallsOnly bindings point (xs ++ "." :: piece :: ys)) :
    piece ∉ helperRegistry.map (·.localName) := by
  intro hlocal
  have hpoint := ((callsOnly_append.1 h).2.2.1 hlocal).1
  cases hpoint

end CallsOnly

/-! ## Plain texts -/

/-- The signs of plain declarations: no comment, regular expression, template or escape is written with
them. -/
def plainSigns : List Char :=
  " \n_()\x7b\x7d[];,.?:=!<+&\"".toList

/-- A text of letters, digits and plain signs. -/
def PlainText (text : String) : Prop :=
  text.toList.all (fun c => c.isAlphanum || plainSigns.contains c) = true

instance (text : String) : Decidable (PlainText text) :=
  inferInstanceAs (Decidable (_ = true))

/-- No word of a text goes on with a digit. -/
def Unnumbered (text : String) : Prop :=
  text.toList.IsChain fun a b => isWordChar a = true → b.isDigit = false

instance (text : String) : Decidable (Unnumbered text) :=
  inferInstanceAs (Decidable (List.IsChain _ _))

/-- A text is plain if its pieces are. -/
theorem plainText_of_pieces {text : String} (h : ∀ piece ∈ pieces text, PlainText piece) : PlainText text := by
  rw [PlainText, ← join_pieces text, String.toList_join, List.all_eq_true]
  intro c hc
  obtain ⟨piece, hpiece, hc⟩ := List.mem_flatMap.1 hc
  exact List.all_eq_true.1 (h piece hpiece) c hc

/-- The pieces of a plain text are plain. -/
theorem PlainText.of_mem_pieces {text piece : String} (h : PlainText text) (hpiece : piece ∈ pieces text) :
    PlainText piece :=
  List.all_eq_true.2 fun c hc => List.all_eq_true.1 h c ((infix_of_mem_pieces hpiece).subset hc)

/-- A name with a number is no piece of a text without such names. -/
theorem numbered_not_mem_pieces {text name : String} (h : Unnumbered text) (hname : IsWord name) (i : Nat) :
    name ++ toString i ∉ pieces text := by
  intro hmem
  obtain ⟨init, last, hinit⟩ : ∃ init last, name.toList = init ++ [last] :=
    ⟨_, _, (List.dropLast_concat_getLast (by simpa using hname.1)).symm⟩
  obtain ⟨digit, digits, hdigits⟩ : ∃ digit digits, (toString i).toList = digit :: digits :=
    List.exists_cons_of_ne_nil (by simp)
  have hdigit : digit.isDigit = true := isDigit_of_mem_toString (hdigits ▸ List.mem_cons_self)
  have hlast : isWordChar last = true := hname.2 last (by simp [hinit])
  have hpair : [last, digit] <:+: (name ++ toString i).toList := by
    rw [String.toList_append, hinit, hdigits]
    exact ⟨init, digits, by simp⟩
  have hchain := h.infix (hpair.trans (infix_of_mem_pieces hmem))
  rw [List.isChain_pair, hdigit] at hchain
  exact absurd (hchain hlast) (by decide)

/-! ## The registry -/

/-- The bodies of the helpers are plain, and no name in them is numbered. -/
theorem plain_body : ∀ h ∈ helperRegistry, PlainText h.body ∧ Unnumbered h.body := by
  intro h hh
  simp only [helperRegistry, List.mem_cons, List.not_mem_nil, or_false] at hh
  rcases hh with rfl | rfl | rfl | rfl | rfl | rfl
  -- The characters of the lines are written out before they are looked at.
  all_goals
    simp only [PlainText, Unnumbered, extendsHelper, setPrototypeOf, inheritsHelper, classCallCheck, typeofHelper,
      defineProperty, String.toList_intercalate, List.map_cons, List.map_nil, String.toList_append]
    repeat rw [String.toList_ofList]
    decide +kernel

/-- The names of helpers are plain words without an underscore before them. -/
theorem plain_name : ∀ h ∈ helperRegistry,
    IsWord h.name ∧ PlainText h.name ∧ Unnumbered h.name ∧ h.name.toList.head? ≠ some '_' := by
  decide +kernel

/-- Their bindings are plain words, too. -/
theorem plain_localName : ∀ h ∈ helperRegistry,
    IsWord h.localName ∧ PlainText h.localName ∧ Unnumbered h.localName := by
  decide +kernel

theorem localName_head? (h : Helper) : h.localName.toList.head? = some '_' := by
  simp [Helper.localName, helperLocal]

/-! ## The export list -/

/-- The pieces of what the helper module has between names. -/
theorem pieces_signs : pieces "" = [] ∧ pieces "\n" = ["\n"] ∧ pieces ", " = [",", " "] ∧
    pieces " as " = [" ", "as", " "] ∧ pieces "export \x7b " = ["export", " ", "\x7b", " "] ∧
    pieces " \x7d;\n" = [" ", "\x7d", ";", "\n"] := by
  decide +kernel

/-- All the signs and keywords in it. -/
def moduleSigns : List String :=
  ["export", " ", "\x7b", "as", ",", "\x7d", ";", "\n"]

theorem plain_moduleSigns : ∀ sign ∈ moduleSigns, PlainText sign ∧ Unnumbered sign ∧ sign ∈ pieces sign ∧
    sign ≠ "." ∧ sign ∉ helperRegistry.map (·.localName) := by
  decide +kernel

/-- What a text ends with is the end of its last part. -/
theorem isBoundary_getLast?_append {a b : String} (hne : b.toList ≠ [])
    (hb : isBoundary b.toList.getLast? = true) : isBoundary (a ++ b).toList.getLast? = true := by
  rwa [String.toList_append, List.getLast?_append_of_ne_nil _ hne]

/-- The pieces of an entry of the export list. -/
def entryPieces (h : Helper) : List String :=
  [h.localName, " ", "as", " ", h.name]

/-- The pieces of the entries of the export list. -/
def listPieces : List Helper → List String
  | [] => []
  | [h] => entryPieces h
  | h :: next :: rest => entryPieces h ++ [",", " "] ++ listPieces (next :: rest)

theorem pieces_entry {h : Helper} (hh : h ∈ helperRegistry) :
    pieces (h.localName ++ " as " ++ h.name) = entryPieces h := by
  have hname := (plain_name h hh).1
  have hlocal := (plain_localName h hh).1
  have hleft : isBoundary (h.localName ++ " as ").toList.getLast? = true :=
    isBoundary_getLast?_append (by simp) rfl
  obtain ⟨-, -, -, has, -⟩ := pieces_signs
  rw [pieces_append (.inl hleft), pieces_append (.inr rfl), pieces_word hlocal, pieces_word hname, has]
  rfl

theorem pieces_list {helpers : List Helper} (hmem : ∀ h ∈ helpers, h ∈ helperRegistry) :
    pieces (String.intercalate ", " (helpers.map fun h => h.localName ++ " as " ++ h.name)) =
      listPieces helpers := by
  fun_induction listPieces helpers with
  | case1 => exact pieces_signs.1
  | case2 h => simpa using pieces_entry (hmem h List.mem_cons_self)
  | case3 h next rest ih =>
    obtain ⟨hh, hrest⟩ := List.forall_mem_cons.1 hmem
    obtain ⟨-, -, hcomma, -⟩ := pieces_signs
    have hleft (a : String) : isBoundary (a ++ ", ").toList.getLast? = true :=
      isBoundary_getLast?_append (by simp) rfl
    have hbehind := ih hrest
    rw [List.map_cons] at hbehind
    rw [List.map_cons, List.map_cons, String.intercalate_cons_cons, pieces_append (.inl (hleft _)),
      pieces_append (.inr rfl), pieces_entry hh, hcomma, hbehind]

/-! ## The module -/

theorem mem_helperRegistry_of_mem_helpersOf {whitelist : Option (List String)} {h : Helper}
    (hh : h ∈ helpersOf whitelist) : h ∈ helperRegistry :=
  List.mem_of_find?_eq_some (Registry.get?_of_mem_closure hh)

theorem mem_helpersOf_of_mem_providedOf {whitelist : Option (List String)} {h : Helper}
    (hh : h ∈ providedOf whitelist) : h ∈ helpersOf whitelist :=
  (List.mem_filter.1 hh).1

/-- The pieces of declarations, each on its lines. -/
theorem pieces_bodies (helpers : List Helper) :
    pieces (String.join (helpers.map fun h => h.body ++ "\n")) =
      helpers.flatMap fun h => pieces h.body ++ ["\n"] := by
  induction helpers with
  | nil => exact pieces_signs.1
  | cons h rest ih =>
    have hleft : isBoundary (h.body ++ "\n").toList.getLast? = true :=
      isBoundary_getLast?_append (by simp) rfl
    obtain ⟨-, hbreak, -⟩ := pieces_signs
    rw [List.map_cons, String.join_cons, pieces_append (.inl hleft), pieces_append (.inr rfl), hbreak, ih,
      List.flatMap_cons]

/-- The pieces of the helper module. -/
theorem pieces_helperBundle (whitelist : Option (List String)) :
    pieces (helperBundle helperRegistry whitelist .module) =
      ((helpersOf whitelist).flatMap fun h => pieces h.body ++ ["\n"]) ++
        (["export", " ", "\x7b", " "] ++ listPieces (providedOf whitelist) ++ [" ", "\x7d", ";", "\n"]) := by
  have htext : helperBundle helperRegistry whitelist .module =
      String.join ((helpersOf whitelist).map fun h => h.body ++ "\n") ++ ("export \x7b " ++
        String.intercalate ", " ((providedOf whitelist).map fun h => h.localName ++ " as " ++ h.name) ++
        " \x7d;\n") :=
    rfl
  obtain ⟨-, -, -, -, hopen, hclose⟩ := pieces_signs
  have hmem : ∀ h ∈ providedOf whitelist, h ∈ helperRegistry := fun h hh =>
    mem_helperRegistry_of_mem_helpersOf (mem_helpersOf_of_mem_providedOf hh)
  have hbodies : isBoundary
      (String.join ((helpersOf whitelist).map fun h => h.body ++ "\n")).toList.getLast? = true := by
    rcases List.eq_nil_or_concat (helpersOf whitelist) with hnone | ⟨init, h, heq⟩
    · rw [hnone]
      rfl
    · rw [heq, List.concat_eq_append, List.map_append, List.map_singleton, String.join_append, String.join_cons,
        String.join_nil, String.append_empty, ← String.append_assoc]
      exact isBoundary_getLast?_append (by simp) rfl
  rw [htext, pieces_append (.inl hbodies), pieces_bodies, pieces_append (.inr rfl), pieces_append (.inl rfl),
    hopen, hclose, pieces_list hmem]

section Pieces

variable {whitelist : Option (List String)}

theorem mem_listPieces {helpers : List Helper} {piece : String} (h : piece ∈ listPieces helpers) :
    piece ∈ [" ", "as", ","] ∨ ∃ h ∈ helpers, piece = h.localName ∨ piece = h.name := by
  fun_induction listPieces helpers with
  | case1 => cases h
  | case2 g =>
    simp only [entryPieces, List.mem_cons, List.not_mem_nil, or_false] at h
    rcases h with rfl | rfl | rfl | rfl | rfl <;> simp
  | case3 g next rest ih =>
    rcases List.mem_append.1 h with h | h
    · simp only [entryPieces, List.mem_cons, List.mem_append, List.not_mem_nil, or_false] at h
      rcases h with (rfl | rfl | rfl | rfl | rfl) | rfl | rfl <;> simp
    · exact (ih h).imp_right fun ⟨g', hg', hpiece⟩ => ⟨g', List.mem_cons_of_mem _ hg', hpiece⟩

/-- A piece behind the declarations is a binding that is provided, the name of its helper or a sign. -/
theorem mem_closing {piece : String}
    (h : piece ∈ ["export", " ", "\x7b", " "] ++ listPieces (providedOf whitelist) ++ [" ", "\x7d", ";", "\n"]) :
    piece ∈ moduleSigns ∨
      ∃ h ∈ providedOf whitelist, piece = h.localName ∨ piece = h.name := by
  rcases List.mem_append.1 h with h | h
  · rcases List.mem_append.1 h with h | h
    · refine .inl (List.Subset.trans ?_ (List.Subset.refl _) h)
      decide
    · refine (mem_listPieces h).imp_left fun h => List.Subset.trans ?_ (List.Subset.refl _) h
      decide
  · refine .inl (List.Subset.trans ?_ (List.Subset.refl _) h)
    decide

/-- Whatever stands in the helper module, no name in it is numbered. -/
theorem exists_part {piece : String} (h : piece ∈ pieces (helperBundle helperRegistry whitelist .module)) :
    ∃ part, PlainText part ∧ Unnumbered part ∧ piece ∈ pieces part := by
  rw [pieces_helperBundle] at h
  rcases List.mem_append.1 h with h | h
  · obtain ⟨g, hg, h⟩ := List.mem_flatMap.1 h
    rcases List.mem_append.1 h with h | h
    · obtain ⟨hplain, hnumbered⟩ := plain_body g (mem_helperRegistry_of_mem_helpersOf hg)
      exact ⟨g.body, hplain, hnumbered, h⟩
    · obtain rfl := List.mem_singleton.1 h
      obtain ⟨hplain, hnumbered, hmem, -⟩ := plain_moduleSigns "\n" (by decide)
      exact ⟨"\n", hplain, hnumbered, hmem⟩
  · rcases mem_closing h with h | ⟨g, hg, h⟩
    · obtain ⟨hplain, hnumbered, hmem, -⟩ := plain_moduleSigns piece h
      exact ⟨piece, hplain, hnumbered, hmem⟩
    · have hmem := mem_helperRegistry_of_mem_helpersOf (mem_helpersOf_of_mem_providedOf hg)
      rcases h with rfl | rfl
      · obtain ⟨hword, hplain, hnumbered⟩ := plain_localName g hmem
        exact ⟨_, hplain, hnumbered, by rw [pieces_word hword]; exact List.mem_singleton_self _⟩
      · obtain ⟨hword, hplain, hnumbered, -⟩ := plain_name g hmem
        exact ⟨_, hplain, hnumbered, by rw [pieces_word hword]; exact List.mem_singleton_self _⟩

theorem plainText_helperBundle (whitelist : Option (List String)) :
    PlainText (helperBundle helperRegistry whitelist .module) :=
  plainText_of_pieces fun piece hpiece => by
    obtain ⟨part, hplain, -, hmem⟩ := exists_part hpiece
    exact hplain.of_mem_pieces hmem

/-- No numbered name stands in the helper module. -/
theorem numbered_not_mem_helperBundle {name : String} (hname : IsWord name) (i : Nat) :
    name ++ toString i ∉ pieces (helperBundle helperRegistry whitelist .module) := fun hmem => by
  obtain ⟨part, -, hnumbered, hpart⟩ := exists_part hmem
  exact numbered_not_mem_pieces hnumbered hname i hpart

/-- What the helpers of the helper module call is declared in it. -/
theorem bindings_subset {h : Helper} (hh : h ∈ helpersOf whitelist) :
    h.bindings ⊆ (helpersOf whitelist).map (·.localName) := by
  intro binding hbinding
  obtain ⟨name, hname, rfl⟩ := List.mem_map.1 hbinding
  rcases List.mem_cons.1 hname with rfl | hd
  · exact List.mem_map_of_mem hh
  · have hhas := has_of_mem_dependencies h (mem_helperRegistry_of_mem_helpersOf hh) name hd
    obtain ⟨called, hcalled, rfl⟩ := Registry.dependency_mem_closure hh hd hhas
    exact List.mem_map_of_mem hcalled

theorem callsOnly_bodies {bindings : List String} {helpers : List Helper}
    (h : ∀ h ∈ helpers, CallsOnly bindings false (pieces h.body)) :
    CallsOnly bindings false (helpers.flatMap fun h => pieces h.body ++ ["\n"]) ∧
      (helpers.flatMap fun h => pieces h.body ++ ["\n"]).getLast?.elim false (· == ".") = false := by
  obtain ⟨-, -, -, -, hbreak⟩ := plain_moduleSigns "\n" (by decide)
  induction helpers with
  | nil => exact ⟨trivial, rfl⟩
  | cons first rest ih =>
    obtain ⟨hown, hrest⟩ := List.forall_mem_cons.1 h
    obtain ⟨hcalls, hlast⟩ := ih hrest
    have hline : CallsOnly bindings false (pieces first.body ++ ["\n"]) :=
      callsOnly_append.2 ⟨hown, fun hmem => absurd hmem hbreak, trivial⟩
    have hend : (pieces first.body ++ ["\n"]).getLast? = some "\n" := List.getLast?_concat
    rw [List.flatMap_cons]
    refine ⟨callsOnly_append.2 ⟨hline, by rw [hend]; exact hcalls⟩, ?_⟩
    rw [List.getLast?_append, hend]
    cases hrow : (rest.flatMap fun h => pieces h.body ++ ["\n"]).getLast? with
    | none => rfl
    | some last =>
      rw [hrow] at hlast
      exact hlast

/-- The helpers that are named in the helper module are those that it declares, and none of their bindings
stands behind a point. -/
theorem callsOnly_helperBundle (whitelist : Option (List String)) :
    CallsOnly ((helpersOf whitelist).map (·.localName)) false
      (pieces (helperBundle helperRegistry whitelist .module)) := by
  have hbodies : ∀ h ∈ helpersOf whitelist,
      CallsOnly ((helpersOf whitelist).map (·.localName)) false (pieces h.body) := fun h hh =>
    (callsOnly_body h (mem_helperRegistry_of_mem_helpersOf hh)).mono (bindings_subset hh)
  obtain ⟨hcalls, hlast⟩ := callsOnly_bodies hbodies
  rw [pieces_helperBundle, callsOnly_append, hlast]
  refine ⟨hcalls, callsOnly_of_forall fun piece hpiece => ?_⟩
  rcases mem_closing hpiece with h | ⟨g, hg, h⟩
  · obtain ⟨-, -, -, hpoint, hother⟩ := plain_moduleSigns piece h
    exact ⟨hpoint, fun hmem => absurd hmem hother⟩
  · have hmem := mem_helperRegistry_of_mem_helpersOf (mem_helpersOf_of_mem_providedOf hg)
    rcases h with rfl | rfl
    · have hword := (plain_localName g hmem).1
      refine ⟨fun hpoint => not_isWordText_point (hpoint ▸ hword.2), fun _ => ?_⟩
      exact List.mem_map_of_mem (mem_helpersOf_of_mem_providedOf hg)
    · obtain ⟨hword, -, -, hhead⟩ := plain_name g hmem
      refine ⟨fun hpoint => not_isWordText_point (hpoint ▸ hword.2), fun hlocal => ?_⟩
      obtain ⟨g', -, hsame⟩ := List.mem_map.1 hlocal
      exact absurd (hsame ▸ localName_head? g') hhead

end Pieces

end ModuleBuild
