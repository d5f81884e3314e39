import ModuleBuild.Proofs.Helper.ModuleText
import ModuleBuild.Proofs.Linking.State

/-!
# Renaming the helper module

The helper module gives way to the names of the other modules. New names are numbered, and the search for
them ends with names that no module has and that do not stand in the text. So the text says the same under
them: a parser finds the same declarations and exports with other names, and all that named a helper still
does, because nothing else had its new name.

## Main definitions

* `FreshRenames` — names for those that clash, apart from each other and from all names there are.
* `FreshNames` — what a text may have its words replaced by, so that it says the same.
* `NamesExchangeable` — a parser does not care what variables are called.
* `Rebound` — a piece of the helper module, and what stands for it.

## Main statements

* `exists_freeName` — the search for a free name ends with the first one.
* `freshRenames_helperRenames` — the new names of the helper module.
* `freshNames_helperBundle`, `rebound_renamePieces` — under its new names the helper module says the same.
* `helperModule_hygienic` — the helper module beside any other modules.
-/

namespace ModuleBuild

open Script Text

/-! ## Free names -/

section FreeName

variable (taken : List String) (name : String)

theorem freeName_eq (fuel start : Nat) : ∃ i, start ≤ i ∧ i ≤ start + fuel ∧
    freeName taken.contains name fuel start = name ++ toString i ∧
    (∀ j, start ≤ j → j < i → name ++ toString j ∈ taken) ∧
    (i < start + fuel → name ++ toString i ∉ taken) := by
  induction fuel generalizing start with
  | zero => exact ⟨start, le_rfl, le_rfl, rfl, by omega, by omega⟩
  | succ fuel ih =>
    by_cases htaken : name ++ toString start ∈ taken
    · obtain ⟨i, hstart, hend, heq, hbefore, hfree⟩ := ih (start + 1)
      rw [freeName, if_pos (by simpa using htaken)]
      refine ⟨i, by omega, by omega, heq, fun j hj hji => ?_, fun hi => hfree (by omega)⟩
      rcases hj.eq_or_lt with rfl | hlt
      · exact htaken
      · exact hbefore j hlt hji
    · rw [freeName, if_neg (by simpa using htaken)]
      exact ⟨start, le_rfl, by omega, rfl, by omega, fun _ => htaken⟩

/-- The search for a free name ends with the first one. Fuel for as many names as are taken is enough, and
more does not matter. -/
theorem exists_freeName (start : Nat) : ∃ i, start ≤ i ∧ name ++ toString i ∉ taken ∧
    (∀ j, start ≤ j → j < i → name ++ toString j ∈ taken) ∧
    ∀ fuel, taken.length ≤ fuel → freeName taken.contains name fuel start = name ++ toString i := by
  obtain ⟨i, hstart, hend, heq, hbefore, -⟩ := freeName_eq taken name taken.length start
  have hfree : name ++ toString i ∉ taken := heq ▸ freeName_not_mem taken name start
  refine ⟨i, hstart, hfree, hbefore, fun fuel hfuel => ?_⟩
  obtain ⟨k, hstart', -, heq', hbefore', hfree'⟩ := freeName_eq taken name fuel start
  rcases Nat.lt_trichotomy k i with hlt | rfl | hlt
  · exact absurd (hbefore k hstart' hlt) (hfree' (by omega))
  · exact heq'
  · exact absurd (hbefore' i hstart hlt) hfree

end FreeName

/-- Numbered names for all names that are declared here and owned by others, apart from each other and from
all names that are declared or owned. -/
structure FreshRenames (owned declared : List String) (renames : List (String × String)) : Prop where
  mem_iff : ∀ name, name ∈ renames.map (·.1) ↔ name ∈ declared ∧ name ∈ owned
  nodup : (renames.map (·.1)).Nodup
  new_nodup : (renames.map (·.2)).Nodup
  numbered : ∀ pair ∈ renames, ∃ i, 2 ≤ i ∧ pair.2 = pair.1 ++ toString i
  not_owned : ∀ pair ∈ renames, pair.2 ∉ owned
  not_declared : ∀ pair ∈ renames, pair.2 ∉ declared

/-- The new names of the helper module. -/
theorem freshRenames_helperRenames (owned declared : List String) :
    FreshRenames owned declared (helperRenames owned declared) := by
  -- The renames that are there already are those of the names passed.
  have hfold (clashing passed : List String) (renames : List (String × String))
      (hmem : ∀ name, name ∈ renames.map (·.1) ↔ name ∈ passed)
      (hnodup : (renames.map (·.1)).Nodup) (hnew : (renames.map (·.2)).Nodup)
      (hall : ∀ pair ∈ renames,
        (∃ i, 2 ≤ i ∧ pair.2 = pair.1 ++ toString i) ∧ pair.2 ∉ owned ∧ pair.2 ∉ declared) :
      let result := clashing.foldl (fun renames name =>
        let taken := owned ++ declared ++ renames.map (·.2)
        let fresh := freeName taken.contains name taken.length 2
        (name, fresh) :: renames.filter (·.1 != name)) renames
      (∀ name, name ∈ result.map (·.1) ↔ name ∈ passed ∨ name ∈ clashing) ∧
        (result.map (·.1)).Nodup ∧ (result.map (·.2)).Nodup ∧ ∀ pair ∈ result,
          (∃ i, 2 ≤ i ∧ pair.2 = pair.1 ++ toString i) ∧ pair.2 ∉ owned ∧ pair.2 ∉ declared := by
    induction clashing generalizing passed renames with
    | nil => exact ⟨by simpa using hmem, hnodup, hnew, hall⟩
    | cons first rest ih =>
      obtain ⟨i, hi, hfree, -, hsearch⟩ := exists_freeName (owned ++ declared ++ renames.map (·.2)) first 2
      have hfresh := hsearch _ le_rfl
      simp only [List.mem_append, not_or] at hfree
      obtain ⟨⟨howned, hdeclared⟩, hused⟩ := hfree
      have hsub : (renames.filter (·.1 != first)).Sublist renames := List.filter_sublist
      have hkeys (name : String) : name ∈ (renames.filter (·.1 != first)).map (·.1) ↔
          name ∈ renames.map (·.1) ∧ name ≠ first := by
        grind
      rw [List.foldl_cons]
      dsimp only
      rw [hfresh]
      have hmem' (name : String) :
          name ∈ ((first, first ++ toString i) :: renames.filter (·.1 != first)).map (·.1) ↔
            name ∈ first :: passed := by
        rw [List.map_cons, List.mem_cons, hkeys, hmem, List.mem_cons]
        tauto
      have hnodup' : (((first, first ++ toString i) :: renames.filter (·.1 != first)).map (·.1)).Nodup := by
        rw [List.map_cons, List.nodup_cons, hkeys]
        exact ⟨fun h => h.2 rfl, hnodup.sublist (hsub.map _)⟩
      have hnew' : (((first, first ++ toString i) :: renames.filter (·.1 != first)).map (·.2)).Nodup := by
        rw [List.map_cons, List.nodup_cons]
        exact ⟨fun h => hused ((hsub.map _).subset h), hnew.sublist (hsub.map _)⟩
      obtain ⟨hresult, hrest⟩ := ih (first :: passed) _ hmem' hnodup' hnew' (List.forall_mem_cons.2
        ⟨⟨⟨i, hi, rfl⟩, howned, hdeclared⟩, fun pair hpair => hall pair (hsub.subset hpair)⟩)
      refine ⟨fun name => (hresult name).trans ?_, hrest⟩
      rw [List.mem_cons, List.mem_cons]
      tauto
  obtain ⟨hmem, hnodup, hnew, hall⟩ := hfold (declared.filter owned.contains) [] [] (by simp) (by simp)
    (by simp) (by simp)
  refine ⟨fun name => ?_, hnodup, hnew, fun pair h => (hall pair h).1, fun pair h => (hall pair h).2.1,
    fun pair h => (hall pair h).2.2⟩
  exact (hmem name).trans (by simp)

/-! ## Parsers and names -/

/-- A name of letters, digits and underscores that starts with one of these. -/
def IsUnderscored (name : String) : Prop :=
  name.toList.head? = some '_' ∧ name.toList.all (fun c => c.isAlphanum || c == '_') = true

instance (name : String) : Decidable (IsUnderscored name) :=
  inferInstanceAs (Decidable (_ ∧ _))

theorem IsUnderscored.isWord {name : String} (h : IsUnderscored name) : IsWord name := by
  refine ⟨fun hempty => ?_, fun c hc => ?_⟩
  · have hhead := h.1
    simp [hempty] at hhead
  · have hchar := List.all_eq_true.1 h.2 c hc
    rw [Bool.or_eq_true, beq_iff_eq] at hchar
    rcases hchar with halnum | rfl
    · have hascii : c.toNat < 128 := by
        simp only [Char.isAlphanum, Char.isAlpha, Char.isUpper, Char.isLower, Char.isDigit, Bool.or_eq_true,
          Bool.and_eq_true, decide_eq_true_eq, ge_iff_le, UInt32.le_iff_toNat_le] at halnum
        have hval : c.toNat = c.val.toNat := rfl
        rcases halnum with (⟨-, h⟩ | ⟨-, h⟩) | ⟨-, h⟩ <;> simp at h <;> omega
      simp [isWordChar, isAlphanumeric, hascii, halnum]
    · decide

/-- New names for some underscored names of a text: they are underscored too, do not stand in the text and
are apart from each other. What is renamed is no property behind a point, and no new name has a meaning of
its own. -/
structure FreshNames (text : String) (image : String → Option String) : Prop where
  underscored : ∀ name new, image name = some new → IsUnderscored name ∧ IsUnderscored new
  ne_proto : ∀ name new, image name = some new → new ≠ "__proto__"
  not_mem : ∀ name new, image name = some new → new ∉ pieces text
  inj : ∀ a b new, image a = some new → image b = some new → a = b
  point : ∀ name before behind, pieces text = before ++ "." :: name :: behind → image name = none

/-- A statement that declares names, or that exports some. -/
inductive IsPlainItem : ModuleItem → Prop
  | declaration (span : Span) (names : List String) : IsPlainItem (.declaration span (some names))
  | exportList (span : Span) {names : List (String × String)}
    (words : ∀ pair ∈ names, IsWord pair.1 ∧ IsWord pair.2) : IsPlainItem (.exportList span names none)

/-- The same statement with other names, possibly in another place. -/
inductive RenamedItem (newOf : String → String) : ModuleItem → ModuleItem → Prop
  | declaration (span span' : Span) (names : List String) :
    RenamedItem newOf (.declaration span (some names)) (.declaration span' (some (names.map newOf)))
  | exportList (span span' : Span) (names : List (String × String)) :
    RenamedItem newOf (.exportList span names none)
      (.exportList span' (names.map fun pair => (newOf pair.1, newOf pair.2)) none)

/-- What variables are called does not matter to a parser. In a plain text that it reads as declarations and
export lists, underscored names may have new names that do not stand in the text. -/
structure NamesExchangeable (read : String → Option (List ModuleItem)) : Prop where
  read_rename : ∀ {text : String} {image : String → Option String} {items : List ModuleItem},
    PlainText text → FreshNames text image → read text = some items → (∀ item ∈ items, IsPlainItem item) →
    ∃ items', read (rename image text) = some items' ∧
      List.Forall₂ (RenamedItem fun name => (image name).getD name) items items'

section Read

variable {read : String → Option (List ModuleItem)} {text : String} {helpers provided : List Helper}

theorem exists_spans {newOf : String → String} {spans : List Span} {last : Span} {items : List ModuleItem}
    (hlength : spans.length = helpers.length)
    (h : List.Forall₂ (RenamedItem newOf) (List.zipWith
      (fun (h : Helper) span => ModuleItem.declaration span (some [h.localName])) helpers spans ++
      [.exportList last (provided.map fun h => (h.localName, h.name)) none]) items) :
    ∃ (spans' : List Span) (last' : Span), spans'.length = helpers.length ∧ items = List.zipWith
      (fun (h : Helper) span => ModuleItem.declaration span (some [newOf h.localName])) helpers spans' ++
      [.exportList last' (provided.map fun h => (newOf h.localName, newOf h.name)) none] := by
  induction helpers generalizing spans items with
  | nil =>
    rw [List.zipWith_nil_left, List.nil_append] at h
    obtain ⟨item, items, hitem, hnil, rfl⟩ := List.forall₂_cons_left_iff.1 h
    obtain rfl := List.forall₂_nil_left_iff.1 hnil
    cases hitem with
    | exportList _ span' => exact ⟨[], span', rfl, by simp⟩
  | cons first rest ih =>
    obtain _ | ⟨span, spans⟩ := spans
    · cases hlength
    · rw [List.zipWith_cons_cons, List.cons_append] at h
      obtain ⟨item, items, hitem, hrest, rfl⟩ := List.forall₂_cons_left_iff.1 h
      obtain ⟨spans', last', hlength', rfl⟩ := ih (by simpa using hlength) hrest
      cases hitem with
      | declaration _ span' =>
        exact ⟨span' :: spans', last', by simpa using hlength', by simp⟩

/-- Helpers are read under new names, too. -/
theorem ReadAs.renamed {image : String → Option String} (h : ReadAs read text id helpers provided)
    (hnames : NamesExchangeable read) (hplain : PlainText text) (hfresh : FreshNames text image)
    (hwords : ∀ h ∈ provided, IsWord h.localName ∧ IsWord h.name)
    (hkept : ∀ h ∈ provided, image h.name = none) :
    ReadAs read (rename image text) (fun name => (image name).getD name) helpers provided := by
  obtain ⟨spans, last, hlength, hread⟩ := h
  obtain ⟨items, hitems, hrenamed⟩ := hnames.read_rename hplain hfresh hread (by
    intro item hitem
    rcases List.mem_append.1 hitem with hitem | hitem
    · obtain ⟨i, hi, rfl⟩ := List.getElem_of_mem hitem
      rw [List.getElem_zipWith]
      exact .declaration _ _
    · obtain rfl := List.mem_singleton.1 hitem
      refine .exportList _ fun pair hpair => ?_
      obtain ⟨g, hg, rfl⟩ := List.mem_map.1 hpair
      exact hwords g hg)
  obtain ⟨spans', last', hlength', rfl⟩ := exists_spans hlength hrenamed
  refine ⟨spans', last', hlength', ?_⟩
  rw [hitems]
  congr 4
  refine List.map_congr_left fun g hg => ?_
  rw [hkept g hg]
  rfl

end Read

/-! ## The text under new names -/

section Renamed

variable {whitelist : Option (List String)} {owned : List String} {name new : String}

/-- What is renamed is a helper that the module declares, to a numbered name. -/
theorem exists_of_lookup (h : (helperNewNames whitelist owned).lookup name = some new) :
    (∃ g ∈ helpersOf whitelist, name = g.localName) ∧ ∃ i, 2 ≤ i ∧ new = name ++ toString i := by
  have hfresh := freshRenames_helperRenames owned ((helpersOf whitelist).map (·.localName))
  have hmem := mem_of_lookup h
  obtain ⟨hdeclared, -⟩ := (hfresh.mem_iff name).1 (List.mem_map_of_mem hmem)
  obtain ⟨g, hg, hname⟩ := List.mem_map.1 hdeclared
  exact ⟨⟨g, hg, hname.symm⟩, hfresh.numbered _ hmem⟩

theorem isUnderscored_localName : ∀ h ∈ helperRegistry, IsUnderscored h.localName := by
  decide +kernel

theorem IsUnderscored.numbered (h : IsUnderscored name) (i : Nat) : IsUnderscored (name ++ toString i) := by
  obtain ⟨hhead, hall⟩ := h
  unfold IsUnderscored
  rw [String.toList_append]
  refine ⟨?_, ?_⟩
  · rw [List.head?_append, hhead]
    rfl
  · rw [List.all_append, hall, Bool.true_and, List.all_eq_true]
    intro c hc
    simp [Char.isAlphanum, isDigit_of_mem_toString hc]

/-- The new names of the helper module are new to its text. -/
theorem freshNames_helperBundle (whitelist : Option (List String)) (owned : List String) :
    FreshNames (helperBundle helperRegistry whitelist .module)
      fun name => (helperNewNames whitelist owned).lookup name where
  underscored name new h := by
    obtain ⟨⟨g, hg, rfl⟩, i, -, rfl⟩ := exists_of_lookup h
    have hname := isUnderscored_localName g (mem_helperRegistry_of_mem_helpersOf hg)
    exact ⟨hname, hname.numbered i⟩
  ne_proto name new h hproto := by
    obtain ⟨⟨g, hg, rfl⟩, i, -, rfl⟩ := exists_of_lookup h
    have hword := (plain_localName g (mem_helperRegistry_of_mem_helpersOf hg)).1
    have hunnumbered : Unnumbered "__proto__" := by decide +kernel
    refine numbered_not_mem_pieces hunnumbered hword i ?_
    rw [hproto, pieces_word (by decide +kernel)]
    exact List.mem_singleton_self _
  not_mem name new h := by
    obtain ⟨⟨g, hg, rfl⟩, i, -, rfl⟩ := exists_of_lookup h
    exact numbered_not_mem_helperBundle (plain_localName g (mem_helperRegistry_of_mem_helpersOf hg)).1 i
  inj := (helperRenames_inj owned _).2
  point name before behind hpieces := by
    have hnot := (hpieces ▸ callsOnly_helperBundle whitelist).not_behind_point
    by_contra hsome
    obtain ⟨new, hnew⟩ := Option.ne_none_iff_exists'.1 hsome
    obtain ⟨⟨g, hg, rfl⟩, -⟩ := exists_of_lookup hnew
    exact hnot (List.mem_map_of_mem (mem_helperRegistry_of_mem_helpersOf hg))

/-- A piece of the helper module and what stands for it: the new name if the piece names a helper, which is
then one that is declared. All else stays, and is none of the new names. -/
def Rebound (helpers : List Helper) (renames : List (String × String)) (piece new : String) : Prop :=
  (∀ h ∈ helperRegistry, piece = h.localName → h ∈ helpers ∧ new = newName renames h.localName) ∧
    ((∀ h ∈ helperRegistry, piece ≠ h.localName) →
      new = piece ∧ ∀ h ∈ helpers, new ≠ newName renames h.localName)

theorem eq_of_localName_eq {g h : Helper} (hg : g ∈ helperRegistry) (hh : h ∈ helperRegistry)
    (heq : g.localName = h.localName) : g = h := by
  have hget := get?_of_mem_helperRegistry g hg
  rw [helperLocal_inj.1 heq, get?_of_mem_helperRegistry h hh] at hget
  exact (Option.some.inj hget).symm

/-- Piece by piece, the helper module says the same under its new names. -/
theorem rebound_renamePieces {point : Bool} {ps : List String}
    (hcalls : CallsOnly ((helpersOf whitelist).map (·.localName)) point ps)
    (hnew : ∀ name new, (helperNewNames whitelist owned).lookup name = some new → new ∉ ps) :
    List.Forall₂ (Rebound (helpersOf whitelist) (helperNewNames whitelist owned)) ps
      (renamePieces (fun name => (helperNewNames whitelist owned).lookup name) point ps) := by
  induction ps generalizing point with
  | nil => exact .nil
  | cons piece rest ih =>
    obtain ⟨hpiece, hrest⟩ := hcalls
    refine .cons ?_ (ih hrest fun name new h hmem => hnew name new h (List.mem_cons_of_mem _ hmem))
    by_cases hnamed : ∃ g ∈ helperRegistry, piece = g.localName
    · obtain ⟨g, hg, rfl⟩ := hnamed
      obtain ⟨rfl, hmem⟩ := hpiece (List.mem_map_of_mem hg)
      obtain ⟨g', hg', hsame⟩ := List.mem_map.1 hmem
      obtain rfl := eq_of_localName_eq (mem_helperRegistry_of_mem_helpersOf hg') hg hsame
      refine ⟨fun h hh heq => ?_, fun hno => absurd rfl (hno g' hg)⟩
      obtain rfl := eq_of_localName_eq hg hh heq
      exact ⟨hg', rfl⟩
    · have hno : ∀ g ∈ helperRegistry, piece ≠ g.localName := fun g hg h => hnamed ⟨g, hg, h⟩
      have hkept : (helperNewNames whitelist owned).lookup piece = none := by
        by_contra hsome
        obtain ⟨new, hlookup⟩ := Option.ne_none_iff_exists'.1 hsome
        obtain ⟨⟨g, hg, hname⟩, -⟩ := exists_of_lookup hlookup
        exact hno g (mem_helperRegistry_of_mem_helpersOf hg) hname
      refine ⟨fun g hg h => absurd h (hno g hg), fun _ => ⟨by simp [hkept], fun h hh heq => ?_⟩⟩
      have heq : piece = newName (helperNewNames whitelist owned) h.localName := by simpa [hkept] using heq
      unfold newName at heq
      cases hlookup : (helperNewNames whitelist owned).lookup h.localName with
      | none => exact hno h (mem_helperRegistry_of_mem_helpersOf hh) (by simpa [hlookup] using heq)
      | some new =>
        obtain rfl : piece = new := by simpa [hlookup] using heq
        exact hnew _ _ hlookup List.mem_cons_self

/-- The helper module is read as it is linked, whatever names the other modules have. -/
theorem helperModuleRead_of_written {read : String → Option (List ModuleItem)}
    (hwritten : ReadAs read (helperBundle helperRegistry whitelist .module) id (helpersOf whitelist)
      (providedOf whitelist)) (hnames : NamesExchangeable read) (owned : List String) :
    HelperModuleRead read whitelist owned where
  written := hwritten
  renamed _ := by
    have hmem : ∀ h ∈ providedOf whitelist, h ∈ helperRegistry := fun h hh =>
      mem_helperRegistry_of_mem_helpersOf (mem_helpersOf_of_mem_providedOf hh)
    refine hwritten.renamed hnames (plainText_helperBundle whitelist) (freshNames_helperBundle whitelist owned)
      (fun h hh => ⟨(plain_localName h (hmem h hh)).1, (plain_name h (hmem h hh)).1⟩) fun h hh => ?_
    -- Names of helpers have no underscore before them.
    by_contra hsome
    obtain ⟨new, hlookup⟩ := Option.ne_none_iff_exists'.1 hsome
    obtain ⟨⟨g, -, hname⟩, -⟩ := exists_of_lookup hlookup
    exact (plain_name h (hmem h hh)).2.2.2 (hname ▸ localName_head? g)

end Renamed

/-! ## The helper module beside other modules -/

section HelperModule

variable {m : Type → Type} {project : Project m} {whitelist : Option (List String)}

/-- Names that no other module has can be claimed. -/
theorem Graph.declare_of_not_owned {g : Graph} {id : String} {names : List String}
    (h : ∀ name ∈ names, name ∉ g.owners.map (·.1)) : ∃ g', g.declare id names = .ok g' := by
  cases hdeclare : g.declare id names with
  | ok g' => exact ⟨g', rfl⟩
  | error e =>
    obtain ⟨name, hname, first, -, howner, -⟩ := Graph.declare_error hdeclare
    exact absurd (List.mem_map_of_mem (mem_of_lookup howner)) (h name hname)

/-- The helper module is linked under its new names, if it has any. -/
theorem helperModule_eq {owned : List String} {first record : ModuleRecord}
    (hfirst : ModuleRecord.ofText project.read helperModuleId project.helperText helperDefaultLocal = .ok first)
    (hrecord : ModuleRecord.ofText project.read helperModuleId
      (rename (fun name => (helperRenames owned first.declared).lookup name) project.helperText)
      helperDefaultLocal = .ok record) :
    helperModule project owned =
      .ok (rename (fun name => (helperRenames owned first.declared).lookup name) project.helperText, record) := by
  unfold helperModule
  simp only [hfirst, bind, Except.bind]
  cases hrenames : helperRenames owned first.declared with
  | nil =>
    have hsame : rename (fun name => List.lookup name ([] : List (String × String))) project.helperText =
        project.helperText :=
      rename_eq_self (fun _ _ hnew => by cases hnew) _
    rw [hrenames, hsame, hfirst] at hrecord
    rw [hsame, Except.ok.inj hrecord]
    rfl
  | cons pair rest =>
    rw [hrenames] at hrecord
    simp only [hrecord]
    rfl

/-- The helper module beside modules with any names, where its text is read as it is written and names do
not matter to the parser. The search for a free name ends. Each name that clashes gets a new one that is
apart from all others. Under the new names the module exports the same helpers in the same order, each by
its new name, and no name that it declares is owned, so that all of them can be claimed. What named a helper
in the text has its new name, and nothing else has. -/
theorem helperModule_hygienic (owned : List String)
    (hwritten : ReadAs project.read (helperBundle helperRegistry whitelist .module) id (helpersOf whitelist)
      (providedOf whitelist))
    (hnames : NamesExchangeable project.read)
    (htext : project.helperText = helperBundle helperRegistry whitelist .module) :
    let renames := helperRenames owned ((helpersOf whitelist).map (·.localName))
    let renamed := rename (fun name => renames.lookup name) project.helperText
    (∀ (taken : List String) (name : String), ∃ i, 2 ≤ i ∧ name ++ toString i ∉ taken ∧
      (∀ j, 2 ≤ j → j < i → name ++ toString j ∈ taken) ∧
      ∀ fuel, taken.length ≤ fuel → freeName taken.contains name fuel 2 = name ++ toString i) ∧
    FreshRenames owned ((helpersOf whitelist).map (·.localName)) renames ∧
    ∃ first record,
      ModuleRecord.ofText project.read helperModuleId project.helperText helperDefaultLocal = .ok first ∧
      helperModule project owned = .ok (renamed, record) ∧
      ModuleRecord.ofText project.read helperModuleId renamed helperDefaultLocal = .ok record ∧
      first.declared = (helpersOf whitelist).map (·.localName) ∧
      first.exports = (providedOf whitelist).map (fun h => (h.name, h.localName)) ∧
      record.exports = first.exports.map (fun pair => (pair.1, newName renames pair.2)) ∧
      record.declared = first.declared.map (newName renames) ∧ record.declared.Nodup ∧
      (∀ name ∈ record.declared, name ∉ owned) ∧
      (∀ g : Graph, (∀ name ∈ g.owners.map (·.1), name ∈ owned) →
        ∃ g', g.declare helperModuleId record.declared = .ok g') ∧
      List.Forall₂ (Rebound (helpersOf whitelist) renames) (pieces project.helperText) (pieces renamed) := by
  intro renames renamed
  have hread := helperModuleRead_of_written hwritten hnames owned
  obtain ⟨first, hfirst, -, hdeclared, hexports⟩ := hwritten.record helperModuleId helperDefaultLocal
  obtain ⟨record, hrecord, -, hdeclared', hexports'⟩ := hread.linked.record helperModuleId helperDefaultLocal
  rw [← htext] at hfirst hrecord
  have hnewdeclared : record.declared = first.declared.map (newName renames) := by
    rw [hdeclared', hdeclared, List.map_map]
    rfl
  have hnot : ∀ name ∈ record.declared, name ∉ owned := by
    rw [hnewdeclared, hdeclared]
    intro name hname
    obtain ⟨old, hold, rfl⟩ := List.mem_map.1 hname
    exact newName_not_mem_owned hold
  have hnodup : record.declared.Nodup := by
    rw [hnewdeclared, hdeclared]
    refine List.Nodup.map_on (fun a ha b hb => newName_inj ha hb) ?_
    have hhelpers : ((helpersOf whitelist).map (·.name)).Nodup := Registry.names_closure_nodup _
    have hlocals := hhelpers.map (f := helperLocal) fun a b => helperLocal_inj.1
    rwa [List.map_map] at hlocals
  have hmodule : helperModule project owned = .ok (renamed, record) := by
    have hnewNames : helperRenames owned first.declared = renames := by
      rw [hdeclared]
      rfl
    have hlinked := @helperModule_eq m project owned first record hfirst (by rwa [hnewNames])
    rwa [hnewNames] at hlinked
  refine ⟨fun taken name => exists_freeName taken name 2, freshRenames_helperRenames _ _, first, record, hfirst,
    hmodule, hrecord, hdeclared, hexports, ?_, hnewdeclared, hnodup, hnot, fun g hg => ?_, ?_⟩
  · rw [hexports', hexports, List.map_map]
    rfl
  · exact Graph.declare_of_not_owned fun name hname howner => hnot name hname (hg name howner)
  · have himage (name new : String) (h : renames.lookup name = some new) : IsWord name ∧ IsWord new := by
      obtain ⟨⟨g, hg, rfl⟩, i, hi, rfl⟩ := exists_of_lookup h
      have hword := (plain_localName g (mem_helperRegistry_of_mem_helpersOf hg)).1
      have hnumbered := isWord_numbered hword i
      rw [numbered, if_neg (by omega)] at hnumbered
      exact ⟨hword, hnumbered⟩
    rw [pieces_rename himage, htext]
    exact rebound_renamePieces (callsOnly_helperBundle whitelist) (freshNames_helperBundle whitelist owned).not_mem

end HelperModule

end ModuleBuild
