import ModuleBuild.Options.LocalConfig
import ModuleBuild.Proofs.Path.Ancestors

/-!
# The local configuration of a file

The directories above a file are searched from its own to the top, and the root is the last one that is
searched. So the configuration that is found is the nearest one, and none is found above a root that the file
lies in.

## Main definitions

* `LocalConfig.WithinRoot` — the directories that are searched.

## Main statements

* `LocalConfig.findIn?_eq_some_iff`, `LocalConfig.findIn?_eq_none_iff` — a search through a row of directories.
* `LocalConfig.find?_nearest` — the configuration that applies to a file.
-/

namespace ModuleBuild.LocalConfig

variable {isFile : Path → Bool} {root : Option Path} {filename d p : Path} {ds : List Path}

/-! ## A row of directories -/

/-- A search finds the first directory with a configuration, unless the root comes before it. -/
theorem findIn?_eq_some_iff : findIn? isFile root ds = some p ↔
    ∃ before d behind, ds = before ++ d :: behind ∧ p = d.join ⟨fileName⟩ ∧ isFile p = true ∧
      ∀ e ∈ before, isFile (e.join ⟨fileName⟩) = false ∧ root.any (·.same e) = false := by
  induction ds with
  | nil => simp [findIn?]
  | cons first above ih =>
    rw [findIn?]
    constructor
    · intro h
      split at h
      · rename_i hfile
        obtain rfl := Option.some.inj h
        exact ⟨[], first, above, rfl, rfl, hfile, by simp⟩
      · rename_i hfile
        split at h
        · cases h
        · rename_i hroot
          obtain ⟨before, d, behind, rfl, rfl, hp, hbefore⟩ := ih.mp h
          refine ⟨first :: before, d, behind, rfl, rfl, hp, List.forall_mem_cons.mpr ⟨?_, hbefore⟩⟩
          exact ⟨by simpa using hfile, by simpa using hroot⟩
    · rintro ⟨before, d, behind, hsplit, rfl, hp, hbefore⟩
      cases before with
      | nil =>
        obtain ⟨rfl, rfl⟩ := List.cons.inj hsplit
        rw [if_pos hp]
      | cons e before =>
        obtain ⟨rfl, rfl⟩ := List.cons.inj hsplit
        obtain ⟨⟨hfile, hroot⟩, hrest⟩ := List.forall_mem_cons.mp hbefore
        rw [hfile, hroot]
        exact ih.mpr ⟨before, d, behind, rfl, rfl, hp, hrest⟩

/-- A search finds nothing if no directory up to the root has a configuration. -/
theorem findIn?_eq_none_iff : findIn? isFile root ds = none ↔
    ∀ before d behind, ds = before ++ d :: behind → (∀ e ∈ before, root.any (·.same e) = false) →
      isFile (d.join ⟨fileName⟩) = false := by
  induction ds with
  | nil => simp [findIn?]
  | cons first above ih =>
    rw [findIn?]
    constructor
    · intro h before d behind hsplit hbefore
      split at h
      · cases h
      · rename_i hfile
        cases before with
        | nil =>
          obtain ⟨rfl, rfl⟩ := List.cons.inj hsplit
          simpa using hfile
        | cons e before =>
          obtain ⟨rfl, rfl⟩ := List.cons.inj hsplit
          obtain ⟨hroot, hrest⟩ := List.forall_mem_cons.mp hbefore
          rw [hroot] at h
          exact ih.mp h before d behind rfl hrest
    · intro h
      rw [h [] first above rfl (by simp), if_neg Bool.false_ne_true]
      split
      · rfl
      · rename_i hroot
        refine ih.mpr fun before d behind hsplit hbefore => ?_
        refine h (first :: before) d behind (by rw [hsplit]; rfl) (List.forall_mem_cons.mpr ⟨?_, hbefore⟩)
        simpa using hroot

/-! ## The directories above a file -/

/-- If the root is one of the directories above the file, then the directory is the root or in it. -/
def WithinRoot (filename : Path) (root : Option Path) (directory : Path) : Prop :=
  ∀ r ∈ root, ∀ d, filename.LiesIn d → r.same d = true → d = directory ∨ directory.LiesIn d

/-- The directories before one of those above a file are the ones that lie in it. -/
theorem mem_before_iff {before behind : List Path} (h : filename.ancestors = before ++ d :: behind) {e : Path} :
    e ∈ before ↔ filename.LiesIn e ∧ e.LiesIn d := by
  have hpairs := Path.pairwise_ancestors filename
  rw [h, List.pairwise_append, List.pairwise_cons] at hpairs
  obtain ⟨-, ⟨hbehind, -⟩, hbefore⟩ := hpairs
  rw [← Path.mem_ancestors_iff, h]
  constructor
  · exact fun he => ⟨List.mem_append_left _ he, hbefore e he d List.mem_cons_self⟩
  · rintro ⟨he, hlies⟩
    rcases List.mem_append.mp he with he | he
    · exact he
    rcases List.mem_cons.mp he with rfl | he
    · exact absurd hlies (Path.LiesIn.irrefl e)
    · exact absurd hlies (hbehind e he).asymm

/-- A directory is within the root if the root does not come before it. -/
theorem withinRoot_iff {before behind : List Path} (h : filename.ancestors = before ++ d :: behind) :
    WithinRoot filename root d ↔ ∀ e ∈ before, root.any (·.same e) = false := by
  constructor
  · intro hwithin e he
    obtain ⟨hfile, hlies⟩ := (mem_before_iff h).mp he
    by_contra hroot
    obtain ⟨r, hr, hsame⟩ := Option.any_eq_true _ _ |>.mp (by simpa using hroot)
    rcases hwithin r hr e hfile hsame with rfl | hback
    · exact Path.LiesIn.irrefl e hlies
    · exact hlies.asymm hback
  · intro hbefore r hr e hfile hsame
    have hmem := Path.mem_ancestors_iff.mpr hfile
    rw [h] at hmem
    rcases List.mem_append.mp hmem with hmem | hmem
    · have hroot := hbefore e hmem
      rw [hr, Option.any_some, hsame] at hroot
      cases hroot
    rcases List.mem_cons.mp hmem with rfl | hmem
    · exact .inl rfl
    · have hpairs := Path.pairwise_ancestors filename
      rw [h, List.pairwise_append, List.pairwise_cons] at hpairs
      exact .inr (hpairs.2.1.1 e hmem)

variable (isFile filename root) in
/-- The configuration of a file is the one in the nearest directory above it that has one, where a root that
the file lies in is the last directory searched. There is none if no directory up to the root has one, or up
to the top if the file does not lie in the root. -/
theorem find?_nearest :
    (∀ p, find? isFile filename root = some p ↔ ∃ d, filename.LiesIn d ∧ WithinRoot filename root d ∧
      p = d.join ⟨fileName⟩ ∧ isFile p = true ∧
      ∀ e, filename.LiesIn e → e.LiesIn d → isFile (e.join ⟨fileName⟩) = false) ∧
    (find? isFile filename root = none ↔
      ∀ d, filename.LiesIn d → WithinRoot filename root d → isFile (d.join ⟨fileName⟩) = false) := by
  have hsplit {d : Path} (h : filename.LiesIn d) : ∃ before behind, filename.ancestors = before ++ d :: behind :=
    List.append_of_mem (Path.mem_ancestors_iff.mpr h)
  have hlies {before behind : List Path} {d : Path} (h : filename.ancestors = before ++ d :: behind) :
      filename.LiesIn d :=
    Path.mem_ancestors_iff.mp (by simp [h])
  refine ⟨fun p => findIn?_eq_some_iff.trans ⟨?_, ?_⟩, findIn?_eq_none_iff.trans ⟨?_, ?_⟩⟩
  · rintro ⟨before, d, behind, hchain, hp, hfile, hbefore⟩
    refine ⟨d, hlies hchain, (withinRoot_iff hchain).mpr fun e he => (hbefore e he).2, hp, hfile, ?_⟩
    exact fun e he hbelow => (hbefore e ((mem_before_iff hchain).mpr ⟨he, hbelow⟩)).1
  · rintro ⟨d, hd, hwithin, hp, hfile, hnearer⟩
    obtain ⟨before, behind, hchain⟩ := hsplit hd
    refine ⟨before, d, behind, hchain, hp, hfile, fun e he => ⟨?_, (withinRoot_iff hchain).mp hwithin e he⟩⟩
    obtain ⟨he, hbelow⟩ := (mem_before_iff hchain).mp he
    exact hnearer e he hbelow
  · intro h d hd hwithin
    obtain ⟨before, behind, hchain⟩ := hsplit hd
    exact h before d behind hchain ((withinRoot_iff hchain).mp hwithin)
  · exact fun h before d behind hchain hbefore => h d (hlies hchain) ((withinRoot_iff hchain).mpr hbefore)

/-- The root itself is searched, and what is above it is not. -/
example : find? (fun p => p == ⟨"/a/.viperrc.json"⟩) ⟨"/a/b/c.js"⟩ (some ⟨"/a/b"⟩) = none ∧
    find? (fun p => p == ⟨"/a/.viperrc.json"⟩) ⟨"/a/b/c.js"⟩ (some ⟨"/a/"⟩) = some ⟨"/a/.viperrc.json"⟩ := by
  decide +kernel

end ModuleBuild.LocalConfig
