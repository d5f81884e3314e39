import Mathlib
import ModuleBuild.Bundle.Entry
import ModuleBuild.Proofs.Answer

/-!
# Modules are files

A specifier of the project leads to the helper module or to a file of the tree, so imports lead to no more
modules than there are files.

## Main definitions

* `FileTree.paths` — the paths of the entries of a tree.

## Main statements

* `ModuleResolver.mem_paths_of_resolve?` — what resolving finds is a file.
* `InputPlugin.target_mem_paths` — imports lead to files.
-/

namespace ModuleBuild

open Json

/-! ## Searches -/

/-- What a search finds is of this kind. -/
def Search.Finds {α : Type} (good : α → Prop) (x : Search (Option α)) : Prop :=
  ∀ a, x = .ok (some a) → good a

namespace Search.Finds

variable {α β γ : Type} {good : α → Prop}

theorem none : Search.Finds good (.ok none) := by
  intro a h
  cases h

theorem some {a : α} (h : good a) : Search.Finds good (.ok (some a)) := by
  intro b hb
  obtain rfl := Option.some.inj (Except.ok.inj hb)
  exact h

theorem error (stop : SearchStop) : Search.Finds good (.error stop) := by
  intro a h
  cases h

/-- One search behind what another one comes to. -/
theorem bind {x : Search β} {f : β → Search (Option α)} (hf : ∀ b, x = .ok b → Finds good (f b)) :
    Finds good (x >>= f) := by
  intro a h
  obtain ⟨b, hb, h⟩ := bind_eq_ok.mp h
  exact hf b hb a h

theorem firstFound {search : γ → Search (Option α)} {items : List γ} (h : ∀ c ∈ items, Finds good (search c)) :
    Finds good (firstFound search items) := by
  induction items with
  | nil => exact none
  | cons c rest ih =>
    refine bind fun found hfound => ?_
    cases found with
    | none => exact ih fun d hd => h d (List.mem_cons_of_mem c hd)
    | some a => exact some (h c List.mem_cons_self a hfound)

end Search.Finds

/-! ## Files -/

namespace FileTree

/-- The paths of the entries. -/
def paths (files : FileTree) : List String :=
  files.entries.map fun e => (pathOf e.1).text

/-- The place of a file is one of an entry. -/
theorem mem_paths_of_isFile {files : FileTree} {p q : Path} (hfile : files.isFile p = true)
    (hcanonical : files.canonical p = .ok q) : q.text ∈ files.paths := by
  unfold isFile at hfile
  unfold canonical at hcanonical
  cases hplace : files.locate p with
  | error e =>
    rw [hplace] at hcanonical
    cases hcanonical
  | ok place =>
    rw [hplace] at hcanonical hfile
    obtain rfl := Except.ok.inj hcanonical
    simp only [entryAt?] at hfile
    cases hentry : files.entries.find? (·.1 == place) with
    | none =>
      rw [hentry] at hfile
      simp only at hfile
      split at hfile <;> split_ifs at * <;> simp_all
    | some e =>
      have hname : e.1 = place := by simpa using List.find?_some hentry
      rw [← hname]
      exact List.mem_map_of_mem (List.mem_of_find?_eq_some hentry)

end FileTree

namespace ModuleResolver

variable {r : ModuleResolver}

theorem isFile_of_asFile {p q : Path} (h : r.asFile p = some q) : r.files.isFile q = true :=
  List.find?_some h

theorem isFile_of_or_asFile {o : Option Path} {p q : Path}
    (ho : ∀ q, o = some q → r.files.isFile q = true) (h : o.or (r.asFile p) = some q) :
    r.files.isFile q = true := by
  cases o with
  | none => exact isFile_of_asFile h
  | some o => exact ho q h

theorem finds_asDirectory (directory : Path) :
    Search.Finds (fun p => r.files.isFile p = true) (r.asDirectory directory) := by
  refine .bind fun package _ p h => isFile_of_or_asFile (fun q hq => ?_) (Except.ok.inj h)
  obtain ⟨name, -, hname⟩ := List.exists_of_findSome?_eq_some hq
  exact isFile_of_or_asFile (fun q hq => isFile_of_asFile hq) hname

theorem finds_asFileOrDirectory (p : Path) (specifier : String) :
    Search.Finds (fun p => r.files.isFile p = true) (r.asFileOrDirectory p specifier) := by
  unfold asFileOrDirectory
  dsimp only
  split
  · rename_i file hfile
    refine .some (isFile_of_asFile (p := p) ?_)
    split at hfile
    · cases hfile
    · exact hfile
  · split
    · exact finds_asDirectory p
    · exact .none

theorem finds_existing (p : Path) :
    Search.Finds (fun p => r.files.isFile p = true) (r.existing p) := by
  refine .bind fun found hfound => ?_
  cases found with
  | none => exact .error _
  | some file => exact .some (finds_asFileOrDirectory p "" file hfound)

theorem finds_packageExports (directory : Path) (rest : String) :
    Search.Finds (fun p => r.files.isFile p = true) (r.packageExports directory rest) := by
  refine .bind fun package _ => ?_
  split
  · exact .none
  · exact .none
  · refine .bind fun found _ => ?_
    cases found with
    | none => exact .none
    | some p => exact finds_existing p

theorem finds_inPackages (specifier : String) (packages : Path) :
    Search.Finds (fun p => r.files.isFile p = true) (r.inPackages specifier packages) := by
  have hfile : ∀ inDirectory : Option Path, (∀ q, inDirectory = some q → r.files.isFile q = true) →
      Search.Finds (fun p => r.files.isFile p = true)
        (.ok (inDirectory.or (r.asFile (descend packages specifier)))) :=
    fun inDirectory h p hp => isFile_of_or_asFile h (Except.ok.inj hp)
  have hrest : Search.Finds (fun p => r.files.isFile p = true)
      (if r.files.isDirectory (descend packages specifier) then do
        let inDirectory ← r.asDirectory (descend packages specifier)
        pure (inDirectory.or (r.asFile (descend packages specifier)))
      else do
        let inDirectory ← pure none
        pure (inDirectory.or (r.asFile (descend packages specifier)))) := by
    split
    · exact .bind fun found hfound => hfile found fun q hq => finds_asDirectory _ q (hq ▸ hfound)
    · exact hfile none nofun
  unfold inPackages
  obtain ⟨name, rest⟩ := packageName specifier
  dsimp only
  split
  · exact .none
  split
  · exact .none
  split
  · refine .bind fun exported hexported => ?_
    cases exported with
    | some p => exact .some (finds_packageExports _ _ p hexported)
    | none => exact hrest
  · exact hrest

theorem finds_fromPackages (directory : Path) (specifier : String) :
    Search.Finds (fun p => r.files.isFile p = true) (r.fromPackages directory specifier) := by
  refine .bind fun own hown => ?_
  cases own with
  | none => exact .firstFound fun d _ => finds_inPackages specifier _
  | some p =>
    refine .some (?_ : r.files.isFile p = true)
    have hfinds : Search.Finds (fun p => r.files.isFile p = true) (r.ownPackage directory specifier) := by
      unfold ownPackage
      obtain ⟨name, rest⟩ := packageName specifier
      refine .bind fun scope _ => ?_
      rcases scope with _ | ⟨d, package⟩
      · exact .none
      · dsimp only
        split
        · exact finds_packageExports _ _
        · exact .none
    exact hfinds p hown

theorem finds_fromImports (directory : Path) (specifier : String) :
    Search.Finds (fun p => r.files.isFile p = true) (r.fromImports directory specifier) := by
  refine .bind fun scope _ => ?_
  rcases scope with _ | ⟨d, package⟩
  · exact .none
  · dsimp only
    split
    · exact .none
    · refine .bind fun found _ => ?_
      cases found with
      | none => exact .error _
      | some p => exact finds_existing p

theorem finds_search (directory : Path) (specifier : String) :
    Search.Finds (fun p => r.files.isFile p = true) (r.search directory specifier) := by
  unfold search
  split
  · exact finds_asFileOrDirectory _ _
  · exact finds_asFileOrDirectory _ _
  · exact finds_asFileOrDirectory _ _
  · split
    · refine .bind fun found hfound => ?_
      cases found with
      | none => exact finds_fromPackages directory specifier
      | some p => exact .some (finds_fromImports directory specifier p hfound)
    · exact finds_fromPackages directory specifier

/-- What resolving finds is a file. -/
theorem mem_paths_of_resolve? {specifier : String} {referrer q : Path}
    (h : r.resolve? specifier referrer = some q) : q.text ∈ r.files.paths := by
  unfold resolve? resolveFrom? at h
  extract_lets found hasQuery at h
  have hfound : ∀ specifier, found specifier = some q → q.text ∈ r.files.paths := by
    intro specifier h
    unfold found at h
    split at h
    · cases h
    split at h
    · rename_i p hp
      refine FileTree.mem_paths_of_isFile (finds_search _ _ p hp) ?_
      cases hcanonical : r.files.canonical p with
      | error e =>
        rw [hcanonical] at h
        cases h
      | ok found =>
        rw [hcanonical] at h
        rw [Option.some.inj h]
    · cases h
  split at h
  · exact hfound _ h
  · rcases Option.or_eq_some_iff.mp h with h | ⟨-, h⟩
    · exact hfound _ h
    · exact hfound _ h

end ModuleResolver

/-- Imports lead to files, or to the helper module. -/
theorem InputPlugin.target_mem_paths {m : Type → Type} [Monad m] {input : InputPlugin m}
    {r : ModuleResolver} {specifier importer d : String}
    (h : input.target r specifier importer = .ok (.module d)) (hd : d ≠ helperModuleId) :
    d ∈ r.files.paths := by
  unfold InputPlugin.target at h
  split at h
  · rename_i id hid
    obtain rfl := ImportTarget.module.inj (Except.ok.inj h)
    unfold InputPlugin.resolveId at hid
    split at hid
    · rename_i hhelper
      exact absurd (Option.some.inj hid ▸ beq_iff_eq.mp hhelper) hd
    · cases hid
  · dsimp only at h
    split at h
    · rename_i path hpath
      obtain rfl := ImportTarget.module.inj (Except.ok.inj h)
      exact ModuleResolver.mem_paths_of_resolve? hpath
    · split at h <;> cases h

end ModuleBuild
