import Mathlib
import ModuleBuild.Proofs.Chunk.Exports
import ModuleBuild.Proofs.Linking.Emission
import ModuleBuild.Proofs.Linking.Globals
import ModuleBuild.Proofs.Text.Fresh

/-!
# The exports of entries

A chunk exports what its entries export, and no two of them may export the same name. Which of these exports the
text of the chunk makes depends on the format: the exact condition is `Expressible`.

## Main definitions

* `ScopedModule.exports` — what a module exports, by its statements.
* `ExportsOf`, `ExportConflict` — what entries export, and two that export the same name.
* `bundleWithGraph` — a bundle with what linking its entries has come to.

## Main statements

* `addExport_spec`, `addExports_spec` — adding one export, and all of them.
* `Graph.HasEntries.entryExports_spec` — the exports of entries.
* `bundle_exports_iff` — the exports of a bundle, and the formats that make them.
-/

namespace ModuleBuild

open Linking Script Text

/-! ## Exports of modules -/

theorem mem_lastOfEach {pairs : List (String × String)} {pair : String × String} (h : pair ∈ lastOfEach pairs) :
    pair ∈ pairs := by
  induction pairs with
  | nil => exact h
  | cons first rest ih =>
    rw [lastOfEach] at h
    split at h
    · exact List.mem_cons_of_mem _ (ih h)
    · rcases List.mem_cons.1 h with rfl | h
      · exact List.mem_cons_self
      · exact List.mem_cons_of_mem _ (ih h)

theorem nodup_lastOfEach (pairs : List (String × String)) : ((lastOfEach pairs).map (·.1)).Nodup := by
  induction pairs with
  | nil => exact List.nodup_nil
  | cons first rest ih =>
    rw [lastOfEach]
    split
    · exact ih
    · rename_i hnone
      rw [List.map_cons, List.nodup_cons]
      refine ⟨fun hmem => hnone ?_, ih⟩
      obtain ⟨pair, hpair, heq⟩ := List.mem_map.1 hmem
      exact List.any_eq_true.2 ⟨pair, mem_lastOfEach hpair, by simpa using heq⟩

/-- What a module exports, by its statements: each name with the top-level name that holds the value. -/
def ScopedModule.exports (s : ScopedModule) : List (String × String) :=
  lastOfEach (s.program.exportsAs (·.getD s.part.defaultLocal))

/-- A module exports a name. -/
def ScopedModule.ExportsName (s : ScopedModule) (name : String) : Prop :=
  ∃ l, (name, l) ∈ s.exports

/-! ## Exports of entries -/

/-- An export of an entry, with the identifier of the entry behind it. -/
abbrev ExportClaim : Type := String × String × String

/-- The exports that have been found are the ones that were claimed, each name once. -/
structure Found (claimed found : List ExportClaim) : Prop where
  names_nodup : (found.map (·.1)).Nodup
  mem_iff : ∀ c, c ∈ found ↔ c ∈ claimed

/-- Two entries claim the same name. -/
structure ClaimedTwice (claimed : List ExportClaim) (name first second : String) : Prop where
  ne : first ≠ second
  first_claims : ∃ l, (name, l, first) ∈ claimed
  second_claims : ∃ l, (name, l, second) ∈ claimed

/-- Each entry claims a name for one value. -/
def ClaimsOnce (claimed : List ExportClaim) : Prop :=
  ∀ name id l l', (name, l, id) ∈ claimed → (name, l', id) ∈ claimed → l = l'

theorem ClaimedTwice.mono {claimed more : List ExportClaim} {name first second : String}
    (h : ClaimedTwice claimed name first second) (hsub : claimed ⊆ more) :
    ClaimedTwice more name first second where
  ne := h.ne
  first_claims := h.first_claims.imp fun _ hmem => hsub hmem
  second_claims := h.second_claims.imp fun _ hmem => hsub hmem

/-- If all names were found, no two entries claim the same. -/
theorem Found.not_claimedTwice {claimed found : List ExportClaim} (h : Found claimed found)
    {name first second : String} : ¬ ClaimedTwice claimed name first second := by
  rintro ⟨hne, ⟨l, hfirst⟩, l', hsecond⟩
  have heq := List.inj_on_of_nodup_map h.names_nodup ((h.mem_iff _).2 hfirst) ((h.mem_iff _).2 hsecond) rfl
  exact hne (congrArg (·.2.2) heq)

/-- An export is added, or the entry of another one claims its name. -/
theorem addExport_spec {claimed found : List ExportClaim} (h : Found claimed found) {c : ExportClaim}
    (honce : ClaimsOnce (claimed ++ [c])) :
    (∀ next, addExport c.2.2 found (c.1, c.2.1) = .ok next → Found (claimed ++ [c]) next) ∧
      ∀ e, addExport c.2.2 found (c.1, c.2.1) = .error e →
        ∃ first, e = .nameConflict c.1 first c.2.2 ∧ ClaimedTwice (claimed ++ [c]) c.1 first c.2.2 := by
  obtain ⟨name, l, id⟩ := c
  unfold addExport
  dsimp only
  cases hlookup : found.lookup name with
  | none =>
    refine ⟨fun next hnext => ?_, nofun⟩
    obtain rfl := Except.ok.inj hnext
    rw [List.lookup_eq_none_iff] at hlookup
    refine ⟨?_, fun c => by simp [h.mem_iff]⟩
    rw [List.map_append, List.nodup_append]
    refine ⟨h.names_nodup, List.nodup_singleton _, ?_⟩
    rintro x hx y hy rfl
    obtain ⟨c, hc, rfl⟩ := List.mem_map.1 hx
    have hne : name ≠ c.1 := by simpa using hlookup c hc
    exact hne (List.mem_singleton.1 hy).symm
  | some value =>
    obtain ⟨l', first⟩ := value
    have hmem : (name, l', first) ∈ claimed := (h.mem_iff _).1 (mem_of_lookup hlookup)
    have hlast : (name, l, id) ∈ claimed ++ [(name, l, id)] :=
      List.mem_append_right _ (List.mem_singleton_self _)
    dsimp only
    split
    · -- An entry that comes again brings what it brought before.
      rename_i hsame
      obtain rfl : first = id := by simpa using hsame
      obtain rfl := honce name first l l' hlast (List.mem_append_left _ hmem)
      refine ⟨fun next hnext => ?_, nofun⟩
      obtain rfl := Except.ok.inj hnext
      refine ⟨h.names_nodup, fun c => ?_⟩
      rw [h.mem_iff, List.mem_append, List.mem_singleton]
      exact ⟨.inl, fun hc => hc.elim id fun heq => heq ▸ hmem⟩
    · rename_i hne
      refine ⟨nofun, fun e he => ⟨first, (Except.error.inj he).symm, ?_⟩⟩
      exact ⟨by simpa using hne, ⟨l', List.mem_append_left _ hmem⟩, l, hlast⟩

/-- All exports are found, or two entries claim the same name. -/
theorem addExports_spec (claims : List ExportClaim) {claimed found : List ExportClaim} (h : Found claimed found)
    (honce : ClaimsOnce (claimed ++ claims)) :
    (∀ all, claims.foldlM (fun found c => addExport c.2.2 found (c.1, c.2.1)) found = .ok all →
        Found (claimed ++ claims) all) ∧
      ∀ e, claims.foldlM (fun found c => addExport c.2.2 found (c.1, c.2.1)) found = .error e →
        ∃ name first second, e = .nameConflict name first second ∧
          ClaimedTwice (claimed ++ claims) name first second := by
  induction claims generalizing claimed found with
  | nil =>
    rw [List.append_nil]
    refine ⟨fun all hall => ?_, nofun⟩
    obtain rfl := Except.ok.inj hall
    exact h
  | cons c rest ih =>
    rw [List.append_cons] at honce ⊢
    have hsub : claimed ++ [c] ⊆ claimed ++ [c] ++ rest := List.subset_append_left _ _
    obtain ⟨hok, herror⟩ := addExport_spec h fun name id l l' hl hl' => honce name id l l' (hsub hl) (hsub hl')
    rw [List.foldlM_cons]
    constructor
    · intro all hall
      obtain ⟨next, hnext, hall⟩ := bind_eq_ok.1 hall
      exact (ih (hok next hnext) honce).1 all hall
    · intro e he
      rcases bind_eq_error.1 he with hone | ⟨next, hnext, he⟩
      · obtain ⟨first, heq, htwice⟩ := herror e hone
        exact ⟨c.1, first, c.2.2, heq, htwice.mono hsub⟩
      · exact (ih (hok next hnext) honce).2 e he

/-- What an entry claims. -/
def Graph.claimsOf (g : Graph) (id : String) : List ExportClaim :=
  (sortByName (((g.module? id).map (·.exports)).getD [])).map fun e => (e.1, e.2, id)

/-- The exports of entries are added one after the other. -/
theorem Graph.entryExports_eq (g : Graph) (ids : List String) :
    g.entryExports ids = (fun found : List ExportClaim => found.map fun c => (c.1, c.2.1)) <$>
      (ids.flatMap g.claimsOf).foldlM (fun found c => addExport c.2.2 found (c.1, c.2.1)) [] := by
  have hall (found : List ExportClaim) : ids.foldlM (fun found id =>
      (sortByName (((g.module? id).map (·.exports)).getD [])).foldlM (addExport id) found) found =
        (ids.flatMap g.claimsOf).foldlM (fun found c => addExport c.2.2 found (c.1, c.2.1)) found := by
    induction ids generalizing found with
    | nil => rfl
    | cons id rest ih =>
      rw [List.flatMap_cons, List.foldlM_append, List.foldlM_cons, Graph.claimsOf, List.foldlM_map]
      exact bind_congr fun next => ih next
  unfold Graph.entryExports
  rw [hall]
  rfl

/-- What entries among modules export: each name of each of them, once. -/
structure ExportsOf (modules : List ScopedModule) (ids : List String) (exports : List (String × String)) :
    Prop where
  names_nodup : (exports.map (·.1)).Nodup
  mem_iff : ∀ name l, (name, l) ∈ exports ↔ ∃ s ∈ modules, s.part.id ∈ ids ∧ (name, l) ∈ s.exports

/-- One entry exports what its module does. -/
theorem ExportsOf.perm {modules : List ScopedModule} {id : String} {exports : List (String × String)}
    (h : ExportsOf modules [id] exports) (ids_nodup : (modules.map (·.part.id)).Nodup) {s : ScopedModule}
    (hs : s ∈ modules) (hid : s.part.id = id) : exports.Perm s.exports := by
  have hnodup : s.exports.Nodup := (nodup_lastOfEach _).of_map
  rw [List.perm_ext_iff_of_nodup h.names_nodup.of_map hnodup]
  intro e
  rw [h.mem_iff e.1 e.2]
  constructor
  · rintro ⟨s', hs', hid', he⟩
    obtain rfl := List.inj_on_of_nodup_map ids_nodup hs' hs ((List.mem_singleton.1 hid').trans hid.symm)
    exact he
  · exact fun he => ⟨s, hs, List.mem_singleton.2 hid, he⟩

/-- Two entries export the same name. -/
structure ExportConflict (modules : List ScopedModule) (ids : List String) (name first second : String) :
    Prop where
  ne : first ≠ second
  first_exports : first ∈ ids ∧ ∃ s ∈ modules, s.part.id = first ∧ s.ExportsName name
  second_exports : second ∈ ids ∧ ∃ s ∈ modules, s.part.id = second ∧ s.ExportsName name

/-- A graph holds modules with their exports, entries among them. -/
structure Graph.HasEntries (g : Graph) (modules : List ScopedModule) (ids : List String) : Prop where
  ids_nodup : (modules.map (·.part.id)).Nodup
  module_eq : ∀ s ∈ modules, g.module? s.part.id = some ⟨s.part.code, s.exports⟩
  entries : ∀ id ∈ ids, ∃ s ∈ modules, s.part.id = id

namespace Graph.HasEntries

variable {g : Graph} {modules : List ScopedModule} {ids : List String}

/-- The exports of the entries are what is claimed. -/
theorem mem_claims (h : g.HasEntries modules ids) {name l id : String} :
    (name, l, id) ∈ ids.flatMap g.claimsOf ↔
      id ∈ ids ∧ ∃ s ∈ modules, s.part.id = id ∧ (name, l) ∈ s.exports := by
  have hclaims {s : ScopedModule} (hs : s ∈ modules) {c : ExportClaim} :
      c ∈ g.claimsOf s.part.id ↔ c.2.2 = s.part.id ∧ (c.1, c.2.1) ∈ s.exports := by
    unfold Graph.claimsOf
    rw [h.module_eq s hs, Option.map_some, Option.getD_some, List.mem_map]
    constructor
    · rintro ⟨e, he, rfl⟩
      exact ⟨rfl, (List.mergeSort_perm _ _).mem_iff.1 he⟩
    · rintro ⟨hid, he⟩
      exact ⟨_, (List.mergeSort_perm _ _).mem_iff.2 he, by rw [← hid]⟩
  rw [List.mem_flatMap]
  constructor
  · rintro ⟨id', hid', hc⟩
    obtain ⟨s, hs, rfl⟩ := h.entries id' hid'
    obtain ⟨rfl, he⟩ := (hclaims hs).1 hc
    exact ⟨hid', s, hs, rfl, he⟩
  · rintro ⟨hid, s, hs, rfl, he⟩
    exact ⟨_, hid, (hclaims hs).2 ⟨rfl, he⟩⟩

theorem claimsOnce (h : g.HasEntries modules ids) : ClaimsOnce (ids.flatMap g.claimsOf) := by
  intro name id l l' hl hl'
  obtain ⟨-, s, hs, hid, hl⟩ := h.mem_claims.1 hl
  obtain ⟨-, s', hs', hid', hl'⟩ := h.mem_claims.1 hl'
  obtain rfl := List.inj_on_of_nodup_map h.ids_nodup hs hs' (hid.trans hid'.symm)
  exact congrArg Prod.snd (List.inj_on_of_nodup_map (nodup_lastOfEach _) hl hl' rfl)

theorem exportConflict_iff (h : g.HasEntries modules ids) {name first second : String} :
    ExportConflict modules ids name first second ↔
      ClaimedTwice (ids.flatMap g.claimsOf) name first second := by
  have hside {id : String} : (∃ l, (name, l, id) ∈ ids.flatMap g.claimsOf) ↔
      id ∈ ids ∧ ∃ s ∈ modules, s.part.id = id ∧ s.ExportsName name := by
    simp only [h.mem_claims]
    constructor
    · rintro ⟨l, hid, s, hs, heq, hl⟩
      exact ⟨hid, s, hs, heq, l, hl⟩
    · rintro ⟨hid, s, hs, heq, l, hl⟩
      exact ⟨l, hid, s, hs, heq, hl⟩
  exact ⟨fun ⟨hne, hfirst, hsecond⟩ => ⟨hne, hside.2 hfirst, hside.2 hsecond⟩,
    fun ⟨hne, hfirst, hsecond⟩ => ⟨hne, hside.1 hfirst, hside.1 hsecond⟩⟩

/-- Without a conflict, the entries' exports come together; the first conflict is reported otherwise. -/
theorem entryExports_spec (h : g.HasEntries modules ids) :
    (∀ exports, g.entryExports ids = .ok exports → ExportsOf modules ids exports ∧
        ∀ name first second, ¬ ExportConflict modules ids name first second) ∧
      ∀ e, g.entryExports ids = .error e → ∃ name first second, e = .nameConflict name first second ∧
        ExportConflict modules ids name first second := by
  have hstart : Found [] [] := ⟨List.nodup_nil, fun c => Iff.rfl⟩
  obtain ⟨hok, herror⟩ := addExports_spec (ids.flatMap g.claimsOf) hstart h.claimsOnce
  rw [List.nil_append] at hok herror
  rw [g.entryExports_eq]
  constructor
  · intro exports hexports
    obtain ⟨found, hfound, rfl⟩ := map_eq_ok.1 hexports
    have hall := hok found hfound
    refine ⟨⟨?_, fun name l => ?_⟩, fun name first second hconflict =>
      hall.not_claimedTwice (h.exportConflict_iff.1 hconflict)⟩
    · rw [List.map_map]
      exact hall.names_nodup
    · rw [List.mem_map]
      constructor
      · rintro ⟨⟨name, l, id⟩, hc, ⟨⟩⟩
        obtain ⟨hid, s, hs, rfl, hl⟩ := h.mem_claims.1 ((hall.mem_iff _).1 hc)
        exact ⟨s, hs, hid, hl⟩
      · rintro ⟨s, hs, hid, hl⟩
        exact ⟨(name, l, s.part.id), (hall.mem_iff _).2 (h.mem_claims.2 ⟨hid, s, hs, rfl, hl⟩), rfl⟩
  · intro e he
    obtain ⟨name, first, second, rfl, htwice⟩ := herror e (map_eq_error.1 he)
    exact ⟨name, first, second, rfl, h.exportConflict_iff.2 htwice⟩

end Graph.HasEntries

/-! ## Linked entries -/

/-- The names of default values without one are names. -/
theorem isVariable_defaultLocal (n : Nat) : IsVariable ("_default" ++ toString n) := by
  let letters : List Char := ['d', 'e', 'f', 'a', 'u', 'l', 't']
  have htext : ("_default" ++ toString n).toList = '_' :: (letters ++ (toString n).toList) := by
    have hdefault : "_default".toList = '_' :: letters := by decide +kernel
    rw [String.toList_append, hdefault, List.cons_append]
  constructor
  · have hascii : ∀ c ∈ letters ++ (toString n).toList, c.toNat < 128 ∧ c.isAlphanum = true := by
      intro c hc
      rcases List.mem_append.1 hc with hc | hc
      · have hletters : letters.all (fun c => decide (c.toNat < 128) && c.isAlphanum) = true := by decide
        simpa using List.all_eq_true.1 hletters c hc
      · have hdigit := isDigit_of_mem_toString hc
        exact ⟨toNat_lt_of_isDigit hdigit, by simp [Char.isAlphanum, hdigit]⟩
    have hword : ∀ c ∈ letters ++ (toString n).toList, continuesWord c = true := by
      intro c hc
      simp [continuesWord, isIdentifierPart, hascii c hc]
    exact isName_iff.2 ⟨'_', _, htext, by decide, by decide, hword⟩
  · have hfirst : ∀ word ∈ reservedWords, word.toList.head? ≠ some '_' := by decide +kernel
    exact fun hmem => hfirst _ hmem (by rw [htext, List.head?_cons])

/-- Linked modules with entries among them, which come from their texts and are linked as the project says. -/
structure Graph.Comprises {m : Type → Type} (g : Graph) (project : Project m)
    (loads : String → Except BundleError String → Prop) (parse : String → Option Program)
    (modules : List ScopedModule) (ids : List String) : Prop extends g.HasEntries modules ids where
  order_eq : g.order = modules.map (·.part.id)
  parse_eq : ∀ s ∈ modules, parse s.part.source = some s.program
  record_eq : ∀ s ∈ modules, ModuleRecord.ofItems s.part.id s.part.source.toList s.part.defaultLocal
    s.program.items = .ok s.part.record
  links : ∀ s ∈ modules, s.part.id = helperModuleId ∧ s.part.links = [] ∨
    loads s.part.id (.ok s.part.source) ∧ s.part.links.map (·.record) = s.part.record.imports ∧
      ∀ link ∈ s.part.links, project.resolve link.record.source s.part.id = .ok link.target
  leads : ∀ s ∈ modules, ∀ link ∈ s.part.links, link.LeadsInto (modules.map (·.part))
  ne_helper : helperModuleId ∉ ids

theorem Graph.Comprises.texts_eq {m : Type → Type} {g : Graph} {project : Project m}
    {loads : String → Except BundleError String → Prop} {parse : String → Option Program}
    {modules : List ScopedModule} {ids : List String} (h : g.Comprises project loads parse modules ids) :
    (g.order.map fun id => (id, ((g.module? id).map (·.code)).getD "")) =
      modules.map fun s => (s.part.id, s.part.code) := by
  rw [h.order_eq, List.map_map]
  refine List.map_congr_left fun s hs => ?_
  rw [Function.comp_apply, h.module_eq s hs, Option.map_some, Option.getD_some]

section Entries

variable {m : Type → Type} {project : Project m} {facts : Project.Facts} {ids : List String} {g : Graph}
  {t : LinkTrace} {parts : List LinkedPart} {parse : String → Option Program}

theorem Completed.exists_part {final : List LinkedPart} (h : Completed project parts final) {q : LinkedPart}
    (hq : q ∈ parts) : ∃ p ∈ final, p.id = q.id := by
  cases h with
  | alone unused => exact ⟨q, hq, rfl⟩
  | withHelpers used part exported => exact ⟨_, List.mem_cons_of_mem _ (List.mem_map_of_mem hq), rfl⟩

/-- The default value of a part that is no helper module has a numbered name. -/
theorem EntriesLinked.defaultLocal_eq (h : EntriesLinked project facts ids g t parts) {p : LinkedPart}
    (hp : p ∈ parts) (hne : p.id ≠ helperModuleId) : ∃ n : Nat, p.defaultLocal = "_default" ++ toString n := by
  obtain ⟨before, hvisited⟩ := h.visited
  have hnumbered {q : LinkedPart} (hq : q ∈ t.parts) :
      ∃ n : Nat, q.defaultLocal = "_default" ++ toString n := by
    obtain ⟨n, -, heq⟩ := hvisited.holds.numbered q hq
    exact ⟨n + 1, heq⟩
  rcases h.completed.of_mem hp with hhelper | ⟨q, hq, rfl | ⟨helper, -, rfl⟩⟩
  · exact absurd hhelper.id_eq hne
  · exact hnumbered hq
  · obtain ⟨n, heq⟩ := hnumbered hq
    exact ⟨n, heq⟩

theorem EntriesLinked.exports_eq (h : EntriesLinked project facts ids g t parts)
    (hread : project.read = fun code => (parse code).map Program.items) {p : LinkedPart} (hp : p ∈ parts) :
    p.exports = ScopedModule.exports ⟨p, (parse p.source).getD default⟩ :=
  congrArg lastOfEach (ModuleRecord.exports_ofItems (h.parse_ok hread hp).2)

theorem EntriesLinked.comprises (h : EntriesLinked project facts ids g t parts)
    (hread : project.read = fun code => (parse code).map Program.items) (hne : helperModuleId ∉ ids)
    (externals : List String) :
    g.Comprises project facts.loads parse (layoutOf parse externals parts).modules ids := by
  have hids : (layoutOf parse externals parts).modules.map (·.part.id) = parts.map (·.id) := by
    simp [layoutOf]
  exact {
    ids_nodup := hids ▸ h.ids_nodup
    module_eq := by
      intro s hs
      obtain ⟨p, hp, rfl⟩ := List.mem_map.1 hs
      rw [h.shows.done_modules p hp, h.exports_eq hread hp]
    entries := by
      intro id hid
      obtain ⟨before, hvisited⟩ := h.visited
      obtain ⟨q, hq, rfl⟩ := hvisited.linked id hid
      obtain ⟨p, hp, heq⟩ := h.completed.exists_part hq
      exact ⟨_, List.mem_map_of_mem hp, heq⟩
    order_eq := by
      rw [hids, h.shows.order_eq, List.append_nil]
    parse_eq := by
      intro s hs
      obtain ⟨p, hp, rfl⟩ := List.mem_map.1 hs
      exact (h.parse_ok hread hp).1
    record_eq := by
      intro s hs
      obtain ⟨p, hp, rfl⟩ := List.mem_map.1 hs
      exact (h.parse_ok hread hp).2
    links := by
      intro s hs
      obtain ⟨p, hp, rfl⟩ := List.mem_map.1 hs
      exact h.links hp
    leads := h.leads
    ne_helper := hne }

/-- Entries export variables, if the statements of modules do. -/
theorem EntriesLinked.isVariable_of_exports (h : EntriesLinked project facts ids g t parts)
    (hread : project.read = fun code => (parse code).map Program.items) (hne : helperModuleId ∉ ids)
    (hlocals : ∀ code p, parse code = some p → ∀ e ∈ p.exports, ∀ x ∈ e.2, IsVariable x)
    {externals : List String} {exports : List (String × String)}
    (hexports : ExportsOf (layoutOf parse externals parts).modules ids exports) :
    ∀ e ∈ exports, IsVariable e.2 := by
  intro e he
  obtain ⟨s, hs, hid, hmem⟩ := (hexports.mem_iff e.1 e.2).1 he
  obtain ⟨p, hp, rfl⟩ := List.mem_map.1 hs
  obtain ⟨⟨name, l⟩, hl, heq⟩ := List.mem_map.1 (mem_lastOfEach hmem)
  rw [← (Prod.mk.inj heq).2]
  cases l with
  | some x => exact hlocals _ _ (h.parse_ok hread hp).1 _ hl x rfl
  | none =>
    obtain ⟨n, hdefault⟩ := h.defaultLocal_eq hp fun heq => hne (heq ▸ hid)
    change IsVariable p.defaultLocal
    rw [hdefault]
    exact isVariable_defaultLocal n

end Entries

/-! ## Bundles -/

/-- If all answers give something, the things given are what the answers are. -/
theorem map_eq_of_filterMap {α β ε : Type} {f : α → Except ε β} {xs : List α}
    (h : ∀ x ∈ xs, ∃ b, f x = .ok b) : xs.map f = (xs.filterMap fun x => (f x).toOption).map .ok := by
  induction xs with
  | nil => rfl
  | cons x rest ih =>
    obtain ⟨b, hb⟩ := h x List.mem_cons_self
    rw [List.map_cons, List.filterMap_cons, hb, ih fun x' hx' => h x' (List.mem_cons_of_mem x hx')]
    rfl

section Bundle

variable {m : Type → Type} [Monad m]

/-- Bundles entries, with what linking them has come to. -/
def bundleWithGraph (read : String → Option (List ModuleItem)) (files : FileTree) (config : BundleConfig)
    (input : InputPlugin m) (output : Option (OutputPlugin m)) :
    StateT BuildState m (Except BundleError Bundle × Option (Except BundleError (List String) × Graph)) := do
  if config.entries.isEmpty then return (.error .noEntries, none)
  match ← (withOutput output () fun plugin => plugin.renderStart config.format).run with
  | .error e => return (.error e, none)
  | .ok _ =>
    let project := input.project read files config.basePath
    let linked ← (linkEntries project files.entryId config.entries).run.run {}
    return (← (finishBundle config output linked).run, some linked)

variable [LawfulMonad m] {input : InputPlugin m} {output : Option (OutputPlugin m)}
  {read : String → Option (List ModuleItem)} {files : FileTree} {config : BundleConfig}

/-- Showing what linking has come to changes nothing. -/
theorem fst_bundleWithGraph : Prod.fst <$> bundleWithGraph read files config input output =
    (bundle read files config input output).run := by
  unfold bundleWithGraph bundle
  dsimp only
  split
  · simp
  rw [ExceptT.run_bind, map_bind]
  refine bind_congr fun started => ?_
  rcases started with e | -
  · simp
  change _ = (ExceptT.lift ((linkEntries (input.project read files config.basePath) files.entryId
    config.entries).run.run {}) >>= finishBundle config output).run
  dsimp only
  rw [ExceptT.run_bind_lift, map_bind]
  refine bind_congr fun linked => ?_
  simp

/-- An answer for linked entries that have these exports: a chunk with them, or an error of another kind. -/
structure Finishes (config : BundleConfig) (output : Option (OutputPlugin m))
    (exports modules : List (String × String)) (answer : Except BundleError Bundle) : Prop where
  code_eq : ∀ b, answer = .ok b → output = none → ∃ externals, b.code =
    ChunkParts.render { externals, modules, exports } (config.name.getD defaultBundleName) config.format
  error_eq : ∀ e, answer = .error e →
    (∃ specifier, e = .externalImport specifier config.format) ∧ config.format ≠ .es ∨
      (∃ failure, e = .plugin failure) ∧ output ≠ none

omit [Monad m] [LawfulMonad m] in
theorem Graph.keptExternals_error {g : Graph} {format : OutputFormat} {e : BundleError}
    (h : g.keptExternals format = .error e) :
    (∃ specifier, e = .externalImport specifier format) ∧ format ≠ .es := by
  unfold Graph.keptExternals at h
  split at h
  · cases h
  · split at h
    · cases h
    · rename_i hformat
      cases h
      exact ⟨⟨_, rfl⟩, by simpa using hformat⟩

omit [LawfulMonad m] in
theorem finishBundle_of_error {ids : List String} {g : Graph} {e : BundleError}
    (h : g.parts ids config.format = .error e) :
    (finishBundle config output (.ok ids, g)).run = pure (.error e) := by
  unfold finishBundle
  rw [show (Except.bind (.ok ids) fun ids => g.parts ids config.format) = .error e from h]
  rfl

/-- A bundle of linked entries fails as their exports do, or has these exports. -/
theorem finishBundle_exports (ids : List String) (g : Graph) :
    SatisfiesM (fun answer : Except BundleError Bundle =>
        (∀ e, g.entryExports ids = .error e → answer = .error e) ∧
        ∀ exports, g.entryExports ids = .ok exports → Finishes config output exports
          (g.order.map fun id => (id, ((g.module? id).map (·.code)).getD "")) answer)
      (finishBundle config output (.ok ids, g)).run := by
  cases hexports : g.entryExports ids with
  | error e =>
    rw [finishBundle_of_error (bind_eq_error.2 (.inl hexports))]
    refine SatisfiesM.pure ⟨fun e' he' => ?_, nofun⟩
    rw [Except.error.inj he']
  | ok exports =>
    cases hexternals : g.keptExternals config.format with
    | error e =>
      rw [finishBundle_of_error
        (bind_eq_error.2 (.inr ⟨exports, hexports, bind_eq_error.2 (.inl hexternals)⟩))]
      refine SatisfiesM.pure ⟨nofun, fun _ _ => ⟨nofun, fun e' he' => .inl ?_⟩⟩
      exact Except.error.inj he' ▸ Graph.keptExternals_error hexternals
    | ok externals =>
      have hparts : g.parts ids config.format = .ok _ :=
        bind_eq_ok.2 ⟨exports, hexports, bind_eq_ok.2 ⟨externals, hexternals, rfl⟩⟩
      unfold finishBundle
      rw [show (Except.bind (.ok ids) fun ids => g.parts ids config.format) = .ok _ from hparts]
      dsimp only
      rw [ExceptT.run_bind]
      refine SatisfiesM.bind satisfiesM_run_withOutput ?_
      rintro (e | _ | result) ⟨hidle, hfailed⟩
      · refine SatisfiesM.pure ⟨nofun, fun _ _ => ⟨nofun, fun e' he' => .inr ?_⟩⟩
        obtain rfl := Except.error.inj he'
        exact ⟨hfailed _ rfl, fun hnone => (by cases hidle hnone)⟩
      · refine SatisfiesM.pure ⟨nofun, fun exports' h => ⟨fun b hb _ => ⟨externals, ?_⟩, nofun⟩⟩
        obtain rfl := Except.ok.inj h
        obtain rfl := Except.ok.inj hb
        rfl
      · exact SatisfiesM.pure ⟨nofun, fun exports' h => ⟨fun b _ hnone => (by cases hidle hnone), nofun⟩⟩

/-- An answer for linked entries: it reports two of them that export the same name, or all their exports come
together. -/
structure ExportsEntries (config : BundleConfig) (output : Option (OutputPlugin m))
    (modules : List ScopedModule) (ids : List String) (answer : Except BundleError Bundle) : Prop where
  conflict : ∀ name first second, answer = .error (.nameConflict name first second) →
    ExportConflict modules ids name first second
  reported : (∃ name first second, ExportConflict modules ids name first second) →
    ∃ name first second, answer = .error (.nameConflict name first second)
  exports : (∀ name first second, ¬ ExportConflict modules ids name first second) →
    ∃ exports, ExportsOf modules ids exports ∧
      Finishes config output exports (modules.map fun s => (s.part.id, s.part.code)) answer ∧
      ∀ parts : ChunkParts, parts.exports = exports → ∀ format,
        parts.ExportsIfExpressible (modules.flatMap (·.bound)) format

omit [Monad m] [LawfulMonad m] in
theorem EntriesLinked.exportsEntries {project : Project (StateT BuildState m)} {facts : Project.Facts}
    {ids : List String} {g : Graph} {t : LinkTrace} {parts : List LinkedPart} {parse : String → Option Program}
    (h : EntriesLinked project facts ids g t parts)
    (hread : project.read = fun code => (parse code).map Program.items) (hne : helperModuleId ∉ ids)
    (hlocals : ∀ code p, parse code = some p → ∀ e ∈ p.exports, ∀ x ∈ e.2, IsVariable x)
    {answer : Except BundleError Bundle} (herror : ∀ e, g.entryExports ids = .error e → answer = .error e)
    (hok : ∀ exports, g.entryExports ids = .ok exports → Finishes config output exports
      (g.order.map fun id => (id, ((g.module? id).map (·.code)).getD "")) answer) :
    ExportsEntries config output (layoutOf parse [] parts).modules ids answer := by
  have hcomprises := h.comprises hread hne []
  obtain ⟨hexports, hconflict⟩ := hcomprises.entryExports_spec
  cases hentries : g.entryExports ids with
  | error e =>
    obtain ⟨name, first, second, rfl, htwice⟩ := hconflict e hentries
    obtain rfl := herror _ hentries
    refine ⟨fun name' first' second' heq => ?_, fun _ => ⟨name, first, second, rfl⟩, fun hapart => ?_⟩
    · cases heq
      exact htwice
    · exact absurd htwice (hapart name first second)
  | ok exports =>
    obtain ⟨hof, hapart⟩ := hexports exports hentries
    have hfinishes := hok exports hentries
    refine ⟨?_, ?_, fun _ => ⟨exports, hof, hcomprises.texts_eq ▸ hfinishes, ?_⟩⟩
    · rintro name first second rfl
      rcases hfinishes.error_eq _ rfl with ⟨⟨_, heq⟩, -⟩ | ⟨⟨_, heq⟩, -⟩ <;> cases heq
    · rintro ⟨name, first, second, htwice⟩
      exact absurd htwice (hapart name first second)
    · rintro chunk rfl format
      exact chunk.exportsIfExpressible _ format (h.isVariable_of_exports hread hne hlocals hof)

/-- A bundle of linked entries exports what the entries export, unless two of them export the same name. A
chunk with these exports ends with them in each format, and makes them just if the format can express them. -/
theorem bundle_exports_iff (parse : String → Option Program) (input : InputPlugin m)
    (output : Option (OutputPlugin m)) (files : FileTree) (config : BundleConfig)
    (loads : String → Except BundleError String → Prop)
    (hloads : ∀ id, SatisfiesM (loads id) (input.loadCompiled files id))
    (hlocals : ∀ code p, parse code = some p → ∀ e ∈ p.exports, ∀ x ∈ e.2, IsVariable x) :
    Prod.fst <$> bundleWithGraph (fun code => (parse code).map Program.items) files config input output =
      (bundle (fun code => (parse code).map Program.items) files config input output).run ∧
    SatisfiesM (fun r : Except BundleError Bundle × Option (Except BundleError (List String) × Graph) =>
        ∀ ids g, r.2 = some (.ok ids, g) →
          config.entries.map files.entryId = ids.map .ok ∧
          ∃ modules, g.Comprises (input.project (fun code => (parse code).map Program.items) files
              config.basePath) loads parse modules ids ∧
            ExportsEntries config output modules ids r.1)
      (bundleWithGraph (fun code => (parse code).map Program.items) files config input output) := by
  refine ⟨fst_bundleWithGraph, ?_⟩
  let project := input.project (fun code => (parse code).map Program.items) files config.basePath
  have hready : EntriesReady project (Project.loadFacts loads) files.entryId config.entries := {
    reach := fun entry _ id hid => ⟨trivial, FileTree.entryId_ne_helper hid⟩
    start := fun s hs => nomatch hs }
  have hlink := linkEntries_ensures (Project.knows_loadFacts hloads) hready
  unfold bundleWithGraph
  split
  · exact SatisfiesM.pure nofun
  refine SatisfiesM.bind SatisfiesM.trivial fun started _ => ?_
  rcases started with e | -
  · exact SatisfiesM.pure nofun
  refine SatisfiesM.bind hlink ?_
  rintro ⟨linked | ids, g⟩ hlinked
  · refine SatisfiesM.bind SatisfiesM.trivial fun answer _ => SatisfiesM.pure ?_
    rintro ids' g' ⟨⟩
  obtain ⟨hentries, hids, t, parts, hlinked⟩ := hlinked
  have hmap : config.entries.map files.entryId = ids.map .ok := by
    rw [hids]
    exact map_eq_of_filterMap fun entry hentry => (hentries entry hentry).imp fun _ h => h.2
  have hne : helperModuleId ∉ ids := by
    intro hmem
    have hok : .ok helperModuleId ∈ config.entries.map files.entryId := hmap ▸ List.mem_map_of_mem hmem
    obtain ⟨entry, -, hid⟩ := List.mem_map.1 hok
    exact FileTree.entryId_ne_helper hid rfl
  refine SatisfiesM.bind (finishBundle_exports ids g) ?_
  rintro answer ⟨herror, hok⟩
  refine SatisfiesM.pure ?_
  rintro ids' g' ⟨⟩
  exact ⟨hmap, _, hlinked.comprises rfl hne [],
    hlinked.exportsEntries rfl hne hlocals herror hok⟩

end Bundle

/-- A module that comes from a readable file says what the file says. -/
theorem Graph.Comprises.program_eq {m : Type → Type} {project : Project m} {files : List SourceFile} {g : Graph}
    {modules : List ScopedModule} {ids : List String}
    (h : g.Comprises project (SourceFile.Loads files) (SourceFile.parse files) modules ids)
    (hreadable : SourceFile.Readable files) {file : SourceFile} (hfile : file ∈ files) {s : ScopedModule}
    (hs : s ∈ modules) (hid : s.part.id = file.id) : s.program = file.program := by
  rcases h.links s hs with ⟨hhelper, -⟩ | ⟨hload, -⟩
  · exact absurd (hid.symm.trans hhelper) (hreadable.ne_helper file hfile)
  · have hsource : s.part.source = file.text := Except.ok.inj (hload file hfile hid)
    have hparse := h.parse_eq s hs
    rw [hsource, hreadable.parse_eq file hfile] at hparse
    exact (Option.some.inj hparse).symm

/-- A module that exports a variable under a name that is no identifier. -/
def dashedFile : SourceFile where
  name := "main"
  text := "const x = 1;\nexport \x7b x as \"a-b\" \x7d;"
  program := {
    hashbang := none
    body := [
      .var ⟨0, 12⟩ .constDecl [.declarator ⟨6, 11⟩ (.binding ⟨6, 7⟩ "x") (some (.number ⟨10, 11⟩ "1"))],
      .exportList ⟨13, 35⟩ [⟨.word "x", .string ⟨"a-b", "a-b", false⟩⟩] none []]
    comments := []
    size := 35 }

theorem readable_dashedFile : SourceFile.Readable [dashedFile] where
  texts_eq := by decide +kernel
  source_eq := by decide +kernel
  refused := by decide +kernel
  ne_helper := by decide +kernel
  parse_eq := List.forall_mem_singleton.2 rfl

/-- An object has an export with such a name, and an export list does not. -/
theorem bundle_exports_iff_dashed :
    let config : BundleConfig := { entries := [⟨"/main"⟩] }
    let r := ((bundleWithGraph (fun code => (SourceFile.parse [dashedFile] code).map Program.items)
      (SourceFile.tree [dashedFile]) config idlePlugin none).run {} :
        (Except BundleError Bundle × Option (Except BundleError (List String) × Graph)) × BuildState).1
    r.1 = .ok ⟨"// /main\nconst x = 1;\n\nexport \x7b x as a-b \x7d;\n", none, ["/main"]⟩ ∧
    ∃ g modules, r.2 = some (.ok ["/main"], g) ∧ ExportsOf modules ["/main"] [("a-b", "x")] ∧
      ∀ parts : ChunkParts, parts.exports = [("a-b", "x")] →
        (tokens? (parts.exportText .es)).bind (readExports? .es (modules.flatMap (·.bound))) ≠
          some [("a-b", "x")] ∧
        (tokens? (parts.exportText .iife)).bind (readExports? .iife (modules.flatMap (·.bound))) =
          some [("a-b", "x")] := by
  intro config r
  have hlocals : ∀ code p, SourceFile.parse [dashedFile] code = some p → ∀ e ∈ p.exports, ∀ x ∈ e.2,
      IsVariable x := by
    intro code p hp
    obtain ⟨file, hfile, rfl⟩ := Option.map_eq_some_iff.1 hp
    obtain rfl := List.mem_singleton.1 (List.mem_of_find?_eq_some hfile)
    decide +kernel
  have hall := (bundle_exports_iff (SourceFile.parse [dashedFile]) idlePlugin none
    (SourceFile.tree [dashedFile]) config (SourceFile.Loads [dashedFile])
    readable_dashedFile.satisfiesM_loads hlocals).2
  rw [SatisfiesM_StateT_eq] at hall
  have hrun := SatisfiesM_Id_eq.1 (hall {})
  have hanswer : r.1 = .ok ⟨"// /main\nconst x = 1;\n\nexport \x7b x as a-b \x7d;\n", none, ["/main"]⟩ ∧
      r.2.map (·.1) = some (.ok ["/main"]) := by
    decide +kernel
  obtain ⟨⟨linked, g⟩, hr, hids⟩ := Option.map_eq_some_iff.1 hanswer.2
  obtain rfl : linked = .ok ["/main"] := hids
  obtain ⟨-, modules, hcomprises, hexports⟩ := hrun ["/main"] g hr
  obtain ⟨exports, hof, -, htexts⟩ := hexports.exports fun name first second hconflict =>
    hconflict.ne ((List.mem_singleton.1 hconflict.first_exports.1).trans
      (List.mem_singleton.1 hconflict.second_exports.1).symm)
  obtain ⟨s, hs, hid⟩ := hcomprises.entries "/main" (List.mem_singleton_self _)
  have hexports : s.exports = [("a-b", "x")] := by
    rw [ScopedModule.exports,
      hcomprises.program_eq readable_dashedFile (List.mem_singleton_self dashedFile) hs hid]
    rfl
  obtain rfl : exports = [("a-b", "x")] :=
    List.perm_singleton.1 (hexports ▸ hof.perm hcomprises.ids_nodup hs hid)
  refine ⟨hanswer.1, g, modules, hr, hof, fun parts hparts => ⟨?_, ?_⟩⟩
  · rw [Ne, ← hparts, (htexts parts hparts .es).read_iff, hparts]
    have hname : ¬ IsName "a-b" := by decide +kernel
    exact fun hall => hname (hall _ (List.mem_singleton_self _))
  · rw [← hparts, (htexts parts hparts .iife).read_iff, hparts]
    exact List.forall_mem_singleton.2 (by decide +kernel)

end ModuleBuild
