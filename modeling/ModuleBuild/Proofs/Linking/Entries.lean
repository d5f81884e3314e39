import Mathlib
import ModuleBuild.Proofs.Linking.HelperModule

/-!
# Runs of a bundle

What a bundle is made of, if one comes out: the parts that the entries reach, with the helper module
before them if one of them needs it.

## Main definitions

* `EntriesLinked` — what holds when all that entries reach is linked.

## Main statements

* `linkEntries_ensures` — what linking entries comes to.
* `bundle_linked` — every bundle is a chunk of linked parts.
-/

namespace ModuleBuild

open Linking Script

section Entries

variable {m : Type → Type} (project : Project m) (facts : Project.Facts)

/-- What holds when all that entries reach is linked, the helper module included. -/
structure EntriesLinked (ids : List String) (g : Graph) (t : LinkTrace) (parts : List LinkedPart) :
    Prop where
  visited : ∃ before, EntriesVisited project facts ids before t
  completed : Completed project t.parts parts
  shows : g.Shows parts []

/-- Why linking entries fails. -/
inductive EntriesFailure (idOf : Path → Except BundleError String) (entries : List Path) :
    BundleError → Prop
  | entry {entry : Path} {e : BundleError} (mem : entry ∈ entries) (id_eq : idOf entry = .error e) :
    EntriesFailure idOf entries e
  | visit {e : BundleError} (failure : LinkFailure project facts e) : EntriesFailure idOf entries e
  | helpers {ids : List String} {before : Graph} {t : LinkTrace} {e : BundleError}
    (visited : EntriesVisited project facts ids before t)
    (ids_eq : ids = entries.filterMap fun entry => (idOf entry).toOption)
    (failure : HelperFailure project t.parts e) : EntriesFailure idOf entries e

variable {project facts}

/-- A part of a chunk other than the helper module is a part that was linked, and settled since. -/
theorem Completed.of_mem {parts final : List LinkedPart} (h : Completed project parts final)
    {p : LinkedPart} (hp : p ∈ final) : HelperPart project parts p ∨
      ∃ q ∈ parts, p = q ∨ ∃ helper, HelperPart project parts helper ∧ p = LinkedPart.settle helper q := by
  cases h with
  | alone unused => exact .inr ⟨p, hp, .inl rfl⟩
  | withHelpers used part exported =>
    rcases List.mem_cons.mp hp with rfl | hp
    · exact .inl part
    · obtain ⟨q, hq, rfl⟩ := List.mem_map.mp hp
      exact .inr ⟨q, hq, .inr ⟨_, part, rfl⟩⟩

/-- The record of the helper module comes from its text, with the new names in it. -/
theorem helperModule_record {owned : List String} {code : String} {record : ModuleRecord}
    (h : helperModule project owned = .ok (code, record)) :
    ModuleRecord.ofText project.read helperModuleId code helperDefaultLocal = .ok record := by
  unfold helperModule at h
  obtain ⟨first, hfirst, h⟩ := bind_eq_ok.mp h
  split at h
  · obtain ⟨rfl, rfl⟩ := Prod.mk.inj (Except.ok.inj h)
    exact hfirst
  · obtain ⟨second, hsecond, h⟩ := bind_eq_ok.mp h
    obtain ⟨rfl, rfl⟩ := Prod.mk.inj (Except.ok.inj h)
    exact hsecond

theorem HelperPart.record_eq {parts : List LinkedPart} {helper : LinkedPart}
    (h : HelperPart project parts helper) :
    ModuleRecord.ofText project.read helper.id helper.source helper.defaultLocal = .ok helper.record := by
  obtain ⟨owned, -, htext⟩ := h.text_eq
  rw [h.id_eq, h.local_eq]
  exact helperModule_record htext

theorem Completed.ids_nodup {parts final : List LinkedPart} (h : Completed project parts final)
    (hnodup : (parts.map (·.id)).Nodup) (hne : ∀ p ∈ parts, p.id ≠ helperModuleId) :
    (final.map (·.id)).Nodup := by
  cases h with
  | alone unused => exact hnodup
  | @withHelpers helper used part exported =>
    have hsame : parts.map ((·.id) ∘ LinkedPart.settle helper) = parts.map (·.id) := rfl
    rw [List.map_cons, List.map_map, hsame, List.nodup_cons, part.id_eq]
    refine ⟨?_, hnodup⟩
    rw [List.mem_map]
    rintro ⟨p, hp, heq⟩
    exact hne p hp heq

namespace EntriesLinked

variable {ids : List String} {g : Graph} {t : LinkTrace} {parts : List LinkedPart}

/-- A part that is not the helper module was linked behind others. -/
theorem behind (h : EntriesLinked project facts ids g t parts) {q : LinkedPart} (hq : q ∈ t.parts) :
    ∃ earlier, q.LinkedBehind project facts earlier := by
  obtain ⟨before, hvisited⟩ := h.visited
  obtain ⟨earlier, later, -, hbehind⟩ := hvisited.holds.linked.of_mem hq
  exact ⟨earlier, hbehind⟩

/-- Each module is one part. -/
theorem ids_nodup (h : EntriesLinked project facts ids g t parts) : (parts.map (·.id)).Nodup := by
  obtain ⟨before, hvisited⟩ := h.visited
  exact h.completed.ids_nodup hvisited.holds.ids_nodup fun p hp => hvisited.holds.ne_helper hp

/-- The record of a part comes from its text. -/
theorem record_eq (h : EntriesLinked project facts ids g t parts) {p : LinkedPart} (hp : p ∈ parts) :
    ModuleRecord.ofText project.read p.id p.source p.defaultLocal = .ok p.record := by
  rcases h.completed.of_mem hp with hhelper | ⟨q, hq, hpq⟩
  · exact hhelper.record_eq
  · obtain ⟨earlier, hbehind⟩ := h.behind hq
    rcases hpq with rfl | ⟨helper, -, rfl⟩
    · exact hbehind.analyzed.record_eq
    · exact hbehind.analyzed.record_eq

/-- A part links its imports, each with where it leads; the helper module links none. -/
theorem links (h : EntriesLinked project facts ids g t parts) {p : LinkedPart} (hp : p ∈ parts) :
    p.id = helperModuleId ∧ p.links = [] ∨
      facts.loads p.id (.ok p.source) ∧ p.links.map (·.record) = p.record.imports ∧
        ∀ link ∈ p.links, project.resolve link.record.source p.id = .ok link.target := by
  rcases h.completed.of_mem hp with hhelper | ⟨q, hq, hpq⟩
  · exact .inl ⟨hhelper.id_eq, hhelper.links_eq⟩
  · obtain ⟨earlier, hbehind⟩ := h.behind hq
    have htarget := fun link hlink => (hbehind.links link hlink).target_eq
    rcases hpq with rfl | ⟨helper, -, rfl⟩
    · exact .inr ⟨hbehind.analyzed.loaded, hbehind.records_eq, htarget⟩
    · refine .inr ⟨hbehind.analyzed.loaded, ?_, ?_⟩
      · rw [LinkedPart.settle, List.map_map]
        refine Eq.trans (List.map_congr_left fun link _ => ?_) hbehind.records_eq
        exact LinkedPart.record_settle helper link
      · intro link hlink
        obtain ⟨old, hold, rfl⟩ := List.mem_map.mp hlink
        rw [LinkedPart.record_settle, LinkedPart.target_settle]
        exact htarget old hold

end EntriesLinked

variable [Monad m] [LawfulMonad m]

/-- What linking entries comes to. -/
theorem linkEntries_ensures (hknows : project.Knows facts) {idOf : Path → Except BundleError String}
    {entries : List Path} (ready : EntriesReady project facts idOf entries) :
    Ensures (linkEntries project idOf entries) {}
      (fun ids g => (∀ entry ∈ entries, ∃ id ∈ ids, idOf entry = .ok id) ∧
        ids = entries.filterMap (fun entry => (idOf entry).toOption) ∧
        ∃ t parts, EntriesLinked project facts ids g t parts)
      (EntriesFailure project facts idOf entries) := by
  have hvisit := visitEntries_ensures hknows ready
  unfold linkEntries
  refine .bind (hvisit.mono (fun _ _ h => h) ?_) ?_
  · rintro e (he | ⟨entry, hentry, he⟩)
    · exact .visit he
    · exact .entry hentry he
  · rintro ids before ⟨hof, hids, t, hvisited⟩
    refine .get ?_
    refine .bind (p := fun g _ => before.linkHelpers project = .ok g)
      (.ofAnswer (fun g hg => hg) fun e he =>
        .helpers hvisited hids (hvisited.holds.linkHelpers_error hvisited.pending_eq he)) ?_
    rintro g - hg
    refine .bind (p := fun _ g' => g' = g) (.set rfl) ?_
    rintro - g' rfl
    obtain ⟨parts, hcompleted, hshows⟩ := hvisited.holds.linkHelpers_ok hvisited.pending_eq hg
    exact .pure ⟨hof, hids, t, parts, ⟨before, hvisited⟩, hcompleted, hshows⟩

variable {input : InputPlugin m} {output : Option (OutputPlugin m)}
  {read : String → Option (List ModuleItem)} {files : FileTree} {config : BundleConfig}

/-- The identifier of an entry. -/
def FileTree.entryId (files : FileTree) (entry : Path) : Except BundleError String :=
  match files.canonical entry with
  | .ok p => .ok p.text
  | .error e => .error (.file e)

/-- An entry is a file, and never the helper module. -/
theorem FileTree.entryId_ne_helper {files : FileTree} {entry : Path} {id : String}
    (h : files.entryId entry = .ok id) : id ≠ helperModuleId := by
  unfold FileTree.entryId FileTree.canonical at h
  cases hplace : files.locate entry with
  | error e =>
    rw [hplace] at h
    cases h
  | ok place =>
    rw [hplace] at h
    obtain rfl := Except.ok.inj h
    intro heq
    have hhead := congrArg (fun s => s.toList.head?) heq
    simp [FileTree.pathOf, helperModuleId] at hhead

/-! ## Chunks -/

/-- The modules of a chunk are the texts of the parts. -/
theorem Graph.Shows.parts_ok {g : Graph} {parts : List LinkedPart} {ids : List String}
    {format : OutputFormat} {chunk : ChunkParts} (h : g.Shows parts [])
    (hchunk : g.parts ids format = .ok chunk) :
    chunk.modules = parts.map (fun p => (p.id, p.code)) ∧
      chunk.externals = (g.externals.map (·.2)).eraseDups := by
  obtain ⟨exports, -, hchunk⟩ := bind_eq_ok.mp hchunk
  obtain ⟨externals, hexternals, hchunk⟩ := bind_eq_ok.mp hchunk
  obtain rfl := Except.ok.inj hchunk
  refine ⟨?_, ?_⟩
  · have horder : g.order = parts.map (·.id) := by simpa using h.order_eq
    simp only [horder, List.map_map]
    refine List.map_congr_left fun p hp => ?_
    simp [h.done_modules p hp]
  · unfold Graph.keptExternals at hexternals
    split at hexternals
    · rename_i hnone
      obtain rfl := Except.ok.inj hexternals
      simp [hnone]
    · split at hexternals
      · exact (Except.ok.inj hexternals).symm
      · cases hexternals

/-! ## Bundles -/

theorem satisfiesM_throw {α : Type} {p : α → Prop} {e : BundleError} :
    SatisfiesM p (throw e : ExceptT BundleError m α) := by
  rw [SatisfiesM_ExceptT_eq]
  exact SatisfiesM.pure fun a h => nomatch h

theorem satisfiesM_lift {α : Type} {p : α → Prop} {x : m α} (h : SatisfiesM p x) :
    SatisfiesM p (ExceptT.lift x : ExceptT BundleError m α) := by
  rw [SatisfiesM_ExceptT_eq]
  have hrun : (ExceptT.lift x : ExceptT BundleError m α).run = Except.ok <$> x := rfl
  refine SatisfiesM.map (p := p) h fun {a} ha => ?_
  rintro a' heq
  exact Except.ok.inj heq ▸ ha

/-- Without an output plugin, its steps give what stands for them. -/
theorem satisfiesM_withOutput {α : Type} {fallback : α} {step : OutputPlugin m → Build m α} :
    SatisfiesM (fun a => output = none → a = fallback) (withOutput output fallback step) := by
  cases output with
  | none => exact SatisfiesM.pure fun _ => rfl
  | some plugin => exact SatisfiesM.of_true fun a h => nomatch h

/-- Every bundle is a chunk of linked parts. -/
theorem bundle_linked {facts : Project.Facts}
    (hknows : (input.project read files config.basePath).Knows facts)
    (ready : EntriesReady (input.project read files config.basePath) facts files.entryId
      config.entries) :
    SatisfiesM (fun b : Bundle => ∃ ids t parts g chunk,
        EntriesLinked (input.project read files config.basePath) facts ids g t parts ∧
        g.parts ids config.format = .ok chunk ∧ b.modules = g.order ∧
        (output = none → b.code = chunk.render (config.name.getD defaultBundleName) config.format))
      (bundle read files config input output) := by
  have hlink := linkEntries_ensures hknows ready
  unfold bundle
  dsimp only
  split
  · exact SatisfiesM.bind (p := fun _ => False) satisfiesM_throw fun _ h => h.elim
  refine SatisfiesM.bind SatisfiesM.trivial fun _ _ => ?_
  refine SatisfiesM.bind (satisfiesM_lift hlink) ?_
  rintro ⟨linked, g⟩ hlinked
  dsimp only
  cases linked with
  | error e => exact satisfiesM_throw
  | ok ids =>
    obtain ⟨-, -, t, parts, hlinked⟩ := hlinked
    cases hchunk : g.parts ids config.format with
    | error e =>
      rw [show (Except.bind (.ok ids) fun ids => g.parts ids config.format) = .error e from hchunk]
      exact satisfiesM_throw
    | ok chunk =>
      rw [show (Except.bind (.ok ids) fun ids => g.parts ids config.format) = .ok chunk from hchunk]
      refine SatisfiesM.bind satisfiesM_withOutput fun compiled hcompiled => ?_
      cases compiled with
      | none => exact SatisfiesM.pure ⟨ids, t, parts, g, chunk, hlinked, hchunk, rfl, fun _ => rfl⟩
      | some result =>
        exact SatisfiesM.pure ⟨ids, t, parts, g, chunk, hlinked, hchunk, rfl, fun h => nomatch hcompiled h⟩

end Entries

end ModuleBuild
