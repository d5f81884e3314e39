import Mathlib
import ModuleBuild.Proofs.Linking.Denotation

/-!
# Parts keep what names stand for

Each part of a chunk is what a known module has become. As imports lead back to parts before, what a module
imports and exports stands in the chunk for what it stands for in the language, whatever number of modules
pass it on.

## Main definitions

* `Origin.renamed` — the same origin, under the new names of the helper module.
* `LinkedPart.Of` — a part is what a known module has become.
* `LinkedPart.OriginsKept` — the names of a part stand for what they stand for in its module.

## Main statements

* `EntriesLinked.exists_renames` — the parts of a chunk are what known modules have become.
* `LinkedPart.OriginsKept.of_inOrder` — each part of a chunk keeps what its names stand for.
-/

namespace ModuleBuild

open Linking Script

/-- The same origin in a chunk in which the names of the helper module are new ones. -/
def Origin.renamed (renames : List (String × String)) : Origin → Origin
  | .declared d x => .declared d (if d = helperModuleId then newName renames x else x)
  | .defaultValue d => .defaultValue d
  | .outside specifier imported => .outside specifier imported
  | .wholeModule d => .wholeModule d

/-- The name in a chunk of what a module exports. -/
def LinkedPart.nameOf (p : LinkedPart) (renames : List (String × String)) (l : Option String) : String :=
  if p.id = helperModuleId then newName renames (l.getD p.defaultLocal) else l.getD p.defaultLocal

/-! ## Parts of known modules -/

/-- A part of a chunk is what one of the known modules has become. -/
structure LinkedPart.Of (M : ModuleMap) (ids : List String) (parse : String → Option Program)
    (renames : List (String × String)) (p : LinkedPart) : Prop where
  known : M.Reaches ids p.id ∨ p.id = helperModuleId
  records_eq : p.links.map (·.record) = p.record.imports
  imports_eq : p.links.map (fun link => (link.record.source, link.record.bindings)) =
    (M.program p.id).imports
  target_eq : ∀ link ∈ p.links, M.target link.record.source p.id = link.target
  exports_eq : p.exports = (M.program p.id).exportsAs (p.nameOf renames)
  source_eq : p.id ≠ helperModuleId → p.source = M.source p.id
  program : p.id ≠ helperModuleId → parse p.source = some (M.program p.id)
  helper : p.id = helperModuleId → ∀ name l, M.Exports helperModuleId name l →
    ∃ x ∈ l, newName renames x ∈ ((parse p.source).getD default).topNames

section Parts

variable {m : Type → Type} [Monad m] {project : Project m} {M : ModuleMap}
  {parse : String → Option Program} {ids order : List String} {whitelist : Option (List String)}
  {renames : List (String × String)} {p : LinkedPart}

theorem LinkedPart.LinkedBehind.of_known (has : project.Has M parse ids) {earlier : List LinkedPart}
    (h : p.LinkedBehind project (M.facts ids order) earlier) (valid : (M.program p.id).NamesValid) :
    p.Of M ids parse renames := by
  have hreach : M.Reaches ids p.id := h.reach
  have hsource : p.source = M.source p.id := Except.ok.inj (h.analyzed.loaded hreach)
  have hrecord (link : ImportLink) (hlink : link ∈ p.links) : link.record ∈ p.record.imports :=
    h.records_eq ▸ List.mem_map_of_mem hlink
  have hname : p.nameOf renames = (·.getD p.defaultLocal) := by
    funext l
    rw [LinkedPart.nameOf, if_neg h.ne_helper]
  exact {
    known := .inl hreach
    records_eq := h.records_eq
    imports_eq := by
      rw [← has.record_imports hreach h.analyzed, ← h.records_eq, List.map_map]
      rfl
    target_eq := fun link hlink =>
      has.target_eq hreach h.analyzed (hrecord link hlink) (h.links link hlink).target_eq
    exports_eq := by rw [hname, h.exports_eq has valid]
    source_eq := fun _ => hsource
    program := fun _ => hsource ▸ has.parse_eq p.id hreach
    helper := fun hid => absurd hid h.ne_helper }

omit [Monad m] in
theorem LinkedPart.Of.settle (h : p.Of M ids parse renames) (helper : LinkedPart) :
    (LinkedPart.settle helper p).Of M ids parse renames where
  known := h.known
  records_eq := by
    rw [LinkedPart.settle, List.map_map]
    refine Eq.trans (List.map_congr_left fun link _ => ?_) h.records_eq
    exact LinkedPart.record_settle helper link
  imports_eq := by
    rw [LinkedPart.settle, List.map_map]
    refine Eq.trans (List.map_congr_left fun link _ => ?_) h.imports_eq
    simp only [Function.comp, LinkedPart.record_settle]
  target_eq := by
    intro link hlink
    obtain ⟨old, hold, rfl⟩ := List.mem_map.1 hlink
    rw [LinkedPart.record_settle, LinkedPart.target_settle]
    exact h.target_eq old hold
  exports_eq := h.exports_eq
  source_eq := h.source_eq
  program := h.program
  helper := h.helper

omit [Monad m] in
theorem HelperShape.of_known {parts : List LinkedPart} (part : HelperPart project parts p)
    (shape : HelperShape project M parts p renames)
    (hread : project.read = fun code => (parse code).map Program.items)
    (himports : (M.program helperModuleId).imports = [])
    (valid : (M.program helperModuleId).NamesValid) : p.Of M ids parse renames := by
  have hlinks := part.links_eq
  have hexports : p.exports = (M.program p.id).exportsAs (p.nameOf renames) := by
    have hname : p.nameOf renames = fun l => newName renames (l.getD helperDefaultLocal) := by
      funext l
      rw [LinkedPart.nameOf, if_pos part.id_eq, part.local_eq]
    rw [LinkedPart.exports, shape.exports_eq, Program.lastOfEach_exportsAs valid.exports_nodup, hname,
      part.id_eq]
  exact {
    known := .inr part.id_eq
    records_eq := by rw [hlinks, shape.imports_eq, List.map_nil]
    imports_eq := by simp [hlinks, part.id_eq, himports]
    target_eq := by simp [hlinks]
    exports_eq := hexports
    source_eq := fun hne => absurd part.id_eq hne
    program := fun hne => absurd part.id_eq hne
    helper := by
      intro _ name l h
      obtain ⟨x, hx, hdeclared⟩ := shape.declared name l h
      refine ⟨x, hx, ?_⟩
      have hrecord := part.record_eq
      rw [hread] at hrecord
      obtain ⟨program, hprogram, hitems⟩ := ModuleRecord.ofText_ok hrecord
      rw [hprogram, Option.getD_some]
      rcases (ModuleRecord.mem_declared hitems _).1 hdeclared with hplain | ⟨hdefault, -⟩
      · exact program.plainNames_subset hplain
      · rw [shape.noDefault program (by rw [hread]; simp [hprogram])] at hdefault
        cases hdefault }

/-- Each part of a chunk is what a known module has become, under new names of the helper module, which are
as many as before. -/
theorem EntriesLinked.exists_renames (has : project.Has M parse ids) {g : Graph} {t : LinkTrace}
    {parts : List LinkedPart} (hparts : EntriesLinked project (M.facts ids order) ids g t parts)
    (helpers : project.HasHelpers M parse whitelist t.parts)
    (valid : ∀ id, M.Reaches ids id ∨ id = helperModuleId → (M.program id).NamesValid) :
    ∃ renames, (∀ p ∈ parts, p.Of M ids parse renames) ∧
      (∀ p ∈ parts, p.id = helperModuleId →
        p.source = Text.rename (fun x => renames.lookup x) project.helperText) ∧
      ∀ name name' x y, M.Exports helperModuleId name (some x) → M.Exports helperModuleId name' (some y) →
        newName renames x = newName renames y → x = y := by
  have hof (renames : List (String × String)) {q : LinkedPart} (hq : q ∈ t.parts) :
      q.Of M ids parse renames := by
    obtain ⟨earlier, hbehind⟩ := hparts.behind hq
    exact hbehind.of_known has (valid q.id (.inl hbehind.reach))
  have hne {q : LinkedPart} (hq : q ∈ t.parts) : q.id ≠ helperModuleId := by
    obtain ⟨earlier, hbehind⟩ := hparts.behind hq
    exact hbehind.ne_helper
  cases hparts.completed with
  | alone unused =>
    exact ⟨[], fun p hp => hof [] hp, fun p hp hid => absurd hid (hne hp), fun _ _ _ _ _ _ h => h⟩
  | @withHelpers helper used part exported =>
    obtain ⟨renames, shape⟩ := helpers.shape has.read_eq part
    refine ⟨renames, ?_, ?_, shape.names_inj⟩
    · intro p hp
      rcases List.mem_cons.1 hp with rfl | hp
      · exact shape.of_known part has.read_eq (helpers.program has.read_eq).1 (valid _ (.inr rfl))
      · obtain ⟨q, hq, rfl⟩ := List.mem_map.1 hp
        exact (hof renames hq).settle helper
    · intro p hp hid
      rcases List.mem_cons.1 hp with rfl | hp
      · exact shape.source_eq
      · obtain ⟨q, hq, rfl⟩ := List.mem_map.1 hp
        exact absurd (show q.id = helperModuleId from hid) (hne hq)

end Parts

/-! ## Origins -/

/-- A binding of an export stands for the name that holds it. -/
theorem LinkedModule.value_eq_ok {linked : LinkedModule} {id name v : String} {b : ImportBinding}
    (himported : b.imported? = some name) :
    linked.value id b = .ok v ↔ linked.exports.lookup name = some v := by
  have hvalue : linked.value id b = linked.exportLocal id name := by
    cases b with
    | named | byDefault =>
      obtain rfl := Option.some.inj himported
      rfl
    | wholeModule => cases himported
  rw [hvalue, LinkedModule.exportLocal]
  cases linked.exports.lookup name with
  | some l => rw [Except.ok.injEq, Option.some.injEq]
  | none => exact iff_of_false (by simp) (by simp)

theorem LinkedModule.value_whole {linked : LinkedModule} {id v : String} {b : ImportBinding}
    (hwhole : b.imported? = none) (h : linked.value id b = .ok v) : v = linked.wholeObject := by
  cases b with
  | named | byDefault => cases hwhole
  | wholeModule x => exact (Except.ok.inj h).symm

/-- An object is no word. -/
theorem LinkedModule.wholeObject_ne {linked : LinkedModule} {x : String}
    (hword : x.toList.all continuesWord = true) : linked.wholeObject ≠ x := by
  rintro rfl
  have hmem : '(' ∈ linked.wholeObject.toList := by
    unfold LinkedModule.wholeObject
    simp
  exact absurd (List.all_eq_true.1 hword _ hmem) (by decide)

section Origins

variable {M : ModuleMap} {parse : String → Option Program} {ids : List String}
  {renames : List (String × String)} {parts : List LinkedPart} {externals : List String}

/-- An import of a module is one of the part. -/
theorem LinkedPart.Of.exists_link {p : LinkedPart} (h : p.Of M ids parse renames) {specifier : String}
    {b : ImportBinding} (binds : M.Binds p.id specifier b) :
    ∃ link ∈ p.links, link.record.source = specifier ∧ b ∈ link.record.bindings := by
  obtain ⟨i, hi, rfl, hb⟩ := binds
  rw [← h.imports_eq] at hi
  obtain ⟨link, hlink, rfl⟩ := List.mem_map.1 hi
  exact ⟨link, hlink, rfl, hb⟩

/-- What a module exports, and what it imports, stands in the chunk for what it stands for in the
module. -/
structure LinkedPart.OriginsKept (M : ModuleMap) (renames : List (String × String)) (l : ChunkLayout)
    (p : LinkedPart) : Prop where
  exported : ∀ name k, M.Exports p.id name k →
    ∃ o, M.Resolves p.id k o ∧ l.Denotes (p.nameOf renames k) (o.renamed renames)
  imported : ∀ specifier b, M.Binds p.id specifier b →
    ∃ o, M.Resolves p.id (some b.localName) o ∧ l.Denotes b.localName (o.renamed renames)

/-- The module of a layout that a part is. -/
theorem mem_layoutOf {p : LinkedPart} (hp : p ∈ parts) :
    ⟨p, (parse p.source).getD default⟩ ∈ (layoutOf parse externals parts).modules :=
  List.mem_map_of_mem hp

theorem parts_layoutOf : (layoutOf parse externals parts).modules.map (·.part) = parts := by
  simp [layoutOf, Function.comp_def]

/-- A part binds a name in its chunk. -/
theorem ScopedModule.Binds.layoutOf {p : LinkedPart} (hp : p ∈ parts) {x : String} {μ : Meaning}
    (h : ScopedModule.Binds parts ⟨p, (parse p.source).getD default⟩ x μ) :
    (layoutOf parse externals parts).Binds x μ :=
  ⟨_, mem_layoutOf hp, parts_layoutOf.symm ▸ h⟩

section Step

variable {p : LinkedPart} {earlier : List LinkedPart} (of : p.Of M ids parse renames)
  (valid : (M.program p.id).NamesValid) (hp : p ∈ parts) (leads : ∀ link ∈ p.links, link.LeadsInto earlier)
  (hearlier : ∀ q ∈ earlier, q ∈ parts ∧ q.Of M ids parse renames ∧ (M.program q.id).NamesValid ∧
    q.OriginsKept M renames (layoutOf parse externals parts))
include of valid hp

include leads hearlier in
/-- An import stands for the same in the chunk, if the exports of the parts before do. -/
theorem LinkedPart.Of.imported {specifier : String} {b : ImportBinding} (binds : M.Binds p.id specifier b) :
    ∃ o, M.Resolves p.id (some b.localName) o ∧
      (layoutOf parse externals parts).Denotes b.localName (o.renamed renames) := by
  obtain ⟨link, hlink, rfl, hb⟩ := of.exists_link binds
  have htarget := of.target_eq link hlink
  have hbinds {μ : Meaning} (gives : link.Gives parts b μ) :
      (layoutOf parse externals parts).Binds b.localName μ :=
    ScopedModule.Binds.layoutOf hp (.imported hlink hb gives)
  cases hlinked : link.target with
  | outside =>
    exact ⟨_, .outside binds (htarget.trans hlinked), .origin (hbinds (.outside hlinked))⟩
  | module d =>
    rw [hlinked] at htarget
    obtain ⟨q, hq, rfl, haliases⟩ := (leads link hlink).module d hlinked
    obtain ⟨hqparts, hqof, hqvalid, hkept⟩ := hearlier q hq
    obtain ⟨v, hv, hvariable⟩ := LinkedModule.aliases_ok haliases hb
    cases himported : b.imported? with
    | none =>
      obtain rfl := LinkedModule.value_whole himported hv
      have hword := valid.words _ binds.mem_importLocals
      have hmem := hvariable.resolve_left (LinkedModule.wholeObject_ne hword)
      exact ⟨_, .wholeModule binds htarget himported, .origin (hbinds (.whole himported hqparts hlinked hmem))⟩
    | some name =>
      have hlookup : q.exports.lookup name = some v := (LinkedModule.value_eq_ok himported).1 hv
      rw [hqof.exports_eq, Program.lookup_exportsAs_eq_some hqvalid.exports_nodup] at hlookup
      obtain ⟨k, hexports, rfl⟩ := hlookup
      obtain ⟨o, hresolves, hdenotes⟩ := hkept.exported name k hexports
      refine ⟨o, .imported binds htarget himported hexports hresolves, ?_⟩
      rcases hvariable with hsame | hmem
      · exact hsame ▸ hdenotes
      · exact .follow (hbinds (.named himported hmem)) hdenotes

/-- An export stands for the same in the chunk, if the imports of its module do. -/
theorem LinkedPart.Of.exported (himports : (M.program helperModuleId).imports = [])
    (imported : ∀ specifier b, M.Binds p.id specifier b → ∃ o, M.Resolves p.id (some b.localName) o ∧
      (layoutOf parse externals parts).Denotes b.localName (o.renamed renames)) {name : String}
    {k : Option String} (exports : M.Exports p.id name k) :
    ∃ o, M.Resolves p.id k o ∧
      (layoutOf parse externals parts).Denotes (p.nameOf renames k) (o.renamed renames) := by
  by_cases hid : p.id = helperModuleId
  · obtain ⟨x, rfl, hx⟩ := of.helper hid name k (hid ▸ exports)
    have hown : x ∉ (M.program p.id).importLocals := by simp [hid, Program.importLocals, himports]
    refine ⟨_, .declared hown, ?_⟩
    rw [LinkedPart.nameOf, if_pos hid, Origin.renamed, if_pos hid]
    exact .origin (ScopedModule.Binds.layoutOf hp (.declared hx))
  · have hprogram : (parse p.source).getD default = M.program p.id := by rw [of.program hid, Option.getD_some]
    have hname : p.nameOf renames k = k.getD p.defaultLocal := if_neg hid
    rw [hname]
    cases k with
    | none =>
      have hdefault : ((parse p.source).getD default).hasDefaultValue = true :=
        hprogram ▸ Program.hasDefaultValue_of_exports exports
      exact ⟨_, .defaultValue p.id, .origin (ScopedModule.Binds.layoutOf hp (.defaultValue hdefault))⟩
    | some x =>
      rcases valid.exports_bound _ exports x rfl with hdeclared | himport
      · have hown : x ∉ (M.program p.id).importLocals := fun hx => valid.imports_own x hx hdeclared
        refine ⟨_, .declared hown, ?_⟩
        rw [Origin.renamed, if_neg hid]
        exact .origin (ScopedModule.Binds.layoutOf hp (.declared (hprogram ▸ hdeclared)))
      · obtain ⟨i, hi, b, hb, rfl⟩ := Program.mem_importLocals.1 himport
        exact imported i.1 b ⟨i, hi, rfl, hb⟩

end Step

/-- Each part of a chunk keeps what its names stand for. -/
theorem LinkedPart.OriginsKept.of_inOrder
    (of : ∀ p ∈ parts, p.Of M ids parse renames)
    (valid : ∀ p ∈ parts, (M.program p.id).NamesValid)
    (himports : (M.program helperModuleId).imports = [])
    (inOrder : ∀ earlier p later, parts = earlier ++ p :: later → ∀ link ∈ p.links, link.LeadsInto earlier) :
    ∀ p ∈ parts, p.OriginsKept M renames (layoutOf parse externals parts) := by
  suffices h : ∀ earlier later, parts = earlier ++ later →
      ∀ p ∈ earlier, p.OriginsKept M renames (layoutOf parse externals parts) from
    h parts [] (List.append_nil parts).symm
  intro earlier
  induction earlier using List.reverseRecOn with
  | nil => simp
  | append_singleton earlier p ih =>
    intro later heq q hq
    rw [List.append_assoc, List.singleton_append] at heq
    have hbefore := ih _ heq
    rcases List.mem_append.1 hq with hq | hq
    · exact hbefore q hq
    obtain rfl := List.mem_singleton.1 hq
    have hmem : q ∈ parts := heq ▸ by simp
    have hsub : earlier ⊆ parts := heq ▸ List.subset_append_left _ _
    have himported (specifier : String) (b : ImportBinding) (binds : M.Binds q.id specifier b) :
        ∃ o, M.Resolves q.id (some b.localName) o ∧
          (layoutOf parse externals parts).Denotes b.localName (o.renamed renames) :=
      (of q hmem).imported (valid q hmem) hmem (inOrder _ _ _ heq)
        (fun d hd => ⟨hsub hd, of d (hsub hd), valid d (hsub hd), hbefore d hd⟩) binds
    exact ⟨fun name k exports => (of q hmem).exported (valid q hmem) hmem himports himported exports,
      himported⟩

theorem ImportLink.LeadsInto.mono {earlier : List LinkedPart} {link : ImportLink}
    (h : link.LeadsInto earlier) (hsub : earlier ⊆ parts) : link.LeadsInto parts where
  outside := h.outside
  module d htarget := by
    obtain ⟨q, hq, hid, haliases⟩ := h.module d htarget
    exact ⟨q, hsub hq, hid, haliases⟩

/-- The imports of a part are those of its statements, and keep the rules about names. -/
theorem LinkedPart.Of.importsValid {p : LinkedPart} (of : p.Of M ids parse renames)
    (valid : (M.program p.id).NamesValid) (himports : (M.program helperModuleId).imports = [])
    {program : Program} (hprogram : parse p.source = some program)
    (hrecord : ModuleRecord.ofItems p.id p.source.toList p.defaultLocal program.items = .ok p.record)
    (leads : ∀ link ∈ p.links, link.LeadsInto parts) : ScopedModule.ImportsValid ⟨p, program⟩ parts := by
  have hlocals : (p.links.flatMap fun link => link.record.bindings.map (·.localName)) =
      program.importLocals := by
    have himported := ModuleRecord.imports_ofItems hrecord
    rw [← of.records_eq, List.map_map] at himported
    rw [Program.importLocals, Program.imports, ← himported, List.flatMap_map]
    rfl
  by_cases hid : p.id = helperModuleId
  · have hnone : p.links = [] := by simpa [hid, himports] using of.imports_eq
    have hempty : program.importLocals = [] := by rw [← hlocals, hnone, List.flatMap_nil]
    exact ⟨hlocals, by simp [hempty], by simp [hempty], leads⟩
  · obtain rfl := Option.some.inj (hprogram.symm.trans (of.program hid))
    exact ⟨hlocals, valid.imports_nodup, valid.imports_own, leads⟩

end Origins

end ModuleBuild
