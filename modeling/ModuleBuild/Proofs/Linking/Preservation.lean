import Mathlib
import ModuleBuild.Proofs.Linking.Kept

/-!
# Linking preserves what names stand for

What a module imports stands for the same in the chunk as in the language, and the object that stands for a
whole module has its exports as fields. Linking fails exactly if something is imported that is not exported.

## Main definitions

* `LinkedModule.fields` — the fields of the object that stands for a module.
* `ChunkLayout.Agrees` — a name of a chunk stands for what a name of a module stands for.
* `ChunkLayout.Presents` — a layout is the one of a linked graph.
* `ChunkLayout.Preserves` — a chunk keeps what imports stand for.

## Main statements

* `linkEntries_preserves` — linking preserves what imports stand for.
-/

namespace ModuleBuild

open Linking Script

/-! ## Chunks and modules -/

namespace LinkedModule

/-- The fields of the object that stands for the module. In an object that is written out, `__proto__` names
its prototype and no field. -/
def fields (linked : LinkedModule) : List (String × String) :=
  (sortByName linked.exports).filter (·.1 ≠ "__proto__")

theorem mem_fields {linked : LinkedModule} {name v : String} :
    (name, v) ∈ linked.fields ↔ name ≠ "__proto__" ∧ (name, v) ∈ linked.exports := by
  have hperm : (sortByName linked.exports).Perm linked.exports := List.mergeSort_perm _ _
  rw [fields, List.mem_filter, hperm.mem_iff, decide_eq_true_iff, and_comm]

end LinkedModule

namespace ChunkLayout

/-- A name of a chunk stands for what a name of a module stands for, which is one thing, and for nothing
else if the names of the chunk are apart. -/
def Agrees (l : ChunkLayout) (M : ModuleMap) (renames : List (String × String)) (id : String)
    (k : Option String) (x : String) : Prop :=
  ∃ o, (∀ o', M.Resolves id k o' ↔ o' = o) ∧ l.Denotes x (o.renamed renames) ∧
    (l.NamesApart → ∀ o', l.Denotes x o' → o' = o.renamed renames)

/-- The object that stands for a module has its exports as fields, except for `__proto__`. -/
structure FieldsAgree (l : ChunkLayout) (M : ModuleMap) (renames : List (String × String))
    (s : ScopedModule) : Prop where
  names : ∀ name, (∃ v, (name, v) ∈ s.part.linked.fields) ↔
    name ≠ "__proto__" ∧ ∃ k, M.Exports s.part.id name k
  nodup : (s.part.linked.fields.map (·.1)).Nodup
  values : ∀ name v, (name, v) ∈ s.part.linked.fields →
    ∃ k, M.Exports s.part.id name k ∧ l.Agrees M renames s.part.id k v

/-- The layout of a graph that was linked from known modules. -/
structure Presents {m : Type → Type} (l : ChunkLayout) (project : Project m) (M : ModuleMap)
    (parse : String → Option Program) (ids : List String) (renames : List (String × String))
    (g : Graph) : Prop where
  order_eq : g.order = l.modules.map (·.part.id)
  chunk_eq : ∀ format chunk, g.parts ids format = .ok chunk →
    chunk.modules = l.modules.map (fun s => (s.part.id, s.part.code)) ∧ chunk.externals = l.externals
  ids_nodup : (l.modules.map (·.part.id)).Nodup
  mem_modules : ∀ s ∈ l.modules, M.Reaches ids s.part.id ∨ s.part.id = helperModuleId
  reached : ∀ id, M.Reaches ids id → ∃ s ∈ l.modules, s.part.id = id
  source_eq : ∀ s ∈ l.modules, s.part.source =
    if s.part.id = helperModuleId then Text.rename (fun x => renames.lookup x) project.helperText
    else M.source s.part.id
  parse_eq : ∀ s ∈ l.modules, parse s.part.source = some s.program
  record_eq : ∀ s ∈ l.modules, ModuleRecord.ofItems s.part.id s.part.source.toList s.part.defaultLocal
    s.program.items = .ok s.part.record
  records_eq : ∀ s ∈ l.modules, s.part.links.map (·.record) = s.part.record.imports
  target_eq : ∀ s ∈ l.modules, ∀ link ∈ s.part.links, M.target link.record.source s.part.id = link.target
  leads : ∀ s ∈ l.modules, ∀ link ∈ s.part.links, link.LeadsInto (l.modules.map (·.part))

/-- A chunk keeps what imports stand for, and tells the exports of the helper module apart under their new
names. -/
structure Preserves (l : ChunkLayout) (M : ModuleMap) (ids : List String)
    (renames : List (String × String)) : Prop where
  imports : ∀ id specifier b d, M.Reaches ids id → M.Binds id specifier b →
    M.target specifier id = .module d → l.Agrees M renames id (some b.localName) b.localName ∧
      ∃ s ∈ l.modules, s.part.id = d ∧ l.FieldsAgree M renames s
  helper_inj : ∀ name name' x y, M.Exports helperModuleId name (some x) →
    M.Exports helperModuleId name' (some y) → newName renames x = newName renames y → x = y

end ChunkLayout

/-! ## Parts of known modules -/

section Parts

variable {M : ModuleMap} {parse : String → Option Program} {ids : List String}
  {renames : List (String × String)} {parts : List LinkedPart} {externals : List String}

/-- The fields of a part are its exports. -/
theorem LinkedPart.Of.mem_fields {p : LinkedPart} (of : p.Of M ids parse renames) {name v : String} :
    (name, v) ∈ p.linked.fields ↔
      name ≠ "__proto__" ∧ ∃ k, M.Exports p.id name k ∧ p.nameOf renames k = v := by
  have hexports : p.linked.exports = (M.program p.id).exportsAs (p.nameOf renames) := of.exports_eq
  rw [LinkedModule.mem_fields, hexports, Program.exportsAs, List.mem_map]
  refine and_congr_right fun _ => ⟨?_, ?_⟩
  · rintro ⟨⟨key, k⟩, hexport, heq⟩
    obtain ⟨rfl, rfl⟩ := Prod.mk.inj heq
    exact ⟨k, hexport, rfl⟩
  · rintro ⟨k, hexport, rfl⟩
    exact ⟨(name, k), hexport, rfl⟩

theorem LinkedPart.Of.nodup_fields {p : LinkedPart} (of : p.Of M ids parse renames)
    (valid : (M.program p.id).NamesValid) : (p.linked.fields.map (·.1)).Nodup := by
  have hexports : p.linked.exports = (M.program p.id).exportsAs (p.nameOf renames) := of.exports_eq
  have hnodup : (p.linked.exports.map (·.1)).Nodup := by
    rw [hexports, Program.exportsAs, List.map_map]
    exact valid.exports_nodup
  have hperm : (sortByName p.linked.exports).Perm p.linked.exports := List.mergeSort_perm _ _
  have hsorted := (hperm.map (·.1)).nodup_iff.2 hnodup
  exact hsorted.sublist (List.filter_sublist.map _)

/-- Parts of a chunk that known modules have become, in an order in which imports lead back. -/
structure PartsOf (M : ModuleMap) (ids : List String) (parse : String → Option Program)
    (renames : List (String × String)) (parts : List LinkedPart) : Prop where
  of : ∀ p ∈ parts, p.Of M ids parse renames
  valid : ∀ id, M.Reaches ids id ∨ id = helperModuleId → (M.program id).NamesValid
  helper_imports : (M.program helperModuleId).imports = []
  inOrder : ∀ earlier p later, parts = earlier ++ p :: later → ∀ link ∈ p.links, link.LeadsInto earlier
  ids_nodup : (parts.map (·.id)).Nodup
  parsed : ∀ p ∈ parts, parse p.source = some ((parse p.source).getD default) ∧
    ModuleRecord.ofItems p.id p.source.toList p.defaultLocal ((parse p.source).getD default).items =
      .ok p.record

namespace PartsOf

variable (h : PartsOf M ids parse renames parts)
include h

/-- Imports of known modules lead to known modules. -/
theorem closed {id specifier d : String} {b : ImportBinding}
    (hknown : M.Reaches ids id ∨ id = helperModuleId) (hbinds : M.Binds id specifier b)
    (htarget : M.target specifier id = .module d) : M.Reaches ids d ∨ d = helperModuleId := by
  obtain ⟨i, hi, rfl, -⟩ := hbinds
  by_cases hd : d = helperModuleId
  · exact .inr hd
  · rcases hknown with hreach | rfl
    · exact .inl (hreach.step (ModuleMap.mem_needs.2 ⟨hd, i, hi, htarget⟩))
    · rw [h.helper_imports] at hi
      cases hi

theorem originsKept : ∀ p ∈ parts, p.OriginsKept M renames (layoutOf parse externals parts) :=
  LinkedPart.OriginsKept.of_inOrder h.of (fun p hp => h.valid p.id (h.of p hp).known) h.helper_imports
    h.inOrder

theorem leads {p : LinkedPart} (hp : p ∈ parts) : ∀ link ∈ p.links, link.LeadsInto parts := by
  intro link hlink
  obtain ⟨earlier, later, heq⟩ := List.append_of_mem hp
  refine (h.inOrder earlier p later heq link hlink).mono ?_
  rw [heq]
  exact List.subset_append_left _ _

theorem importsValid : ∀ s ∈ (layoutOf parse externals parts).modules,
    s.ImportsValid ((layoutOf parse externals parts).modules.map (·.part)) := by
  rw [parts_layoutOf]
  refine List.forall_mem_map.2 fun p hp => ?_
  obtain ⟨hprogram, hrecord⟩ := h.parsed p hp
  exact (h.of p hp).importsValid (h.valid _ (h.of p hp).known) h.helper_imports hprogram hrecord (h.leads hp)

/-- What a name keeps standing for is one thing. -/
theorem agrees {id x : String} {k : Option String} (hknown : M.Reaches ids id ∨ id = helperModuleId)
    (hkept : ∃ o, M.Resolves id k o ∧ (layoutOf parse externals parts).Denotes x (o.renamed renames)) :
    (layoutOf parse externals parts).Agrees M renames id k x := by
  obtain ⟨o, hresolves, hdenotes⟩ := hkept
  have hnodup : ((layoutOf parse externals parts).modules.map (·.part.id)).Nodup := by
    simpa [layoutOf, Function.comp_def] using h.ids_nodup
  refine ⟨o, fun o' => ⟨fun h' => ?_, ?_⟩, hdenotes, fun apart o' h' => ?_⟩
  · exact (hresolves.unique h.valid (fun _ _ _ _ => h.closed) hknown h').symm
  · rintro rfl
    exact hresolves
  · exact h'.unique apart hnodup h.importsValid hdenotes

theorem fieldsAgree {p : LinkedPart} (hp : p ∈ parts) :
    (layoutOf parse externals parts).FieldsAgree M renames ⟨p, (parse p.source).getD default⟩ where
  names name := by simp [(h.of p hp).mem_fields]
  nodup := (h.of p hp).nodup_fields (h.valid _ (h.of p hp).known)
  values name v hfield := by
    obtain ⟨-, k, hexports, rfl⟩ := (h.of p hp).mem_fields.1 hfield
    exact ⟨k, hexports, h.agrees (h.of p hp).known ((h.originsKept p hp).exported name k hexports)⟩

/-- What a part imports keeps standing for what it stands for, and whole modules have their exports. -/
theorem imports {p : LinkedPart} (hp : p ∈ parts) {specifier d : String} {b : ImportBinding}
    (hbinds : M.Binds p.id specifier b) (htarget : M.target specifier p.id = .module d) :
    (layoutOf parse externals parts).Agrees M renames p.id (some b.localName) b.localName ∧
      ∃ s ∈ (layoutOf parse externals parts).modules, s.part.id = d ∧
        (layoutOf parse externals parts).FieldsAgree M renames s := by
  refine ⟨h.agrees (h.of p hp).known ((h.originsKept p hp).imported specifier b hbinds), ?_⟩
  obtain ⟨link, hlink, rfl, -⟩ := (h.of p hp).exists_link hbinds
  obtain ⟨earlier, later, heq⟩ := List.append_of_mem hp
  have hlinked : link.target = .module d := ((h.of p hp).target_eq link hlink).symm.trans htarget
  obtain ⟨q, hq, hid, -⟩ := (h.inOrder earlier p later heq link hlink).module d hlinked
  have hmem : q ∈ parts := heq ▸ List.mem_append_left _ hq
  exact ⟨_, mem_layoutOf hmem, hid, h.fieldsAgree hmem⟩

/-- What a part imports is exported. -/
theorem exports {p : LinkedPart} (hp : p ∈ parts) {specifier d name : String} {b : ImportBinding}
    (hbinds : M.Binds p.id specifier b) (htarget : M.target specifier p.id = .module d)
    (himported : b.imported? = some name) : ∃ k, M.Exports d name k := by
  have hkept : p.OriginsKept M renames (layoutOf parse [] parts) := h.originsKept p hp
  obtain ⟨o, hresolves, -⟩ := hkept.imported specifier b hbinds
  have hone := hresolves.of_binds (h.valid _ (h.of p hp).known).imports_nodup hbinds
  rw [htarget, himported] at hone
  obtain ⟨k, hexports, -⟩ := hone
  exact ⟨k, hexports⟩

end PartsOf

end Parts

/-! ## Linking -/

section Linked

variable {m : Type → Type} [Monad m] {project : Project m} {M : ModuleMap}
  {parse : String → Option Program} {ids order : List String} {whitelist : Option (List String)}

/-- A module that entries reach has become a part of the chunk. -/
theorem EntriesLinked.exists_part (has : project.Has M parse ids) {g : Graph} {t : LinkTrace}
    {parts : List LinkedPart} (hparts : EntriesLinked project (M.facts ids order) ids g t parts) {id : String}
    (hreach : M.Reaches ids id) : ∃ p ∈ parts, p.id = id := by
  obtain ⟨before, hvisited⟩ := hparts.visited
  obtain ⟨p, hp, hid⟩ := hvisited.exists_part has hreach
  cases hparts.completed with
  | alone unused => exact ⟨p, hp, hid⟩
  | withHelpers used part exported => exact ⟨_, List.mem_cons_of_mem _ (List.mem_map_of_mem hp), hid⟩

section Layout

variable (has : project.Has M parse ids) {g : Graph} {t : LinkTrace} {parts : List LinkedPart}
  {renames : List (String × String)} (hparts : EntriesLinked project (M.facts ids order) ids g t parts)
  (h : PartsOf M ids parse renames parts)
include has hparts h

/-- The layout of the parts is the one of the graph. -/
theorem PartsOf.presents (hsource : ∀ p ∈ parts, p.id = helperModuleId →
      p.source = Text.rename (fun x => renames.lookup x) project.helperText) :
    (layoutOf parse (g.externals.map (·.2)).eraseDups parts).Presents project M parse ids renames g where
  order_eq := by
    rw [hparts.shows.order_eq, List.append_nil, layoutOf, List.map_map]
    rfl
  chunk_eq format chunk hchunk := by
    obtain ⟨htexts, hexternals⟩ := hparts.shows.parts_ok hchunk
    refine ⟨?_, hexternals⟩
    rw [htexts, layoutOf, List.map_map]
    rfl
  ids_nodup := by simpa [layoutOf, Function.comp_def] using h.ids_nodup
  mem_modules := List.forall_mem_map.2 fun p hp => (h.of p hp).known
  reached id hreach := by
    obtain ⟨p, hp, hid⟩ := hparts.exists_part has hreach
    exact ⟨_, mem_layoutOf hp, hid⟩
  source_eq := by
    refine List.forall_mem_map.2 fun p hp => ?_
    split
    · rename_i hid
      exact hsource p hp hid
    · rename_i hid
      exact (h.of p hp).source_eq hid
  parse_eq := List.forall_mem_map.2 fun p hp => (h.parsed p hp).1
  record_eq := List.forall_mem_map.2 fun p hp => (h.parsed p hp).2
  records_eq := List.forall_mem_map.2 fun p hp => (h.of p hp).records_eq
  target_eq := List.forall_mem_map.2 fun p hp => (h.of p hp).target_eq
  leads := by
    rw [parts_layoutOf]
    exact List.forall_mem_map.2 fun p hp => h.leads hp

end Layout

/-- A chunk of known modules keeps what their imports stand for, and all of them are exported. -/
theorem EntriesLinked.exists_layout (has : project.Has M parse ids) {g : Graph} {t : LinkTrace}
    {parts : List LinkedPart} (hparts : EntriesLinked project (M.facts ids order) ids g t parts)
    (helpers : project.HasHelpers M parse whitelist t.parts)
    (valid : ∀ id, M.Reaches ids id ∨ id = helperModuleId → (M.program id).NamesValid) :
    (∀ d name, ¬ M.Misses ids d name) ∧
      ∃ (l : ChunkLayout) (renames : List (String × String)),
        l.Presents project M parse ids renames g ∧ l.Preserves M ids renames := by
  obtain ⟨renames, of, hsource, hinj⟩ := hparts.exists_renames has helpers valid
  have h : PartsOf M ids parse renames parts := {
    of
    valid
    helper_imports := (helpers.program has.read_eq).1
    inOrder := fun _ _ _ heq _ hlink => hparts.inOrder heq hlink
    ids_nodup := hparts.ids_nodup
    parsed := fun p hp => hparts.parse_ok has.read_eq hp }
  refine ⟨?_, _, renames, h.presents has hparts hsource, ?_, hinj⟩
  · rintro d name ⟨id, specifier, b, hreach, hbinds, htarget, himported, hmissing⟩
    obtain ⟨p, hp, rfl⟩ := hparts.exists_part has hreach
    obtain ⟨k, hexports⟩ := h.exports hp hbinds htarget himported
    exact hmissing k hexports
  · intro id specifier b d hreach hbinds htarget
    obtain ⟨p, hp, rfl⟩ := hparts.exists_part has hreach
    exact h.imports hp hbinds htarget

variable [LawfulMonad m]

/-- Linking preserves what imports stand for. For known modules that do not import each other in circles,
and of which no two record a name, each import that leads to a module stands in the chunk for what it stands
for in the language, and the object for a whole module has the exports of that module as fields, up to one
that is named `__proto__`; names that are not recorded must be apart as well, or they may stand for something
else in addition. Linking fails just if one of these imports takes what is not exported. -/
theorem linkEntries_preserves {idOf : Path → Except BundleError String} {entries : List Path}
    (has : project.Has M parse ids) (hids : entries.map idOf = ids.map .ok) (hne : helperModuleId ∉ ids)
    (valid : ∀ id, M.Reaches ids id ∨ id = helperModuleId → (M.program id).NamesValid)
    (acyclic : ∀ id, M.Reaches ids id → ¬ Relation.TransGen (fun a b => b ∈ M.needs a) id id)
    (helpers : project.HasHelpers M parse whitelist (M.parts (M.startOrder project.depth ids)))
    (apart : project.RecordsApart (M.parts (M.startOrder project.depth ids))) :
    Ensures (linkEntries project idOf entries) {}
      (fun found g => found = ids ∧ (∀ d name, ¬ M.Misses ids d name) ∧
        ∃ (l : ChunkLayout) (renames : List (String × String)),
          l.Presents project M parse ids renames g ∧ l.Preserves M ids renames)
      (fun e => ∃ d name, e = .missingExport d name ∧ M.Misses ids d name) := by
  refine (linkEntries_planned has hids hne valid acyclic helpers apart).mono ?_ fun _ h => h
  rintro found g ⟨hfound, t, parts, hparts, hhelpers⟩
  exact ⟨hfound, hparts.exists_layout has hhelpers valid⟩

end Linked

/-! ## A name that is passed on -/

/-- A module with a name of its own. -/
def startingText : String := "const x = 1;\nexport \x7b x \x7d;"

/-- The statements of this module. -/
def startingProgram : Program where
  hashbang := none
  body := [
    .var ⟨0, 12⟩ .constDecl [.declarator ⟨6, 11⟩ (.binding ⟨6, 7⟩ "x") (some (.number ⟨10, 11⟩ "1"))],
    .exportList ⟨13, 26⟩ [⟨.word "x", .word "x"⟩] none []]
  comments := []
  size := 26

/-- A module that passes this name on under another one. -/
def passingText : String := "import \x7b x as y \x7d from \"/c\";\nexport \x7b y \x7d;"

/-- The statements of this module. -/
def passingProgram : Program where
  hashbang := none
  body := [
    .importModule ⟨0, 28⟩ { specifiers := some [.named (.word "x") "y"], source := ⟨"/c", "/c", false⟩ },
    .exportList ⟨29, 42⟩ [⟨.word "y", .word "y"⟩] none []]
  comments := []
  size := 42

/-- A module that imports the name as it was passed on, all names at their start, and a helper. -/
def takingText : String :=
  "import \x7b y as z \x7d from \"/b\";\nimport * as c from \"/c\";\n" ++
    (InjectedImport.named "classCallCheck" "check" helperModuleId).render .esm ++ "\ncheck(z, c);"

/-- The statements of this module. -/
def takingProgram : Program where
  hashbang := none
  body := [
    .importModule ⟨0, 28⟩ { specifiers := some [.named (.word "y") "z"], source := ⟨"/b", "/b", false⟩ },
    .importModule ⟨29, 53⟩ { specifiers := some [.wholeModule "c"], source := ⟨"/c", "/c", false⟩ },
    .importModule ⟨54, 123⟩ {
      specifiers := some [.named (.word "classCallCheck") "check"]
      source := ⟨helperModuleId, "\\0viperTransformHelpers.js", false⟩ },
    .expr ⟨124, 136⟩ (.call ⟨124, 135⟩ (.ident ⟨124, 129⟩ "check")
      [.ident ⟨130, 131⟩ "z", .ident ⟨133, 134⟩ "c"] false false)]
  comments := []
  size := 136

/-- The helper module with one helper. -/
def checkText : String := helperBundle helperRegistry (some ["classCallCheck"]) .module

/-- The statements of the helper module. -/
def checkProgram : Program where
  hashbang := none
  body := [
    .decl (.func ⟨0, 161⟩ {} (some "_classCallCheck")
      [.binding ⟨25, 33⟩ "instance", .binding ⟨35, 46⟩ "Constructor"]
      (.body ⟨48, 161⟩ [
        .ite ⟨52, 159⟩
          (.unary ⟨56, 90⟩ "!" (.paren ⟨57, 90⟩
            (.binary ⟨58, 89⟩ "instanceof" (.ident ⟨58, 66⟩ "instance") (.ident ⟨78, 89⟩ "Constructor"))))
          (.block ⟨92, 159⟩ [
            .throw ⟨98, 155⟩ (.new ⟨104, 154⟩ (.ident ⟨108, 117⟩ "TypeError")
              [.string ⟨118, 153⟩
                ⟨"Cannot call a class as a function", "Cannot call a class as a function", false⟩] false)])
          none])),
    .exportList ⟨162, 207⟩ [⟨.word "_classCallCheck", .word "classCallCheck"⟩] none []]
  comments := []
  size := 208

/-- A parser that knows these modules. -/
def parsePassing (text : String) : Option Program :=
  if text = startingText then some startingProgram
  else if text = passingText then some passingProgram
  else if text = takingText then some takingProgram
  else if text = checkText then some checkProgram
  else none

/-- These modules, by the names under which they import each other. -/
def passingMap : ModuleMap where
  source id := if id = "/a" then takingText else if id = "/b" then passingText else startingText
  program id :=
    if id = "/a" then takingProgram else if id = "/b" then passingProgram
    else if id = "/c" then startingProgram else checkProgram
  target specifier _ := .module specifier

/-- The project of these modules. -/
def passingProject : Project Id where
  load id := .ok (passingMap.source id)
  resolve specifier _ := .ok (.module specifier)
  read code := (parsePassing code).map (·.items)
  helperText := checkText
  depth := 4

theorem mem_of_reaches_passing {id : String} (h : passingMap.Reaches ["/a"] id) :
    id ∈ ["/a", "/b", "/c"] :=
  ModuleMap.mem_of_reaches (by decide) (by decide) h

theorem namesValid_passing : ∀ id ∈ ["/a", "/b", "/c", helperModuleId],
    (passingMap.program id).NamesValid := by
  decide

theorem parse_passing : ∀ id ∈ ["/a", "/b", "/c"],
    parsePassing (passingMap.source id) = some (passingMap.program id) := by
  have hpassing : passingText ≠ startingText := by decide
  have htaking : takingText ≠ startingText ∧ takingText ≠ passingText := by decide
  simp [parsePassing, passingMap, hpassing, htaking]

theorem parse_checkText : parsePassing checkText = some (passingMap.program helperModuleId) := by
  have hcheck : checkText ≠ startingText ∧ checkText ≠ passingText ∧ checkText ≠ takingText := by
    decide
  have hhelper : helperModuleId ≠ "/a" ∧ helperModuleId ≠ "/b" ∧ helperModuleId ≠ "/c" := by decide
  simp [parsePassing, passingMap, hcheck, hhelper]

theorem has_passing : passingProject.Has passingMap parsePassing ["/a"] where
  read_eq := rfl
  load id _ := SatisfiesM_Id_eq.2 rfl
  parse_eq id hreach := parse_passing id (mem_of_reaches_passing hreach)
  analyzed id hreach defaultLocal := by
    have hmem := mem_of_reaches_passing hreach
    have hread : passingProject.read (passingMap.source id) = some (passingMap.program id).items := by
      simp [passingProject, parse_passing id hmem]
    rw [ModuleRecord.ofText, hread]
    simp only [List.mem_cons, List.not_mem_nil, or_false] at hmem
    rcases hmem with rfl | rfl | rfl <;> exact ⟨_, rfl⟩
  resolve_eq _ _ _ _ := rfl
  depth := ⟨["/a", "/b", "/c"], by decide, fun _ => mem_of_reaches_passing⟩

theorem acyclic_passing {id : String} (h : passingMap.Reaches ["/a"] id) :
    ¬ Relation.TransGen (fun a b => b ∈ passingMap.needs a) id id := by
  let rank (id : String) : Nat := if id = "/a" then 2 else if id = "/b" then 1 else 0
  have hneeds : ∀ a ∈ ["/a", "/b", "/c"], ∀ b ∈ passingMap.needs a,
      b ∈ ["/a", "/b", "/c"] ∧ rank b < rank a := by
    decide
  exact ModuleMap.not_transGen_of_rank hneeds (mem_of_reaches_passing h)

/-- The parts that these modules become. -/
def passingParts : List LinkedPart := passingMap.parts (passingMap.startOrder 4 ["/a"])

theorem claims_passing : ∀ p ∈ passingParts, "_classCallCheck" ∉ p.claims := by
  decide

theorem helpersOf_check : helpersOf (some ["classCallCheck"]) = [classCallCheck] ∧
    providedOf (some ["classCallCheck"]) = [classCallCheck] := by
  decide +kernel

/-- The helper has no new name beside these modules. -/
theorem helperRenames_passing {owned : List String}
    (howned : ∀ x, x ∈ owned ↔ ∃ p ∈ passingParts, x ∈ p.claims) :
    helperRenames owned ["_classCallCheck"] = [] := by
  have hfree : "_classCallCheck" ∉ owned := by
    rw [howned]
    rintro ⟨p, hp, hclaims⟩
    exact claims_passing p hp hclaims
  have hnone : ["_classCallCheck"].filter owned.contains = [] := by simp [hfree]
  rw [helperRenames, hnone]
  rfl

theorem read_checkText : passingProject.read checkText = some checkProgram.items := by
  simp only [passingProject, parse_checkText]
  rfl

theorem hasHelpers_passing :
    passingProject.HasHelpers passingMap parsePassing (some ["classCallCheck"]) passingParts where
  text_eq := rfl
  program_eq := parse_checkText
  read owned howned := by
    obtain ⟨hhelpers, hprovided⟩ := helpersOf_check
    have hnone : helperNewNames (some ["classCallCheck"]) owned = [] := by
      rw [helperNewNames, hhelpers]
      exact helperRenames_passing howned
    refine ⟨⟨[⟨0, 161⟩], ⟨162, 207⟩, by rw [hhelpers]; rfl, ?_⟩, fun hne => absurd hnone hne⟩
    rw [hhelpers, hprovided]
    exact read_checkText

/-- The helper module with its record. -/
def checkPart : LinkedPart :=
  helperPart checkText {
    exports := [("classCallCheck", "_classCallCheck")]
    declared := ["_classCallCheck"]
    edits := [⟨162, 207, ""⟩] }

theorem eq_checkPart {helper : LinkedPart} (h : HelperPart passingProject passingParts helper) :
    helper = checkPart := by
  have hrecord : ModuleRecord.ofText passingProject.read helperModuleId checkText helperDefaultLocal =
      .ok checkPart.record := by
    rw [ModuleRecord.ofText, read_checkText]
    rfl
  obtain ⟨owned, howned, hmodule⟩ := h.text_eq
  obtain ⟨first, hfirst, hsource⟩ := helperModule_text hmodule
  obtain rfl : first = checkPart.record := Except.ok.inj (hfirst.symm.trans hrecord)
  have hnone : helperRenames owned checkPart.record.declared = [] := helperRenames_passing howned
  rw [hnone, Text.rename_eq_self (fun _ _ hnew => by cases hnew)] at hsource
  have hsecond := helperModule_record hmodule
  rw [hsource] at hsecond
  have hsame : helper.record = checkPart.record := Except.ok.inj (hsecond.symm.trans hrecord)
  obtain ⟨id, source, defaultLocal, record, links⟩ := helper
  obtain rfl : id = helperModuleId := h.id_eq
  obtain rfl : defaultLocal = helperDefaultLocal := h.local_eq
  obtain rfl : links = [] := h.links_eq
  obtain rfl : source = checkText := hsource
  obtain rfl : record = checkPart.record := hsame
  rfl

theorem recordsApart_passing : passingProject.RecordsApart passingParts := by
  intro helper hhelper
  obtain rfl := eq_checkPart hhelper
  decide +kernel

/-- A name that a module passes on, all names of a module and a helper are linked as what they stand
for. -/
theorem linkEntries_preserves_passing : ∃ (g : Graph) (l : ChunkLayout) (renames : List (String × String)),
    ((linkEntries passingProject (fun entry => .ok entry.text) [⟨"/a"⟩]).run.run {} :
      Except BundleError (List String) × Graph) = (.ok ["/a"], g) ∧
      l.Presents passingProject passingMap parsePassing ["/a"] renames g ∧
      l.Preserves passingMap ["/a"] renames ∧ l.Denotes "z" (.declared "/c" "x") := by
  have hvalid (id : String) (h : passingMap.Reaches ["/a"] id ∨ id = helperModuleId) :
      (passingMap.program id).NamesValid := by
    refine namesValid_passing id ?_
    rcases h with hreach | rfl
    · exact List.mem_append_left [helperModuleId] (mem_of_reaches_passing hreach)
    · simp
  have hids : [Path.mk "/a"].map (fun entry => Except.ok entry.text) = ["/a"].map (.ok (ε := BundleError)) :=
    rfl
  have hlinked := linkEntries_preserves has_passing hids (by decide) hvalid (fun _ => acyclic_passing)
    hasHelpers_passing recordsApart_passing
  rw [Ensures, SatisfiesM_Id_eq] at hlinked
  have hrun : ((linkEntries passingProject (fun entry => .ok entry.text) [⟨"/a"⟩]).run.run {} :
      Except BundleError (List String) × Graph).1 = .ok ["/a"] := by
    decide +kernel
  generalize ((linkEntries passingProject (fun entry => .ok entry.text) [⟨"/a"⟩]).run.run {} :
    Except BundleError (List String) × Graph) = answer at hrun hlinked
  obtain ⟨found, g⟩ := answer
  obtain rfl : found = .ok ["/a"] := hrun
  obtain ⟨-, -, l, renames, hpresents, hpreserves⟩ := hlinked
  refine ⟨g, l, renames, rfl, hpresents, hpreserves, ?_⟩
  -- The name comes from the module that declares it, by way of the one that passes it on.
  have hpassed : passingMap.Resolves "/b" (some "y") (.declared "/c" "x") :=
    .imported (b := .named "x" "y") ⟨_, List.mem_cons_self, rfl, List.mem_cons_self⟩ rfl rfl
      List.mem_cons_self (.declared (by decide +kernel))
  have hbinds : passingMap.Binds "/a" "/b" (.named "y" "z") :=
    ⟨_, List.mem_cons_self, rfl, List.mem_cons_self⟩
  have hresolves : passingMap.Resolves "/a" (some "z") (.declared "/c" "x") :=
    .imported hbinds rfl rfl List.mem_cons_self hpassed
  obtain ⟨o, hone, hdenotes, -⟩ :=
    (hpreserves.imports "/a" "/b" _ "/b" ⟨"/a", List.mem_cons_self, .refl⟩ hbinds rfl).1
  rw [← (hone _).1 hresolves] at hdenotes
  exact hdenotes

end ModuleBuild
