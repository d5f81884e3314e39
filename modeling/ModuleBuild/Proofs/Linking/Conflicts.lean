import Mathlib
import ModuleBuild.Proofs.Linking.HelperNames
import ModuleBuild.Proofs.Linking.Preservation
import ModuleBuild.Proofs.Text.Fresh

/-!
# Conflicts of names

A module claims the names that it declares, and the names of the variables that stand for its imports. A
binding of an import needs such a variable if its value has another name. So modules that declare different
names can still be in conflict: two of them give one name to their imports, or one of them gives an import
a name that the other one declares.

## Main definitions

* `ModuleMap.Declares`, `ModuleMap.Aliases` — the names that a module claims, for itself and for its
  imports.
* `ModuleMap.DeclaresApart` — no two modules declare a name.
* `ModuleMap.Clash` — a name of a variable for an import is claimed by two modules.

## Main statements

* `LinkedPart.LinkedBehind.mem_claims_iff` — the names that a linked module claims.
* `visitEntries_conflict` — if no two modules declare a name, visiting them fails with a conflict for a clash
  only, and never succeeds with one.
-/

namespace ModuleBuild

open Linking Script

/-! ## Names of variables -/

namespace ModuleMap

variable (M : ModuleMap) (ids order : List String)

/-- A module declares a name, by a statement or for its default value. -/
def Declares (id x : String) : Prop :=
  x ∈ (M.program id).plainNames ∨ (M.program id).hasDefaultValue = true ∧ x = defaultLocal order id

/-- A module imports something from another one under a name that its value does not have. -/
def Aliases (id x : String) : Prop :=
  ∃ specifier b d, M.Binds id specifier b ∧ M.target specifier id = .module d ∧ b.localName = x ∧
    ∀ name, b.imported? = some name → ∃ l, M.Exports d name l ∧ l.getD (defaultLocal order d) ≠ x

/-- No two modules declare a name, and no module declares one that default values get. -/
structure DeclaresApart : Prop where
  apart : ∀ id id', M.Reaches ids id → M.Reaches ids id' → id ≠ id' →
    ∀ x ∈ (M.program id).plainNames, x ∉ (M.program id').plainNames
  unnumbered : ∀ id, M.Reaches ids id → ∀ n : Nat, "_default" ++ toString n ∉ (M.program id).plainNames

/-- A name of a variable for an import of one module is claimed by another one. -/
def Clash (first second x : String) : Prop :=
  M.Reaches ids first ∧ M.Reaches ids second ∧ first ≠ second ∧
    (M.Aliases order first x ∧ (M.Declares order second x ∨ M.Aliases order second x) ∨
      M.Declares order first x ∧ M.Aliases order second x)

end ModuleMap

/-! ## Claims of linked modules -/

section Known

variable {m : Type → Type} [Monad m] {project : Project m} {M : ModuleMap}
  {parse : String → Option Program} {ids order : List String} (has : project.Has M parse ids)
  (valid : ∀ id, M.Reaches ids id → (M.program id).NamesValid)
  (noHelpers : ∀ id, M.Reaches ids id → ∀ i ∈ (M.program id).imports, M.target i.1 id ≠ .module helperModuleId)

include has in
theorem LinkedPart.LinkedBehind.mem_declared_iff {p : LinkedPart} {earlier : List LinkedPart}
    (h : p.LinkedBehind project (M.facts ids order) earlier)
    (hlocal : p.defaultLocal = ModuleMap.defaultLocal order p.id) (x : String) :
    x ∈ p.record.declared ↔ M.Declares order p.id x := by
  have hsource : p.source = M.source p.id := Except.ok.inj (h.analyzed.loaded h.reach)
  have hitems := has.ofItems_eq h.reach (hsource ▸ h.analyzed.record_eq)
  rw [ModuleRecord.mem_declared hitems, hlocal]
  rfl

include has valid in
/-- What a binding of an import stands for has another name just if the module exports it under one. -/
theorem LinkedPart.LinkedBehind.value_iff {q : LinkedPart} {earlier : List LinkedPart}
    (h : q.LinkedBehind project (M.facts ids order) earlier)
    (hlocal : q.defaultLocal = ModuleMap.defaultLocal order q.id) {b : ImportBinding}
    (hword : b.localName.toList.all continuesWord = true) :
    (∃ v, q.linked.value q.id b = .ok v ∧ v ≠ b.localName) ↔ ∀ name, b.imported? = some name →
      ∃ l, M.Exports q.id name l ∧ l.getD (ModuleMap.defaultLocal order q.id) ≠ b.localName := by
  cases himported : b.imported? with
  | none =>
    cases b with
    | named | byDefault => cases himported
    | wholeModule x => exact iff_of_true ⟨_, rfl, LinkedModule.wholeObject_ne hword⟩ fun _ h => nomatch h
  | some name =>
    have hlookup (v : String) : q.linked.value q.id b = .ok v ↔ ∃ l, M.Exports q.id name l ∧
        l.getD (ModuleMap.defaultLocal order q.id) = v := by
      rw [LinkedModule.value_eq_ok himported, show q.linked.exports = q.exports from rfl,
        h.exports_eq has (valid q.id h.reach),
        Program.lookup_exportsAs_eq_some (valid q.id h.reach).exports_nodup, hlocal]
      rfl
    simp only [hlookup, Option.some.injEq, forall_eq']
    constructor
    · rintro ⟨v, ⟨l, hexports, rfl⟩, hne⟩
      exact ⟨l, hexports, hne⟩
    · rintro ⟨l, hexports, hne⟩
      exact ⟨_, ⟨l, hexports, rfl⟩, hne⟩

include has valid noHelpers in
/-- A linked module claims the names that it declares, and those of its imports that their values do not
have. -/
theorem LinkedPart.LinkedBehind.mem_claims_iff {p : LinkedPart} {earlier : List LinkedPart}
    (h : p.LinkedBehind project (M.facts ids order) earlier)
    (hlocal : p.defaultLocal = ModuleMap.defaultLocal order p.id)
    (hearlier : ∀ q ∈ earlier, q.defaultLocal = ModuleMap.defaultLocal order q.id ∧
      ∃ before, q.LinkedBehind project (M.facts ids order) before) (x : String) :
    x ∈ p.claims ↔ M.Declares order p.id x ∨ M.Aliases order p.id x := by
  rw [LinkedPart.claims, List.mem_append, h.mem_declared_iff has hlocal]
  refine or_congr_right ?_
  have of : p.Of M ids parse [] := h.of_known has (valid p.id h.reach)
  constructor
  · intro hx
    obtain ⟨link, hlink, hx⟩ := List.mem_flatMap.1 hx
    obtain ⟨hlink, hearly⟩ := List.mem_filter.1 hlink
    obtain ⟨⟨_, v⟩, hpair, rfl⟩ := List.mem_map.1 hx
    have hbehind := h.links link hlink
    cases htarget : link.target with
    | outside => simp [hbehind.outside_aliases htarget] at hpair
    | module d =>
      have hd : d ≠ helperModuleId := by
        rintro rfl
        simp [ImportLink.isHelper, htarget] at hearly
      obtain ⟨q, hq, rfl, haliases⟩ := hbehind.module_aliases d htarget hd
      obtain ⟨b, hb, rfl, hvalue, hne⟩ := (LinkedModule.mem_aliases haliases).1 hpair
      obtain ⟨hqlocal, before, hqbehind⟩ := hearlier q hq
      have hbinds : M.Binds p.id link.record.source b :=
        ⟨_, of.imports_eq ▸ List.mem_map_of_mem hlink, rfl, hb⟩
      have hword := (valid p.id h.reach).words _ hbinds.mem_importLocals
      exact ⟨link.record.source, b, q.id, hbinds, (of.target_eq link hlink).trans htarget, rfl,
        (hqbehind.value_iff has valid hqlocal hword).1 ⟨v, hvalue, hne⟩⟩
  · rintro ⟨specifier, b, d, hbinds, htarget, rfl, hvalue⟩
    obtain ⟨link, hlink, rfl, hb⟩ := of.exists_link hbinds
    have hd : d ≠ helperModuleId := by
      rintro rfl
      obtain ⟨i, hi, hsource, -⟩ := hbinds
      exact noHelpers p.id h.reach i hi (hsource ▸ htarget)
    have hlinked : link.target = .module d := (of.target_eq link hlink).symm.trans htarget
    obtain ⟨q, hq, rfl, haliases⟩ := (h.links link hlink).module_aliases d hlinked hd
    obtain ⟨hqlocal, before, hqbehind⟩ := hearlier q hq
    have hword := (valid p.id h.reach).words _ hbinds.mem_importLocals
    obtain ⟨v, hv, hne⟩ := (hqbehind.value_iff has valid hqlocal hword).2 hvalue
    have hpair : (b.localName, v) ∈ link.aliases :=
      (LinkedModule.mem_aliases haliases).2 ⟨b, hb, rfl, hv, hne⟩
    refine List.mem_flatMap.2 ⟨link, List.mem_filter.2 ⟨hlink, ?_⟩, List.mem_map_of_mem hpair⟩
    simp [ImportLink.isHelper, hlinked, hd]

include has valid noHelpers in
/-- Each of some parts that are linked in order claims these names. -/
theorem LinkedInOrder.mem_claims_iff {parts : List LinkedPart}
    (h : LinkedInOrder project (M.facts ids order) parts)
    (hlocal : ∀ p ∈ parts, p.defaultLocal = ModuleMap.defaultLocal order p.id) {p : LinkedPart}
    (hp : p ∈ parts) (x : String) : x ∈ p.claims ↔ M.Declares order p.id x ∨ M.Aliases order p.id x := by
  obtain ⟨earlier, later, heq, hbehind⟩ := h.of_mem hp
  refine hbehind.mem_claims_iff has valid noHelpers (hlocal p hp) (fun q hq => ?_) x
  have hq : q ∈ parts := heq ▸ List.mem_append_left _ hq
  obtain ⟨before, -, -, hqbehind⟩ := h.of_mem hq
  exact ⟨hlocal q hq, before, hqbehind⟩

/-! ## Visiting -/

omit [Monad m] in
/-- Modules that declare different names claim one name only as a clash. -/
theorem ModuleMap.DeclaresApart.clash (apart : M.DeclaresApart ids) {first second x : String}
    (hfirst : M.Reaches ids first) (hsecond : M.Reaches ids second) (hne : first ≠ second)
    (horder : second ∈ order) (h : M.Declares order first x ∨ M.Aliases order first x)
    (h' : M.Declares order second x ∨ M.Aliases order second x) : M.Clash ids order first second x := by
  refine ⟨hfirst, hsecond, hne, ?_⟩
  rcases h with hdeclares | haliases
  · rcases h' with hdeclares' | haliases'
    · exfalso
      rcases hdeclares with hplain | ⟨-, rfl⟩
      · rcases hdeclares' with hplain' | ⟨-, rfl⟩
        · exact apart.apart first second hfirst hsecond hne x hplain hplain'
        · exact apart.unnumbered first hfirst _ hplain
      · rcases hdeclares' with hplain' | ⟨-, hsame⟩
        · exact apart.unnumbered second hsecond _ hplain'
        · have hplaces := Nat.repr_inj.mp ((String.append_right_inj "_default").mp hsame)
          exact hne ((List.idxOf_inj horder).mp (Nat.succ.inj hplaces).symm).symm
    · exact .inr ⟨hdeclares, haliases'⟩
  · exact .inl ⟨haliases, h'⟩

include has valid noHelpers in
/-- Where claiming a name fails, two modules clash, if no two of them declare a name. -/
theorem LinkConflict.clash (apart : M.DeclaresApart ids) (nodup : order.Nodup) {parts : List LinkedPart}
    {started : List String} {p q : LinkedPart} {x : String}
    (h : LinkConflict project (M.facts ids order) parts started p q x) : M.Clash ids order p.id q.id x := by
  have hstarted : started <+: order := h.start _ rfl
  have hlocal := fun p hp => (h.numbered p hp).defaultLocal_eq hstarted nodup
  have hearlier : ∀ r ∈ parts, r.defaultLocal = ModuleMap.defaultLocal order r.id ∧
      ∃ before, r.LinkedBehind project (M.facts ids order) before := by
    intro r hr
    obtain ⟨before, -, -, hbehind⟩ := h.linked.of_mem hr
    exact ⟨hlocal r hr, before, hbehind⟩
  have hclaims := (h.linked.mem_claims_iff has valid noHelpers hlocal h.mem x).1 h.claims
  have hclaims' := (h.linked_new.mem_claims_iff has valid noHelpers
    (h.numbered_new.defaultLocal_eq hstarted nodup) hearlier x).1 h.claims_new
  obtain ⟨n, hn, -⟩ := h.numbered_new.mono hstarted
  obtain ⟨before, -, -, hbehind⟩ := h.linked.of_mem h.mem
  exact apart.clash hbehind.reach h.linked_new.reach h.ne (List.mem_of_getElem? hn) hclaims hclaims'

include has valid noHelpers in
/-- Where all entries are visited, no modules clash: each name has one owner. -/
theorem EntriesVisited.not_clash {g : Graph} {t : LinkTrace}
    (h : EntriesVisited project (M.facts ids (M.startOrder project.depth ids)) ids g t)
    (first second x : String) : ¬ M.Clash ids (M.startOrder project.depth ids) first second x := by
  rintro ⟨hfirst, hsecond, hdiffer, hclaims⟩
  have hstarted : t.started = M.startOrder project.depth ids := h.start _ rfl
  have hbehind : t.started <+: M.startOrder project.depth ids := hstarted ▸ List.prefix_refl _
  have hlocal := fun p hp =>
    (h.holds.numbered p hp).defaultLocal_eq hbehind (ModuleMap.nodup_startOrder project.depth)
  obtain ⟨p, hp, rfl⟩ := h.exists_part has hfirst
  obtain ⟨q, hq, rfl⟩ := h.exists_part has hsecond
  have hclaimed {p : LinkedPart} (hp : p ∈ t.parts) :=
    h.holds.linked.mem_claims_iff has valid noHelpers hlocal hp x
  have hboth : x ∈ p.claims ∧ x ∈ q.claims := by
    rw [hclaimed hp, hclaimed hq]
    tauto
  have hpowner := (h.holds.owner_iff x p.id).2 ⟨p, hp, rfl, hboth.1⟩
  have hqowner := (h.holds.owner_iff x q.id).2 ⟨q, hq, rfl, hboth.2⟩
  exact hdiffer (Option.some.inj (hpowner.symm.trans hqowner))

variable [LawfulMonad m]

include has valid noHelpers in
/-- If no two modules declare a name, visiting them succeeds only without a clash, and fails because of a
missing export, or with the conflict of a clash. -/
theorem visitEntries_conflict {idOf : Path → Except BundleError String} {entries : List Path}
    (hids : entries.map idOf = ids.map .ok) (hne : helperModuleId ∉ ids)
    (acyclic : ∀ id, M.Reaches ids id → ¬ Relation.TransGen (fun a b => b ∈ M.needs a) id id)
    (apart : M.DeclaresApart ids) :
    Ensures (visitEntries project idOf entries) {}
      (fun found _ => found = ids ∧
        ∀ first second x, ¬ M.Clash ids (M.startOrder project.depth ids) first second x)
      (fun e => (∃ d name, e = .missingExport d name ∧ M.Misses ids d name) ∨
        ∃ first second x, e = .nameConflict x first second ∧
          M.Clash ids (M.startOrder project.depth ids) first second x) := by
  have hready : EntriesReady project (M.facts ids (M.startOrder project.depth ids)) idOf entries :=
    ModuleMap.entriesReady hids hne
  refine (visitEntries_ensures has.knows hready).mono ?_ ?_
  · rintro found g ⟨-, rfl, t, hvisited⟩
    rw [filterMap_toOption_idOf hids] at hvisited ⊢
    exact ⟨rfl, hvisited.not_clash has valid noHelpers⟩
  · rintro e (failure | ⟨entry, hentry, hid⟩)
    · rcases failure.misses_or_conflict has valid acyclic with
        hmisses | ⟨parts, started, p, q, name, rfl, conflict⟩
      · exact .inl hmisses
      · exact .inr ⟨p.id, q.id, name, rfl,
          conflict.clash has valid noHelpers apart (ModuleMap.nodup_startOrder project.depth)⟩
    · have : Except.error e ∈ ids.map (Except.ok (ε := BundleError)) :=
        hids ▸ hid ▸ List.mem_map_of_mem hentry
      simp at this

end Known

/-! ## Two modules that import one name -/

/-- A module that runs two others. -/
def meetingText : String := "import \"/a\";\nimport \"/b\";"

/-- The statements of this module. -/
def meetingProgram : Program where
  hashbang := none
  body := [
    .importModule ⟨0, 12⟩ { specifiers := none, source := ⟨"/a", "/a", false⟩ },
    .importModule ⟨13, 25⟩ { specifiers := none, source := ⟨"/b", "/b", false⟩ }]
  comments := []
  size := 25

/-- A parser that knows this module and those with a name that is passed on. -/
def parseMeeting (text : String) : Option Program :=
  if text = meetingText then some meetingProgram else parsePassing text

/-- Two modules pass one name of a third one on, and a fourth one runs both. -/
def meetingMap : ModuleMap where
  source id :=
    if id = "/m" then meetingText else if id = "/c" then startingText else passingText
  program id :=
    if id = "/m" then meetingProgram else if id = "/c" then startingProgram else passingProgram
  target specifier _ := .module specifier

/-- The project of these modules. -/
def meetingProject : Project Id where
  load id := .ok (meetingMap.source id)
  resolve specifier _ := .ok (.module specifier)
  read code := (parseMeeting code).map (·.items)
  helperText := checkText
  depth := 5

/-- What visiting these modules gives. -/
def meetingVisit : Except BundleError (List String) × Graph :=
  (visitEntries meetingProject (fun entry => .ok entry.text) [⟨"/m"⟩]).run.run {}

theorem mem_of_reaches_meeting {id : String} (h : meetingMap.Reaches ["/m"] id) :
    id ∈ ["/m", "/a", "/b", "/c"] :=
  ModuleMap.mem_of_reaches (by decide) (by decide) h

theorem parse_meeting : ∀ id ∈ ["/m", "/a", "/b", "/c"],
    parseMeeting (meetingMap.source id) = some (meetingMap.program id) := by
  have htexts : passingText ≠ startingText ∧ passingText ≠ meetingText ∧ startingText ≠ meetingText := by
    decide
  simp [parseMeeting, parsePassing, meetingMap, htexts]

theorem has_meeting : meetingProject.Has meetingMap parseMeeting ["/m"] where
  read_eq := rfl
  load id _ := SatisfiesM_Id_eq.2 rfl
  parse_eq id hreach := parse_meeting id (mem_of_reaches_meeting hreach)
  analyzed id hreach defaultLocal := by
    have hmem := mem_of_reaches_meeting hreach
    have hread : meetingProject.read (meetingMap.source id) = some (meetingMap.program id).items := by
      simp [meetingProject, parse_meeting id hmem]
    rw [ModuleRecord.ofText, hread]
    simp only [List.mem_cons, List.not_mem_nil, or_false] at hmem
    rcases hmem with rfl | rfl | rfl | rfl <;> exact ⟨_, rfl⟩
  resolve_eq _ _ _ _ := rfl
  depth := ⟨["/m", "/a", "/b", "/c"], by decide, fun _ => mem_of_reaches_meeting⟩

theorem acyclic_meeting {id : String} (h : meetingMap.Reaches ["/m"] id) :
    ¬ Relation.TransGen (fun a b => b ∈ meetingMap.needs a) id id := by
  let rank (id : String) : Nat := if id = "/m" then 2 else if id = "/c" then 0 else 1
  have hneeds : ∀ a ∈ ["/m", "/a", "/b", "/c"], ∀ b ∈ meetingMap.needs a,
      b ∈ ["/m", "/a", "/b", "/c"] ∧ rank b < rank a := by
    decide
  exact ModuleMap.not_transGen_of_rank hneeds (mem_of_reaches_meeting h)

theorem namesValid_meeting {id : String} (h : meetingMap.Reaches ["/m"] id) :
    (meetingMap.program id).NamesValid := by
  have hall : ∀ id ∈ ["/m", "/a", "/b", "/c"], (meetingMap.program id).NamesValid := by
    decide
  exact hall id (mem_of_reaches_meeting h)

theorem noHelpers_meeting {id : String} (h : meetingMap.Reaches ["/m"] id) :
    ∀ i ∈ (meetingMap.program id).imports, meetingMap.target i.1 id ≠ .module helperModuleId := by
  have hall : ∀ id ∈ ["/m", "/a", "/b", "/c"], ∀ i ∈ (meetingMap.program id).imports,
      meetingMap.target i.1 id ≠ .module helperModuleId := by
    decide
  exact hall id (mem_of_reaches_meeting h)

/-- Only one of these modules declares anything. -/
theorem topNames_meeting : ∀ id ∈ ["/m", "/a", "/b", "/c"], ∀ x ∈ (meetingMap.program id).topNames,
    id = "/c" ∧ x = "x" := by
  decide

theorem topNames_apart_meeting {id id' x : String} (h : meetingMap.Reaches ["/m"] id)
    (h' : meetingMap.Reaches ["/m"] id') (hne : id ≠ id') (hx : x ∈ (meetingMap.program id).topNames) :
    x ∉ (meetingMap.program id').topNames := fun hx' =>
  hne ((topNames_meeting id (mem_of_reaches_meeting h) x hx).1.trans
    (topNames_meeting id' (mem_of_reaches_meeting h') x hx').1.symm)

theorem topNames_unnumbered_meeting {id : String} (h : meetingMap.Reaches ["/m"] id) (n : Nat) :
    "_default" ++ toString n ∉ (meetingMap.program id).topNames := by
  intro hx
  have hone := (topNames_meeting id (mem_of_reaches_meeting h) _ hx).2
  have hhead := congrArg (fun s => s.toList.head?) hone
  simp at hhead

theorem declaresApart_meeting : meetingMap.DeclaresApart ["/m"] where
  apart _ _ hreach hreach' hne _ hx hx' :=
    topNames_apart_meeting hreach hreach' hne (Program.plainNames_subset _ hx)
      (Program.plainNames_subset _ hx')
  unnumbered _ hreach n hx := topNames_unnumbered_meeting hreach n (Program.plainNames_subset _ hx)

theorem meetingVisit_conflict : meetingVisit.1 = .error (.nameConflict "y" "/a" "/b") := by
  decide +kernel

/-- The two modules that import one name under one other name clash. -/
theorem visitEntries_conflict_meeting :
    meetingVisit.1 = .error (.nameConflict "y" "/a" "/b") ∧
      meetingMap.Clash ["/m"] (meetingMap.startOrder 5 ["/m"]) "/a" "/b" "y" := by
  refine ⟨meetingVisit_conflict, ?_⟩
  have hall : Ensures (visitEntries meetingProject (fun entry => .ok entry.text) [⟨"/m"⟩]) {} _ _ :=
    visitEntries_conflict has_meeting (fun _ => namesValid_meeting) (fun _ => noHelpers_meeting) rfl
      (by decide) (fun _ => acyclic_meeting) declaresApart_meeting
  rw [Ensures, SatisfiesM_Id_eq] at hall
  have hrun := meetingVisit_conflict
  unfold meetingVisit at hrun
  rw [hrun] at hall
  rcases hall with ⟨d, name, herror, -⟩ | ⟨first, second, x, herror, hclash⟩
  · cases herror
  · obtain ⟨rfl, rfl, rfl⟩ := BundleError.nameConflict.inj herror
    exact hclash

/-- Modules may be in conflict of which no two bind one name by a statement of their own. -/
theorem conflict_of_topNames_apart :
    meetingProject.Has meetingMap parseMeeting ["/m"] ∧
    (∀ id, meetingMap.Reaches ["/m"] id → (meetingMap.program id).NamesValid) ∧
    (∀ id, meetingMap.Reaches ["/m"] id → ¬ Relation.TransGen (fun a b => b ∈ meetingMap.needs a) id id) ∧
    (∀ id, meetingMap.Reaches ["/m"] id → ∀ i ∈ (meetingMap.program id).imports,
      meetingMap.target i.1 id ≠ .module helperModuleId) ∧
    (∀ id id', meetingMap.Reaches ["/m"] id → meetingMap.Reaches ["/m"] id' → id ≠ id' →
      ∀ x ∈ (meetingMap.program id).topNames, x ∉ (meetingMap.program id').topNames) ∧
    (∀ id, meetingMap.Reaches ["/m"] id → ∀ n : Nat,
      "_default" ++ toString n ∉ (meetingMap.program id).topNames) ∧
    meetingVisit.1 = .error (.nameConflict "y" "/a" "/b") :=
  ⟨has_meeting, fun _ => namesValid_meeting, fun _ => acyclic_meeting, fun _ => noHelpers_meeting,
    fun _ _ h h' hne _ => topNames_apart_meeting h h' hne, fun _ => topNames_unnumbered_meeting,
    meetingVisit_conflict⟩

end ModuleBuild
