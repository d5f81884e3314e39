import Mathlib
import ModuleBuild.Proofs.Linking.Missing

/-!
# What names of a chunk stand for

In a chunk a name is bound by the statements of a module, by an import that stays, or by a variable that
linking has added, which stands for another name or for an object with the exports of a module. Followed
through these variables, it stands for what the language says that it stands for in its module.

## Main definitions

* `ChunkLayout.Binds`, `ChunkLayout.Denotes` — what a name of a chunk is bound to, and what it stands for.
* `ChunkLayout.NamesApart` — no two modules bind a name, and no module binds one twice.

## Main statements

* `EntriesLinked.inOrder` — each import of a chunk leads to a part before.
* `ChunkLayout.Denotes.unique` — a name of a chunk stands for one thing.
-/

namespace ModuleBuild

open Linking Script

/-! ## Names of a chunk -/

/-- What a name of a chunk is bound to: to something of its own, or to what another name stands for. -/
inductive Meaning where
  | origin (o : Origin)
  | name (y : String)
  deriving DecidableEq, Inhabited, Repr

/-- What a binding of an import becomes in a chunk of these parts. -/
inductive ImportLink.Gives (parts : List LinkedPart) (link : ImportLink) (b : ImportBinding) : Meaning → Prop
  | outside (target_eq : link.target = .outside) :
    Gives parts link b (.origin (.outside link.record.source b.imported?))
  | named {name y : String} (imported : b.imported? = some name)
    (mem_aliases : (b.localName, y) ∈ link.aliases) : Gives parts link b (.name y)
  | whole {q : LinkedPart} (whole : b.imported? = none) (mem : q ∈ parts)
    (target_eq : link.target = .module q.id)
    (mem_aliases : (b.localName, q.linked.wholeObject) ∈ link.aliases) :
    Gives parts link b (.origin (.wholeModule q.id))

namespace ScopedModule

/-- The names of imports of the module that stay. -/
def kept (s : ScopedModule) : List String :=
  (s.part.links.filter (·.target = .outside)).flatMap fun link => link.record.bindings.map (·.localName)

/-- The names that the module brings to the top level of the chunk. -/
def names (s : ScopedModule) : List String :=
  s.bound ++ s.kept

/-- What a module binds a name to, in a chunk of these parts. -/
inductive Binds (parts : List LinkedPart) (s : ScopedModule) : String → Meaning → Prop
  | declared {x : String} (mem : x ∈ s.program.topNames) : Binds parts s x (.origin (.declared s.part.id x))
  | defaultValue (h : s.program.hasDefaultValue = true) :
    Binds parts s s.part.defaultLocal (.origin (.defaultValue s.part.id))
  | imported {link : ImportLink} {b : ImportBinding} {μ : Meaning} (mem : link ∈ s.part.links)
    (mem_bindings : b ∈ link.record.bindings) (gives : link.Gives parts b μ) :
    Binds parts s b.localName μ

end ScopedModule

namespace ChunkLayout

/-- What a name of a chunk is bound to. -/
def Binds (l : ChunkLayout) (x : String) (μ : Meaning) : Prop :=
  ∃ s ∈ l.modules, s.Binds (l.modules.map (·.part)) x μ

/-- What a name of a chunk stands for, followed through the variables that linking has added. -/
inductive Denotes (l : ChunkLayout) : String → Origin → Prop
  | origin {x : String} {o : Origin} (binds : l.Binds x (.origin o)) : Denotes l x o
  | follow {x y : String} {o : Origin} (binds : l.Binds x (.name y)) (denotes : Denotes l y o) : Denotes l x o

/-- No two modules bring the same name to a chunk, whether it is recorded or not, and the name of a default
value is no other name of its module. -/
structure NamesApart (l : ChunkLayout) : Prop where
  across : ∀ s ∈ l.modules, ∀ s' ∈ l.modules, s.part.id ≠ s'.part.id → ∀ x ∈ s.names, x ∉ s'.names
  defaultValue : ∀ s ∈ l.modules, s.program.hasDefaultValue = true →
    s.part.defaultLocal ∉ s.program.topNames ∧ s.part.defaultLocal ∉ s.program.importLocals

end ChunkLayout

/-! ## Imports of a chunk -/

/-- An import of a part leads out of the project and has no variables then, or to one of these parts, from
which its variables come. -/
structure ImportLink.LeadsInto (parts : List LinkedPart) (link : ImportLink) : Prop where
  outside : link.target = .outside → link.aliases = []
  module : ∀ d, link.target = .module d →
    ∃ q ∈ parts, q.id = d ∧ q.linked.aliases d link.record.bindings = .ok link.aliases

namespace LinkedModule

variable {linked : LinkedModule} {id : String} {bindings : List ImportBinding} {pairs : List (String × String)}

/-- Each binding has its value as its name, or a variable for it. -/
theorem aliases_ok (h : linked.aliases id bindings = .ok pairs) {b : ImportBinding} (hb : b ∈ bindings) :
    ∃ v, linked.value id b = .ok v ∧ (v = b.localName ∨ (b.localName, v) ∈ pairs) := by
  induction bindings generalizing pairs with
  | nil => cases hb
  | cons first rest ih =>
    obtain ⟨v, hv, h⟩ := bind_eq_ok.1 h
    obtain ⟨more, hmore, h⟩ := bind_eq_ok.1 h
    obtain rfl := Except.ok.inj h
    rcases List.mem_cons.1 hb with rfl | hb
    · refine ⟨v, hv, ?_⟩
      by_cases hsame : v = b.localName
      · exact .inl hsame
      · simp [hsame]
    · obtain ⟨w, hw, hor⟩ := ih hmore hb
      refine ⟨w, hw, hor.imp_right fun hmem => ?_⟩
      split
      · exact hmem
      · exact List.mem_cons_of_mem _ hmem

/-- The variables are those of bindings with another name than their value. -/
theorem mem_aliases (h : linked.aliases id bindings = .ok pairs) {x v : String} :
    (x, v) ∈ pairs ↔ ∃ b ∈ bindings, b.localName = x ∧ linked.value id b = .ok v ∧ v ≠ x := by
  induction bindings generalizing pairs with
  | nil =>
    obtain rfl := Except.ok.inj h
    simp
  | cons b rest ih =>
    obtain ⟨w, hw, h⟩ := bind_eq_ok.1 h
    obtain ⟨more, hmore, h⟩ := bind_eq_ok.1 h
    obtain rfl := Except.ok.inj h
    have hfirst : (b.localName = x ∧ linked.value id b = .ok v ∧ v ≠ x) ↔
        w ≠ b.localName ∧ (x, v) = (b.localName, w) := by
      rw [hw, Prod.mk.injEq, Except.ok.injEq]
      constructor
      · rintro ⟨rfl, rfl, hne⟩
        exact ⟨hne, rfl, rfl⟩
      · rintro ⟨hne, rfl, rfl⟩
        exact ⟨rfl, rfl, hne⟩
    rw [List.exists_mem_cons_iff, ← ih hmore, hfirst]
    by_cases hsame : w = b.localName
    · simp [hsame]
    · simp [hsame]

/-- The variables are named as bindings are. -/
theorem aliases_sublist (h : linked.aliases id bindings = .ok pairs) :
    (pairs.map (·.1)).Sublist (bindings.map (·.localName)) := by
  induction bindings generalizing pairs with
  | nil =>
    obtain rfl := Except.ok.inj h
    exact .slnil
  | cons first rest ih =>
    obtain ⟨v, hv, h⟩ := bind_eq_ok.1 h
    obtain ⟨more, hmore, h⟩ := bind_eq_ok.1 h
    obtain rfl := Except.ok.inj h
    split
    · exact (ih hmore).cons _
    · exact (ih hmore).cons_cons _

end LinkedModule

section InOrder

variable {m : Type → Type} {project : Project m} {facts : Project.Facts} {ids : List String} {g : Graph}
  {t : LinkTrace} {parts : List LinkedPart}

/-- Each import of a chunk leads to a part before, the helper module being the first one. -/
theorem EntriesLinked.inOrder (h : EntriesLinked project facts ids g t parts) {earlier later : List LinkedPart}
    {p : LinkedPart} (heq : parts = earlier ++ p :: later) {link : ImportLink} (hlink : link ∈ p.links) :
    link.LeadsInto earlier := by
  obtain ⟨before, hvisited⟩ := h.visited
  cases h.completed with
  | alone unused =>
    have hbehind := hvisited.holds.linked earlier p later heq
    have hsettled := hbehind.links link hlink
    refine ⟨hsettled.outside_aliases, fun d htarget => hsettled.module_aliases d htarget ?_⟩
    rintro rfl
    have hlate : link ∈ p.late := List.mem_filter.2 ⟨hlink, by simp [ImportLink.isHelper, htarget]⟩
    rw [unused p (heq ▸ by simp)] at hlate
    cases hlate
  | @withHelpers helper used part exported =>
    cases earlier with
    | nil =>
      obtain rfl := (List.cons.inj heq).1
      rw [part.links_eq] at hlink
      cases hlink
    | cons first earlier =>
      obtain ⟨rfl, htail⟩ := List.cons.inj heq
      obtain ⟨olds, rest, hparts, rfl, hrest⟩ := List.map_eq_append_iff.1 htail
      obtain ⟨old, news, rfl, rfl, -⟩ := List.map_eq_cons_iff.1 hrest
      obtain ⟨unsettled, hunsettled, rfl⟩ := List.mem_map.1 hlink
      have hbehind := (hvisited.holds.linked olds old news hparts).links unsettled hunsettled
      constructor
      · intro htarget
        rw [LinkedPart.target_settle] at htarget
        have hearly : unsettled.isHelper = false := by simp [ImportLink.isHelper, htarget]
        rw [ImportLink.settle, hearly]
        exact hbehind.outside_aliases htarget
      · intro d htarget
        rw [LinkedPart.target_settle] at htarget
        rw [LinkedPart.record_settle]
        by_cases hd : d = helperModuleId
        · have hhelper : unsettled.isHelper = true := by simp [ImportLink.isHelper, htarget, hd]
          have hlate : unsettled ∈ old.late := List.mem_filter.2 ⟨hunsettled, hhelper⟩
          obtain ⟨aliases, haliases⟩ := exported old (hparts ▸ by simp) unsettled hlate
          refine ⟨helper, List.mem_cons_self, hd ▸ part.id_eq, ?_⟩
          rw [hd, ImportLink.settle, if_pos hhelper, haliases]
          rfl
        · have hearly : unsettled.isHelper = false := by simp [ImportLink.isHelper, htarget, hd]
          obtain ⟨q, hq, rfl, haliases⟩ := hbehind.module_aliases d htarget hd
          refine ⟨LinkedPart.settle helper q, List.mem_cons_of_mem _ (List.mem_map_of_mem hq), rfl, ?_⟩
          have hsame : (LinkedPart.settle helper q).linked.exports = q.linked.exports := rfl
          rw [ImportLink.settle, hearly, LinkedModule.aliases_congr hsame]
          exact haliases

end InOrder

/-! ## One meaning for each name -/

section Unique

variable {parts : List LinkedPart} {link : ImportLink} {b : ImportBinding} {μ μ' : Meaning}

/-- A binding becomes one thing. -/
theorem ImportLink.Gives.unique (leads : link.LeadsInto parts)
    (nodup : (link.record.bindings.map (·.localName)).Nodup) (h : link.Gives parts b μ)
    (h' : link.Gives parts b μ') : μ = μ' := by
  have hone {v w : String} (hv : (b.localName, v) ∈ link.aliases) (hw : (b.localName, w) ∈ link.aliases) :
      v = w := by
    cases htarget : link.target with
    | outside =>
      rw [leads.outside htarget] at hv
      cases hv
    | module d =>
      obtain ⟨q, -, -, haliases⟩ := leads.module d htarget
      have hkeys := (LinkedModule.aliases_sublist haliases).nodup nodup
      exact (Prod.mk.inj (List.inj_on_of_nodup_map hkeys hv hw rfl)).2
  cases h with
  | outside target_eq =>
    cases h' with
    | outside => rfl
    | named imported mem_aliases | whole hwhole mem target_eq' mem_aliases =>
      rw [leads.outside target_eq] at mem_aliases
      cases mem_aliases
  | named imported mem_aliases =>
    cases h' with
    | outside target_eq =>
      rw [leads.outside target_eq] at mem_aliases
      cases mem_aliases
    | named imported' mem_aliases' => rw [hone mem_aliases mem_aliases']
    | whole hwhole =>
      rw [hwhole] at imported
      cases imported
  | whole hwhole mem target_eq mem_aliases =>
    cases h' with
    | outside target_eq' =>
      rw [target_eq] at target_eq'
      cases target_eq'
    | named imported =>
      rw [hwhole] at imported
      cases imported
    | whole _ _ target_eq' =>
      rw [target_eq] at target_eq'
      rw [ImportTarget.module.inj target_eq']

/-- What a binding becomes has its name in the chunk. -/
theorem ImportLink.Gives.mem_names {s : ScopedModule} (mem : link ∈ s.part.links)
    (mem_bindings : b ∈ link.record.bindings) (h : link.Gives parts b μ) : b.localName ∈ s.names := by
  have hintroduced {v : String} (hv : (b.localName, v) ∈ link.aliases) : b.localName ∈ s.names :=
    List.mem_append_left _ (List.mem_append_right _ (List.mem_append_right _
      (List.mem_flatMap.2 ⟨link, mem, List.mem_map_of_mem hv⟩)))
  cases h with
  | outside target_eq =>
    exact List.mem_append_right _ (List.mem_flatMap.2
      ⟨link, List.mem_filter.2 ⟨mem, by simpa using target_eq⟩, List.mem_map_of_mem mem_bindings⟩)
  | named imported mem_aliases => exact hintroduced mem_aliases
  | whole hwhole mem_parts target_eq mem_aliases => exact hintroduced mem_aliases

theorem ScopedModule.Binds.mem_names {s : ScopedModule} {x : String} (h : s.Binds parts x μ) :
    x ∈ s.names := by
  cases h with
  | declared mem => exact List.mem_append_left _ (List.mem_append_left _ mem)
  | defaultValue hdefault =>
    refine List.mem_append_left _ (List.mem_append_right _ (List.mem_append_left _ ?_))
    rw [if_pos hdefault]
    exact List.mem_singleton_self _
  | imported mem mem_bindings gives => exact gives.mem_names mem mem_bindings

/-- The imports of a module are those of its statements, and keep the rules about names. -/
structure ScopedModule.ImportsValid (s : ScopedModule) (parts : List LinkedPart) : Prop where
  locals_eq : (s.part.links.flatMap fun link => link.record.bindings.map (·.localName)) =
    s.program.importLocals
  nodup : s.program.importLocals.Nodup
  own : ∀ x ∈ s.program.importLocals, x ∉ s.program.topNames
  leads : ∀ link ∈ s.part.links, link.LeadsInto parts

/-- A module binds a name to one thing. -/
theorem ScopedModule.Binds.unique {s : ScopedModule} (valid : s.ImportsValid parts)
    (hdefault : s.program.hasDefaultValue = true →
      s.part.defaultLocal ∉ s.program.topNames ∧ s.part.defaultLocal ∉ s.program.importLocals)
    {x : String} (h : s.Binds parts x μ) (h' : s.Binds parts x μ') : μ = μ' := by
  have hlocal {link : ImportLink} {b : ImportBinding} (hlink : link ∈ s.part.links)
      (hb : b ∈ link.record.bindings) : b.localName ∈ s.program.importLocals := by
    rw [← valid.locals_eq]
    exact List.mem_flatMap.2 ⟨link, hlink, List.mem_map_of_mem hb⟩
  have hnodup := valid.nodup
  rw [← valid.locals_eq] at hnodup
  generalize hx : x = y at h'
  cases h with
  | declared mem =>
    cases h' with
    | declared mem' => rw [hx]
    | defaultValue h => exact absurd (hx ▸ mem) (hdefault h).1
    | imported hlink hb => exact absurd (hx ▸ mem) (valid.own _ (hlocal hlink hb))
  | defaultValue h =>
    cases h' with
    | declared mem => exact absurd (hx ▸ mem) (hdefault h).1
    | defaultValue => rfl
    | imported hlink hb => exact absurd (hx ▸ hlocal hlink hb) (hdefault h).2
  | @imported link b μ hlink hb gives =>
    cases h' with
    | declared mem => exact absurd (hx ▸ mem) (valid.own _ (hlocal hlink hb))
    | defaultValue h => exact absurd (hx ▸ hlocal hlink hb) (hdefault h).2
    | @imported link' b' μ' hlink' hb' gives' =>
      have hmem : b.localName ∈ link'.record.bindings.map (·.localName) := hx ▸ List.mem_map_of_mem hb'
      obtain rfl := eq_of_nodup_flatMap hnodup hlink hlink' (List.mem_map_of_mem hb) hmem
      have hone := (List.nodup_flatMap.1 hnodup).1 link hlink
      obtain rfl := List.inj_on_of_nodup_map hone hb hb' hx
      exact gives.unique (valid.leads link hlink) hone gives'

namespace ChunkLayout

variable {l : ChunkLayout} (apart : l.NamesApart) (ids_nodup : (l.modules.map (·.part.id)).Nodup)
  (valid : ∀ s ∈ l.modules, s.ImportsValid (l.modules.map (·.part)))
include apart ids_nodup valid

/-- A chunk binds a name to one thing. -/
theorem Binds.unique {x : String} (h : l.Binds x μ) (h' : l.Binds x μ') : μ = μ' := by
  obtain ⟨s, hs, h⟩ := h
  obtain ⟨s', hs', h'⟩ := h'
  obtain rfl : s = s' := by
    by_contra hne
    have hids : s.part.id ≠ s'.part.id := fun heq => hne (List.inj_on_of_nodup_map ids_nodup hs hs' heq)
    exact apart.across s hs s' hs' hids x h.mem_names h'.mem_names
  exact h.unique (valid s hs) (apart.defaultValue s hs) h'

/-- A name of a chunk stands for one thing. -/
theorem Denotes.unique {x : String} {o o' : Origin} (h : l.Denotes x o) (h' : l.Denotes x o') : o = o' := by
  induction h generalizing o' with
  | origin binds =>
    cases h' with
    | origin binds' => exact Meaning.origin.inj (Binds.unique apart ids_nodup valid binds binds')
    | follow binds' => cases Binds.unique apart ids_nodup valid binds binds'
  | follow binds denotes ih =>
    cases h' with
    | origin binds' => cases Binds.unique apart ids_nodup valid binds binds'
    | follow binds' denotes' =>
      obtain rfl := Meaning.name.inj (Binds.unique apart ids_nodup valid binds binds')
      exact ih denotes'

end ChunkLayout

end Unique

end ModuleBuild
