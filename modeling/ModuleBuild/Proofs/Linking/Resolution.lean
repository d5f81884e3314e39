import Mathlib
import ModuleBuild.Proofs.Helper.Written
import ModuleBuild.Proofs.Linking.Scope

/-!
# Where names come from

The language says what a name of a module stands for: something that the module declares, or by an import
what another module exports, which may be an import of that module again. This is said here about modules
as they are written, before anything is linked.

## Main definitions

* `Program.imports`, `Program.exports` — the imports and exports of a program.
* `Program.NamesValid` — the rules of modules about names are kept.
* `Origin` — what a name stands for in the end.
* `ModuleMap`, `ModuleMap.Resolves` — modules as they are written, and what their names stand for.

## Main statements

* `ModuleRecord.imports_ofItems`, `ModuleRecord.exports_ofItems` — the record of a module says what its
  statements say.
* `ModuleMap.Resolves.unique` — a name stands for one thing.
-/

namespace ModuleBuild

open Linking Script

/-! ## Imports and exports of programs -/

/-- In a row of lists without doubled values, each value is in one of the lists. -/
theorem eq_of_nodup_flatMap {α β : Type} {f : α → List β} {xs : List α} (h : (xs.flatMap f).Nodup) {x y : α}
    (hx : x ∈ xs) (hy : y ∈ xs) {b : β} (hbx : b ∈ f x) (hby : b ∈ f y) : x = y := by
  by_contra hne
  have : Std.Symm (Function.onFun List.Disjoint f) := ⟨fun _ _ hd => hd.symm⟩
  exact (List.nodup_flatMap.1 h).2.forall hx hy hne hbx hby

namespace Script

/-- The specifier and the bindings of an import. -/
def ModuleItem.imported? : ModuleItem → Option (String × List ImportBinding)
  | .importFrom _ source bindings => some (source, bindings)
  | _ => none

/-- The names that a statement exports, each with the top-level name behind it; none for a default value
without a name. -/
def ModuleItem.exported : ModuleItem → List (String × Option String)
  | .exportDefault _ _ name => [("default", name)]
  | .exportDeclaration _ _ (some names) => names.map fun name => (name, some name)
  | .exportList _ names none => names.map fun (l, exported) => (exported, some l)
  | _ => []

namespace Program

/-- The specifiers and bindings of the imports. -/
def imports (p : Program) : List (String × List ImportBinding) :=
  p.items.filterMap (·.imported?)

/-- The names that imports bind. -/
def importLocals (p : Program) : List String :=
  p.imports.flatMap fun i => i.2.map (·.localName)

/-- The exported names, each with the top-level name behind it; none for a default value without a
name. -/
def exports (p : Program) : List (String × Option String) :=
  p.items.flatMap (·.exported)

/-- The rules of modules about names: imports bind words, each once and none that the module declares, and
exports are named once and stand for names that the module binds. -/
structure NamesValid (p : Program) : Prop where
  words : ∀ x ∈ p.importLocals, x.toList.all continuesWord = true
  imports_nodup : p.importLocals.Nodup
  imports_own : ∀ x ∈ p.importLocals, x ∉ p.topNames
  exports_nodup : (p.exports.map (·.1)).Nodup
  exports_bound : ∀ e ∈ p.exports, ∀ x ∈ e.2, x ∈ p.topNames ∨ x ∈ p.importLocals

instance (p : Program) : Decidable p.NamesValid :=
  decidable_of_iff ((∀ x ∈ p.importLocals, x.toList.all continuesWord = true) ∧ p.importLocals.Nodup ∧
      (∀ x ∈ p.importLocals, x ∉ p.topNames) ∧ (p.exports.map (·.1)).Nodup ∧
      ∀ e ∈ p.exports, ∀ x ∈ e.2, x ∈ p.topNames ∨ x ∈ p.importLocals)
    ⟨fun ⟨words, nodup, own, exports, bound⟩ => ⟨words, nodup, own, exports, bound⟩,
      fun ⟨words, nodup, own, exports, bound⟩ => ⟨words, nodup, own, exports, bound⟩⟩

/-- The exports, each with the name that its value gets. -/
def exportsAs (p : Program) (nameOf : Option String → String) : List (String × String) :=
  p.exports.map fun e => (e.1, nameOf e.2)

theorem lastOfEach_exportsAs {p : Program} (nodup : (p.exports.map (·.1)).Nodup)
    (nameOf : Option String → String) : lastOfEach (p.exportsAs nameOf) = p.exportsAs nameOf := by
  refine lastOfEach_of_nodup ?_
  rw [exportsAs, List.map_map]
  exact nodup

theorem lookup_exportsAs_eq_some {p : Program} (nodup : (p.exports.map (·.1)).Nodup)
    {nameOf : Option String → String} {name y : String} :
    (p.exportsAs nameOf).lookup name = some y ↔ ∃ l, (name, l) ∈ p.exports ∧ nameOf l = y := by
  constructor
  · intro h
    obtain ⟨e, he, heq⟩ := List.mem_map.1 (mem_of_lookup h)
    obtain ⟨rfl, rfl⟩ := Prod.mk.inj heq
    exact ⟨e.2, he, rfl⟩
  · rintro ⟨l, hl, rfl⟩
    refine lookup_of_mem ?_ (List.mem_map_of_mem (f := fun e => (e.1, nameOf e.2)) hl)
    rw [exportsAs, List.map_map]
    exact nodup

theorem lookup_exportsAs_eq_none {p : Program} {nameOf : Option String → String} {name : String} :
    (p.exportsAs nameOf).lookup name = none ↔ ∀ l, (name, l) ∉ p.exports := by
  rw [List.lookup_eq_none_iff]
  simp only [exportsAs, List.forall_mem_map, bne_iff_ne]
  constructor
  · exact fun h l hl => h _ hl rfl
  · rintro h ⟨key, l⟩ hmem rfl
    exact h l hmem

theorem mem_importLocals {p : Program} {x : String} :
    x ∈ p.importLocals ↔ ∃ i ∈ p.imports, ∃ b ∈ i.2, b.localName = x := by
  simp [importLocals]

/-- Only a default value without a name is exported without one. -/
theorem hasDefaultValue_of_exports {p : Program} {name : String} (h : (name, none) ∈ p.exports) :
    p.hasDefaultValue = true := by
  obtain ⟨item, hitem, h⟩ := List.mem_flatMap.1 h
  obtain ⟨n, hn, rfl⟩ := List.mem_map.1 hitem
  refine List.any_eq_true.2 ⟨n, hn, ?_⟩
  unfold ModuleItem.ofNode at h
  split at h
  case h_2 span value =>
    obtain ⟨-, hname⟩ := Prod.mk.inj (List.mem_singleton.1 h)
    simp [Node.hasDefaultValue, ← hname]
  case h_3 span d =>
    cases hnames : plainNames? d <;> simp [ModuleItem.exported, hnames] at h
  case h_4 span specifiers from? attributes =>
    cases from? <;> simp [ModuleItem.exported] at h
  all_goals cases h

/-- A default value without a name is exported without one. -/
theorem exports_of_hasDefaultValue {p : Program} (h : p.hasDefaultValue = true) :
    ("default", none) ∈ p.exports := by
  obtain ⟨n, hn, h⟩ := List.any_eq_true.1 h
  refine List.mem_flatMap.2 ⟨_, List.mem_map_of_mem hn, ?_⟩
  unfold Node.hasDefaultValue at h
  split at h
  · rename_i span value
    have hname : declarationName value = none := by simpa using h
    simp [ModuleItem.ofNode, ModuleItem.exported, hname]
  · cases h

end Program

end Script

/-! ## Records of programs -/

namespace ModuleRecord

variable {id defaultLocal : String} {source : List Char} {record : ModuleRecord}

theorem imports_ofItem {item : ModuleItem} (h : ofItem id source defaultLocal item = .ok record) :
    record.imports.map (fun r => (r.source, r.bindings)) = item.imported?.toList ∧
      record.exports = item.exported.map fun e => (e.1, e.2.getD defaultLocal) := by
  unfold ofItem at h
  split at h
  all_goals cases h
  all_goals simp [ModuleItem.imported?, ModuleItem.exported]

/-- The record of a module has the imports of its statements. -/
theorem imports_ofItems {items : List ModuleItem}
    (h : ofItems id source defaultLocal items = .ok record) :
    record.imports.map (fun r => (r.source, r.bindings)) = items.filterMap (·.imported?) := by
  induction items generalizing record with
  | nil =>
    obtain rfl := Except.ok.inj h
    rfl
  | cons item rest ih =>
    obtain ⟨own, hown, h⟩ := bind_eq_ok.1 h
    obtain ⟨more, hmore, h⟩ := bind_eq_ok.1 h
    obtain rfl := Except.ok.inj h
    rw [append, List.map_append, (imports_ofItem hown).1, ih hmore]
    cases hitem : item.imported? <;> simp [hitem]

/-- The record of a module has the exports of its statements, with a name for a default value. -/
theorem exports_ofItems {items : List ModuleItem}
    (h : ofItems id source defaultLocal items = .ok record) :
    record.exports = (items.flatMap (·.exported)).map fun e => (e.1, e.2.getD defaultLocal) := by
  induction items generalizing record with
  | nil =>
    obtain rfl := Except.ok.inj h
    rfl
  | cons item rest ih =>
    obtain ⟨own, hown, h⟩ := bind_eq_ok.1 h
    obtain ⟨more, hmore, h⟩ := bind_eq_ok.1 h
    obtain rfl := Except.ok.inj h
    rw [append, (imports_ofItem hown).2, ih hmore, List.flatMap_cons, List.map_append]

end ModuleRecord

/-! ## Resolution -/

/-- What a name stands for in the end. -/
inductive Origin where
  /-- What a module declares under a name. -/
  | declared (module name : String)
  /-- The default value of a module, which has no name. -/
  | defaultValue (module : String)
  /-- What is imported from outside of the project under a name, or all that is there. -/
  | outside (specifier : String) (imported : Option String)
  /-- The object of all exports of a module. -/
  | wholeModule (module : String)
  deriving DecidableEq, Inhabited, Repr

/-- The modules of a project as they are written, and where their imports lead. -/
structure ModuleMap where
  source : String → String
  program : String → Program
  target : (specifier importer : String) → ImportTarget

namespace ModuleMap

variable (M : ModuleMap)

/-- An import of a module creates a binding. -/
def Binds (id specifier : String) (b : ImportBinding) : Prop :=
  ∃ i ∈ (M.program id).imports, i.1 = specifier ∧ b ∈ i.2

/-- A module exports one of its names, or the default value that has none. -/
def Exports (id name : String) (l : Option String) : Prop :=
  (name, l) ∈ (M.program id).exports

/-- What a name of a module stands for, all imports followed. The default value of a module has no
name. -/
inductive Resolves : (id : String) → Option String → Origin → Prop
  | defaultValue (id : String) : Resolves id none (.defaultValue id)
  | declared {id x : String} (own : x ∉ (M.program id).importLocals) :
    Resolves id (some x) (.declared id x)
  | outside {id specifier : String} {b : ImportBinding} (binds : M.Binds id specifier b)
    (target_eq : M.target specifier id = .outside) :
    Resolves id (some b.localName) (.outside specifier b.imported?)
  | wholeModule {id specifier d : String} {b : ImportBinding} (binds : M.Binds id specifier b)
    (target_eq : M.target specifier id = .module d) (whole : b.imported? = none) :
    Resolves id (some b.localName) (.wholeModule d)
  | imported {id specifier d name : String} {b : ImportBinding} {l : Option String} {o : Origin}
    (binds : M.Binds id specifier b) (target_eq : M.target specifier id = .module d)
    (imported : b.imported? = some name) (exports : M.Exports d name l) (resolves : Resolves d l o) :
    Resolves id (some b.localName) o

variable {M} {id : String} {b b' : ImportBinding}

theorem Binds.mem_importLocals {specifier : String} (h : M.Binds id specifier b) :
    b.localName ∈ (M.program id).importLocals := by
  obtain ⟨i, hi, -, hb⟩ := h
  exact Program.mem_importLocals.2 ⟨i, hi, b, hb, rfl⟩

/-- Bindings of one name are one binding. -/
theorem Binds.unique {specifier specifier' : String} (nodup : (M.program id).importLocals.Nodup)
    (h : M.Binds id specifier b) (h' : M.Binds id specifier' b') (hlocal : b.localName = b'.localName) :
    specifier = specifier' ∧ b = b' := by
  obtain ⟨i, hi, rfl, hb⟩ := h
  obtain ⟨i', hi', rfl, hb'⟩ := h'
  have hmem : b.localName ∈ i'.2.map (·.localName) := hlocal ▸ List.mem_map_of_mem hb'
  obtain rfl := eq_of_nodup_flatMap nodup hi hi' (List.mem_map_of_mem hb) hmem
  exact ⟨rfl, List.inj_on_of_nodup_map ((List.nodup_flatMap.1 nodup).1 i hi) hb hb' hlocal⟩

theorem Exports.unique {name : String} {l l' : Option String}
    (nodup : ((M.program id).exports.map (·.1)).Nodup) (h : M.Exports id name l)
    (h' : M.Exports id name l') : l = l' :=
  (Prod.mk.inj (List.inj_on_of_nodup_map nodup h h' rfl)).2

/-- A name that no import binds stands for what the module declares. -/
theorem Resolves.of_own {x : String} {o : Origin} (own : x ∉ (M.program id).importLocals)
    (h : M.Resolves id (some x) o) : o = .declared id x := by
  generalize hl : some x = l at h
  cases h with
  | defaultValue => cases hl
  | declared => rw [Option.some.inj hl]
  | outside binds | wholeModule binds | imported binds =>
    exact absurd (Option.some.inj hl ▸ binds.mem_importLocals) own

/-- A name that an import binds stands for what the import takes. -/
theorem Resolves.of_binds {specifier : String} {o : Origin} (nodup : (M.program id).importLocals.Nodup)
    (binds : M.Binds id specifier b) (h : M.Resolves id (some b.localName) o) :
    match M.target specifier id, b.imported? with
    | .outside, _ => o = .outside specifier b.imported?
    | .module d, none => o = .wholeModule d
    | .module d, some name => ∃ l, M.Exports d name l ∧ M.Resolves d l o := by
  generalize hl : some b.localName = l at h
  cases h with
  | defaultValue => cases hl
  | declared own => exact absurd (Option.some.inj hl ▸ binds.mem_importLocals) own
  | outside binds' target_eq =>
    obtain ⟨rfl, rfl⟩ := binds.unique nodup binds' (Option.some.inj hl)
    rw [target_eq]
  | wholeModule binds' target_eq whole =>
    obtain ⟨rfl, rfl⟩ := binds.unique nodup binds' (Option.some.inj hl)
    rw [target_eq, whole]
  | imported binds' target_eq imported exports resolves =>
    obtain ⟨rfl, rfl⟩ := binds.unique nodup binds' (Option.some.inj hl)
    rw [target_eq, imported]
    exact ⟨_, exports, resolves⟩

/-- A name of a module stands for one thing, if the modules that it comes from keep the rules about
names. -/
theorem Resolves.unique {Known : String → Prop} (valid : ∀ id, Known id → (M.program id).NamesValid)
    (closed : ∀ id specifier b d, Known id → M.Binds id specifier b → M.target specifier id = .module d →
      Known d) {l : Option String} {o o' : Origin} (known : Known id) (h : M.Resolves id l o)
    (h' : M.Resolves id l o') : o = o' := by
  induction h generalizing o' with
  | defaultValue id =>
    cases h'
    rfl
  | declared own => exact (h'.of_own own).symm
  | outside binds target_eq =>
    have hone := h'.of_binds (valid _ known).imports_nodup binds
    rw [target_eq] at hone
    exact hone.symm
  | wholeModule binds target_eq whole =>
    have hone := h'.of_binds (valid _ known).imports_nodup binds
    rw [target_eq, whole] at hone
    exact hone.symm
  | imported binds target_eq imported exports resolves ih =>
    have hone := h'.of_binds (valid _ known).imports_nodup binds
    rw [target_eq, imported] at hone
    obtain ⟨l', exports', resolves'⟩ := hone
    have hknown := closed _ _ _ _ known binds target_eq
    obtain rfl := exports.unique (valid _ hknown).exports_nodup exports'
    exact ih hknown resolves'

end ModuleMap

end ModuleBuild
