import Mathlib
import ModuleBuild.Proofs.Compile.Bindings
import ModuleBuild.Proofs.Linking.Stripped

/-!
# Names that modules declare

The record of a module has the names that the linker knows of it: the ones that statements declare by name, and
the variable of a default value. The text of the module without its module syntax binds these names, and the
ones of patterns and of `var` inside of statements, which are in no record.

## Main definitions

* `Script.Node.BindsLoosely` — a statement binds a name by a pattern, or by `var` inside of it.

## Main statements

* `Script.Node.binds_iff` — the names that a statement binds.
* `binds_strippedText_iff` — the names that the text of a module without its module syntax binds.
-/

namespace ModuleBuild

open Script Text

/-! ## Names of statements -/

namespace Script

/-- A statement binds a name by a pattern of its declaration, or by `var` inside of it. -/
def Node.BindsLoosely (n : Node) (x : String) : Prop :=
  (plainNames? n = none ∧ ∃ fuel, x ∈ declaredNames fuel n) ∨
    (x ∉ n.plainNames ∧ ∃ fuel, x ∈ hoistedNames fuel n)

/-- A program binds a name. -/
def Program.Binds (p : Program) (x : String) : Prop :=
  ∃ n ∈ p.body, n.Binds x

/-- A program binds a name by a pattern, or by `var` inside of a statement. -/
def Program.BindsLoosely (p : Program) (x : String) : Prop :=
  ∃ n ∈ p.body, n.BindsLoosely x

variable {n : Node} {x : String}

theorem mem_of_mem_declaredNames {fuel : Nat} {names : List String} (h : plainNames? n = some names)
    (hx : x ∈ declaredNames fuel n) : x ∈ names := by
  cases fuel with
  | succ fuel => rwa [declaredNames_of_plain h] at hx
  | zero =>
    unfold declaredNames at hx
    split at hx
    case h_1 =>
      obtain ⟨d, -, hx⟩ := List.mem_flatMap.1 hx
      split at hx <;> simp [boundNames] at hx
    case h_2 | h_3 =>
      obtain rfl := Option.some.inj h
      exact hx
    case h_4 => cases hx

/-- A statement without exported patterns binds the names that it declares by name, and others loosely. -/
theorem Node.binds_iff (h : ∀ span start, ModuleItem.ofNode n ≠ .exportDeclaration span start none) :
    n.Binds x ↔ x ∈ n.plainNames ∨ n.BindsLoosely x := by
  constructor
  · rintro ⟨fuel, hx⟩
    by_cases hplain : x ∈ n.plainNames
    · exact .inl hplain
    right
    rcases List.mem_append.1 hx with hown | hhoisted
    · left
      unfold Node.plainNames at hplain
      unfold Node.ownNames at hown
      split at hown
      case h_1 => exact absurd hown hplain
      case h_2 span d =>
        cases hnames : plainNames? d with
        | none => exact absurd (by rw [ModuleItem.ofNode, hnames]) (h span d.span.start)
        | some names => exact absurd (mem_of_mem_declaredNames hnames hown) (by simpa [hnames] using hplain)
      case h_3 hdefault hdecl =>
        refine ⟨?_, fuel, hown⟩
        cases hnames : plainNames? n with
        | none => rfl
        | some names =>
          have hmem := mem_of_mem_declaredNames hnames hown
          split at hplain
          · exact (hdefault _ _ rfl).elim
          · exact (hdecl _ _ rfl).elim
          · exact absurd hmem (by simpa [hnames] using hplain)
    · exact .inr ⟨hplain, fuel, hhoisted⟩
  · rintro (hplain | ⟨hnone, fuel, hx⟩ | ⟨-, fuel, hx⟩)
    · exact ⟨1, n.plainNames_subset 0 hplain⟩
    · refine ⟨fuel, List.mem_append_left _ ?_⟩
      unfold Node.ownNames
      split
      · simp [declaredNames] at hx
      · simp [declaredNames] at hx
      · exact hx
    · exact ⟨fuel, List.mem_append_right _ hx⟩

/-- Imports and export lists bind no names of their own. -/
theorem Node.topNames_of_not_stays (h : n.stays = false) (fuel : Nat) : n.topNames fuel = [] := by
  unfold Node.stays at h
  refine n.topNames_of_replaced ?_ ?_ fuel
  all_goals cases hitem : ModuleItem.ofNode n <;> first | rfl | simp [hitem] at h

end Script

/-- Statements that have lost their module syntax bind the same names, and the one of a default value. -/
theorem StrippedFrom.binds_iff {defaultLocal : String} {source text : List Char} {position : Nat}
    {nodes results : List Node} (h : StrippedFrom defaultLocal source text position nodes results) (x : String) :
    (∃ m ∈ results, m.Binds x) ↔
      ∃ n ∈ nodes, n.Binds x ∨ (n.hasDefaultValue = true ∧ x = defaultLocal) := by
  induction h with
  | nil => simp
  | @leave _ n rest results leaves _ ih =>
    have hnone : ¬ n.Binds x := by
      rintro ⟨fuel, hx⟩
      rw [n.topNames_of_not_stays leaves] at hx
      cases hx
    have hvalue : n.hasDefaultValue = false := by
      refine Node.hasDefaultValue_eq_false fun span start hitem => ?_
      simp [Node.stays, hitem] at leaves
    simp [ih, hnone, hvalue]
  | stay _ _ _ stripped _ ih => simp only [List.mem_cons, exists_eq_or_imp, stripped.binds, ih]

/-! ## Exports -/

namespace ModuleRecord

variable {id defaultLocal : String} {source : List Char} {record : ModuleRecord}

theorem mem_exports_ofItem {item : ModuleItem} (h : ofItem id source defaultLocal item = .ok record)
    {e : String × String} (he : e ∈ record.exports) : e.2 ∈ record.declared ∨
      ∃ span names, item = .exportList span names none ∧ (e.2, e.1) ∈ names := by
  cases item with
  | exportList span names from? =>
    cases from? with
    | some _ => cases h
    | none =>
      obtain rfl := Except.ok.inj h
      obtain ⟨⟨l, exported⟩, hmem, rfl⟩ := List.mem_map.1 he
      exact .inr ⟨span, names, rfl, hmem⟩
  | exportDefault _ _ name =>
    left
    cases name <;> obtain rfl := Except.ok.inj h <;> simp_all
  | exportDeclaration _ _ names =>
    left
    cases names with
    | none => cases h
    | some names =>
      obtain rfl := Except.ok.inj h
      obtain ⟨name, hmem, rfl⟩ := List.mem_map.1 he
      exact hmem
  | exportAll => cases h
  | _ =>
    obtain rfl := Except.ok.inj h
    cases he

/-- The variable of an export is declared, or named in an export list. -/
theorem mem_exports_ofItems {items : List ModuleItem} (h : ofItems id source defaultLocal items = .ok record)
    {e : String × String} (he : e ∈ record.exports) : e.2 ∈ record.declared ∨
      ∃ span names, ModuleItem.exportList span names none ∈ items ∧ (e.2, e.1) ∈ names := by
  induction items generalizing record with
  | nil =>
    obtain rfl := Except.ok.inj h
    cases he
  | cons item rest ih =>
    obtain ⟨own, hown, h⟩ := bind_eq_ok.1 h
    obtain ⟨more, hmore, h⟩ := bind_eq_ok.1 h
    obtain rfl := Except.ok.inj h
    rcases List.mem_append.1 he with he | he
    · rcases mem_exports_ofItem hown he with hdeclared | ⟨span, names, rfl, hnames⟩
      · exact .inl (List.mem_append_left _ hdeclared)
      · exact .inr ⟨span, names, List.mem_cons_self, hnames⟩
    · rcases ih hmore he with hdeclared | ⟨span, names, hmem, hnames⟩
      · exact .inl (List.mem_append_right _ hdeclared)
      · exact .inr ⟨span, names, List.mem_cons_of_mem item hmem, hnames⟩

end ModuleRecord

/-! ## Modules -/

section Module

variable {parse : String → Option Program} {id code defaultLocal : String} {record : ModuleRecord} {p : Program}

/-- A module binds the names that its record declares, and others loosely. -/
theorem binds_or_default_iff (h : ModuleRecord.ofItems id code.toList defaultLocal p.items = .ok record)
    (x : String) : (p.Binds x ∨ (p.hasDefaultValue = true ∧ x = defaultLocal)) ↔
      x ∈ record.declared ∨ p.BindsLoosely x := by
  have hbinds : p.Binds x ↔ x ∈ p.plainNames ∨ p.BindsLoosely x := by
    have hnode : ∀ n ∈ p.body, n.Binds x ↔ x ∈ n.plainNames ∨ n.BindsLoosely x := by
      refine fun n hn => n.binds_iff fun span start hitem => ?_
      obtain ⟨own, hown⟩ := ModuleRecord.ofItem_of_ofItems h hn
      rw [hitem] at hown
      cases hown
    simp only [Program.Binds, Program.BindsLoosely, Program.plainNames, List.mem_flatMap]
    rw [exists_congr fun n => and_congr_right fun hn => hnode n hn]
    simp only [and_or_left, exists_or]
  rw [ModuleRecord.mem_declared h, hbinds]
  tauto

/-- The text of a module without its module syntax binds the names that the record declares, and the ones that the
module binds by patterns and by `var` inside of statements. So the record declares all names that are bound just if
these are declared as well. Exports of names that the module binds are declared or imported, or bound like this. -/
theorem binds_strippedText_iff (laws : StatementLaws parse defaultLocal) (hvariable : IsVariable defaultLocal)
    (hparse : parse code = some p) (placed : p.Placed code.toList)
    (hrecord : ModuleRecord.ofText (fun code => (parse code).map Program.items) id code defaultLocal =
      .ok record) :
    (¬ LosesSemicolon code.toList p.body → StaysApart defaultLocal code.toList True p.body →
      ∃ q, parse (strippedText code record) = some q ∧
        (∀ x, q.Binds x ↔ x ∈ record.declared ∨ p.BindsLoosely x) ∧
        ((∀ x, x ∈ record.declared ↔ q.Binds x) ↔ ∀ x, p.BindsLoosely x → x ∈ record.declared)) ∧
      ((∀ span names, .exportList span names none ∈ p.items → ∀ e ∈ names,
          p.Binds e.1 ∨ e.1 ∈ p.importLocals) →
        ∀ e ∈ record.exports, e.2 ∈ record.declared ∨
          (∃ i ∈ record.imports, ∃ b ∈ i.bindings, b.localName = e.2) ∨ p.BindsLoosely e.2) := by
  obtain ⟨p', hparse', hitems⟩ := ModuleRecord.ofText_ok hrecord
  obtain rfl := Option.some.inj (hparse.symm.trans hparse')
  have hdeclared := binds_or_default_iff hitems
  refine ⟨fun hkept happart => ?_, fun hbound e he => ?_⟩
  · obtain ⟨q, hread, hstripped⟩ := exists_strippedFrom laws hvariable hparse placed hitems hkept happart
    have hbinds (x : String) : q.Binds x ↔ x ∈ record.declared ∨ p.BindsLoosely x := by
      rw [← hdeclared, Program.Binds, hstripped.binds_iff]
      simp only [and_or_left, exists_or, ← and_assoc, exists_and_right, Program.Binds,
        Program.hasDefaultValue, List.any_eq_true]
    refine ⟨q, hread, hbinds, ?_⟩
    simp only [hbinds]
    refine forall_congr' fun x => ?_
    tauto
  · rcases ModuleRecord.mem_exports_ofItems hitems he with hown | ⟨span, names, hlist, hmem⟩
    · exact .inl hown
    rcases hbound span names hlist _ hmem with hown | himported
    · exact ((hdeclared e.2).1 (.inl hown)).imp_right .inr
    · right
      left
      obtain ⟨i, hi, b, hb, hlocal⟩ := Program.mem_importLocals.1 himported
      have himports := ModuleRecord.imports_ofItems hitems
      rw [Program.imports, ← himports] at hi
      obtain ⟨r, hr, rfl⟩ := List.mem_map.1 hi
      exact ⟨r, hr, b, hb, hlocal⟩

end Module

/-- The text of a module without its module syntax binds a name that its record does not declare. -/
theorem binds_strippedText_iff_stages :
    ModuleRecord.ofText (fun code => (parseStages code).map Program.items) "m" stagedText "_default" =
        .ok stagedRecord ∧
      strippedText stagedText stagedRecord = bareStagedText ∧
      ∃ q, parseStages bareStagedText = some q ∧ q.Binds "y" ∧ "y" ∉ stagedRecord.declared ∧
        ¬ (∀ x, x ∈ stagedRecord.declared ↔ q.Binds x) ∧
        ∀ e ∈ stagedRecord.exports, e.2 ∈ stagedRecord.declared ∨
          (∃ i ∈ stagedRecord.imports, ∃ b ∈ i.bindings, b.localName = e.2) ∨ staged.BindsLoosely e.2 := by
  have hplaced : staged.Placed stagedText.toList := by decide +kernel
  have hrecord : ModuleRecord.ofText (fun code => (parseStages code).map Program.items) "m" stagedText
      "_default" = .ok stagedRecord := by
    decide +kernel
  obtain ⟨hreads, hexports⟩ :=
    binds_strippedText_iff statementLaws_stages (by decide +kernel) rfl hplaced hrecord
  obtain ⟨q, hparse, hbinds, hall⟩ := hreads not_losesSemicolon_staged ⟨.inl trivial, trivial⟩
  rw [strippedText_staged] at hparse
  have hloose : staged.BindsLoosely "y" :=
    ⟨patternAt 28, by simp [staged], .inl ⟨rfl, 2, List.mem_singleton_self _⟩⟩
  have hmissing : "y" ∉ stagedRecord.declared := by decide
  refine ⟨hrecord, strippedText_staged, q, hparse, (hbinds "y").2 (.inr hloose), hmissing, ?_, ?_⟩
  · exact fun hsame => hmissing (hall.1 hsame "y" hloose)
  · refine hexports fun span names hlist => ?_
    obtain ⟨n, hn, hitem⟩ := List.mem_map.1 hlist
    simp only [staged, List.mem_cons, List.not_mem_nil, or_false] at hn
    rcases hn with rfl | rfl | rfl <;> cases hitem

end ModuleBuild
