import Mathlib
import ModuleBuild.Proofs.Compile.Steps
import ModuleBuild.Proofs.Text.Lines

/-!
# The lines of a compiled program

The map of a compile says that each line of the plain code is moved down by the lines that are put before the
code. The edits of the compile are not counted: where one of them puts more lines than it takes out, or fewer,
all that stands behind it is on another line than the map says.

## Main definitions

* `CompileSteps.editsBefore` — the edits made before a line.

## Main statements

* `CompileSteps.not_mem_of_mem_siteEdits` — what stands in place of a site has no line ends.
* `lines_compile_iff` — where the lines of plain code are in the output, and when the map is right about them.
-/

namespace ModuleBuild

open Script Text

/-! ## References -/

/-- References have no line ends. -/
theorem FileState.not_mem_of_served {file : FileState} (hapart : file.Apart) (hrefs : file.References)
    {name reference : String} (hname : IsWordText name) (h : file.served? name = some reference) :
    '\n' ∉ reference.toList := by
  have hword {text : String} (htext : IsWordText text) : '\n' ∉ text.toList := fun hmem =>
    absurd (htext '\n' hmem) (by decide)
  rcases hrefs.mem name reference h with hmem | ⟨-, rfl⟩
  · exact hword (hapart.names_new reference hmem).1.2
  · have := hword hname
    simp [externalReference, helperNamespace, this]

/-! ## The lines before the code -/

/-- What is put before the code are whole lines. -/
theorem wholeLines_preamble (file : FileState) (items : List ModuleItem) :
    WholeLines (file.preamble items).toList := by
  have hjoin (lines : List String) : WholeLines (String.join (lines.map (· ++ "\n"))).toList := by
    induction lines using List.reverseRecOn with
    | nil => exact .inl rfl
    | append_singleton lines line =>
      refine .inr ⟨(String.join (lines.map (· ++ "\n"))).toList ++ line.toList, ?_⟩
      simp
  exact hjoin _

namespace CompileSteps

variable {toolchain : Toolchain} {code : String} {options : CompilerOptions} {output : CompileOutput}
  (steps : CompileSteps toolchain code options output)

/-- What stands in place of a site has no line ends. -/
theorem not_mem_of_mem_siteEdits {e : Edit} (he : e ∈ steps.siteEdits) : '\n' ∉ e.text.toList := by
  obtain ⟨hapart, hrefs, -, -⟩ := steps.answers
  obtain ⟨site, -, name, hname, hserved, rfl⟩ := steps.exists_site_of_mem_siteEdits he
  have hreference := FileState.not_mem_of_served hapart hrefs hname hserved
  cases site <;> simp [Site.put, hreference]

/-- The edits that are made before a line of the plain code. -/
def editsBefore (x : Line steps.plain.code.toList) : List Edit :=
  (Edit.made steps.edits).filter (·.stop ≤ x.start)

/-- In a module, edits put no line ends. -/
theorem sum_drift_of_esm (h : steps.file.format = .esm) (x : Line steps.plain.code.toList) :
    ((steps.editsBefore x).map (Edit.drift steps.plain.code.toList)).sum =
      -(Edit.removed steps.plain.code.toList (steps.editsBefore x) : ℤ) := by
  have hmodule := steps.moduleEdits_eq
  rw [FileState.moduleEdits, h] at hmodule
  refine Edit.sum_drift_of_not_mem fun e he => ?_
  have hmem := Edit.mem_of_mem_made (List.mem_filter.1 he).1
  rw [edits, ← Except.ok.inj hmodule, List.append_nil] at hmem
  exact steps.not_mem_of_mem_siteEdits hmem

/-- A line that no edit touches stays, behind the lines that are put before the code. -/
theorem exists_line (hfits : ∀ e ∈ steps.edits, e.Fits steps.plain.code.toList)
    (x : Line steps.plain.code.toList) (hx : ∀ e ∈ steps.edits, ¬ e.Touches x) :
    ∃ y : Line output.code.toList, y.line = x.line ∧
      y.before = steps.lead.toList ++ Edit.splice x.before 0 (steps.editsBefore x) ∧
      (y.number : ℤ) = x.number + lineEnds steps.lead +
        ((steps.editsBefore x).map (Edit.drift steps.plain.code.toList)).sum := by
  obtain ⟨z, hline, hbefore, hnumber⟩ : ∃ z : Line steps.body.toList, z.line = x.line ∧
      z.before = Edit.splice x.before 0 (steps.editsBefore x) ∧ (z.number : ℤ) =
        x.number + ((steps.editsBefore x).map (Edit.drift steps.plain.code.toList)).sum :=
    Edit.exists_line_applyEdits hfits x hx
  have hlead : WholeLines steps.lead.toList := wholeLines_preamble _ _
  rw [steps.code_eq_append, String.toList_append]
  refine ⟨z.below steps.lead.toList hlead, hline, congrArg _ hbefore, ?_⟩
  rw [z.number_below, Nat.cast_add, hnumber]
  change (lineEnds steps.lead : ℤ) + _ = _
  ring

end CompileSteps

/-- Take a compile that gives a map, with edits that fit the plain code. The map has the lines moved down by
those that are put before the code. A line that no edit touches stays, and it is moved down by these lines and
by the line ends that the edits before it put, less those that they take out. So the map is right about it just
if these edits put as many line ends as they take out. In a module they put none. -/
theorem lines_compile_iff {toolchain : Toolchain} {code : String} {options : CompilerOptions}
    {output : CompileOutput} (steps : CompileSteps toolchain code options output)
    (hmaps : options.sourceMaps = true) (hfits : ∀ e ∈ steps.edits, e.Fits steps.plain.code.toList) :
    output.map =
      some ((SourceMap.ofFile options.sourceName code steps.plain.skip).shift (lineEnds steps.lead)) ∧
    ∀ x : Line steps.plain.code.toList, (∀ e ∈ steps.edits, ¬ e.Touches x) →
      ∃ y : Line output.code.toList, y.line = x.line ∧
        y.before = steps.lead.toList ++ Edit.splice x.before 0 (steps.editsBefore x) ∧
        (y.number : ℤ) = x.number + lineEnds steps.lead +
          ((steps.editsBefore x).map (Edit.drift steps.plain.code.toList)).sum ∧
        (y.number = x.number + lineEnds steps.lead ↔
          ((steps.editsBefore x).map (Edit.drift steps.plain.code.toList)).sum = 0) ∧
        (steps.file.format = .esm → y.number + Edit.removed steps.plain.code.toList (steps.editsBefore x) =
          x.number + lineEnds steps.lead) := by
  refine ⟨by rw [steps.map_eq, if_pos hmaps]; rfl, fun x hx => ?_⟩
  obtain ⟨y, hline, hbefore, hnumber⟩ := steps.exists_line hfits x hx
  refine ⟨y, hline, hbefore, hnumber, by omega, fun hesm => ?_⟩
  rw [steps.sum_drift_of_esm hesm] at hnumber
  omega

/-- A module that imports two names. -/
def pairModule : String :=
  "import \x7b a, b \x7d from \"m\";\nlet x;\n"

/-- The options for a script in place of the module, with a map. -/
def pairOptions : CompilerOptions where
  plugins := [.live .commonJs]
  sourceMaps := true

/-- The script, and the map. -/
def pairOutput : CompileOutput where
  code := "\"use strict\";\nvar a = require(\"m\")[\"a\"];\nvar b = require(\"m\")[\"b\"];\nlet x;\n"
  map := some (.ofFile "<chunk>.js" pairModule 1)

/-- The steps of this compile. -/
def pairSteps : CompileSteps (Toolchain.standard (.automatic "react")) pairModule pairOptions pairOutput where
  plugins := [.commonJs]
  plain := ⟨pairModule, 0⟩
  unit := ⟨[],
    [.importFrom ⟨0, 25⟩ "m" [.named "a" "a", .named "b" "b"], .declaration ⟨26, 32⟩ (some ["x"])]⟩
  siteEdits := []
  file := { format := .commonJs, code := pairModule }
  moduleEdits := [⟨0, 25, "var a = require(\"m\")[\"a\"];\nvar b = require(\"m\")[\"b\"];"⟩]
  plugins_eq := rfl
  plain_eq := by decide +kernel
  unit_eq := by decide +kernel
  siteEdits_eq := rfl
  moduleEdits_eq := by decide +kernel
  code_eq := by decide +kernel
  map_eq := by decide +kernel

/-- The line behind the import. -/
def pairLine : Line pairSteps.plain.code.toList where
  before := "import \x7b a, b \x7d from \"m\";\n".toList
  line := "let x;".toList
  behind := "\n".toList
  eq_append := by decide +kernel
  not_mem := by decide
  starts := .inr ⟨"import \x7b a, b \x7d from \"m\";".toList, by decide⟩
  ends := .inr ⟨[], rfl⟩

/-- The import becomes two lines, and the map has the line behind it one line too high. -/
theorem lines_compile_iff_pair :
    (Toolchain.standard (.automatic "react")).compile pairModule pairOptions = .ok pairOutput ∧
      pairLine.number = 1 ∧ (∀ e ∈ pairSteps.edits, ¬ e.Touches pairLine) ∧
      pairOutput.map = some ((SourceMap.ofFile "<chunk>.js" pairModule 0).shift 1) ∧
      ∃ y : Line pairOutput.code.toList, y.line = pairLine.line ∧ y.number = 3 := by
  have hfits : ∀ e ∈ pairSteps.edits, e.Fits pairSteps.plain.code.toList := by decide +kernel
  have hsame : ∀ e ∈ pairSteps.edits, ¬ e.Touches pairLine := by decide +kernel
  have hdrift : ((pairSteps.editsBefore pairLine).map (Edit.drift pairSteps.plain.code.toList)).sum = 1 := by
    decide +kernel
  have hnumber : pairLine.number = 1 := by decide +kernel
  have hlead : lineEnds pairSteps.lead = 1 := by decide +kernel
  obtain ⟨hmap, hlines⟩ := lines_compile_iff pairSteps rfl hfits
  obtain ⟨y, hline, -, hy, -⟩ := hlines pairLine hsame
  rw [hnumber, hlead, hdrift] at hy
  rw [hlead] at hmap
  exact ⟨compile_eq_ok_iff.2 ⟨pairSteps⟩, hnumber, hsame, hmap, y, hline, by omega⟩

end ModuleBuild
