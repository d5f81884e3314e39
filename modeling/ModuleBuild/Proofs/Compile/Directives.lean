import Mathlib
import ModuleBuild.Proofs.Compile.CommonJs
import ModuleBuild.Proofs.Compile.Steps
import ModuleBuild.Proofs.Script.Directives
import ModuleBuild.Proofs.Text.Splice

/-!
# The directives of a compiled program

A compile puts its imports and helpers before the code, and with them before the directives of the code. These
are strings like any others from then on. Only where nothing is put before the code do they stay, or where it is
the directive `use strict` alone.

## Main definitions

* `PlainUnit.Behind` — what is rewritten stands behind a position.
* `FileState.statementLines`, `FileState.statementText` — what stands before the code and is no directive.

## Main statements

* `CompileSteps.exists_body_eq` — what stands before all edits stays.
* `directives_compile_iff` — which compiles keep the directives of the plain code.
-/

namespace ModuleBuild

open Script Text

/-! ## The lines before the code -/

namespace FileState

variable {file : FileState} {items : List ModuleItem}

/-- The line that scripts in place of modules start with. -/
def strictLine : String :=
  quote "use strict" ++ ";\n"

/-- The line that says that a script stands in place of a module. -/
def markLine : String :=
  "Object.defineProperty(exports, \"__esModule\", \x7b value: true \x7d);"

/-- The lines before the code that are no directives. -/
def statementLines (file : FileState) (items : List ModuleItem) : List String :=
  (if file.format = .commonJs ∧ hasExports items = true then [markLine] else []) ++
    file.imports.map (·.render file.format) ++ file.inlineHelpers

/-- The text of these lines. -/
def statementText (file : FileState) (items : List ModuleItem) : String :=
  String.join ((file.statementLines items).map (· ++ "\n"))

theorem statementText_of_nil (h : file.statementLines items = []) : file.statementText items = "" := by
  rw [statementText, h]
  rfl

theorem preamble_eq (file : FileState) (items : List ModuleItem) :
    file.preamble items = (if file.format = .commonJs then strictLine else "") ++ file.statementText items := by
  have hstrict : strictLine = "\"use strict\";" ++ "\n" := by decide +kernel
  unfold preamble formatLines statementText statementLines
  cases file.format with
  | esm => simp
  | commonJs =>
    cases hasExports items <;> simp [hstrict, markLine]

/-- Nothing but directives stands before the code. -/
theorem statementLines_eq_nil : file.statementLines items = [] ↔
    file.imports = [] ∧ file.inlineHelpers = [] ∧ (file.format = .commonJs → hasExports items = false) := by
  unfold statementLines
  cases file.format <;> cases hasExports items <;> simp

/-- Each of these lines starts with a letter. -/
theorem head?_of_mem_statementLines (h : file.Apart) {line : String} (hline : line ∈ file.statementLines items) :
    ∃ c ∈ ['O', 'i', 'v', 'f'], line.toList.head? = some c := by
  rcases List.mem_append.1 hline with hline | hline
  · rcases List.mem_append.1 hline with hline | hline
    · split at hline
      · obtain rfl := List.mem_singleton.1 hline
        exact ⟨'O', by decide, rfl⟩
      · cases hline
    · obtain ⟨i, -, rfl⟩ := List.mem_map.1 hline
      cases file.format with
      | esm =>
        refine ⟨'i', by decide, ?_⟩
        cases i <;> simp [InjectedImport.render]
      | commonJs =>
        refine ⟨'v', by decide, ?_⟩
        cases i <;> simp [InjectedImport.render]
  · obtain ⟨functions, hfunctions, -, -⟩ := h.bound_once
    have hsome : functionName? line ∈ functions.map some := hfunctions ▸ List.mem_map_of_mem hline
    obtain ⟨name, -, hname⟩ := List.mem_map.1 hsome
    unfold functionName? at hname
    split at hname
    · rename_i hprefix
      obtain ⟨rest, hrest⟩ := List.isPrefixOf_iff_prefix.1 hprefix
      refine ⟨'f', by decide, ?_⟩
      rw [← hrest]
      rfl
    · cases hname

/-- The text of these lines, when there are any, starts with a letter, and so it ends the directives. -/
theorem statementText_append (h : file.Apart) (hlines : file.statementLines items ≠ []) (cs : List Char) :
    ((file.statementText items).toList ++ cs).head? ≠ some '#' ∧
      ∀ fuel, directivesFrom fuel ((file.statementText items).toList ++ cs) = [] := by
  obtain ⟨line, lines, hcons⟩ := List.exists_cons_of_ne_nil hlines
  obtain ⟨c, hc, hhead⟩ := head?_of_mem_statementLines h (hcons ▸ List.mem_cons_self : line ∈ _)
  obtain ⟨rest, hrest⟩ := List.head?_eq_some_iff.1 hhead
  have htext : (file.statementText items).toList ++ cs =
      c :: (rest ++ '\n' :: ((String.join (lines.map (· ++ "\n"))).toList ++ cs)) := by
    rw [statementText, hcons, List.map_cons, String.join_cons]
    simp [hrest]
  have hletter : startsWord c = true ∧ isTrivia c = false ∧ c ≠ '/' ∧ c ≠ '#' := by
    simp only [List.mem_cons, List.not_mem_nil, or_false] at hc
    rcases hc with rfl | rfl | rfl | rfl <;> decide +kernel
  obtain ⟨hword, htrivia, hslash, hhash⟩ := hletter
  rw [htext]
  exact ⟨fun hsame => hhash (Option.some.inj hsame), fun fuel => directivesFrom_word hword htrivia hslash fuel _⟩

end FileState

/-! ## The code behind them -/

/-- What is rewritten of plain code stands behind a position. -/
structure PlainUnit.Behind (unit : PlainUnit) (n : Nat) : Prop where
  sites : ∀ site ∈ unit.sites, n ≤ site.span.start
  items : ∀ item ∈ unit.items, item.isModuleSyntax = true →
    n ≤ item.span.start ∧ item.span.start ≤ item.span.stop

theorem le_start_of_mem_commonJsEditsFrom {number n : Nat} {items : List ModuleItem} {edits : List Edit}
    (h : commonJsEditsFrom number items = .ok edits)
    (hitems : ∀ item ∈ items, item.isModuleSyntax = true →
      n ≤ item.span.start ∧ item.span.start ≤ item.span.stop)
    {e : Edit} (he : e ∈ edits) : n ≤ e.start := by
  induction items generalizing number edits with
  | nil =>
    obtain rfl := Except.ok.inj h
    cases he
  | cons item rest ih =>
    obtain ⟨own, hown, h⟩ := bind_eq_ok.1 h
    obtain ⟨more, hmore, h⟩ := bind_eq_ok.1 h
    obtain rfl := Except.ok.inj h
    rcases List.mem_append.1 he with he | he
    · have hitem := hitems item List.mem_cons_self
      cases item with
      | importFrom | exportDefault | exportList | exportAll =>
        obtain rfl := Except.ok.inj hown
        obtain rfl := List.mem_singleton.1 he
        exact (hitem rfl).1
      | exportDeclaration span start names =>
        cases names with
        | none => cases hown
        | some names =>
          obtain rfl := Except.ok.inj hown
          obtain ⟨hstart, hstop⟩ := hitem rfl
          rcases List.mem_pair.1 he with rfl | rfl
          · exact hstart
          · exact hstart.trans hstop
      | declaration | other =>
        obtain rfl := Except.ok.inj hown
        cases he
    · exact ih hmore (fun item hitem => hitems item (List.mem_cons_of_mem _ hitem)) he

namespace CompileSteps

variable {toolchain : Toolchain} {code : String} {options : CompilerOptions} {output : CompileOutput}
  (steps : CompileSteps toolchain code options output)

theorem le_start_of_mem_edits {n : Nat} (h : steps.unit.Behind n) {e : Edit} (he : e ∈ steps.edits) :
    n ≤ e.start := by
  rcases List.mem_append.1 he with he | he
  · obtain ⟨site, hsite, name, -, -, rfl⟩ := steps.exists_site_of_mem_siteEdits he
    exact h.sites site hsite
  · have hmodule := steps.moduleEdits_eq
    unfold FileState.moduleEdits at hmodule
    split at hmodule
    · obtain hnone := Except.ok.inj hmodule
      rw [← hnone] at he
      cases he
    · exact le_start_of_mem_commonJsEditsFrom hmodule h.items he

/-- What stands before all that is rewritten stays. -/
theorem exists_body_eq {start rest : List Char} (hcode : steps.plain.code.toList = start ++ rest)
    (h : steps.unit.Behind (byteLength start)) : ∃ behind, steps.body.toList = start ++ behind := by
  have hnext : takeBytes (byteLength start) steps.plain.code.toList = start := by
    simpa [hcode] using takeBytes_append start rest 0
  have hboundary : OnBoundary steps.plain.code.toList (byteLength start) := congrArg byteLength hnext
  have hedits : ∀ e ∈ steps.edits.mergeSort Edit.before, byteLength start ≤ e.start := fun e he =>
    steps.le_start_of_mem_edits h (List.mem_mergeSort.1 he)
  refine ⟨Edit.splice steps.plain.code.toList (byteLength start) (steps.edits.mergeSort Edit.before), ?_⟩
  rw [body, applyEdits, String.toList_ofList,
    Edit.splice_advance (onBoundary_zero _) hboundary (Nat.zero_le _) hedits]
  simp [sliceBytes, hnext]

/-! ## The directives of the output -/

/-- The output: the line of the format, the lines that are no directives, and the code. -/
theorem toList_code : output.code.toList =
    (if steps.file.format = .commonJs then FileState.strictLine else "").toList ++
      ((steps.file.statementText steps.unit.items).toList ++ steps.body.toList) := by
  rw [steps.code_eq_append, lead, FileState.preamble_eq]
  simp

/-- A module with anything before the code has no directives. -/
theorem directives_of_esm (h : steps.file.format = .esm)
    (hlines : steps.file.statementLines steps.unit.items ≠ []) : directives output.code = [] := by
  have htext := steps.toList_code
  rw [h, if_neg (by decide), String.toList_empty, List.nil_append] at htext
  obtain ⟨hhead, hends⟩ := FileState.statementText_append steps.apart hlines steps.body.toList
  rw [directives, htext, behindHashbang_of_head? hhead, hends]

/-- A script in place of a module is strict, and its other directives stand behind what is put before the
code. -/
theorem directives_of_commonJs (h : steps.file.format = .commonJs) : directives output.code =
    "use strict" :: directivesFrom output.code.toList.length
      ((steps.file.statementText steps.unit.items).toList ++ steps.body.toList) := by
  have htext := steps.toList_code
  rw [h, if_pos rfl] at htext
  have hquote (cs : List Char) :
      FileState.strictLine.toList ++ cs = (quote "use strict").toList ++ ';' :: '\n' :: cs := by
    simp [FileState.strictLine]
  rw [directives, htext, hquote, behindHashbang_of_head? (by simp [quote]), directivesFrom_quote (by decide),
    directivesFrom_newline]
  congr 1

variable {ds : List String} {start rest : List Char}

/-- Where no statement stands before the code, its directives stay. -/
theorem directives_kept (hcode : steps.plain.code.toList = start ++ rest) (hds : Prologue ds start)
    (hbehind : steps.unit.Behind (byteLength start)) (hlines : steps.file.statementLines steps.unit.items = [])
    (hhead : steps.file.format = .commonJs → steps.plain.code.toList.head? ≠ some '#') :
    ∀ d ∈ ds, d ∈ directives output.code := by
  intro d hd
  obtain ⟨behind, hbody⟩ := steps.exists_body_eq hcode hbehind
  have htext := steps.toList_code
  rw [FileState.statementText_of_nil hlines, hbody] at htext
  cases hformat : steps.file.format with
  | esm =>
    rw [hformat, if_neg (by decide)] at htext
    have hkept := hds behind (output.code.toList.length + 1) (by rw [htext]; simp)
    rw [directives, htext]
    exact (by simpa [htext] using hkept : ds <+: _).subset hd
  | commonJs =>
    rw [hformat, if_pos rfl] at htext
    have hne : ds ≠ [] := List.ne_nil_of_mem hd
    have hstart : start.head? ≠ some '#' := fun hsame => hhead hformat (by simp [hcode, hsame])
    have hkept := hds behind output.code.toList.length (by rw [htext]; simp [FileState.strictLine, quote]; omega)
    rw [behindHashbang_of_head? (hds.head?_ne hne behind hstart)] at hkept
    rw [steps.directives_of_commonJs hformat, FileState.statementText_of_nil hlines, hbody]
    exact List.mem_cons_of_mem _ (hkept.subset hd)

/-- Otherwise they are gone, and only a script in place of a module has a directive of its own. -/
theorem directives_lost (hcode : steps.plain.code.toList = start ++ rest) (hds : Prologue ds start) (hne : ds ≠ [])
    (hbehind : steps.unit.Behind (byteLength start))
    (hlines : steps.file.statementLines steps.unit.items = [] →
      steps.file.format = .commonJs ∧ steps.plain.code.toList.head? = some '#') :
    directives output.code = if steps.file.format = .commonJs then ["use strict"] else [] := by
  by_cases hnone : steps.file.statementLines steps.unit.items = []
  · obtain ⟨hformat, hhead⟩ := hlines hnone
    obtain ⟨behind, hbody⟩ := steps.exists_body_eq hcode hbehind
    obtain ⟨c, cs, rfl⟩ := List.exists_cons_of_ne_nil (hds.ne_nil hne)
    obtain rfl : c = '#' := by simpa [hcode] using hhead
    rw [steps.directives_of_commonJs hformat, FileState.statementText_of_nil hnone, hbody, if_pos hformat]
    simp [directivesFrom_hash]
  · cases hformat : steps.file.format with
    | esm => rw [steps.directives_of_esm hformat hnone, if_neg (by decide)]
    | commonJs =>
      rw [steps.directives_of_commonJs hformat, if_pos rfl,
        (FileState.statementText_append steps.apart hnone _).2]

end CompileSteps

/-- Take plain code that starts with directives and that is rewritten behind them only. The compile keeps these
directives just if it puts no statement before the code: no import, no helper and, where a script stands in
place of a module, no mark of a module that exports, and if such a script has no first line that names the
program that runs it. All others lose them, except for the directive that makes such a script strict. -/
theorem directives_compile_iff {toolchain : Toolchain} {code : String} {options : CompilerOptions}
    {output : CompileOutput} (steps : CompileSteps toolchain code options output) {ds : List String}
    {start rest : List Char} (hcode : steps.plain.code.toList = start ++ rest) (hds : Prologue ds start)
    (hbehind : steps.unit.Behind (byteLength start)) :
    (∀ d ∈ ds, d ∈ directives output.code) ↔
      (steps.file.imports = [] ∧ steps.file.inlineHelpers = [] ∧ (steps.file.format = .commonJs →
        hasExports steps.unit.items = false ∧ steps.plain.code.toList.head? ≠ some '#')) ∨
      ∀ d ∈ ds, steps.file.format = .commonJs ∧ d = "use strict" := by
  by_cases hne : ds = []
  · simp [hne]
  by_cases hkept : steps.file.statementLines steps.unit.items = [] ∧
      (steps.file.format = .commonJs → steps.plain.code.toList.head? ≠ some '#')
  · obtain ⟨hlines, hhead⟩ := hkept
    obtain ⟨himports, hinline, hexports⟩ := FileState.statementLines_eq_nil.1 hlines
    exact iff_of_true (steps.directives_kept hcode hds hbehind hlines hhead)
      (.inl ⟨himports, hinline, fun hformat => ⟨hexports hformat, hhead hformat⟩⟩)
  · have hlost := steps.directives_lost hcode hds hne hbehind fun hlines => by
      simpa [hlines] using hkept
    have hnot : ¬ (steps.file.imports = [] ∧ steps.file.inlineHelpers = [] ∧ (steps.file.format = .commonJs →
        hasExports steps.unit.items = false ∧ steps.plain.code.toList.head? ≠ some '#')) := by
      rintro ⟨himports, hinline, hformat⟩
      exact hkept ⟨FileState.statementLines_eq_nil.2 ⟨himports, hinline, fun h => (hformat h).1⟩,
        fun h => (hformat h).2⟩
    rw [hlost, or_iff_right hnot]
    cases steps.file.format <;> simp

/-- A module with a directive, and an export behind it. -/
def clientModule : String :=
  "\"use client\";\nexport default f;\n"

/-- The options for a script in place of the module. -/
def clientOptions : CompilerOptions where
  plugins := [.live .commonJs]

/-- The script. -/
def clientOutput : CompileOutput where
  code := "\"use strict\";\nObject.defineProperty(exports, \"__esModule\", \x7b value: true \x7d);\n" ++
    "\"use client\";\nexports.default = f;\n"

/-- The steps of this compile. -/
def clientSteps :
    CompileSteps (Toolchain.standard (.automatic "react")) clientModule clientOptions clientOutput where
  plugins := [.commonJs]
  plain := ⟨clientModule, 0⟩
  unit := ⟨[], [.other ⟨0, 13⟩, .exportDefault ⟨14, 31⟩ 29 none]⟩
  siteEdits := []
  file := { format := .commonJs, code := clientModule }
  moduleEdits := [⟨14, 29, "exports.default = "⟩]
  plugins_eq := rfl
  plain_eq := by decide +kernel
  unit_eq := by decide +kernel
  siteEdits_eq := rfl
  moduleEdits_eq := by decide +kernel
  code_eq := by decide +kernel
  map_eq := rfl

/-- The mark of a module that exports stands before the directive, and the directive is lost. -/
theorem directives_compile_iff_client :
    (Toolchain.standard (.automatic "react")).compile clientModule clientOptions = .ok clientOutput ∧
      Prologue ["use client"] "\"use client\";\n".toList ∧ "use client" ∉ directives clientOutput.code := by
  have hprologue : Prologue ["use client"] "\"use client\";\n".toList :=
    prologue_quote "use client" (by decide) prologue_nil (by decide)
  have hbehind : clientSteps.unit.Behind 14 := ⟨by decide, by decide⟩
  have hcode : clientSteps.plain.code.toList = "\"use client\";\n".toList ++ "export default f;\n".toList := by
    decide +kernel
  have hiff := directives_compile_iff clientSteps hcode hprologue hbehind
  refine ⟨compile_eq_ok_iff.2 ⟨clientSteps⟩, hprologue, fun hmem => ?_⟩
  rcases hiff.1 (by simpa using hmem) with ⟨-, -, hnone⟩ | hstrict
  · exact absurd (hnone rfl).1 (by decide)
  · exact absurd (hstrict _ List.mem_cons_self).2 (by decide)

end ModuleBuild
