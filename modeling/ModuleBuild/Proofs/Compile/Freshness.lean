import Mathlib
import ModuleBuild.Proofs.Compile.Materialization
import ModuleBuild.Proofs.Text.Fresh

/-!
# Fresh bindings

Plugins ask a file for bindings, for imports and for helpers. Each of them takes new names, which are apart
from the words of the source and from all names taken before. So do the imports and the definitions that
are added to the file on the way.

## Main definitions

* `BindingCall`, `FileState.call`, `FileState.afterCalls` — what plugins ask for, one after the other.
* `FileState.Apart` — the names taken so far are new to the source, and each is bound once at most.

## Main statements

* `FileState.freshName_eq_numbered` — the search for a name ends with the first one that is free.
* `FileState.Apart.call` — what one call keeps.
* `FileState.bindings_fresh` — what holds behind any row of calls.
-/

namespace ModuleBuild

open Text

theorem isWord_helperLocal {name : String} (h : IsWordText name) : IsWord (helperLocal name) := by
  refine ⟨by simp [helperLocal], fun c hc => ?_⟩
  rw [helperLocal, String.toList_append, List.mem_append] at hc
  rcases hc with hc | hc
  · obtain rfl : c = '_' := by simpa using hc
    decide
  · exact h c hc

theorem helperLocal_ne_function (name : String) : helperLocal name ≠ "function" := by
  intro h
  have hhead : (helperLocal name).toList.head? = some '_' := by simp [helperLocal]
  rw [h] at hhead
  exact absurd hhead (by decide)

namespace FileState

variable {start file file' : FileState} {name : String}

/-! ## The search -/

/-- The search ends with the first name that is free. -/
theorem freshName_eq_numbered (file : FileState) (h : IsWordText name) :
    ∃ k, 1 ≤ k ∧ (file.freshName name).1 = numbered (helperLocal name) k ∧
      file.isTaken (numbered (helperLocal name) k) = false ∧
      ∀ j, 1 ≤ j → j < k → file.isTaken (numbered (helperLocal name) j) = true := by
  obtain ⟨k, hone, hbound, heq, hbefore, hfree⟩ := firstFree_eq file.isTaken (helperLocal name)
    (file.names.length + file.code.length + 1) 1
  refine ⟨k, hone, heq, ?_, hbefore⟩
  have hword := isWord_helperLocal h
  obtain ⟨j, hj, hunused, hnew⟩ := exists_numbered_new hword file.names file.code
  have hnot : file.isTaken (numbered (helperLocal name) (1 + j)) = false := by
    rw [← mentions_iff (isWord_numbered hword (1 + j))] at hnew
    simp [isTaken, hunused, hnew]
  by_contra htaken
  have hlt : 1 + j < k := by
    by_contra hle
    exact htaken (hfree (by omega))
  simp [hbefore (1 + j) (by omega) hlt] at hnot

theorem freshName_new (file : FileState) (h : IsWordText name) :
    IsWord (file.freshName name).1 ∧ (file.freshName name).1 ∉ file.names ∧
      ¬ HasWord file.code (file.freshName name).1 := by
  obtain ⟨k, -, heq, hfree, -⟩ := file.freshName_eq_numbered h
  have hword := isWord_numbered (isWord_helperLocal h) k
  rw [heq, ← mentions_iff hword]
  simpa [isTaken, hword] using hfree

/-! ## Names apart -/

/-- The names taken so far are new to the source, and no two of them are equal. The imports and the
functions that were added bind such names, each of them once. -/
structure Apart (file : FileState) : Prop where
  names_nodup : file.names.Nodup
  names_new : ∀ x ∈ file.names, IsWord x ∧ ¬ HasWord file.code x
  bound_once : ∃ functions : List String, file.inlineHelpers.map functionName? = functions.map some ∧
    (file.imports.map (·.localName) ++ functions).Nodup ∧
    file.imports.map (·.localName) ++ functions ⊆ file.names

theorem Untouched.apart (h : Untouched file) : Apart file where
  names_nodup := by simp [h.names_eq]
  names_new := by simp [h.names_eq]
  bound_once := ⟨[], by simp [h.inlineHelpers_eq], by simp [h.imports_eq], by simp [h.imports_eq]⟩

namespace Apart

/-- One more name, which an import or a function may bind. -/
theorem bind (h : Apart file) (hname : IsWordText name) {imports : List InjectedImport}
    {texts functions : List String} (hcode : file'.code = file.code)
    (hnames : file'.names = (file.freshName name).1 :: file.names)
    (himports : file'.imports = file.imports ++ imports)
    (htexts : file'.inlineHelpers = file.inlineHelpers ++ texts)
    (hfunctions : texts.map functionName? = functions.map some)
    (hbound : (imports.map (·.localName) ++ functions).Sublist [(file.freshName name).1]) : Apart file' := by
  obtain ⟨hword, hunused, hnew⟩ := file.freshName_new hname
  obtain ⟨others, hothers, hnodup, hsub⟩ := h.bound_once
  have hperm : ((file.imports ++ imports).map (·.localName) ++ (others ++ functions)).Perm
      ((file.imports.map (·.localName) ++ others) ++ (imports.map (·.localName) ++ functions)) := by
    rw [List.map_append]
    grind
  refine ⟨?_, ?_, others ++ functions, ?_, ?_, ?_⟩
  · rw [hnames]
    exact List.nodup_cons.mpr ⟨hunused, h.names_nodup⟩
  · intro x hx
    rw [hnames] at hx
    rw [hcode]
    rcases List.mem_cons.mp hx with rfl | hx
    · exact ⟨hword, hnew⟩
    · exact h.names_new x hx
  · rw [htexts, List.map_append, List.map_append, hothers, hfunctions]
  · rw [himports, hperm.nodup_iff]
    refine hnodup.append (hbound.nodup (List.nodup_singleton _)) fun x hx hx' => ?_
    obtain rfl := List.mem_singleton.mp (hbound.subset hx')
    exact hunused (hsub hx)
  · rw [himports, hnames]
    intro x hx
    rcases List.mem_append.mp (hperm.subset hx) with hx | hx
    · exact List.mem_cons_of_mem _ (hsub hx)
    · exact List.mem_cons.mpr (.inl (List.mem_singleton.mp (hbound.subset hx)))

theorem freshName (h : Apart file) (hname : IsWordText name) : Apart (file.freshName name).2 :=
  h.bind hname rfl rfl (List.append_nil _).symm (List.append_nil _).symm rfl (List.nil_sublist _)

/-- An import of the new name. -/
theorem withImport (h : Apart file) (hname : IsWordText name) (added : InjectedImport)
    (hadded : added.localName = (file.freshName name).1) :
    Apart { (file.freshName name).2 with imports := file.imports ++ [added] } := by
  have hnone : ([] : List String).map functionName? = ([] : List String).map some := rfl
  exact h.bind hname rfl rfl rfl (List.append_nil _).symm hnone (by simp [hadded])

/-- What else a file keeps does not matter. -/
theorem congr (h : Apart file) (hcode : file'.code = file.code) (hnames : file'.names = file.names)
    (himports : file'.imports = file.imports) (htexts : file'.inlineHelpers = file.inlineHelpers) :
    Apart file' where
  names_nodup := hnames ▸ h.names_nodup
  names_new := by rw [hnames, hcode]; exact h.names_new
  bound_once := by rw [himports, htexts, hnames]; exact h.bound_once

end Apart

/-! ## Helpers -/

theorem isWordText_of_mem_helperRegistry {helper : Helper} (h : helper ∈ helperRegistry) :
    IsWordText helper.name := by
  simp only [helperRegistry, List.mem_cons, List.not_mem_nil, or_false] at h
  rcases h with rfl | rfl | rfl | rfl | rfl | rfl <;> decide +kernel

theorem exists_intercalate_eq (separator line : String) (lines : List String) :
    ∃ rest, String.intercalate separator (line :: lines) = line ++ rest := by
  cases lines with
  | nil => exact ⟨"", by simp⟩
  | cons next lines => exact ⟨_, by rw [String.intercalate_cons_cons, String.append_assoc]⟩

/-- The text of a helper starts with its name as a function. -/
theorem body_of_mem_helperRegistry {helper : Helper} (h : helper ∈ helperRegistry) :
    ∃ rest : List Char, isBoundary rest.head? = true ∧
      helper.body.toList = "function".toList ++ ' ' :: (helper.localName.toList ++ rest) := by
  have hlines : ∃ line lines, helper.body = String.intercalate "\n" (line :: lines) ∧
      ("function".toList ++ ' ' :: (helper.localName.toList ++ ['('])).isPrefixOf line.toList := by
    simp only [helperRegistry, List.mem_cons, List.not_mem_nil, or_false] at h
    rcases h with rfl | rfl | rfl | rfl | rfl | rfl <;> exact ⟨_, _, rfl, by decide +kernel⟩
  obtain ⟨line, lines, hbody, hprefix⟩ := hlines
  obtain ⟨behind, hline⟩ := List.isPrefixOf_iff_prefix.mp hprefix
  obtain ⟨rest, hrest⟩ := exists_intercalate_eq "\n" line lines
  refine ⟨'(' :: behind ++ rest.toList, rfl, ?_⟩
  rw [hbody, hrest, String.toList_append, ← hline]
  simp

/-- In a file, the text of a helper starts with its new name. -/
theorem functionName?_renames {helper : Helper} (h : helper ∈ helperRegistry) {fresh : String}
    (hfresh : IsWord fresh) (file : FileState) :
    functionName? (rename (file.renames helper fresh) helper.body) = some fresh := by
  obtain ⟨rest, hrest, hbody⟩ := body_of_mem_helperRegistry h
  have hkeyword : file.renames helper fresh "function" = none := by
    have hnone : (helper.dependencies.find? fun d => helperLocal d == "function") = none :=
      List.find?_eq_none.mpr fun d _ => by simp [helperLocal_ne_function]
    have hself : ("function" == helper.localName) = false :=
      beq_eq_false_iff_ne.mpr (helperLocal_ne_function helper.name).symm
    simp [renames, hnone, hself]
  exact functionName?_rename (isWord_helperLocal (isWordText_of_mem_helperRegistry h)) hfresh hkeyword
    (if_pos (beq_self_eq_true _)) hrest hbody

namespace Apart

theorem addInline {helper : Helper} (h : Apart file) (hmem : helper ∈ helperRegistry) :
    Apart (file.addInline helper) := by
  unfold FileState.addInline
  split
  · exact h
  · have hname := isWordText_of_mem_helperRegistry hmem
    have hword := (file.freshName_new hname).1
    have htext := functionName?_renames hmem hword (file.freshName helper.name).2
    have hfunctions : [rename ((file.freshName helper.name).2.renames helper (file.freshName helper.name).1)
        helper.body].map functionName? = [(file.freshName helper.name).1].map some := by simp [htext]
    exact h.bind hname rfl rfl (List.append_nil _).symm rfl hfunctions (List.Sublist.refl _)

/-- A helper that is emitted costs new names only. -/
theorem emission (h : Apart file) (hhas : helperRegistry.has name = true) :
    Apart (file.emission name).2 := by
  obtain ⟨helper, hget⟩ := Registry.has_iff.mp hhas
  have hname : IsWordText name :=
    Registry.name_of_get? hget ▸ isWordText_of_mem_helperRegistry (List.mem_of_find?_eq_some hget)
  have hmem : ∀ helper ∈ helperRegistry.closure [name], helper ∈ helperRegistry :=
    fun helper hh => List.mem_of_find?_eq_some (Registry.get?_of_mem_closure hh)
  unfold FileState.emission emitHelper
  split
  · rename_i importer himporter
    have himport := h.withImport hname (.named name (file.freshName name).1 importer.moduleId) rfl
    exact himport.congr rfl rfl rfl rfl
  · split
    · exact h.congr rfl rfl rfl rfl
    · rename_i moduleName useModules hmode
      have himport := h.withImport hname
        (.default (file.freshName name).1 (runtimePath moduleName useModules file.format name)) rfl
      exact himport.congr rfl rfl rfl rfl
    · have hdefined : Apart ((helperRegistry.closure [name]).foldl FileState.addInline file) :=
        List.foldlRecOn _ _ h fun file hfile helper hh => hfile.addInline (hmem helper hh)
      exact hdefined.congr rfl rfl rfl rfl

theorem request (h : Apart file) (name : String) : Apart (file.request name).2 := by
  cases hhas : helperRegistry.has name with
  | false =>
    cases hdeclared : file.declared.lookup name with
    | none => rwa [request_of_unknown hhas hdeclared]
    | some reference => rwa [request_of_declared hdeclared]
  | true =>
    cases hserved : file.served? name with
    | some reference => rwa [request_of_served hhas hserved]
    | none =>
      rw [request_of_new hhas hserved]
      exact h.emission hhas

end Apart

/-! ## Calls -/

end FileState

/-- What a plugin may ask a file for. -/
inductive BindingCall where
  | name (name : String)
  | namedImport (name source : String)
  | helper (name : String)
  deriving DecidableEq, Inhabited, Repr

/-- What a new binding is named after. -/
def BindingCall.base : BindingCall → String
  | name n | namedImport n _ | helper n => n

namespace FileState

/-- One call: what it gives, and the file behind it. -/
def call (file : FileState) : BindingCall → Except CompileError String × FileState
  | .name n => (.ok (file.freshName n).1, (file.freshName n).2)
  | .namedImport n source => (.ok (file.addNamedImport n source).1, (file.addNamedImport n source).2)
  | .helper n => file.request n

/-- The file behind a row of calls, failed ones included. -/
def afterCalls (file : FileState) (calls : List BindingCall) : FileState :=
  calls.foldl (fun file call => (file.call call).2) file

theorem Apart.call (h : Apart file) {call : BindingCall} (hcall : IsWordText call.base) :
    Apart (file.call call).2 := by
  cases call with
  | name n => exact h.freshName hcall
  | namedImport n source => exact h.withImport hcall (.named n _ source) rfl
  | helper n => exact h.request n

/-! ## References -/

theorem not_isWord_external (n : String) : ¬ IsWord (externalReference n) := fun h => by
  have hpoint := h.2 '.' (by simp [externalReference])
  exact absurd hpoint (by decide)

/-- The references of a file are names that were taken, unless helpers are external. Each of them stands
for one helper. -/
structure References (file : FileState) : Prop where
  mem : ∀ n x, file.served? n = some x →
    x ∈ file.names ∨ file.service = .external ∧ x = externalReference n
  inj : ∀ n m x, file.served? n = some x → file.served? m = some x → n = m

theorem Unrequested.references (h : Unrequested file) : References file where
  mem n x hx := by simp [h.served?_eq_none n] at hx
  inj n m x hx := by simp [h.served?_eq_none n] at hx

theorem References.not_served_fresh (h : References file) (hname : IsWordText name) (n : String) :
    file.served? n ≠ some (file.freshName name).1 := fun hserved => by
  obtain ⟨hword, hunused, -⟩ := file.freshName_new hname
  rcases h.mem n _ hserved with hmem | ⟨-, hexternal⟩
  · exact hunused hmem
  · exact not_isWord_external n (hexternal ▸ hword)

/-- What one call adds: names, and references to them unless helpers are external. -/
structure Grows (file : FileState) (given : List String) (file' : FileState) : Prop where
  service_eq : file'.service = file.service
  names_eq : file'.names = given ++ file.names
  kept : ∀ n x, file.served? n = some x → file'.served? n = some x
  new : ∀ n x, file'.served? n = some x → file.served? n = some x ∨ x ∈ given ∨
    file.service = .external ∧ x = externalReference n
  single : ∀ n m x, x ∈ given → file'.served? n = some x → file'.served? m = some x → n = m

/-- A new name that no helper has yet. -/
theorem References.grows_freshName (h : References file) (hname : IsWordText name)
    (hservice : file'.service = file.service) (hnames : file'.names = (file.freshName name).1 :: file.names)
    (hserved : ∀ n, file'.served? n = file.served? n) : Grows file [(file.freshName name).1] file' where
  service_eq := hservice
  names_eq := hnames
  kept n x hx := (hserved n).trans hx
  new n x hx := .inl ((hserved n).symm.trans hx)
  single n m x hx hn := by
    rw [List.mem_singleton.mp hx, hserved] at hn
    exact absurd hn (h.not_served_fresh hname n)

/-- Helpers are served by names of their own, or they are external. -/
theorem bindings_of_provides {service : HelperService} {helpers : List (String × String)}
    {imports : List InjectedImport} {definitions bindings : List String}
    (h : service.Provides helpers imports definitions bindings) :
    bindings = helpers.map (·.2) ∨ service = .external ∧ bindings = [] ∧
      ∀ b ∈ helpers, b.2 = externalReference b.1 := by
  cases service with
  | importer moduleId => exact .inl h.2.2
  | runtime moduleName useModules format => exact .inl h.2.2
  | inline => exact .inl h.2.2
  | external => exact .inr ⟨rfl, h.2.2⟩

theorem Emits.grows {added : List (String × String)} (h : Emits file added file') (hrefs : References file)
    (hapart : Apart file') : ∃ given, Grows file given file' := by
  obtain ⟨imports, definitions, bindings, hprovides, -, -, hnames⟩ := h.materialized
  have hkept (n x : String) (hx : file.served? n = some x) : file'.served? n = some x := h.served hx
  have hnodup : (bindings.reverse ++ file.names).Nodup := hnames ▸ hapart.names_nodup
  rcases bindings_of_provides hprovides with hbindings | ⟨hservice, hbindings, hreferences⟩
  · refine ⟨bindings.reverse, h.service_eq, hnames, hkept, fun n x hx => ?_, fun n m x hx hn hm => ?_⟩
    · rcases (h.served_iff n x).mp hx with hmem | hold
      · have hx : x ∈ added.map (·.2) := List.mem_map_of_mem hmem
        exact .inr (.inl (by simpa [hbindings] using hx))
      · exact .inl hold
    · -- A new name is no reference from before.
      have hnew (k : String) : file.served? k ≠ some x := by
        intro hold
        rcases hrefs.mem k x hold with hmem | ⟨-, rfl⟩
        · exact List.disjoint_of_nodup_append hnodup hx hmem
        · refine not_isWord_external k (hapart.names_new _ ?_).1
          rw [hnames]
          exact List.mem_append_left _ hx
      have hn := ((h.served_iff n x).mp hn).resolve_right (hnew n)
      have hm := ((h.served_iff m x).mp hm).resolve_right (hnew m)
      have honce : (added.map (·.2)).Nodup := by
        rw [← hbindings]
        exact List.nodup_reverse.mp (List.Nodup.of_append_left hnodup)
      exact (Prod.mk.inj (List.inj_on_of_nodup_map honce hn hm rfl)).1
  · refine ⟨[], h.service_eq, by rw [hnames, hbindings, List.reverse_nil], hkept, fun n x hx => ?_, by simp⟩
    rcases (h.served_iff n x).mp hx with hmem | hold
    · exact .inr (.inr ⟨hservice, hreferences _ hmem⟩)
    · exact .inl hold

/-! ## One call -/

/-- A call in the past, with its answer: a reference that the file keeps, or a name that is no reference. -/
def Answered (file : FileState) (x : String) : BindingCall → Prop
  | .helper n => file.served? n = some x
  | .name _ | .namedImport _ _ => x ∈ file.names ∧ ∀ n, file.served? n ≠ some x

theorem call_grows {call : BindingCall} (hcall : IsWordText call.base) (hapart : Apart file)
    (hrefs : References file) : ∃ given, Grows file given (file.call call).2 := by
  cases call with
  | name n => exact ⟨_, hrefs.grows_freshName hcall rfl rfl fun _ => rfl⟩
  | namedImport n source => exact ⟨_, hrefs.grows_freshName hcall rfl rfl fun _ => rfl⟩
  | helper n =>
    obtain ⟨_, hadded, -⟩ := emits_request file n
    exact hadded.grows hrefs (hapart.request n)

theorem answered_call {call : BindingCall} (hcall : IsWordText call.base) (hrefs : References file)
    {x : String} (hx : (file.call call).1 = .ok x) : Answered (file.call call).2 x call := by
  cases call with
  | name n =>
    obtain rfl := Except.ok.inj hx
    exact ⟨List.mem_cons_self, hrefs.not_served_fresh hcall⟩
  | namedImport n source =>
    obtain rfl := Except.ok.inj hx
    exact ⟨List.mem_cons_self, hrefs.not_served_fresh hcall⟩
  | helper n =>
    obtain ⟨_, -, hanswer, -⟩ := emits_request file n
    exact hanswer x hx

namespace Grows

variable {given : List String}

theorem references (h : Grows file given file') (hrefs : References file) (hapart : Apart file') :
    References file' := by
  have hmem (n x : String) (hx : file'.served? n = some x) :
      x ∈ file'.names ∨ file'.service = .external ∧ x = externalReference n := by
    rw [h.names_eq, h.service_eq, List.mem_append]
    rcases h.new n x hx with hold | hgiven | hexternal
    · rcases hrefs.mem n x hold with hmem | hexternal
      · exact .inl (.inr hmem)
      · exact .inr hexternal
    · exact .inl (.inl hgiven)
    · exact .inr hexternal
  refine ⟨hmem, fun n m x hn hm => ?_⟩
  by_cases hword : IsWord x
  · by_cases hgiven : x ∈ given
    · exact h.single n m x hgiven hn hm
    · have hold (k : String) (hk : file'.served? k = some x) : file.served? k = some x := by
        rcases h.new k x hk with hold | hnew | ⟨-, rfl⟩
        · exact hold
        · exact absurd hnew hgiven
        · exact absurd hword (not_isWord_external k)
      exact hrefs.inj n m x (hold n hn) (hold m hm)
  · have hexternal (k : String) (hk : file'.served? k = some x) : x = externalReference k := by
      rcases hmem k x hk with hnames | ⟨-, hexternal⟩
      · exact absurd (hapart.names_new x hnames).1 hword
      · exact hexternal
    exact (String.append_right_inj _).mp ((hexternal n hn).symm.trans (hexternal m hm))

/-- An answer stays what it is. -/
theorem answered (h : Grows file given file') (hapart : Apart file') {x : String} {call : BindingCall}
    (hx : Answered file x call) : Answered file' x call := by
  have hnames (hx : x ∈ file.names ∧ ∀ n, file.served? n ≠ some x) :
      x ∈ file'.names ∧ ∀ n, file'.served? n ≠ some x := by
    have hmem : x ∈ file'.names := h.names_eq ▸ List.mem_append_right _ hx.1
    refine ⟨hmem, fun n hn => ?_⟩
    rcases h.new n x hn with hold | hgiven | ⟨-, rfl⟩
    · exact hx.2 n hold
    · exact List.disjoint_of_nodup_append (h.names_eq ▸ hapart.names_nodup) hgiven hx.1
    · exact not_isWord_external n (hapart.names_new _ hmem).1
  cases call with
  | name n => exact hnames hx
  | namedImport n source => exact hnames hx
  | helper n => exact h.kept n x hx

end Grows

/-- Two calls that get the same answer are requests for the same helper. -/
theorem eq_helper_of_answered {call next : BindingCall} {x : String} (hnext : IsWordText next.base)
    (hapart : Apart file) (hrefs : References file) (hbefore : Answered file x call)
    (hx : (file.call next).1 = .ok x) : ∃ n, call = .helper n ∧ next = .helper n := by
  obtain ⟨given, hgrows⟩ := call_grows hnext hapart hrefs
  have hkept := hgrows.answered (hapart.call hnext) hbefore
  have hfresh (n : String) (hn : IsWordText n) (hx : (file.freshName n).1 = x) : False := by
    have hnot := hrefs.not_served_fresh hn
    cases call with
    | helper m => exact hnot m (hx ▸ hbefore)
    | _ => exact (file.freshName_new hn).2.1 (hx ▸ hbefore.1)
  cases next with
  | name n => exact (hfresh n hnext (Except.ok.inj hx)).elim
  | namedImport n source => exact (hfresh n hnext (Except.ok.inj hx)).elim
  | helper n =>
    have hanswered := answered_call hnext hrefs hx
    cases call with
    | helper m =>
      obtain rfl := (hgrows.references hrefs (hapart.call hnext)).inj m n x hkept hanswered
      exact ⟨m, rfl, rfl⟩
    | _ => exact (hkept.2 n hanswered).elim

/-! ## Rows of calls -/

variable {start file : FileState}

theorem call_keeps (file : FileState) (call : BindingCall) :
    (file.call call).2.code = file.code ∧ (file.call call).2.service = file.service := by
  cases call with
  | name n => exact ⟨rfl, rfl⟩
  | namedImport n source => exact ⟨rfl, rfl⟩
  | helper n =>
    obtain ⟨_, hadded, -⟩ := emits_request file n
    exact ⟨hadded.code_eq, hadded.service_eq⟩

theorem afterCalls_keeps (file : FileState) (calls : List BindingCall) :
    (file.afterCalls calls).code = file.code ∧ (file.afterCalls calls).service = file.service := by
  induction calls generalizing file with
  | nil => exact ⟨rfl, rfl⟩
  | cons call rest ih =>
    obtain ⟨hcode, hservice⟩ := call_keeps file call
    obtain ⟨hcode', hservice'⟩ := ih (file.call call).2
    exact ⟨hcode'.trans hcode, hservice'.trans hservice⟩

/-- What holds behind one row of calls holds behind a longer one. -/
theorem afterCalls_sound {calls : List BindingCall} (hcalls : ∀ call ∈ calls, IsWordText call.base)
    (hapart : Apart file) (hrefs : References file) :
    Apart (file.afterCalls calls) ∧ References (file.afterCalls calls) ∧
      ∀ x call, Answered file x call → Answered (file.afterCalls calls) x call := by
  induction calls generalizing file with
  | nil => exact ⟨hapart, hrefs, fun _ _ => id⟩
  | cons first rest ih =>
    have hfirst := hcalls first List.mem_cons_self
    obtain ⟨given, hgrows⟩ := call_grows hfirst hapart hrefs
    have hnext := hapart.call hfirst
    obtain ⟨hapart', hrefs', hanswered⟩ := ih (fun call hcall => hcalls call (List.mem_cons_of_mem _ hcall))
      hnext (hgrows.references hrefs hnext)
    exact ⟨hapart', hrefs', fun x call hx => hanswered x call (hgrows.answered hnext hx)⟩

/-- The answer to an earlier call is still what it was. -/
theorem Untouched.answered_of_earlier (h : start.Untouched) {before between : List BindingCall}
    {call : BindingCall} {x : String} (hcalls : ∀ c ∈ before ++ call :: between, IsWordText c.base)
    (hx : ((start.afterCalls before).call call).1 = .ok x) :
    Answered (start.afterCalls (before ++ call :: between)) x call := by
  have hcall := hcalls call (by simp)
  obtain ⟨hapart, hrefs, -⟩ := afterCalls_sound (fun c hc => hcalls c (List.mem_append_left _ hc))
    h.apart h.toUnrequested.references
  obtain ⟨given, hgrows⟩ := call_grows hcall hapart hrefs
  have hapart' := hapart.call hcall
  have hbetween : ∀ c ∈ between, IsWordText c.base := fun c hc => hcalls c (by simp [hc])
  obtain ⟨-, -, hkept⟩ := afterCalls_sound hbetween hapart' (hgrows.references hrefs hapart')
  have hrun : start.afterCalls (before ++ call :: between) =
      ((start.afterCalls before).call call).2.afterCalls between := List.foldl_append
  rw [hrun]
  exact hkept x call (answered_call hcall hrefs hx)

/-- Whatever plugins ask for, in whichever order: the search for a name ends with the first one that is
free. An answer is a new name that is no word of the source, or it refers to an external helper, and only
requests for one helper get the same answer twice. So the imports and the functions that were added are
apart from each other and from the words of the source. -/
theorem bindings_fresh (hstart : start.Untouched) {calls : List BindingCall}
    (hcalls : ∀ call ∈ calls, IsWordText call.base) :
    let file := start.afterCalls calls
    (∀ (other : FileState) (name : String), IsWordText name → ∃ k, 1 ≤ k ∧
      (other.freshName name).1 = numbered (helperLocal name) k ∧
      other.isTaken (numbered (helperLocal name) k) = false ∧
      ∀ j, 1 ≤ j → j < k → other.isTaken (numbered (helperLocal name) j) = true) ∧
    (∀ next x, IsWordText next.base → (file.call next).1 = .ok x →
      ((x ∈ (file.call next).2.names ∧ ¬ HasWord start.code x) ∨
        ∃ n, next = .helper n ∧ start.service = .external ∧ x = externalReference n) ∧
      ∀ before call between, calls = before ++ call :: between →
        ((start.afterCalls before).call call).1 = .ok x → ∃ n, call = .helper n ∧ next = .helper n) ∧
    ∃ functions : List String, file.inlineHelpers.map functionName? = functions.map some ∧
      (file.imports.map (·.localName) ++ functions).Nodup ∧
      ∀ x ∈ file.imports.map (·.localName) ++ functions, x ∈ file.names ∧ ¬ HasWord start.code x := by
  intro file
  obtain ⟨hapart, hrefs, -⟩ := afterCalls_sound hcalls hstart.apart hstart.toUnrequested.references
  obtain ⟨hcode, hservice⟩ := afterCalls_keeps start calls
  refine ⟨fun other name h => other.freshName_eq_numbered h, fun next x hnext hx => ⟨?_, ?_⟩, ?_⟩
  · have hapart' := hapart.call hnext
    obtain ⟨given, hgrows⟩ := call_grows hnext hapart hrefs
    have hnew (hmem : x ∈ (file.call next).2.names) : ¬ HasWord start.code x := by
      rw [← hcode, ← (call_keeps file next).1]
      exact (hapart'.names_new x hmem).2
    have hanswered := answered_call hnext hrefs hx
    cases next with
    | helper n =>
      rcases (hgrows.references hrefs hapart').mem n x hanswered with hmem | ⟨hexternal, hreference⟩
      · exact .inl ⟨hmem, hnew hmem⟩
      · exact .inr ⟨n, rfl, hservice ▸ hgrows.service_eq ▸ hexternal, hreference⟩
    | _ => exact .inl ⟨hanswered.1, hnew hanswered.1⟩
  · rintro before call between rfl hbefore
    exact eq_helper_of_answered hnext hapart hrefs (hstart.answered_of_earlier hcalls hbefore) hx
  · obtain ⟨functions, hfunctions, hnodup, hsub⟩ := hapart.bound_once
    refine ⟨functions, hfunctions, hnodup, fun x hx => ⟨hsub hx, ?_⟩⟩
    rw [← hcode]
    exact (hapart.names_new x (hsub hx)).2

/-- Names that differ in their numbers only: `_x22` is the second one for `x2`, and `_x3` the third one
for `x`. -/
theorem bindings_fresh_numbers :
    let start := preparedFile [] {} "var _x = _x2;"
    let calls : List BindingCall := [.name "x", .namedImport "x2" "m", .helper "typeof", .name "x"]
    start.Untouched ∧ (∀ call ∈ calls, IsWordText call.base) ∧
      (start.afterCalls calls).names = ["_x4", "_typeof", "_x22", "_x3"] ∧
      ∃ functions : List String,
        (start.afterCalls calls).inlineHelpers.map functionName? = functions.map some ∧
        ((start.afterCalls calls).imports.map (·.localName) ++ functions).Nodup := by
  intro start calls
  have hstart := untouched_preparedFile [] {} "var _x = _x2;"
  have hcalls : ∀ call ∈ calls, IsWordText call.base := by decide +kernel
  obtain ⟨-, -, functions, hfunctions, hnodup, -⟩ := bindings_fresh hstart hcalls
  exact ⟨hstart, hcalls, by decide +kernel, functions, hfunctions, hnodup⟩

end FileState

end ModuleBuild
