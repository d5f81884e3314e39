import Mathlib
import ModuleBuild.Proofs.Plugin.Calls

/-!
# Calls beside each other

Calls of `transform` on one plugin may run at the same time: between two steps of a call, other calls may do
theirs. So calls for one file may all miss the answer that another one is about to keep, and then they all
probe. On a compiler that answers each question in one way only they find the same, and it makes no difference.
Likewise a call that adds a warning to the ones reported tells it in a step of its own.

## Main definitions

* `InputPlugin.HasProbe` — the result that probes of a file have.
* `InputPlugin.Sound`, `InputPlugin.Told` — what is kept by every step.

## Main statements

* `InputPlugin.Sound.move`, `InputPlugin.Told.move` — what one step keeps.
* `InputPlugin.run_sound` — what any steps of any calls keep.
* `InputPlugin.transforms_agree` — what holds behind them.
-/

namespace ModuleBuild

open PreflightCache

namespace InputPlugin

variable {ι : Type} [DecidableEq ι]

section

variable (plugin : InputPlugin Id) (calls : ι → TransformCall)

/-! ## What is kept and found -/

/-- The name under which a call looks for its answer, if it gets as far as that. -/
def fileName? (call : TransformCall) : Option String :=
  match plugin.question call with
  | .error _ => none
  | .ok asked => some (key asked.2)

/-- Some call for a file has probed, with this result. -/
def Probed (s : CallsState ι) (name : String) (result : Except PluginError HelperStrategy) : Prop :=
  ∃ j ∈ s.probes, ∃ asked, plugin.question (calls j) = .ok asked ∧ key asked.2 = name ∧
    probe plugin.compiler asked.2 = result

/-- What is known of a call at its stage. -/
def Fits (s : CallsState ι) (i : ι) : CallStage → Prop
  | .asking => i ∉ s.probes
  | .probing asked => plugin.question (calls i) = .ok asked ∧ i ∉ s.probes
  | .storing asked strategy =>
    plugin.question (calls i) = .ok asked ∧ i ∈ s.probes ∧
      probe plugin.compiler asked.2 = .ok strategy
  | .found asked strategy | .telling asked strategy | .completing asked strategy =>
    plugin.question (calls i) = .ok asked ∧ (s.cache.get? asked.2).isSome = true ∧
      plugin.Probed calls s (key asked.2) (.ok strategy)
  | .done none answer => plugin.question (calls i) = .error answer ∧ i ∉ s.probes
  | .done (some (.error e)) answer =>
    ∃ asked, plugin.question (calls i) = .ok asked ∧ i ∈ s.probes ∧
      probe plugin.compiler asked.2 = .error e ∧ answer = .error e
  | .done (some (.ok strategy)) answer =>
    ∃ asked, plugin.question (calls i) = .ok asked ∧ (s.cache.get? asked.2).isSome = true ∧
      plugin.Probed calls s (key asked.2) (.ok strategy) ∧ answer = plugin.completed (calls i) asked strategy

/-- Each call is where its probe, or that of another call for its file, has brought it. What is kept for a
file was found by a probe of it, and no call probes twice. -/
structure Sound (s : CallsState ι) : Prop where
  fits : ∀ i, plugin.Fits calls s i (s.stage i)
  kept : ∀ name strategy, s.cache.results.lookup name = some strategy →
    plugin.Probed calls s name (.ok strategy)
  nodup : s.probes.Nodup

omit [DecidableEq ι] in
theorem sound_start : plugin.Sound calls {} where
  fits _ := List.not_mem_nil
  kept _ _ h := by cases h
  nodup := List.nodup_nil

/-- A state behind a step of one call: what was kept or probed is, and no other call has probed. -/
structure Follows (s : CallsState ι) (i : ι) (t : CallsState ι) : Prop where
  kept : ∀ options, (s.cache.get? options).isSome = true → (t.cache.get? options).isSome = true
  probes : s.probes ⊆ t.probes
  others : ∀ j, j ≠ i → j ∈ t.probes → j ∈ s.probes

variable {plugin calls} {s t : CallsState ι} {i : ι} {stage : CallStage}

omit [DecidableEq ι] in
theorem Probed.mono {name : String} {result : Except PluginError HelperStrategy}
    (h : plugin.Probed calls s name result) (hprobes : s.probes ⊆ t.probes) :
    plugin.Probed calls t name result := by
  obtain ⟨j, hj, hprobed⟩ := h
  exact ⟨j, hprobes hj, hprobed⟩

omit [DecidableEq ι] in
theorem Fits.follow (h : Follows s i t) {j : ι} (hj : j ≠ i) (hfits : plugin.Fits calls s j stage) :
    plugin.Fits calls t j stage := by
  have hnot (hmem : j ∉ s.probes) : j ∉ t.probes := fun hmem' => hmem (h.others j hj hmem')
  cases stage with
  | asking => exact hnot hfits
  | probing asked => exact ⟨hfits.1, hnot hfits.2⟩
  | storing asked strategy => exact ⟨hfits.1, h.probes hfits.2.1, hfits.2.2⟩
  | found asked strategy | telling asked strategy | completing asked strategy =>
    exact ⟨hfits.1, h.kept _ hfits.2.1, hfits.2.2.mono h.probes⟩
  | done strategy answer =>
    match strategy, hfits with
    | none, hfits => exact ⟨hfits.1, hnot hfits.2⟩
    | some (.error e), ⟨asked, hasks, hmem, hresult⟩ => exact ⟨asked, hasks, h.probes hmem, hresult⟩
    | some (.ok strategy), ⟨asked, hasks, hsome, hprobed, hanswer⟩ =>
      exact ⟨asked, hasks, h.kept _ hsome, hprobed.mono h.probes, hanswer⟩

/-- A call moves on to a stage that fits. -/
theorem Sound.goto (h : plugin.Sound calls s) (hfollows : Follows s i t) (hstage : t.stage = s.stage)
    (hkept : ∀ name strategy, t.cache.results.lookup name = some strategy →
      plugin.Probed calls t name (.ok strategy))
    (hnodup : t.probes.Nodup) (hfits : plugin.Fits calls t i stage) : plugin.Sound calls (t.goto i stage) where
  fits j := by
    by_cases hj : j = i
    · subst hj
      rw [CallsState.goto_stage_self]
      exact hfits
    · rw [CallsState.goto_stage_of_ne t hj, hstage]
      exact (h.fits j).follow hfollows hj
  kept := hkept
  nodup := hnodup

/-- A call moves on and changes nothing that calls share. -/
theorem Sound.goto_same (h : plugin.Sound calls s) (hcache : t.cache = s.cache) (hprobes : t.probes = s.probes)
    (hstage : t.stage = s.stage) (hfits : plugin.Fits calls t i stage) : plugin.Sound calls (t.goto i stage) := by
  refine h.goto ⟨fun _ => hcache ▸ id, hprobes ▸ List.Subset.refl _, fun _ _ => hprobes ▸ id⟩ hstage ?_ ?_ hfits
  · intro name strategy hlookup
    exact (h.kept name strategy (hcache ▸ hlookup)).mono (hprobes ▸ List.Subset.refl _)
  · exact hprobes ▸ h.nodup

/-- A call has probed. -/
theorem Sound.goto_probed (h : plugin.Sound calls s) (hnew : i ∉ s.probes)
    (hfits : plugin.Fits calls { s with probes := s.probes ++ [i] } i stage) :
    plugin.Sound calls ({ s with probes := s.probes ++ [i] }.goto i stage) := by
  have hsub : s.probes ⊆ s.probes ++ [i] := List.subset_append_left _ _
  refine h.goto ⟨fun _ => id, hsub, fun j hj hmem => ?_⟩ rfl (fun name strategy hlookup => ?_) ?_ hfits
  · simpa [hj] using hmem
  · exact (h.kept name strategy hlookup).mono hsub
  · exact h.nodup.append (List.nodup_singleton i) (List.disjoint_singleton.mpr hnew)

/-- A call keeps what its probe found. -/
theorem Sound.goto_stored (h : plugin.Sound calls s) {asked : Question} {strategy : HelperStrategy}
    (hstage : s.stage i = .storing asked strategy) :
    plugin.Sound calls
      ({ s with cache := s.cache.insert asked.2 strategy }.goto i (.found asked strategy)) := by
  have hi := h.fits i
  rw [hstage] at hi
  obtain ⟨hasks, hmem, hresult⟩ := hi
  have hprobed : plugin.Probed calls s (key asked.2) (.ok strategy) := ⟨i, hmem, asked, hasks, rfl, hresult⟩
  have hinsert := PreflightCache.lookup_insert s.cache asked.2 strategy
  refine h.goto ⟨fun options hsome => ?_, List.Subset.refl _, fun _ _ => id⟩ rfl
    (fun name found hlookup => ?_) h.nodup ⟨hasks, ?_, hprobed⟩
  · unfold PreflightCache.get? at hsome ⊢
    rw [hinsert]
    split
    · rfl
    · exact hsome
  · rw [hinsert] at hlookup
    split at hlookup
    · rename_i hname
      obtain rfl := Option.some.inj hlookup
      exact hname ▸ hprobed
    · exact h.kept name found hlookup
  · unfold PreflightCache.get?
    rw [hinsert, if_pos rfl]
    rfl

theorem Sound.move (h : plugin.Sound calls s) (hmove : plugin.Move calls s i t) : plugin.Sound calls t := by
  have hi := h.fits i
  cases hmove with
  | leave stage ends =>
    rw [stage] at hi
    exact h.goto_same rfl rfl rfl ⟨ends, hi⟩
  | hit stage asks kept => exact h.goto_same rfl rfl rfl ⟨asks, by simp [kept], h.kept _ _ kept⟩
  | miss stage asks =>
    rw [stage] at hi
    exact h.goto_same rfl rfl rfl ⟨asks, hi⟩
  | probe stage result =>
    rw [stage] at hi
    exact h.goto_probed hi.2 ⟨hi.1, by simp, result⟩
  | fail stage result =>
    rw [stage] at hi
    exact h.goto_probed hi.2 ⟨_, hi.1, by simp, result, rfl⟩
  | store stage => exact h.goto_stored stage
  | warn stage _ _ | pass stage _ | tell stage =>
    rw [stage] at hi
    exact h.goto_same rfl rfl rfl hi
  | complete stage =>
    rw [stage] at hi
    exact h.goto_same rfl rfl rfl ⟨_, hi.1, hi.2.1, hi.2.2, rfl⟩
  | rest stage => exact h

/-! ## What is told -/

variable (plugin) in
/-- A call raises a text: it acts on a strategy that is warned about. -/
def Raises (s : CallsState ι) (i : ι) (text : String) : Prop :=
  text = externalHelpersDeprecated ∧
    ∃ strategy, (s.stage i).strategy? = some (.ok strategy) ∧ plugin.warns strategy = true

variable (plugin calls) in
/-- The warning is not reported yet, or one call is about to tell it, or it was told once. -/
inductive Told (s : CallsState ι) : Prop
  | unreported (seen : s.warnings.seen = []) (reports : s.reports = [])
    (telling : ∀ j, (s.stage j).isTelling = false)
    (warned : ∀ j strategy, (s.stage j).warned? = some strategy → plugin.warns strategy = false)
  | telling (i : ι) (seen : s.warnings.seen = [externalHelpersDeprecated]) (reports : s.reports = [])
    (raises : plugin.Raises s i externalHelpersDeprecated) (telling : ∀ j, (s.stage j).isTelling = true ↔ j = i)
  | told (i : ι) (seen : s.warnings.seen = [externalHelpersDeprecated])
    (reports : s.reports = [((calls i).context, externalHelpersDeprecated)])
    (raises : plugin.Raises s i externalHelpersDeprecated) (telling : ∀ j, (s.stage j).isTelling = false)

omit [DecidableEq ι] in
theorem told_start : plugin.Told calls {} :=
  .unreported rfl rfl (fun _ => rfl) fun _ _ h => by cases h

/-- A strategy that a call acts on stays the same. -/
theorem strategy?_move (hmove : plugin.Move calls s i t) {j : ι} {x : Except PluginError HelperStrategy}
    (hx : (s.stage j).strategy? = some x) : (t.stage j).strategy? = some x := by
  by_cases hj : j = i
  · subst hj
    cases hmove with
    | leave stage _ | hit stage _ _ | miss stage _ | probe stage _ | fail stage _ =>
      rw [stage] at hx
      cases hx
    | store stage | warn stage _ _ | pass stage _ | tell stage | complete stage =>
      rw [stage] at hx
      rw [CallsState.goto_stage_self]
      exact hx
    | rest stage => exact hx
  · cases hmove with
    | rest stage => exact hx
    | _ =>
      rw [CallsState.goto_stage_of_ne _ hj]
      exact hx

theorem Raises.move (hmove : plugin.Move calls s i t) {j : ι} {text : String} (h : plugin.Raises s j text) :
    plugin.Raises t j text := by
  obtain ⟨rfl, strategy, hstrategy, hwarns⟩ := h
  exact ⟨rfl, strategy, strategy?_move hmove hstrategy, hwarns⟩

/-- A step that neither reports nor tells. -/
theorem Told.same (h : plugin.Told calls s) (hmove : plugin.Move calls s i t)
    (hwarnings : t.warnings = s.warnings) (hreports : t.reports = s.reports)
    (htelling : ∀ j, (t.stage j).isTelling = (s.stage j).isTelling)
    (hwarned : ∀ j strategy, (t.stage j).warned? = some strategy → (s.stage j).warned? = some strategy ∨
      (plugin.warns strategy = true → externalHelpersDeprecated ∈ s.warnings.seen)) : plugin.Told calls t := by
  cases h with
  | unreported seen reports telling warned =>
    refine .unreported (hwarnings ▸ seen) (hreports ▸ reports) (fun j => (htelling j).trans (telling j)) ?_
    intro j strategy hj
    rcases hwarned j strategy hj with hold | hseen
    · exact warned j strategy hold
    · simpa [seen] using hseen
  | telling k seen reports raises telling =>
    exact .telling k (hwarnings ▸ seen) (hreports ▸ reports) (raises.move hmove) fun j => by
      rw [htelling, telling]
  | told k seen reports raises telling =>
    exact .told k (hwarnings ▸ seen) (hreports ▸ reports) (raises.move hmove) fun j =>
      (htelling j).trans (telling j)

/-- A call moves on between stages that do not tell. -/
theorem Told.goto (h : plugin.Told calls s) (hmove : plugin.Move calls s i (t.goto i stage))
    (hwarnings : t.warnings = s.warnings) (hreports : t.reports = s.reports) (hstage : t.stage = s.stage)
    (hbefore : (s.stage i).isTelling = false) (hbehind : stage.isTelling = false)
    (hwarned : ∀ strategy, stage.warned? = some strategy → (s.stage i).warned? = some strategy ∨
      (plugin.warns strategy = true → externalHelpersDeprecated ∈ s.warnings.seen)) :
    plugin.Told calls (t.goto i stage) := by
  have hother {j : ι} (hj : j ≠ i) : (t.goto i stage).stage j = s.stage j := by
    rw [CallsState.goto_stage_of_ne t hj, hstage]
  refine h.same hmove hwarnings hreports (fun j => ?_) fun j strategy hwarns => ?_
  · by_cases hj : j = i
    · rw [hj, CallsState.goto_stage_self, hbefore, hbehind]
    · rw [hother hj]
  · by_cases hj : j = i
    · rw [hj, CallsState.goto_stage_self] at hwarns
      exact hj ▸ hwarned strategy hwarns
    · exact .inl (hother hj ▸ hwarns)

theorem Told.move (h : plugin.Told calls s) (hmove : plugin.Move calls s i t) : plugin.Told calls t := by
  have hstep := hmove
  cases hmove with
  | leave stage _ | hit stage _ _ | miss stage _ | probe stage _ | fail stage _ | store stage =>
    exact h.goto hstep rfl rfl rfl (by rw [stage]; rfl) rfl (by simp [CallStage.warned?])
  | pass stage seen =>
    refine h.goto hstep rfl rfl rfl (by rw [stage]; rfl) rfl fun strategy hstrategy => .inr ?_
    obtain rfl := Option.some.inj hstrategy
    exact seen
  | complete stage =>
    refine h.goto hstep rfl rfl rfl (by rw [stage]; rfl) rfl fun strategy hstrategy => .inl ?_
    rw [stage]
    exact hstrategy
  | rest stage => exact h
  | @warn asked strategy stage warns new =>
    have hraises : plugin.Raises (CallsState.goto
        { s with warnings := ⟨externalHelpersDeprecated :: s.warnings.seen⟩ } i (.telling asked strategy)) i
        externalHelpersDeprecated :=
      ⟨rfl, strategy, by rw [CallsState.goto_stage_self]; rfl, warns⟩
    cases h with
    | unreported seen reports telling warned =>
      refine .telling i (by simp [CallsState.goto, seen]) reports hraises fun j => ?_
      by_cases hj : j = i
      · simp [hj, CallStage.isTelling]
      · rw [CallsState.goto_stage_of_ne _ hj]
        simp [hj, telling j]
    | telling k seen _ _ _ | told k seen _ _ _ => exact absurd (by simp [seen]) new
  | @tell asked strategy stage =>
    have htelling : (s.stage i).isTelling = true := by rw [stage]; rfl
    cases h with
    | telling k seen reports raises telling =>
      obtain rfl := (telling i).mp htelling
      refine .told i seen (by simp [CallsState.goto, reports]) (raises.move hstep) fun j => ?_
      by_cases hj : j = i
      · simp [hj, CallStage.isTelling]
      · rw [CallsState.goto_stage_of_ne _ hj]
        simpa [hj] using telling j
    | unreported _ _ telling _ | told _ _ _ _ telling =>
      rw [telling i] at htelling
      cases htelling

/-! ## All interleavings -/

theorem run_sound (schedule : List ι) (hsound : plugin.Sound calls s) (htold : plugin.Told calls s) :
    plugin.Sound calls (plugin.run calls s schedule) ∧ plugin.Told calls (plugin.run calls s schedule) := by
  induction schedule generalizing s with
  | nil => exact ⟨hsound, htold⟩
  | cons i rest ih =>
    have hmove := plugin.move_step calls s i
    exact ih (hsound.move hmove) (htold.move hmove)

variable (plugin calls) in
/-- Whichever call for a file is asked about, a probe of its options has this result. -/
def HasProbe (name : String) (result : Except PluginError HelperStrategy) : Prop :=
  ∀ i asked, plugin.question (calls i) = .ok asked → key asked.2 = name →
    probe plugin.compiler asked.2 = result

variable (plugin) in
/-- The answer of a call that is told this result of a probe. -/
def answer (call : TransformCall) (result : Except PluginError HelperStrategy) :
    Except PluginError (Option CompileOutput) :=
  match plugin.question call with
  | .error answer => answer
  | .ok asked =>
    match result with
    | .error e => .error e
    | .ok strategy => plugin.completed call asked strategy

/-- Without a hook, a call asks about the configuration of its file as it is. -/
theorem loaded_of_question (noHook : plugin.overrides.config = none) (keeps : KeepsName plugin.compiler)
    {call : TransformCall} {asked : Question} (hasks : plugin.question call = .ok asked) :
    plugin.compiler.loadPartialConfig (plugin.optionsFor (key asked.2)) = .ok (some asked.1) ∧
      asked.2 = asked.1.options := by
  unfold question adjusted at hasks
  split at hasks
  · cases hasks
  cases hload : plugin.compiler.loadPartialConfig (plugin.optionsFor call.id) with
  | error e => simp [hload] at hasks
  | ok found =>
    cases found with
    | none => simp [hload] at hasks
    | some config =>
      simp only [hload, noHook] at hasks
      obtain rfl := Except.ok.inj hasks
      have hname : key config.options = call.id := by simp [key, keeps _ _ hload, optionsFor]
      exact ⟨hname.symm ▸ hload, rfl⟩

omit [DecidableEq ι] in
/-- Without a hook, the name of a file decides what a probe of it finds. -/
theorem exists_hasProbe (noHook : plugin.overrides.config = none) (keeps : KeepsName plugin.compiler)
    (name : String) : ∃ result, plugin.HasProbe calls name result := by
  by_cases hasked : ∃ i asked, plugin.question (calls i) = .ok asked ∧ key asked.2 = name
  · obtain ⟨i, asked, hasks, rfl⟩ := hasked
    refine ⟨probe plugin.compiler asked.2, fun j other hother hname => ?_⟩
    obtain ⟨hload, hoptions⟩ := loaded_of_question noHook keeps hasks
    obtain ⟨hload', hoptions'⟩ := loaded_of_question noHook keeps hother
    rw [hname, hload] at hload'
    obtain hsame := Option.some.inj (Except.ok.inj hload')
    rw [hoptions', ← hsame, ← hoptions]
  · exact ⟨.ok .inline, fun j other hother hname => absurd ⟨j, other, hother, hname⟩ hasked⟩

omit [DecidableEq ι] in
theorem fileName?_eq_some_iff {call : TransformCall} {name : String} :
    plugin.fileName? call = some name ↔ ∃ asked, plugin.question call = .ok asked ∧ key asked.2 = name := by
  unfold fileName?
  cases plugin.question call <;> simp

omit [DecidableEq ι] in
theorem Sound.exists_question (h : plugin.Sound calls s) (hi : i ∈ s.probes) :
    ∃ asked, plugin.question (calls i) = .ok asked := by
  have hfits := h.fits i
  cases hstage : s.stage i with
  | asking =>
    rw [hstage] at hfits
    exact absurd hi hfits
  | probing asked | storing asked _ | found asked _ | telling asked _ | completing asked _ =>
    rw [hstage] at hfits
    exact ⟨asked, hfits.1⟩
  | done found answer =>
    rw [hstage] at hfits
    match found, hfits with
    | none, hfits => exact absurd hi hfits.2
    | some (.error e), ⟨asked, hasks, _⟩ => exact ⟨asked, hasks⟩
    | some (.ok strategy), ⟨asked, hasks, _⟩ => exact ⟨asked, hasks⟩

omit [DecidableEq ι] in
/-- An answered call that got as far as its question acts on what some probe for its file found; if that
was a strategy, then one is kept. -/
theorem Sound.done (h : plugin.Sound calls s) {asked : Question} (hasks : plugin.question (calls i) = .ok asked)
    {found : Option (Except PluginError HelperStrategy)} {answer : Except PluginError (Option CompileOutput)}
    (hstage : s.stage i = .done found answer) :
    ∃ result, found = some result ∧ plugin.Probed calls s (key asked.2) result ∧
      answer = plugin.answer (calls i) result ∧
      ((s.cache.get? asked.2).isSome = true ∨ ∃ e, probe plugin.compiler asked.2 = .error e) := by
  have hfits := h.fits i
  rw [hstage] at hfits
  match found, hfits with
  | none, hfits => exact absurd (hfits.1.symm.trans hasks) (by simp)
  | some (.error e), ⟨other, hother, hmem, hprobe, hanswer⟩ =>
    obtain rfl := Except.ok.inj (hasks.symm.trans hother)
    exact ⟨_, rfl, ⟨i, hmem, asked, hasks, rfl, hprobe⟩, by simp [hanswer, InputPlugin.answer, hasks],
      .inr ⟨e, hprobe⟩⟩
  | some (.ok strategy), ⟨other, hother, hkept, hprobed, hanswer⟩ =>
    obtain rfl := Except.ok.inj (hasks.symm.trans hother)
    exact ⟨_, rfl, hprobed, by simp [hanswer, InputPlugin.answer, hasks], .inl hkept⟩

omit [DecidableEq ι] in
/-- What a call acts on was found by a probe for its file. -/
theorem Sound.probed_of_strategy? (h : plugin.Sound calls s) {asked : Question}
    (hasks : plugin.question (calls i) = .ok asked) {found : Except PluginError HelperStrategy}
    (hfound : (s.stage i).strategy? = some found) : plugin.Probed calls s (key asked.2) found := by
  have hfits := h.fits i
  cases hstage : s.stage i with
  | asking | probing _ =>
    rw [hstage] at hfound
    cases hfound
  | storing other strategy =>
    rw [hstage] at hfits hfound
    obtain rfl := Except.ok.inj (hasks.symm.trans hfits.1)
    obtain rfl := Option.some.inj hfound
    exact ⟨i, hfits.2.1, asked, hasks, rfl, hfits.2.2⟩
  | found other strategy | telling other strategy | completing other strategy =>
    rw [hstage] at hfits hfound
    obtain rfl := Except.ok.inj (hasks.symm.trans hfits.1)
    obtain rfl := Option.some.inj hfound
    exact hfits.2.2
  | done strategy answer =>
    obtain ⟨result, rfl, hprobed, -⟩ := h.done hasks hstage
    rw [hstage] at hfound
    exact Option.some.inj hfound ▸ hprobed

omit [DecidableEq ι] in
/-- If all probes of a file have one result, then what was probed is this result. -/
theorem Probed.eq_result {name : String} {found result : Except PluginError HelperStrategy}
    (h : plugin.Probed calls s name found) (hresult : plugin.HasProbe calls name result) : found = result := by
  obtain ⟨j, -, asked, hasks, hname, rfl⟩ := h
  exact hresult j asked hasks hname

omit [DecidableEq ι] in
/-- No more calls probe than ask for a strategy. -/
theorem Sound.length_probes_le [Finite ι] (h : plugin.Sound calls s) :
    s.probes.length ≤ {i | (plugin.fileName? (calls i)).isSome = true}.ncard := by
  classical
  have hsub : (s.probes.toFinset : Set ι) ⊆ {i | (plugin.fileName? (calls i)).isSome = true} := by
    intro i hi
    obtain ⟨asked, hasks⟩ := h.exists_question (List.mem_toFinset.mp hi)
    exact Option.isSome_iff_exists.mpr ⟨_, fileName?_eq_some_iff.mpr ⟨asked, hasks, rfl⟩⟩
  rw [← List.toFinset_card_of_nodup h.nodup, ← Set.ncard_coe_finset]
  exact Set.ncard_le_ncard hsub (Set.toFinite _)

omit [DecidableEq ι] in
/-- When all calls are answered, an answer is kept just for the files that a probe succeeds for. -/
theorem Sound.kept_iff (h : plugin.Sound calls s) (hdone : ∀ i, (s.stage i).isDone = true) (name : String) :
    (∃ strategy, s.cache.results.lookup name = some strategy) ↔
      ∃ i asked strategy, plugin.question (calls i) = .ok asked ∧ key asked.2 = name ∧
        probe plugin.compiler asked.2 = .ok strategy := by
  constructor
  · rintro ⟨strategy, hlookup⟩
    obtain ⟨j, -, asked, hasks, hname, hprobe⟩ := h.kept name strategy hlookup
    exact ⟨j, asked, strategy, hasks, hname, hprobe⟩
  · rintro ⟨i, asked, strategy, hasks, rfl, hprobe⟩
    obtain ⟨found, answer, hstage⟩ := CallStage.exists_done (hdone i)
    obtain ⟨-, -, -, -, hkept | ⟨e, herror⟩⟩ := h.done hasks hstage
    · exact Option.isSome_iff_exists.mp hkept
    · rw [hprobe] at herror
      cases herror

omit [DecidableEq ι] in
/-- When all calls are answered, each file was probed at least once. -/
theorem Sound.ncard_names_le (h : plugin.Sound calls s) (hdone : ∀ i, (s.stage i).isDone = true) :
    {name | ∃ i, plugin.fileName? (calls i) = some name}.ncard ≤ s.probes.length := by
  -- Each file has a call that probed.
  have hsub : {name | ∃ i, plugin.fileName? (calls i) = some name} ⊆
      ((s.probes.filterMap fun j => plugin.fileName? (calls j)).toFinset : Set String) := by
    rintro name ⟨i, hname⟩
    obtain ⟨asked, hasks, rfl⟩ := fileName?_eq_some_iff.mp hname
    obtain ⟨found, answer, hstage⟩ := CallStage.exists_done (hdone i)
    obtain ⟨result, -, ⟨j, hj, other, hother, hsame, -⟩, -⟩ := h.done hasks hstage
    have hprobed : plugin.fileName? (calls j) = some (key asked.2) :=
      fileName?_eq_some_iff.mpr ⟨other, hother, hsame⟩
    exact List.mem_toFinset.mpr (List.mem_filterMap.mpr ⟨j, hj, hprobed⟩)
  calc {name | ∃ i, plugin.fileName? (calls i) = some name}.ncard
      ≤ ((s.probes.filterMap fun j => plugin.fileName? (calls j)).toFinset : Set String).ncard :=
        Set.ncard_le_ncard hsub (Finset.finite_toSet _)
    _ = (s.probes.filterMap fun j => plugin.fileName? (calls j)).toFinset.card := Set.ncard_coe_finset _
    _ ≤ (s.probes.filterMap fun j => plugin.fileName? (calls j)).length := List.toFinset_card_le _
    _ ≤ s.probes.length := List.length_filterMap_le _ _

omit [DecidableEq ι] in
/-- When all calls are answered, a warning that some call raises was told once. -/
theorem Told.count_eq_one (h : plugin.Told calls s) (hdone : ∀ i, (s.stage i).isDone = true) {i : ι}
    {text : String} (hraises : plugin.Raises s i text) : (s.reports.map (·.2)).count text = 1 := by
  obtain ⟨rfl, strategy, hstrategy, hwarns⟩ := hraises
  cases h with
  | unreported _ _ _ warned =>
    obtain ⟨found, answer, hstage⟩ := CallStage.exists_done (hdone i)
    rw [hstage] at hstrategy
    obtain rfl : found = some (.ok strategy) := hstrategy
    have hno := warned i strategy (by rw [hstage]; rfl)
    exact absurd (hwarns.symm.trans hno) (by decide)
  | telling k _ _ _ telling =>
    obtain ⟨found, answer, hstage⟩ := CallStage.exists_done (hdone k)
    have htelling := (telling k).mpr rfl
    rw [hstage] at htelling
    cases htelling
  | told k _ reports _ _ => simp [reports]

omit [DecidableEq ι] in
/-- A warning is told to a context of a call that raises it. -/
theorem Told.exists_raises (h : plugin.Told calls s) {report : Nat × String} (hreport : report ∈ s.reports) :
    ∃ i, report.1 = (calls i).context ∧ plugin.Raises s i report.2 := by
  cases h with
  | unreported _ reports _ _ | telling _ _ reports _ _ =>
    rw [reports] at hreport
    cases hreport
  | told k _ reports raises _ =>
    rw [reports] at hreport
    obtain rfl := List.mem_singleton.mp hreport
    exact ⟨k, rfl, raises⟩

/-- Calls of `transform` on one plugin, taking their steps in any order. For each file whose probes have one
result, which are all files if no hook makes options of its own: all calls for the file act on this result,
and whatever is kept for the file is this result, so nothing is if the probe fails. No more calls probe than
ask for a strategy. When all calls are answered, an answer is kept just for the files that a probe succeeds
for, each file was probed at least once, and a warning that some call raises was told once, to a context of
a call that raises it. -/
theorem transforms_agree [Finite ι] (plugin : InputPlugin Id) (calls : ι → TransformCall) (schedule : List ι) :
    let s := plugin.run calls {} schedule
    (∀ name result, plugin.HasProbe calls name result →
      (∀ i, plugin.fileName? (calls i) = some name →
        (∀ found, (s.stage i).strategy? = some found → found = result) ∧
        ∀ found answer, s.stage i = .done found answer →
          found = some result ∧ answer = plugin.answer (calls i) result) ∧
      ∀ strategy, s.cache.results.lookup name = some strategy → result = .ok strategy) ∧
    (plugin.overrides.config = none → KeepsName plugin.compiler →
      ∀ name, ∃ result, plugin.HasProbe calls name result) ∧
    s.probes.length ≤ {i | (plugin.fileName? (calls i)).isSome = true}.ncard ∧
    ((∀ i, (s.stage i).isDone = true) →
      (∀ name, (∃ strategy, s.cache.results.lookup name = some strategy) ↔
        ∃ i asked strategy, plugin.question (calls i) = .ok asked ∧ key asked.2 = name ∧
          probe plugin.compiler asked.2 = .ok strategy) ∧
      {name | ∃ i, plugin.fileName? (calls i) = some name}.ncard ≤ s.probes.length ∧
      (∀ i text, plugin.Raises s i text → (s.reports.map (·.2)).count text = 1) ∧
      ∀ report ∈ s.reports, ∃ i, report.1 = (calls i).context ∧ plugin.Raises s i report.2) := by
  intro s
  obtain ⟨hsound, htold⟩ : plugin.Sound calls s ∧ plugin.Told calls s :=
    run_sound schedule (sound_start plugin calls) told_start
  refine ⟨fun name result hresult => ⟨fun i hname => ?_, fun strategy hlookup => ?_⟩,
    fun noHook keeps name => exists_hasProbe noHook keeps name, hsound.length_probes_le,
    fun hdone => ⟨hsound.kept_iff hdone, hsound.ncard_names_le hdone,
      fun i text hraises => htold.count_eq_one hdone hraises,
      fun report hreport => htold.exists_raises hreport⟩⟩
  · obtain ⟨asked, hasks, rfl⟩ := fileName?_eq_some_iff.mp hname
    refine ⟨fun found hfound => (hsound.probed_of_strategy? hasks hfound).eq_result hresult, ?_⟩
    intro found answer hstage
    obtain ⟨other, rfl, hprobed, rfl, -⟩ := hsound.done hasks hstage
    obtain rfl := hprobed.eq_result hresult
    exact ⟨rfl, rfl⟩
  · exact ((hsound.kept name strategy hlookup).eq_result hresult).symm

/-- Two calls for one file look for its answer before one of them has kept it. Both of them probe, one of
them warns, and the answer is kept once. -/
theorem transforms_agree_race :
    let calls : Fin 2 → TransformCall := fun i => { code := "f();", id := "a.js", context := i }
    let s := externalPlugin.run calls {} [0, 1, 0, 1, 0, 1, 0, 1, 0, 1, 0, 1]
    (∀ i, (s.stage i).isDone = true) ∧ s.probes = [0, 1] ∧ s.cache.results = [("a.js", .external)] ∧
      s.reports = [(0, externalHelpersDeprecated)] ∧
      {name | ∃ i, externalPlugin.fileName? (calls i) = some name}.ncard ≤ 2 ∧
      2 ≤ {i | (externalPlugin.fileName? (calls i)).isSome = true}.ncard ∧
      ∃ result, externalPlugin.HasProbe calls "a.js" result ∧ result = .ok .external := by
  intro calls s
  have keeps : KeepsName externalPlugin.compiler := by
    intro options config h
    cases h
    rfl
  obtain ⟨hdone, hprobes, hcache, hreports⟩ : (∀ i, (s.stage i).isDone = true) ∧ s.probes = [0, 1] ∧
      s.cache.results = [("a.js", .external)] ∧ s.reports = [(0, externalHelpersDeprecated)] := by
    decide +kernel
  obtain ⟨hresult, hfiles, hmost, hbehind⟩ :=
    transforms_agree externalPlugin calls [0, 1, 0, 1, 0, 1, 0, 1, 0, 1, 0, 1]
  obtain ⟨-, hleast, -⟩ := hbehind hdone
  obtain ⟨result, hprobe⟩ := hfiles rfl keeps "a.js"
  have hlength : s.probes.length = 2 := by rw [hprobes]; rfl
  refine ⟨hdone, hprobes, hcache, hreports, hleast.trans hlength.le,
    hlength.ge.trans hmost, result, hprobe, ?_⟩
  exact (hresult "a.js" result hprobe).2 .external (by rw [show s.cache.results = _ from hcache]; rfl)

end

end InputPlugin

end ModuleBuild
