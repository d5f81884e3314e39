import Mathlib
import ModuleBuild.Preflight.Cache
import ModuleBuild.Proofs.Association

/-!
# The cache of preflight answers

A compiler may answer as it likes, and differently from call to call: here it is a function on a world of
its own. Whatever it does, the cache keeps each answer that it has given out under the name of its file,
asks the compiler for nothing that it has, and keeps nothing that failed.

## Main definitions

* `Compiler.recorded` — a compiler with a record of the probes that it compiled.
* `CacheCall`, `PreflightCache.afterCalls` — what a cache is asked for, one call after the other.
* `PreflightCache.succeeded` — the files that some call got a strategy for.

## Main statements

* `PreflightCache.ask_eq` — what one question does.
* `PreflightCache.afterCalls_recorded` — the record changes nothing.
* `PreflightCache.discipline` — what holds behind any row of calls.
-/

namespace ModuleBuild

/-! ## Compilers with a record -/

variable {σ τ : Type}

/-- A probe that was compiled, with the answer. -/
structure CompiledProbe where
  code : String
  options : CompilerOptions
  answer : Except CompileError CompileOutput

/-- Whether a class came through. -/
def CompiledProbe.showsClass (probe : CompiledProbe) : Bool :=
  match probe.answer with
  | .ok output => hasClassDeclaration output.code
  | .error _ => false

/-- An action beside a record that it does not touch. -/
def besideRecord {α : Type} (x : StateM σ α) : StateM (σ × List CompiledProbe) α := fun s =>
  ((x s.1).1, ((x s.1).2, s.2))

/-- The same answers, with a record of the probes compiled. -/
def Compiler.recorded (compiler : Compiler (StateM σ)) : Compiler (StateM (σ × List CompiledProbe)) where
  loadPartialConfig options := besideRecord (compiler.loadPartialConfig options)
  compileProbe code options := do
    let answer ← besideRecord (compiler.compileProbe code options)
    modify fun s => (s.1, s.2 ++ [⟨code, options, answer⟩])
    return answer
  compile code options := besideRecord (compiler.compile code options)
  helperBundle := compiler.helperBundle
  defaultExtensions := compiler.defaultExtensions

/-- The options of a second compile, which replaces classes by force. -/
def CompilerOptions.forced (options : CompilerOptions) : CompilerOptions :=
  options.withPlugin (.live .fallbackClass)

/-- What a probe has compiled: the source of the probe with the options, and once more if a class came
through. -/
def ProbeRecord (options : CompilerOptions) (compiles : List CompiledProbe) : Prop :=
  ∃ first rest, compiles = first :: rest ∧ first.code = probeSource ∧ first.options = options ∧
    rest.length = (if first.showsClass then 1 else 0) ∧
    ∀ second ∈ rest, second.code = probeSource ∧ second.options = options.forced

theorem run_bind_of_run_eq {α β : Type} {x : StateM τ α} {f : α → StateM τ β} {s s' : τ} {a : α}
    (h : x.run s = (a, s')) : (x >>= f).run s = (f a).run s' := by
  rw [StateT.run_bind, h]
  rfl

/-- The two compiles of a probe, one behind the other. -/
theorem probe_run (compiler : Compiler (StateM τ)) (options : CompilerOptions) (world : τ) :
    (probe compiler options).run world =
      match (compiler.compileProbe probeSource options).run world with
      | (.error e, world) => (.error (.compile options.unitName e), world)
      | (.ok first, world) =>
        if hasClassDeclaration first.code then
          match (compiler.compileProbe probeSource options.forced).run world with
          | (.error e, world) => (.error (.compile options.unitName e), world)
          | (.ok second, world) => (classifyOutput second.code, world)
        else (classifyOutput first.code, world) := by
  unfold probe
  rcases hfirst : (compiler.compileProbe probeSource options).run world with ⟨e | first, middle⟩
  · rw [run_bind_of_run_eq hfirst]
    rfl
  · rw [run_bind_of_run_eq hfirst]
    dsimp only
    split
    · rcases hsecond : (compiler.compileProbe probeSource options.forced).run middle with ⟨e | second, final⟩
      · rw [CompilerOptions.forced] at hsecond
        rw [run_bind_of_run_eq hsecond]
        rfl
      · rw [CompilerOptions.forced] at hsecond
        rw [run_bind_of_run_eq hsecond]
        rfl
    · rfl

theorem compileProbe_recorded (compiler : Compiler (StateM σ)) (code : String) (options : CompilerOptions)
    (world : σ) (record : List CompiledProbe) :
    (compiler.recorded.compileProbe code options).run (world, record) =
      (((compiler.compileProbe code options).run world).1, ((compiler.compileProbe code options).run world).2,
        record ++ [⟨code, options, ((compiler.compileProbe code options).run world).1⟩]) :=
  rfl

/-- A probe with a record gives what it gives without, and compiles as often as its first output asks for. -/
theorem probe_recorded (compiler : Compiler (StateM σ)) (options : CompilerOptions)
    (world : σ) (record : List CompiledProbe) :
    ∃ compiles, ProbeRecord options compiles ∧ (probe compiler.recorded options).run (world, record) =
      (((probe compiler options).run world).1, ((probe compiler options).run world).2, record ++ compiles) := by
  rw [probe_run, probe_run, compileProbe_recorded]
  rcases (compiler.compileProbe probeSource options).run world with ⟨e | first, middle⟩
  · exact ⟨[⟨probeSource, options, .error e⟩], ⟨_, [], rfl, rfl, rfl, rfl, by simp⟩, rfl⟩
  · dsimp only
    split
    · rename_i hclass
      rw [compileProbe_recorded]
      rcases (compiler.compileProbe probeSource options.forced).run middle with ⟨answer, final⟩
      refine ⟨[⟨probeSource, options, .ok first⟩, ⟨probeSource, options.forced, answer⟩],
        ⟨_, [_], rfl, rfl, rfl, by simp [CompiledProbe.showsClass, hclass], by simp⟩, ?_⟩
      cases answer <;> simp
    · rename_i hclass
      exact ⟨[⟨probeSource, options, .ok first⟩],
        ⟨_, [], rfl, rfl, rfl, by simp [CompiledProbe.showsClass, hclass], by simp⟩, rfl⟩

/-! ## Questions -/

/-- What a cache may be asked for. -/
inductive CacheCall where
  | classify (options : CompilerOptions)
  | get (options : CompilerOptions)

namespace PreflightCache

/-- A question to a cache, beside the world of the compiler. -/
def ask (compiler : Compiler (StateM τ)) (options : CompilerOptions) (s : PreflightCache × τ) :
    Except PluginError HelperStrategy × PreflightCache × τ :=
  let ((answer, cache), world) := (s.1.classify compiler options).run s.2
  (answer, cache, world)

/-- A kept answer is given at once. Otherwise the compiler is probed, and a strategy is kept. -/
theorem ask_eq (compiler : Compiler (StateM τ)) (options : CompilerOptions) (s : PreflightCache × τ) :
    ask compiler options s =
      match s.1.get? options with
      | some strategy => (.ok strategy, s)
      | none =>
        match (probe compiler options).run s.2 with
        | (.ok strategy, world) => (.ok strategy, s.1.insert options strategy, world)
        | (.error e, world) => (.error e, s.1, world) := by
  unfold ask classify
  cases s.1.get? options with
  | some strategy => rfl
  | none =>
    dsimp only
    rcases hprobe : (probe compiler options).run s.2 with ⟨e | strategy, world⟩
    · rw [run_bind_of_run_eq hprobe]
      rfl
    · rw [run_bind_of_run_eq hprobe]
      rfl

theorem insert_of_get?_eq_none {cache : PreflightCache} {options : CompilerOptions}
    (h : cache.get? options = none) (strategy : HelperStrategy) :
    cache.insert options strategy = ⟨(key options, strategy) :: cache.results⟩ := by
  have hsame : cache.results.filter (·.1 != key options) = cache.results := by
    refine List.filter_eq_self.mpr fun entry hentry => ?_
    rw [bne_iff_ne]
    intro hkey
    exact not_mem_of_lookup h entry.2 (hkey ▸ hentry)
  rw [insert, hsame]

variable {compiler : Compiler (StateM τ)} {s : PreflightCache × τ}

/-- A question changes the cache just if it is the first one under its name that gets a strategy. -/
theorem ask_cases (compiler : Compiler (StateM τ)) (options : CompilerOptions) (s : PreflightCache × τ) :
    (∃ strategy, s.1.get? options = some strategy ∧ ask compiler options s = (.ok strategy, s)) ∨
    s.1.get? options = none ∧
      ((∃ strategy, ask compiler options s =
          (.ok strategy, ⟨(key options, strategy) :: s.1.results⟩, ((probe compiler options).run s.2).2)) ∨
        ∃ e, ask compiler options s = (.error e, s.1, ((probe compiler options).run s.2).2)) := by
  rw [ask_eq]
  cases hkept : s.1.get? options with
  | some strategy => exact .inl ⟨strategy, rfl, rfl⟩
  | none =>
    refine .inr ⟨rfl, ?_⟩
    rcases (probe compiler options).run s.2 with ⟨e | strategy, world⟩
    · exact .inr ⟨e, rfl⟩
    · exact .inl ⟨strategy, by simp only [insert_of_get?_eq_none hkept]⟩

/-- One call: the cache and the world behind it. -/
def step (compiler : Compiler (StateM τ)) (s : PreflightCache × τ) : CacheCall → PreflightCache × τ
  | .classify options => (ask compiler options s).2
  | .get _ => s

@[simp] theorem step_classify (options : CompilerOptions) :
    step compiler s (.classify options) = (ask compiler options s).2 := rfl

/-- The cache and the world behind a row of calls. -/
def afterCalls (compiler : Compiler (StateM τ)) (s : PreflightCache × τ) (calls : List CacheCall) :
    PreflightCache × τ :=
  calls.foldl (step compiler) s

@[simp] theorem afterCalls_cons (call : CacheCall) (rest : List CacheCall) :
    afterCalls compiler s (call :: rest) = afterCalls compiler (step compiler s call) rest := rfl

/-- The names under which a row of calls got a strategy. -/
def succeeded (compiler : Compiler (StateM τ)) (s : PreflightCache × τ) : List CacheCall → List String
  | [] => []
  | .get _ :: rest => succeeded compiler s rest
  | .classify options :: rest =>
    (if (ask compiler options s).1.isOk then [key options] else []) ++
      succeeded compiler (ask compiler options s).2 rest

/-- The names under which answers are kept. -/
def keys (cache : PreflightCache) : List String :=
  cache.results.map (·.1)

/-! ## Rows of questions -/

theorem step_suffix (compiler : Compiler (StateM τ)) (s : PreflightCache × τ) (call : CacheCall) :
    s.1.results <:+ (step compiler s call).1.results := by
  cases call with
  | get options => exact List.suffix_refl _
  | classify options =>
    rw [step_classify]
    rcases ask_cases compiler options s with ⟨_, -, h⟩ | ⟨-, ⟨_, h⟩ | ⟨_, h⟩⟩
    · rw [h]
    · rw [h]
      exact List.suffix_cons _ _
    · rw [h]

theorem keys_step_nodup (h : s.1.keys.Nodup) (call : CacheCall) : (step compiler s call).1.keys.Nodup := by
  cases call with
  | get options => exact h
  | classify options =>
    rw [step_classify]
    rcases ask_cases compiler options s with ⟨_, -, hask⟩ | ⟨hnone, ⟨_, hask⟩ | ⟨_, hask⟩⟩
    · rwa [hask]
    · rw [hask]
      refine List.nodup_cons.mpr ⟨fun hmem => ?_, h⟩
      obtain ⟨⟨_, strategy⟩, hentry, rfl⟩ := List.mem_map.mp hmem
      exact not_mem_of_lookup hnone strategy hentry
    · rwa [hask]

/-- Entries stay, and no two of them have one name. -/
theorem afterCalls_keeps (compiler : Compiler (StateM τ)) (h : s.1.keys.Nodup) (calls : List CacheCall) :
    s.1.results <:+ (afterCalls compiler s calls).1.results ∧ (afterCalls compiler s calls).1.keys.Nodup := by
  induction calls generalizing s with
  | nil => exact ⟨List.suffix_refl _, h⟩
  | cons call rest ih =>
    obtain ⟨hsuffix, hnodup⟩ := ih (keys_step_nodup h call)
    exact ⟨(step_suffix compiler s call).trans hsuffix, hnodup⟩

/-- The names under which answers are kept are those that some call got a strategy under. -/
theorem mem_keys_afterCalls (calls : List CacheCall) (k : String) :
    k ∈ (afterCalls compiler s calls).1.keys ↔ k ∈ s.1.keys ∨ k ∈ succeeded compiler s calls := by
  induction calls generalizing s with
  | nil => simp [afterCalls, succeeded]
  | cons call rest ih =>
    rw [afterCalls_cons, ih]
    cases call with
    | get options => rfl
    | classify options =>
      rw [step_classify, succeeded, List.mem_append]
      rcases ask_cases compiler options s with ⟨strategy, hkept, hask⟩ | ⟨-, ⟨strategy, hask⟩ | ⟨e, hask⟩⟩
      · have hmem : key options ∈ s.1.keys := List.mem_map.mpr ⟨_, mem_of_lookup hkept, rfl⟩
        rw [hask]
        simp only [Except.isOk, Except.toBool, if_true, List.mem_singleton]
        grind
      · rw [hask]
        simp only [Except.isOk, Except.toBool, if_true, keys, List.map_cons, List.mem_cons]
        grind
      · rw [hask]
        simp [Except.isOk, Except.toBool]

/-- The record changes nothing. -/
theorem ask_recorded (compiler : Compiler (StateM σ)) (options : CompilerOptions) (cache : PreflightCache)
    (world : σ) (record : List CompiledProbe) :
    let plain := ask compiler options (cache, world)
    ∃ compiles, ask compiler.recorded options (cache, world, record) =
        (plain.1, plain.2.1, plain.2.2, record ++ compiles) ∧
      (cache.get? options = none → ProbeRecord options compiles) := by
  obtain ⟨compiles, hrecord, hrun⟩ := probe_recorded compiler options world record
  rw [ask_eq, ask_eq]
  cases cache.get? options with
  | some strategy => exact ⟨[], by simp, by simp⟩
  | none =>
    refine ⟨compiles, ?_, fun _ => hrecord⟩
    dsimp only
    rw [hrun]
    rcases (probe compiler options).run world with ⟨e | strategy, world'⟩ <;> rfl

theorem afterCalls_recorded (compiler : Compiler (StateM σ)) (calls : List CacheCall)
    (cache : PreflightCache) (world : σ) (record : List CompiledProbe) :
    ∃ more, afterCalls compiler.recorded (cache, world, record) calls =
      ((afterCalls compiler (cache, world) calls).1, (afterCalls compiler (cache, world) calls).2,
        record ++ more) := by
  induction calls generalizing cache world record with
  | nil => exact ⟨[], by simp [afterCalls]⟩
  | cons call rest ih =>
    cases call with
    | get options => exact ih cache world record
    | classify options =>
      obtain ⟨compiles, hask, -⟩ := ask_recorded compiler options cache world record
      obtain ⟨more, hmore⟩ := ih (ask compiler options (cache, world)).2.1
        (ask compiler options (cache, world)).2.2 (record ++ compiles)
      refine ⟨compiles ++ more, ?_⟩
      rw [afterCalls_cons, afterCalls_cons, step_classify, step_classify, hask, hmore, List.append_assoc]

/-- Whatever the compiler answers: the record of its compiles changes nothing. There are as many entries as
names under which some call got a strategy, and no entry is changed or removed later on. A question under a
name with an entry gets that strategy and touches nothing. A question that fails leaves the cache as it is,
without an entry under its name. A question under a name without an entry has the source of the probe
compiled, once with the options, and a second time just if the first output shows a class. -/
theorem discipline (compiler : Compiler (StateM σ)) (world : σ) (calls : List CacheCall) :
    let s := afterCalls compiler.recorded ({}, world, []) calls
    (s.1, s.2.1) = afterCalls compiler ({}, world) calls ∧
    s.1.size = (succeeded compiler.recorded ({}, world, []) calls).toFinset.card ∧
    (∀ k strategy, s.1.results.lookup k = some strategy → ∀ later,
      (afterCalls compiler.recorded s later).1.results.lookup k = some strategy) ∧
    ∀ options,
      (∀ strategy, s.1.get? options = some strategy →
        ask compiler.recorded options s = (.ok strategy, s)) ∧
      (∀ e, (ask compiler.recorded options s).1 = .error e →
        (ask compiler.recorded options s).2.1 = s.1 ∧ s.1.get? options = none) ∧
      (s.1.get? options = none → ∃ compiles, ProbeRecord options compiles ∧
        (ask compiler.recorded options s).2.2.2 = s.2.2 ++ compiles) := by
  intro s
  have hempty : ({} : PreflightCache).keys.Nodup := List.nodup_nil
  obtain ⟨-, hnodup⟩ : ({} : PreflightCache).results <:+ s.1.results ∧ s.1.keys.Nodup :=
    afterCalls_keeps (s := ({}, world, [])) compiler.recorded hempty calls
  refine ⟨?_, ?_, fun k strategy hlookup later => ?_,
    fun options => ⟨fun strategy hkept => ?_, fun e he => ?_, fun hnone => ?_⟩⟩
  · obtain ⟨more, hmore⟩ := afterCalls_recorded compiler calls {} world []
    simp only [s, hmore]
  · have hsame : s.1.keys.toFinset = (succeeded compiler.recorded ({}, world, []) calls).toFinset := by
      ext k
      rw [List.mem_toFinset, List.mem_toFinset, mem_keys_afterCalls]
      simp [keys]
    rw [← hsame, List.toFinset_card_of_nodup hnodup]
    simp [keys, size]
  · obtain ⟨hsuffix, hnodup'⟩ := afterCalls_keeps compiler.recorded hnodup later
    exact lookup_of_mem hnodup' (hsuffix.subset (mem_of_lookup hlookup))
  · rw [ask_eq, hkept]
  · rcases ask_cases compiler.recorded options s with ⟨_, -, h⟩ | ⟨hnone, ⟨_, h⟩ | ⟨_, h⟩⟩
    · rw [h] at he
      cases he
    · rw [h] at he
      cases he
    · rw [h]
      exact ⟨rfl, hnone⟩
  · obtain ⟨compiles, hask, hrecord⟩ := ask_recorded compiler options s.1 s.2.1 s.2.2
    exact ⟨compiles, hrecord hnone, congrArg (fun answer => answer.2.2.2) hask⟩

end PreflightCache

end ModuleBuild
