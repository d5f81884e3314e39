import Mathlib
import ModuleBuild.Bundle.Entry

/-!
# Runs of linking

Linking stands on actions of any monad, so what it does is stated about every run: a run that starts
from a graph ends well in a state, or fails for a reason.

## Main definitions

* `Linking.Ensures` — what all runs of a step of linking end in.
* `Linking.Ensures.bind`, `Linking.Ensures.foldlM`, `Linking.Ensures.mapM` — the rules for steps in a
  row and for loops.
-/

namespace ModuleBuild

namespace Linking

variable {m : Type → Type} [Monad m] {α β : Type}

section Steps

variable [LawfulMonad m]

theorem run_get (g : Graph) : (get : Linking m Graph).run.run g = pure (.ok g, g) := by
  change (ExceptT.lift (MonadStateOf.get : StateT Graph m Graph)).run.run g = _
  simp

theorem run_set (g g' : Graph) : (set g' : Linking m PUnit).run.run g = pure (.ok ⟨⟩, g') := by
  change (ExceptT.lift (MonadStateOf.set g' : StateT Graph m PUnit)).run.run g = _
  simp

theorem run_modify (f : Graph → Graph) (g : Graph) :
    (modify f : Linking m PUnit).run.run g = pure (.ok ⟨⟩, f g) := by
  change (ExceptT.lift (modify f : StateT Graph m PUnit)).run.run g = _
  simp

end Steps

/-- All runs that start from `g` end with a value and a graph for which `ok` holds, or with an error
for which `fail` holds. -/
def Ensures (x : Linking m α) (g : Graph) (ok : α → Graph → Prop) (fail : BundleError → Prop) : Prop :=
  SatisfiesM (fun r : Except BundleError α × Graph =>
    match r.1 with
    | .ok a => ok a r.2
    | .error e => fail e) (x.run.run g)

variable [LawfulMonad m] {x : Linking m α} {g : Graph} {ok ok' : α → Graph → Prop}
  {fail fail' : BundleError → Prop}

protected theorem Ensures.mono (h : Ensures x g ok fail) (hok : ∀ a g', ok a g' → ok' a g')
    (hfail : ∀ e, fail e → fail' e) : Ensures x g ok' fail' := by
  refine SatisfiesM.imp h fun {r} hr => ?_
  obtain ⟨r, g'⟩ := r
  cases r with
  | ok a => exact hok a g' hr
  | error e => exact hfail e hr

protected theorem Ensures.pure {a : α} (h : ok a g) : Ensures (pure a : Linking m α) g ok fail :=
  SatisfiesM.pure h

protected theorem Ensures.throw {e : BundleError} (h : fail e) :
    Ensures (throw e : Linking m α) g ok fail :=
  SatisfiesM.pure h

/-- One step behind the other. -/
protected theorem Ensures.bind {f : α → Linking m β} {q : β → Graph → Prop} {p : α → Graph → Prop}
    (hx : Ensures x g p fail) (hf : ∀ a g', p a g' → Ensures (f a) g' q fail) :
    Ensures (x >>= f) g q fail := by
  rw [Ensures, ExceptT.run_bind, StateT.run_bind]
  refine SatisfiesM.bind hx fun r hr => ?_
  obtain ⟨r, g'⟩ := r
  cases r with
  | ok a => exact hf a g' hr
  | error e => exact SatisfiesM.pure hr

/-- A step that only reads or writes the graph. -/
protected theorem Ensures.lift {step : StateT Graph m α} {a : α} {g' : Graph}
    (hrun : step.run g = pure (a, g')) (h : ok a g') :
    Ensures (ExceptT.lift step) g ok fail := by
  have hlift : (ExceptT.lift step : Linking m α).run.run g = pure (.ok a, g') := by
    simp [hrun]
  rw [Ensures, hlift]
  exact SatisfiesM.pure h

protected theorem Ensures.get {f : Graph → Linking m β} {ok : β → Graph → Prop}
    (h : Ensures (f g) g ok fail) : Ensures (get >>= f) g ok fail := by
  have hget : Ensures (get : Linking m Graph) g (fun a g' => a = g ∧ g' = g) fail :=
    Ensures.lift (show (MonadStateOf.get : StateT Graph m Graph).run g = pure (g, g) by simp)
      ⟨rfl, rfl⟩
  refine Ensures.bind hget ?_
  rintro a g' ⟨rfl, rfl⟩
  exact h

protected theorem Ensures.set {g' : Graph} {ok : PUnit → Graph → Prop} (h : ok ⟨⟩ g') :
    Ensures (set g' : Linking m PUnit) g ok fail :=
  Ensures.lift (by simp) h

protected theorem Ensures.modify {change : Graph → Graph} {ok : PUnit → Graph → Prop}
    (h : ok ⟨⟩ (change g)) : Ensures (modify change : Linking m PUnit) g ok fail :=
  Ensures.lift (by simp) h

protected theorem Ensures.ofAnswer {answer : Except BundleError α}
    (hok : ∀ a, answer = .ok a → ok a g) (hfail : ∀ e, answer = .error e → fail e) :
    Ensures (ofAnswer answer : Linking m α) g ok fail := by
  cases answer with
  | ok a => exact .pure (hok a rfl)
  | error e => exact .throw (hfail e rfl)

/-- An action of the project leaves the graph as it is. -/
protected theorem Ensures.act {action : m (Except BundleError α)} {p : Except BundleError α → Prop}
    (haction : SatisfiesM p action) (hok : ∀ a, p (.ok a) → ok a g)
    (hfail : ∀ e, p (.error e) → fail e) : Ensures (act action) g ok fail := by
  have hlift : Ensures (ExceptT.lift (StateT.lift action) : Linking m _) g
      (fun answer g' => p answer ∧ g' = g) fail := by
    have hrun : (ExceptT.lift (StateT.lift action) : Linking m _).run.run g =
        (fun answer => (.ok answer, g)) <$> action := by
      simp
    rw [Ensures, hrun]
    exact haction.map fun {answer} h => ⟨h, rfl⟩
  refine Ensures.bind hlift ?_
  rintro answer g' ⟨h, rfl⟩
  cases answer with
  | ok a => exact .pure (hok a h)
  | error e => exact .throw (hfail e h)

/-- A loop keeps an invariant of the items behind it. -/
protected theorem Ensures.foldlM {items : List α} {step : β → α → Linking m β} {start : β}
    (inv : List α → β → Graph → Prop) (hstart : inv [] start g)
    (hstep : ∀ done item rest b g, items = done ++ item :: rest → inv done b g →
      Ensures (step b item) g (inv (done ++ [item])) fail) :
    Ensures (items.foldlM step start) g (inv items) fail := by
  suffices h : ∀ rest done b g, items = done ++ rest → inv done b g →
      Ensures (rest.foldlM step b) g (inv items) fail from h items [] start g rfl hstart
  intro rest
  induction rest with
  | nil =>
    intro done b g hitems hinv
    rw [List.append_nil] at hitems
    exact .pure (hitems ▸ hinv)
  | cons item rest ih =>
    intro done b g hitems hinv
    rw [List.foldlM_cons]
    exact .bind (hstep done item rest b g hitems hinv) fun b' g' hinv' =>
      ih (done ++ [item]) b' g' (by simp [hitems]) hinv'

/-- A loop that gives a result for each item keeps an invariant of both. -/
protected theorem Ensures.mapM {items : List α} {step : α → Linking m β}
    (inv : List α → List β → Graph → Prop) (hstart : inv [] [] g)
    (hstep : ∀ done item rest results g, items = done ++ item :: rest → inv done results g →
      Ensures (step item) g (fun b => inv (done ++ [item]) (results ++ [b])) fail) :
    Ensures (items.mapM step) g (inv items) fail := by
  suffices h : ∀ rest done results g, items = done ++ rest → inv done results g →
      Ensures (rest.mapM step) g (fun more => inv items (results ++ more)) fail by
    simpa using h items [] [] g rfl hstart
  intro rest
  induction rest with
  | nil =>
    intro done results g hitems hinv
    rw [List.append_nil] at hitems
    rw [List.mapM_nil]
    exact .pure (by simpa [hitems] using hinv)
  | cons item rest ih =>
    intro done results g hitems hinv
    rw [List.mapM_cons]
    refine .bind (hstep done item rest results g hitems hinv) fun b g' hinv' => ?_
    refine .bind (ih (done ++ [item]) (results ++ [b]) g' (by simp [hitems]) hinv') ?_
    intro more g'' hmore
    exact .pure (by simpa using hmore)

end Linking

end ModuleBuild
