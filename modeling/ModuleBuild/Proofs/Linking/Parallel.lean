import Mathlib
import ModuleBuild.Bundle.Entry

/-!
# Linking over two monads

Linking uses its monad only for the loads of modules. So two monads in which loads correspond give links
that correspond, whatever it is in which they do.

## Main definitions

* `Project.withLoad` — a project with other loads.
* `Linking.Parallel` — correspondences that answers, uses of the graph and steps in a row keep.

## Main statements

* `Linking.Parallel.rel_linkEntries` — linking entries keeps them.
-/

namespace ModuleBuild

open Linking

/-- The project with these loads in place of its own. -/
def Project.withLoad {m n : Type → Type} (project : Project m)
    (load : String → n (Except BundleError String)) : Project n where
  load := load
  resolve := project.resolve
  read := project.read
  helperText := project.helperText
  depth := project.depth

/-- Visits entries in a row. -/
def visitEach {m : Type → Type} [Monad m] (visit : String → Linking m Unit)
    (idOf : Path → Except BundleError String) (entries : List Path) : Linking m (List String) :=
  entries.mapM fun entry => do
    let id ← ofAnswer (idOf entry)
    visit id
    return id

/-- Entries are linked by visits in a row, and the helper module behind them. -/
theorem linkEntries_eq_visitEach {m : Type → Type} [Monad m] (project : Project m)
    (idOf : Path → Except BundleError String) (entries : List Path) :
    linkEntries project idOf entries = (do
      let ids ← visitEach (visit project project.depth) idOf entries
      set (← ofAnswer ((← get).linkHelpers project))
      return ids) := rfl

namespace Linking

/-- A correspondence between linking over two monads that answers, uses of the graph and steps in a row
keep. -/
structure Parallel (m n : Type → Type) [Monad m] [Monad n] where
  rel : {α : Type} → Linking m α → Linking n α → Prop
  rel_pure {α : Type} (a : α) : rel (pure a) (pure a)
  rel_throw {α : Type} (e : BundleError) : rel (throw e : Linking m α) (throw e)
  rel_get : rel (get : Linking m Graph) get
  rel_set (g : Graph) : rel (set g : Linking m PUnit) (set g)
  rel_modify (f : Graph → Graph) : rel (modify f : Linking m PUnit) (modify f)
  rel_bind {α β : Type} {x : Linking m α} {y : Linking n α} {f : α → Linking m β}
    {f' : α → Linking n β} : rel x y → (∀ a, rel (f a) (f' a)) → rel (x >>= f) (y >>= f')

namespace Parallel

variable {m n : Type → Type} [Monad m] [Monad n] [LawfulMonad m] [LawfulMonad n] (P : Parallel m n)
  {α β : Type}

omit [LawfulMonad m] [LawfulMonad n] in
theorem rel_ofAnswer (answer : Except BundleError α) : P.rel (ofAnswer answer) (ofAnswer answer) := by
  cases answer with
  | ok a => exact P.rel_pure a
  | error e => exact P.rel_throw e

omit [LawfulMonad m] [LawfulMonad n] in
theorem rel_foldlM {items : List α} {step : β → α → Linking m β} {step' : β → α → Linking n β}
    (hstep : ∀ b a, P.rel (step b a) (step' b a)) (start : β) :
    P.rel (items.foldlM step start) (items.foldlM step' start) := by
  induction items generalizing start with
  | nil => exact P.rel_pure start
  | cons a rest ih => exact P.rel_bind (hstep start a) ih

theorem rel_mapM {items : List α} {step : α → Linking m β} {step' : α → Linking n β}
    (hstep : ∀ a, P.rel (step a) (step' a)) : P.rel (items.mapM step) (items.mapM step') := by
  induction items with
  | nil => exact P.rel_pure []
  | cons a rest ih =>
    rw [List.mapM_cons, List.mapM_cons]
    exact P.rel_bind (hstep a) fun b => P.rel_bind ih fun bs => P.rel_pure (b :: bs)

variable {project : Project m} {load : String → n (Except BundleError String)}

omit [LawfulMonad m] [LawfulMonad n] in
theorem rel_linkImport {visit : String → Linking m Unit} {visit' : String → Linking n Unit}
    (hvisit : ∀ id, P.rel (visit id) (visit' id)) (id : String) (s : ImportState)
    (record : ImportRecord) :
    P.rel (linkImport project visit id s record)
      (linkImport (project.withLoad load) visit' id s record) := by
  refine P.rel_bind (P.rel_ofAnswer _) fun target => ?_
  cases target with
  | outside => exact P.rel_bind (P.rel_modify _) fun _ => P.rel_pure _
  | module dependency =>
    dsimp only
    split
    · exact P.rel_pure _
    · refine P.rel_bind P.rel_get fun g => ?_
      split
      · exact P.rel_throw _
      · exact P.rel_bind (hvisit dependency) fun _ => P.rel_bind P.rel_get fun g =>
          P.rel_bind (P.rel_ofAnswer _) fun answer => P.rel_pure _

variable (hload : ∀ id, P.rel (act (project.load id)) (act (load id)))
include hload

omit [LawfulMonad m] [LawfulMonad n] in
/-- Visits correspond if loads do. -/
theorem rel_visit (fuel : Nat) (id : String) :
    P.rel (visit project fuel id) (visit (project.withLoad load) fuel id) := by
  induction fuel generalizing id with
  | zero => exact P.rel_throw _
  | succ fuel ih =>
    refine P.rel_bind P.rel_get fun g => ?_
    split
    · exact P.rel_pure _
    · refine P.rel_bind (P.rel_modify _) fun _ => P.rel_bind (hload id) fun code =>
        P.rel_bind P.rel_get fun g => P.rel_bind (P.rel_ofAnswer _) fun record => ?_
      exact P.rel_bind (P.rel_foldlM (P.rel_linkImport ih id) _) fun s =>
        P.rel_bind P.rel_get fun g => P.rel_bind (P.rel_ofAnswer _) fun g => P.rel_set g

theorem rel_visitEach (idOf : Path → Except BundleError String) (entries : List Path) (fuel : Nat) :
    P.rel (visitEach (visit project fuel) idOf entries)
      (visitEach (visit (project.withLoad load) fuel) idOf entries) :=
  P.rel_mapM fun _ => P.rel_bind (P.rel_ofAnswer _) fun id =>
    P.rel_bind (P.rel_visit hload fuel id) fun _ => P.rel_pure id

/-- Linking entries corresponds if loads do. -/
theorem rel_linkEntries (idOf : Path → Except BundleError String) (entries : List Path) :
    P.rel (linkEntries project idOf entries) (linkEntries (project.withLoad load) idOf entries) := by
  rw [linkEntries_eq_visitEach, linkEntries_eq_visitEach]
  exact P.rel_bind (P.rel_visitEach hload idOf entries _) fun ids => P.rel_bind P.rel_get fun g =>
    P.rel_bind (P.rel_ofAnswer _) fun g => P.rel_bind (P.rel_set g) fun _ => P.rel_pure ids

end Parallel

end Linking

end ModuleBuild
