import Mathlib
import ModuleBuild.Proofs.Linking.Log

/-!
# The depth of visits

A visit carries a bound on the chain of modules that wait for each other, so that it ends. The modules of
such a chain are different, so a bound on the number of modules is one on the chain, and what a visit
would do below the bound makes no difference.

## Main definitions

* `visitUpTo` — visits with anything below the bound.

## Main statements

* `visitEach_upTo` — the bound is never reached.
* `linkEntries_deeper` — a greater bound changes nothing.
-/

namespace ModuleBuild

open Linking

variable {m : Type → Type} [Monad m] {α β : Type}

/-- One step of visits: links a module behind the modules it imports, which `visit` links. -/
def visitStep (project : Project m) (visit : String → Linking m Unit) (id : String) : Linking m Unit := do
  if ((← get).module? id).isSome then return
  else
    modify fun g => { g with visiting := id :: g.visiting.filter (· != id) }
    let code ← act (project.load id)
    let record ← ofAnswer (ModuleRecord.ofText project.read id code (← get).defaultLocal)
    let start : ImportState := { edits := record.edits, declared := record.declared }
    let s ← record.imports.foldlM (linkImport project visit id) start
    set (← ofAnswer ((← get).finish id code record.exports s))

/-- Visits of modules, as many inside of each other as a bound says. What comes next is left to `below`. -/
def visitUpTo (project : Project m) (below : String → Linking m Unit) : Nat → String → Linking m Unit
  | 0 => below
  | fuel + 1 => visitStep project (visitUpTo project below fuel)

/-- A visit gives up below the bound. -/
theorem visit_eq_visitUpTo (project : Project m) (fuel : Nat) : visit project fuel =
    visitUpTo project (fun id => throw (.circularImport id id)) fuel := by
  induction fuel with
  | zero => rfl
  | succ fuel ih =>
    funext id
    rw [visitUpTo, ← ih]
    rfl

/-- Below a visit of some bound, visits may go on up to another one. -/
theorem visit_add (project : Project m) (fuel more : Nat) :
    visit project (fuel + more) = visitUpTo project (visit project more) fuel := by
  induction fuel with
  | zero => rw [Nat.zero_add, visitUpTo]
  | succ fuel ih =>
    rw [Nat.succ_add, visitUpTo, ← ih]
    rfl

/-- The bound of the project is not looked at by visits. -/
theorem visit_depth (project : Project m) (depth fuel : Nat) :
    visit { project with depth } fuel = visit project fuel := by
  induction fuel with
  | zero => rfl
  | succ fuel ih =>
    funext id
    simp only [visit, ih]
    rfl

variable [LawfulMonad m]

/-! ## Steps that end alike -/

namespace Linking

/-- All runs from `g` end as those of another step of linking do, and with a value and a graph for which
`ok` holds if they end well. -/
def Alike (x y : Linking m α) (g : Graph) (ok : α → Graph → Prop) : Prop :=
  x.run.run g = y.run.run g ∧ Ensures x g ok fun _ => True

variable {x y : Linking m α} {g : Graph} {ok ok' : α → Graph → Prop}

omit [LawfulMonad m] in
theorem Ensures.alike (h : Ensures x g ok fun _ => True) : Alike x x g ok :=
  ⟨rfl, h⟩

protected theorem Alike.pure {a : α} (h : ok a g) : Alike (pure a : Linking m α) (pure a) g ok :=
  (Ensures.pure h).alike

protected theorem Alike.mono (h : Alike x y g ok) (hok : ∀ a g', ok a g' → ok' a g') : Alike x y g ok' :=
  ⟨h.1, h.2.mono hok fun _ h => h⟩

omit [LawfulMonad m] in
/-- What follows on an action may use what holds of its values. -/
theorem bind_congr_of_satisfiesM [LawfulMonad m] {x : m α} {p : α → Prop} {f f' : α → m β}
    (hx : SatisfiesM p x) (hf : ∀ a, p a → f a = f' a) : x >>= f = x >>= f' := by
  obtain ⟨x', rfl⟩ := hx
  rw [bind_map_left, bind_map_left]
  exact bind_congr fun a => hf a.1 a.2

/-- One step behind the other. -/
protected theorem Alike.bind {f f' : α → Linking m β} {p : α → Graph → Prop} {q : β → Graph → Prop}
    (hx : Alike x y g p) (hf : ∀ a g', p a g' → Alike (f a) (f' a) g' q) :
    Alike (x >>= f) (y >>= f') g q := by
  refine ⟨?_, .bind hx.2 fun a g' h => (hf a g' h).2⟩
  rw [ExceptT.run_bind, ExceptT.run_bind, StateT.run_bind, StateT.run_bind, ← hx.1]
  refine bind_congr_of_satisfiesM hx.2 fun r hr => ?_
  obtain ⟨e | a, g'⟩ := r
  · rfl
  · exact (hf a g' hr).1

protected theorem Alike.get {f f' : Graph → Linking m β} {q : β → Graph → Prop}
    (h : Alike (f g) (f' g) g q) : Alike (get >>= f) (get >>= f') g q := by
  have hget : Alike (get : Linking m Graph) get g fun a g' => a = g ∧ g' = g := by
    refine Ensures.alike ?_
    have hpure : Ensures (get >>= pure : Linking m Graph) g (fun a g' => a = g ∧ g' = g) fun _ => True :=
      .get (.pure ⟨rfl, rfl⟩)
    rwa [bind_pure] at hpure
  refine hget.bind ?_
  rintro a g' ⟨rfl, rfl⟩
  exact h

/-- A loop keeps an invariant. -/
protected theorem Alike.foldlM {γ : Type} {items : List γ} {step step' : β → γ → Linking m β} {start : β}
    (inv : Graph → Prop) (hstart : inv g)
    (hstep : ∀ b item g, inv g → Alike (step b item) (step' b item) g fun _ => inv) :
    Alike (items.foldlM step start) (items.foldlM step' start) g fun _ => inv := by
  induction items generalizing start g with
  | nil => exact .pure hstart
  | cons item rest ih => exact (hstep start item g hstart).bind fun b g' h => ih h

/-- A loop that gives a result for each item keeps an invariant. -/
protected theorem Alike.mapM {γ : Type} {items : List γ} {step step' : γ → Linking m β}
    (inv : Graph → Prop) (hstart : inv g)
    (hstep : ∀ item ∈ items, ∀ g, inv g → Alike (step item) (step' item) g fun _ => inv) :
    Alike (items.mapM step) (items.mapM step') g fun _ => inv := by
  induction items generalizing g with
  | nil => exact .pure hstart
  | cons item rest ih =>
    rw [List.mapM_cons, List.mapM_cons]
    exact (hstep item List.mem_cons_self g hstart).bind fun b g' h =>
      (ih h fun i hi => hstep i (List.mem_cons_of_mem _ hi)).bind fun bs g'' h => .pure h

end Linking

/-! ## Visits -/

section Visits

variable {project : Project m} {below below' : String → Linking m Unit} {modules : List String}

/-- The modules that wait are different ones of these, and leave room for as many more as the bound
allows. -/
structure Graph.Within (g : Graph) (modules : List String) (fuel : Nat) : Prop where
  nodup : g.visiting.Nodup
  subset : g.visiting ⊆ modules
  room : modules.length ≤ g.visiting.length + fuel

/-- There is no room for one more module below the bound. -/
theorem Graph.Within.not_zero {g : Graph} {id : String} (h : g.Within modules 0) (hid : id ∈ modules)
    (hfresh : id ∉ g.visiting) : False := by
  have hmore : (id :: g.visiting).Nodup := List.nodup_cons.mpr ⟨hfresh, h.nodup⟩
  have hlength := (hmore.subperm (List.cons_subset.mpr ⟨hid, h.subset⟩)).length_le
  have hroom := h.room
  rw [List.length_cons] at hlength
  omega

theorem linkImport_alike (hmodules : ∀ specifier importer d,
      project.resolve specifier importer = .ok (.module d) → d ≠ helperModuleId → d ∈ modules)
    {visit visit' : String → Linking m Unit} {fuel : Nat}
    (hvisit : ∀ g id, g.Within modules fuel → id ∈ modules → id ∉ g.visiting →
      Alike (visit id) (visit' id) g fun _ g' => g'.visiting = g.visiting)
    (id : String) (s : ImportState) (record : ImportRecord) {g : Graph} (hwithin : g.Within modules fuel) :
    Alike (linkImport project visit id s record) (linkImport project visit' id s record) g
      fun _ g' => g'.visiting = g.visiting := by
  refine .bind (p := fun target g' => project.resolve record.source id = .ok target ∧ g' = g)
    (Ensures.ofAnswer (fun target h => ⟨h, rfl⟩) fun _ _ => trivial).alike ?_
  rintro target g' ⟨htarget, rfl⟩
  cases target with
  | outside =>
    refine .bind (p := fun _ g'' => g''.visiting = g'.visiting) (Ensures.modify rfl).alike ?_
    exact fun _ g'' h => .pure h
  | module d =>
    dsimp only
    split
    · exact .pure rfl
    · rename_i hd
      refine .get ?_
      split
      · exact (Ensures.throw trivial).alike
      · rename_i hwaits
        refine (hvisit g' d hwithin (hmodules _ _ d htarget (by simpa using hd))
          (by simpa using hwaits)).bind ?_
        intro _ g'' h
        refine .get (.bind (p := fun _ g₃ => g₃.visiting = g'.visiting) ?_ ?_)
        · exact (Ensures.ofAnswer (fun _ _ => h) fun _ _ => trivial).alike
        · exact fun answer g₃ h => .pure h

/-- What a visit would do below the bound makes no difference, if the bound leaves room for all
modules. -/
theorem visitUpTo_alike (hmodules : ∀ specifier importer d,
      project.resolve specifier importer = .ok (.module d) → d ≠ helperModuleId → d ∈ modules)
    (fuel : Nat) : ∀ (g : Graph) (id : String), g.Within modules fuel → id ∈ modules → id ∉ g.visiting →
      Alike (visitUpTo project below fuel id) (visitUpTo project below' fuel id) g
        fun _ g' => g'.visiting = g.visiting := by
  induction fuel with
  | zero => exact fun g id hwithin hid hfresh => (hwithin.not_zero hid hfresh).elim
  | succ fuel ih =>
    intro g id hwithin hid hfresh
    refine .get ?_
    by_cases hmodule : (g.module? id).isSome = true
    · rw [if_pos hmodule, if_pos hmodule]
      exact .pure rfl
    rw [if_neg hmodule, if_neg hmodule]
    have hwaiting : g.visiting.filter (· != id) = g.visiting := filter_ne_of_not_mem hfresh
    refine .bind (p := fun _ g' => g'.visiting = id :: g.visiting)
      (Ensures.modify (by rw [hwaiting])).alike fun _ g' h => ?_
    refine .bind (p := fun _ g' => g'.visiting = id :: g.visiting) ?_ fun text g' h => .get ?_
    · exact (Ensures.act SatisfiesM.trivial (fun _ _ => h) fun _ _ => trivial).alike
    refine .bind (p := fun _ g' => g'.visiting = id :: g.visiting) ?_ fun record g' h => ?_
    · exact (Ensures.ofAnswer (fun _ _ => h) fun _ _ => trivial).alike
    refine .bind (.foldlM (fun g' => g'.visiting = id :: g.visiting) h fun s r g' h => ?_) ?_
    · have hroom : g'.Within modules fuel := by
        refine ⟨?_, ?_, ?_⟩
        · exact h ▸ List.nodup_cons.mpr ⟨hfresh, hwithin.nodup⟩
        · exact h ▸ List.cons_subset.mpr ⟨hid, hwithin.subset⟩
        · have := hwithin.room
          rw [h, List.length_cons]
          omega
      exact (linkImport_alike hmodules ih id s r hroom).mono fun _ g'' hnext => hnext.trans h
    · intro s g' h
      refine .get (.bind (p := fun g'' _ => g''.visiting = g.visiting) ?_ ?_)
      · refine (Ensures.ofAnswer (fun g'' hfinish => ?_) fun _ _ => trivial).alike
        rw [(Graph.finish_ok_module? hfinish).2.2, h, List.filter_cons_of_neg (by simp), hwaiting]
      · exact fun g'' _ hdone => (Ensures.set hdone).alike

/-- Visits of entries never come below the bound, if it leaves room for an entry and all modules. -/
theorem visitEach_upTo (hmodules : ∀ specifier importer d,
      project.resolve specifier importer = .ok (.module d) → d ≠ helperModuleId → d ∈ modules)
    (idOf : Path → Except BundleError String) (entries : List Path) {fuel : Nat}
    (hroom : modules.length < fuel) (below : String → Linking m Unit) :
    (visitEach (visitUpTo project below fuel) idOf entries).run.run {} =
      (visitEach (visit project fuel) idOf entries).run.run {} := by
  rw [visit_eq_visitUpTo]
  refine (Alike.mapM (fun g => g.visiting = []) rfl fun entry _ g h => ?_).1
  refine .bind (p := fun _ g' => g'.visiting = [])
    (Ensures.ofAnswer (fun _ _ => h) fun _ _ => trivial).alike fun id g' h => ?_
  have hwithin : g'.Within (id :: modules) fuel := by
    refine ⟨?_, ?_, ?_⟩ <;> simp [h, Nat.succ_le_of_lt hroom]
  refine (visitUpTo_alike (fun specifier importer d hd hne => List.mem_cons_of_mem id
    (hmodules specifier importer d hd hne)) fuel g' id hwithin List.mem_cons_self (by simp [h])).bind ?_
  exact fun _ g'' hdone => .pure (hdone.trans h)

/-- A greater bound does not change how entries are linked. -/
theorem linkEntries_deeper (project : Project m) (hmodules : ∀ specifier importer d,
      project.resolve specifier importer = .ok (.module d) → d ≠ helperModuleId → d ∈ modules)
    (idOf : Path → Except BundleError String) (entries : List Path)
    (hroom : modules.length < project.depth) (more : Nat) :
    (linkEntries { project with depth := project.depth + more } idOf entries).run.run {} =
      (linkEntries project idOf entries).run.run {} := by
  have hdepth : visit { project with depth := project.depth + more } (project.depth + more) =
      visitUpTo project (visit project more) project.depth := by
    rw [← visit_add, visit_depth]
  rw [linkEntries_eq_visitEach, linkEntries_eq_visitEach, ExceptT.run_bind, ExceptT.run_bind,
    StateT.run_bind, StateT.run_bind, hdepth, visitEach_upTo hmodules idOf entries hroom]
  rfl

end Visits

end ModuleBuild
