import SchemaRules.Structure.Check

/-!
# References

The places of a document that a check refers to, in the order in which they occur.
-/

namespace SchemaRules

mutual
/-- The references in a check. -/
def Check.targets : Check → List String
  | .never => []
  | .all demands => demandsTargets demands
/-- The references in demands. -/
def demandsTargets : List (String × Demand) → List String
  | [] => []
  | (_, d) :: rest => d.targets ++ demandsTargets rest
/-- The references in a demand. -/
def Demand.targets : Demand → List String
  | .members known => namedTargets known
  | .matching patterns => patternTargets patterns
  | .others known patterns rest =>
    (match known with
      | some checks => namedTargets checks
      | none => []) ++ patternTargets patterns ++ rest.targets
  | .names c => c.targets
  | .items _ c => c.targets
  | .places cs => checksTargets cs
  | .contains c _ _ => c.targets
  | .negation _ c => c.targets
  | .combination _ cs => checksTargets cs
  | .conditional c yes no =>
    c.targets ++
      (match yes with
        | some c => c.targets
        | none => []) ++
      (match no with
        | some c => c.targets
        | none => [])
  | .dependent checks => namedTargets checks
  | .reference target => [target]
  | _ => []
/-- The references in named checks. -/
def namedTargets : List (String × Check) → List String
  | [] => []
  | (_, c) :: rest => c.targets ++ namedTargets rest
/-- The references in checks of patterns. -/
def patternTargets : List (String × Pattern × Check) → List String
  | [] => []
  | (_, _, c) :: rest => c.targets ++ patternTargets rest
/-- The references in checks. -/
def checksTargets : List Check → List String
  | [] => []
  | c :: rest => c.targets ++ checksTargets rest
end

end SchemaRules
