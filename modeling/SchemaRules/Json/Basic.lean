import SchemaRules.Fields

/-!
# JSON values

A number is a whole number or a double, and the two stay apart: `2` is not `2.0`.
The entries of an object stand in the order of their keys.

* `Json.Canonical`: the keys of every object ascend, as reading and building leave them.
* `Json.same` compares values, whole numbers and doubles apart.
-/

namespace SchemaRules

/-- **A JSON value.** -/
inductive Json where
  | null
  | bool (b : Bool)
  | int (n : Int)
  | double (x : Float)
  | str (s : String)
  | arr (items : List Json)
  | obj (fields : List (String × Json))
  deriving Inhabited

namespace Json

mutual
/-- The keys of every object ascend strictly. -/
def Canonical : Json → Prop
  | arr items => CanonicalItems items
  | obj fields => Fields.Ordered fields ∧ CanonicalFields fields
  | _ => True
/-- Every item is canonical. -/
def CanonicalItems : List Json → Prop
  | [] => True
  | v :: rest => v.Canonical ∧ CanonicalItems rest
/-- Every value of an entry is canonical. -/
def CanonicalFields : List (String × Json) → Prop
  | [] => True
  | (_, v) :: rest => v.Canonical ∧ CanonicalFields rest
end

mutual
instance decidableCanonical : ∀ v : Json, Decidable v.Canonical
  | arr items => decidableCanonicalItems items
  | obj fields =>
    have := decidableCanonicalFields fields
    inferInstanceAs (Decidable (Fields.Ordered fields ∧ CanonicalFields fields))
  | null | bool _ | int _ | double _ | str _ => isTrue trivial
instance decidableCanonicalItems : ∀ items : List Json, Decidable (CanonicalItems items)
  | [] => isTrue trivial
  | v :: rest =>
    have := decidableCanonical v
    have := decidableCanonicalItems rest
    inferInstanceAs (Decidable (v.Canonical ∧ CanonicalItems rest))
instance decidableCanonicalFields :
    ∀ fields : List (String × Json), Decidable (CanonicalFields fields)
  | [] => isTrue trivial
  | (_, v) :: rest =>
    have := decidableCanonical v
    have := decidableCanonicalFields rest
    inferInstanceAs (Decidable (v.Canonical ∧ CanonicalFields rest))
end

theorem canonicalItems_iff {items : List Json} :
    CanonicalItems items ↔ ∀ v ∈ items, v.Canonical := by
  induction items with
  | nil => simp [CanonicalItems]
  | cons v rest ih => simp only [CanonicalItems, ih, List.forall_mem_cons]

theorem canonicalFields_iff {fields : List (String × Json)} :
    CanonicalFields fields ↔ ∀ e ∈ fields, e.2.Canonical := by
  induction fields with
  | nil => simp [CanonicalFields]
  | cons e rest ih => simp only [CanonicalFields, ih, List.forall_mem_cons]

mutual
/-- Whether two values are the same. -/
def same : Json → Json → Bool
  | null, null => true
  | bool a, bool b => a == b
  | int a, int b => a == b
  | double a, double b => a == b
  | str a, str b => a == b
  | arr a, arr b => sameItems a b
  | obj a, obj b => sameFields a b
  | _, _ => false
/-- Whether two lists hold the same values in the same order. -/
def sameItems : List Json → List Json → Bool
  | [], [] => true
  | x :: xs, y :: ys => x.same y && sameItems xs ys
  | _, _ => false
/-- Whether two lists hold the same entries in the same order. -/
def sameFields : List (String × Json) → List (String × Json) → Bool
  | [], [] => true
  | (k, x) :: xs, (l, y) :: ys => k == l && x.same y && sameFields xs ys
  | _, _ => false
end

/-- An object that holds the given entries, of equal keys the last. -/
def ofEntries (entries : List (String × Json)) : Json :=
  obj (Fields.ofList entries)

/-- The value of an object under a key. -/
def get? (key : String) : Json → Option Json
  | obj fields => Fields.get? key fields
  | _ => none

end Json

end SchemaRules
