import Mathlib.Algebra.Order.Ring.Rat
import Mathlib.Tactic.FieldSimp
import SchemaRules.Structure.OfJson

/-!
# What a schema document says

A schema document can be read as it stands, without a translation and without a list of checks:
a node is true or false, or it says something about a value by each of its keywords.

* `Structure.Accepts`: **the reading of a document**, by recursion on its nodes. The types of a
  node and `nullable` are one condition, and `format` and extensions say nothing.
* `Structure.Covered`: the documents that use no keyword but those which the reading knows.
* `Decimal.Exact.isWhole_iff`: the test of an integer is that its size is a whole number.
* `Structure.any_accepts_kinds_iff`: a value is of one of some kinds exactly if its type is
  listed.
-/

namespace SchemaRules

namespace Decimal.Exact

/-- **The size as a rational number.** -/
def value (a : Exact) : ℚ :=
  a.mantissa * (2 : ℚ) ^ a.exponent

/-- **The test of a whole size** is exact. -/
theorem isWhole_iff (a : Exact) : a.isWhole = true ↔ ∃ n : ℤ, a.value = n := by
  obtain ⟨m, e⟩ := a
  by_cases he : 0 ≤ e
  · -- a whole multiple of a whole power
    obtain ⟨k, rfl⟩ := Int.eq_ofNat_of_zero_le he
    refine iff_of_true (by simp [isWhole]) ⟨m * 2 ^ k, ?_⟩
    simp [value]
  · obtain ⟨k, hk⟩ := Int.eq_ofNat_of_zero_le (show 0 ≤ -e by omega)
    obtain rfl : e = -(k : ℤ) := by omega
    have hpos : (2 : ℚ) ^ k ≠ 0 := pow_ne_zero k two_ne_zero
    have hwhole : isWhole ⟨m, -(k : ℤ)⟩ = true ↔ (2 ^ k : ℤ) ∣ m := by
      have hk0 : k ≠ 0 := by omega
      rw [Int.dvd_iff_emod_eq_zero]
      simp [isWhole, hk0]
    have hvalue : value ⟨m, -(k : ℤ)⟩ = m / 2 ^ k := by
      simp [value, div_eq_mul_inv]
    rw [hwhole]
    constructor
    · rintro ⟨n, rfl⟩
      refine ⟨n, ?_⟩
      rw [hvalue]
      push_cast
      field_simp
    · rintro ⟨n, hn⟩
      rw [hvalue, div_eq_iff hpos] at hn
      refine ⟨n, ?_⟩
      have hcast : (m : ℚ) = ((2 ^ k * n : ℤ) : ℚ) := by
        rw [hn, mul_comm]; push_cast; rfl
      exact Rat.intCast_inj.1 hcast

end Decimal.Exact

namespace Structure

/-! ## Types -/

/-- **Whether a value is of the type of a name.** An integer is a number without a fraction. -/
def OfType (name : String) : Json → Prop
  | .null => name = "null"
  | .bool _ => name = "boolean"
  | .int _ => name = "integer" ∨ name = "number"
  | .double x =>
    (name = "integer" ∧ ∃ n : ℤ, (Decimal.Exact.ofFloat x).value = n) ∨ name = "number"
  | .str _ => name = "string"
  | .arr _ => name = "array"
  | .obj _ => name = "object"

/-- The names that a `type` lists, one alone without a list. -/
def typeNames : Json → List String
  | .str name => [name]
  | types => types.textsIn

/-! ## Nodes and their parts -/

/-- The keywords of a node that the reading knows. -/
def readKeywords : List String :=
  ["type", "nullable", "format", "properties", "required", "items", "additionalProperties",
    "description"]

/-- A key of an extension. -/
def isExtension (key : String) : Bool :=
  Text.beginsWith ['x', '-'] key.toList

/-- The schema of a listed property. -/
def listedPart? (fields : Fields Json) (key : String) : Option Json :=
  match Fields.get? "properties" fields with
  | some (.obj listed) => Fields.get? key listed
  | _ => none

/-- **The parts of a node** that are nodes again: the schema of items, that of additional
properties, and those of the listed ones. -/
inductive Part (fields : Fields Json) : Json → Prop
  | items {part : Json} : Fields.get? "items" fields = some part → Part fields part
  | additional {part : Json} :
      Fields.get? "additionalProperties" fields = some part → Part fields part
  | property {key : String} {part : Json} : listedPart? fields key = some part → Part fields part

/-- **A document of the keywords that the reading knows.** Its nodes are truth values or objects. -/
inductive Covered : Json → Prop
  | flag (b : Bool) : Covered (.bool b)
  | node {fields : Fields Json} :
      (∀ key ∈ Fields.names fields, key ∈ readKeywords ∨ isExtension key = true) →
      (∀ part, Part fields part → Covered part) → Covered (.obj fields)

/-- **What a document says of a value.**

* A node that is true accepts all values, one that is false accepts none.
* Where a node has a `type`, the type of the value is listed in it, or the value is null and
  `nullable` is true.
* An object has every required key. The value under a listed property is accepted by its schema,
  and every other one by the schema of additional properties, if there is one.
* Every item of an array is accepted by the schema of items, if there is one. -/
inductive Accepts : Json → Json → Prop
  | all (v : Json) : Accepts (.bool true) v
  | node {fields : Fields Json} {v : Json} :
      (∀ types, Fields.get? "type" fields = some types →
        (∃ name ∈ typeNames types, OfType name v) ∨
          v = .null ∧ Fields.get? "nullable" fields = some (.bool true)) →
      (∀ names members, Fields.get? "required" fields = some names → v = .obj members →
        ∀ name ∈ names.textsIn, Fields.has name members = true) →
      (∀ key part member, listedPart? fields key = some part → v.get? key = some member →
        Accepts part member) →
      (∀ part key member, Fields.get? "additionalProperties" fields = some part →
        listedPart? fields key = none → v.get? key = some member → Accepts part member) →
      (∀ part items item, Fields.get? "items" fields = some part → v = .arr items →
        item ∈ items → Accepts part item) →
      Accepts (.obj fields) v

/-! ## Kinds -/

theorem ofType_null_iff {v : Json} : OfType "null" v ↔ v = .null := by
  cases v <;> simp [OfType]

/-- **A value is of a kind** exactly if it is of the type of its name. -/
theorem accepts_iff_ofType (k : Kind) (v : Json) : k.accepts v = true ↔ OfType k.name v := by
  cases k <;> cases v <;>
    simp [Kind.accepts, Kind.name, OfType, Decimal.Exact.isWhole_iff]

theorem ofName?_eq_some_iff {name : String} {k : Kind} :
    Kind.ofName? name = some k ↔ k.name = name := by
  constructor
  · intro h
    simpa using List.find?_some h
  · rintro rfl
    cases k <;> decide

/-- The type of a value is the name of a kind. -/
theorem exists_kind_of_ofType {name : String} {v : Json} (h : OfType name v) :
    ∃ k, Kind.ofName? name = some k := by
  cases v with
  | null | bool _ | str _ | arr _ | obj _ => cases h; exact ⟨_, rfl⟩
  | int _ => rcases h with rfl | rfl <;> exact ⟨_, rfl⟩
  | double _ => rcases h with ⟨rfl, -⟩ | rfl <;> exact ⟨_, rfl⟩

theorem mem_kinds_iff {types : Json} {k : Kind} :
    k ∈ types.kinds ↔ ∃ name ∈ typeNames types, Kind.ofName? name = some k := by
  cases types <;> simp [Json.kinds, typeNames, List.mem_filterMap]

/-- **A value is of one of the kinds** that a type names exactly if its type is listed. -/
theorem any_accepts_kinds_iff (types v : Json) :
    types.kinds.any (·.accepts v) = true ↔ ∃ name ∈ typeNames types, OfType name v := by
  simp only [List.any_eq_true, mem_kinds_iff, accepts_iff_ofType]
  constructor
  · rintro ⟨k, ⟨name, hname, hk⟩, hv⟩
    rw [ofName?_eq_some_iff] at hk
    exact ⟨name, hname, hk ▸ hv⟩
  · rintro ⟨name, hname, hv⟩
    obtain ⟨k, hk⟩ := exists_kind_of_ofType hv
    refine ⟨k, ⟨name, hname, hk⟩, ?_⟩
    rw [ofName?_eq_some_iff.1 hk]
    exact hv

end Structure

end SchemaRules
