import SchemaRules.Declaration.Basic
import SchemaRules.Json.Basic
import SchemaRules.Value.Compare
import SchemaRules.Value.Seed

/-!
# Data as values

The value that rules see for a JSON value. The maps in it are built anew each time, so their
entries stand in the orders of the seed.

* `Value.ofJson` goes by the kind of the data alone: whole numbers are signed where they
  fit, and unsigned above.
* `Declaration.convert` follows a declaration where the data agrees with it: numbers
  declared as doubles become doubles. Where it does not agree, the data decides.
-/

namespace SchemaRules

namespace Value

mutual
/-- **The value of data** that nothing is declared about. -/
def ofJson : Json → (s : Seed := .standard) → Value
  | .null, _ => null
  | .bool b, _ => bool b
  | .int n, _ => if isInt n then int n else uint n.toNat
  | .double x, _ => double x
  | .str s, _ => str s
  | .arr items, s => list (ofJsonItems items s)
  | .obj fields, s => map (s.arrange (ofJsonFields fields s))
/-- The values of items. -/
def ofJsonItems : List Json → Seed → List Value
  | [], _ => []
  | v :: rest, s => ofJson v s.here :: ofJsonItems rest s.next
/-- The values of entries. -/
def ofJsonFields : List (String × Json) → Seed → List (Key × Value)
  | [], _ => []
  | (k, v) :: rest, s => (.str k, ofJson v (s.under k)) :: ofJsonFields rest s
end

theorem ofJsonItems_eq_map (items : List Json) (s : Seed) :
    ofJsonItems items s = (s.spread items).map fun e => ofJson e.2 e.1 := by
  induction items generalizing s with
  | nil => rfl
  | cons v rest ih => rw [ofJsonItems, ih, Seed.spread, List.map_cons]

theorem ofJsonFields_eq_map (fields : Fields Json) (s : Seed) :
    ofJsonFields fields s = fields.map fun e => (.str e.1, ofJson e.2 (s.under e.1)) := by
  induction fields with
  | nil => rfl
  | cons e rest ih => rw [ofJsonFields, ih, List.map_cons]

end Value

namespace Declaration

mutual
/-- **The value of data** at a declaration. -/
def convert : Declaration → Json → (s : Seed := .standard) → Value
  | double, .int n, _ => .double (Value.toDouble n)
  | list d, .arr items, s => .list (convertItems d items s)
  | map d, .obj fields, s => .map (s.arrange (convertValues d fields s))
  | object _ ds, .obj fields, s => .map (s.arrange (convertFields ds fields s))
  | _, v, s => Value.ofJson v s
/-- The values of the items of a list. -/
def convertItems : Declaration → List Json → Seed → List Value
  | _, [], _ => []
  | d, v :: rest, s => d.convert v s.here :: convertItems d rest s.next
/-- The values of the entries of a map. -/
def convertValues : Declaration → List (String × Json) → Seed → List (Key × Value)
  | _, [], _ => []
  | d, (k, v) :: rest, s => (.str k, d.convert v (s.under k)) :: convertValues d rest s
/-- The values of the entries of an object, those that are not declared by their kind. -/
def convertFields :
    List (String × Declaration) → List (String × Json) → Seed → List (Key × Value)
  | _, [], _ => []
  | ds, (k, v) :: rest, s =>
    let w :=
      match Fields.get? k ds with
      | some d => d.convert v (s.under k)
      | none => Value.ofJson v (s.under k)
    (.str k, w) :: convertFields ds rest s
end

theorem convertItems_eq_map (d : Declaration) (items : List Json) (s : Seed) :
    convertItems d items s = (s.spread items).map fun e => d.convert e.2 e.1 := by
  induction items generalizing s with
  | nil => rfl
  | cons v rest ih => rw [convertItems, ih, Seed.spread, List.map_cons]

theorem convertValues_eq_map (d : Declaration) (fields : Fields Json) (s : Seed) :
    convertValues d fields s = fields.map fun e => (.str e.1, d.convert e.2 (s.under e.1)) := by
  induction fields with
  | nil => rfl
  | cons e rest ih => rw [convertValues, ih, List.map_cons]

/-- The value of data under a key of an object. -/
def convertField (ds : List (String × Declaration)) (key : String) (v : Json) (s : Seed) : Value :=
  match Fields.get? key ds with
  | some d => d.convert v s
  | none => Value.ofJson v s

theorem convertFields_eq_map (ds : List (String × Declaration)) (fields : Fields Json) (s : Seed) :
    convertFields ds fields s =
      fields.map fun e => (.str e.1, convertField ds e.1 e.2 (s.under e.1)) := by
  induction fields with
  | nil => rfl
  | cons e rest ih =>
    rw [convertFields, ih, List.map_cons]
    rfl

end Declaration

end SchemaRules
