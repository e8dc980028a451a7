import SchemaRules.Json.Printer
import SchemaRules.Structure.Check
import SchemaRules.Text.Search

/-!
# Violations

A violation tells the place in the value, the place in the schema and what is wrong. Places are
written as pointers, with a slash in front of every step.

* `Check.violations` lists the violations of a check; it goes down the check. Where a check refers
  to another place, `follow` tells the violations there.
* A value passes a check when it has none.
-/

namespace SchemaRules

/-- **A violation.** -/
structure Violation where
  place : String
  schemaPlace : String
  message : String
  deriving DecidableEq

/-- A violation in words; the whole value has no place. -/
def Violation.text (v : Violation) : String :=
  if v.place.isEmpty then s!"(root): {v.message}" else s!"{v.place}: {v.message}"

/-- A step of a pointer. -/
def pointerStep (name : String) : String :=
  String.ofList (name.toList.flatMap fun c =>
    if c = '~' then ['~', '0'] else if c = '/' then ['~', '1'] else [c])

/-- The place one step further. -/
def stepTo (place name : String) : String :=
  place ++ "/" ++ pointerStep name

/-- The place of an item. -/
def stepToItem (place : String) (i : Nat) : String :=
  place ++ "/" ++ toString i

/-- The place of a keyword. -/
def stepToKeyword (place keyword : String) : String :=
  if keyword.isEmpty then place else stepTo place keyword

/-- The violations at another place of the schema: its name, the places, and the value. -/
abbrev Follow := String → String → String → Json → List Violation

namespace Demand

/-- What is said of a value of another kind. -/
def kindsBreach (ks : List Kind) (v : Json) : String :=
  match ks with
  | [k] => s!"{v.render} is not of type \"{k.name}\""
  | _ =>
    let names := Text.joinWith ", " ((Kind.all.filter ks.contains).map fun k => s!"\"{k.name}\"")
    s!"{v.render} is not of types {names}"

/-- The difference below which two numbers count as the same. -/
def tolerance : Float := Float.ofScientific 2220446049250313 true 31

/-- Whether a value is the one that is expected; numbers may differ a little. -/
def isExpected (expected v : Json) : Bool :=
  match expected.toDouble?, v.toDouble? with
  | some a, some b => (a - b).abs < tolerance
  | none, none => expected.equal v
  | _, _ => false

/-- Whether a number is a whole multiple. By a divisor that is not whole, the quotient may be off
a little, and is a multiple whenever it is negative. -/
def isMultiple (divisor x : Float) : Bool :=
  if (Decimal.Exact.ofFloat divisor).isWhole then
    (Decimal.Exact.ofFloat x).isMultipleOf (.ofFloat divisor)
  else
    let quotient := x / divisor
    if quotient.isFinite then
      let whole := if quotient < 0 then quotient.ceil else quotient.floor
      quotient - whole < tolerance
    else
      let d := Decimal.Scientific.ofFloat divisor
      let n := Decimal.Scientific.ofFloat x
      let e := min d.exponent n.exponent
      n.coefficient * Nat.pow 10 (n.exponent - e).toNat %
        (d.coefficient * Nat.pow 10 (d.exponent - e).toNat) == 0

/-- What is said of members that are not allowed. -/
def unexpectedBreach (names : List String) : String :=
  let listed := Text.joinWith ", " (names.map fun n => s!"'{n}'")
  let verb := if names.length = 1 then "was" else "were"
  s!"Additional properties are not allowed ({listed} {verb} unexpected)"

/-- What is wrong with a value by a demand on the value alone. -/
def breach? (d : Demand) (v : Json) : Option String :=
  match d with
  | kinds ks => if ks.any (·.accepts v) then none else some (kindsBreach ks v)
  | options vs =>
    if vs.any v.equal then none else some s!"{v.render} is not one of {(Json.arr vs).render}"
  | exactly expected =>
    if isExpected expected v then none else some s!"{expected.render} was expected"
  | bound b edge =>
    match v.size?, edge.size? with
    | some x, some y =>
      if b.keeps (x.compare y) then none else some s!"{v.render} is {b.breach} {edge.render}"
    | _, _ => none
  | multiple divisor =>
    match v.toDouble?, divisor.toDouble? with
    | some x, some y =>
      if isMultiple y x then none
      else some s!"{v.render} is not a multiple of {Decimal.Layout.plain.write y}"
    | _, _ => none
  | limit l =>
    match l.counted.of? v with
    | some n => if l.keeps n then none else some s!"{v.render} {l.breach}"
    | none => none
  | pattern source p =>
    match v with
    | .str s => if p.fits s then none else some s!"{v.render} does not match \"{source}\""
    | _ => none
  | distinct =>
    match v with
    | .arr vs =>
      if Json.areDistinct vs then none else some s!"{v.render} has non-unique elements"
    | _ => none
  | _ => none

/-- The names that an object has to have and has not. -/
def missing (names : List String) (v : Json) : List String :=
  match v with
  | .obj fields => names.filter fun n => !Fields.has n fields
  | _ => []

end Demand

/-- What is said of a value that a closed door meets. -/
def neverBreach (v : Json) : String :=
  s!"False schema does not allow {v.render}"

/-- The fields of an object. -/
def fieldsOf : Json → List (String × Json)
  | .obj fields => fields
  | _ => []

/-- The items of a list. -/
def itemsOf : Json → List Json
  | .arr items => items
  | _ => []

mutual
/-- **The violations of a check** at a place of a value and a place of the schema. -/
def Check.violations (follow : Follow) :
    Check → String → String → Json → List Violation
  | .never, place, spot, v => [⟨place, spot, neverBreach v⟩]
  | .all demands, place, spot, v => demandsViolations follow demands place spot v
/-- The violations of demands, one after the other. -/
def demandsViolations (follow : Follow) :
    List (String × Demand) → String → String → Json → List Violation
  | [], _, _, _ => []
  | (keyword, d) :: rest, place, spot, v =>
    d.violations follow keyword place spot v ++ demandsViolations follow rest place spot v
/-- **The violations of a demand** that stands under a keyword. -/
def Demand.violations (follow : Follow) :
    Demand → String → String → String → Json → List Violation
  | .required names, keyword, place, spot, v =>
    (Demand.missing names v).map fun n =>
      ⟨place, stepToKeyword spot keyword, s!"{(Json.str n).render} is a required property"⟩
  | .members known, keyword, place, spot, v =>
    knownViolations follow known place (stepTo spot keyword) (fieldsOf v)
  | .matching patterns, keyword, place, spot, v =>
    patternViolations follow patterns place (stepTo spot keyword) (fieldsOf v)
  | .others known patterns rest, keyword, place, spot, v =>
    let listed (key : String) (x : Json) : Option (List Violation) :=
      listedViolations follow known key (stepTo place key) (stepTo spot "properties") x
    let matched (key : String) (x : Json) : Option (List Violation) :=
      matchViolations follow patterns key (stepTo place key) (stepTo spot "patternProperties") x
    let isOther (key : String) (x : Json) : Bool := (listed key x).isNone && (matched key x).isNone
    let fields := fieldsOf v
    match rest with
    | .never =>
      if known.isNone && patterns.isEmpty then
        match fields with
        | (_, x) :: _ => [⟨place, stepTo spot keyword, neverBreach x⟩]
        | [] => []
      else
        let unexpected := (fields.filter fun f => isOther f.1 f.2).map Prod.fst
        (fields.flatMap fun f => (listed f.1 f.2).getD [] ++ (matched f.1 f.2).getD []) ++
          if unexpected.isEmpty then []
          else [⟨place, stepTo spot keyword, Demand.unexpectedBreach unexpected⟩]
    | .all demands =>
      fields.flatMap fun f =>
        if isOther f.1 f.2 then
          demandsViolations follow demands (stepTo place f.1) (stepTo spot keyword) f.2
        else (listed f.1 f.2).getD [] ++ (matched f.1 f.2).getD []
  | .names .never, keyword, place, spot, v =>
    if (fieldsOf v).isEmpty then [] else [⟨place, stepTo spot keyword, neverBreach v⟩]
  | .names (.all demands), keyword, place, spot, v =>
    (fieldsOf v).flatMap fun f =>
      demandsViolations follow demands place (stepTo spot keyword) (.str f.1)
  | .items skipped c, keyword, place, spot, v =>
    ((itemsOf v).zipIdx.drop skipped).flatMap fun x =>
      c.violations follow (stepToItem place x.2) (stepTo spot keyword) x.1
  | .places cs, keyword, place, spot, v =>
    placesViolations follow cs 0 place (stepTo spot keyword) (itemsOf v)
  | .contains c least most, keyword, place, spot, v =>
    match v with
    | .arr items =>
      let n := (items.filter fun x => (c.violations follow place spot x).isEmpty).length
      let failed (key : String) : List Violation :=
        [⟨place, stepTo spot key, s!"None of {v.render} are valid under the given schema"⟩]
      match least, most with
      | none, none => if n = 0 then failed keyword else []
      | some least, none => if n < least then failed "minContains" else []
      | none, some most => if most < n || n = 0 then failed "maxContains" else []
      | some least, some most =>
        if most < n then failed "maxContains" else if n < least then failed "minContains" else []
    | _ => []
  | .negation source c, keyword, place, spot, v =>
    if (c.violations follow place spot v).isEmpty then
      [⟨place, stepTo spot keyword, s!"{source.render} is not allowed for {v.render}"⟩]
    else []
  | .combination how cs, keyword, place, spot, v =>
    let parts := partsViolations follow cs 0 place (stepTo spot keyword) v
    let valid := (parts.filter List.isEmpty).length
    let failed (what : String) : List Violation :=
      [⟨place, stepTo spot keyword,
        s!"{v.render} is {what} of the schemas listed in the '{keyword}' keyword"⟩]
    match how with
    | .every => parts.flatten
    | .any => if valid = 0 then failed "not valid under any" else []
    | .one =>
      if valid = 0 then failed "not valid under any"
      else if valid = 1 then [] else failed "valid under more than one"
  | .conditional condition yes no, keyword, place, spot, v =>
    if (condition.violations follow place (stepTo spot keyword) v).isEmpty then
      branchViolations follow yes place (stepTo spot "then") v
    else branchViolations follow no place (stepTo spot "else") v
  | .dependent checks, keyword, place, spot, v =>
    dependentViolations follow checks place (stepTo spot keyword) v
  | .reference target, keyword, place, spot, v => follow target place (stepTo spot keyword) v
  | d, keyword, place, spot, v =>
    match d.breach? v with
    | some message => [⟨place, stepToKeyword spot keyword, message⟩]
    | none => []
/-- The violations of a check that may be left out. -/
def branchViolations (follow : Follow) :
    Option Check → String → String → Json → List Violation
  | none, _, _, _ => []
  | some c, place, spot, v => c.violations follow place spot v
/-- The violations of the members that are known, in the order of the schema. -/
def knownViolations (follow : Follow) :
    List (String × Check) → String → String → List (String × Json) → List Violation
  | [], _, _, _ => []
  | (name, c) :: rest, place, spot, fields =>
    (match Fields.get? name fields with
      | some x => c.violations follow (stepTo place name) (stepTo spot name) x
      | none => []) ++ knownViolations follow rest place spot fields
/-- The violations of a member, if it is known. -/
def memberViolations (follow : Follow) :
    List (String × Check) → String → String → String → Json → Option (List Violation)
  | [], _, _, _, _ => none
  | (name, c) :: rest, key, place, spot, x =>
    if name = key then some (c.violations follow place (stepTo spot name) x)
    else memberViolations follow rest key place spot x
/-- The violations of a member, if members are listed and it is among them. -/
def listedViolations (follow : Follow) :
    Option (List (String × Check)) → String → String → String → Json → Option (List Violation)
  | none, _, _, _, _ => none
  | some checks, key, place, spot, x => memberViolations follow checks key place spot x
/-- The violations of the members that match, in the order of the patterns. -/
def patternViolations (follow : Follow) :
    List (String × Pattern × Check) → String → String → List (String × Json) → List Violation
  | [], _, _, _ => []
  | (source, p, c) :: rest, place, spot, fields =>
    ((fields.filter fun f => p.fits f.1).flatMap fun f =>
      c.violations follow (stepTo place f.1) (stepTo spot source) f.2) ++
      patternViolations follow rest place spot fields
/-- The violations of a member by the patterns that it matches, if it matches one. -/
def matchViolations (follow : Follow) :
    List (String × Pattern × Check) → String → String → String → Json → Option (List Violation)
  | [], _, _, _, _ => none
  | (source, p, c) :: rest, key, place, spot, x =>
    let more := matchViolations follow rest key place spot x
    if p.fits key then some (c.violations follow place (stepTo spot source) x ++ more.getD [])
    else more
/-- The violations of items by the checks of their places. -/
def placesViolations (follow : Follow) :
    List Check → Nat → String → String → List Json → List Violation
  | [], _, _, _, _ => []
  | _ :: _, _, _, _, [] => []
  | c :: cs, i, place, spot, x :: xs =>
    c.violations follow (stepToItem place i) (stepToItem spot i) x ++
      placesViolations follow cs (i + 1) place spot xs
/-- The violations of each of several checks. -/
def partsViolations (follow : Follow) :
    List Check → Nat → String → String → Json → List (List Violation)
  | [], _, _, _, _ => []
  | c :: cs, i, place, spot, v =>
    c.violations follow place (stepToItem spot i) v ::
      partsViolations follow cs (i + 1) place spot v
/-- The violations of checks that members bring with them. -/
def dependentViolations (follow : Follow) :
    List (String × Check) → String → String → Json → List Violation
  | [], _, _, _ => []
  | (name, c) :: rest, place, spot, v =>
    (if Fields.has name (fieldsOf v) then c.violations follow place (stepTo spot name) v else []) ++
      dependentViolations follow rest place spot v
end

section Simple

variable (follow : Follow) (keyword place spot : String) (v : Json)

theorem Check.violations_never :
    Check.never.violations follow place spot v = [⟨place, spot, neverBreach v⟩] := by
  rw [Check.violations]

theorem Demand.violations_required (names : List String) :
    (Demand.required names).violations follow keyword place spot v =
      (Demand.missing names v).map fun n =>
        ⟨place, stepToKeyword spot keyword, s!"{(Json.str n).render} is a required property"⟩ := by
  rw [Demand.violations]

theorem Demand.violations_kinds (ks : List Kind) :
    (Demand.kinds ks).violations follow keyword place spot v =
      ((Demand.kinds ks).breach? v).elim [] fun message =>
        [⟨place, stepToKeyword spot keyword, message⟩] := by
  rw [Demand.violations.eq_def]
  dsimp only
  cases (Demand.kinds ks).breach? v <;> rfl

end Simple

end SchemaRules
