import SchemaRules.Yaml.Value

/-!
# Typed reading of nodes

Where a document says what it expects, a scalar is read as that and not by its looks: any
scalar has a text, and an empty plain scalar may be an empty list or mapping. Inside of a
choice the value is formed first, so there the reading is `strict`: what looks like a number is
no text.
-/

namespace SchemaRules.Yaml.Node

/-- The scalar that a node is, for the strict reading. -/
def scalar? (n : Node) : Option Scalar :=
  match n.value? with
  | some (.scalar s) => some s
  | _ => none

/-- **The text of a scalar.** -/
def text? (strict : Bool) (n : Node) : Option String :=
  if strict then
    match n.scalar? with
    | some (.text s) => some s
    | _ => none
  else
    match n with
    | .scalar _ _ text => some text
    | _ => none

/-- Whether a plain scalar without a tag means null. -/
def isNothing (tag : Option String) (text : String) : Option Bool :=
  match tag with
  | none => some (text.isEmpty || isNullWord text)
  | some tag =>
    if tag = standardTag "null" then (if isNullWord text then some true else none)
    else some false

/-- **Whether a part is left out** by a null in its place. -/
def isAbsent? (strict : Bool) (n : Node) : Option Bool :=
  if strict then
    match n.scalar? with
    | some .null => some true
    | _ => some false
  else
    match n with
    | .scalar tag .plain text => isNothing tag text
    | _ => some false

/-- **The truth value of a scalar**, plain or in a block that is tagged for one. -/
def flag? (strict : Bool) (n : Node) : Option Bool :=
  if strict then
    match n.scalar? with
    | some (.bool b) => some b
    | _ => none
  else
    match n with
    | .scalar _ .plain text => readBool? text
    | .scalar tag .literal text =>
      if tag = some (standardTag "bool") then readBool? text else none
    | _ => none

/-- **The items of a list.** -/
def items? (strict : Bool) : Node → Option (List Node)
  | .seq _ items => some items
  | .scalar _ .plain "" => if strict then none else some []
  | _ => none

/-- The JSON that stands for a node inside of a typed document. -/
def content? (n : Node) : Option Json := do
  (← n.value?).content?

/-- The texts of a list. -/
def texts? (strict : Bool) (n : Node) : Option (List String) := do
  (← n.items? strict).mapM (text? strict)

end SchemaRules.Yaml.Node
