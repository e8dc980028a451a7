import SchemaRules.Decimal.Layout
import SchemaRules.Text.Quoted
import SchemaRules.Text.Search
import SchemaRules.Yaml.Node
import SchemaRules.Yaml.Resolve

/-!
# Values of YAML

What a document means when nothing is known about it. A local tag stays with its value, and
the keys of a mapping may be any values.

* `Node.value?` is the value of a node.
* `Value.isDistinct`: no mapping has two keys that are the same.
* `Value.toJson` is the value as JSON, with keys as text and without tags; it tells the place
  of what JSON does not have.
* `Value.content?` is the stricter reading inside of typed documents: keys are texts, there are
  no tags, and a double that is not finite is null.
-/

namespace SchemaRules.Yaml

/-- **A value.** -/
inductive Value where
  | scalar (s : Scalar)
  | seq (items : List Value)
  | map (entries : List (Value × Value))
  | tagged (name : String) (v : Value)
  deriving Inhabited

mutual
/-- **The value of a node**, if all its scalars and tags have one. -/
def Node.value? : Node → Option Value
  | .scalar tag style text =>
    match localTag? tag with
    | some name =>
      if name.isEmpty then none
      else (resolveStyled style text).map fun s => .tagged name (.scalar s)
    | none => (resolveTagged tag style text).map .scalar
  | .seq tag items => do tag? tag (.seq (← valueItems? items))
  | .map tag entries => do tag? tag (.map (← valueEntries? entries))
/-- The values of items. -/
def Node.valueItems? : List Node → Option (List Value)
  | [] => some []
  | n :: rest => do
    let v ← n.value?
    return v :: (← valueItems? rest)
/-- The values of entries. -/
def Node.valueEntries? : List (Node × Node) → Option (List (Value × Value))
  | [] => some []
  | (k, n) :: rest => do
    let key ← k.value?
    let v ← n.value?
    return (key, v) :: (← valueEntries? rest)
/-- A value with the local tag of its node. -/
def Node.tag? (tag : Option String) (v : Value) : Option Value :=
  match localTag? tag with
  | some name => if name.isEmpty then none else some (.tagged name v)
  | none => some v
end

/-- Whether two scalars are the same; no number is the same as itself. -/
def Scalar.same : Scalar → Scalar → Bool
  | null, null => true
  | bool a, bool b => a == b
  | int a, int b => a == b
  | double a, double b => a == b || (a.isNaN && b.isNaN)
  | text a, text b => a == b
  | _, _ => false

namespace Value

mutual
/-- Whether two values are the same, mappings in any order. -/
def same : Value → Value → Bool
  | scalar a, scalar b => a.same b
  | seq a, seq b => sameItems a b
  | map a, map b => a.length == b.length && within a b
  | tagged m a, tagged n b => m == n && a.same b
  | _, _ => false
/-- Whether two lists hold the same values. -/
def sameItems : List Value → List Value → Bool
  | [], [] => true
  | x :: xs, y :: ys => x.same y && sameItems xs ys
  | _, _ => false
/-- Whether all entries of a mapping are entries of another one. -/
def within : List (Value × Value) → List (Value × Value) → Bool
  | [], _ => true
  | (k, v) :: rest, b => (b.any fun e => k.same e.1 && v.same e.2) && within rest b
end

/-- Whether no two keys are the same. -/
def areDistinct : List Value → Bool
  | [] => true
  | k :: rest => !(rest.any k.same) && areDistinct rest

mutual
/-- **No mapping in a value has two keys that are the same.** -/
def isDistinct : Value → Bool
  | scalar _ => true
  | seq items => areItemsDistinct items
  | map entries => areDistinct (entries.map Prod.fst) && areEntriesDistinct entries
  | tagged _ v => v.isDistinct
/-- The same for items. -/
def areItemsDistinct : List Value → Bool
  | [] => true
  | v :: rest => v.isDistinct && areItemsDistinct rest
/-- The same for keys and values of entries. -/
def areEntriesDistinct : List (Value × Value) → Bool
  | [] => true
  | (k, v) :: rest => k.isDistinct && v.isDistinct && areEntriesDistinct rest
end

/-- A double as YAML writes it. -/
def doubleText (x : Float) : String :=
  if x.isNaN then ".nan"
  else if x.isInf then (if x < 0 then "-.inf" else ".inf")
  else Decimal.Layout.document.write x

/-- A tag with its mark. -/
def tagText (name : String) : String :=
  if name.startsWith "!" then name else "!" ++ name

mutual
/-- **A value in messages.** -/
def inspect : Value → String
  | scalar .null => "Null"
  | scalar (.bool b) => s!"Bool({b})"
  | scalar (.int n) => s!"Number({n})"
  | scalar (.double x) => s!"Number({doubleText x})"
  | scalar (.text s) => s!"String({Text.quoted s})"
  | seq items =>
    let texts := Text.joinWith ", " (inspectItems items)
    s!"Sequence [{texts}]"
  | map entries =>
    let texts := Text.joinWith ", " (inspectEntries entries)
    s!"Mapping \x7b{texts}\x7d"
  | tagged name v => s!"TaggedValue \x7b tag: {tagText name}, value: {v.inspect} \x7d"
/-- Items in messages. -/
def inspectItems : List Value → List String
  | [] => []
  | v :: rest => v.inspect :: inspectItems rest
/-- Entries in messages; keys that are scalars stand without their kind. -/
def inspectEntries : List (Value × Value) → List String
  | [] => []
  | (k, v) :: rest =>
    let key := match k with
      | scalar (.bool b) => toString b
      | scalar (.int n) => toString n
      | scalar (.double x) => doubleText x
      | scalar (.text s) => Text.quoted s
      | k => k.inspect
    s!"{key}: {v.inspect}" :: inspectEntries rest
end

/-- The text of a key. -/
def keyText? : Value → Option String
  | scalar (.text s) => some s
  | scalar (.int n) => some (toString n)
  | scalar (.double x) => some (doubleText x)
  | scalar (.bool b) => some (toString b)
  | _ => none

end Value

/-- **A value that JSON does not have**, and the place of it. -/
structure NoJson where
  place : String
  reason : String
  deriving DecidableEq

/-- The wording of a value that JSON does not have. -/
def NoJson.message (e : NoJson) : String :=
  s!"YAML value at {e.place} has no JSON form: {e.reason}"

/-- A scalar as JSON. -/
def Scalar.toJson (place : String) : Scalar → Except NoJson Json
  | null => .ok .null
  | bool b => .ok (.bool b)
  | int n => .ok (.int n)
  | double x =>
    if x.isFinite then .ok (.double x)
    else .error ⟨place, s!"non-finite number {Decimal.Layout.plain.write x}"⟩
  | text s => .ok (.str s)

namespace Value

mutual
/-- **The value as JSON** at a place. Of keys with the same text the last one counts. -/
def toJson (place : String) : Value → Except NoJson Json
  | scalar s => s.toJson place
  | seq items => do return .arr (← toJsonItems place 0 items)
  | map entries => do return .obj (← toJsonEntries place [] entries)
  | tagged _ v => v.toJson place
/-- The items as JSON, from the one with a number on. -/
def toJsonItems (place : String) : Nat → List Value → Except NoJson (List Json)
  | _, [] => .ok []
  | i, v :: rest => do
    let v ← v.toJson s!"{place}[{i}]"
    return v :: (← toJsonItems place (i + 1) rest)
/-- The entries as JSON, put into given fields. -/
def toJsonEntries (place : String) (fields : Fields Json) :
    List (Value × Value) → Except NoJson (Fields Json)
  | [] => .ok fields
  | (k, v) :: rest => do
    match k.keyText? with
    | some key =>
      let v ← v.toJson s!"{place}.{key}"
      toJsonEntries place (Fields.insert key v fields) rest
    | none => .error ⟨place, s!"mapping key {k.inspect} is not a scalar"⟩
end

/-- A scalar inside of a typed document. -/
def scalarContent : Scalar → Json
  | .null => .null
  | .bool b => .bool b
  | .int n => .int n
  | .double x => if x.isFinite then .double x else .null
  | .text s => .str s

mutual
/-- **The value inside of a typed document.** -/
def content? : Value → Option Json
  | scalar s => some (scalarContent s)
  | seq items => do return .arr (← contentItems? items)
  | map entries => do return .obj (← contentEntries? [] entries)
  | tagged _ _ => none
/-- The items inside of a typed document. -/
def contentItems? : List Value → Option (List Json)
  | [] => some []
  | v :: rest => do
    let v ← v.content?
    return v :: (← contentItems? rest)
/-- The entries inside of a typed document, put into given fields. -/
def contentEntries? (fields : Fields Json) : List (Value × Value) → Option (Fields Json)
  | [] => some fields
  | (scalar (.text key), v) :: rest => do
    let v ← v.content?
    contentEntries? (Fields.insert key v fields) rest
  | _ :: _ => none
end

end Value

/-- The value of what a text holds, null for a text without a document. -/
def Document.value? (d : Document) : Option Value :=
  match d.root with
  | none => some (.scalar .null)
  | some t => do
    let v ← (← d.node? 0 t).value?
    if v.isDistinct then some v else none

end SchemaRules.Yaml
