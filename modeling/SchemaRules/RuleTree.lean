import SchemaRules.Compilation.OfRules
import SchemaRules.Evaluation

/-!
# Trees of rules

The compiled rules of a schema tree. A part of the tree without rules is left out; the
names of all properties are kept, so that a property whose part is left out does not count
as an additional one.

* `RuleTree.ofSchema` compiles the rules of every node that carries some.
* `RuleTree.walk` goes through an instance along the tree.
-/

namespace SchemaRules

/-- **The rules of a node and of the nodes below it.** -/
structure RuleTree where
  slots : List (Option CompiledRule)
  declared : List String
  properties : List (String × RuleTree)
  items : Option RuleTree
  values : Option RuleTree
  deriving Inhabited

/-- A compile error with the place of its node in the schema. -/
structure NodeError where
  path : String
  error : CompileError
  deriving DecidableEq

/-- The wording of a compile error with its place. -/
def NodeError.message (e : NodeError) : String :=
  s!"{locationName e.path}: {e.error.message}"

/-- The place of a member. -/
def joinPath (path field : String) : String :=
  if path.isEmpty then field else s!"{path}.{field}"

/-- The place of the item with a number. -/
def itemPath (path : String) (i : Nat) : String :=
  s!"{path}[{i}]"

namespace RuleTree

mutual
/-- Whether neither the node nor one below it has a compiled rule. -/
def isInert : RuleTree → Bool
  | ⟨slots, _, properties, items, values⟩ =>
    slots.all Option.isNone && isInertFields properties && isInertOption items &&
      isInertOption values
/-- Whether none of the properties has a compiled rule. -/
def isInertFields : List (String × RuleTree) → Bool
  | [] => true
  | (_, t) :: rest => t.isInert && isInertFields rest
/-- Whether a part that may be missing has no compiled rule. -/
def isInertOption : Option RuleTree → Bool
  | none => true
  | some t => t.isInert
end

mutual
/-- **The number of compiled rules.** -/
def count : RuleTree → Nat
  | ⟨slots, _, properties, items, values⟩ =>
    (slots.filter Option.isSome).length + countFields properties + countOption items +
      countOption values
/-- The number of compiled rules of properties. -/
def countFields : List (String × RuleTree) → Nat
  | [] => 0
  | (_, t) :: rest => t.count + countFields rest
/-- The number of compiled rules of a part that may be missing. -/
def countOption : Option RuleTree → Nat
  | none => 0
  | some t => t.count
end

/-- A part of the tree, unless it has no compiled rule. -/
def keep (t : RuleTree) : Option RuleTree :=
  if t.isInert then none else some t

/-- A property, unless it has no compiled rule. -/
def keepField (name : String) (t : RuleTree) (rest : List (String × RuleTree)) :
    List (String × RuleTree) :=
  if t.isInert then rest else (name, t) :: rest

/-- The rules of a node itself; a node without a configured key has none. -/
def nodeRules (config : Config) (schema : Schema) (s : Seed) : Compilation :=
  if schema.hasRules config.ruleExtensions then Compilation.ofSchema schema config s else ⟨[], []⟩

/-- The errors of a node with its place. -/
def errorsAt (path : String) (errors : List CompileError) : List NodeError :=
  errors.map fun e => ⟨path, e⟩

mutual
/-- **The tree of a schema at a place**, with its compile errors: first those of the node, then
those of the properties, the items and the values of maps. -/
def ofSchema (config : Config) (path : String) (schema : Schema) (s : Seed) :
    RuleTree × List NodeError :=
  match schema with
  | ⟨_, _, _, properties, items, additional, _, _, _⟩ =>
    let own := nodeRules config schema (s.item 0)
    let (properties', es) := ofProperties config path properties (s.item 1)
    let (items', fs) := ofItems config path items (s.item 2)
    let (values', gs) := ofValues config path additional (s.item 3)
    (⟨own.slots, Fields.names properties, properties', items', values'⟩,
      errorsAt path own.errors ++ es ++ fs ++ gs)
/-- The trees of properties. -/
def ofProperties (config : Config) (path : String) :
    List (String × Schema) → Seed → List (String × RuleTree) × List NodeError
  | [], _ => ([], [])
  | (name, schema) :: rest, s =>
    let (t, es) := ofSchema config (joinPath path name) schema (s.under name)
    let (ts, fs) := ofProperties config path rest s
    (keepField name t ts, es ++ fs)
/-- The tree of items. -/
def ofItems (config : Config) (path : String) :
    Option Schema → Seed → Option RuleTree × List NodeError
  | none, _ => (none, [])
  | some schema, s =>
    let (t, es) := ofSchema config s!"{path}[*]" schema s
    (t.keep, es)
/-- The tree of the values of a map. -/
def ofValues (config : Config) (path : String) :
    Option (Bool ⊕ Schema) → Seed → Option RuleTree × List NodeError
  | some (.inr schema), s =>
    let (t, es) := ofSchema config (joinPath path "*") schema s
    (t.keep, es)
  | _, _ => (none, [])
end

/-- The part of the tree that a member goes on with. -/
def member? (t : RuleTree) (key : String) : Option RuleTree :=
  if t.declared.contains key then Fields.get? key t.properties else t.values

mutual
/-- **What the rules have to say about an instance** at a place. Null is passed over. -/
def walk (t : RuleTree) (path : String) : Json → Seed → List ValidationError
  | .null, _ => []
  | .arr items, s =>
    evaluateAll t.slots path (.arr items) s.here ++
      match t.items with
      | some child => walkItems child path 0 items s.next
      | none => []
  | .obj fields, s =>
    evaluateAll t.slots path (.obj fields) s.here ++ walkFields t path fields s.next
  | v, s => evaluateAll t.slots path v s.here
/-- What the rules of items have to say, from the item with a number on. -/
def walkItems (t : RuleTree) (path : String) : Nat → List Json → Seed → List ValidationError
  | _, [], _ => []
  | i, v :: rest, s => walk t (itemPath path i) v s.here ++ walkItems t path (i + 1) rest s.next
/-- What the rules of members have to say. -/
def walkFields (t : RuleTree) (path : String) : List (String × Json) → Seed → List ValidationError
  | [], _ => []
  | (key, v) :: rest, s =>
    (match t.member? key with
      | some child => walk child (joinPath path key) v (s.under key)
      | none => []) ++ walkFields t path rest s
end

end RuleTree

/-- **The rules of a schema**, compiled once for many instances. -/
structure Validator where
  tree : RuleTree
  errors : List NodeError
  config : Config

namespace Validator

/-- The validator of a schema. -/
def ofSchema (schema : Schema) (config : Config) (s : Seed := .standard) : Validator :=
  let (tree, errors) := RuleTree.ofSchema config "" schema s
  ⟨tree, errors, config⟩

/-- The number of compiled rules. -/
def ruleCount (v : Validator) : Nat := v.tree.count

/-- **The rules that do not hold of an instance.** -/
def validate (v : Validator) (value : Json) (s : Seed := .standard) : List ValidationError :=
  v.tree.walk "" value s

end Validator

/-- The lines of a report. -/
def reportText (errors : List ValidationError) : String :=
  Text.joinWith "\n" (errors.map fun e => "  " ++ e.message)

end SchemaRules
