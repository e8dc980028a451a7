import SchemaRules.Yaml.Token.Basic

/-!
# Trees of nodes

What the tokens of a document build. A node may carry an anchor, and an alias stands for an
anchored node. Anchors are names as they are written; `Tree.link?` makes them numbers.

* An anchor gets the number of different names in front of it, so a name that is given again
  takes a number that the next new name takes too.
* `Tree.last?` is the last node with a number, which the aliases of the number stand for.
* `Tree.size` counts the marks of a document: one for a scalar or an alias, two for a collection.
-/

namespace SchemaRules.Yaml

/-- **A tree of nodes** with anchors of a type. -/
inductive Tree (α : Type) where
  | aliasOf (anchor : α)
  | scalar (anchor : Option α) (tag : Option String) (style : Style) (text : String)
  | seq (anchor : Option α) (tag : Option String) (items : List (Tree α))
  | map (anchor : Option α) (tag : Option String) (entries : List (Tree α × Tree α))
  deriving Inhabited

namespace Tree

variable {α : Type}

/-- The node that is not written. -/
def blank : Tree α := .scalar none none .plain ""

mutual
/-- The number of marks that write a tree. -/
def size : Tree α → Nat
  | aliasOf _ => 1
  | scalar _ _ _ _ => 1
  | seq _ _ items => sizeItems items + 2
  | map _ _ entries => sizeEntries entries + 2
/-- The number of marks that write some trees. -/
def sizeItems : List (Tree α) → Nat
  | [] => 0
  | t :: rest => t.size + sizeItems rest
/-- The number of marks that write some entries. -/
def sizeEntries : List (Tree α × Tree α) → Nat
  | [] => 0
  | (k, v) :: rest => k.size + v.size + sizeEntries rest
end

mutual
/-- **The last node with an anchor**, in the order of the document. -/
def last? [DecidableEq α] (a : α) : Tree α → Option (Tree α)
  | aliasOf _ => none
  | scalar anchor tag style text =>
    if anchor = some a then some (scalar anchor tag style text) else none
  | seq anchor tag items =>
    (lastInList? a items).or (if anchor = some a then some (seq anchor tag items) else none)
  | map anchor tag entries =>
    (lastInMap? a entries).or (if anchor = some a then some (map anchor tag entries) else none)
/-- The last node with an anchor among items. -/
def lastInList? [DecidableEq α] (a : α) : List (Tree α) → Option (Tree α)
  | [] => none
  | t :: rest => (lastInList? a rest).or (t.last? a)
/-- The last node with an anchor among entries. -/
def lastInMap? [DecidableEq α] (a : α) : List (Tree α × Tree α) → Option (Tree α)
  | [] => none
  | (k, v) :: rest => ((lastInMap? a rest).or (v.last? a)).or (k.last? a)
end

/-- The numbers of the names given so far. -/
abbrev Anchors := List (String × Nat)

/-- The names with one more, and its number. -/
def Anchors.give (names : Anchors) : Option String → Anchors × Option Nat
  | none => (names, none)
  | some name => ((name, names.length) :: names.filter (·.1 != name), some names.length)

mutual
/-- **A tree whose anchors are numbers**; none when an alias comes in front of its anchor. -/
def link? (names : Anchors) : Tree String → Option (Tree Nat × Anchors)
  | aliasOf name => (names.lookup name).map fun n => (aliasOf n, names)
  | scalar anchor tag style text =>
    let (names, a) := names.give anchor
    some (scalar a tag style text, names)
  | seq anchor tag items => do
    let (names, a) := names.give anchor
    let (items, names) ← linkItems? names items
    return (seq a tag items, names)
  | map anchor tag entries => do
    let (names, a) := names.give anchor
    let (entries, names) ← linkEntries? names entries
    return (map a tag entries, names)
/-- Items whose anchors are numbers. -/
def linkItems? (names : Anchors) : List (Tree String) → Option (List (Tree Nat) × Anchors)
  | [] => some ([], names)
  | t :: rest => do
    let (t, names) ← t.link? names
    let (rest, names) ← linkItems? names rest
    return (t :: rest, names)
/-- Entries whose anchors are numbers. -/
def linkEntries? (names : Anchors) :
    List (Tree String × Tree String) → Option (List (Tree Nat × Tree Nat) × Anchors)
  | [] => some ([], names)
  | (k, v) :: rest => do
    let (k, names) ← k.link? names
    let (v, names) ← v.link? names
    let (rest, names) ← linkEntries? names rest
    return ((k, v) :: rest, names)
end

end Tree

end SchemaRules.Yaml
