import SchemaRules.Yaml.Tree.OfTokens

/-!
# Documents without aliases

A `Document` is what a text holds, with its aliases. A `Node` is a part of it in which every
alias is replaced by the node that it stands for.

* `Document.node?` gives the node of a part. Collections nest at most 128 deep, and at most a
  hundred aliases are followed for each mark of the document, so that the work is bounded even
  where an alias stands within its own anchor.
-/

namespace SchemaRules.Yaml

/-- **A node**: a scalar, a list or a mapping, with a tag perhaps. -/
inductive Node where
  | scalar (tag : Option String) (style : Style) (text : String)
  | seq (tag : Option String) (items : List Node)
  | map (tag : Option String) (entries : List (Node × Node))
  deriving Inhabited

/-- **What a text holds**: a tree, unless it has no document. -/
structure Document where
  root : Option (Tree Nat)

namespace Document

/-- The document of a text, if it is YAML and holds one document at most. -/
def ofText? (text : String) : Option Document := do
  let ts ← Token.ofText? text
  match ← Tree.ofTokens? ts with
  | none => return ⟨none⟩
  | some t => return ⟨some (← t.link? []).1⟩

/-- How deep collections may nest. -/
def depthLimit : Nat := 128

/-- The number of aliases that may be followed. -/
def aliasLimit (d : Document) : Nat :=
  match d.root with
  | some t => t.size * 100
  | none => 0

/-- The node that a part of the document is or stands for. The state counts the aliases that may
still be followed. -/
def follow (d : Document) : Tree Nat → StateT Nat Option (Tree Nat)
  | .aliasOf a => fun left => do
    if left = 0 then none
    return (← d.root.bind (Tree.last? a), left - 1)
  | t => pure t

/-- The node of a part in which collections nest at most `depth` deep. -/
def expand (d : Document) : Nat → Tree Nat → StateT Nat Option Node
  | depth, t => do
    match ← d.follow t with
    | .aliasOf _ => failure
    | .scalar _ tag style text => return .scalar tag style text
    | .seq _ tag items =>
      match depth with
      | 0 => failure
      | depth + 1 => return .seq tag (← items.mapM (expand d depth))
    | .map _ tag entries =>
      match depth with
      | 0 => failure
      | depth + 1 =>
        return .map tag (← entries.mapM fun e => do
          return (← expand d depth e.1, ← expand d depth e.2))

/-- **The node of a part** that lies `above` collections deep. -/
def node? (d : Document) (above : Nat) (t : Tree Nat) : Option Node :=
  ((d.expand (depthLimit - above) t).run d.aliasLimit).map (·.1)

end Document

end SchemaRules.Yaml
