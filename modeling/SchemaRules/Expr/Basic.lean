import SchemaRules.Value.Basic

/-!
# Expressions

The tree of an expression. Macros are part of it: a presence test, the quantifiers over
a range, and the collection of a list from a range.

* `Expr.freeNames`: the names that no quantifier or collection around them binds.
-/

namespace SchemaRules

/-- Operators with one operand. -/
inductive Unary where
  | not
  | negate
  deriving DecidableEq

/-- Operators with two operands, both of which they need. -/
inductive Binary where
  | less
  | lessEq
  | greater
  | greaterEq
  | equal
  | notEqual
  | isIn
  | add
  | sub
  | mul
  | div
  | rem
  | index
  deriving DecidableEq

/-- What a quantifier asks of the items of a range. -/
inductive Quantifier where
  | all
  | some
  | one
  deriving DecidableEq

/-- **An expression.** -/
inductive Expr where
  | literal (v : Value)
  | name (x : String)
  | member (e : Expr) (field : String)
  /-- Whether a value has a member. -/
  | has (e : Expr) (field : String)
  | call (target : Option Expr) (function : String) (args : List Expr)
  | unary (op : Unary) (e : Expr)
  | binary (op : Binary) (a b : Expr)
  | or (a b : Expr)
  | and (a b : Expr)
  | choice (condition a b : Expr)
  | list (items : List Expr)
  | map (entries : List (Expr × Expr))
  /-- A message of a named type; nothing can be done with it. -/
  | message (type : String) (fields : List (String × Expr))
  | quantified (q : Quantifier) (range : Expr) (x : String) (p : Expr)
  /-- The list of what `f` is for the items that `p` is true of. -/
  | collect (range : Expr) (x : String) (p f : Expr)
  deriving Inhabited

namespace Expr

mutual
/-- **The free names**, in the order of their places; a name may come twice. -/
def freeNames : Expr → List String
  | literal _ => []
  | name x => [x]
  | member e _ => e.freeNames
  | has e _ => e.freeNames
  | call target _ args => freeNamesOption target ++ freeNamesList args
  | unary _ e => e.freeNames
  | binary _ a b => a.freeNames ++ b.freeNames
  | or a b => a.freeNames ++ b.freeNames
  | and a b => a.freeNames ++ b.freeNames
  | choice c a b => c.freeNames ++ a.freeNames ++ b.freeNames
  | list items => freeNamesList items
  | map entries => freeNamesEntries entries
  | message _ fields => freeNamesFields fields
  | quantified _ range x p => range.freeNames ++ p.freeNames.filter (· ≠ x)
  | collect range x p f =>
    range.freeNames ++ (p.freeNames ++ f.freeNames).filter (· ≠ x)
/-- The free names of an expression that may be left out. -/
def freeNamesOption : Option Expr → List String
  | none => []
  | some e => e.freeNames
/-- The free names of some expressions. -/
def freeNamesList : List Expr → List String
  | [] => []
  | e :: rest => e.freeNames ++ freeNamesList rest
/-- The free names of the keys and values of entries. -/
def freeNamesEntries : List (Expr × Expr) → List String
  | [] => []
  | (k, v) :: rest => k.freeNames ++ v.freeNames ++ freeNamesEntries rest
/-- The free names of the values of fields. -/
def freeNamesFields : List (String × Expr) → List String
  | [] => []
  | (_, v) :: rest => v.freeNames ++ freeNamesFields rest
end

end Expr

end SchemaRules
