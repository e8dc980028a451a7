import SchemaRules.Expr.Basic
import SchemaRules.Function.Table
import SchemaRules.Value.Seed

/-!
# Evaluation

The value of an expression in a scope, or its first fault. Operands are evaluated from
left to right and only as far as they are needed. Each of them has a part of the seed to itself.

* `Expr.eval` is the evaluator; it goes down the tree. A map that is written out is built anew.
* A quantifier goes through the items of a list or the keys of a map. `exists` keeps what
  its condition yields, which has to be a truth value only if another item follows.
* A function with a single argument is not looked up before the argument has a value.
-/

namespace SchemaRules

/-- **The variables in scope**, the innermost first. -/
abbrev Scope := List (String × Value)

/-- A variable that is bound inside hides no other one. -/
theorem Scope.lookup_cons_of_ne {x y : String} (h : x ≠ y) (v : Value) (scope : Scope) :
    List.lookup x ((y, v) :: scope) = scope.lookup x := by
  rw [List.lookup_cons, beq_false_of_ne h]

namespace Expr

/-- The items that a quantifier goes through, the keys of a map in the order of its entries. -/
def itemsOf : Value → Except Fault (List Value)
  | .list items => .ok items
  | .map entries => .ok (entries.map fun e => Value.ofKey e.1)
  | v => .error (.breakdown s!"not yet implemented: Support {v.inspect}")

section

variable {α : Type}

/-- Whether a condition is true of all items; the first one of which it is false ends the search. -/
def allOf (p : α → Answer) : List α → Answer
  | [] => .ok (.bool true)
  | v :: rest => do
    if ← (← p v).toBool then allOf p rest else return .bool false

/-- What a condition yields for the first item of which it is not false, `found` being what it
yielded for the item before. -/
def someOf (p : α → Answer) : Value → List α → Answer
  | found, [] => .ok found
  | found, v :: rest => do
    if ← found.toBool then return .bool true else someOf p (← p v) rest

/-- The number of items of which a condition is true. -/
def countOf (p : α → Answer) : List α → Except Fault Nat
  | [] => .ok 0
  | v :: rest => do
    let here ← (← p v).toBool
    let others ← countOf p rest
    return if here then others + 1 else others

/-- What a quantifier says of the items. -/
def quantify (q : Quantifier) (p : α → Answer) (items : List α) : Answer :=
  match q with
  | .all => allOf p items
  | .some => someOf p (.bool false) items
  | .one => do return .bool ((← countOf p items) == 1)

/-- The values of `f` for the items of which `p` is true. -/
def collectOf (p f : α → Answer) : List α → Except Fault (List Value)
  | [] => .ok []
  | v :: rest => do
    if ← (← p v).toBool then
      let w ← f v
      return w :: (← collectOf p f rest)
    else collectOf p f rest

end

/-- An operator on two values. -/
def Binary.onValues : Binary → Value → Value → Answer
  | .less => Value.ordered (· == .lt)
  | .lessEq => Value.ordered (· != .gt)
  | .greater => Value.ordered (· == .gt)
  | .greaterEq => Value.ordered (· != .lt)
  | .equal => fun a b => .ok (.bool (a.equal b))
  | .notEqual => fun a b => .ok (.bool (!a.equal b))
  | .isIn => Value.isIn
  | .add => Value.add
  | .sub => Value.sub
  | .mul => Value.mul
  | .div => Value.div
  | .rem => Value.rem
  | .index => Value.index

/-- The answer to a call whose arguments have been evaluated. -/
def answer (function : String) (target : Except Fault (Option Value)) (args : List Answer) :
    Answer :=
  match args with
  | [.error f] => .error f
  | _ =>
    match Function.ofName? function with
    | none => .error (.undeclared function)
    | some f => do f.apply ⟨← target, args⟩

mutual
/-- **The value of an expression.** -/
def eval (scope : Scope) : Expr → (s : Seed := .standard) → Answer
  | literal v, _ => .ok v
  | name x, _ =>
    match scope.lookup x with
    | some v => .ok v
    | none => .error (.undeclared x)
  | member e field, s => do (← eval scope e s.here).member field
  | has e field, s => do return .bool ((← eval scope e s.here).hasMember field)
  | call target function args, s =>
    answer function (evalTarget scope target s.here) (evalArgs scope args s.next)
  | unary .not e, s => do return .bool (!(← (← eval scope e s.here).toBool))
  | unary .negate e, s => do (← eval scope e s.here).negate
  | or a b, s => do
    if ← (← eval scope a s.here).toBool then return .bool true else eval scope b s.next
  | and a b, s => do
    if ← (← eval scope a s.here).toBool then return .bool (← (← eval scope b s.next).toBool)
    else return .bool false
  | binary op a b, s => do
    let v ← eval scope a s.here
    let w ← eval scope b s.next
    Binary.onValues op v w
  | choice c a b, s => do
    if ← (← eval scope c s.here).toBool then eval scope a s.next else eval scope b s.next
  | list items, s => do return .list (← evalItems scope items s)
  | map entries, s => do return .map (s.arrange (← evalEntries scope entries [] s))
  | message _ _, _ => .error (.breakdown "not yet implemented: Support structs!")
  | quantified q range x p, s => do
    let items ← itemsOf (← eval scope range s.here)
    quantify q (fun v => eval ((x, v.2) :: scope) p v.1) (s.next.spread items)
  | collect range x p f, s => do
    let items ← itemsOf (← eval scope range s.here)
    return .list (← collectOf (fun v => eval ((x, v.2) :: scope) p v.1.here)
      (fun v => eval ((x, v.2) :: scope) f v.1.next) (s.next.spread items))
/-- The value of a receiver that may be left out. -/
def evalTarget (scope : Scope) : Option Expr → Seed → Except Fault (Option Value)
  | none, _ => .ok none
  | some e, s => do return some (← eval scope e s)
/-- The outcomes of arguments, each on its own. -/
def evalArgs (scope : Scope) : List Expr → Seed → List Answer
  | [], _ => []
  | e :: rest, s => eval scope e s.here :: evalArgs scope rest s.next
/-- The values of items; the first fault decides. -/
def evalItems (scope : Scope) : List Expr → Seed → Except Fault (List Value)
  | [], _ => .ok []
  | e :: rest, s => do
    let v ← eval scope e s.here
    return v :: (← evalItems scope rest s.next)
/-- The entries of a map on top of those in `found`; a key twice keeps the last value. -/
def evalEntries (scope : Scope) :
    List (Expr × Expr) → List (Key × Value) → Seed → Except Fault (List (Key × Value))
  | [], found, _ => .ok found
  | (k, e) :: rest, found, s => do
    let key ← eval scope k s.here.here
    match key.toKey? with
    | none => throw (.badKey key)
    | some key =>
      let v ← eval scope e s.here.next
      evalEntries scope rest (Value.insert key v found) s.next
end

theorem eval_literal (scope : Scope) (v : Value) (s : Seed) :
    eval scope (.literal v) s = .ok v := by
  rw [eval]

end Expr

end SchemaRules
