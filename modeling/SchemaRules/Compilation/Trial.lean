import SchemaRules.Compilation.Basic
import SchemaRules.Declaration.Sample

/-!
# Trials

A rule is checked by evaluating it on the sample of its declaration. A fault that comes
from the form of the expression rejects the rule; one that comes from the data does not,
and neither does any truth value.

* `Environment.trials` are the evaluations: a trial that misses a key which the maps of the
  sample do not hold is followed by one on the sample that holds it, up to a number of keys.
* `Environment.verdict` is the outcome of the check, by the last of them.
-/

namespace SchemaRules

/-- The functions whose faults depend on the data. -/
def dataDependent : List String :=
  ["int", "uint", "double", "timestamp", "duration", Environment.engine,
    "charAt", "indexOf", "lastIndexOf", "lowerAscii", "upperAscii", "replace", "split",
    "substring", "trim", "join", "base64Encode", "base64Decode"]

/-- **Whether a fault comes from the form of an expression.** -/
def Fault.isStructural : Fault → Bool
  | undeclared _ => true
  | badOperands _ _ _ => true
  | badOperand _ _ => true
  | argumentCount _ _ => true
  | unexpectedKind _ _ => true
  | notComparable _ _ => true
  | badMapIndex _ => true
  | badListIndex _ => true
  | notIndexable _ _ => true
  | noSuchKey _ => true
  | function name _ => !dataDependent.contains name
  | _ => false

/-- **One evaluation of an expression**, on the sample with some keys in its maps. -/
structure Trial where
  keys : List String
  answer : Answer

namespace Environment

/-- The number of keys that are added to the maps of a sample. -/
def keyLimit : Nat := 16

/-- The trial on the sample with the given keys. -/
def trial (env : Environment) (e : Expr) (keys : List String) (s : Seed) : Trial :=
  ⟨keys, env.execute e (env.root.sample keys) s⟩

/-- The key that a trial misses, if the maps of another sample can hold it. -/
def missed? (env : Environment) (t : Trial) : Option String :=
  match t.answer with
  | .error (.noSuchKey key) =>
    if env.root.containsMap && !t.keys.contains key then some key else none
  | _ => none

/-- **The trials of an expression**, from the sample with the given keys on. A key that is missed is
added for the next trial, `fuel` times at most. Each trial builds its maps anew. -/
def trials (env : Environment) (e : Expr) : Nat → List String → Seed → List Trial
  | 0, keys, s => [env.trial e keys s.here]
  | fuel + 1, keys, s =>
    let t := env.trial e keys s.here
    match env.missed? t with
    | some key => t :: trials env e fuel (key :: keys) s.next
    | none => [t]

theorem trials_ne_nil (env : Environment) (e : Expr) (fuel : Nat) (keys : List String) (s : Seed) :
    env.trials e fuel keys s ≠ [] := by
  cases fuel with
  | zero => simp [trials]
  | succ fuel => simp only [trials]; split <;> simp

/-- The trial after which the check ends. -/
def lastTrial (env : Environment) (e : Expr) (s : Seed) : Trial :=
  (env.trials e keyLimit [] s).getLast (env.trials_ne_nil e keyLimit [] s)

/-- What an answer on a sample says about a rule. -/
def judge : Answer → Except String Unit
  | .ok (.bool _) => .ok ()
  | .ok v => .error s!"rule must evaluate to bool, got {v.kindName}"
  | .error f => if f.isStructural then .error f.message else .ok ()

/-- **The verdict on an expression**: accepted, or a diagnostic. An expression whose last trial
still misses a key is accepted. -/
def verdict (env : Environment) (e : Expr) (s : Seed) : Except String Unit :=
  let t := env.lastTrial e s
  match env.missed? t with
  | some _ => .ok ()
  | none => judge t.answer

end Environment

end SchemaRules
