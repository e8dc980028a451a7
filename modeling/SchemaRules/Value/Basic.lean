import SchemaRules.Time.Instant

/-!
# Values of expressions

What an expression evaluates to. Whole numbers are signed or unsigned, both of 64 bits,
and the two stay apart. The entries of a map stand in an order of its own, which only shows where
something goes through them.

* `Value.insert` puts an entry into a map.
* `Value.kindName` names the kind of a value.
-/

namespace SchemaRules

/-- **The key of a map.** -/
inductive Key where
  | int (n : Int)
  | uint (n : Nat)
  | bool (b : Bool)
  | str (s : String)
  deriving DecidableEq, Inhabited

namespace Key

/-- Signed numbers come first, then unsigned ones, truth values and texts. -/
def rank : Key → Nat
  | int _ => 0
  | uint _ => 1
  | bool _ => 2
  | str _ => 3

/-- Whether a key comes before another one. -/
def before : Key → Key → Bool
  | int a, int b => a < b
  | uint a, uint b => a < b
  | bool a, bool b => !a && b
  | str a, str b => a < b
  | a, b => a.rank < b.rank

end Key

/-- **A value.** -/
inductive Value where
  | null
  | bool (b : Bool)
  | int (n : Int)
  | uint (n : Nat)
  | double (x : Float)
  | str (s : String)
  | bytes (b : List UInt8)
  | list (items : List Value)
  | map (entries : List (Key × Value))
  | duration (d : Time.Span)
  | timestamp (t : Time.Instant)
  deriving Inhabited

namespace Value

/-- The smallest signed number. -/
def intMin : Int := -0x8000_0000_0000_0000

/-- The largest signed number. -/
def intMax : Int := 0x7fff_ffff_ffff_ffff

/-- The largest unsigned number. -/
def uintMax : Nat := 0xffff_ffff_ffff_ffff

/-- A whole number that fits the signed ones. -/
def isInt (n : Int) : Bool :=
  intMin ≤ n && n ≤ intMax

/-- A whole number that fits the unsigned ones. -/
def isUint (n : Int) : Bool :=
  0 ≤ n && n ≤ uintMax

/-- The value under a key. -/
def lookup? (key : Key) : List (Key × Value) → Option Value
  | [] => none
  | (k, v) :: rest => if k = key then some v else lookup? key rest

theorem mem_of_lookup? {key : Key} {entries : List (Key × Value)} {v : Value}
    (h : lookup? key entries = some v) : (key, v) ∈ entries := by
  induction entries with
  | nil => cases h
  | cons e rest ih =>
    rw [lookup?] at h
    split at h
    · next hkey =>
      rw [← hkey, ← Option.some.inj h]
      exact List.mem_cons_self
    · exact List.mem_cons_of_mem _ (ih h)

/-- **Entries with one more entry**, which replaces an entry of its key. -/
def insert (key : Key) (value : Value) : List (Key × Value) → List (Key × Value)
  | [] => [(key, value)]
  | (k, v) :: rest =>
    if key.before k then (key, value) :: (k, v) :: rest
    else if key = k then (key, value) :: rest
    else (k, v) :: insert key value rest

theorem length_insert_le (key : Key) (value : Value) (entries : List (Key × Value)) :
    (insert key value entries).length ≤ entries.length + 1 := by
  induction entries with
  | nil => exact Nat.le_refl _
  | cons e rest ih =>
    obtain ⟨k, v⟩ := e
    rw [insert]
    split
    · exact Nat.le_refl _
    · split
      · exact Nat.le_succ _
      · exact Nat.succ_le_succ ih

/-- The key that a value can be. -/
def toKey? : Value → Option Key
  | int n => some (.int n)
  | uint n => some (.uint n)
  | bool b => some (.bool b)
  | str s => some (.str s)
  | _ => none

/-- A key as a value. -/
def ofKey : Key → Value
  | .int n => int n
  | .uint n => uint n
  | .bool b => bool b
  | .str s => str s

/-- **The name of a kind of value.** -/
def kindName : Value → String
  | null => "null"
  | bool _ => "bool"
  | int _ => "int"
  | uint _ => "uint"
  | double _ => "double"
  | str _ => "string"
  | bytes _ => "bytes"
  | list _ => "list"
  | map _ => "map"
  | duration _ => "value"
  | timestamp _ => "value"

end Value

end SchemaRules
