/-!
# Ranges of characters

A set of characters as a table of ascending ranges that do not overlap.
-/

namespace SchemaRules.Text

/-- Whether `n` lies in one of the ranges between the indices `low` and `high`, by halving in a
number of steps. -/
def inRanges (table : Array (Nat × Nat)) (n : Nat) : Nat → Nat → Nat → Bool
  | 0, _, _ => false
  | steps + 1, low, high =>
    if low < high then
      let middle := (low + high) / 2
      match table[middle]? with
      | none => false
      | some (first, last) =>
        if n < first then inRanges table n steps low middle
        else if last < n then inRanges table n steps (middle + 1) high
        else true
    else false

/-- Whether a number lies in one of the ranges of a table. -/
def isListed (table : Array (Nat × Nat)) (n : Nat) : Bool :=
  inRanges table n table.size 0 table.size

end SchemaRules.Text
