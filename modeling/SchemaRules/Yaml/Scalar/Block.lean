import SchemaRules.Decimal.Reader
import SchemaRules.Yaml.Cursor

/-!
# Block scalars

A literal scalar keeps its lines, a folded one joins those that do not begin with a blank.
The first line that is not empty sets the indentation, unless a digit does. The breaks at the
end are kept, reduced to one, or left out.
-/

namespace SchemaRules.Yaml.Block

/-- What becomes of the breaks at the end. -/
inductive Chomping where
  | strip
  | clip
  | keep
  deriving DecidableEq

/-- The sign that comes next. -/
def takeChomping (c : Cursor) : Option Chomping × Cursor :=
  match c.head? with
  | some '+' => (some .keep, c.step)
  | some '-' => (some .strip, c.step)
  | _ => (none, c)

/-- The digit that comes next, which must not be zero. -/
def takeIndentation (c : Cursor) : Option (Option Nat × Cursor) :=
  match c.head?.bind Decimal.digitValue? with
  | some 0 => none
  | some n => some (if n < 10 then (some n, c.step) else (none, c))
  | none => some (none, c)

/-- A sign and a digit in any order. -/
def takeHeader (c : Cursor) : Option (Chomping × Option Nat × Cursor) := do
  match takeChomping c with
  | (some chomping, c) =>
    let (digit, c) ← takeIndentation c
    return (chomping, digit, c)
  | (none, c) =>
    let (digit, c) ← takeIndentation c
    if digit.isNone then return (.clip, digit, c)
    let (chomping, c) := takeChomping c
    return (chomping.getD .clip, digit, c)

/-- The cursor behind the rest of the header's line, in which only a comment may stand. -/
def endHeader (c : Cursor) : Option Cursor :=
  let c := c.skipWhile isBlank
  let c := if c.begins '#' then c.skipLine else c
  if c.rest.head?.all isBreak then some c.takeBreak.2 else none

/-- Whether a column lies in the indentation, which is not known at first. -/
def inside (indent : Option Nat) (column : Nat) : Bool :=
  indent.all (column < ·)

/-- The indentation and the empty lines that come next: the breaks of these, the farthest column
reached, and the cursor behind them. -/
def takeEmpty (indent : Option Nat) : Nat → Cursor → Option (List Char × Nat × Cursor)
  | 0, _ => none
  | fuel + 1, c => do
    let spaces := (c.rest.takeWhile (· = ' ')).length
    let c := c.skip (match indent with
      | none => spaces
      | some n => min spaces (n - c.column))
    if inside indent c.column && c.begins '\t' then none
    if !c.rest.head?.any isBreak then return ([], c.column, c)
    let (br, next) := c.takeBreak
    let (breaks, farthest, next) ← takeEmpty indent fuel next
    return (br ++ breaks, max c.column farthest, next)

/-- What a folded or literal scalar has between two lines. -/
def joint (literal : Bool) (br breaks : List Char) (indented : Bool) : List Char :=
  if !literal && br.head? = some '\n' && !indented then
    (if breaks.isEmpty then [' '] else breaks)
  else br ++ breaks

/-- The lines from here on: their text, the last break, the breaks behind it, and the cursor. The
break and the breaks in front are given, and whether the line in front begins with a blank. -/
def takeLines (literal : Bool) (indent : Nat) :
    Nat → List Char → List Char → Bool → Cursor →
      Option (List Char × List Char × List Char × Cursor)
  | 0, _, _, _, _ => none
  | fuel + 1, br, breaks, indented, c =>
    if c.column != indent || c.rest.isEmpty then some ([], br, breaks, c)
    else do
      let blank := c.rest.head?.any isBlank
      let line := c.rest.takeWhile (!isBreak ·)
      let (next, c') := (c.skip line.length).takeBreak
      let (empty, _, c') ← takeEmpty (some indent) (c'.rest.length + 1) c'
      let (more, last, tail, c') ← takeLines literal indent fuel next empty blank c'
      return (joint literal br breaks (indented || blank) ++ line ++ more, last, tail, c')

/-- The breaks that are left at the end. -/
def chomp (chomping : Chomping) (br breaks : List Char) : List Char :=
  match chomping with
  | .strip => []
  | .clip => br
  | .keep => br ++ breaks

/-- **The block scalar that begins here** with its mark. `parent` is the column of the collection
around it. -/
def take (literal : Bool) (parent : Option Nat) (c : Cursor) : Option (List Char × Cursor) := do
  let (chomping, digit, c) ← takeHeader c.step
  let c ← endHeader c
  let given := digit.map (parent.getD 0 + ·)
  let (breaks, farthest, c) ← takeEmpty given (c.rest.length + 1) c
  let least := match parent with
    | some column => column + 1
    | none => 1
  let indent := given.getD (max farthest least)
  let (text, br, breaks, c) ← takeLines literal indent (c.rest.length + 1) [] breaks false c
  return (text ++ chomp chomping br breaks, c)

end SchemaRules.Yaml.Block
