import SchemaRules.Yaml.Scalar.Block
import SchemaRules.Yaml.Scalar.Plain
import SchemaRules.Yaml.Scalar.Quotation
import SchemaRules.Yaml.Token.Tag

/-!
# From YAML text to tokens

A token is found by the character that it begins with. Two things are not known then: a block
collection begins where a deeper column is reached, and a key is known for one only by the
colon behind it. So a `Scan` keeps the columns of the open block collections, and in each
flow collection the place of the token that may turn out to be a key.

* `Scan.roll` opens a block collection at a column, `Scan.unroll` closes those that are deeper.
* A key ends on the line where it begins, and within 1024 characters.
* `Token.ofText?` gives the tokens of a text, none when it is no YAML.
-/

namespace SchemaRules.Yaml

/-- A token that may turn out to be a key: the number of tokens in front of it, where it begins, and
whether it has to be one. -/
structure PendingKey where
  place : Nat
  start : Cursor
  required : Bool

/-- **How far a text is cut into tokens.** -/
structure Scan where
  cursor : Cursor
  /-- The tokens found, the last one in front. -/
  found : List Token
  /-- The columns of the open block collections, the innermost in front. -/
  columns : List Nat
  /-- The token that may be a key, in the innermost collection. -/
  pending : Option PendingKey
  /-- The same for the collections around the flow collections that are open. -/
  outer : List (Option PendingKey)
  /-- Whether a key may begin at the next token. -/
  keyAllowed : Bool

namespace Scan

/-- Whether a flow collection is open. -/
def inFlow (s : Scan) : Bool := !s.outer.isEmpty

/-- The least column of what stands in the innermost block collection. -/
def floor (s : Scan) : Nat :=
  match s.columns with
  | column :: _ => column + 1
  | [] => 0

/-- One token more. -/
def add (s : Scan) (t : Token) : Scan :=
  { s with found := t :: s.found }

/-- A token put in behind the first `place` tokens. -/
def insert (s : Scan) (place : Nat) (t : Token) : Scan :=
  let n := s.found.length - place
  { s with found := s.found.take n ++ t :: s.found.drop n }

/-- The cursor moved on. -/
def moveTo (s : Scan) (c : Cursor) : Scan :=
  { s with cursor := c }

/-- **Opens a block collection** at a column that lies deeper than the one around it. -/
def roll (s : Scan) (column : Nat) (place : Nat) (t : Token) : Scan :=
  if s.inFlow || column < s.floor then s
  else { s.insert place t with columns := column :: s.columns }

/-- Closes the block collections with a column that `deeper` accepts. -/
def close (deeper : Nat → Bool) (s : Scan) : Scan :=
  let closed := s.columns.takeWhile deeper
  { s with
    found := closed.map (fun _ => .blockEnd) ++ s.found
    columns := s.columns.drop closed.length }

/-- **Closes the block collections** that lie deeper than a column. -/
def unroll (s : Scan) (column : Nat) : Scan :=
  if s.inFlow then s else s.close (column < ·)

/-- Closes all block collections. -/
def unrollAll (s : Scan) : Scan :=
  if s.inFlow then s else s.close fun _ => true

/-- A pending key that is no key after all, which it must not be required to be. -/
def drop? : Option PendingKey → Option (Option PendingKey)
  | some key => if key.required then none else some none
  | none => some none

/-- Gives the pending key up. -/
def dropKey (s : Scan) : Option Scan := do
  return { s with pending := ← drop? s.pending }

/-- A pending key, unless the cursor has left its line or is too far away. -/
def fresh? (c : Cursor) (key : Option PendingKey) : Option (Option PendingKey) :=
  if key.any fun k => k.start.line < c.line || k.start.index + 1024 < c.index then drop? key
  else some key

/-- Gives those pending keys up that cannot be keys any more. -/
def dropStale (s : Scan) : Option Scan := do
  return { s with
    pending := ← fresh? s.cursor s.pending
    outer := ← s.outer.mapM (fresh? s.cursor) }

/-- Remembers that a key may begin here. -/
def saveKey (s : Scan) : Option Scan :=
  if s.keyAllowed then do
    let s ← s.dropKey
    let required := !s.inFlow && s.columns.head? == some s.cursor.column
    return { s with pending := some ⟨s.found.length, s.cursor, required⟩ }
  else some s

/-- **Passes over white and comments.** In front of a key a tab is no white, except in a flow
collection; behind a break a key may begin. -/
def skipWhite : Nat → Scan → Scan
  | 0, s => s
  | fuel + 1, s =>
    let c := s.cursor
    let c := if c.column == 0 && c.begins '\ufeff' then c.step else c
    let c := c.skipWhile fun x => x = ' ' || (x = '\t' && (s.inFlow || !s.keyAllowed))
    let c := if c.begins '#' then c.skipLine else c
    if c.rest.head?.any isBreak then
      skipWhite fuel { s with cursor := c.takeBreak.2, keyAllowed := s.keyAllowed || !s.inFlow }
    else s.moveTo c

/-- The scan at the next token. -/
def settle (s : Scan) : Option Scan := do
  let s := s.skipWhite (s.cursor.rest.length + 1)
  let s ← s.dropStale
  return s.unroll s.cursor.column

/-- The end of a block at a mark that begins in the first column. -/
def endBlocks (s : Scan) : Option Scan := do
  let s ← s.unrollAll.dropKey
  return { s with keyAllowed := false }

/-- The mark of an item. -/
def takeBlockEntry (s : Scan) : Option Scan := do
  if !s.inFlow && !s.keyAllowed then none
  let s := s.roll s.cursor.column s.found.length .blockSequence
  let s ← s.dropKey
  return { (s.add .blockEntry).moveTo s.cursor.step with keyAllowed := true }

/-- The mark of a key. -/
def takeKey (s : Scan) : Option Scan := do
  if !s.inFlow && !s.keyAllowed then none
  let s := s.roll s.cursor.column s.found.length .blockMapping
  let s ← s.dropKey
  return { (s.add .key).moveTo s.cursor.step with keyAllowed := !s.inFlow }

/-- **The mark of a value.** The pending key is one by it. -/
def takeValue (s : Scan) : Option Scan :=
  let behind (s : Scan) : Scan := (s.add .value).moveTo s.cursor.step
  match s.pending with
  | some key =>
    let s := (s.insert key.place .key).roll key.start.column key.place .blockMapping
    some { behind s with pending := none, keyAllowed := false }
  | none =>
    if s.inFlow then some { behind s with keyAllowed := false }
    else if s.keyAllowed then
      some { behind (s.roll s.cursor.column s.found.length .blockMapping) with keyAllowed := true }
    else none

/-- The beginning of a flow collection. -/
def openFlow (s : Scan) (t : Token) : Option Scan := do
  let s ← s.saveKey
  return { (s.add t).moveTo s.cursor.step with
    pending := none, outer := s.pending :: s.outer, keyAllowed := true }

/-- The end of a flow collection. -/
def closeFlow (s : Scan) (t : Token) : Option Scan := do
  let s ← s.dropKey
  let s := { (s.add t).moveTo s.cursor.step with keyAllowed := false }
  match s.outer with
  | key :: outer => return { s with pending := key, outer := outer }
  | [] => return s

/-- The comma of a flow collection. -/
def takeFlowEntry (s : Scan) : Option Scan := do
  let s ← s.dropKey
  return { (s.add .flowEntry).moveTo s.cursor.step with keyAllowed := true }

/-- A token that begins a node and may be a key. -/
def takeNode (s : Scan) (token : Option (Token × Cursor)) : Option Scan := do
  let (t, c) ← token
  let s ← s.saveKey
  return { (s.add t).moveTo c with keyAllowed := false }

/-- A quoted scalar. -/
def takeQuoted (s : Scan) (quote : Char) : Option Scan :=
  s.takeNode do
    let (text, c) ← Quotation.take quote s.cursor
    return (.scalar .quoted (String.ofList text), c)

/-- A plain scalar. A key may begin behind it when its white has a break. -/
def takePlain (s : Scan) : Option Scan := do
  let (text, broken, c) ← Plain.take s.inFlow s.floor s.cursor
  let s ← s.takeNode (some (.scalar .plain (String.ofList text), c))
  return { s with keyAllowed := broken }

/-- A block scalar. -/
def takeBlock (s : Scan) (style : Style) : Option Scan := do
  let s ← s.dropKey
  let (text, c) ← Block.take (style == .literal) s.columns.head? s.cursor
  return { (s.add (.scalar style (String.ofList text))).moveTo c with keyAllowed := true }

/-- Whether a plain scalar may begin here. -/
def plainBegins (s : Scan) (c : Char) : Bool :=
  if isWhite c then false
  else if c = '-' then !s.cursor.second?.any isBlank
  else if c = '?' ∨ c = ':' then !s.inFlow && !endsWord s.cursor.second?
  else !",[]\x7b\x7d#&*!|>'\"%@\x60".toList.contains c

/-- **The next token**, which begins with a given character. -/
def next (s : Scan) (c : Char) : Option Scan :=
  let first := s.cursor.column == 0
  let apart := endsWord s.cursor.second?
  if first && c = '%' then do
    let s ← s.endBlocks
    let (t, c) ← Directive.take s.cursor
    return (s.add t).moveTo c
  else if s.cursor.atMarks '-' then do
    let s ← s.endBlocks
    return (s.add .documentStart).moveTo (s.cursor.skip 3)
  else if s.cursor.atMarks '.' then do
    let s ← s.endBlocks
    return (s.add .documentEnd).moveTo (s.cursor.skip 3)
  else if c = '[' then s.openFlow .flowSequence
  else if c = '\x7b' then s.openFlow .flowMapping
  else if c = ']' then s.closeFlow .flowSequenceEnd
  else if c = '\x7d' then s.closeFlow .flowMappingEnd
  else if c = ',' then s.takeFlowEntry
  else if c = '-' && apart then s.takeBlockEntry
  else if c = '?' && (s.inFlow || apart) then s.takeKey
  else if c = ':' && (s.inFlow || apart) then s.takeValue
  else if c = '*' then s.takeNode do
    let (name, c) ← takeName s.cursor.step
    return (.aliasOf name, c)
  else if c = '&' then s.takeNode do
    let (name, c) ← takeName s.cursor.step
    return (.anchor name, c)
  else if c = '!' then s.takeNode (Tag.take s.inFlow s.cursor)
  else if c = '|' && !s.inFlow then s.takeBlock .literal
  else if c = '>' && !s.inFlow then s.takeBlock .folded
  else if c = '\'' || c = '"' then s.takeQuoted c
  else if s.plainBegins c then s.takePlain
  else none

/-- The tokens at the end of the text. -/
def finish (s : Scan) : Option (List Token) := do
  return (← s.endBlocks).found.reverse

/-- The tokens up to the end of the text. -/
def run : Nat → Scan → Option (List Token)
  | 0, _ => none
  | fuel + 1, s => do
    let s ← s.settle
    match s.cursor.head? with
    | none => s.finish
    | some c => run fuel (← s.next c)

end Scan

/-- **The tokens of a text**, if it is YAML that far. -/
def Token.ofText? (text : String) : Option (List Token) :=
  let cs := text.toList
  if cs.all isAllowed then
    Scan.run (cs.length + 2) ⟨Cursor.ofChars cs, [], [], none, [], true⟩
  else none

end SchemaRules.Yaml
