import SchemaRules.Text.Blank
import SchemaRules.Text.Folding
import SchemaRules.Text.Word

/-!
# Patterns

A pattern describes texts, and it fits a text when it describes some part of it.

* `CharSet.accepts` tells which characters a set holds.
* `Pattern.reach` goes from the places where a match may begin to the places where it
  may end. A set of places is a list of marks, one in front of every character and one
  at the end.
* `Pattern.fits`: some match ends somewhere.
-/

namespace SchemaRules

/-- **A set of characters.** A range may take in the characters that differ in case alone. -/
inductive CharSet where
  | range (low high : Char) (anyCase : Bool)
  | digit
  | word
  | blank
  | none
  | union (a b : CharSet)
  | inter (a b : CharSet)
  | compl (a : CharSet)

namespace CharSet

/-- **Whether a set holds a character.** -/
def accepts : CharSet → Char → Bool
  | range low high anyCase, c =>
    let inside (d : Char) : Bool := low ≤ d && d ≤ high
    inside c || (anyCase && (Text.variants c).any inside)
  | digit, c => Text.isDigit c
  | word, c => Text.isWord c
  | blank, c => Text.isBlank c
  | none, _ => false
  | union a b, c => a.accepts c || b.accepts c
  | inter a b, c => a.accepts c && b.accepts c
  | compl a, c => !a.accepts c

/-- The set of one character. -/
def single (c : Char) (anyCase : Bool) : CharSet := range c c anyCase

/-- The set of the characters of a list of ranges. -/
def ofRanges (ranges : List (Char × Char)) (anyCase : Bool) : CharSet :=
  ranges.foldl (fun s r => union s (range r.1 r.2 anyCase)) none

/-- The characters of the first set that are not in the second one. -/
def minus (a b : CharSet) : CharSet := inter a (compl b)

/-- All characters. -/
def all : CharSet := compl none

end CharSet

/-- **A place between two characters.** -/
inductive Edge where
  | textStart
  | textEnd
  | lineStart
  | lineEnd
  | wordBoundary (unicode : Bool)
  | noWordBoundary (unicode : Bool)
  | wordStart
  | wordEnd

/-- Whether a neighbour is a character of a word. -/
def isWordAt (unicode : Bool) (c : Option Char) : Bool :=
  match c with
  | some c => if unicode then Text.isWord c else c.toNat < 0x80 && Text.isWord c
  | none => false

/-- Whether a place with these neighbours is one of the kind. -/
def Edge.test : Edge → Option Char → Option Char → Bool
  | textStart, before, _ => before.isNone
  | textEnd, _, after => after.isNone
  | lineStart, before, _ => before.isNone || before == some '\n'
  | lineEnd, _, after => after.isNone || after == some '\n'
  | wordBoundary u, before, after => isWordAt u before != isWordAt u after
  | noWordBoundary u, before, after => isWordAt u before == isWordAt u after
  | wordStart, before, after => !isWordAt true before && isWordAt true after
  | wordEnd, before, after => isWordAt true before && !isWordAt true after

/-- **A pattern.** -/
inductive Pattern where
  | empty
  | set (s : CharSet)
  | edge (e : Edge)
  | concat (a b : Pattern)
  | either (a b : Pattern)
  | times (p : Pattern) (least : Nat) (most : Option Nat)
  /-- A text that follows, or that comes before, or one that does not. -/
  | look (ahead positive : Bool) (p : Pattern)

namespace Pattern

/-- Marks on the places of a text. -/
abbrev Marks := List Bool

/-- The places that have a mark in one of two lists. -/
def both (a b : Marks) : Marks := List.zipWith (· || ·) a b

/-- The places that have a mark in each of two lists. -/
def common (a b : Marks) : Marks := List.zipWith (· && ·) a b

/-- The places of a kind, `before` being the character in front. -/
def edgeMarks (e : Edge) (before : Option Char) : List Char → Marks
  | [] => [e.test before none]
  | c :: cs => e.test before (some c) :: edgeMarks e (some c) cs

/-- The places one character on, where the character is in the set. -/
def stepMarks (s : CharSet) (text : List Char) (marks : Marks) : Marks :=
  false :: List.zipWith (fun c m => m && s.accepts c) text marks

/-- `f` applied `n` times. -/
def iterate (f : Marks → Marks) : Nat → Marks → Marks
  | 0, marks => marks
  | n + 1, marks => iterate f n (f marks)

/-- The places reached by applying `f` up to `n` times. -/
def spread (f : Marks → Marks) : Nat → Marks → Marks
  | 0, marks => marks
  | n + 1, marks =>
    let more := both marks (f marks)
    if more = marks then marks else spread f n more

/-- The mark of one place of `n + 1`. -/
def only (n i : Nat) : Marks :=
  (List.range (n + 1)).map (· == i)

/-- **The places where a match may end**, from the places where it may begin. -/
def reach (text : List Char) : Pattern → Marks → Marks
  | empty, marks => marks
  | set s, marks => stepMarks s text marks
  | edge e, marks => common marks (edgeMarks e none text)
  | concat a b, marks => reach text b (reach text a marks)
  | either a b, marks => both (reach text a marks) (reach text b marks)
  | times p least most, marks =>
    let more := match most with
      | some most => most - least
      | none => text.length + 1
    spread (reach text p) more (iterate (reach text p) least marks)
  | look ahead positive p, marks =>
    let n := text.length
    let found :=
      if ahead then (List.range (n + 1)).map fun i => (reach text p (only n i)).any id
      else reach text p (List.replicate (n + 1) true)
    common marks (if positive then found else found.map (!·))

/-- **Whether the pattern describes some part of a text.** -/
def fits (p : Pattern) (text : String) : Bool :=
  let cs := text.toList
  (reach cs p (List.replicate (cs.length + 1) true)).any id

end Pattern

end SchemaRules
