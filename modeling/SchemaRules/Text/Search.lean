/-!
# Searching and cutting text

Texts are lists of characters here, so every position counts code points.

* `after?` cuts a text off the front of another.
* `find?` and `findLast?` give the first and the last place where a text occurs.
* `cut` splits a text at the leftmost occurrences of a separator that do not
  overlap, `swap` puts another text in their place, and `glue` sets a separator
  between texts.
* `pieces` cuts a text at every occurrence of a character.
-/

namespace SchemaRules.Text

/-- `after? p s` is what follows `p` in `s`, when `s` begins with `p`. -/
def after? : List Char → List Char → Option (List Char)
  | [], s => some s
  | _ :: _, [] => none
  | p :: ps, c :: cs => if p = c then after? ps cs else none

/-- Whether `s` begins with `p`. -/
def beginsWith (p s : List Char) : Bool :=
  (after? p s).isSome

/-- **The first place** at which `sub` occurs. The empty text occurs at once. -/
def find? (sub : List Char) : List Char → Option Nat
  | [] => if beginsWith sub [] then some 0 else none
  | c :: cs => if beginsWith sub (c :: cs) then some 0 else (find? sub cs).map (· + 1)

/-- **The last place** at which `sub` occurs. The empty text occurs at the end. -/
def findLast? (sub : List Char) : List Char → Option Nat
  | [] => if beginsWith sub [] then some 0 else none
  | c :: cs =>
    match findLast? sub cs with
    | some i => some (i + 1)
    | none => if beginsWith sub (c :: cs) then some 0 else none

/-- Puts a character in front of the first piece. -/
def extendHead (c : Char) : List (List Char) → List (List Char)
  | [] => [[c]]
  | p :: ps => (c :: p) :: ps

/-- The pieces of a text between the occurrences of `sep`, the first `skip`
characters being the rest of an occurrence already cut out. -/
def cutFrom (sep : List Char) : Nat → List Char → List (List Char)
  | _, [] => [[]]
  | skip + 1, _ :: cs => cutFrom sep skip cs
  | 0, c :: cs =>
    if beginsWith sep (c :: cs) then [] :: cutFrom sep (sep.length - 1) cs
    else extendHead c (cutFrom sep 0 cs)

/-- **The pieces of a text** between the leftmost occurrences of `sep` that do not
overlap. An empty `sep` cuts between all characters and leaves no empty piece. -/
def cut (sep s : List Char) : List (List Char) :=
  if sep.isEmpty then s.map fun c => [c] else cutFrom sep 0 s

/-- A text with `new` for each occurrence of `old`, the first `skip` characters
being the rest of an occurrence already replaced. -/
def swapFrom (old new : List Char) : Nat → List Char → List Char
  | _, [] => []
  | skip + 1, _ :: cs => swapFrom old new skip cs
  | 0, c :: cs =>
    if beginsWith old (c :: cs) then new ++ swapFrom old new (old.length - 1) cs
    else c :: swapFrom old new 0 cs

/-- **A text with `new` for `old`**, at the leftmost occurrences that do not
overlap. An empty `old` occurs before every character and at the end. -/
def swap (old new s : List Char) : List Char :=
  if old.isEmpty then new ++ s.flatMap (fun c => c :: new) else swapFrom old new 0 s

/-- The texts in order with `sep` between neighbours. -/
def glue (sep : List Char) : List (List Char) → List Char
  | [] => []
  | [s] => s
  | s :: t :: rest => s ++ sep ++ glue sep (t :: rest)

/-- The texts in order with `sep` between neighbours, on strings. -/
def joinWith (sep : String) (parts : List String) : String :=
  String.ofList (glue sep.toList (parts.map String.toList))

/-- The pieces of a text between the occurrences of a character. -/
def pieces (c : Char) (s : String) : List String :=
  (cut [c] s.toList).map String.ofList

end SchemaRules.Text
