import SchemaRules.Yaml.Cursor

/-!
# Plain scalars

A scalar without quotes goes on over blanks and breaks, as long as its lines are indented,
up to a comment, a colon with white behind it, or a mark of the flow collection around it.
-/

namespace SchemaRules.Yaml.Plain

/-- The characters up to white or to what ends a plain scalar. A colon in front of a mark of a flow
collection is refused. -/
def takeInk (flow : Bool) : List Char → Option (List Char)
  | [] => some []
  | c :: rest =>
    if isWhite c then some []
    else if c = ':' ∧ flow ∧ rest.head?.any (fun x => isFlowMark x || x = '?') then none
    else if c = ':' ∧ endsWord rest.head? then some []
    else if flow ∧ isFlowMark c then some []
    else (c :: ·) <$> takeInk flow rest

/-- Whether a tab stands in the indentation of a line; `column` is the place in a line behind a
break. -/
def tabIndents (indent : Nat) : Option Nat → List Char → Bool
  | _, [] => false
  | column, c :: rest =>
    if isBreak c then tabIndents indent (some 0) rest
    else
      match column with
      | none => tabIndents indent none rest
      | some k => (c == '\t' && k < indent) || tabIndents indent (some (k + 1)) rest

/-- **A plain scalar**: its text, whether its last white has a break, and the cursor behind it. -/
def takeFrom (flow : Bool) (indent : Nat) :
    Nat → List Char → Cursor → Option (List Char × Bool × Cursor)
  | 0, _, _ => none
  | fuel + 1, white, c =>
    if c.atDocumentMark || c.begins '#' then some ([], white.any isBreak, c)
    else do
      let ink ← takeInk flow c.rest
      if ink.isEmpty then return ([], white.any isBreak, c)
      let text := fold white ++ ink
      let c := c.skip ink.length
      let next := c.rest.takeWhile isWhite
      if next.isEmpty then return (text, false, c)
      if tabIndents indent none next then none
      let c := c.skip next.length
      if !flow && c.column < indent then return (text, next.any isBreak, c)
      let (more, broken, c) ← takeFrom flow indent fuel next c
      return (text ++ more, broken, c)

/-- The plain scalar that begins here, at columns from `indent` on. -/
def take (flow : Bool) (indent : Nat) (c : Cursor) : Option (List Char × Bool × Cursor) :=
  takeFrom flow indent (c.rest.length + 1) [] c

end SchemaRules.Yaml.Plain
