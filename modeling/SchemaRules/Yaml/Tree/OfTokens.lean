import SchemaRules.Yaml.Token.Scan
import SchemaRules.Yaml.Tree.Basic

/-!
# From tokens to a tree

The grammar of YAML over tokens. A node that is left out, as the value behind a key, is an
empty plain scalar.

* `Tree.ofTokens?` reads a text of one document at most. Directives may stand in front of it
  when it begins with a mark, and marks of its end behind it.
-/

namespace SchemaRules.Yaml

/-- A reader takes tokens off a list. -/
abbrev Parser (α : Type) := List Token → Option (α × List Token)

/-- What the handles of tags stand for. -/
abbrev Handles := List (String × String)

namespace Tree

/-- The handles that every document has. -/
def standardHandles : Handles := [("!", "!"), ("!!", "tag:yaml.org,2002:")]

/-- A tag in full. -/
def fullTag? (handles : Handles) (handle suffix : String) : Option String :=
  if handle.isEmpty then some suffix else (handles.lookup handle).map (· ++ suffix)

/-- The anchor that comes next, if one does. -/
def takeAnchor : List Token → Option String × List Token
  | .anchor name :: ts => (some name, ts)
  | ts => (none, ts)

/-- The tag that comes next, if one does. -/
def takeTag (handles : Handles) : Parser (Option String)
  | .tag handle suffix :: ts => do return (some (← fullTag? handles handle suffix), ts)
  | ts => some (none, ts)

/-- An anchor and a tag in any order. -/
def takeProperties (handles : Handles) : Parser (Option String × Option String) := fun ts => do
  match takeAnchor ts with
  | (some anchor, ts) =>
    let (tag, ts) ← takeTag handles ts
    return ((some anchor, tag), ts)
  | (none, ts) =>
    let (tag, ts) ← takeTag handles ts
    if tag.isNone then return ((none, none), ts)
    let (anchor, ts) := takeAnchor ts
    return ((anchor, tag), ts)

/-- Which collections may begin at a place: block collections, and lists of items without an
indentation of their own. -/
structure Place where
  block : Bool
  unindented : Bool

/-- A place in a flow collection. -/
def Place.flow : Place := ⟨false, false⟩

/-- A place of an item or of a document. -/
def Place.item : Place := ⟨true, false⟩

/-- A place beside a key. -/
def Place.member : Place := ⟨true, true⟩

/-- The reader of nodes at a place. -/
abbrev NodeParser := Place → Parser (Tree String)

/-- A node, or the empty one in front of a token that `ends` accepts. -/
def takeUnless (node : NodeParser) (place : Place) (ends : Token → Bool) : Parser (Tree String)
  | t :: ts => if ends t then some (blank, t :: ts) else node place (t :: ts)
  | [] => node place []

/-- The items of a block list; an indented one ends with a token of its own. -/
def takeItems (node : NodeParser) (indented : Bool) : Nat → Parser (List (Tree String))
  | 0, _ => none
  | fuel + 1, .blockEntry :: ts => do
    let ends (t : Token) : Bool :=
      t == .blockEntry || t == .blockEnd || (!indented && (t == .key || t == .value))
    let (item, ts) ← takeUnless node .item ends ts
    let (rest, ts) ← takeItems node indented fuel ts
    return (item :: rest, ts)
  | _ + 1, ts =>
    if !indented then some ([], ts)
    else
      match ts with
      | .blockEnd :: ts => some ([], ts)
      | _ => none

/-- Whether a token ends the node beside a key. -/
def endsMember (t : Token) : Bool :=
  t == .key || t == .value || t == .blockEnd

/-- The value behind a key of a block mapping. -/
def takeMemberValue (node : NodeParser) : Parser (Tree String)
  | .value :: ts => takeUnless node .member endsMember ts
  | ts => some (blank, ts)

/-- The entries of a block mapping. -/
def takeMembers (node : NodeParser) : Nat → Parser (List (Tree String × Tree String))
  | 0, _ => none
  | fuel + 1, .key :: ts => do
    let (k, ts) ← takeUnless node .member endsMember ts
    let (v, ts) ← takeMemberValue node ts
    let (rest, ts) ← takeMembers node fuel ts
    return ((k, v) :: rest, ts)
  | _ + 1, .blockEnd :: ts => some ([], ts)
  | _ + 1, _ => none

/-- The value behind a key in a flow collection that a given token closes. -/
def takeFlowValue (node : NodeParser) (closing : Token) : Parser (Tree String)
  | .value :: ts => takeUnless node .flow (fun t => t == .flowEntry || t == closing) ts
  | ts => some (blank, ts)

/-- The key of a single entry in a flow list. A mark in its place is passed over. -/
def takePairKey (node : NodeParser) : Parser (Tree String)
  | t :: ts =>
    if t == .value || t == .flowEntry || t == .flowSequenceEnd then some (blank, ts)
    else node .flow (t :: ts)
  | [] => none

/-- The comma in front of what is not the first. -/
def takeComma (first : Bool) : List Token → Option (List Token)
  | ts =>
    if first then some ts
    else
      match ts with
      | .flowEntry :: ts => some ts
      | _ => none

/-- **The items of a flow list.** A single entry of a mapping may stand for one. -/
def takeFlowItems (node : NodeParser) : Nat → Bool → Parser (List (Tree String))
  | 0, _, _ => none
  | _ + 1, _, .flowSequenceEnd :: ts => some ([], ts)
  | fuel + 1, first, ts => do
    match ← takeComma first ts with
    | .flowSequenceEnd :: ts => return ([], ts)
    | .key :: ts =>
      let (k, ts) ← takePairKey node ts
      let (v, ts) ← takeFlowValue node .flowSequenceEnd ts
      let (rest, ts) ← takeFlowItems node fuel false ts
      return (.map none none [(k, v)] :: rest, ts)
    | ts =>
      let (item, ts) ← node .flow ts
      let (rest, ts) ← takeFlowItems node fuel false ts
      return (item :: rest, ts)

/-- **The entries of a flow mapping.** A node without a value stands for its key. -/
def takeFlowMembers (node : NodeParser) : Nat → Bool → Parser (List (Tree String × Tree String))
  | 0, _, _ => none
  | _ + 1, _, .flowMappingEnd :: ts => some ([], ts)
  | fuel + 1, first, ts => do
    match ← takeComma first ts with
    | .flowMappingEnd :: ts => return ([], ts)
    | .key :: ts =>
      let ends (t : Token) : Bool := t == .value || t == .flowEntry || t == .flowMappingEnd
      let (k, ts) ← takeUnless node .flow ends ts
      let (v, ts) ← takeFlowValue node .flowMappingEnd ts
      let (rest, ts) ← takeFlowMembers node fuel false ts
      return ((k, v) :: rest, ts)
    | ts =>
      let (k, ts) ← node .flow ts
      let (rest, ts) ← takeFlowMembers node fuel false ts
      return ((k, blank) :: rest, ts)

/-- The content of a node with given properties. -/
def takeContent (node : NodeParser) (place : Place) (anchor tag : Option String) :
    Parser (Tree String) := fun ts =>
  let fuel := ts.length + 1
  match ts with
  | .scalar style text :: ts =>
    some (.scalar anchor (if tag = some "!" then none else tag) style text, ts)
  | .flowSequence :: ts => do
    let (items, ts) ← takeFlowItems node fuel true ts
    return (.seq anchor tag items, ts)
  | .flowMapping :: ts => do
    let (entries, ts) ← takeFlowMembers node fuel true ts
    return (.map anchor tag entries, ts)
  | t :: rest =>
    if t == .blockEntry && place.unindented then do
      let (items, ts) ← takeItems node false fuel ts
      return (.seq anchor tag items, ts)
    else if t == .blockSequence && place.block then do
      let (items, ts) ← takeItems node true fuel rest
      return (.seq anchor tag items, ts)
    else if t == .blockMapping && place.block then do
      let (entries, ts) ← takeMembers node fuel rest
      return (.map anchor tag entries, ts)
    else if anchor.isSome || tag.isSome then some (.scalar anchor tag .plain "", ts)
    else none
  | [] => if anchor.isSome || tag.isSome then some (.scalar anchor tag .plain "", []) else none

/-- **A node at a place**; `depth` bounds how deep nodes nest. -/
def takeNode (handles : Handles) : Nat → NodeParser
  | 0, _, _ => none
  | depth + 1, place, ts =>
    match ts with
    | .aliasOf name :: ts => some (.aliasOf name, ts)
    | ts => do
      let ((anchor, tag), ts) ← takeProperties handles ts
      takeContent (takeNode handles depth) place anchor tag ts

/-- The directives in front of a document: its handles, and whether a version is given. -/
def takeDirectives : Bool → Handles → Parser Handles
  | versioned, handles, .version major minor :: ts =>
    if versioned || major != 1 || (minor != 1 && minor != 2) then none
    else takeDirectives true handles ts
  | versioned, handles, .handle name expansion :: ts =>
    if (handles.lookup name).isSome then none
    else takeDirectives versioned ((name, expansion) :: handles) ts
  | _, handles, ts => some (handles, ts)

/-- The content of a document that begins with a mark. -/
def takeMarked (handles : Handles) : Parser (Tree String)
  | [] => some (blank, [])
  | .documentEnd :: ts => some (blank, .documentEnd :: ts)
  | ts => takeNode handles (ts.length + 1) .item ts

/-- Whether nothing but marks of its end follows a document. -/
def isEnd (ts : List Token) : Bool :=
  ts.all (· == .documentEnd)

/-- **The tree of a text**, or no tree for a text without a document. -/
def ofTokens? (ts : List Token) : Option (Option (Tree String)) :=
  match ts with
  | [] => some none
  | .version _ _ :: _ | .handle _ _ :: _ | .documentStart :: _ => do
    let (handles, ts) ← takeDirectives false [] ts
    match ts with
    | .documentStart :: ts =>
      let (t, ts) ← takeMarked (handles ++ standardHandles) ts
      if isEnd ts then return some t else none
    | _ => none
  | ts => do
    let (t, ts) ← takeNode standardHandles (ts.length + 1) .item ts
    if isEnd ts then return some t else none

end Tree

end SchemaRules.Yaml
