import SchemaRules.Document.Basic
import SchemaRules.Fields

/-!
# Files

What the program sees of the files around it: each path has a text, or there is a reason why
it has none.

* `Files.tree` gives the files of a directory by their paths, with `.` and `..` followed.
-/

namespace SchemaRules

/-- **Why a file has no text.** -/
inductive FileFault where
  | missing
  | denied
  | notDirectory
  | isDirectory
  | notText
  | other (reason : String)
  deriving DecidableEq

/-- The wording of a file without text. -/
def FileFault.message : FileFault → String
  | missing => "No such file or directory (os error 2)"
  | denied => "Permission denied (os error 13)"
  | notDirectory => "Not a directory (os error 20)"
  | isDirectory => "Is a directory (os error 21)"
  | notText => "stream did not contain valid UTF-8"
  | other reason => reason

/-- **The text of each path.** -/
abbrev Files := String → Except FileFault String

namespace Files

/-- Where a part of a path leads. -/
inductive Place where
  | directory (parts : List String)
  | file (text : String)

/-- A directory tree by the parts of the paths of its files. -/
abbrev Entries := List (List String × String)

/-- The place with given parts. -/
def placeOf (entries : Entries) (parts : List String) : Except FileFault Place :=
  match entries.lookup parts with
  | some text => .ok (.file text)
  | none =>
    if entries.any fun e => parts.isPrefixOf e.1 then .ok (.directory parts) else .error .missing

/-- The place that a path leads to from a directory. -/
def walk (entries : Entries) : Place → List String → Except FileFault Place
  | place, [] => .ok place
  | .file _, _ :: _ => .error .notDirectory
  | .directory above, part :: rest =>
    if part = "" ∨ part = "." then walk entries (.directory above) rest
    else if part = ".." then
      if above.isEmpty then .error .missing else walk entries (.directory above.dropLast) rest
    else do walk entries (← placeOf entries (above ++ [part])) rest

/-- **The files of a directory tree.** Paths from the root of all files lead nowhere. -/
def tree (files : Fields String) : Files := fun path =>
  if path.isEmpty || path.startsWith "/" then .error .missing
  else do
    let entries := files.map fun f => (pathParts f.1, f.2)
    match ← walk entries (.directory []) (Text.pieces '/' path) with
    | .file text => return text
    | .directory _ => throw .isDirectory

end Files

end SchemaRules
