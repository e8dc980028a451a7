import SchemaRules.Pattern.Basic
import SchemaRules.Decimal.Reader
import SchemaRules.Text.Search

/-!
# Reading patterns

Two dialects of one language. In an expression, classes such as `\d` take in all of
Unicode and nothing may look around. In a schema document they are those of ASCII; there
a pattern may look ahead and behind, and one that does is otherwise read as in an
expression.

* `Pattern.ofText?` reads a pattern; none when the text is not one.
-/

namespace SchemaRules.Pattern

/-- How a pattern is to be read. -/
inductive Dialect where
  | expression
  | document
  deriving DecidableEq

/-- What the flags of a pattern say at a place. -/
structure Flags where
  anyCase : Bool
  lines : Bool
  dotAll : Bool
  spaced : Bool
  unicode : Bool
  document : Bool
  looks : Bool

/-- The flags of an expression. -/
def Flags.ofExpression : Flags := ⟨false, false, false, false, true, false, false⟩

/-- The flags of a schema document. -/
def Flags.ofDocument : Flags :=
  { Flags.ofExpression with unicode := false, document := true }

/-- The flags of a schema document for a pattern that looks around. -/
def Flags.ofLooks : Flags :=
  { Flags.ofExpression with looks := true }

/-! ## Sets of characters -/

/-- The decimal digits of ASCII. -/
def asciiDigits : CharSet := .range '0' '9' false

/-- The characters of words of ASCII. -/
def asciiWord : CharSet := .ofRanges [('0', '9'), ('A', 'Z'), ('_', '_'), ('a', 'z')] false

/-- The blanks of ASCII. -/
def asciiBlank : CharSet := .ofRanges [('\t', '\r'), (' ', ' ')] false

/-- The blanks of a schema document: all blanks but one, and the byte order mark. -/
def documentBlank : CharSet :=
  .minus (.union .blank (.range '\ufeff' '\ufeff' false)) (.range '\x85' '\x85' false)

/-- The set that a letter behind a backslash names. -/
def namedSet? (flags : Flags) (c : Char) : Option CharSet :=
  let digits := if flags.unicode then .digit else asciiDigits
  let words := if flags.unicode then .word else asciiWord
  let blanks :=
    if flags.unicode then .blank else if flags.document then documentBlank else asciiBlank
  match c with
  | 'd' => some digits
  | 'D' => some (.compl digits)
  | 'w' => some words
  | 'W' => some (.compl words)
  | 's' => some blanks
  | 'S' => some (.compl blanks)
  | _ => none

/-- The sets that have a name between colons. -/
def classes : List (String × List (Char × Char)) :=
  [("alnum", [('0', '9'), ('A', 'Z'), ('a', 'z')]), ("alpha", [('A', 'Z'), ('a', 'z')]),
    ("ascii", [('\x00', '\x7f')]), ("blank", [('\t', '\t'), (' ', ' ')]),
    ("cntrl", [('\x00', '\x1f'), ('\x7f', '\x7f')]), ("digit", [('0', '9')]),
    ("graph", [('!', '~')]), ("lower", [('a', 'z')]), ("print", [(' ', '~')]),
    ("punct", [('!', '/'), (':', '@'), ('[', '\x60'), ('\x7b', '~')]),
    ("space", [('\t', '\r'), (' ', ' ')]), ("upper", [('A', 'Z')]),
    ("word", [('0', '9'), ('A', 'Z'), ('_', '_'), ('a', 'z')]),
    ("xdigit", [('0', '9'), ('A', 'F'), ('a', 'f')])]

/-- A set named between colons, behind its opening bracket. -/
def takeClass (flags : Flags) : List Char → Option (CharSet × List Char)
  | ':' :: cs =>
    let (negated, cs) :=
      match cs with
      | '^' :: rest => (true, rest)
      | _ => (false, cs)
    let name := String.ofList (cs.takeWhile Char.isAlpha)
    match cs.dropWhile Char.isAlpha with
    | ':' :: ']' :: rest =>
      (classes.lookup name).map fun ranges =>
        let s := CharSet.ofRanges ranges flags.anyCase
        (if negated then .compl s else s, rest)
    | _ => none
  | _ => none

/-! ## Escapes -/

/-- What an escape stands for. -/
inductive Escaped where
  | char (c : Char)
  | set (s : CharSet)
  | edge (e : Edge)

/-- A digit of radix 16. -/
def isHex (c : Char) : Bool :=
  ((Decimal.digitValue? c).filter (· < 16)).isSome

/-- The character of a code point, if there is one. -/
def charOf? (digits : List Char) : Option Char := do
  let n ← Decimal.readNat? 16 digits
  if n.isValidChar then some (Char.ofNat n) else none

/-- A code point of `n` digits, or of any number of digits between braces. -/
def takeCode (n : Nat) : List Char → Option (Char × List Char)
  | '\x7b' :: cs =>
    match cs.dropWhile isHex with
    | '\x7d' :: rest => (charOf? (cs.takeWhile isHex)).map fun c => (c, rest)
    | _ => none
  | cs =>
    let digits := cs.take n
    if digits.length = n ∧ digits.all isHex then
      (charOf? digits).map fun c => (c, cs.drop n)
    else none

/-- The control characters with a letter of their own. -/
def controlOf? : Char → Option Char
  | 'a' => some '\x07'
  | 'f' => some '\x0c'
  | 't' => some '\t'
  | 'n' => some '\n'
  | 'r' => some '\r'
  | 'v' => some '\x0b'
  | _ => none

/-- What follows a backslash. -/
def takeEscape (flags : Flags) : List Char → Option (Escaped × List Char)
  | [] => none
  | c :: cs =>
    match namedSet? flags c, controlOf? c with
    | some s, _ => some (.set s, cs)
    | _, some d => some (.char d, cs)
    | _, _ =>
      match c with
      | 'x' => (takeCode 2 cs).map fun (d, rest) => (.char d, rest)
      | 'u' => (takeCode 4 cs).map fun (d, rest) => (.char d, rest)
      | 'U' => (takeCode 8 cs).map fun (d, rest) => (.char d, rest)
      | 'A' => some (.edge .textStart, cs)
      | 'z' => some (.edge .textEnd, cs)
      | 'b' =>
        match Text.after? "\x7bstart\x7d".toList cs, Text.after? "\x7bend\x7d".toList cs with
        | some rest, _ => some (.edge .wordStart, rest)
        | _, some rest => some (.edge .wordEnd, rest)
        | _, _ => some (.edge (.wordBoundary (flags.unicode || flags.document)), cs)
      | 'B' => some (.edge (.noWordBoundary (flags.unicode || flags.document)), cs)
      | '<' => some (.edge .wordStart, cs)
      | '>' => some (.edge .wordEnd, cs)
      | 'c' =>
        match cs with
        | d :: rest =>
          if flags.document && d.isAlpha then some (.char (Char.ofNat (d.toNat % 32)), rest)
          else none
        | [] => none
      | _ => if c.toNat < 0x80 && !c.isAlphanum then some (.char c, cs) else none

/-! ## Sets in brackets -/

/-- An item of a set: a character or a set. -/
def takeItem (flags : Flags) : List Char → Option ((Char ⊕ CharSet) × List Char)
  | [] => none
  | '\\' :: cs =>
    match takeEscape flags cs with
    | some (.char c, rest) => some (.inl c, rest)
    | some (.set s, rest) => some (.inr s, rest)
    | _ => none
  | c :: cs => some (.inl c, cs)

/-- An item or a range of a set. -/
def takeRange (flags : Flags) (cs : List Char) : Option (CharSet × List Char) := do
  let (first, rest) ← takeItem flags cs
  let alone : CharSet :=
    match first with
    | .inl c => .single c flags.anyCase
    | .inr s => s
  match rest with
  | [] => none
  | ['-'] => none
  | '-' :: ']' :: _ => some (alone, rest)
  | '-' :: '-' :: _ => some (alone, rest)
  | '-' :: more =>
    match first, takeItem flags more with
    | .inl low, some (.inl high, rest) =>
      if low ≤ high then some (.range low high flags.anyCase, rest) else none
    | _, _ => none
  | _ => some (alone, rest)

/-- How two sets between the same brackets are joined. -/
def takeJoint : List Char → Option ((CharSet → CharSet → CharSet) × List Char)
  | '&' :: '&' :: rest => some (.inter, rest)
  | '-' :: '-' :: rest => some (.minus, rest)
  | '~' :: '~' :: rest => some (fun a b => .union (.minus a b) (.minus b a), rest)
  | _ => none

mutual
/-- A set, behind its opening bracket; `fuel` bounds the steps. -/
def takeSet (flags : Flags) : Nat → List Char → Option (CharSet × List Char)
  | 0, _ => none
  | fuel + 1, cs => do
    let (negated, cs) :=
      match cs with
      | '^' :: rest => (true, rest)
      | _ => (false, cs)
    let dashes := cs.takeWhile (· = '-')
    let cs := cs.dropWhile (· = '-')
    let start : CharSet := if dashes.isEmpty then .none else .single '-' flags.anyCase
    let (start, cs) :=
      match cs with
      | ']' :: rest =>
        if dashes.isEmpty then (.single ']' flags.anyCase, rest) else (start, cs)
      | _ => (start, cs)
    let (s, rest) ← takeItems flags fuel start cs
    let (s, rest) ← takeJoined flags fuel s rest
    return (if negated then .compl s else s, rest)
/-- The items up to a joint or the closing bracket, together with those in `acc`. -/
def takeItems (flags : Flags) : Nat → CharSet → List Char → Option (CharSet × List Char)
  | 0, _, _ => none
  | fuel + 1, acc, cs =>
    match cs with
    | [] => none
    | ']' :: _ => some (acc, cs)
    | '[' :: rest =>
      match takeClass flags rest with
      | some (s, rest) => takeItems flags fuel (.union acc s) rest
      | none => do
        let (s, rest) ← takeSet flags fuel rest
        takeItems flags fuel (.union acc s) rest
    | _ =>
      if (takeJoint cs).isSome then some (acc, cs)
      else do
        let (s, rest) ← takeRange flags cs
        takeItems flags fuel (.union acc s) rest
/-- The sets joined to `left` up to the closing bracket. -/
def takeJoined (flags : Flags) : Nat → CharSet → List Char → Option (CharSet × List Char)
  | 0, _, _ => none
  | fuel + 1, left, cs =>
    match takeJoint cs with
    | some (join, rest) => do
      let (right, rest) ← takeItems flags fuel .none rest
      takeJoined flags fuel (join left right) rest
    | none =>
      match cs with
      | ']' :: rest => some (left, rest)
      | _ => none
end

/-! ## Repetition -/

/-- Takes blanks and comments where they do not count. -/
def skipSpace (flags : Flags) : Nat → List Char → List Char
  | 0, cs => cs
  | fuel + 1, cs =>
    if !flags.spaced then cs
    else
      match cs with
      | '#' :: rest => skipSpace flags fuel (rest.dropWhile (· ≠ '\n'))
      | c :: rest => if Text.isBlank c then skipSpace flags fuel rest else cs
      | [] => []

/-- A number between blanks. -/
def takeCount (cs : List Char) : Option (Nat × List Char) :=
  let cs := cs.dropWhile Text.isBlank
  let digits := cs.takeWhile Decimal.isDigit
  let n := Decimal.digitsValue digits
  if digits.isEmpty ∨ n > 0xffff_ffff then none
  else some (n, (cs.dropWhile Decimal.isDigit).dropWhile Text.isBlank)

/-- The bounds of a counted repetition, behind the opening brace. -/
def takeBounds (cs : List Char) : Option ((Nat × Option Nat) × List Char) := do
  let (least, rest) ← takeCount cs
  match rest with
  | '\x7d' :: rest => some ((least, some least), rest)
  | ',' :: '\x7d' :: rest => some ((least, none), rest)
  | ',' :: rest =>
    let (most, rest) ← takeCount rest
    match rest with
    | '\x7d' :: rest => if least ≤ most then some ((least, some most), rest) else none
    | _ => none
  | _ => none

/-- The bounds of a repetition of any form; no bounds where none comes. -/
def takeRepeat (cs : List Char) : Option (Option ((Nat × Option Nat) × List Char)) :=
  let lazy (rest : List Char) : List Char :=
    match rest with
    | '?' :: rest => rest
    | _ => rest
  match cs with
  | '*' :: rest => some (some ((0, none), lazy rest))
  | '+' :: rest => some (some ((1, none), lazy rest))
  | '?' :: rest => some (some ((0, some 1), lazy rest))
  | '\x7b' :: rest => (takeBounds rest).map fun (bounds, rest) => some (bounds, lazy rest)
  | _ => some none

/-- A pattern with the repetitions behind it. -/
def takeRepeats (flags : Flags) : Nat → Pattern → List Char → Option (Pattern × List Char)
  | 0, _, _ => none
  | fuel + 1, p, cs => do
    match ← takeRepeat (skipSpace flags cs.length cs) with
    | some ((least, most), rest) => takeRepeats flags fuel (.times p least most) rest
    | none => some (p, cs)

/-! ## Groups -/

/-- One flag set or cleared; none when there is no such flag. -/
def Flags.put (flags : Flags) (c : Char) (on : Bool) : Option Flags :=
  match c with
  | 'i' => some { flags with anyCase := on }
  | 'm' => some { flags with lines := on }
  | 's' => some { flags with dotAll := on }
  | 'x' => some { flags with spaced := on }
  | 'u' => some { flags with unicode := on }
  | 'U' => some flags
  | 'R' => some flags
  | _ => none

/-- The flags up to a colon or a bracket, which stays; none twice, and one behind a minus. -/
def takeFlags : Flags → List Char → Bool → List Char → Option (Flags × List Char)
  | flags, _, _, ')' :: rest => some (flags, ')' :: rest)
  | flags, _, _, ':' :: rest => some (flags, ':' :: rest)
  | flags, seen, on, c :: rest =>
    if c = '-' then
      if on ∧ rest.head? ≠ some ')' ∧ rest.head? ≠ some ':' then takeFlags flags seen false rest
      else none
    else if seen.contains c then none
    else do takeFlags (← flags.put c on) (c :: seen) on rest
  | _, _, _, [] => none

/-- A character of the name of a group. -/
def isGroupName (first : Bool) (c : Char) : Bool :=
  c = '_' || (if first then c.isAlpha || (c.toNat ≥ 0x80 && Text.isWord c)
    else Text.isWord c || c = '.' || c = '[' || c = ']')

/-- The name of a group with the mark behind it. -/
def takeGroupName (cs : List Char) : Option (List Char) :=
  match cs.takeWhile (· ≠ '>'), cs.dropWhile (· ≠ '>') with
  | c :: name, _ :: rest =>
    if isGroupName true c && name.all (isGroupName false) then some rest else none
  | _, _ => none

/-- What kind of group opens behind a bracket. -/
inductive Opening where
  | group (flags : Flags) (rest : List Char)
  | look (ahead positive : Bool) (rest : List Char)
  | flags (flags : Flags) (rest : List Char)

/-- The opening of a group, behind its bracket. -/
def takeOpening (flags : Flags) : List Char → Option Opening
  | '?' :: '=' :: cs => if flags.looks then some (.look true true cs) else none
  | '?' :: '!' :: cs => if flags.looks then some (.look true false cs) else none
  | '?' :: '<' :: '=' :: cs => if flags.looks then some (.look false true cs) else none
  | '?' :: '<' :: '!' :: cs => if flags.looks then some (.look false false cs) else none
  | '?' :: 'P' :: '<' :: cs => (takeGroupName cs).map (.group flags)
  | '?' :: '<' :: cs => (takeGroupName cs).map (.group flags)
  | '?' :: ')' :: _ => none
  | '?' :: cs =>
    match takeFlags flags [] true cs with
    | some (inner, ':' :: rest) => some (.group inner rest)
    | some (inner, _ :: rest) => some (.flags inner rest)
    | _ => none
  | cs => some (.group flags cs)

/-- A pattern of one character. -/
def takeAtom (flags : Flags) : List Char → Option (Pattern × List Char)
  | [] => none
  | '.' :: rest =>
    some (.set (if flags.dotAll then .all else .compl (.single '\n' false)), rest)
  | '^' :: rest => some (.edge (if flags.lines then .lineStart else .textStart), rest)
  | '$' :: rest => some (.edge (if flags.lines then .lineEnd else .textEnd), rest)
  | '\\' :: rest =>
    match takeEscape flags rest with
    | some (.char c, rest) => some (.set (.single c flags.anyCase), rest)
    | some (.set s, rest) => some (.set s, rest)
    | some (.edge e, rest) => some (.edge e, rest)
    | none => none
  | '[' :: rest =>
    (takeSet flags (2 * rest.length + 2) rest).map fun (s, rest) => (.set s, rest)
  | c :: rest =>
    if ['*', '+', '?', '\x7b'].contains c then none
    else some (.set (.single c flags.anyCase), rest)

mutual
/-- The alternatives up to a closing bracket or the end; `fuel` bounds the steps. -/
def takeAlternatives : Nat → Flags → List Char → Option (Pattern × List Char)
  | 0, _, _ => none
  | fuel + 1, flags, cs => do
    let (p, flags, rest) ← takeSequence fuel flags .empty cs
    match rest with
    | '|' :: rest =>
      let (q, rest) ← takeAlternatives fuel flags rest
      some (.either p q, rest)
    | _ => some (p, rest)
/-- What follows `acc` up to a bar, a closing bracket or the end, with the flags there. -/
def takeSequence : Nat → Flags → Pattern → List Char → Option (Pattern × Flags × List Char)
  | 0, _, _, _ => none
  | fuel + 1, flags, acc, cs =>
    match skipSpace flags cs.length cs with
    | [] => some (acc, flags, [])
    | ')' :: rest => some (acc, flags, ')' :: rest)
    | '|' :: rest => some (acc, flags, '|' :: rest)
    | '(' :: rest => do
      match ← takeOpening flags rest with
      | .flags inner rest =>
        if [some '*', some '+', some '?', some '\x7b'].contains rest.head? then none
        else takeSequence fuel inner acc rest
      | .group inner rest =>
        let (p, rest) ← takeAlternatives fuel inner rest
        takeClosed fuel flags acc p rest
      | .look ahead positive rest =>
        let (p, rest) ← takeAlternatives fuel flags rest
        takeClosed fuel flags acc (.look ahead positive p) rest
    | cs => do
      let (p, rest) ← takeAtom flags cs
      let (p, rest) ← takeRepeats flags (rest.length + 1) p rest
      takeSequence fuel flags (.concat acc p) rest
/-- The closing bracket of a group and what follows it. -/
def takeClosed :
    Nat → Flags → Pattern → Pattern → List Char → Option (Pattern × Flags × List Char)
  | fuel + 1, flags, acc, p, ')' :: rest => do
    let (p, rest) ← takeRepeats flags (rest.length + 1) p rest
    takeSequence fuel flags (.concat acc p) rest
  | _, _, _, _, _ => none
end

/-- The pattern that a text writes under some flags. -/
def underFlags? (flags : Flags) (cs : List Char) : Option Pattern :=
  match takeAlternatives (3 * cs.length + 3) flags cs with
  | some (p, []) => some p
  | _ => none

/-- **The pattern that a text writes**, if it writes one. -/
def ofText? (dialect : Dialect) (text : String) : Option Pattern :=
  match dialect with
  | .expression => underFlags? .ofExpression text.toList
  | .document => underFlags? .ofDocument text.toList <|> underFlags? .ofLooks text.toList

end SchemaRules.Pattern
