import SchemaRules.Expr.Basic
import SchemaRules.Expr.Literal
import SchemaRules.Expr.Token

/-!
# Reading expressions

The tree of a text. From weak to strong bind the choice, `||`, `&&`, the comparisons with
`in`, sums, products, the operators in front, and members, calls and indices behind; what
binds alike groups to the left. Expressions nest up to a limit.

* `Expr.ofText?` reads an expression; none when the text is not one.
* A call that has the form of a macro is one.
-/

namespace SchemaRules.Expr

/-- Expressions may nest this deep. -/
def depthLimit : Nat := 96

/-- A step of reading takes tokens off the front, or fails. -/
abbrev Parser (α : Type) := List Token → Option (α × List Token)

variable {α : Type}

/-- Takes a mark. -/
def takeMark (m : String) : Parser Unit
  | .mark n :: rest => if m = n then some ((), rest) else none
  | _ => none

/-- Whether a mark comes next. -/
def comes (m : String) (ts : List Token) : Bool :=
  ts.head? = some (.mark m)

/-! ## Macros -/

/-- The variable that a macro binds. -/
def boundName? : Expr → Option String
  | name x => some x
  | _ => none

/-- A call of a method, or the macro that it is. -/
def ofMethod (e : Expr) (method : String) (args : List Expr) : Option Expr :=
  match method, args with
  | "all", [x, p] => (boundName? x).map fun x => quantified .all e x p
  | "exists", [x, p] => (boundName? x).map fun x => quantified .some e x p
  | "exists_one", [x, p] => (boundName? x).map fun x => quantified .one e x p
  | "existsOne", [x, p] => (boundName? x).map fun x => quantified .one e x p
  | "map", [x, f] => (boundName? x).map fun x => collect e x (literal (.bool true)) f
  | "map", [x, p, f] => (boundName? x).map fun x => collect e x p f
  | "filter", [x, p] => (boundName? x).map fun x => collect e x p (name x)
  | _, _ => some (call (some e) method args)

/-- A call of a function, or the presence test that it is. -/
def ofFunction (function : String) (args : List Expr) : Option Expr :=
  match function, args with
  | "has", [member e field] => some (has e field)
  | "has", [has e field] => some (has e field)
  | "has", [_] => none
  | _, _ => some (call none function args)

/-! ## Lists between brackets -/

/-- Takes items with commas between them, one at least and `fuel` at most. -/
def takeItems (item : Parser α) : Nat → Parser (List α)
  | 0, _ => none
  | fuel + 1, ts => do
    let (x, rest) ← item ts
    match rest with
    | .mark "," :: more =>
      match takeItems item fuel more with
      | some (xs, rest) => some (x :: xs, rest)
      | none => some ([x], rest)
    | _ => some ([x], rest)

/-- Takes items up to a closing mark; `trailing` allows a comma in front of it. -/
def takeUpTo (closing : String) (trailing : Bool) (item : Parser α) : Parser (List α) := fun ts =>
  match takeMark closing ts with
  | some (_, rest) => some ([], rest)
  | none => do
    let (xs, rest) :=
      match takeItems item (ts.length + 1) ts with
      | some found => found
      | none => ([], ts)
    let rest := if trailing && comes "," rest then rest.drop 1 else rest
    if xs.isEmpty && !trailing then none
    let (_, rest) ← takeMark closing rest
    return (xs, rest)

/-- The name of a field, with backquotes if it has them. -/
def takeField : Parser String
  | .ident x :: rest => some (x, rest)
  | .backquoted x :: rest => some (x, rest)
  | _ => none

/-- A field of a message with its value. -/
def takeFieldEntry (sub : Parser Expr) : Parser (String × Expr) := fun ts => do
  let (field, ts) ← takeField ts
  let (_, ts) ← takeMark ":" ts
  let (e, ts) ← sub ts
  return ((field, e), ts)

/-- An entry of a map. -/
def takeMapEntry (sub : Parser Expr) : Parser (Expr × Expr) := fun ts => do
  let (k, ts) ← sub ts
  let (_, ts) ← takeMark ":" ts
  let (v, ts) ← sub ts
  return ((k, v), ts)

/-! ## Primaries -/

/-- A literal without a sign. -/
def takeLiteral : Parser Expr
  | .int text :: rest => (Literal.int? text.toList).map fun v => (literal v, rest)
  | .uint text :: rest => (Literal.uint? text.toList).map fun v => (literal v, rest)
  | .double text :: rest => (Literal.double? text.toList).map fun v => (literal v, rest)
  | .quoted text :: rest => (Literal.text? text).map fun v => (literal v, rest)
  | .bytes text :: rest => (Literal.bytes? text).map fun v => (literal v, rest)
  | .yes :: rest => some (literal (.bool true), rest)
  | .no :: rest => some (literal (.bool false), rest)
  | .null :: rest => some (literal .null, rest)
  | _ => none

/-- The names with points between them in front of the fields of a message. -/
def messageType : List Token → Option (List String × List Token)
  | .ident x :: .mark "." :: rest =>
    (messageType rest).map fun (xs, rest) => (x :: xs, rest)
  | .ident x :: .mark "\x7b" :: rest => some ([x], rest)
  | _ => none

/-- A name, a call or a message; `dotted` tells of a point in front. -/
def takeNamed (sub : Parser Expr) (dotted : Bool) : Parser Expr := fun ts =>
  match messageType ts with
  | some (names, rest) => do
    let (fields, rest) ← takeUpTo "\x7d" true (takeFieldEntry sub) rest
    return (message (Text.joinWith "." names) fields, rest)
  | none =>
    match ts with
    | .ident f :: .mark "(" :: rest => do
      let (args, rest) ← takeUpTo ")" false sub rest
      let e ← ofFunction (if dotted then "." ++ f else f) args
      return (e, rest)
    | .ident x :: rest => some (name x, rest)
    | _ => none

/-- An expression that stands for itself. -/
def takePrimary (sub : Parser Expr) : Parser Expr := fun ts =>
  match ts with
  | .mark "(" :: rest => do
    let (e, rest) ← sub rest
    let (_, rest) ← takeMark ")" rest
    return (e, rest)
  | .mark "[" :: rest => do
    let (items, rest) ← takeUpTo "]" true sub rest
    return (list items, rest)
  | .mark "\x7b" :: rest => do
    let (entries, rest) ← takeUpTo "\x7d" true (takeMapEntry sub) rest
    return (map entries, rest)
  | .mark "." :: rest => takeNamed sub true rest
  | .ident _ :: _ => takeNamed sub false ts
  | .mark "-" :: .int text :: rest =>
    (Literal.int? ('-' :: text.toList)).map fun v => (literal v, rest)
  | .mark "-" :: .double text :: rest =>
    (Literal.double? ('-' :: text.toList)).map fun v => (literal v, rest)
  | _ => takeLiteral ts

/-! ## Operators -/

/-- The members, calls and indices behind an expression, `fuel` of them at most. -/
def takeSuffixes (sub : Parser Expr) : Nat → Expr → Parser Expr
  | 0, e, ts => some (e, ts)
  | fuel + 1, e, ts =>
    match ts with
    | .mark "." :: .ident f :: .mark "(" :: rest => do
      let (args, rest) ← takeUpTo ")" false sub rest
      let e ← ofMethod e f args
      takeSuffixes sub fuel e rest
    | .mark "." :: rest => do
      let (field, rest) ← takeField rest
      takeSuffixes sub fuel (member e field) rest
    | .mark "[" :: rest => do
      let (i, rest) ← sub rest
      let (_, rest) ← takeMark "]" rest
      takeSuffixes sub fuel (binary .index e i) rest
    | _ => some (e, ts)

/-- An expression with what stands behind it. -/
def takeMember (sub : Parser Expr) : Parser Expr := fun ts => do
  let (e, rest) ← takePrimary sub ts
  takeSuffixes sub rest.length e rest

/-- The tokens behind a run of one mark. -/
def afterRun (m : String) (ts : List Token) : List Token :=
  ts.dropWhile fun t => decide (t = .mark m)

/-- Whether a number that may have a sign comes next. -/
def isSignable (ts : List Token) : Bool :=
  match ts with
  | .int _ :: _ => true
  | .double _ :: _ => true
  | _ => false

/-- An expression with operators in front. A run of one operator counts once, and a single minus in
front of a number belongs to the number. -/
def takeUnary (sub : Parser Expr) : Parser Expr := fun ts =>
  match ts with
  | .mark "!" :: rest => do
    let (e, rest) ← takeMember sub (afterRun "!" rest)
    return (unary .not e, rest)
  | .mark "-" :: rest =>
    if isSignable rest then takeMember sub ts
    else do
      let (e, rest) ← takeMember sub (afterRun "-" rest)
      return (unary .negate e, rest)
  | _ => takeMember sub ts

/-- The operators of one strength with the marks that write them. -/
abbrev Level := List (String × (Expr → Expr → Expr))

/-- Operands behind `left` with operators of one level between them, `fuel` at most. -/
def takeOperands (level : Level) (operand : Parser Expr) : Nat → Expr → Parser Expr
  | 0, left, ts => some (left, ts)
  | fuel + 1, left, ts =>
    match ts with
    | .mark m :: rest =>
      match level.lookup m with
      | some op => do
        let (right, rest) ← operand rest
        takeOperands level operand fuel (op left right) rest
      | none => some (left, ts)
    | _ => some (left, ts)

/-- Operands with operators of one level between them. -/
def takeLevel (level : Level) (operand : Parser Expr) : Parser Expr := fun ts => do
  let (left, rest) ← operand ts
  takeOperands level operand rest.length left rest

/-- The levels from strong to weak. -/
def levels : List Level :=
  [[("*", binary .mul), ("/", binary .div), ("%", binary .rem)],
    [("+", binary .add), ("-", binary .sub)],
    [("<", binary .less), ("<=", binary .lessEq), (">=", binary .greaterEq),
      (">", binary .greater), ("==", binary .equal), ("!=", binary .notEqual),
      ("in", binary .isIn)],
    [("&&", and)],
    [("||", or)]]

/-- An expression without a choice. -/
def takeOperation (sub : Parser Expr) : Parser Expr :=
  levels.foldl (fun operand level => takeLevel level operand) (takeUnary sub)

/-- **An expression** that nests at most `depth` deep. -/
def takeExpr : Nat → Parser Expr
  | 0, _ => none
  | depth + 1, ts => do
    let sub := takeExpr depth
    let (c, rest) ← takeOperation sub ts
    match rest with
    | .mark "?" :: rest => do
      let (a, rest) ← takeOperation sub rest
      let (_, rest) ← takeMark ":" rest
      let (b, rest) ← sub rest
      return (choice c a b, rest)
    | _ => some (c, rest)

/-- **The expression that a text writes**, if it writes one. -/
def ofText? (text : String) : Option Expr := do
  let tokens ← Token.scan text
  match takeExpr depthLimit tokens with
  | some (e, []) => some e
  | _ => none

end SchemaRules.Expr
