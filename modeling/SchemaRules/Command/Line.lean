import SchemaRules.Command.Basic

/-!
# The command line

Arguments are read from left to right. The options `--verbose` and `--config` may stand anywhere,
the first other argument is the name of a command, and behind `--` nothing is an option. The
question for the version or for help is answered where it is met.

* `Invocation.ofArguments` reads the arguments; `none` is a wrong use.
* `runProgram` is the program: its code and what it prints.
-/

namespace SchemaRules

/-- **What is asked of the program.** -/
inductive Invocation where
  | version
  | help
  | run (config : Option String) (command : Command)
  deriving DecidableEq

namespace Invocation

/-- The names of the commands. -/
inductive Verb where
  | check
  | validate
  deriving DecidableEq

/-- The arguments read so far. A configuration behind the name of the command goes before the one
in front. -/
structure Draft where
  verb : Option Verb
  places : List String
  outerConfig : Option String
  innerConfig : Option String

/-- A step of reading: an answer right away, or the arguments read. -/
abbrev Step := Option (Invocation ⊕ Draft)

/-- The arguments with a configuration, which is given once on each side of the command's name. -/
def Draft.withConfig? (d : Draft) (path : String) : Option Draft :=
  if path.isEmpty then none
  else
    match d.verb, d.outerConfig, d.innerConfig with
    | none, none, _ => some { d with outerConfig := some path }
    | some _, _, none => some { d with innerConfig := some path }
    | _, _, _ => none

/-- The arguments with one that is no option. -/
def Draft.withPlace? (d : Draft) (argument : String) (optionsEnded : Bool) : Step :=
  match d.verb with
  | some .check =>
    if d.places.isEmpty && !argument.isEmpty then
      some (.inr { d with places := [argument] })
    else none
  | some .validate =>
    if argument.isEmpty then none else some (.inr { d with places := d.places ++ [argument] })
  | none =>
    if optionsEnded then none
    else
      match argument with
      | "check" => some (.inr { d with verb := some .check })
      | "validate" => some (.inr { d with verb := some .validate })
      | "help" => some (.inl .help)
      | _ => none

/-- The arguments with a run of short options. -/
def Draft.withShort? (d : Draft) : List Char → Step
  | [] => some (.inr d)
  | 'v' :: rest => d.withShort? rest
  | 'h' :: _ => some (.inl .help)
  | 'V' :: _ => if d.verb.isNone then some (.inl .version) else none
  | _ :: _ => none

/-- What all arguments together ask for. -/
def Draft.finish? (d : Draft) : Option Invocation :=
  let config := d.innerConfig.or d.outerConfig
  match d.verb, d.places with
  | some .check, [schema] => some (.run config (.check schema))
  | some .validate, schema :: document :: more =>
    some (.run config (.validate schema (document :: more)))
  | _, _ => none

/-- Whether an argument looks like an option, which no value of an option does. -/
def isOption (argument : String) : Bool :=
  argument.startsWith "-" && argument != "-"

/-- The text behind an option and an equals sign. -/
def behind? (option argument : String) : Option String :=
  (Text.after? (option ++ "=").toList argument.toList).map String.ofList

/-- Reads arguments behind `--`. -/
def readPlaces (d : Draft) : List String → Option Invocation
  | [] => d.finish?
  | argument :: rest =>
    match d.withPlace? argument true with
    | some (.inr d) => readPlaces d rest
    | some (.inl answer) => some answer
    | none => none

/-- Reads arguments. -/
def read (d : Draft) : List String → Option Invocation
  | [] => d.finish?
  | "--" :: rest => readPlaces d rest
  | "--verbose" :: rest => read d rest
  | "--help" :: _ => some .help
  | "--version" :: _ => if d.verb.isNone then some .version else none
  | "--config" :: path :: rest =>
    if isOption path then none
    else
      match d.withConfig? path with
      | some d => read d rest
      | none => none
  | argument :: rest =>
    match behind? "--config" argument with
    | some path =>
      match d.withConfig? path with
      | some d => read d rest
      | none => none
    | none =>
      let step :=
        if argument.startsWith "--" then none
        else if isOption argument then d.withShort? (argument.toList.drop 1)
        else d.withPlace? argument false
      match step with
      | some (.inr d) => read d rest
      | some (.inl answer) => some answer
      | none => none

/-- **What the arguments ask for**, if they are a right use. -/
def ofArguments (arguments : List String) : Option Invocation :=
  read ⟨none, [], none, none⟩ arguments

/-- The files that a run may read. -/
def paths : Invocation → List String
  | run config (.check schema) => config.toList ++ [schema]
  | run config (.validate schema documents) => config.toList ++ schema :: documents
  | _ => []

end Invocation

/-- The line that tells the version. -/
def versionLine : String := "xval 0.1.0"

/-- The line that tells how the program is used. -/
def usageLine : String :=
  "usage: xval [-v] [--config PATH] (check SCHEMA | validate SCHEMA DOCUMENT...)"

/-- **What the program does**: its code, the lines that it prints, and a complaint. -/
structure Output where
  code : Nat
  lines : List String
  complaint : Option String
  deriving DecidableEq

/-- The run of a command with the configuration that goes with it. -/
def runCommand (files : Files) (lookup : String → Option String) (config : Option String)
    (command : Command) (s : Seed := .standard) : Except OperationError Report := do
  command.run files (← chooseConfig files lookup config) s

/-- **The program.** A wrong use and an operation error have the code 2. -/
def runProgram (files : Files) (lookup : String → Option String) (arguments : List String)
    (s : Seed := .standard) : Output :=
  match Invocation.ofArguments arguments with
  | none => ⟨2, [], some usageLine⟩
  | some .version => ⟨0, [versionLine], none⟩
  | some .help => ⟨0, [], none⟩
  | some (.run config command) =>
    match runCommand files lookup config command s with
    | .ok report => ⟨report.code, report.lines, none⟩
    | .error e => ⟨2, [], some e.message⟩

end SchemaRules
