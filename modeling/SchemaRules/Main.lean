import SchemaRules.Command.Line

/-!
# The program

Reads the files that the arguments name and the variables of the environment, and prints what
the program says.
-/

namespace SchemaRules

/-- The reason why a file is not read. -/
def faultOf : IO.Error → FileFault
  | .noFileOrDirectory .. => .missing
  | .permissionDenied .. => .denied
  | .inappropriateType .. => .isDirectory
  | e => .other (toString e)

/-- The text of a file. -/
def readText (path : String) : IO (Except FileFault String) := do
  try
    let bytes ← IO.FS.readBinFile path
    return match String.fromUTF8? bytes with
      | some text => .ok text
      | none => .error .notText
  catch e => return .error (faultOf e)

/-- The files at some paths. -/
def readFiles (paths : List String) : IO Files := do
  let texts ← paths.mapM fun path => do return (path, ← readText path)
  return fun path => (texts.lookup path).getD (.error .missing)

/-- The variables that hold settings. -/
def readVariables : IO (String → Option String) := do
  let scope ← IO.getEnv "XVAL_SCOPE_VARIABLE"
  let extensions ← IO.getEnv "XVAL_RULE_EXTENSIONS"
  return fun
    | "XVAL_SCOPE_VARIABLE" => scope
    | "XVAL_RULE_EXTENSIONS" => extensions
    | _ => none

end SchemaRules

open SchemaRules in
/-- **Runs the program** on the arguments of the command line. -/
def main (arguments : List String) : IO UInt32 := do
  let paths := ((Invocation.ofArguments arguments).map Invocation.paths).getD []
  let output := runProgram (← readFiles paths) (← readVariables) arguments .standard
  for line in output.lines do
    IO.println line
  if let some complaint := output.complaint then
    IO.eprintln complaint
  return output.code.toUInt32
