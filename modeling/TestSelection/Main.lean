import TestSelection.Program

/-!
# The command line

Reads the arguments, the variables of the environment and the files that a run needs, and writes
what comes of the run.
-/

namespace TestSelection.Main

/-- Whether a text leads to a file or a directory. -/
def leadsSomewhere (text : String) : IO Bool := do
  try
    discard (IO.FS.realPath text)
    return true
  catch _ =>
    return false

/-- Whether a path leads to a file: it leads somewhere, and no way goes on from there. -/
def leadsToFile (p : Path) : IO Bool := do
  return (← leadsSomewhere p.text) && !(← leadsSomewhere (p.text ++ "/."))

/-- The number of a failure of the system, and its wording, which may differ in case. -/
def systemFailure? : IO.Error → Option (Nat × String)
  | .alreadyExists _ code details | .interrupted _ code details | .noFileOrDirectory _ code details
  | .invalidArgument _ code details | .permissionDenied _ code details
  | .resourceExhausted _ code details | .inappropriateType _ code details
  | .noSuchThing _ code details | .otherError code details | .resourceBusy code details
  | .resourceVanished code details | .unsupportedOperation code details
  | .hardwareFault code details | .unsatisfiedConstraints code details
  | .illegalOperation code details | .protocolError code details | .timeExpired code details =>
    -- some calls give the number with a sign
    some (code.toInt32.toInt.natAbs, details)
  | .unexpectedEof | .userError _ => none

/-- What a failure of the system means for reading; there may be a file all the same. -/
def readErrorOf (isFile : Bool) (e : IO.Error) : ReadError :=
  match systemFailure? e with
  | some (2, _) => .notFound
  | some (20, _) => .notDirectory
  | some (21, _) => .isDirectory
  | some (36, _) => .nameTooLong
  | some (number, details) =>
    .refused isFile (details.capitalize ++ " (os error " ++ toString number ++ ")")
  | none => .refused isFile (toString e)

/-- Read a file. -/
def readFile (p : Path) : IO (Path × Except ReadError (List UInt8)) := do
  if p.text.contains '\x00' then
    return (p, .error .nulInName)
  try
    return (p, .ok (← IO.FS.readBinFile p.text).toList)
  catch e =>
    return (p, .error (readErrorOf (← leadsToFile p) e))

/-- Access to files that were read. -/
def accessOf (files : List (Path × Except ReadError (List UInt8))) : FileAccess :=
  ⟨fun p => (files.lookup p).getD (.error .notFound)⟩

/-- The variables that a run looks at. -/
def variableNames : List String :=
  ["TESTSIEVE_CONFIG", "TESTSIEVE_VERBOSE", "TESTSIEVE_COLOR", "TESTSIEVE_LOG", "FORCE_COLOR",
    "CLICOLOR_FORCE", "NO_COLOR", "IGNORE_IS_TERMINAL", "COLORTERM", "TERM", "TERM_PROGRAM",
    "CLICOLOR", "CI"]

/-- The environment of this process. -/
def environment : IO Environment := do
  let entries ← variableNames.filterMapM fun name => do
    return (← IO.getEnv name).map fun value => (name, some value)
  return ⟨entries, ← (← IO.getStdout).isTty⟩

/-- Read the files that an invocation needs. -/
def readFiles (inv : Invocation) : IO FileAccess := do
  let config ← (Program.configFiles inv).mapM readFile
  let others ← (Program.otherFiles (accessOf config) inv).mapM readFile
  return accessOf (config ++ others)

/-- The access that the arguments need; none if they cannot be followed. -/
def accessFor (env : Environment) (args : List String) : IO FileAccess :=
  match CommandLine.parse env args with
  | .ok inv => readFiles inv
  | .error _ => return accessOf []

end TestSelection.Main

open TestSelection in
/-- Run the program on the arguments of this process. -/
def main (args : List String) : IO UInt32 := do
  let env ← Main.environment
  let access ← Main.accessFor env args
  let ending := Program.run env args access .endless
  let stdout ← IO.getStdout
  stdout.write (ByteArray.mk ending.output.toArray)
  stdout.flush
  (← IO.getStderr).putStr ending.errors
  return ending.exitCode.toUInt32
