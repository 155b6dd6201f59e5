import CanonicalSql.CommandLine.Outcome

/-!
# The program

Reads the arguments and the input, and leaves the outcome behind.
-/
namespace CanonicalSql.CommandLine

/-- The number of a failure, which some calls of the system give with its sign changed. -/
def errorNumber (code : UInt32) : UInt32 := min code (0 - code)

/-- The reason that the system gives for a failure. -/
def ReadError.ofSystem : IO.Error → ReadError
  | .noFileOrDirectory .. => .noSuchFile
  | .permissionDenied .. => .permissionDenied
  | .inappropriateType _ code reason =>
    match errorNumber code with
    | 20 => .notADirectory
    | 21 => .isADirectory
    | _ => .other reason
  | .invalidArgument _ code reason =>
    match errorNumber code with
    | 36 => .nameTooLong
    | 40 => .tooManyLinks
    | _ => .other reason
  | error => .other (toString error)

/-- The bytes of a file, or of standard input. -/
def fetchInput (path : Option String) : IO (Except ReadError ByteArray) := do
  try
    match path with
    | some path => return .ok (← IO.FS.readBinFile path)
    | none => return .ok (← (← IO.getStdin).readBinToEnd)
  catch error => return .error (.ofSystem error)

/-- The settings of the system's environment. -/
def Environment.ofSystem : IO Environment :=
  return { depth := ← IO.getEnv depthVariable, plain := ← IO.getEnv plainVariable }

end CanonicalSql.CommandLine

/-- Parses one statement and prints its canonical form. -/
def main (arguments : List String) : IO UInt32 := do
  let environment ← CanonicalSql.CommandLine.Environment.ofSystem
  let outcome ←
    CanonicalSql.CommandLine.respond arguments environment CanonicalSql.CommandLine.fetchInput
  IO.print outcome.output
  IO.eprint outcome.log
  return outcome.status.toUInt32
