import CanonicalSql.Canonical.Statement
import CanonicalSql.CommandLine.Files
import CanonicalSql.CommandLine.Log
import CanonicalSql.CommandLine.Options
import CanonicalSql.Record.Statement
import CanonicalSql.Validity

/-!
# Outcomes

What a call prints and how it ends. A statement that can be read is printed, whether it
keeps the rules beyond the grammar or not; the rules that it breaks are warnings.
-/
namespace CanonicalSql.CommandLine

/-- What a call leaves behind. -/
structure Outcome where
  /-- The exit status: 0 on success, 1 without a statement, 2 on misuse. -/
  status : Nat := 0
  /-- What is written to standard output. -/
  output : String := ""
  /-- What is written to standard error. -/
  log : String := ""
deriving DecidableEq, Repr, Inhabited

/-- How to call the program. -/
def usage : String :=
  "Parse one SQL statement and print its canonical form\n\n" ++
  "Usage: sqlcheck [OPTIONS] [INPUT]\n\n" ++
  "Arguments:\n" ++
  "  [INPUT]  File holding the statement (standard input if not specified)\n\n" ++
  "Options:\n" ++
  "  -f, --format <FORMAT>        Output format [default: sql] [possible values: sql, json]\n" ++
  "      --max-depth <MAX_DEPTH>  Deepest tree the parser may build [default: 48]\n" ++
  "      --no-validate            Skip the post-parse checks\n" ++
  "  -v, --verbose                Enable verbose output\n" ++
  "  -h, --help                   Print help\n" ++
  "  -V, --version                Print version\n"

/-- The outcome of a call that ends early. -/
def EarlyEnd.outcome : EarlyEnd → Outcome
  | .help => { output := usage }
  | .version => { output := "sqlcheck 0.1.0\n" }
  | .misuse error => { status := 2, log := "error: " ++ error.message ++ "\n" }

namespace Options

/-- What is printed of a statement. -/
def render (options : Options) (statement : Statement) : String :=
  match options.format with
  | .sql => statement.sql
  | .json => (Record.ofStatement statement).pretty

/-- The diagnostics that are shown: those for debugging only to a verbose call. -/
def log (options : Options) (diagnostics : List Diagnostic) : String :=
  let shown := diagnostics.filter fun diagnostic => options.verbose || diagnostic.level != .debug
  String.join (shown.map (Diagnostic.line options.colored))

/-- The diagnostics on a statement that was read. -/
def remarks (options : Options) (statement : Statement) : List Diagnostic :=
  if options.validate then
    statement.violations.map fun violation => { level := .warning, message := violation.text }
  else [{ level := .debug, message := "validation skipped" }]

/-- The outcome for a text. -/
def outcomeOfText (options : Options) (text : String) : Outcome :=
  let start : Diagnostic :=
    { level := .debug, message := "parsing statement"
      fields := [("len", toString text.utf8ByteSize)] }
  match Statement.parse options.maxDepth text with
  | .ok statement =>
    let parsed : Diagnostic :=
      { level := .debug, message := "parsed statement"
        fields := [("kind", "\"" ++ statement.word.spelling ++ "\"")] }
    { output := options.render statement ++ "\n"
      log := options.log (start :: parsed :: options.remarks statement) }
  | .error failure =>
    let failed : Diagnostic :=
      { level := .debug, message := "parse failed", fields := [("err", failure.text)] }
    { status := 1
      log := options.log [start, failed, { level := .error, message := failure.text }] }

/-- The outcome if the text could not be read. -/
def outcomeOfReadError (options : Options) (error : ReadError) : Outcome :=
  let source := options.input.getD "standard input"
  { status := 1
    log := options.log
      [{ level := .error
         message := "failed to read " ++ source ++ ": " ++ error.message }] }

/-- The outcome for the bytes read from the input, or the reason why there are none. -/
def outcome (options : Options) (input : Except ReadError ByteArray) : Outcome :=
  match input with
  | .error error => options.outcomeOfReadError error
  | .ok bytes =>
    match String.fromUTF8? bytes with
    | some text => options.outcomeOfText text
    | none => options.outcomeOfReadError .notText

end Options

/-- The outcome of a call whose input is fetched by `fetch`: from the file that is named,
or from standard input. Nothing is fetched for a call that ends early. -/
def respond {m : Type → Type} [Monad m] (arguments : List String) (environment : Environment)
    (fetch : Option String → m (Except ReadError ByteArray)) : m Outcome :=
  match Options.ofArguments arguments environment with
  | .error reason => return reason.outcome
  | .ok options => return options.outcome (← fetch options.input)

/-- All that a call depends on. -/
structure Call where
  arguments : List String
  environment : Environment
  files : Files
  standardInput : ByteArray
deriving Inhabited

/-- The bytes of the input. -/
def Call.fetch (call : Call) : Option String → Except ReadError ByteArray
  | some path => call.files.read path
  | none => .ok call.standardInput

/-- What a call leaves behind. -/
def Call.outcome (call : Call) : Outcome :=
  Id.run (respond call.arguments call.environment call.fetch)

end CanonicalSql.CommandLine
