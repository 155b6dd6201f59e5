import CanonicalSql.Grammar.Statement

/-!
# Options

What the arguments of a call and its environment ask for. Arguments are read from the left,
and the first one that cannot be read, or that asks for help or for the version, decides
the call; what comes after it is not looked at.
-/
namespace CanonicalSql.CommandLine

/-- What is printed of a statement. -/
inductive OutputFormat
  /-- The canonical text. -/
  | sql
  /-- The tree as a record. -/
  | json
deriving DecidableEq, Repr, Inhabited

/-- The format with the given name. -/
def OutputFormat.ofText? : String → Option OutputFormat
  | "sql" => some .sql
  | "json" => some .json
  | _ => none

/-- What a call asks for. -/
structure Options where
  /-- The file that holds the statement. Without it standard input does. -/
  input : Option String
  format : OutputFormat
  /-- The depth that the tree may have. -/
  maxDepth : Nat
  validate : Bool
  verbose : Bool
  /-- Whether the log is written in colors. -/
  colored : Bool
deriving DecidableEq, Repr, Inhabited

/-- What a call finds in its environment, under the names `depthVariable` and
`plainVariable`. -/
structure Environment where
  depth : Option String := none
  plain : Option String := none
deriving DecidableEq, Repr, Inhabited

/-- The environment variable that holds a depth. -/
def depthVariable : String := "SQLCHECK_MAX_DEPTH"

/-- The environment variable that forbids colors unless it is empty. -/
def plainVariable : String := "NO_COLOR"

/-- The arguments that begin with a dash. -/
inductive Flag
  | format
  | maxDepth
  | noValidate
  | verbose
  | help
  | version
deriving DecidableEq, Repr, Inhabited

namespace Flag

/-- All flags. -/
def all : List Flag := [.format, .maxDepth, .noValidate, .verbose, .help, .version]

/-- The name after two dashes. -/
def long : Flag → String
  | .format => "format"
  | .maxDepth => "max-depth"
  | .noValidate => "no-validate"
  | .verbose => "verbose"
  | .help => "help"
  | .version => "version"

/-- The letter after one dash. -/
def short? : Flag → Option Char
  | .format => some 'f'
  | .maxDepth => none
  | .noValidate => none
  | .verbose => some 'v'
  | .help => some 'h'
  | .version => some 'V'

/-- Whether a value belongs to the flag. -/
def takesValue : Flag → Bool
  | .format | .maxDepth => true
  | .noValidate | .verbose | .help | .version => false

/-- The flag with the given name. -/
def ofLong? (name : String) : Option Flag := all.find? fun flag => flag.long = name

/-- The flag with the given letter. -/
def ofShort? (letter : Char) : Option Flag := all.find? fun flag => flag.short? = some letter

theorem ofLong?_long (flag : Flag) : ofLong? flag.long = some flag := by
  cases flag <;> rfl

end Flag

/-- What is wrong with the arguments. -/
inductive UsageError
  | unknown (argument : String)
  | missingValue (flag : Flag)
  | unexpectedValue (flag : Flag)
  | invalidValue (flag : Flag) (value : String)
  | repeated (flag : Flag)
  /-- A file without a name. -/
  | emptyInput
deriving DecidableEq, Repr, Inhabited

/-- The message. -/
def UsageError.message : UsageError → String
  | .unknown argument => "unexpected argument '" ++ argument ++ "' found"
  | .missingValue flag => "a value is required for '--" ++ flag.long ++ "' but none was supplied"
  | .unexpectedValue flag => "no value is allowed for '--" ++ flag.long ++ "'"
  | .invalidValue flag value => "invalid value '" ++ value ++ "' for '--" ++ flag.long ++ "'"
  | .repeated flag => "the argument '--" ++ flag.long ++ "' cannot be used multiple times"
  | .emptyInput => "a value is required for '[INPUT]' but none was supplied"

/-- Why a call ends before a statement is read. -/
inductive EarlyEnd
  | help
  | version
  | misuse (error : UsageError)
deriving DecidableEq, Repr, Inhabited

/-- The depth that a text writes: digits after an optional plus sign, for a number that
fits into 64 bits. -/
def depth? (text : String) : Option Nat :=
  let digits :=
    match text.toList with
    | '+' :: rest => rest
    | characters => characters
  if digits.isEmpty || !digits.all Char.isDigit then none
  else
    let value := Binary64.digitsValue digits
    if value ≤ 0xffffffffffffffff then some value else none

/-- What the arguments read so far ask for. -/
structure Draft where
  input : Option String := none
  format : Option OutputFormat := none
  maxDepth : Option Nat := none
  noValidate : Bool := false
  verbose : Bool := false
deriving DecidableEq, Repr, Inhabited

namespace Draft

/-- Takes a file. There can be one only. -/
def setInput (draft : Draft) (path : String) : Except EarlyEnd Draft :=
  if draft.input.isSome then .error (.misuse (.unknown path))
  else if path = "" then .error (.misuse .emptyInput)
  else .ok { draft with input := some path }

/-- Takes a flag without a value. -/
def switch (draft : Draft) : Flag → Except EarlyEnd Draft
  | .noValidate =>
    if draft.noValidate then .error (.misuse (.repeated .noValidate))
    else .ok { draft with noValidate := true }
  | .verbose =>
    if draft.verbose then .error (.misuse (.repeated .verbose))
    else .ok { draft with verbose := true }
  | .help => .error .help
  | .version => .error .version
  | flag => .error (.misuse (.missingValue flag))

/-- Takes a flag with its value. -/
def set (draft : Draft) (flag : Flag) (value : String) : Except EarlyEnd Draft :=
  match flag with
  | .format =>
    if draft.format.isSome then .error (.misuse (.repeated .format))
    else
      match OutputFormat.ofText? value with
      | some format => .ok { draft with format := some format }
      | none => .error (.misuse (.invalidValue .format value))
  | .maxDepth =>
    if draft.maxDepth.isSome then .error (.misuse (.repeated .maxDepth))
    else
      match depth? value with
      | some depth => .ok { draft with maxDepth := some depth }
      | none => .error (.misuse (.invalidValue .maxDepth value))
  | flag => .error (.misuse (.unexpectedValue flag))

/-- Takes the letters after one dash. A flag that takes a value takes the letters that are
left, after an equals sign or not, or waits for the next argument. -/
def readLetters (draft : Draft) : List Char → Except EarlyEnd (Draft × Option Flag)
  | [] => .ok (draft, none)
  | letter :: rest =>
    match Flag.ofShort? letter with
    | none => .error (.misuse (.unknown ("-" ++ letter.toString)))
    | some flag =>
      if flag.takesValue then
        match rest with
        | [] => .ok (draft, some flag)
        | '=' :: value => (draft.set flag (String.ofList value)).map (·, none)
        | value => (draft.set flag (String.ofList value)).map (·, none)
      else
        match draft.switch flag with
        | .ok draft => draft.readLetters rest
        | .error reason => .error reason

/-- Takes what follows two dashes: a name, and a value after an equals sign. -/
def readName (draft : Draft) (argument : List Char) :
    Except EarlyEnd (Draft × Option Flag) :=
  let name := argument.takeWhile (· != '=')
  match Flag.ofLong? (String.ofList name), argument.dropWhile (· != '=') with
  | none, _ => .error (.misuse (.unknown ("--" ++ String.ofList name)))
  | some flag, [] =>
    if flag.takesValue then .ok (draft, some flag) else (draft.switch flag).map (·, none)
  | some flag, _ :: value => (draft.set flag (String.ofList value)).map (·, none)

/-- Takes an argument. The answer holds the flag that waits for a value. -/
def read (draft : Draft) (argument : String) : Except EarlyEnd (Draft × Option Flag) :=
  match argument.toList with
  | '-' :: '-' :: name => draft.readName name
  | '-' :: letter :: letters => draft.readLetters (letter :: letters)
  | _ => (draft.setInput argument).map (·, none)

/-- Whether an argument can be a value: it is a single dash or begins with none. -/
def isValue (argument : String) : Bool :=
  match argument.toList with
  | '-' :: _ :: _ => false
  | _ => true

/-- Takes all arguments, the first of which may be awaited by a flag. After two dashes on
their own everything is a file. -/
def readAll : Draft → (awaited : Option Flag) → List String → Except EarlyEnd Draft
  | draft, none, [] => .ok draft
  | _, some flag, [] => .error (.misuse (.missingValue flag))
  | draft, some flag, argument :: rest =>
    if isValue argument then
      match draft.set flag argument with
      | .ok draft => readAll draft none rest
      | .error reason => .error reason
    else .error (.misuse (.missingValue flag))
  | draft, none, argument :: rest =>
    if argument = "--" then rest.foldlM setInput draft
    else
      match draft.read argument with
      | .ok (draft, awaited) => readAll draft awaited rest
      | .error reason => .error reason

/-- What is asked for in the end. The depth is taken from the environment if no argument
gives it. -/
def options (draft : Draft) (environment : Environment) : Except EarlyEnd Options := do
  let maxDepth ←
    match draft.maxDepth, environment.depth with
    | some depth, _ => pure depth
    | none, none => pure defaultLimit
    | none, some setting =>
      match depth? setting with
      | some depth => pure depth
      | none => throw (.misuse (.invalidValue .maxDepth setting))
  return {
    input := draft.input, format := draft.format.getD .sql, maxDepth
    validate := !draft.noValidate, verbose := draft.verbose
    colored := environment.plain.getD "" = "" }

end Draft

/-- What the arguments ask for in an environment. -/
def Options.ofArguments (arguments : List String) (environment : Environment) :
    Except EarlyEnd Options := do
  (← Draft.readAll {} none arguments).options environment

end CanonicalSql.CommandLine
