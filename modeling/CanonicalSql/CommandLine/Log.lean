import CanonicalSql.Record

/-!
# Log lines

Diagnostics are written line by line, each after its level. Control characters that could
steer a terminal are written as escapes in a message, and as they are in the fields after
it.
-/
namespace CanonicalSql.CommandLine

/-- How serious a diagnostic is. -/
inductive Level
  | debug
  | warning
  | error
deriving DecidableEq, Repr, Inhabited

/-- The level at the start of a line, five characters wide. -/
def Level.text : Level → String
  | .debug => "DEBUG"
  | .warning => " WARN"
  | .error => "ERROR"

/-- The style in which a terminal shows the level. -/
def Level.style : Level → Nat
  | .debug => 34
  | .warning => 33
  | .error => 31

/-- A text in a style of a terminal, by its number, and plain text after it. -/
def styled (colored : Bool) (style : Nat) (text : String) : String :=
  if colored then "\x1b[" ++ toString style ++ "m" ++ text ++ "\x1b[0m" else text

/-- A character of a message. -/
def visible (c : Char) : String :=
  let code := c.toNat
  if code = 0x1b ∨ code = 7 ∨ code = 8 ∨ code = 12 ∨ code = 0x7f then
    "\\x" ++ Record.hexPair c
  else if 0x80 ≤ code ∧ code ≤ 0x9f then "\\u\x7b" ++ Record.hexPair c ++ "\x7d"
  else c.toString

/-- A diagnostic: a message and what is said with it, each value under a name. -/
structure Diagnostic where
  level : Level
  message : String
  fields : List (String × String) := []
deriving DecidableEq, Repr, Inhabited

/-- A value under its name, which stands out from it in colors. -/
def fieldText (colored : Bool) (name value : String) : String :=
  " " ++ styled colored 3 name ++ styled colored 2 "=" ++ value

/-- The line of a diagnostic. -/
def Diagnostic.line (colored : Bool) (diagnostic : Diagnostic) : String :=
  styled colored diagnostic.level.style diagnostic.level.text ++ " " ++
    String.join (diagnostic.message.toList.map visible) ++
    String.join (diagnostic.fields.map fun (name, value) => fieldText colored name value) ++
    "\n"

end CanonicalSql.CommandLine
