import CanonicalSql.Binary64.Format
import CanonicalSql.Span

/-!
# Records

A tree in plain data: texts, numbers, lists and objects with named fields in a fixed
order. `pretty` writes a record as JSON, one value a line and two spaces for each level.
-/
namespace CanonicalSql

/-- Plain data. Spans are kept apart from other objects. -/
inductive Record
  | null
  | truth (value : Bool)
  | integer (value : Int)
  | float (value : Binary64)
  | text (value : String)
  | place (value : Span)
  | list (members : List Record)
  | object (fields : List (String × Record))
deriving Inhabited

namespace Record

/-- A value that may be absent. -/
def optional {α : Type} (ofValue : α → Record) : Option α → Record
  | some value => ofValue value
  | none => .null

/-- A natural number. -/
def natural (value : Nat) : Record := .integer value

/-- A list of texts. -/
def texts (values : List String) : Record := .list (values.map .text)

/-- The data of one form among several, under the name of the form. -/
def tagged (label : String) (data : Record) : Record := .object [(label, data)]

/-! ## Writing -/

/-- Two hexadecimal digits of a character below 256. -/
def hexPair (c : Char) : String :=
  String.ofList [Nat.digitChar (c.toNat / 16), Nat.digitChar (c.toNat % 16)]

/-- A character of a text in quotes. Quotes, backslashes and control characters are
escaped. -/
def escaped (c : Char) : String :=
  if c = '"' then "\\\""
  else if c = '\\' then "\\\\"
  else if c = '\n' then "\\n"
  else if c = '\r' then "\\r"
  else if c = '\t' then "\\t"
  else if c = '\x08' then "\\b"
  else if c = '\x0c' then "\\f"
  else if c.toNat < 32 then "\\u00" ++ hexPair c
  else String.singleton c

/-- A text in quotes. -/
def quoted (text : String) : String :=
  "\"" ++ String.join (text.toList.map escaped) ++ "\""

/-- The start of a line at a level. -/
def newLine (level : Nat) : String :=
  "\n" ++ String.ofList (List.replicate (2 * level) ' ')

/-- Written values between brackets, one a line. -/
def bracketed (level : Nat) (opening closing : String) : List String → String
  | [] => opening ++ closing
  | values =>
    opening ++ ",".intercalate (values.map fun value => newLine (level + 1) ++ value) ++
      newLine level ++ closing

/-- A field of an object. -/
def field (name value : String) : String := quoted name ++ ": " ++ value

/-- A position at a level. -/
def positionText (level : Nat) (position : Position) : String :=
  bracketed level "\x7b" "\x7d"
    [field "offset" (toString position.offset), field "line" (toString position.line),
     field "column" (toString position.column)]

/-- A span at a level. -/
def spanText (level : Nat) (span : Span) : String :=
  bracketed level "\x7b" "\x7d"
    [field "start" (positionText (level + 1) span.start),
     field "end" (positionText (level + 1) span.stop)]

mutual

/-- A record at a level. -/
def written (level : Nat) : Record → String
  | .null => "null"
  | .truth value => if value then "true" else "false"
  | .integer value => toString value
  | .float value => Binary64.recordFormat.text value
  | .text value => quoted value
  | .place value => spanText level value
  | .list members => bracketed level "[" "]" (writtenAll (level + 1) members)
  | .object fields => bracketed level "\x7b" "\x7d" (writtenFields (level + 1) fields)

/-- The members of a list at a level. -/
def writtenAll (level : Nat) : List Record → List String
  | [] => []
  | member :: rest => written level member :: writtenAll level rest

/-- The fields of an object at a level. -/
def writtenFields (level : Nat) : List (String × Record) → List String
  | [] => []
  | (name, value) :: rest => field name (written level value) :: writtenFields level rest

end

/-- The record as JSON. -/
def pretty (record : Record) : String := written 0 record

end Record

end CanonicalSql
