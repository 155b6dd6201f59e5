import CanonicalSql.Grammar.Basic
import CanonicalSql.Tree.DataType

/-!
# Data types

A type is a base type followed by any number of `ARRAY` and `MULTISET`. Each of these
suffixes counts a level of recursion while the rest of the type is read, as does a field
of a row.
-/
namespace CanonicalSql.Parse

/-- An integer literal, as a length or a precision. -/
def unsigned : Parse Nat := do
  match ← kind with
  | .integer value =>
    if 0 ≤ value then
      advance
      return value.toNat
    else unexpected "unsigned integer"
  | _ => unexpected "unsigned integer"

/-- `(n)`, or nothing. -/
def optionalLength : Parse (Option Nat) := do
  if ← atSign .leftParen then return some (← parenthesized unsigned) else return none

/-- `CHARACTERS` or `OCTETS`, or nothing. -/
def charUnit : Parse (Option CharUnit) := do
  if ← takeWord .CHARACTERS then return some .characters
  else if ← takeWord .OCTETS then return some .octets
  else return none

/-- `(n)`, with a unit or without, or nothing. -/
def charLength : Parse (Option CharLength) := do
  if ← atSign .leftParen then
    parenthesized do return some ⟨← unsigned, ← charUnit⟩
  else return none

/-- The scale after a comma, or nothing. -/
def scale : Parse (Option Nat) := do
  if ← takeSign .comma then return some (← unsigned) else return none

/-- `(p)` or `(p, s)`, or nothing. -/
def precisionScale : Parse (Option Nat × Option Nat) := do
  if ← atSign .leftParen then
    parenthesized do return (some (← unsigned), ← scale)
  else return (none, none)

/-- `TIME ZONE`, as the end of what was said about it. -/
def zoneWords (zone : Bool) : Parse (Option Bool) := do
  expectWord .TIME
  expectWord .ZONE
  return some zone

/-- `WITH TIME ZONE` or `WITHOUT TIME ZONE`, or nothing. -/
def timeZone : Parse (Option Bool) := do
  if ← takeWord .WITH then zoneWords true
  else if ← takeWord .WITHOUT then zoneWords false
  else return none

/-- Takes `LARGE OBJECT` if it follows. -/
def takeLargeObject : Parse Bool := do
  if ← takeWord .LARGE then
    expectWord .OBJECT
    return true
  else return false

/-- The rest of a character type, after the words that name it. -/
def characterType (nationalSet : Bool) : Parse DataType := do
  if ← takeWord .VARYING then
    let length ← charLength
    return if nationalSet then .nationalVarChar length else .varChar length
  else if ← takeLargeObject then
    let length ← charLength
    return if nationalSet then .nationalClob length else .clob length
  else
    let length ← charLength
    return if nationalSet then .nationalChar length else .char length

/-- The rest of a binary type. -/
def binaryType : Parse DataType := do
  if ← takeWord .VARYING then return .varBinary (← optionalLength)
  else if ← takeLargeObject then return .blob (← optionalLength)
  else return .binary (← optionalLength)

/-- Takes `CHAR` or `CHARACTER`, one of which must follow. -/
def expectCharacter : Parse Unit := do
  if ← takeWord .CHAR then return () else expectWord .CHARACTER

/-- A field of a row type. -/
def rowField (type : Parse DataType) : Parse (Name × DataType) := do
  return (← identifier, ← type)

/-- The rest of a reference type. -/
def referenceType : Parse DataType := do
  let target ← parenthesized qualifiedName
  if ← takeWord .SCOPE then return .reference target (some (← qualifiedName))
  else return .reference target none

/-- The rest of a type that begins with the keyword, which has been taken. There is none
if the keyword begins no type. -/
def typeAfter? (type : Parse DataType) : Keyword → Option (Parse DataType)
  | .NUMERIC => some do
    let (precision, scale) ← precisionScale
    return .numeric precision scale
  | .DECIMAL | .DEC => some do
    let (precision, scale) ← precisionScale
    return .decimal precision scale
  | .SMALLINT => some (return .smallInt)
  | .INTEGER | .INT => some (return .integer)
  | .BIGINT => some (return .bigInt)
  | .FLOAT => some (return .float (← optionalLength))
  | .REAL => some (return .real)
  | .DOUBLE => some do
    expectWord .PRECISION
    return .doublePrecision
  | .BINARY => some binaryType
  | .VARBINARY => some (return .varBinary (← optionalLength))
  | .BLOB => some (return .blob (← optionalLength))
  | .CHAR | .CHARACTER => some (characterType false)
  | .VARCHAR => some (return .varChar (← charLength))
  | .CLOB => some (return .clob (← charLength))
  | .NATIONAL => some do
    expectCharacter
    characterType true
  | .NCHAR => some (characterType true)
  | .NCLOB => some (return .nationalClob (← charLength))
  | .BOOLEAN => some (return .boolean)
  | .DATE => some (return .date)
  | .TIME => some (return .time (← optionalLength) (← timeZone))
  | .TIMESTAMP => some (return .timestamp (← optionalLength) (← timeZone))
  | .ROW => some (return .row (← parenthesized (commaSeparated (rowField type))))
  | .REF => some referenceType
  | _ => none

/-- A type without suffixes. A name that begins no other type is a user-defined one. -/
def baseType (type : Parse DataType) : Parse DataType := do
  match ← word? with
  | none => return .named (← qualifiedName)
  | some word =>
    match typeAfter? type word with
    | some rest =>
      advance
      rest
    | none =>
      if word.isReserved then unexpected "data type" else return .named (← qualifiedName)

/-- `[n]`, or nothing. -/
def maxCardinality : Parse (Option Nat) := do
  if ← takeSign .leftBracket then
    let count ← unsigned
    expectSign .rightBracket
    return some count
  else return none

/-- One more suffix, which enters a level. -/
def typeSuffix : DataType × Nat → Parse (Option (DataType × Nat))
  | (element, levels) => do
    if ← takeWord .ARRAY then
      let type := DataType.array element (← maxCardinality)
      -- the level is entered behind the cardinality, so that errors in it come first
      enter
      return some (type, levels + 1)
    else if ← takeWord .MULTISET then
      enter
      return some (.multiset element, levels + 1)
    else return none

/-- A type whose fields are read by `type`. -/
def dataTypeWith (type : Parse DataType) : Parse DataType := do
  let base ← nested (baseType type)
  let (result, levels) ← loop typeSuffix (base, 0)
  leave levels
  return result

/-- A type with at most `bound` levels of rows. -/
def dataTypeWithin : (bound : Nat) → Parse DataType
  | 0 => throw .exhausted
  | bound + 1 => dataTypeWith (dataTypeWithin bound)

/-- A data type. -/
def dataType : Parse DataType := do
  -- each row takes tokens of its own, so that the bound is not used up
  dataTypeWithin ((← get).ahead.length + 2)

end CanonicalSql.Parse
