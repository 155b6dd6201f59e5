import CanonicalSql.Canonical.Piece
import CanonicalSql.Tree.DataType

/-!
# Canonical data types

Each type has one spelling, in full words: `CHARACTER VARYING` for `VARCHAR`, `DECIMAL`
for `DEC`.
-/
namespace CanonicalSql.Canonical

open Piece

/-- `(n)`, or nothing. -/
def ofLength : Option Nat → List Piece
  | some length => parenthesized [number length]
  | none => []

/-- `(p)` or `(p, s)`, or nothing. A scale alone is not written. -/
def ofPrecisionScale : Option Nat → Option Nat → List Piece
  | some precision, some scale =>
    parenthesized (commaSeparated [[number precision], [number scale]])
  | some precision, none => parenthesized [number precision]
  | none, _ => []

/-- `(n)` with its unit, or nothing. -/
def ofCharLength : Option CharLength → List Piece
  | some ⟨length, unit⟩ =>
    parenthesized (number length :: match unit with
      | some unit => after [word unit.word]
      | none => [])
  | none => []

/-- The zone of a time, or nothing. -/
def ofTimeZone : Option Bool → List Piece
  | some true => after (words [.WITH, .TIME, .ZONE])
  | some false => after (words [.WITHOUT, .TIME, .ZONE])
  | none => []

/-- The scope of a reference, or nothing. -/
def ofScope : Option QualifiedName → List Piece
  | some scope => after (word .SCOPE :: after (qualified scope))
  | none => []

/-- The greatest size of an array, or nothing. -/
def ofCardinality : Option Nat → List Piece
  | some count => [sign .leftBracket, number count, sign .rightBracket]
  | none => []

mutual

/-- A data type. -/
def ofDataType : DataType → List Piece
  | .numeric precision scale => word .NUMERIC :: ofPrecisionScale precision scale
  | .decimal precision scale => word .DECIMAL :: ofPrecisionScale precision scale
  | .smallInt => [word .SMALLINT]
  | .integer => [word .INTEGER]
  | .bigInt => [word .BIGINT]
  | .float precision => word .FLOAT :: ofLength precision
  | .real => [word .REAL]
  | .doublePrecision => words [.DOUBLE, .PRECISION]
  | .binary length => word .BINARY :: ofLength length
  | .varBinary length => words [.BINARY, .VARYING] ++ ofLength length
  | .blob length => words [.BINARY, .LARGE, .OBJECT] ++ ofLength length
  | .char length => word .CHARACTER :: ofCharLength length
  | .varChar length => words [.CHARACTER, .VARYING] ++ ofCharLength length
  | .clob length => words [.CHARACTER, .LARGE, .OBJECT] ++ ofCharLength length
  | .nationalChar length => words [.NATIONAL, .CHARACTER] ++ ofCharLength length
  | .nationalVarChar length =>
    words [.NATIONAL, .CHARACTER, .VARYING] ++ ofCharLength length
  | .nationalClob length =>
    words [.NATIONAL, .CHARACTER, .LARGE, .OBJECT] ++ ofCharLength length
  | .boolean => [word .BOOLEAN]
  | .date => [word .DATE]
  | .time precision zone => word .TIME :: (ofLength precision ++ ofTimeZone zone)
  | .timestamp precision zone => word .TIMESTAMP :: (ofLength precision ++ ofTimeZone zone)
  | .named name => qualified name
  | .row fields => word .ROW :: parenthesized (commaSeparated (ofFields fields))
  | .reference target scope => word .REF :: (parenthesized (qualified target) ++ ofScope scope)
  | .array element maxCardinality =>
    ofDataType element ++ after (word .ARRAY :: ofCardinality maxCardinality)
  | .multiset element => ofDataType element ++ after [word .MULTISET]

/-- The fields of a row type. -/
def ofFields : List (Name × DataType) → List (List Piece)
  | [] => []
  | (name, type) :: rest => (Piece.name name :: after (ofDataType type)) :: ofFields rest

end

end CanonicalSql.Canonical

namespace CanonicalSql

/-- The canonical text of a data type. -/
def DataType.sql (type : DataType) : String := Piece.render (Canonical.ofDataType type)

end CanonicalSql
