import CanonicalSql.Record
import CanonicalSql.Tree.Label

/-!
# Records of names and data types
-/
namespace CanonicalSql.Record

/-- A qualified name. -/
def ofName (name : QualifiedName) : Record :=
  .object [("qualifier", texts name.qualifier), ("name", .text name.name)]

/-- The length of a character string. -/
def ofCharLength (length : CharLength) : Record :=
  .object [("length", natural length.length),
    ("unit", optional (fun unit => .text unit.label) length.unit)]

/-- A data type and what it says beyond its form, if there is anything to say. -/
def ofForm (type : DataType) : Option Record → Record
  | some data => tagged type.label data
  | none => .text type.label

mutual

/-- What a data type says beyond its form. -/
def typeData? : DataType → Option Record
  | .numeric precision scale | .decimal precision scale =>
    some (.object [("precision", optional natural precision),
      ("scale", optional natural scale)])
  | .float precision => some (.object [("precision", optional natural precision)])
  | .binary length | .varBinary length | .blob length =>
    some (.object [("length", optional natural length)])
  | .char length | .varChar length | .clob length
  | .nationalChar length | .nationalVarChar length | .nationalClob length =>
    some (optional ofCharLength length)
  | .time precision zone | .timestamp precision zone =>
    some (.object [("precision", optional natural precision),
      ("with_time_zone", optional .truth zone)])
  | .named name => some (ofName name)
  | .row members => some (.list (ofFieldTypes members))
  | .reference target scope =>
    some (.object [("target", ofName target), ("scope", optional ofName scope)])
  | .array element maxCardinality =>
    some (.object [("element", ofForm element (typeData? element)),
      ("max_cardinality", optional natural maxCardinality)])
  | .multiset element => some (ofForm element (typeData? element))
  | .smallInt | .integer | .bigInt | .real | .doublePrecision | .boolean | .date => none

/-- The fields of a row type. -/
def ofFieldTypes : List (Name × DataType) → List Record
  | [] => []
  | (name, type) :: rest =>
    .object [("name", .text name), ("data_type", ofForm type (typeData? type))] ::
      ofFieldTypes rest

end

/-- A data type. -/
def ofDataType (type : DataType) : Record := ofForm type (typeData? type)

end CanonicalSql.Record
