import CanonicalSql.Record.Expr

/-!
# Records of statements
-/
namespace CanonicalSql.Record

/-- A reference to another table. -/
def ofReferences (references : References) : Record :=
  .object [("table", ofName references.table), ("columns", texts references.columns),
    ("match_option", .text references.matchOption.label),
    ("actions", .object [("on_delete", .text references.actions.onDelete.label),
      ("on_update", .text references.actions.onUpdate.label)]),
    ("span", .place references.span)]

/-- What a column constraint demands. -/
def ofColumnConstraintKind : ColumnConstraintKind → Record
  | .notNull => .text "NotNull"
  | .unique => .text "Unique"
  | .primaryKey => .text "PrimaryKey"
  | .foreignKey references => tagged "References" (ofReferences references)

/-- A constraint at a column. -/
def ofColumnConstraint (constraint : ColumnConstraint) : Record :=
  .object [("name", optional ofName constraint.name),
    ("kind", ofColumnConstraintKind constraint.kind), ("span", .place constraint.span)]

/-- What a table constraint demands. -/
def ofTableConstraintKind : TableConstraintKind → Record
  | .unique columns => tagged "Unique" (texts columns)
  | .primaryKey columns => tagged "PrimaryKey" (texts columns)
  | .foreignKey columns references =>
    tagged "ForeignKey"
      (.object [("columns", texts columns), ("references", ofReferences references)])

/-- A constraint at a table. -/
def ofTableConstraint (constraint : TableConstraint) : Record :=
  .object [("name", optional ofName constraint.name),
    ("kind", ofTableConstraintKind constraint.kind), ("span", .place constraint.span)]

/-- A default value. -/
def ofColumnDefault : ColumnDefault → Record
  | .user user => tagged "User" (.text user.label)
  | .null => .text "Null"
  | .expr value => tagged "Expression" (ofExpr value)

/-- A column definition. -/
def ofColumnDef (column : ColumnDef) : Record :=
  .object [("name", .text column.name), ("data_type", ofDataType column.dataType),
    ("default", optional ofColumnDefault column.default),
    ("constraints", .list (column.constraints.map ofColumnConstraint)),
    ("collation", optional ofName column.collation), ("span", .place column.span)]

/-- A table definition. -/
def ofCreate (create : Create) : Record :=
  .object [("name", ofName create.name),
    ("temporary", optional (fun temporary => .text temporary.label) create.temporary),
    ("on_commit", optional (fun onCommit => .text onCommit.label) create.onCommit),
    ("columns", .list (create.columns.map ofColumnDef)),
    ("constraints", .list (create.constraints.map ofTableConstraint)),
    ("span", .place create.span)]

/-- Where the rows of an insertion come from. -/
def ofInsertSource : InsertSource → Record
  | .defaultValues => .text "DefaultValues"
  | .query query => tagged "Query" (ofQuery query)

/-- An insertion. -/
def ofInsert (insert : Insert) : Record :=
  .object [("table", ofName insert.table), ("columns", texts insert.columns),
    ("overriding", optional (fun overriding => .text overriding.label) insert.overriding),
    ("source", ofInsertSource insert.source), ("span", .place insert.span)]

/-- A deletion. -/
def ofDelete (delete : Delete) : Record :=
  .object [("table", ofName delete.table), ("only", .truth delete.only),
    ("selection", optional ofExpr delete.selection), ("span", .place delete.span)]

/-- The data of a statement. -/
def statementData : Statement → Record
  | .create create => ofCreate create
  | .insert insert => ofInsert insert
  | .delete delete => ofDelete delete
  | .select query span => .object [("query", ofQuery query), ("span", .place span)]

/-- A statement. -/
def ofStatement (statement : Statement) : Record :=
  tagged statement.label (statementData statement)

end CanonicalSql.Record
