import CanonicalSql.Canonical.DataType
import CanonicalSql.Canonical.Expr
import CanonicalSql.Tree.Statement

/-!
# Canonical statements

The text of a whole statement. What is left out of a statement and has a meaning all the
same, such as the policy of a foreign key, is written.
-/
namespace CanonicalSql.Canonical

open Piece

/-- A reference to another table. -/
def ofReferences (references : References) : List Piece :=
  word .REFERENCES :: after (qualified references.table) ++
    when (!references.columns.isEmpty) (after (names references.columns)) ++
    after (words [.MATCH, references.matchOption.word]) ++
    after (words (.ON :: .DELETE :: references.actions.onDelete.words)) ++
    after (words (.ON :: .UPDATE :: references.actions.onUpdate.words))

/-- The name of a constraint, with a space after it. -/
def ofConstraintName (name : Option QualifiedName) : List Piece :=
  optional (fun name => word .CONSTRAINT :: after (qualified name) ++ [.space]) name

/-- What a column constraint demands. -/
def ofColumnConstraintKind : ColumnConstraintKind → List Piece
  | .notNull => words [.NOT, .NULL]
  | .unique => [word .UNIQUE]
  | .primaryKey => words [.PRIMARY, .KEY]
  | .foreignKey references => ofReferences references

/-- A constraint at a column. -/
def ofColumnConstraint (constraint : ColumnConstraint) : List Piece :=
  ofConstraintName constraint.name ++ ofColumnConstraintKind constraint.kind

/-- What a table constraint demands. -/
def ofTableConstraintKind : TableConstraintKind → List Piece
  | .unique columns => word .UNIQUE :: after (names columns)
  | .primaryKey columns => words [.PRIMARY, .KEY] ++ after (names columns)
  | .foreignKey columns references =>
    words [.FOREIGN, .KEY] ++ after (names columns) ++ after (ofReferences references)

/-- A constraint at a table. -/
def ofTableConstraint (constraint : TableConstraint) : List Piece :=
  ofConstraintName constraint.name ++ ofTableConstraintKind constraint.kind

/-- A default value. The expression `NULL` stands in parentheses, which tells it from the
null default. -/
def ofColumnDefault : ColumnDefault → List Piece
  | .user user => [word user.word]
  | .null => [word .NULL]
  | .expr (.null _) => parenthesized [word .NULL]
  | .expr value => ofExpr value

/-- A column definition. -/
def ofColumnDef (column : ColumnDef) : List Piece :=
  Piece.name column.name :: after (ofDataType column.dataType) ++
    optional (fun name => after [word .COLLATE] ++ after (qualified name)) column.collation ++
    optional (fun value => after [word .DEFAULT] ++ after (ofColumnDefault value))
      column.default ++
    column.constraints.flatMap fun constraint => after (ofColumnConstraint constraint)

/-- A table definition. Its constraints follow its columns. -/
def ofCreate (create : Create) : List Piece :=
  words (.CREATE :: (create.temporary.map Temporary.words).getD [] ++ [.TABLE]) ++
    after (qualified create.name) ++
    after (parenthesized
      (commaSeparated (create.columns.map ofColumnDef) ++
        create.constraints.flatMap fun constraint =>
          sign .comma :: after (ofTableConstraint constraint))) ++
    optional (fun policy => after (words policy.words)) create.onCommit

/-- An insertion. -/
def ofInsert (insert : Insert) : List Piece :=
  words [.INSERT, .INTO] ++ after (qualified insert.table) ++
    when (!insert.columns.isEmpty) (after (names insert.columns)) ++
    optional (fun overriding => after (words overriding.words)) insert.overriding ++
    match insert.source with
    | .defaultValues => after (words [.DEFAULT, .VALUES])
    | .query query => after (ofQuery query)

/-- A deletion. -/
def ofDelete (delete : Delete) : List Piece :=
  words (.DELETE :: .FROM :: if delete.only then [.ONLY] else []) ++
    after (qualified delete.table) ++
    optional (fun selection => after [word .WHERE] ++ after (ofExpr selection))
      delete.selection

/-- A statement. -/
def ofStatement : Statement → List Piece
  | .create create => ofCreate create
  | .insert insert => ofInsert insert
  | .delete delete => ofDelete delete
  | .select query _ => ofQuery query

end CanonicalSql.Canonical

namespace CanonicalSql

/-- The canonical text of a statement. -/
def Statement.sql (statement : Statement) : String :=
  Piece.render (Canonical.ofStatement statement)

end CanonicalSql
