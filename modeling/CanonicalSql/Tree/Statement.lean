import CanonicalSql.Tree.DataType
import CanonicalSql.Tree.Expr

/-!
# Statements

Table definitions with their columns and constraints, insertions, deletions, and queries
that stand on their own.
-/
namespace CanonicalSql

/-- What happens on changes of the row referred to. -/
structure TriggeredActions where
  onDelete : ReferentialAction := .noAction
  onUpdate : ReferentialAction := .noAction
deriving DecidableEq, Repr, Inhabited

/-- `REFERENCES table (columns) …`. -/
structure References where
  table : QualifiedName
  columns : List Name
  matchOption : MatchOption
  actions : TriggeredActions
  span : Span
deriving DecidableEq, Repr, Inhabited

/-- The default value of a column. -/
inductive ColumnDefault
  | user (user : UserKind)
  | null
  | expr (value : Expr)

/-- What a column constraint demands. -/
inductive ColumnConstraintKind
  | notNull
  | unique
  | primaryKey
  | foreignKey (references : References)
deriving DecidableEq, Repr, Inhabited

/-- `[CONSTRAINT name] …` at a column. -/
structure ColumnConstraint where
  name : Option QualifiedName
  kind : ColumnConstraintKind
  span : Span
deriving DecidableEq, Repr, Inhabited

/-- The definition of a column. -/
structure ColumnDef where
  name : Name
  dataType : DataType
  default : Option ColumnDefault := none
  constraints : List ColumnConstraint := []
  collation : Option QualifiedName := none
  span : Span := {}

/-- Whether a constraint forbids null values. -/
def ColumnDef.isNotNull (column : ColumnDef) : Bool :=
  column.constraints.any fun constraint => constraint.kind = .notNull

/-- Whether a constraint makes the column the primary key. -/
def ColumnDef.isPrimaryKey (column : ColumnDef) : Bool :=
  column.constraints.any fun constraint => constraint.kind = .primaryKey

/-- What a table constraint demands. -/
inductive TableConstraintKind
  | unique (columns : List Name)
  | primaryKey (columns : List Name)
  | foreignKey (columns : List Name) (references : References)
deriving DecidableEq, Repr, Inhabited

/-- `[CONSTRAINT name] …` at a table. -/
structure TableConstraint where
  name : Option QualifiedName
  kind : TableConstraintKind
  span : Span
deriving DecidableEq, Repr, Inhabited

/-- A member of the list in a table definition. -/
inductive TableElement
  | column (column : ColumnDef)
  | constraint (constraint : TableConstraint)

/-- `CREATE TABLE`. -/
structure Create where
  name : QualifiedName
  temporary : Option Temporary
  onCommit : Option OnCommit
  columns : List ColumnDef
  constraints : List TableConstraint
  span : Span

/-- The definition made of a list of elements, its columns and its constraints apart. A
temporary table whose rows are not spoken of loses them at a commit. -/
def Create.ofElements (name : QualifiedName) (temporary : Option Temporary)
    (onCommit : Option OnCommit) (elements : List TableElement) (span : Span) : Create where
  name
  temporary
  onCommit := if temporary.isSome && onCommit.isNone then some .deleteRows else onCommit
  columns := elements.filterMap fun
    | .column column => some column
    | .constraint _ => none
  constraints := elements.filterMap fun
    | .column _ => none
    | .constraint constraint => some constraint
  span

/-- Where the rows of an insertion come from. -/
inductive InsertSource
  | defaultValues
  | query (query : Query)

/-- `INSERT INTO`. Without columns all columns are meant. -/
structure Insert where
  table : QualifiedName
  columns : List Name
  overriding : Option Overriding
  source : InsertSource
  span : Span

/-- `DELETE FROM`. -/
structure Delete where
  table : QualifiedName
  /-- Whether tables that inherit from the table are left alone. -/
  only : Bool
  selection : Option Expr
  span : Span

/-- A statement. -/
inductive Statement
  | create (create : Create)
  | insert (insert : Insert)
  | delete (delete : Delete)
  | select (query : Query) (span : Span)

/-- The stretch of text of a statement. -/
def Statement.span : Statement → Span
  | .create definition => definition.span
  | .insert insertion => insertion.span
  | .delete deletion => deletion.span
  | .select _ span => span

/-- The keyword that stands for all statements of the kind. -/
def Statement.word : Statement → Keyword
  | .create _ => .CREATE
  | .insert _ => .INSERT
  | .delete _ => .DELETE
  | .select .. => .SELECT

end CanonicalSql
