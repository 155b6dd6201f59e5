import CanonicalSql.Grammar.DataType
import CanonicalSql.Grammar.Query
import CanonicalSql.Tree.Statement

/-!
# Table definitions

`CREATE TABLE` with its columns and constraints. After the type of a column its default,
its collation and its constraints may come in any order.
-/
namespace CanonicalSql.Parse

/-- An expression, read with as many levels as the tokens left may need. -/
def wholeExpression : Parse Expr := do (← Phrases.forState).expression

/-- A query, read with as many levels as the tokens left may need. -/
def wholeQuery : Parse Query := do (← Phrases.forState).query

/-! ## References -/

/-- What happens on a change. -/
def referentialAction : Parse ReferentialAction := do
  match ← word? with
  | some .CASCADE =>
    advance
    return .cascade
  | some .RESTRICT =>
    advance
    return .restrict
  | some .SET =>
    advance
    match ← word? with
    | some .NULL =>
      advance
      return .setNull
    | some .DEFAULT =>
      advance
      return .setDefault
    | _ => unexpected "NULL or DEFAULT"
  | some .NO =>
    advance
    expectWord .ACTION
    return .noAction
  | _ => unexpected "CASCADE, SET NULL, SET DEFAULT, RESTRICT or NO ACTION"

/-- The triggered actions read so far; an action that has not been written is absent. -/
structure Triggers where
  onDelete : Option ReferentialAction := none
  onUpdate : Option ReferentialAction := none

/-- One more triggered action. Each change may be named once. -/
def triggerStep (triggers : Triggers) : Parse (Option Triggers) := do
  if ← takeWord .ON then
    if triggers.onDelete.isNone && (← atWord .DELETE) then
      advance
      return some { triggers with onDelete := some (← referentialAction) }
    else if triggers.onUpdate.isNone && (← atWord .UPDATE) then
      advance
      return some { triggers with onUpdate := some (← referentialAction) }
    else unexpected "DELETE or UPDATE"
  else return none

/-- The option after `MATCH`, or nothing, which means `SIMPLE`. -/
def matchOption : Parse MatchOption := do
  if ← takeWord .MATCH then
    match ← word? with
    | some .FULL =>
      advance
      return .matchFull
    | some .PARTIAL =>
      advance
      return .matchPartial
    | some .SIMPLE =>
      advance
      return .matchSimple
    | _ => unexpected "FULL, PARTIAL or SIMPLE"
  else return .matchSimple

/-- `REFERENCES` with all that belongs to it. -/
def references : Parse References := do
  let start ← here
  expectWord .REFERENCES
  let table ← qualifiedName
  let columns ← optionalNames
  let option ← matchOption
  let triggers ← loop triggerStep {}
  let actions : TriggeredActions :=
    ⟨triggers.onDelete.getD .noAction, triggers.onUpdate.getD .noAction⟩
  return ⟨table, columns, option, actions, ← spanFrom start⟩

/-! ## Constraints -/

/-- `CONSTRAINT name`, or nothing. -/
def constraintName : Parse (Option QualifiedName) := do
  if ← takeWord .CONSTRAINT then return some (← qualifiedName) else return none

/-- What a column constraint demands. -/
def columnConstraintKind : Parse ColumnConstraintKind := do
  match ← word? with
  | some .NOT =>
    advance
    expectWord .NULL
    return .notNull
  | some .UNIQUE =>
    advance
    return .unique
  | some .PRIMARY =>
    advance
    expectWord .KEY
    return .primaryKey
  | some .REFERENCES => return .foreignKey (← references)
  | _ => unexpected "NOT NULL, UNIQUE, PRIMARY KEY or REFERENCES"

/-- A constraint at a column. -/
def columnConstraint : Parse ColumnConstraint := do
  let start ← here
  let name ← constraintName
  let kind ← columnConstraintKind
  return ⟨name, kind, ← spanFrom start⟩

/-- What a table constraint demands. -/
def tableConstraintKind : Parse TableConstraintKind := do
  match ← word? with
  | some .UNIQUE =>
    advance
    return .unique (← names)
  | some .PRIMARY =>
    advance
    expectWord .KEY
    return .primaryKey (← names)
  | some .FOREIGN =>
    advance
    expectWord .KEY
    let columns ← names
    return .foreignKey columns (← references)
  | _ => unexpected "UNIQUE, PRIMARY KEY or FOREIGN KEY"

/-- A constraint at a table. -/
def tableConstraint : Parse TableConstraint := do
  let start ← here
  let name ← constraintName
  let kind ← tableConstraintKind
  return ⟨name, kind, ← spanFrom start⟩

/-! ## Columns -/

/-- Whether a token after `NULL` makes it the beginning of a longer default value. -/
def continuesDefault : Kind → Bool
  | .symbol .plus | .symbol .minus | .symbol .star | .symbol .slash | .symbol .concat
  | .symbol .equal | .symbol .notEqual | .symbol .less | .symbol .lessEqual
  | .symbol .greater | .symbol .greaterEqual
  | .keyword .IS | .keyword .OR | .keyword .AND => true
  | _ => false

/-- The user that a keyword names. -/
def userKind? : Keyword → Option UserKind
  | .CURRENT_USER => some .current
  | .SESSION_USER => some .session
  | .SYSTEM_USER => some .system
  | _ => none

/-- The value after `DEFAULT`. `NULL` alone is the null default, and within a longer value
an ordinary expression. -/
def columnDefault : Parse ColumnDefault := do
  match (← word?).bind userKind? with
  | some user =>
    advance
    return .user user
  | none =>
    if ← atWordBefore .NULL (fun next => !continuesDefault next) then
      advance
      return .null
    else return .expr (← wholeExpression)

/-- One more clause of a column. A default and a collation may be given once. -/
def columnClause (column : ColumnDef) : Parse (Option ColumnDef) := do
  match ← word? with
  | some .DEFAULT =>
    if column.default.isSome then unexpected "at most one DEFAULT clause"
    else
      advance
      return some { column with default := some (← columnDefault) }
  | some .COLLATE =>
    if column.collation.isSome then unexpected "at most one COLLATE clause"
    else
      advance
      return some { column with collation := some (← qualifiedName) }
  | some .CONSTRAINT | some .NOT | some .UNIQUE | some .PRIMARY | some .REFERENCES =>
    return some { column with constraints := column.constraints ++ [← columnConstraint] }
  | _ => return none

/-- The definition of a column. -/
def columnDef : Parse ColumnDef := do
  let start ← here
  let name ← identifier
  let type ← dataType
  let column ← loop columnClause { name, dataType := type }
  return { column with span := ← spanFrom start }

/-- An element of a table definition. -/
def tableElement : Parse TableElement := do
  match ← word? with
  | some .CONSTRAINT | some .UNIQUE | some .PRIMARY | some .FOREIGN =>
    return .constraint (← tableConstraint)
  | _ => return .column (← columnDef)

/-! ## Tables -/

/-- The scope written before `TEMPORARY`, or nothing. -/
def temporaryScope : Parse (Option Temporary) := do
  if ← takeWord .GLOBAL then return some .globalTable
  else if ← takeWord .LOCAL then return some .localTable
  else return none

/-- Takes `TEMPORARY` or `TEMP` if it follows. -/
def takeTemporary : Parse Bool := do
  if ← takeWord .TEMPORARY then return true else takeWord .TEMP

/-- `[GLOBAL | LOCAL] TEMPORARY`, or nothing. Without a scope a table is local. -/
def temporary : Parse (Option Temporary) := do
  let scope ← temporaryScope
  if ← takeTemporary then return some (scope.getD .localTable)
  -- a scope cannot stand alone
  else if scope.isSome then unexpected "TEMPORARY"
  else return none

/-- `DELETE` or `PRESERVE`. -/
def commitPolicy : Parse OnCommit := do
  if ← takeWord .DELETE then return .deleteRows
  else if ← takeWord .PRESERVE then return .preserveRows
  else unexpected "DELETE or PRESERVE"

/-- `ON COMMIT … ROWS`, or nothing. -/
def onCommit : Parse (Option OnCommit) := do
  if ← takeWord .ON then
    expectWord .COMMIT
    let policy ← commitPolicy
    expectWord .ROWS
    return some policy
  else return none

/-- `CREATE TABLE`. -/
def create : Parse Create := do
  let start ← here
  expectWord .CREATE
  let temporary ← temporary
  expectWord .TABLE
  let name ← qualifiedName
  let elements ← parenthesized (commaSeparated tableElement)
  let policy ← onCommit
  return .ofElements name temporary policy elements (← spanFrom start)

end CanonicalSql.Parse
