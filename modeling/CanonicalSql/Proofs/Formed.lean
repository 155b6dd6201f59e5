import CanonicalSql.Token.Scan
import CanonicalSql.Tree.Statement

/-!
# Well-formed trees

The types of the trees allow more than the grammar can build. A tree is well formed if
each node stands where the grammar puts nodes of its sort: a named expression only among
the targets of a projection, grouping sets only in `GROUP BY`, a table only among sources
or as an operand of a query. Everything that a literal or a name holds can be written, and
no list that the grammar reads as one or more items is empty.

Expressions and relations are judged for the role that they play where they stand, so that
one predicate says of every part of a tree what may be there.
-/
namespace CanonicalSql

/-- A name that can be written: none is empty. -/
def Name.Proper (name : Name) : Prop := name ≠ ""

/-- A qualified name whose parts can all be written. -/
def QualifiedName.Proper (name : QualifiedName) : Prop := ∀ part ∈ name.parts, part.Proper

theorem QualifiedName.ofParts_proper {parts : List Name}
    (proper : parts ≠ [] ∧ ∀ part ∈ parts, part.Proper) :
    (QualifiedName.ofParts parts).Proper := by
  rw [QualifiedName.Proper, QualifiedName.parts_ofParts proper.1]
  exact proper.2

/-- A number that an integer literal can write. -/
def WritableNat (value : Nat) : Prop := value ≤ Scan.maxInteger

/-- What a literal of the kind may hold: binary digits, hexadecimal digits, or any
characters. -/
def StringKind.Holds (kind : StringKind) (value : String) : Prop :=
  match kind with
  | .bit => ∀ c ∈ value.toList, c = '0' ∨ c = '1'
  | .hex => ∀ c ∈ value.toList, Scan.isHexDigit c = true
  | .char | .national => True

/-! ## Data types -/

namespace DataType

/-- A scale stands only beside a precision. -/
def ProperScale (precision scale : Option Nat) : Prop :=
  (∀ value ∈ precision, WritableNat value) ∧ (∀ value ∈ scale, WritableNat value) ∧
    (scale.isSome → precision.isSome)

/-- A length that can be written, or none. -/
def ProperLength (length : Option Nat) : Prop := ∀ value ∈ length, WritableNat value

/-- A length of characters that can be written, or none. -/
def ProperCharLength (length : Option CharLength) : Prop :=
  ∀ value ∈ length, WritableNat value.length

mutual

/-- A data type that the grammar can build. -/
def Formed : DataType → Prop
  | .numeric precision scale | .decimal precision scale => ProperScale precision scale
  | .smallInt | .integer | .bigInt | .real | .doublePrecision | .boolean | .date => True
  | .float length | .binary length | .varBinary length | .blob length
  | .time length _ | .timestamp length _ => ProperLength length
  | .char length | .varChar length | .clob length | .nationalChar length
  | .nationalVarChar length | .nationalClob length => ProperCharLength length
  | .named name => name.Proper
  | .row fields => fields ≠ [] ∧ FieldsFormed fields
  | .reference target scope => target.Proper ∧ ∀ name ∈ scope, name.Proper
  | .array element maxCardinality => element.Formed ∧ ProperLength maxCardinality
  | .multiset element => element.Formed

/-- Fields of a row type that the grammar can build. -/
def FieldsFormed : List (Name × DataType) → Prop
  | [] => True
  | (name, type) :: rest => name.Proper ∧ type.Formed ∧ FieldsFormed rest

end

theorem fieldsFormed_iff {fields : List (Name × DataType)} :
    FieldsFormed fields ↔ ∀ field ∈ fields, field.1.Proper ∧ field.2.Formed := by
  induction fields with
  | nil => simp [FieldsFormed]
  | cons field rest ih => simp [FieldsFormed, ih, and_assoc]

end DataType

/-! ## Expressions, relations and queries -/

/-- What an expression is where it stands. -/
inductive Expr.Role
  /-- A value, wherever the grammar asks for an expression. -/
  | value
  /-- A target of a projection: a value, under a name or not. -/
  | target
  /-- An element of `GROUP BY` or of `GROUPING SETS`. -/
  | grouping
deriving DecidableEq

/-- What a relation is where it stands. -/
inductive Rel.Role
  /-- An item of `FROM`, an operand of a join, or what an alias names. -/
  | source
  /-- The body of a query, or an operand of a set operation. -/
  | operand
  /-- The rows after `IN`. -/
  | members
deriving DecidableEq

/-- Whether the query is nothing but another query in parentheses. -/
def Query.Wraps (query : Query) : Prop :=
  query.isBare = true ∧ ∃ inner, query.body = .query inner

/-- A join has a condition unless it is natural or combines all rows. -/
def JoinCondition.Suits (kind : JoinKind) (natural : Bool) : JoinCondition → Prop
  | .absent => natural = true ∨ kind = .inner
  | .onExpr _ | .usingColumns _ => natural = false

mutual

/-- An expression that the grammar can build in the role. -/
def Expr.Formed (role : Expr.Role) : Expr → Prop
  | .asterisk qualifier _ => role ≠ .grouping ∧ ∀ name ∈ qualifier, name.Proper
  | .integer value _ => role ≠ .grouping ∧ 0 ≤ value ∧ value ≤ Scan.maxInteger
  | .float value _ =>
    role ≠ .grouping ∧ value.isFinite = true ∧ value.isNegative = false
  | .string value kind _ => role ≠ .grouping ∧ kind.Holds value
  | .truth .. | .null _ => role ≠ .grouping
  | .column name _ => role ≠ .grouping ∧ name.Proper
  | .named name expr _ => role = .target ∧ name.Proper ∧ expr.Formed .value
  | .unary _ operand _ => role ≠ .grouping ∧ operand.Formed .value
  | .binary left _ right _ =>
    role ≠ .grouping ∧ left.Formed .value ∧ right.Formed .value
  | .collate expr collation _ =>
    role ≠ .grouping ∧ expr.Formed .value ∧ collation.Proper
  | .isTruth expr _ _ | .isNull expr _ => role ≠ .grouping ∧ expr.Formed .value
  | .between expr low high _ _ =>
    role ≠ .grouping ∧ expr.Formed .value ∧ low.Formed .value ∧ high.Formed .value
  | .within expr rows _ =>
    role ≠ .grouping ∧ expr.Formed .value ∧ rows.Formed .members
  | .like expr pattern escape _ =>
    role ≠ .grouping ∧ expr.Formed .value ∧ pattern.Formed .value ∧
      Expr.OptionFormed escape
  | .existence query _ | .uniqueness query _ => role ≠ .grouping ∧ query.Formed
  | .row values _ => role ≠ .grouping ∧ Expr.AllFormed .value values
  | .subquery query _ => role ≠ .grouping ∧ query.Formed ∧ ¬ query.Wraps
  | .sortKey _ => False
  | .groupingSet set => role = .grouping ∧ set.Formed
  | .groupingSets sets _ => role = .grouping ∧ sets ≠ [] ∧ Expr.AllFormed .grouping sets
  | .rollup sets _ | .cube sets _ =>
    role = .grouping ∧ sets ≠ [] ∧ GroupingSet.AllFormed sets
  | .aggregate _ _ argument filter _ =>
    role ≠ .grouping ∧ argument.Formed .value ∧ Expr.OptionFormed filter

/-- Expressions that all have the role. -/
def Expr.AllFormed (role : Expr.Role) : List Expr → Prop
  | [] => True
  | expr :: rest => expr.Formed role ∧ Expr.AllFormed role rest

/-- A value, if it is there. -/
def Expr.OptionFormed : Option Expr → Prop
  | none => True
  | some expr => expr.Formed .value

/-- A sort key that the grammar can build. -/
def SortKey.Formed : SortKey → Prop
  | ⟨expr, _, _, _⟩ => expr.Formed .value

/-- Sort keys that the grammar can build. -/
def SortKey.AllFormed : List SortKey → Prop
  | [] => True
  | key :: rest => key.Formed ∧ SortKey.AllFormed rest

/-- A grouping set that the grammar can build. It may be empty. -/
def GroupingSet.Formed : GroupingSet → Prop
  | ⟨columns, _⟩ => Expr.AllFormed .value columns

/-- Grouping sets that the grammar can build. -/
def GroupingSet.AllFormed : List GroupingSet → Prop
  | [] => True
  | set :: rest => set.Formed ∧ GroupingSet.AllFormed rest

/-- A relation that the grammar can build in the role. A query within a query or a set
operation has a clause of its own, without which the parentheses would have been taken
away; elsewhere it may lack one, but then it is no mere pair of parentheses. -/
def Rel.Formed (role : Rel.Role) : Rel → Prop
  | .join kind natural condition left right _ =>
    role = .source ∧ condition.Suits kind natural ∧ condition.Formed ∧
      left.Formed .source ∧ right.Formed .source
  | .table name _ => role ≠ .members ∧ name.Proper
  | .named name columns relation _ =>
    role = .source ∧ name.Proper ∧ (∀ column ∈ columns, column.Proper) ∧
      relation.Formed .source
  | .select select => role = .operand ∧ select.Formed
  | .values rows _ => role ≠ .source ∧ rows ≠ [] ∧ Expr.AllFormed .value rows
  | .setOp _ _ left right _ =>
    role = .operand ∧ left.Formed .operand ∧ right.Formed .operand
  | .query query =>
    query.Formed ∧ if role = .operand then query.isBare = false else ¬ query.Wraps

/-- Sources that the grammar can build. -/
def Rel.AllFormed : List Rel → Prop
  | [] => True
  | rel :: rest => rel.Formed .source ∧ Rel.AllFormed rest

/-- A join condition that the grammar can build. -/
def JoinCondition.Formed : JoinCondition → Prop
  | .absent => True
  | .onExpr condition => condition.Formed .value
  | .usingColumns columns => columns ≠ [] ∧ ∀ column ∈ columns, column.Proper

/-- A frame bound that the grammar can build. The current row has no distance. -/
def FrameBound.Formed : FrameBound → Prop
  | ⟨kind, value, _⟩ => Expr.OptionFormed value ∧ (kind = .currentRow → value = none)

/-- The second bound of a frame, if it is there. -/
def FrameBound.OptionFormed : Option FrameBound → Prop
  | none => True
  | some bound => bound.Formed

/-- A window frame that the grammar can build. -/
def Frame.Formed : Frame → Prop
  | ⟨_, start, stop, _, _⟩ => start.Formed ∧ FrameBound.OptionFormed stop

/-- The frame of a window, if it is there. -/
def Frame.OptionFormed : Option Frame → Prop
  | none => True
  | some frame => frame.Formed

/-- The body of a window definition that the grammar can build. -/
def WindowSpec.Formed : WindowSpec → Prop
  | ⟨existing, partitionBy, orderBy, frame, _⟩ =>
    (∀ name ∈ existing, name.Proper) ∧ Expr.AllFormed .value partitionBy ∧
      SortKey.AllFormed orderBy ∧ Frame.OptionFormed frame

/-- Window definitions that the grammar can build. -/
def WindowDef.AllFormed : List WindowDef → Prop
  | [] => True
  | ⟨name, spec, _⟩ :: rest => name.Proper ∧ spec.Formed ∧ WindowDef.AllFormed rest

/-- A projection that the grammar can build. -/
def Select.Formed : Select → Prop
  | ⟨_, targets, sources, selection, groupBy, having, windows, _⟩ =>
    targets ≠ [] ∧ Expr.AllFormed .target targets ∧ Rel.AllFormed sources ∧
      Expr.OptionFormed selection ∧ GroupClause.OptionFormed groupBy ∧
      Expr.OptionFormed having ∧ WindowDef.AllFormed windows

/-- A `GROUP BY` clause that the grammar can build, if it is there. -/
def GroupClause.OptionFormed : Option GroupClause → Prop
  | none => True
  | some ⟨_, groupings, _⟩ => groupings ≠ [] ∧ Expr.AllFormed .grouping groupings

/-- Common table expressions that the grammar can build. -/
def Cte.AllFormed : List Cte → Prop
  | [] => True
  | ⟨name, columns, query, _⟩ :: rest =>
    name.Proper ∧ (∀ column ∈ columns, column.Proper) ∧ query.Formed ∧
      Cte.AllFormed rest

/-- A `WITH` clause that the grammar can build, if it is there. -/
def WithClause.OptionFormed : Option WithClause → Prop
  | none => True
  | some ⟨_, ctes, _⟩ => ctes ≠ [] ∧ Cte.AllFormed ctes

/-- A `FETCH` clause that the grammar can build, if it is there. A percentage needs a
count. -/
def Fetch.OptionFormed : Option Fetch → Prop
  | none => True
  | some ⟨_, count, percent, _, _⟩ =>
    Expr.OptionFormed count ∧ (percent = true → count.isSome)

/-- A query that the grammar can build. -/
def Query.Formed : Query → Prop
  | ⟨withClause, body, orderBy, offset, fetch, _⟩ =>
    WithClause.OptionFormed withClause ∧ body.Formed .operand ∧
      SortKey.AllFormed orderBy ∧ Expr.OptionFormed offset ∧ Fetch.OptionFormed fetch

end

theorem Query.formed_iff {query : Query} :
    query.Formed ↔
      WithClause.OptionFormed query.withClause ∧ query.body.Formed .operand ∧
        SortKey.AllFormed query.orderBy ∧ Expr.OptionFormed query.offset ∧
        Fetch.OptionFormed query.fetch := by
  cases query
  simp only [Query.Formed]

/-! Lists of well-formed parts are lists whose members are well formed. -/

theorem Expr.allFormed_iff {role : Expr.Role} {exprs : List Expr} :
    Expr.AllFormed role exprs ↔ ∀ expr ∈ exprs, expr.Formed role := by
  induction exprs with
  | nil => simp [Expr.AllFormed]
  | cons expr rest ih => simp [Expr.AllFormed, ih]

theorem SortKey.allFormed_iff {keys : List SortKey} :
    SortKey.AllFormed keys ↔ ∀ key ∈ keys, key.Formed := by
  induction keys with
  | nil => simp [SortKey.AllFormed]
  | cons key rest ih => simp [SortKey.AllFormed, ih]

theorem GroupingSet.allFormed_iff {sets : List GroupingSet} :
    GroupingSet.AllFormed sets ↔ ∀ set ∈ sets, set.Formed := by
  induction sets with
  | nil => simp [GroupingSet.AllFormed]
  | cons set rest ih => simp [GroupingSet.AllFormed, ih]

theorem Rel.allFormed_iff {rels : List Rel} :
    Rel.AllFormed rels ↔ ∀ rel ∈ rels, rel.Formed .source := by
  induction rels with
  | nil => simp [Rel.AllFormed]
  | cons rel rest ih => simp [Rel.AllFormed, ih]

theorem WindowDef.allFormed_iff {windows : List WindowDef} :
    WindowDef.AllFormed windows ↔
      ∀ window ∈ windows, window.name.Proper ∧ window.spec.Formed := by
  induction windows with
  | nil => simp [WindowDef.AllFormed]
  | cons window rest ih =>
    obtain ⟨name, spec, span⟩ := window
    simp [WindowDef.AllFormed, ih, and_assoc]

theorem Cte.allFormed_iff {ctes : List Cte} :
    Cte.AllFormed ctes ↔
      ∀ cte ∈ ctes, cte.name.Proper ∧ (∀ column ∈ cte.columns, column.Proper) ∧
        cte.query.Formed := by
  induction ctes with
  | nil => simp [Cte.AllFormed]
  | cons cte rest ih =>
    obtain ⟨name, columns, query, span⟩ := cte
    simp [Cte.AllFormed, ih, and_assoc]

/-! ## Statements -/

/-- A reference to another table that the grammar can build. -/
def References.Formed (references : References) : Prop :=
  references.table.Proper ∧ ∀ column ∈ references.columns, column.Proper

/-- A default value that the grammar can build. -/
def ColumnDefault.Formed : ColumnDefault → Prop
  | .user _ | .null => True
  | .expr value => value.Formed .value

/-- A constraint at a column that the grammar can build. -/
def ColumnConstraint.Formed (constraint : ColumnConstraint) : Prop :=
  (∀ name ∈ constraint.name, name.Proper) ∧
    match constraint.kind with
    | .notNull | .unique | .primaryKey => True
    | .foreignKey references => references.Formed

/-- A column definition that the grammar can build. -/
structure ColumnDef.Formed (column : ColumnDef) : Prop where
  name : column.name.Proper
  dataType : column.dataType.Formed
  default : ∀ value ∈ column.default, value.Formed
  constraints : ∀ constraint ∈ column.constraints, constraint.Formed
  collation : ∀ name ∈ column.collation, name.Proper

/-- Columns that a constraint lists: one at least. -/
def ProperColumns (columns : List Name) : Prop :=
  columns ≠ [] ∧ ∀ column ∈ columns, column.Proper

/-- A constraint at a table that the grammar can build. -/
def TableConstraint.Formed (constraint : TableConstraint) : Prop :=
  (∀ name ∈ constraint.name, name.Proper) ∧
    match constraint.kind with
    | .unique columns | .primaryKey columns => ProperColumns columns
    | .foreignKey columns references => ProperColumns columns ∧ references.Formed

/-- A table definition that the grammar can build. A temporary table always says what
becomes of its rows at a commit. -/
structure Create.Formed (create : Create) : Prop where
  name : create.name.Proper
  columns : ∀ column ∈ create.columns, column.Formed
  constraints : ∀ constraint ∈ create.constraints, constraint.Formed
  nonempty : create.columns ≠ [] ∨ create.constraints ≠ []
  onCommit : create.temporary.isSome → create.onCommit.isSome

/-- A statement that the grammar can build. -/
def Statement.Formed : Statement → Prop
  | .create definition => definition.Formed
  | .insert insertion =>
    insertion.table.Proper ∧ (∀ column ∈ insertion.columns, column.Proper) ∧
      match insertion.source with
      | .defaultValues => True
      | .query rows => rows.Formed
  | .delete deletion => deletion.table.Proper ∧ Expr.OptionFormed deletion.selection
  | .select query _ => query.Formed

end CanonicalSql
