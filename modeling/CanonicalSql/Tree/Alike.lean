import CanonicalSql.Tree.Statement

/-!
# Trees alike

Two trees are alike if they have the same shape and the same values, wherever they were
read from: the comparison looks at every part of a tree except its spans. Numbers are
compared by their bits, so that a tree is alike to itself whatever numbers it holds.
-/
namespace CanonicalSql

mutual

/-- Whether two expressions differ in their spans only. -/
def Expr.alike : Expr → Expr → Bool
  | .asterisk qualifier _, other =>
    match other with
    | .asterisk qualifier' _ => qualifier = qualifier'
    | _ => false
  | .integer value _, other =>
    match other with
    | .integer value' _ => value = value'
    | _ => false
  | .float value _, other =>
    match other with
    | .float value' _ => value = value'
    | _ => false
  | .string value kind _, other =>
    match other with
    | .string value' kind' _ => value = value' && kind = kind'
    | _ => false
  | .truth value _, other =>
    match other with
    | .truth value' _ => value = value'
    | _ => false
  | .null _, other =>
    match other with
    | .null _ => true
    | _ => false
  | .column name _, other =>
    match other with
    | .column name' _ => name = name'
    | _ => false
  | .named name expr _, other =>
    match other with
    | .named name' expr' _ => name = name' && expr.alike expr'
    | _ => false
  | .unary op operand _, other =>
    match other with
    | .unary op' operand' _ => op = op' && operand.alike operand'
    | _ => false
  | .binary left op right _, other =>
    match other with
    | .binary left' op' right' _ => left.alike left' && op = op' && right.alike right'
    | _ => false
  | .collate expr collation _, other =>
    match other with
    | .collate expr' collation' _ => expr.alike expr' && collation = collation'
    | _ => false
  | .isTruth expr value _, other =>
    match other with
    | .isTruth expr' value' _ => expr.alike expr' && value = value'
    | _ => false
  | .isNull expr _, other =>
    match other with
    | .isNull expr' _ => expr.alike expr'
    | _ => false
  | .between expr low high symmetric _, other =>
    match other with
    | .between expr' low' high' symmetric' _ =>
      expr.alike expr' && low.alike low' && high.alike high' && symmetric = symmetric'
    | _ => false
  | .within expr rows _, other =>
    match other with
    | .within expr' rows' _ => expr.alike expr' && rows.alike rows'
    | _ => false
  | .like expr pattern escape _, other =>
    match other with
    | .like expr' pattern' escape' _ =>
      expr.alike expr' && pattern.alike pattern' && Expr.optionAlike escape escape'
    | _ => false
  | .existence inner _, other =>
    match other with
    | .existence inner' _ => inner.alike inner'
    | _ => false
  | .uniqueness inner _, other =>
    match other with
    | .uniqueness inner' _ => inner.alike inner'
    | _ => false
  | .row members _, other =>
    match other with
    | .row members' _ => Expr.allAlike members members'
    | _ => false
  | .subquery inner _, other =>
    match other with
    | .subquery inner' _ => inner.alike inner'
    | _ => false
  | .sortKey key, other =>
    match other with
    | .sortKey key' => key.alike key'
    | _ => false
  | .groupingSet set, other =>
    match other with
    | .groupingSet set' => set.alike set'
    | _ => false
  | .groupingSets sets _, other =>
    match other with
    | .groupingSets sets' _ => Expr.allAlike sets sets'
    | _ => false
  | .rollup sets _, other =>
    match other with
    | .rollup sets' _ => GroupingSet.allAlike sets sets'
    | _ => false
  | .cube sets _, other =>
    match other with
    | .cube sets' _ => GroupingSet.allAlike sets sets'
    | _ => false
  | .aggregate function quantifier argument filter _, other =>
    match other with
    | .aggregate function' quantifier' argument' filter' _ =>
      function = function' && quantifier = quantifier' && argument.alike argument' &&
        Expr.optionAlike filter filter'
    | _ => false
termination_by structural one => one

/-- Whether two lists of expressions are alike, one by one. -/
def Expr.allAlike : List Expr → List Expr → Bool
  | [], others => others.isEmpty
  | expr :: rest, others =>
    match others with
    | expr' :: rest' => expr.alike expr' && Expr.allAlike rest rest'
    | [] => false
termination_by structural one => one

/-- Whether two expressions are both absent, or both present and alike. -/
def Expr.optionAlike : Option Expr → Option Expr → Bool
  | none, other => other.isNone
  | some expr, other =>
    match other with
    | some expr' => expr.alike expr'
    | none => false
termination_by structural one => one

/-- Whether two sort keys differ in their spans only. -/
def SortKey.alike : SortKey → SortKey → Bool
  | ⟨expr, order, nulls, _⟩, other =>
    expr.alike other.expr && order = other.order && nulls = other.nulls
termination_by structural one => one

/-- Whether two lists of sort keys are alike, one by one. -/
def SortKey.allAlike : List SortKey → List SortKey → Bool
  | [], others => others.isEmpty
  | key :: rest, others =>
    match others with
    | key' :: rest' => key.alike key' && SortKey.allAlike rest rest'
    | [] => false
termination_by structural one => one

/-- Whether two grouping sets differ in their spans only. -/
def GroupingSet.alike : GroupingSet → GroupingSet → Bool
  | ⟨columns, _⟩, other => Expr.allAlike columns other.columns
termination_by structural one => one

/-- Whether two lists of grouping sets are alike, one by one. -/
def GroupingSet.allAlike : List GroupingSet → List GroupingSet → Bool
  | [], others => others.isEmpty
  | set :: rest, others =>
    match others with
    | set' :: rest' => set.alike set' && GroupingSet.allAlike rest rest'
    | [] => false
termination_by structural one => one

/-- Whether two join conditions differ in their spans only. -/
def JoinCondition.alike : JoinCondition → JoinCondition → Bool
  | .absent, other =>
    match other with
    | .absent => true
    | _ => false
  | .onExpr condition, other =>
    match other with
    | .onExpr condition' => condition.alike condition'
    | _ => false
  | .usingColumns columns, other =>
    match other with
    | .usingColumns columns' => columns = columns'
    | _ => false
termination_by structural one => one

/-- Whether two relations differ in their spans only. -/
def Rel.alike : Rel → Rel → Bool
  | .join kind natural condition left right _, other =>
    match other with
    | .join kind' natural' condition' left' right' _ =>
      kind = kind' && natural = natural' && condition.alike condition' &&
        left.alike left' && right.alike right'
    | _ => false
  | .table name _, other =>
    match other with
    | .table name' _ => name = name'
    | _ => false
  | .named name columns relation _, other =>
    match other with
    | .named name' columns' relation' _ =>
      name = name' && columns = columns' && relation.alike relation'
    | _ => false
  | .select projection, other =>
    match other with
    | .select projection' => projection.alike projection'
    | _ => false
  | .values rows _, other =>
    match other with
    | .values rows' _ => Expr.allAlike rows rows'
    | _ => false
  | .setOp op quantifier left right _, other =>
    match other with
    | .setOp op' quantifier' left' right' _ =>
      op = op' && quantifier = quantifier' && left.alike left' && right.alike right'
    | _ => false
  | .query inner, other =>
    match other with
    | .query inner' => inner.alike inner'
    | _ => false
termination_by structural one => one

/-- Whether two lists of relations are alike, one by one. -/
def Rel.allAlike : List Rel → List Rel → Bool
  | [], others => others.isEmpty
  | rel :: rest, others =>
    match others with
    | rel' :: rest' => rel.alike rel' && Rel.allAlike rest rest'
    | [] => false
termination_by structural one => one

/-- Whether two frame bounds differ in their spans only. -/
def FrameBound.alike : FrameBound → FrameBound → Bool
  | ⟨kind, value, _⟩, other =>
    kind = other.kind && Expr.optionAlike value other.value
termination_by structural one => one

/-- Whether two frame bounds are both absent, or both present and alike. -/
def FrameBound.optionAlike : Option FrameBound → Option FrameBound → Bool
  | none, other => other.isNone
  | some bound, other =>
    match other with
    | some bound' => bound.alike bound'
    | none => false
termination_by structural one => one

/-- Whether two frames differ in their spans only. -/
def Frame.alike : Frame → Frame → Bool
  | ⟨unit, start, stop, exclusion, _⟩, other =>
    unit = other.unit && start.alike other.start &&
      FrameBound.optionAlike stop other.stop && exclusion = other.exclusion
termination_by structural one => one

/-- Whether two frames are both absent, or both present and alike. -/
def Frame.optionAlike : Option Frame → Option Frame → Bool
  | none, other => other.isNone
  | some frame, other =>
    match other with
    | some frame' => frame.alike frame'
    | none => false
termination_by structural one => one

/-- Whether two window bodies differ in their spans only. -/
def WindowSpec.alike : WindowSpec → WindowSpec → Bool
  | ⟨existing, partitionBy, orderBy, frame, _⟩, other =>
    existing = other.existing && Expr.allAlike partitionBy other.partitionBy &&
      SortKey.allAlike orderBy other.orderBy && Frame.optionAlike frame other.frame
termination_by structural one => one

/-- Whether two lists of window definitions are alike, one by one. -/
def WindowDef.allAlike : List WindowDef → List WindowDef → Bool
  | [], others => others.isEmpty
  | ⟨name, spec, _⟩ :: rest, others =>
    match others with
    | other :: rest' =>
      name = other.name && spec.alike other.spec && WindowDef.allAlike rest rest'
    | [] => false
termination_by structural one => one

/-- Whether two projections differ in their spans only. -/
def Select.alike : Select → Select → Bool
  | ⟨quantifier, targets, sources, selection, groupBy, having, windows, _⟩, other =>
    quantifier = other.quantifier && Expr.allAlike targets other.targets &&
      Rel.allAlike sources other.sources && Expr.optionAlike selection other.selection &&
      GroupClause.optionAlike groupBy other.groupBy &&
      Expr.optionAlike having other.having && WindowDef.allAlike windows other.windows
termination_by structural one => one

/-- Whether two `GROUP BY` clauses are both absent, or both present and alike. -/
def GroupClause.optionAlike : Option GroupClause → Option GroupClause → Bool
  | none, other => other.isNone
  | some ⟨quantifier, groupings, _⟩, other =>
    match other with
    | some groupBy' =>
      quantifier = groupBy'.quantifier && Expr.allAlike groupings groupBy'.groupings
    | none => false
termination_by structural one => one

/-- Whether two lists of common table expressions are alike, one by one. -/
def Cte.allAlike : List Cte → List Cte → Bool
  | [], others => others.isEmpty
  | ⟨name, columns, query, _⟩ :: rest, others =>
    match others with
    | other :: rest' =>
      name = other.name && columns = other.columns && query.alike other.query &&
        Cte.allAlike rest rest'
    | [] => false
termination_by structural one => one

/-- Whether two `WITH` clauses are both absent, or both present and alike. -/
def WithClause.optionAlike : Option WithClause → Option WithClause → Bool
  | none, other => other.isNone
  | some ⟨recursive, ctes, _⟩, other =>
    match other with
    | some withClause' =>
      recursive = withClause'.recursive && Cte.allAlike ctes withClause'.ctes
    | none => false
termination_by structural one => one

/-- Whether two `FETCH` clauses are both absent, or both present and alike. -/
def Fetch.optionAlike : Option Fetch → Option Fetch → Bool
  | none, other => other.isNone
  | some ⟨kind, count, percent, withTies, _⟩, other =>
    match other with
    | some fetch' =>
      kind = fetch'.kind && Expr.optionAlike count fetch'.count &&
        percent = fetch'.percent && withTies = fetch'.withTies
    | none => false
termination_by structural one => one

/-- Whether two queries differ in their spans only. -/
def Query.alike : Query → Query → Bool
  | ⟨withClause, body, orderBy, offset, fetch, _⟩, other =>
    WithClause.optionAlike withClause other.withClause && body.alike other.body &&
      SortKey.allAlike orderBy other.orderBy && Expr.optionAlike offset other.offset &&
      Fetch.optionAlike fetch other.fetch
termination_by structural one => one

end

/-- Whether two values are alike one by one, as the members of two lists. -/
def allAlike {α : Type} (alike : α → α → Bool) : List α → List α → Bool
  | [], others => others.isEmpty
  | _ :: _, [] => false
  | value :: rest, value' :: rest' => alike value value' && allAlike alike rest rest'

/-- Whether two values are both absent, or both present and alike. -/
def optionAlike {α : Type} (alike : α → α → Bool) : Option α → Option α → Bool
  | none, other => other.isNone
  | some value, other => other.any (alike value)

/-- Whether two references differ in their spans only. -/
def References.alike (one other : References) : Bool :=
  one.table = other.table && one.columns = other.columns &&
    one.matchOption = other.matchOption && one.actions = other.actions

/-- Whether two column constraints demand the same. -/
def ColumnConstraintKind.alike : ColumnConstraintKind → ColumnConstraintKind → Bool
  | .notNull, .notNull | .unique, .unique | .primaryKey, .primaryKey => true
  | .foreignKey references, .foreignKey references' => references.alike references'
  | _, _ => false

/-- Whether two column constraints differ in their spans only. -/
def ColumnConstraint.alike (one other : ColumnConstraint) : Bool :=
  one.name = other.name && one.kind.alike other.kind

/-- Whether two default values differ in their spans only. -/
def ColumnDefault.alike : ColumnDefault → ColumnDefault → Bool
  | .user kind, .user kind' => kind = kind'
  | .null, .null => true
  | .expr value, .expr value' => value.alike value'
  | _, _ => false

/-- Whether two column definitions differ in their spans only. -/
def ColumnDef.alike (one other : ColumnDef) : Bool :=
  one.name = other.name && one.dataType.same other.dataType &&
    optionAlike ColumnDefault.alike one.default other.default &&
    allAlike ColumnConstraint.alike one.constraints other.constraints &&
    one.collation = other.collation

/-- Whether two table constraints demand the same. -/
def TableConstraintKind.alike : TableConstraintKind → TableConstraintKind → Bool
  | .unique columns, .unique columns' => columns = columns'
  | .primaryKey columns, .primaryKey columns' => columns = columns'
  | .foreignKey columns references, .foreignKey columns' references' =>
    columns = columns' && references.alike references'
  | _, _ => false

/-- Whether two table constraints differ in their spans only. -/
def TableConstraint.alike (one other : TableConstraint) : Bool :=
  one.name = other.name && one.kind.alike other.kind

/-- Whether two table definitions differ in their spans only. -/
def Create.alike (one other : Create) : Bool :=
  one.name = other.name && one.temporary = other.temporary &&
    one.onCommit = other.onCommit && allAlike ColumnDef.alike one.columns other.columns &&
    allAlike TableConstraint.alike one.constraints other.constraints

/-- Whether two sources of rows differ in their spans only. -/
def InsertSource.alike : InsertSource → InsertSource → Bool
  | .defaultValues, .defaultValues => true
  | .query rows, .query rows' => rows.alike rows'
  | _, _ => false

/-- Whether two insertions differ in their spans only. -/
def Insert.alike (one other : Insert) : Bool :=
  one.table = other.table && one.columns = other.columns &&
    one.overriding = other.overriding && one.source.alike other.source

/-- Whether two deletions differ in their spans only. -/
def Delete.alike (one other : Delete) : Bool :=
  one.table = other.table && one.only = other.only &&
    optionAlike Expr.alike one.selection other.selection

/-- Whether two statements differ in their spans only. -/
def Statement.alike : Statement → Statement → Bool
  | .create definition, .create definition' => definition.alike definition'
  | .insert insertion, .insert insertion' => insertion.alike insertion'
  | .delete deletion, .delete deletion' => deletion.alike deletion'
  | .select rows _, .select rows' _ => rows.alike rows'
  | _, _ => false

end CanonicalSql
