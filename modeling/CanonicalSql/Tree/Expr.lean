import CanonicalSql.Binary64.Basic
import CanonicalSql.Span
import CanonicalSql.Token.Kind
import CanonicalSql.Tree.Choice

/-!
# Expressions, relations and queries

The three mutually recursive trees of SQL. An expression denotes a value, a relation
denotes rows and stands in `FROM` or as the body of a query, and a query is a relation
together with the clauses that apply to its result. Every node knows the stretch of text
it was read from.
-/
namespace CanonicalSql

mutual

/-- A value expression, or what else may stand in a list of expressions. -/
inductive Expr
  /-- `*` or `t.*`. -/
  | asterisk (qualifier : Option QualifiedName) (span : Span)
  | integer (value : Int) (span : Span)
  | float (value : Binary64) (span : Span)
  | string (value : String) (kind : StringKind) (span : Span)
  | truth (value : TruthValue) (span : Span)
  | null (span : Span)
  /-- The value of a column or a variable. -/
  | column (name : QualifiedName) (span : Span)
  /-- `expr AS name`, among the targets of a `SELECT`. -/
  | named (name : Name) (expr : Expr) (span : Span)
  | unary (op : UnaryOp) (operand : Expr) (span : Span)
  | binary (left : Expr) (op : BinaryOp) (right : Expr) (span : Span)
  | collate (expr : Expr) (collation : QualifiedName) (span : Span)
  /-- `expr IS TRUE`, and so on. -/
  | isTruth (expr : Expr) (value : TruthValue) (span : Span)
  | isNull (expr : Expr) (span : Span)
  | between (expr low high : Expr) (symmetric : Bool) (span : Span)
  /-- `expr IN (rows)`. A list of values is a `values` relation. -/
  | within (expr : Expr) (rows : Rel) (span : Span)
  | like (expr pattern : Expr) (escape : Option Expr) (span : Span)
  | existence (query : Query) (span : Span)
  | uniqueness (query : Query) (span : Span)
  /-- `ROW (a, b)` or `(a, b)`. -/
  | row (values : List Expr) (span : Span)
  /-- A query in parentheses. -/
  | subquery (query : Query) (span : Span)
  | sortKey (key : SortKey)
  | groupingSet (set : GroupingSet)
  /-- `GROUPING SETS`, whose members are grouping elements again. -/
  | groupingSets (sets : List Expr) (span : Span)
  | rollup (sets : List GroupingSet) (span : Span)
  | cube (sets : List GroupingSet) (span : Span)
  | aggregate (function : AggregateFunction) (quantifier : Option SetQuantifier)
      (argument : Expr) (filter : Option Expr) (span : Span)

/-- `expr [ASC|DESC] [NULLS FIRST|LAST]`. -/
structure SortKey where
  expr : Expr
  order : SortOrder
  nulls : NullOrder
  span : Span

/-- `a`, `(a, b)` or `()`. -/
structure GroupingSet where
  columns : List Expr
  span : Span

/-- What decides which rows a join combines. -/
inductive JoinCondition
  | absent
  | onExpr (condition : Expr)
  | usingColumns (columns : List Name)

/-- A relation. -/
inductive Rel
  | join (kind : JoinKind) (natural : Bool) (condition : JoinCondition) (left right : Rel)
      (span : Span)
  | table (name : QualifiedName) (span : Span)
  /-- `relation AS name (columns)`. -/
  | named (name : Name) (columns : List Name) (relation : Rel) (span : Span)
  | select (select : Select)
  | values (rows : List Expr) (span : Span)
  | setOp (op : SetOperator) (quantifier : Option SetQuantifier) (left right : Rel)
      (span : Span)
  | query (query : Query)

/-- `GROUP BY [ALL|DISTINCT] groupings`. -/
structure GroupClause where
  quantifier : Option SetQuantifier
  groupings : List Expr
  span : Span

/-- An end of a window frame. Without a value a bound that precedes or follows is
unbounded. -/
structure FrameBound where
  kind : FrameBoundKind
  value : Option Expr
  span : Span

/-- `ROWS|RANGE|GROUPS start` or `… BETWEEN start AND stop`. -/
structure Frame where
  unit : FrameUnit
  start : FrameBound
  stop : Option FrameBound
  exclusion : Option FrameExclusion
  span : Span

/-- The parenthesized body of a window definition. -/
structure WindowSpec where
  /-- The window that this one refines. -/
  existing : Option Name
  partitionBy : List Expr
  orderBy : List SortKey
  frame : Option Frame
  span : Span

/-- `name AS (spec)`. -/
structure WindowDef where
  name : Name
  spec : WindowSpec
  span : Span

/-- A projection: `SELECT` with its clauses up to `WINDOW`. -/
structure Select where
  quantifier : Option SetQuantifier
  targets : List Expr
  sources : List Rel
  selection : Option Expr
  groupBy : Option GroupClause
  having : Option Expr
  windows : List WindowDef
  span : Span

/-- A common table expression: `name (columns) AS (query)`. -/
structure Cte where
  name : Name
  columns : List Name
  query : Query
  span : Span

/-- `WITH [RECURSIVE] ctes`. -/
structure WithClause where
  recursive : Bool
  ctes : List Cte
  span : Span

/-- `FETCH FIRST|NEXT [count] [PERCENT] ROWS ONLY|WITH TIES`. -/
structure Fetch where
  kind : FetchKind
  count : Option Expr
  percent : Bool
  withTies : Bool
  span : Span

/-- A relation with the clauses that apply to its result. -/
structure Query where
  withClause : Option WithClause
  body : Rel
  orderBy : List SortKey
  offset : Option Expr
  fetch : Option Fetch
  span : Span

end

instance : Inhabited Expr := ⟨.null default⟩
instance : Inhabited Rel := ⟨.table default default⟩
instance : Inhabited Query := ⟨⟨none, default, [], none, none, default⟩⟩

/-- The stretch of text of an expression. -/
def Expr.span : Expr → Span
  | .asterisk _ span | .integer _ span | .float _ span | .string _ _ span | .truth _ span
  | .null span | .column _ span | .named _ _ span | .unary _ _ span | .binary _ _ _ span
  | .collate _ _ span | .isTruth _ _ span | .isNull _ span | .between _ _ _ _ span
  | .within _ _ span | .like _ _ _ span | .existence _ span | .uniqueness _ span
  | .row _ span | .subquery _ span | .groupingSets _ span | .rollup _ span | .cube _ span
  | .aggregate _ _ _ _ span => span
  | .sortKey key => key.span
  | .groupingSet set => set.span

/-- Whether the expression is `*` or `t.*`. -/
def Expr.isAsterisk : Expr → Bool
  | .asterisk .. => true
  | _ => false

/-- The stretch of text of a relation. -/
def Rel.span : Rel → Span
  | .join _ _ _ _ _ span | .table _ span | .named _ _ _ span | .values _ span
  | .setOp _ _ _ _ span => span
  | .select projection => projection.span
  | .query inner => inner.span

/-- Whether the relation yields rows without a table: a projection, a list of values, a
set operation or a query. -/
def Rel.isQueryLike : Rel → Bool
  | .select _ | .values .. | .setOp .. | .query _ => true
  | .join .. | .table .. | .named .. => false

/-- Whether a join combines all rows: an inner join without any condition. -/
def JoinCondition.isCross (kind : JoinKind) (natural : Bool) : JoinCondition → Bool
  | .absent => kind = .inner && !natural
  | _ => false

/-- Whether none of `WITH`, `ORDER BY`, `OFFSET` and `FETCH` is present. -/
def Query.isBare (query : Query) : Bool :=
  query.withClause.isNone && query.orderBy.isEmpty && query.offset.isNone &&
    query.fetch.isNone

/-- The query as an operand: a bare one is no more than its body. -/
def Query.operand (query : Query) : Rel :=
  if query.isBare then query.body else .query query

end CanonicalSql
