import CanonicalSql.Tree.Label

/-!
# Outlines

The outline of a tree is the tree of its nodes alone: what is passed on the way through a
statement, parents before their children and the children in the order in which they are
written. Everything that looks at a tree node by node reads its outline.

Grouping sets within `ROLLUP` and `CUBE`, the bounds of a window frame and the conditions
of joins are no nodes of their own; the expressions in them belong to the node around
them.
-/
namespace CanonicalSql

/-- A node that is passed on the way through a tree. -/
inductive Node
  | statement (statement : Statement)
  | create (create : Create)
  | columnDef (column : ColumnDef)
  | insert (insert : Insert)
  | delete (delete : Delete)
  | query (query : Query)
  | cte (cte : Cte)
  | rel (rel : Rel)
  | tableName (name : QualifiedName) (span : Span)
  | join (kind : JoinKind) (natural : Bool) (condition : JoinCondition) (left right : Rel)
    (span : Span)
  | select (select : Select)
  | windowSpec (spec : WindowSpec)
  | sortKey (key : SortKey)
  | expr (expr : Expr)

namespace Node

/-- The stretch of text of a node. -/
def span : Node → Span
  | .statement it => it.span
  | .create it => it.span
  | .columnDef it => it.span
  | .insert it => it.span
  | .delete it => it.span
  | .query it => it.span
  | .cte it => it.span
  | .rel it => it.span
  | .tableName _ span => span
  | .join _ _ _ _ _ span => span
  | .select it => it.span
  | .windowSpec it => it.span
  | .sortKey it => it.span
  | .expr it => it.span

/-- What the node is called. -/
def label : Node → String
  | .statement _ => "statement"
  | .create _ => "create"
  | .columnDef _ => "column_def"
  | .insert _ => "insert"
  | .delete _ => "delete"
  | .query _ => "query"
  | .cte _ => "cte"
  | .rel it => "rel " ++ it.label
  | .tableName .. => "table_name"
  | .join .. => "join"
  | .select _ => "select"
  | .windowSpec _ => "window_spec"
  | .sortKey _ => "sort_spec"
  | .expr it => "expr " ++ it.label

/-- Whether the node adds to the depth of a tree: queries, relations and expressions. -/
def isLevel : Node → Bool
  | .query _ | .rel _ | .expr _ => true
  | _ => false

end Node

/-- A node with the nodes below it. The flag says that the place of the node is one where
an asterisk may stand. -/
inductive Outline
  | node (subject : Node) (starAllowed : Bool) (below : List Outline)

namespace Outline

/-- A node at a place where no asterisk may stand. -/
def plain (subject : Node) (below : List Outline) : Outline :=
  .node subject false below

mutual

/-- What is below an expression. -/
def belowExpr : Expr → List Outline
  | .asterisk .. | .integer .. | .float .. | .string .. | .truth .. | .null .. | .column .. =>
    []
  | .named _ expr _ => [plain (.expr expr) (belowExpr expr)]
  | .unary _ operand _ => [plain (.expr operand) (belowExpr operand)]
  | .binary left _ right _ =>
    [plain (.expr left) (belowExpr left), plain (.expr right) (belowExpr right)]
  | .collate expr _ _ => [plain (.expr expr) (belowExpr expr)]
  | .isTruth expr _ _ => [plain (.expr expr) (belowExpr expr)]
  | .isNull expr _ => [plain (.expr expr) (belowExpr expr)]
  | .between expr low high _ _ =>
    [plain (.expr expr) (belowExpr expr), plain (.expr low) (belowExpr low),
     plain (.expr high) (belowExpr high)]
  | .within expr rows _ =>
    [plain (.expr expr) (belowExpr expr), plain (.rel rows) (belowRel rows)]
  | .like expr pattern escape _ =>
    [plain (.expr expr) (belowExpr expr), plain (.expr pattern) (belowExpr pattern)] ++
      ofOption escape
  | .existence query _ => [plain (.query query) (belowQuery query)]
  | .uniqueness query _ => [plain (.query query) (belowQuery query)]
  | .row values _ => ofExprs values
  | .subquery query _ => [plain (.query query) (belowQuery query)]
  | .sortKey key => [plain (.sortKey key) (belowSortKey key)]
  | .groupingSet set => belowGroupingSet set
  | .groupingSets sets _ => ofExprs sets
  | .rollup sets _ => belowGroupingSets sets
  | .cube sets _ => belowGroupingSets sets
  | .aggregate function _ argument filter _ =>
    .node (.expr argument) (function = .count) (belowExpr argument) :: ofOption filter

/-- The outlines of expressions. -/
def ofExprs : List Expr → List Outline
  | [] => []
  | expr :: rest => plain (.expr expr) (belowExpr expr) :: ofExprs rest

/-- The outline of an expression that is present. -/
def ofOption : Option Expr → List Outline
  | none => []
  | some expr => [plain (.expr expr) (belowExpr expr)]

/-- The outlines of the targets of a projection, each of which may be an asterisk. -/
def ofTargets : List Expr → List Outline
  | [] => []
  | expr :: rest => .node (.expr expr) true (belowExpr expr) :: ofTargets rest

/-- What is below a sort key. -/
def belowSortKey : SortKey → List Outline
  | ⟨expr, _, _, _⟩ => [plain (.expr expr) (belowExpr expr)]

/-- The outlines of sort keys. -/
def ofSortKeys : List SortKey → List Outline
  | [] => []
  | key :: rest => plain (.sortKey key) (belowSortKey key) :: ofSortKeys rest

/-- The columns of a grouping set. -/
def belowGroupingSet : GroupingSet → List Outline
  | ⟨columns, _⟩ => ofExprs columns

/-- The columns of several grouping sets, one after another. -/
def belowGroupingSets : List GroupingSet → List Outline
  | [] => []
  | set :: rest => belowGroupingSet set ++ belowGroupingSets rest

/-- What is below a relation. -/
def belowRel : Rel → List Outline
  -- the operands of a join are below a node of its own, not below the relation
  | .join kind natural condition left right span =>
    [plain (.join kind natural condition left right span)
      ([plain (.rel left) (belowRel left), plain (.rel right) (belowRel right)] ++
        belowCondition condition)]
  | .table name span => [plain (.tableName name span) []]
  | .named _ _ relation _ => [plain (.rel relation) (belowRel relation)]
  | .select select => [plain (.select select) (belowSelect select)]
  | .values rows _ => ofExprs rows
  | .setOp _ _ left right _ =>
    [plain (.rel left) (belowRel left), plain (.rel right) (belowRel right)]
  | .query query => [plain (.query query) (belowQuery query)]

/-- The expression of a join condition. -/
def belowCondition : JoinCondition → List Outline
  | .onExpr condition => [plain (.expr condition) (belowExpr condition)]
  | .absent | .usingColumns _ => []

/-- The outlines of relations. -/
def ofRels : List Rel → List Outline
  | [] => []
  | rel :: rest => plain (.rel rel) (belowRel rel) :: ofRels rest

/-- The value of a frame bound. -/
def belowFrameBound : FrameBound → List Outline
  | ⟨_, value, _⟩ => ofOption value

/-- The values of the bounds of a frame. -/
def belowFrame : Option Frame → List Outline
  | none => []
  | some ⟨_, start, none, _, _⟩ => belowFrameBound start
  | some ⟨_, start, some stop, _, _⟩ => belowFrameBound start ++ belowFrameBound stop

/-- What is below a window specification. -/
def belowWindowSpec : WindowSpec → List Outline
  | ⟨_, partitionBy, orderBy, frame, _⟩ =>
    ofExprs partitionBy ++ ofSortKeys orderBy ++ belowFrame frame

/-- The specifications of windows. -/
def ofWindows : List WindowDef → List Outline
  | [] => []
  | ⟨_, spec, _⟩ :: rest => plain (.windowSpec spec) (belowWindowSpec spec) :: ofWindows rest

/-- What is below a projection. -/
def belowSelect : Select → List Outline
  | ⟨_, targets, sources, selection, groupBy, having, windows, _⟩ =>
    ofTargets targets ++ ofRels sources ++ ofOption selection ++ belowGroupBy groupBy ++
      ofOption having ++ ofWindows windows

/-- The elements of `GROUP BY`. -/
def belowGroupBy : Option GroupClause → List Outline
  | none => []
  | some ⟨_, groupings, _⟩ => ofExprs groupings

/-- The outlines of common table expressions. -/
def ofCtes : List Cte → List Outline
  | [] => []
  | ⟨name, columns, query, span⟩ :: rest =>
    plain (.cte ⟨name, columns, query, span⟩) [plain (.query query) (belowQuery query)] ::
      ofCtes rest

/-- The common table expressions of a `WITH` clause. -/
def belowWith : Option WithClause → List Outline
  | none => []
  | some ⟨_, ctes, _⟩ => ofCtes ctes

/-- The count of a `FETCH` clause. -/
def belowFetch : Option Fetch → List Outline
  | none => []
  | some ⟨_, count, _, _, _⟩ => ofOption count

/-- What is below a query. -/
def belowQuery : Query → List Outline
  | ⟨withClause, body, orderBy, offset, fetch, _⟩ =>
    belowWith withClause ++ [plain (.rel body) (belowRel body)] ++ ofSortKeys orderBy ++
      ofOption offset ++ belowFetch fetch

end

/-- The outline of an expression. -/
def ofExpr (expr : Expr) : Outline := plain (.expr expr) (belowExpr expr)

/-- The outline of a relation. -/
def ofRel (rel : Rel) : Outline := plain (.rel rel) (belowRel rel)

/-- The outline of a query. -/
def ofQuery (query : Query) : Outline := plain (.query query) (belowQuery query)

/-- The expression of a default value. -/
def belowDefault : Option ColumnDefault → List Outline
  | some (.expr value) => [ofExpr value]
  | _ => []

/-- The outline of a column definition: a default value is all that is below it. -/
def ofColumnDef (column : ColumnDef) : Outline :=
  plain (.columnDef column) (belowDefault column.default)

/-- The outline of a statement. -/
def ofStatement (statement : Statement) : Outline :=
  plain (.statement statement) <|
    match statement with
    | .create create => [plain (.create create) (create.columns.map ofColumnDef)]
    | .insert insert =>
      [plain (.insert insert) <|
        match insert.source with
        | .query query => [ofQuery query]
        | .defaultValues => []]
    | .delete delete => [plain (.delete delete) (delete.selection.toList.map ofExpr)]
    | .select query _ => [ofQuery query]

/-! ## Walks -/

mutual

/-- The nodes that a walk passes, each with its distance from the top, where the walk does
not go below a pruned node. -/
def visits (pruned : Node → Bool) (depth : Nat) : Outline → List (Nat × Node)
  | .node subject _ below =>
    (depth, subject) :: if pruned subject then [] else visitsAll pruned (depth + 1) below

/-- The walk through several outlines, one after another. -/
def visitsAll (pruned : Node → Bool) (depth : Nat) : List Outline → List (Nat × Node)
  | [] => []
  | outline :: rest => visits pruned depth outline ++ visitsAll pruned depth rest

end

/-- All nodes, parents before their children. -/
def nodes (outline : Outline) : List Node :=
  (outline.visits (fun _ => false) 0).map Prod.snd

/-- The names of the tables that are read. -/
def tables (outline : Outline) : List QualifiedName :=
  outline.nodes.filterMap fun
    | .tableName name _ => some name
    | _ => none

/-- The names of columns and variables. -/
def columns (outline : Outline) : List QualifiedName :=
  outline.nodes.filterMap fun
    | .expr (.column name _) => some name
    | _ => none

/-- The expressions that are not part of another one, counting those met on a walk that
does not go below expressions. -/
def rootExpressions (outline : Outline) : Nat :=
  let isExpr : Node → Bool
    | .expr _ => true
    | _ => false
  (outline.visits isExpr 0).countP fun (_, subject) => isExpr subject

end Outline

end CanonicalSql
