import CanonicalSql.Record.DataType

/-!
# Records of expressions and queries

Each form has its fields in the order in which it is declared, the span last.
-/
namespace CanonicalSql.Record

/-- A quantifier, which may be absent. -/
def ofQuantifier (quantifier : Option SetQuantifier) : Record :=
  optional (fun quantifier => .text quantifier.label) quantifier

mutual

/-- The data of an expression. -/
def exprData : Expr → Record
  | .asterisk qualifier span =>
    .object [("qualifier", optional ofName qualifier), ("span", .place span)]
  | .integer value span => .object [("value", .integer value), ("span", .place span)]
  | .float value span => .object [("value", .float value), ("span", .place span)]
  | .string value kind span =>
    .object [("value", .text value), ("kind", .text kind.label), ("span", .place span)]
  | .truth value span => .object [("value", .text value.label), ("span", .place span)]
  | .null span => .object [("span", .place span)]
  | .column name span => .object [("name", ofName name), ("span", .place span)]
  | .named name expr span =>
    .object [("name", .text name), ("expr", tagged expr.label (exprData expr)),
      ("span", .place span)]
  | .unary op operand span =>
    .object [("op", .text op.label), ("operand", tagged operand.label (exprData operand)),
      ("span", .place span)]
  | .binary left op right span =>
    .object [("left", tagged left.label (exprData left)), ("op", .text op.label),
      ("right", tagged right.label (exprData right)), ("span", .place span)]
  | .collate expr collation span =>
    .object [("expr", tagged expr.label (exprData expr)), ("collation", ofName collation),
      ("span", .place span)]
  | .isTruth expr value span =>
    .object [("expr", tagged expr.label (exprData expr)), ("value", .text value.label),
      ("span", .place span)]
  | .isNull expr span =>
    .object [("expr", tagged expr.label (exprData expr)), ("span", .place span)]
  | .between expr low high symmetric span =>
    .object [("expr", tagged expr.label (exprData expr)),
      ("low", tagged low.label (exprData low)), ("high", tagged high.label (exprData high)),
      ("symmetric", .truth symmetric), ("span", .place span)]
  | .within expr rows span =>
    .object [("expr", tagged expr.label (exprData expr)),
      ("rows", tagged rows.label (relData rows)), ("span", .place span)]
  | .like expr pattern escape span =>
    .object [("expr", tagged expr.label (exprData expr)),
      ("pattern", tagged pattern.label (exprData pattern)),
      ("escape", match escape with
        | some escape => tagged escape.label (exprData escape)
        | none => .null),
      ("span", .place span)]
  | .existence query span => .object [("query", ofQuery query), ("span", .place span)]
  | .uniqueness query span => .object [("query", ofQuery query), ("span", .place span)]
  | .row values span => .object [("values", .list (ofExprs values)), ("span", .place span)]
  | .subquery query span => .object [("query", ofQuery query), ("span", .place span)]
  | .sortKey key => ofSortKey key
  | .groupingSet set => ofGroupingSet set
  | .groupingSets sets span => .object [("sets", .list (ofExprs sets)), ("span", .place span)]
  | .rollup sets span =>
    .object [("sets", .list (ofGroupingSets sets)), ("span", .place span)]
  | .cube sets span => .object [("sets", .list (ofGroupingSets sets)), ("span", .place span)]
  | .aggregate function quantifier argument filter span =>
    .object [("func", .text function.label), ("quantifier", ofQuantifier quantifier),
      ("argument", tagged argument.label (exprData argument)),
      ("filter", match filter with
        | some filter => tagged filter.label (exprData filter)
        | none => .null),
      ("span", .place span)]

/-- Expressions. -/
def ofExprs : List Expr → List Record
  | [] => []
  | expr :: rest => tagged expr.label (exprData expr) :: ofExprs rest

/-- A sort key. -/
def ofSortKey : SortKey → Record
  | ⟨expr, order, nulls, span⟩ =>
    .object [("expr", tagged expr.label (exprData expr)), ("order", .text order.label),
      ("nulls", .text nulls.label), ("span", .place span)]

/-- Sort keys. -/
def ofSortKeys : List SortKey → List Record
  | [] => []
  | key :: rest => ofSortKey key :: ofSortKeys rest

/-- A grouping set. -/
def ofGroupingSet : GroupingSet → Record
  | ⟨columns, span⟩ => .object [("columns", .list (ofExprs columns)), ("span", .place span)]

/-- Grouping sets. -/
def ofGroupingSets : List GroupingSet → List Record
  | [] => []
  | set :: rest => ofGroupingSet set :: ofGroupingSets rest

/-- A join condition. -/
def ofJoinCondition : JoinCondition → Record
  | .absent => .null
  | .onExpr condition => tagged "On" (tagged condition.label (exprData condition))
  | .usingColumns columns => tagged "Using" (texts columns)

/-- The data of a relation. -/
def relData : Rel → Record
  | .join kind natural condition left right span =>
    .object [("kind", .text kind.label), ("natural", .truth natural),
      ("condition", ofJoinCondition condition), ("left", tagged left.label (relData left)),
      ("right", tagged right.label (relData right)), ("span", .place span)]
  | .table name span => .object [("name", ofName name), ("span", .place span)]
  | .named name columns relation span =>
    .object [("name", .text name), ("columns", texts columns),
      ("relation", tagged relation.label (relData relation)), ("span", .place span)]
  | .select projection => ofSelect projection
  | .values rows span => .object [("rows", .list (ofExprs rows)), ("span", .place span)]
  | .setOp op quantifier left right span =>
    .object [("op", .text op.label), ("quantifier", ofQuantifier quantifier),
      ("left", tagged left.label (relData left)),
      ("right", tagged right.label (relData right)), ("span", .place span)]
  | .query inner => ofQuery inner

/-- Relations. -/
def ofRels : List Rel → List Record
  | [] => []
  | rel :: rest => tagged rel.label (relData rel) :: ofRels rest

/-- A bound of a window frame. -/
def ofFrameBound : FrameBound → Record
  | ⟨kind, value, span⟩ =>
    .object [("kind", .text kind.label),
      ("value", match value with
        | some value => tagged value.label (exprData value)
        | none => .null),
      ("span", .place span)]

/-- A window frame. -/
def ofFrame : Frame → Record
  | ⟨unit, start, stop, exclusion, span⟩ =>
    .object [("unit", .text unit.label), ("start", ofFrameBound start),
      ("end", match stop with
        | some stop => ofFrameBound stop
        | none => .null),
      ("exclusion", optional (fun exclusion => .text exclusion.label) exclusion),
      ("span", .place span)]

/-- The body of a window definition. -/
def ofWindowSpec : WindowSpec → Record
  | ⟨existing, partitionBy, orderBy, frame, span⟩ =>
    .object [("existing", optional .text existing),
      ("partition_by", .list (ofExprs partitionBy)),
      ("order_by", .list (ofSortKeys orderBy)),
      ("frame", match frame with
        | some frame => ofFrame frame
        | none => .null),
      ("span", .place span)]

/-- Window definitions. -/
def ofWindows : List WindowDef → List Record
  | [] => []
  | ⟨name, spec, span⟩ :: rest =>
    .object [("name", .text name), ("spec", ofWindowSpec spec), ("span", .place span)] ::
      ofWindows rest

/-- A projection. -/
def ofSelect : Select → Record
  | ⟨quantifier, targets, sources, selection, groupBy, having, windows, span⟩ =>
    .object [("quantifier", ofQuantifier quantifier), ("targets", .list (ofExprs targets)),
      ("from", .list (ofRels sources)),
      ("selection", match selection with
        | some selection => tagged selection.label (exprData selection)
        | none => .null),
      ("group_by", match groupBy with
        | some ⟨quantifier, groupings, span⟩ =>
          .object [("quantifier", ofQuantifier quantifier),
            ("groupings", .list (ofExprs groupings)), ("span", .place span)]
        | none => .null),
      ("having", match having with
        | some having => tagged having.label (exprData having)
        | none => .null),
      ("windows", .list (ofWindows windows)), ("span", .place span)]

/-- Common table expressions. -/
def ofCtes : List Cte → List Record
  | [] => []
  | ⟨name, columns, query, span⟩ :: rest =>
    .object [("name", .text name), ("columns", texts columns), ("query", ofQuery query),
      ("span", .place span)] :: ofCtes rest

/-- A query. -/
def ofQuery : Query → Record
  | ⟨withClause, body, orderBy, offset, fetch, span⟩ =>
    .object [
      ("with", match withClause with
        | some ⟨recursive, ctes, span⟩ =>
          .object [("recursive", .truth recursive), ("ctes", .list (ofCtes ctes)),
            ("span", .place span)]
        | none => .null),
      ("body", tagged body.label (relData body)),
      ("order_by", .list (ofSortKeys orderBy)),
      ("offset", match offset with
        | some offset => tagged offset.label (exprData offset)
        | none => .null),
      ("fetch", match fetch with
        | some ⟨kind, count, percent, withTies, span⟩ =>
          .object [("kind", .text kind.label),
            ("count", match count with
              | some count => tagged count.label (exprData count)
              | none => .null),
            ("percent", .truth percent), ("with_ties", .truth withTies),
            ("span", .place span)]
        | none => .null),
      ("span", .place span)]

end

/-- An expression. -/
def ofExpr (expr : Expr) : Record := tagged expr.label (exprData expr)

end CanonicalSql.Record
