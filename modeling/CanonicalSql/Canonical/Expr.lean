import CanonicalSql.Canonical.Piece
import CanonicalSql.Grammar.Precedence
import CanonicalSql.Tree.Expr

/-!
# Canonical expressions and queries

Every form has one layout. Operators and predicates stand in parentheses of their own, so
that the text does not hang on precedence.
-/
namespace CanonicalSql.Canonical

open Piece

/-- The place where a relation is written. -/
inductive Place
  /-- Among the sources of a projection. -/
  | source
  /-- Before the name that it gets as a source. -/
  | aliased
  /-- As an operand of a set operation. -/
  | operand
  /-- As the body of a query, where a set operation needs no parentheses. -/
  | body
  /-- Between the parentheses after `IN`, where values and queries need none either. -/
  | members
deriving DecidableEq, Repr

/-- Whether the place is among the sources of a projection, where tables can stand. -/
def Place.isSource : Place → Bool
  | .source | .aliased => true
  | .operand | .body | .members => false

/-- Pieces for a value that is present, none for one that is absent. -/
def optional {α : Type} (pieces : α → List Piece) : Option α → List Piece
  | some value => pieces value
  | none => []

/-- A list of pieces if the condition holds, none otherwise. -/
def when (condition : Bool) (pieces : List Piece) : List Piece :=
  if condition then pieces else []

/-- A row of pieces, between parentheses if the condition holds. -/
def parenthesizedWhen (condition : Bool) (row : List Piece) : List Piece :=
  if condition then parenthesized row else row

/-- A clause that is left out if its list is empty. -/
def clause (keywords : List Keyword) : List (List Piece) → List (List Piece)
  | [] => []
  | rows => [words keywords ++ after (commaSeparated rows)]

/-- The columns of a grouping set. A single one needs no parentheses. -/
def ofGrouping : List (List Piece) → List Piece
  | [row] => row
  | rows => parenthesized (commaSeparated rows)

/-- A quantifier with a space after it. -/
def ofQuantifier (quantifier : Option SetQuantifier) : List Piece :=
  optional (fun quantifier => [word quantifier.word, .space]) quantifier

/-- Where null values go, after a space. -/
def ofNullOrder : NullOrder → List Piece
  | .unspecified => []
  | .first => after (words [.NULLS, .FIRST])
  | .last => after (words [.NULLS, .LAST])

/-- A relation at a place where only a query can stand, if it is not one already. -/
def asQuery (place : Place) (source : List Piece) : List Piece :=
  if place.isSource then source
  else parenthesized (word .SELECT :: .space :: sign .star :: .space :: word .FROM ::
    .space :: source)

/-- A query body at a place, in parentheses among the sources of a projection. -/
def asSource (place : Place) (body : List Piece) : List Piece :=
  if place.isSource then parenthesized body else body

/-- A name with a list of columns, which is left out if it is empty. -/
def withColumns (name : Name) (columns : List Name) : List Piece :=
  Piece.name name :: when (!columns.isEmpty) (names columns)

/-- The words between the operands of a join. -/
def ofJoinWords (kind : JoinKind) (natural : Bool) (condition : JoinCondition) :
    List Piece :=
  if condition.isCross kind natural then words [.CROSS, .JOIN]
  else words ((if natural then [.NATURAL] else []) ++ kind.words ++ [.JOIN])

/-- What a window frame leaves out, after a space, or nothing. -/
def ofExclusion (exclusion : Option FrameExclusion) : List Piece :=
  optional (fun exclusion => after (words exclusion.words)) exclusion

mutual

/-- An expression. -/
def ofExpr : Expr → List Piece
  | .asterisk qualifier _ =>
    optional (fun name => qualified name ++ [sign .dot]) qualifier ++ [sign .star]
  | .integer value _ => [.token (.integer value)]
  | .float value _ => [.token (.float value)]
  | .string value kind _ => [.token (.string value kind)]
  | .truth value _ => [word value.word]
  | .null _ => [word .NULL]
  | .column name _ => qualified name
  | .named name expr _ => ofExpr expr ++ [.space, word .AS, .space, Piece.name name]
  | .unary op operand _ => parenthesized (.token op.kind :: after (ofExpr operand))
  | .binary left op right _ =>
    parenthesized (ofExpr left ++ .space :: .token op.kind :: after (ofExpr right))
  | .collate expr collation _ =>
    parenthesized (ofExpr expr ++ .space :: word .COLLATE :: after (qualified collation))
  | .isTruth expr value _ =>
    parenthesized (ofExpr expr ++ after (words [.IS, value.word]))
  | .isNull expr _ => parenthesized (ofExpr expr ++ after (words [.IS, .NULL]))
  | .between expr low high symmetric _ =>
    parenthesized (ofExpr expr ++
      after (words (.BETWEEN :: if symmetric then [.SYMMETRIC] else [])) ++
      after (ofExpr low) ++ after [word .AND] ++ after (ofExpr high))
  | .within expr rows _ =>
    parenthesized (ofExpr expr ++ after [word .IN] ++ after (parenthesized (ofRel .members rows)))
  | .like expr pattern escape _ =>
    parenthesized (ofExpr expr ++ after [word .LIKE] ++ after (ofExpr pattern) ++
      ofEscape escape)
  | .existence query _ =>
    parenthesized (word .EXISTS :: after (parenthesized (ofQuery query)))
  | .uniqueness query _ =>
    parenthesized (word .UNIQUE :: after (parenthesized (ofQuery query)))
  -- without the word a row of one value would be an expression in parentheses
  | .row values _ => word .ROW :: parenthesized (commaSeparated (ofExprs values))
  | .subquery query _ => parenthesized (ofQuery query)
  | .sortKey key => ofSortKey key
  | .groupingSet set => ofGroupingSet set
  | .groupingSets sets _ =>
    words [.GROUPING, .SETS] ++ after (parenthesized (commaSeparated (ofExprs sets)))
  | .rollup sets _ =>
    word .ROLLUP :: after (parenthesized (commaSeparated (ofGroupingSets sets)))
  | .cube sets _ =>
    word .CUBE :: after (parenthesized (commaSeparated (ofGroupingSets sets)))
  | .aggregate function quantifier argument filter _ =>
    word function.word ::
      (parenthesized (ofQuantifier quantifier ++ ofExpr argument) ++ ofFilter filter)

/-- The escape of a pattern, or nothing. -/
def ofEscape : Option Expr → List Piece
  | none => []
  | some escape => after [word .ESCAPE] ++ after (ofExpr escape)

/-- The filter of an aggregate, or nothing. -/
def ofFilter : Option Expr → List Piece
  | none => []
  | some filter =>
    after [word .FILTER] ++ after (parenthesized (word .WHERE :: after (ofExpr filter)))

/-- A clause of a keyword and an expression, or nothing. -/
def ofClause (keyword : Keyword) : Option Expr → List (List Piece)
  | none => []
  | some expr => [word keyword :: after (ofExpr expr)]

/-- Expressions, one row of pieces for each. -/
def ofExprs : List Expr → List (List Piece)
  | [] => []
  | expr :: rest => ofExpr expr :: ofExprs rest

/-- A sort key. Its direction is always written. -/
def ofSortKey : SortKey → List Piece
  | ⟨expr, order, nulls, _⟩ => ofExpr expr ++ after [word order.word] ++ ofNullOrder nulls

/-- Sort keys, one row of pieces for each. -/
def ofSortKeys : List SortKey → List (List Piece)
  | [] => []
  | key :: rest => ofSortKey key :: ofSortKeys rest

/-- A grouping set. -/
def ofGroupingSet : GroupingSet → List Piece
  | ⟨columns, _⟩ => ofGrouping (ofExprs columns)

/-- Grouping sets, one row of pieces for each. -/
def ofGroupingSets : List GroupingSet → List (List Piece)
  | [] => []
  | set :: rest => ofGroupingSet set :: ofGroupingSets rest

/-- A relation. -/
def ofRel (place : Place) : Rel → List Piece
  | .join kind natural condition left right _ =>
    asQuery place <| parenthesized <|
      ofRel .source left ++ after (ofJoinWords kind natural condition) ++
        after (ofRel .source right) ++ ofCondition condition
  | .table name _ =>
    if place.isSource then qualified name else word .TABLE :: after (qualified name)
  | .named name columns relation _ =>
    asQuery place <|
      -- one alias behind another needs a parenthesis between the two
      parenthesizedWhen (place = .aliased) <|
        ofRel .aliased relation ++ after [word .AS] ++ after (withColumns name columns)
  | .select select => asSource place (ofSelect select)
  | .values rows _ =>
    if place = .members then commaSeparated (ofExprs rows)
    else asSource place (word .VALUES :: after (commaSeparated (ofExprs rows)))
  | .setOp op quantifier left right _ =>
    parenthesizedWhen (place ≠ .body && place ≠ .members) <|
      ofRel .operand left ++ .space :: word op.word :: .space ::
        (ofQuantifier quantifier ++ ofRel .operand right)
  | .query query => parenthesizedWhen (place ≠ .members) (ofQuery query)

/-- The condition of a join, or nothing. -/
def ofCondition : JoinCondition → List Piece
  | .absent => []
  | .onExpr condition => after [word .ON] ++ after (ofExpr condition)
  | .usingColumns columns => after [word .USING] ++ after (names columns)

/-- Relations among the sources of a projection, one row of pieces for each. -/
def ofSources : List Rel → List (List Piece)
  | [] => []
  | rel :: rest => ofRel .source rel :: ofSources rest

/-- The value of a frame bound. -/
def ofDistance : Option Expr → List Piece
  | none => [word .UNBOUNDED]
  | some value => ofExpr value

/-- A bound of a window frame. -/
def ofFrameBound : FrameBound → List Piece
  | ⟨.currentRow, _, _⟩ => words [.CURRENT, .ROW]
  | ⟨.preceding, value, _⟩ => ofDistance value ++ after [word .PRECEDING]
  | ⟨.following, value, _⟩ => ofDistance value ++ after [word .FOLLOWING]

/-- A window frame. -/
def ofFrame : Frame → List Piece
  | ⟨unit, start, none, exclusion, _⟩ =>
    word unit.word :: after (ofFrameBound start) ++ ofExclusion exclusion
  | ⟨unit, start, some stop, exclusion, _⟩ =>
    word unit.word :: after [word .BETWEEN] ++ after (ofFrameBound start) ++
      after [word .AND] ++ after (ofFrameBound stop) ++ ofExclusion exclusion

/-- A window frame, or nothing. -/
def ofFrameOption : Option Frame → List (List Piece)
  | none => []
  | some frame => [ofFrame frame]

/-- The body of a window definition. -/
def ofWindowSpec : WindowSpec → List Piece
  | ⟨existing, partitionBy, orderBy, frame, _⟩ =>
    parenthesized <| spaced <|
      existing.toList.map (fun existing => [Piece.name existing]) ++
      clause [.PARTITION, .BY] (ofExprs partitionBy) ++
      clause [.ORDER, .BY] (ofSortKeys orderBy) ++ ofFrameOption frame

/-- Window definitions, one row of pieces for each. -/
def ofWindows : List WindowDef → List (List Piece)
  | [] => []
  | ⟨name, spec, _⟩ :: rest =>
    (Piece.name name :: (after [word .AS] ++ after (ofWindowSpec spec))) :: ofWindows rest

/-- A projection. -/
def ofSelect : Select → List Piece
  | ⟨quantifier, targets, sources, selection, groupBy, having, windows, _⟩ =>
    spaced <|
      [word .SELECT :: after (ofQuantifier quantifier ++ commaSeparated (ofExprs targets))] ++
      clause [.FROM] (ofSources sources) ++ ofClause .WHERE selection ++
      ofGroupBy groupBy ++ ofClause .HAVING having ++ clause [.WINDOW] (ofWindows windows)

/-- The `GROUP BY` clause, or nothing. -/
def ofGroupBy : Option GroupClause → List (List Piece)
  | none => []
  | some ⟨quantifier, groupings, _⟩ =>
    [words [.GROUP, .BY] ++
      after (ofQuantifier quantifier ++ commaSeparated (ofExprs groupings))]

/-- Common table expressions, one row of pieces for each. -/
def ofCtes : List Cte → List (List Piece)
  | [] => []
  | ⟨name, columns, query, _⟩ :: rest =>
    (withColumns name columns ++ after [word .AS] ++ after (parenthesized (ofQuery query))) ::
      ofCtes rest

/-- The `WITH` clause, or nothing. -/
def ofWith : Option WithClause → List (List Piece)
  | none => []
  | some ⟨recursive, ctes, _⟩ =>
    [word .WITH :: after
      (when recursive [word .RECURSIVE, .space] ++ commaSeparated (ofCtes ctes))]

/-- The `OFFSET` clause, or nothing. -/
def ofOffset : Option Expr → List (List Piece)
  | none => []
  | some count => [word .OFFSET :: after (ofExpr count) ++ after [word .ROWS]]

/-- The count of a `FETCH` clause, or nothing. -/
def ofCount : Option Expr → List Piece
  | none => []
  | some count => after (ofExpr count)

/-- The `FETCH` clause, or nothing. -/
def ofFetch : Option Fetch → List (List Piece)
  | none => []
  | some ⟨kind, count, percent, withTies, _⟩ =>
    [words [.FETCH, kind.word] ++ ofCount count ++ when percent (after [word .PERCENT]) ++
      after (words (if withTies then [.ROWS, .WITH, .TIES] else [.ROWS, .ONLY]))]

/-- A query. -/
def ofQuery : Query → List Piece
  | ⟨withClause, body, orderBy, offset, fetch, _⟩ =>
    spaced <|
      ofWith withClause ++ [ofRel .body body] ++ clause [.ORDER, .BY] (ofSortKeys orderBy) ++
      ofOffset offset ++ ofFetch fetch

end

/-! Lists are laid out member by member. -/

theorem ofExprs_eq_map (exprs : List Expr) : ofExprs exprs = exprs.map ofExpr := by
  induction exprs with
  | nil => rfl
  | cons expr rest ih => simp [ofExprs, ih]

theorem ofSortKeys_eq_map (keys : List SortKey) : ofSortKeys keys = keys.map ofSortKey := by
  induction keys with
  | nil => rfl
  | cons key rest ih => simp [ofSortKeys, ih]

theorem ofGroupingSets_eq_map (sets : List GroupingSet) :
    ofGroupingSets sets = sets.map ofGroupingSet := by
  induction sets with
  | nil => rfl
  | cons set rest ih => simp [ofGroupingSets, ih]

theorem ofSources_eq_map (rels : List Rel) : ofSources rels = rels.map (ofRel .source) := by
  induction rels with
  | nil => rfl
  | cons rel rest ih => simp [ofSources, ih]

/-- A window definition. -/
def ofWindow (window : WindowDef) : List Piece :=
  Piece.name window.name :: (after [word .AS] ++ after (ofWindowSpec window.spec))

theorem ofWindows_eq_map (windows : List WindowDef) : ofWindows windows = windows.map ofWindow := by
  induction windows with
  | nil => rfl
  | cons window rest ih =>
    cases window
    simp [ofWindows, ofWindow, ih]

/-- A common table expression. -/
def ofCte (cte : Cte) : List Piece :=
  withColumns cte.name cte.columns ++ after [word .AS] ++ after (parenthesized (ofQuery cte.query))

theorem ofCtes_eq_map (ctes : List Cte) : ofCtes ctes = ctes.map ofCte := by
  induction ctes with
  | nil => rfl
  | cons cte rest ih =>
    cases cte
    simp [ofCtes, ofCte, ih]

end CanonicalSql.Canonical

namespace CanonicalSql

/-- The canonical text of an expression. -/
def Expr.sql (expr : Expr) : String := Piece.render (Canonical.ofExpr expr)

/-- The canonical text of a relation among the sources of a projection. -/
def Rel.sql (rel : Rel) : String := Piece.render (Canonical.ofRel .source rel)

/-- The canonical text of a query. -/
def Query.sql (query : Query) : String := Piece.render (Canonical.ofQuery query)

end CanonicalSql
