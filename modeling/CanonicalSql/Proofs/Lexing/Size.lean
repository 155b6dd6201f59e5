import CanonicalSql.Proofs.Lexing.Canonical
import CanonicalSql.Proofs.Readable

/-!
# Depth and length

Each level of a well-formed tree has a piece of its own in the layout, so that no tree is
deeper than its canonical text is long (`Statement.depth_le_size`). Two places need care: the
column of a grouping set and the members of `IN` may be levels without a piece, but what
stands around them always has one to spare.
-/
namespace CanonicalSql

namespace Piece

theorem length_parenthesized (row : List Piece) : (parenthesized row).length = row.length + 2 := by
  simp [parenthesized]

theorem length_after (row : List Piece) : (after row).length = row.length + 1 := rfl

/-- A qualified name has a piece at least. -/
theorem length_qualified (name : QualifiedName) : 1 ≤ (qualified name).length := by
  simp only [qualified, QualifiedName.parts, List.length_intersperse, List.length_map,
    List.length_append, List.length_singleton]
  omega

/-- The pieces of several rows. -/
def lengths (rows : List (List Piece)) : Nat := (rows.map List.length).sum

@[simp] theorem lengths_nil : lengths [] = 0 := rfl

@[simp] theorem lengths_cons (row : List Piece) (rows : List (List Piece)) :
    lengths (row :: rows) = row.length + lengths rows := rfl

@[simp] theorem lengths_append (first second : List (List Piece)) :
    lengths (first ++ second) = lengths first + lengths second := by
  simp [lengths]

theorem lengths_le_commaSeparated (rows : List (List Piece)) :
    lengths rows ≤ (commaSeparated rows).length := by
  induction rows with
  | nil => exact Nat.le_refl 0
  | cons row rows ih =>
    cases rows with
    | nil => exact Nat.le_refl _
    | cons next rows =>
      simp only [commaSeparated, lengths_cons, List.length_append, List.length_cons] at ih ⊢
      omega

theorem lengths_le_spaced (rows : List (List Piece)) : lengths rows ≤ (spaced rows).length := by
  induction rows with
  | nil => exact Nat.le_refl 0
  | cons row rows ih =>
    cases rows with
    | nil => exact Nat.le_refl _
    | cons next rows =>
      simp only [spaced, lengths_cons, List.length_append, List.length_cons] at ih ⊢
      omega

theorem lengths_le_clause (keywords : List Keyword) (rows : List (List Piece)) :
    lengths rows ≤ lengths (Canonical.clause keywords rows) := by
  cases rows with
  | nil => exact Nat.le_refl 0
  | cons row rows =>
    have commas := lengths_le_commaSeparated (row :: rows)
    simp only [Canonical.clause, lengths_cons, lengths_nil, List.length_append,
      length_after] at commas ⊢
    omega

/-- The columns of a grouping set, be they in parentheses or not. -/
theorem lengths_le_grouping (rows : List (List Piece)) :
    lengths rows ≤ (Canonical.ofGrouping rows).length := by
  match rows with
  | [row] => exact Nat.le_refl _
  | [] => exact Nat.zero_le _
  | row :: next :: rows =>
    have commas := lengths_le_commaSeparated (row :: next :: rows)
    simp only [Canonical.ofGrouping, length_parenthesized]
    omega

theorem length_le_parenthesizedWhen (condition : Bool) (row : List Piece) :
    row.length ≤ (Canonical.parenthesizedWhen condition row).length := by
  unfold Canonical.parenthesizedWhen
  split
  · rw [length_parenthesized]
    omega
  · exact Nat.le_refl _

theorem length_le_asSource (place : Canonical.Place) (row : List Piece) :
    row.length ≤ (Canonical.asSource place row).length :=
  length_le_parenthesizedWhen place.isSource row

/-- Where only a query can stand, the row gets two pieces to spare at least. -/
theorem length_le_asQuery (place : Canonical.Place) (row : List Piece) :
    row.length + (if place.isSource then 0 else 2) ≤ (Canonical.asQuery place row).length := by
  unfold Canonical.asQuery
  split
  · exact Nat.le_refl _
  · simp only [length_parenthesized, List.length_cons]
    omega

end Piece

namespace Canonical

open Outline Piece

/-- The levels for which no piece need be found: the one that a grouping set may be. -/
def spare (role : Expr.Role) : Nat := if role = .grouping then 1 else 0

/-- The pieces that a relation has beyond one for each level, the relation counted: a query
body has one to spare for the query. Among the members of `IN` one may be missing. -/
def Place.surplus : Place → Int
  | .source | .aliased => 0
  | .operand | .body => 1
  | .members => -1

@[simp] theorem Place.surplus_source : Place.source.surplus = 0 := rfl

@[simp] theorem Place.surplus_aliased : Place.aliased.surplus = 0 := rfl

@[simp] theorem Place.surplus_operand : Place.operand.surplus = 1 := rfl

@[simp] theorem Place.surplus_body : Place.body.surplus = 1 := rfl

@[simp] theorem Place.surplus_members : Place.members.surplus = -1 := rfl

theorem Place.surplus_le (place : Place) :
    place.surplus ≤ if place.isSource then 0 else 1 := by
  cases place <;> decide

mutual

theorem expr_depth : ∀ (expr : Expr) (role : Expr.Role), expr.Formed role →
    1 + depthAll (belowExpr expr) ≤ (ofExpr expr).length + spare role
  | .asterisk .., _, _ => by
    simp [belowExpr, ofExpr]
    omega
  | .integer .., _, _ | .float .., _, _ | .string .., _, _ | .truth .., _, _ | .null _, _, _ => by
    simp [belowExpr, ofExpr]
  | .column name _, _, _ => by
    have one := length_qualified name
    simp only [belowExpr, ofExpr, depthAll_nil]
    omega
  | .named _ expr _, _, formed => by
    have inner := expr_depth expr .value formed.2.2
    simp [belowExpr, ofExpr, plain_expr, depth_ofExpr, spare] at inner ⊢
    omega
  | .unary _ operand _, _, formed => by
    have inner := expr_depth operand .value formed.2
    simp [belowExpr, ofExpr, plain_expr, depth_ofExpr, spare, length_parenthesized,
      length_after] at inner ⊢
    omega
  | .binary left _ right _, _, formed => by
    have first := expr_depth left .value formed.2.1
    have second := expr_depth right .value formed.2.2
    simp [belowExpr, ofExpr, plain_expr, depth_ofExpr, spare, length_parenthesized,
      length_after] at first second ⊢
    omega
  | .collate expr _ _, _, formed => by
    have inner := expr_depth expr .value formed.2.1
    simp [belowExpr, ofExpr, plain_expr, depth_ofExpr, spare, length_parenthesized,
      length_after] at inner ⊢
    omega
  | .isTruth expr _ _, _, formed | .isNull expr _, _, formed => by
    have inner := expr_depth expr .value formed.2
    simp [belowExpr, ofExpr, plain_expr, depth_ofExpr, spare, length_parenthesized,
      length_after] at inner ⊢
    omega
  | .between expr low high _ _, _, formed => by
    have first := expr_depth expr .value formed.2.1
    have second := expr_depth low .value formed.2.2.1
    have third := expr_depth high .value formed.2.2.2
    simp [belowExpr, ofExpr, plain_expr, depth_ofExpr, spare, length_parenthesized,
      length_after] at first second third ⊢
    omega
  | .within expr rows _, _, formed => by
    have first := expr_depth expr .value formed.2.1
    have second := rel_depth rows .members .members formed.2.2
    simp [belowExpr, ofExpr, plain_expr, plain_rel, depth_ofExpr, depth_ofRel, spare,
      length_parenthesized, length_after] at first second ⊢
    omega
  | .like expr pattern escape _, _, formed => by
    have first := expr_depth expr .value formed.2.1
    have second := expr_depth pattern .value formed.2.2.1
    have third := escape_depth escape formed.2.2.2
    simp [belowExpr, ofExpr, plain_expr, depth_ofExpr, spare, length_parenthesized,
      length_after] at first second third ⊢
    omega
  | .existence query _, _, formed | .uniqueness query _, _, formed => by
    have inner := query_depth query formed.2
    simp [belowExpr, ofExpr, plain_query, depth_ofQuery, length_parenthesized,
      length_after] at inner ⊢
    omega
  | .row values _, _, formed => by
    have all := exprs_depth values .value formed.2
    have commas := lengths_le_commaSeparated (ofExprs values)
    simp [belowExpr, ofExpr, spare, length_parenthesized] at all commas ⊢
    omega
  | .subquery query _, _, formed => by
    have inner := query_depth query formed.2.1
    simp [belowExpr, ofExpr, plain_query, depth_ofQuery, length_parenthesized] at inner ⊢
    omega
  | .sortKey _, _, formed => formed.elim
  | .groupingSet set, _, formed => by
    have inner := groupingSet_depth set formed.2
    rw [formed.1]
    simp [belowExpr, ofExpr, spare] at inner ⊢
    omega
  | .groupingSets sets _, _, formed => by
    have all := exprs_depth sets .grouping formed.2.2
    have commas := lengths_le_commaSeparated (ofExprs sets)
    simp [belowExpr, ofExpr, spare, length_parenthesized, length_after] at all commas ⊢
    omega
  | .rollup sets _, _, formed | .cube sets _, _, formed => by
    have all := groupingSets_depth sets formed.2.2
    have commas := lengths_le_commaSeparated (ofGroupingSets sets)
    simp [belowExpr, ofExpr, length_parenthesized, length_after] at all commas ⊢
    omega
  | .aggregate _ _ argument filter _, _, formed => by
    have first := expr_depth argument .value formed.2.1
    have second := filter_depth filter formed.2.2
    simp [belowExpr, ofExpr, depth_ofExpr, spare, length_parenthesized] at first second ⊢
    omega

theorem escape_depth : ∀ escape : Option Expr, Expr.OptionFormed escape →
    depthAll (ofOption escape) ≤ (ofEscape escape).length
  | none, _ => Nat.le_refl 0
  | some escape, formed => by
    have inner := expr_depth escape .value formed
    simp [ofOption, ofEscape, plain_expr, depth_ofExpr, spare, length_after] at inner ⊢
    omega

theorem filter_depth : ∀ filter : Option Expr, Expr.OptionFormed filter →
    depthAll (ofOption filter) ≤ (ofFilter filter).length
  | none, _ => Nat.le_refl 0
  | some filter, formed => by
    have inner := expr_depth filter .value formed
    simp [ofOption, ofFilter, plain_expr, depth_ofExpr, spare, length_parenthesized,
      length_after] at inner ⊢
    omega

theorem clauseOf_depth : ∀ (expr : Option Expr) (keyword : Keyword), Expr.OptionFormed expr →
    depthAll (ofOption expr) ≤ lengths (ofClause keyword expr)
  | none, _, _ => Nat.le_refl 0
  | some expr, _, formed => by
    have inner := expr_depth expr .value formed
    simp [ofOption, ofClause, plain_expr, depth_ofExpr, spare, length_after] at inner ⊢
    omega

theorem exprs_depth : ∀ (exprs : List Expr) (role : Expr.Role), Expr.AllFormed role exprs →
    depthAll (Outline.ofExprs exprs) ≤ lengths (ofExprs exprs) + spare role
  | [], _, _ => Nat.zero_le _
  | expr :: rest, role, formed => by
    have first := expr_depth expr role formed.1
    have others := exprs_depth rest role formed.2
    simp [Outline.ofExprs, ofExprs, plain_expr, depth_ofExpr] at first others ⊢
    omega

theorem targets_depth : ∀ exprs : List Expr, Expr.AllFormed .target exprs →
    depthAll (ofTargets exprs) ≤ lengths (ofExprs exprs)
  | [], _ => Nat.zero_le _
  | expr :: rest, formed => by
    have first := expr_depth expr .target formed.1
    have others := targets_depth rest formed.2
    simp [ofTargets, ofExprs, depth_ofExpr, spare] at first others ⊢
    omega

theorem sortKeys_depth : ∀ keys : List SortKey, SortKey.AllFormed keys →
    depthAll (Outline.ofSortKeys keys) ≤ lengths (ofSortKeys keys)
  | [], _ => Nat.le_refl 0
  | ⟨expr, order, nulls, span⟩ :: rest, formed => by
    have first := expr_depth expr .value formed.1
    have others := sortKeys_depth rest formed.2
    simp [Outline.ofSortKeys, ofSortKeys, ofSortKey, depth_ofExpr, spare,
      length_after] at first others ⊢
    omega

theorem groupingSet_depth : ∀ set : GroupingSet, set.Formed →
    depthAll (belowGroupingSet set) ≤ (ofGroupingSet set).length
  | ⟨columns, _⟩, formed => by
    have all := exprs_depth columns .value formed
    have grouping := lengths_le_grouping (ofExprs columns)
    simp [belowGroupingSet, ofGroupingSet, spare] at all ⊢
    omega

theorem groupingSets_depth : ∀ sets : List GroupingSet, GroupingSet.AllFormed sets →
    depthAll (belowGroupingSets sets) ≤ lengths (ofGroupingSets sets)
  | [], _ => Nat.le_refl 0
  | set :: rest, formed => by
    have first := groupingSet_depth set formed.1
    have others := groupingSets_depth rest formed.2
    simp [belowGroupingSets, ofGroupingSets] at first others ⊢
    omega

theorem rel_depth : ∀ (rel : Rel) (place : Place) (role : Rel.Role), rel.Formed role →
    1 + depthAll (belowRel rel) + place.surplus ≤ (ofRel place rel).length
  | .join kind natural condition left right _, place, _, formed => by
    have first := rel_depth left .source .source formed.2.2.2.1
    have second := rel_depth right .source .source formed.2.2.2.2
    have third := condition_depth condition formed.2.2.1
    have around := length_le_asQuery place (parenthesized
      (ofRel .source left ++ after (ofJoinWords kind natural condition) ++
        after (ofRel .source right) ++ ofCondition condition))
    have most := place.surplus_le
    simp only [belowRel, ofRel, plain_rel, depthAll_cons, depthAll_append, depthAll_nil,
      depth_ofRel, depth_plain, Node.isLevel, Bool.false_eq_true, ↓reduceIte,
      length_parenthesized, length_after, List.length_append,
      Place.surplus_source] at first second third around ⊢
    omega
  | .table name _, place, _, _ => by
    have one := length_qualified name
    simp only [belowRel, ofRel, depthAll_cons, depthAll_nil, depth_plain, Node.isLevel]
    cases place <;> simp [Place.isSource, length_after] <;> omega
  | .named name columns relation _, place, _, formed => by
    have inner := rel_depth relation .aliased .source formed.2.2.2
    have enclosed := length_le_parenthesizedWhen (place = .aliased)
      (ofRel .aliased relation ++ after [word .AS] ++ after (withColumns name columns))
    have around := length_le_asQuery place (parenthesizedWhen (place = .aliased)
      (ofRel .aliased relation ++ after [word .AS] ++ after (withColumns name columns)))
    have most := place.surplus_le
    simp only [belowRel, ofRel, plain_rel, depthAll_cons, depthAll_nil, depth_ofRel,
      length_after, List.length_append, Place.surplus_aliased] at inner enclosed around ⊢
    omega
  | .select select, place, _, formed => by
    have inner := select_depth select formed.2
    have around := length_le_asSource place (ofSelect select)
    have most := place.surplus_le
    simp only [belowRel, ofRel, depthAll_cons, depthAll_nil, depth_plain, Node.isLevel,
      Bool.false_eq_true, ↓reduceIte] at around ⊢
    omega
  | .values rows _, place, _, formed => by
    have all := exprs_depth rows .value formed.2.2
    have commas := lengths_le_commaSeparated (ofExprs rows)
    have around := length_le_asSource place (word .VALUES :: after (commaSeparated (ofExprs rows)))
    have most := place.surplus_le
    simp only [belowRel, ofRel, spare] at all around ⊢
    split
    · next members =>
      simp [members] at all ⊢
      omega
    · simp [length_after] at all around ⊢
      omega
  | .setOp op quantifier left right _, place, _, formed => by
    have first := rel_depth left .operand .operand formed.2.1
    have second := rel_depth right .operand .operand formed.2.2
    have around := length_le_parenthesizedWhen (place ≠ .body && place ≠ .members)
      (ofRel .operand left ++ .space :: word op.word :: .space ::
        (ofQuantifier quantifier ++ ofRel .operand right))
    have most := place.surplus_le
    simp only [belowRel, ofRel, plain_rel, depthAll_cons, depthAll_nil, depth_ofRel,
      List.length_append, List.length_cons, Place.surplus_operand] at first second around ⊢
    omega
  | .query query, place, _, formed => by
    have inner := query_depth query formed.1
    simp only [belowRel, ofRel, plain_query, depthAll_cons, depthAll_nil, depth_ofQuery]
    cases place <;> simp [parenthesizedWhen, length_parenthesized] <;> omega

theorem condition_depth : ∀ condition : JoinCondition, condition.Formed →
    depthAll (belowCondition condition) ≤ (ofCondition condition).length
  | .absent, _ | .usingColumns _, _ => Nat.zero_le _
  | .onExpr condition, formed => by
    have inner := expr_depth condition .value formed
    simp [belowCondition, ofCondition, plain_expr, depth_ofExpr, spare, length_after] at inner ⊢
    omega

theorem sources_depth : ∀ rels : List Rel, Rel.AllFormed rels →
    depthAll (ofRels rels) ≤ lengths (ofSources rels)
  | [], _ => Nat.le_refl 0
  | rel :: rest, formed => by
    have first := rel_depth rel .source .source formed.1
    have others := sources_depth rest formed.2
    simp only [ofRels, ofSources, plain_rel, depthAll_cons, depth_ofRel, lengths_cons,
      Place.surplus_source] at first others ⊢
    omega

theorem distance_depth : ∀ value : Option Expr, Expr.OptionFormed value →
    depthAll (ofOption value) ≤ (ofDistance value).length
  | none, _ => Nat.zero_le _
  | some value, formed => by
    have inner := expr_depth value .value formed
    simp [ofOption, ofDistance, plain_expr, depth_ofExpr, spare] at inner ⊢
    omega

theorem frameBound_depth : ∀ bound : FrameBound, bound.Formed →
    depthAll (belowFrameBound bound) ≤ (ofFrameBound bound).length
  | ⟨.currentRow, value, _⟩, formed => by
    rw [formed.2 rfl]
    exact Nat.zero_le _
  | ⟨.preceding, value, _⟩, formed | ⟨.following, value, _⟩, formed => by
    have inner := distance_depth value formed.1
    simp [belowFrameBound, ofFrameBound] at inner ⊢
    omega

theorem frame_depth : ∀ frame : Option Frame, Frame.OptionFormed frame →
    depthAll (belowFrame frame) ≤ lengths (ofFrameOption frame)
  | none, _ => Nat.le_refl 0
  | some ⟨_, start, none, _, _⟩, formed => by
    have inner := frameBound_depth start formed.1
    simp [belowFrame, ofFrameOption, ofFrame, length_after] at inner ⊢
    omega
  | some ⟨_, start, some stop, _, _⟩, formed => by
    have first := frameBound_depth start formed.1
    have second := frameBound_depth stop formed.2
    simp [belowFrame, ofFrameOption, ofFrame, length_after] at first second ⊢
    omega

theorem windowSpec_depth : ∀ spec : WindowSpec, spec.Formed →
    depthAll (belowWindowSpec spec) ≤ (ofWindowSpec spec).length
  | ⟨existing, partitionBy, orderBy, frame, _⟩, formed => by
    have first := exprs_depth partitionBy .value formed.2.1
    have second := sortKeys_depth orderBy formed.2.2.1
    have third := frame_depth frame formed.2.2.2
    have partition := lengths_le_clause [.PARTITION, .BY] (ofExprs partitionBy)
    have order := lengths_le_clause [.ORDER, .BY] (ofSortKeys orderBy)
    have spaces := lengths_le_spaced (existing.toList.map (fun existing => [Piece.name existing]) ++
      clause [.PARTITION, .BY] (ofExprs partitionBy) ++
      clause [.ORDER, .BY] (ofSortKeys orderBy) ++ ofFrameOption frame)
    simp only [belowWindowSpec, ofWindowSpec, depthAll_append, lengths_append,
      length_parenthesized, spare, reduceCtorEq, ↓reduceIte] at first second third spaces ⊢
    omega

theorem windows_depth : ∀ windows : List WindowDef, WindowDef.AllFormed windows →
    depthAll (Outline.ofWindows windows) ≤ lengths (ofWindows windows)
  | [], _ => Nat.le_refl 0
  | ⟨_, spec, _⟩ :: rest, formed => by
    have first := windowSpec_depth spec formed.2.1
    have others := windows_depth rest formed.2.2
    simp [Outline.ofWindows, ofWindows, depth_plain, Node.isLevel, length_after] at first others ⊢
    omega

theorem select_depth : ∀ select : Select, select.Formed →
    2 + depthAll (belowSelect select) ≤ (ofSelect select).length
  | ⟨quantifier, targets, sources, selection, groupBy, having, windows, _⟩, formed => by
    obtain ⟨-, isTargets, isSources, isSelection, isGroupBy, isHaving, isWindows⟩ := formed
    have first := targets_depth targets isTargets
    have commas := lengths_le_commaSeparated (ofExprs targets)
    have second := sources_depth sources isSources
    have read := lengths_le_clause [.FROM] (ofSources sources)
    have third := clauseOf_depth selection .WHERE isSelection
    have fourth := groupBy_depth groupBy isGroupBy
    have fifth := clauseOf_depth having .HAVING isHaving
    have sixth := windows_depth windows isWindows
    have window := lengths_le_clause [.WINDOW] (ofWindows windows)
    have spaces := lengths_le_spaced
      ([word .SELECT :: after (ofQuantifier quantifier ++ commaSeparated (ofExprs targets))] ++
        clause [.FROM] (ofSources sources) ++ ofClause .WHERE selection ++
        ofGroupBy groupBy ++ ofClause .HAVING having ++ clause [.WINDOW] (ofWindows windows))
    simp only [belowSelect, ofSelect, depthAll_append, lengths_append, lengths_cons, lengths_nil,
      List.length_cons, List.length_append, length_after] at first second third spaces ⊢
    omega

theorem groupBy_depth : ∀ groupBy : Option GroupClause, GroupClause.OptionFormed groupBy →
    depthAll (belowGroupBy groupBy) ≤ lengths (ofGroupBy groupBy)
  | none, _ => Nat.le_refl 0
  | some ⟨quantifier, groupings, _⟩, formed => by
    have all := exprs_depth groupings .grouping formed.2
    have commas := lengths_le_commaSeparated (ofExprs groupings)
    simp [belowGroupBy, ofGroupBy, spare, length_after] at all commas ⊢
    omega

theorem ctes_depth : ∀ ctes : List Cte, Cte.AllFormed ctes →
    depthAll (Outline.ofCtes ctes) ≤ lengths (ofCtes ctes)
  | [], _ => Nat.le_refl 0
  | ⟨_, _, query, _⟩ :: rest, formed => by
    have first := query_depth query formed.2.2.1
    have others := ctes_depth rest formed.2.2.2
    simp [Outline.ofCtes, ofCtes, depth_plain, Node.isLevel, length_parenthesized,
      length_after] at first others ⊢
    omega

theorem with_depth : ∀ withClause : Option WithClause, WithClause.OptionFormed withClause →
    depthAll (belowWith withClause) ≤ lengths (ofWith withClause)
  | none, _ => Nat.le_refl 0
  | some ⟨recursive, ctes, _⟩, formed => by
    have all := ctes_depth ctes formed.2
    have commas := lengths_le_commaSeparated (ofCtes ctes)
    simp [belowWith, ofWith, length_after] at all commas ⊢
    omega

theorem offset_depth : ∀ offset : Option Expr, Expr.OptionFormed offset →
    depthAll (ofOption offset) ≤ lengths (ofOffset offset)
  | none, _ => Nat.le_refl 0
  | some count, formed => by
    have inner := expr_depth count .value formed
    simp [ofOption, ofOffset, plain_expr, depth_ofExpr, spare, length_after] at inner ⊢
    omega

theorem fetch_depth : ∀ fetch : Option Fetch, Fetch.OptionFormed fetch →
    depthAll (belowFetch fetch) ≤ lengths (ofFetch fetch)
  | none, _ | some ⟨_, none, _, _, _⟩, _ => Nat.zero_le _
  | some ⟨_, some count, _, _, _⟩, formed => by
    have inner := expr_depth count .value formed.1
    simp [belowFetch, ofOption, ofFetch, ofCount, plain_expr, depth_ofExpr, spare,
      length_after] at inner ⊢
    omega

theorem query_depth : ∀ query : Query, query.Formed →
    1 + depthAll (belowQuery query) ≤ (ofQuery query).length
  | ⟨withClause, body, orderBy, offset, fetch, _⟩, formed => by
    obtain ⟨isWith, isBody, isOrderBy, isOffset, isFetch⟩ := formed
    have first := with_depth withClause isWith
    have second := rel_depth body .body .operand isBody
    have third := sortKeys_depth orderBy isOrderBy
    have order := lengths_le_clause [.ORDER, .BY] (ofSortKeys orderBy)
    have fourth := offset_depth offset isOffset
    have fifth := fetch_depth fetch isFetch
    have spaces := lengths_le_spaced (ofWith withClause ++ [ofRel .body body] ++
      clause [.ORDER, .BY] (ofSortKeys orderBy) ++ ofOffset offset ++ ofFetch fetch)
    simp only [belowQuery, ofQuery, plain_rel, depthAll_append, depthAll_cons, depthAll_nil,
      depth_ofRel, lengths_append, lengths_cons, lengths_nil, Place.surplus_body] at second spaces ⊢
    omega

end

/-! ## Statements -/

theorem columnDefault_depth {value : ColumnDefault} (formed : value.Formed) :
    depthAll (belowDefault (some value)) ≤ (ofColumnDefault value).length := by
  cases value with
  | user user => exact Nat.zero_le _
  | null => exact Nat.zero_le _
  | expr value =>
    have inner := expr_depth value .value formed
    cases value with
    | null span => exact Nat.le_add_left 1 2
    | _ =>
      simp only [belowDefault, ofColumnDefault, depthAll_cons, depthAll_nil, depth_ofExpr, spare,
        reduceCtorEq, ↓reduceIte] at inner ⊢
      omega

theorem columnDef_depth {column : ColumnDef} (formed : column.Formed) :
    (Outline.ofColumnDef column).depth ≤ (ofColumnDef column).length := by
  have inner (value : ColumnDefault) (member : value ∈ column.default) :=
    columnDefault_depth (formed.default value member)
  rw [Outline.ofColumnDef, depth_plain]
  cases isDefault : column.default with
  | none => exact Nat.zero_le _
  | some value =>
    have least := inner value isDefault
    simp only [Node.isLevel, Bool.false_eq_true, ↓reduceIte, ofColumnDef, isDefault, optional,
      List.length_append, length_after] at least ⊢
    omega

theorem columnDefs_depth {columns : List ColumnDef} (formed : ∀ column ∈ columns, column.Formed) :
    depthAll (columns.map Outline.ofColumnDef) ≤ lengths (columns.map ofColumnDef) := by
  induction columns with
  | nil => exact Nat.le_refl 0
  | cons column columns ih =>
    obtain ⟨isFormed, others⟩ := List.forall_mem_cons.mp formed
    have first := columnDef_depth isFormed
    have rest := ih others
    simp only [List.map_cons, depthAll_cons, lengths_cons] at rest ⊢
    omega

/-- A well-formed statement has no more levels than its layout has pieces. -/
theorem statement_depth {statement : Statement} (formed : statement.Formed) :
    (Outline.ofStatement statement).depth ≤ (ofStatement statement).length := by
  cases statement with
  | create definition =>
    have columns := columnDefs_depth formed.columns
    have commas := lengths_le_commaSeparated (definition.columns.map ofColumnDef)
    simp [Outline.ofStatement, ofStatement, ofCreate, depth_plain, Node.isLevel,
      length_parenthesized, length_after]
    omega
  | insert insertion =>
    obtain ⟨table, columns, policy, source, span⟩ := insertion
    cases source with
    | defaultValues => simp [Outline.ofStatement, depth_plain, Node.isLevel]
    | query rows =>
      have inner := query_depth rows formed.2.2
      simp [Outline.ofStatement, ofStatement, ofInsert, depth_plain, depth_ofQuery, Node.isLevel,
        length_after]
      omega
  | delete deletion =>
    obtain ⟨table, only, selection, span⟩ := deletion
    cases selection with
    | none => simp [Outline.ofStatement, depth_plain, Node.isLevel]
    | some selection =>
      have inner := expr_depth selection .value formed.2
      simp [Outline.ofStatement, ofStatement, ofDelete, depth_plain, depth_ofExpr, Node.isLevel,
        length_after, optional, spare] at inner ⊢
      omega
  | select query span =>
    have inner := query_depth query formed
    simpa [Outline.ofStatement, ofStatement, depth_plain, depth_ofQuery, Node.isLevel] using inner

end Canonical

namespace Piece

/-- A row is no longer than its text. -/
theorem length_le_render {row : List Piece} (written : Written row) :
    row.length ≤ (render row).utf8ByteSize := by
  induction row with
  | nil => exact Nat.zero_le _
  | cons piece row ih =>
    have text : render (piece :: row) = piece.text ++ render row := by
      rw [← List.singleton_append, render_append]
      simp [render]
    rw [text, String.utf8ByteSize_append, List.length_cons]
    cases piece with
    | space =>
      have others := ih written
      have one : Piece.space.text.utf8ByteSize = 1 := rfl
      omega
    | token kind =>
      obtain ⟨⟨lexical, notEnd⟩, -, others⟩ := written
      have alone : kind.ReadBefore (render []).toList :=
        readBefore_of_tells fun _ next => by cases next
      obtain ⟨c, more, isText, -⟩ := Kind.begins_spelling lexical notEnd alone
      have nonempty : (Piece.token kind).text.utf8ByteSize ≠ 0 := by
        rw [Ne, String.utf8ByteSize_eq_zero_iff]
        intro isEmpty
        have isNil : kind.spelling.toList = [] := by
          rw [show kind.spelling = "" from isEmpty]
          rfl
        simp [isNil, render] at isText
      have rest := ih others
      omega

end Piece

/-- No well-formed statement is deeper than its canonical text is long. -/
theorem Statement.depth_le_size {statement : Statement} (formed : statement.Formed) :
    (Outline.ofStatement statement).depth ≤ statement.sql.utf8ByteSize :=
  Nat.le_trans (Canonical.statement_depth formed)
    (Piece.length_le_render (Canonical.statement_written formed))

end CanonicalSql
