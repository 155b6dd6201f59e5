import CanonicalSql.Proofs.Erase
import CanonicalSql.Proofs.Readable

/-!
# What erasing keeps

The canonical text of a tree and the depth of its outline are those of the erased tree. So
trees that are alike have the same text and the same depth.
-/
namespace CanonicalSql

namespace Canonical

mutual

theorem ofExpr_erase : ∀ expr : Expr, ofExpr expr.erase = ofExpr expr
  | .asterisk .. | .integer .. | .float .. | .string .. | .truth .. | .null _ | .column .. => by
    simp [Expr.erase, ofExpr]
  | .named _ expr _ => by simp [Expr.erase, ofExpr, ofExpr_erase expr]
  | .unary _ operand _ => by simp [Expr.erase, ofExpr, ofExpr_erase operand]
  | .binary left _ right _ => by
    simp [Expr.erase, ofExpr, ofExpr_erase left, ofExpr_erase right]
  | .collate expr _ _ => by simp [Expr.erase, ofExpr, ofExpr_erase expr]
  | .isTruth expr _ _ => by simp [Expr.erase, ofExpr, ofExpr_erase expr]
  | .isNull expr _ => by simp [Expr.erase, ofExpr, ofExpr_erase expr]
  | .between expr low high _ _ => by
    simp [Expr.erase, ofExpr, ofExpr_erase expr, ofExpr_erase low, ofExpr_erase high]
  | .within expr rows _ => by
    simp [Expr.erase, ofExpr, ofExpr_erase expr, ofRel_erase rows]
  | .like expr pattern escape _ => by
    simp [Expr.erase, ofExpr, ofExpr_erase expr, ofExpr_erase pattern, ofEscape_erase escape]
  | .existence query _ => by simp [Expr.erase, ofExpr, ofQuery_erase query]
  | .uniqueness query _ => by simp [Expr.erase, ofExpr, ofQuery_erase query]
  | .row values _ => by simp [Expr.erase, ofExpr, ofExprs_erase values]
  | .subquery query _ => by simp [Expr.erase, ofExpr, ofQuery_erase query]
  | .sortKey key => by simp [Expr.erase, ofExpr, ofSortKey_erase key]
  | .groupingSet set => by simp [Expr.erase, ofExpr, ofGroupingSet_erase set]
  | .groupingSets sets _ => by simp [Expr.erase, ofExpr, ofExprs_erase sets]
  | .rollup sets _ => by simp [Expr.erase, ofExpr, ofGroupingSets_erase sets]
  | .cube sets _ => by simp [Expr.erase, ofExpr, ofGroupingSets_erase sets]
  | .aggregate _ _ argument filter _ => by
    simp [Expr.erase, ofExpr, ofExpr_erase argument, ofFilter_erase filter]

theorem ofEscape_erase : ∀ escape : Option Expr,
    ofEscape (Expr.eraseOption escape) = ofEscape escape
  | none => rfl
  | some escape => by simp [Expr.eraseOption, ofEscape, ofExpr_erase escape]

theorem ofFilter_erase : ∀ filter : Option Expr,
    ofFilter (Expr.eraseOption filter) = ofFilter filter
  | none => rfl
  | some filter => by simp [Expr.eraseOption, ofFilter, ofExpr_erase filter]

theorem ofClause_erase : ∀ (expr : Option Expr) (keyword : Keyword),
    ofClause keyword (Expr.eraseOption expr) = ofClause keyword expr
  | none, _ => rfl
  | some expr, _ => by simp [Expr.eraseOption, ofClause, ofExpr_erase expr]

theorem ofExprs_erase : ∀ exprs : List Expr, ofExprs (Expr.eraseAll exprs) = ofExprs exprs
  | [] => rfl
  | expr :: rest => by
    simp [Expr.eraseAll, ofExprs, ofExpr_erase expr, ofExprs_erase rest]

theorem ofSortKey_erase : ∀ key : SortKey, ofSortKey key.erase = ofSortKey key
  | ⟨expr, _, _, _⟩ => by simp [SortKey.erase, ofSortKey, ofExpr_erase expr]

theorem ofSortKeys_erase : ∀ keys : List SortKey,
    ofSortKeys (SortKey.eraseAll keys) = ofSortKeys keys
  | [] => rfl
  | key :: rest => by
    simp [SortKey.eraseAll, ofSortKeys, ofSortKey_erase key, ofSortKeys_erase rest]

theorem ofGroupingSet_erase : ∀ set : GroupingSet, ofGroupingSet set.erase = ofGroupingSet set
  | ⟨columns, _⟩ => by simp [GroupingSet.erase, ofGroupingSet, ofExprs_erase columns]

theorem ofGroupingSets_erase : ∀ sets : List GroupingSet,
    ofGroupingSets (GroupingSet.eraseAll sets) = ofGroupingSets sets
  | [] => rfl
  | set :: rest => by
    simp [GroupingSet.eraseAll, ofGroupingSets, ofGroupingSet_erase set,
      ofGroupingSets_erase rest]

theorem ofRel_erase : ∀ (rel : Rel) (place : Place), ofRel place rel.erase = ofRel place rel
  | .join kind natural condition left right _, place => by
    have words : ofJoinWords kind natural condition.erase = ofJoinWords kind natural condition := by
      cases condition <;> rfl
    simp [Rel.erase, ofRel, words, ofRel_erase left, ofRel_erase right,
      ofCondition_erase condition]
  | .table .., place => by simp [Rel.erase, ofRel]
  | .named _ _ relation _, place => by simp [Rel.erase, ofRel, ofRel_erase relation]
  | .select select, place => by simp [Rel.erase, ofRel, ofSelect_erase select]
  | .values rows _, place => by simp [Rel.erase, ofRel, ofExprs_erase rows]
  | .setOp _ _ left right _, place => by
    simp [Rel.erase, ofRel, ofRel_erase left, ofRel_erase right]
  | .query query, place => by simp [Rel.erase, ofRel, ofQuery_erase query]

theorem ofSources_erase : ∀ rels : List Rel, ofSources (Rel.eraseAll rels) = ofSources rels
  | [] => rfl
  | rel :: rest => by
    simp [Rel.eraseAll, ofSources, ofRel_erase rel, ofSources_erase rest]

theorem ofCondition_erase : ∀ condition : JoinCondition,
    ofCondition condition.erase = ofCondition condition
  | .absent | .usingColumns _ => rfl
  | .onExpr condition => by simp [JoinCondition.erase, ofCondition, ofExpr_erase condition]

theorem ofDistance_erase : ∀ value : Option Expr,
    ofDistance (Expr.eraseOption value) = ofDistance value
  | none => rfl
  | some value => by simp [Expr.eraseOption, ofDistance, ofExpr_erase value]

theorem ofFrameBound_erase : ∀ bound : FrameBound,
    ofFrameBound bound.erase = ofFrameBound bound
  | ⟨kind, value, _⟩ => by
    cases kind <;> simp [FrameBound.erase, ofFrameBound, ofDistance_erase value]

theorem ofFrame_erase : ∀ frame : Frame, ofFrame frame.erase = ofFrame frame
  | ⟨_, start, none, _, _⟩ => by
    simp [Frame.erase, FrameBound.eraseOption, ofFrame, ofFrameBound_erase start]
  | ⟨_, start, some stop, _, _⟩ => by
    simp [Frame.erase, FrameBound.eraseOption, ofFrame, ofFrameBound_erase start,
      ofFrameBound_erase stop]

theorem ofFrameOption_erase : ∀ frame : Option Frame,
    ofFrameOption (Frame.eraseOption frame) = ofFrameOption frame
  | none => rfl
  | some frame => by simp [Frame.eraseOption, ofFrameOption, ofFrame_erase frame]

theorem ofWindowSpec_erase : ∀ spec : WindowSpec, ofWindowSpec spec.erase = ofWindowSpec spec
  | ⟨_, partitionBy, orderBy, frame, _⟩ => by
    simp [WindowSpec.erase, ofWindowSpec, ofExprs_erase partitionBy,
      ofSortKeys_erase orderBy, ofFrameOption_erase frame]

theorem ofWindows_erase : ∀ windows : List WindowDef,
    ofWindows (WindowDef.eraseAll windows) = ofWindows windows
  | [] => rfl
  | ⟨_, spec, _⟩ :: rest => by
    simp [WindowDef.eraseAll, ofWindows, ofWindowSpec_erase spec, ofWindows_erase rest]

theorem ofSelect_erase : ∀ select : Select, ofSelect select.erase = ofSelect select
  | ⟨_, targets, sources, selection, groupBy, having, windows, _⟩ => by
    simp [Select.erase, ofSelect, ofExprs_erase targets, ofSources_erase sources,
      ofClause_erase selection, ofGroupBy_erase groupBy, ofClause_erase having,
      ofWindows_erase windows]

theorem ofGroupBy_erase : ∀ groupBy : Option GroupClause,
    ofGroupBy (GroupClause.eraseOption groupBy) = ofGroupBy groupBy
  | none => rfl
  | some ⟨_, groupings, _⟩ => by
    simp [GroupClause.eraseOption, ofGroupBy, ofExprs_erase groupings]

theorem ofCtes_erase : ∀ ctes : List Cte, ofCtes (Cte.eraseAll ctes) = ofCtes ctes
  | [] => rfl
  | ⟨_, _, query, _⟩ :: rest => by
    simp [Cte.eraseAll, ofCtes, ofQuery_erase query, ofCtes_erase rest]

theorem ofWith_erase : ∀ withClause : Option WithClause,
    ofWith (WithClause.eraseOption withClause) = ofWith withClause
  | none => rfl
  | some ⟨_, ctes, _⟩ => by simp [WithClause.eraseOption, ofWith, ofCtes_erase ctes]

theorem ofOffset_erase : ∀ offset : Option Expr,
    ofOffset (Expr.eraseOption offset) = ofOffset offset
  | none => rfl
  | some offset => by simp [Expr.eraseOption, ofOffset, ofExpr_erase offset]

theorem ofCount_erase : ∀ count : Option Expr,
    ofCount (Expr.eraseOption count) = ofCount count
  | none => rfl
  | some count => by simp [Expr.eraseOption, ofCount, ofExpr_erase count]

theorem ofFetch_erase : ∀ fetch : Option Fetch,
    ofFetch (Fetch.eraseOption fetch) = ofFetch fetch
  | none => rfl
  | some ⟨_, count, _, _, _⟩ => by simp [Fetch.eraseOption, ofFetch, ofCount_erase count]

theorem ofQuery_erase : ∀ query : Query, ofQuery query.erase = ofQuery query
  | ⟨withClause, body, orderBy, offset, fetch, _⟩ => by
    simp [Query.erase, ofQuery, ofWith_erase withClause, ofRel_erase body,
      ofSortKeys_erase orderBy, ofOffset_erase offset, ofFetch_erase fetch]

end

theorem ofColumnConstraint_erase (constraint : ColumnConstraint) :
    ofColumnConstraint constraint.erase = ofColumnConstraint constraint := by
  obtain ⟨name, kind, span⟩ := constraint
  cases kind <;> rfl

theorem ofTableConstraint_erase (constraint : TableConstraint) :
    ofTableConstraint constraint.erase = ofTableConstraint constraint := by
  obtain ⟨name, kind, span⟩ := constraint
  cases kind <;> rfl

theorem ofColumnDefault_erase (value : ColumnDefault) :
    ofColumnDefault value.erase = ofColumnDefault value := by
  cases value with
  | user | null => rfl
  | expr expr =>
    have same := ofExpr_erase expr
    cases expr with
    | null => rfl
    | _ => exact same

theorem ofColumnDef_erase (column : ColumnDef) :
    ofColumnDef column.erase = ofColumnDef column := by
  obtain ⟨name, dataType, default, constraints, collation, span⟩ := column
  cases default <;>
    simp [ColumnDef.erase, ofColumnDef, optional, ofColumnDefault_erase, List.flatMap_map,
      ofColumnConstraint_erase]

/-- The canonical text of a statement is that of the erased statement. -/
theorem ofStatement_erase (statement : Statement) :
    ofStatement statement.erase = ofStatement statement := by
  cases statement with
  | create definition =>
    have columns : (ofColumnDef ∘ ColumnDef.erase) = ofColumnDef := funext ofColumnDef_erase
    simp [Statement.erase, Create.erase, ofStatement, ofCreate, columns, List.flatMap_map,
      ofTableConstraint_erase]
  | insert insertion =>
    obtain ⟨table, columns, overriding, source, span⟩ := insertion
    cases source <;>
      simp [Statement.erase, InsertSource.erase, ofStatement, ofInsert, ofQuery_erase]
  | delete deletion =>
    obtain ⟨table, only, selection, span⟩ := deletion
    cases selection <;>
      simp [Statement.erase, Expr.eraseOption, ofStatement, ofDelete, optional, ofExpr_erase]
  | select query span => simp [Statement.erase, ofStatement, ofQuery_erase]

end Canonical

namespace Outline

mutual

theorem belowExpr_erase : ∀ expr : Expr,
    depthAll (belowExpr expr.erase) = depthAll (belowExpr expr)
  | .asterisk .. | .integer .. | .float .. | .string .. | .truth .. | .null _ | .column .. => rfl
  | .named _ expr _ | .collate expr _ _ | .isTruth expr _ _ | .isNull expr _ => by
    simp [Expr.erase, belowExpr, depthAll, depth_plain, Node.isLevel, belowExpr_erase expr]
  | .unary _ operand _ => by
    simp [Expr.erase, belowExpr, depthAll, depth_plain, Node.isLevel, belowExpr_erase operand]
  | .binary left _ right _ => by
    simp [Expr.erase, belowExpr, depthAll, depth_plain, Node.isLevel, belowExpr_erase left,
      belowExpr_erase right]
  | .between expr low high _ _ => by
    simp [Expr.erase, belowExpr, depthAll, depth_plain, Node.isLevel, belowExpr_erase expr,
      belowExpr_erase low, belowExpr_erase high]
  | .within expr rows _ => by
    simp [Expr.erase, belowExpr, depthAll, depth_plain, Node.isLevel, belowExpr_erase expr,
      belowRel_erase rows]
  | .like expr pattern escape _ => by
    simp [Expr.erase, belowExpr, depthAll, depth_plain, Node.isLevel, belowExpr_erase expr,
      belowExpr_erase pattern, ofOption_erase escape]
  | .existence query _ | .uniqueness query _ | .subquery query _ => by
    simp [Expr.erase, belowExpr, depthAll, depth_plain, Node.isLevel, belowQuery_erase query]
  | .row values _ => by simp [Expr.erase, belowExpr, ofExprs_erase values]
  | .sortKey key => by
    simp [Expr.erase, belowExpr, depthAll, depth_plain, Node.isLevel, belowSortKey_erase key]
  | .groupingSet set => by simp [Expr.erase, belowExpr, belowGroupingSet_erase set]
  | .groupingSets sets _ => by simp [Expr.erase, belowExpr, ofExprs_erase sets]
  | .rollup sets _ | .cube sets _ => by
    simp [Expr.erase, belowExpr, belowGroupingSets_erase sets]
  | .aggregate _ _ argument filter _ => by
    simp [Expr.erase, belowExpr, depth, Node.isLevel, belowExpr_erase argument,
      ofOption_erase filter]

theorem ofExprs_erase : ∀ exprs : List Expr,
    depthAll (ofExprs (Expr.eraseAll exprs)) = depthAll (ofExprs exprs)
  | [] => rfl
  | expr :: rest => by
    simp [Expr.eraseAll, ofExprs, depth_plain, Node.isLevel, belowExpr_erase expr,
      ofExprs_erase rest]

theorem ofOption_erase : ∀ expr : Option Expr,
    depthAll (ofOption (Expr.eraseOption expr)) = depthAll (ofOption expr)
  | none => rfl
  | some expr => by
    simp [Expr.eraseOption, ofOption, depthAll, depth_plain, Node.isLevel,
      belowExpr_erase expr]

theorem ofTargets_erase : ∀ targets : List Expr,
    depthAll (ofTargets (Expr.eraseAll targets)) = depthAll (ofTargets targets)
  | [] => rfl
  | expr :: rest => by
    simp [Expr.eraseAll, ofTargets, depth, Node.isLevel, belowExpr_erase expr,
      ofTargets_erase rest]

theorem belowSortKey_erase : ∀ key : SortKey,
    depthAll (belowSortKey key.erase) = depthAll (belowSortKey key)
  | ⟨expr, _, _, _⟩ => by
    simp [SortKey.erase, belowSortKey, depthAll, depth_plain, Node.isLevel,
      belowExpr_erase expr]

theorem ofSortKeys_erase : ∀ keys : List SortKey,
    depthAll (ofSortKeys (SortKey.eraseAll keys)) = depthAll (ofSortKeys keys)
  | [] => rfl
  | key :: rest => by
    simp [SortKey.eraseAll, ofSortKeys, depth_plain, Node.isLevel,
      belowSortKey_erase key, ofSortKeys_erase rest]

theorem belowGroupingSet_erase : ∀ set : GroupingSet,
    depthAll (belowGroupingSet set.erase) = depthAll (belowGroupingSet set)
  | ⟨columns, _⟩ => by simp [GroupingSet.erase, belowGroupingSet, ofExprs_erase columns]

theorem belowGroupingSets_erase : ∀ sets : List GroupingSet,
    depthAll (belowGroupingSets (GroupingSet.eraseAll sets)) = depthAll (belowGroupingSets sets)
  | [] => rfl
  | set :: rest => by
    simp [GroupingSet.eraseAll, belowGroupingSets, depthAll_append,
      belowGroupingSet_erase set, belowGroupingSets_erase rest]

theorem belowRel_erase : ∀ rel : Rel, depthAll (belowRel rel.erase) = depthAll (belowRel rel)
  | .join _ _ condition left right _ => by
    simp [Rel.erase, belowRel, depthAll, depth_plain, Node.isLevel, belowRel_erase left,
      belowRel_erase right, belowCondition_erase condition]
  | .table .. => by simp [Rel.erase, belowRel, depthAll, depth_plain, Node.isLevel]
  | .named _ _ relation _ => by
    simp [Rel.erase, belowRel, depthAll, depth_plain, Node.isLevel, belowRel_erase relation]
  | .select select => by
    simp [Rel.erase, belowRel, depthAll, depth_plain, Node.isLevel, belowSelect_erase select]
  | .values rows _ => by simp [Rel.erase, belowRel, ofExprs_erase rows]
  | .setOp _ _ left right _ => by
    simp [Rel.erase, belowRel, depthAll, depth_plain, Node.isLevel, belowRel_erase left,
      belowRel_erase right]
  | .query query => by
    simp [Rel.erase, belowRel, depthAll, depth_plain, Node.isLevel, belowQuery_erase query]

theorem belowCondition_erase : ∀ condition : JoinCondition,
    depthAll (belowCondition condition.erase) = depthAll (belowCondition condition)
  | .absent | .usingColumns _ => rfl
  | .onExpr condition => by
    simp [JoinCondition.erase, belowCondition, depthAll, depth_plain, Node.isLevel,
      belowExpr_erase condition]

theorem ofRels_erase : ∀ rels : List Rel,
    depthAll (ofRels (Rel.eraseAll rels)) = depthAll (ofRels rels)
  | [] => rfl
  | rel :: rest => by
    simp [Rel.eraseAll, ofRels, depth_plain, Node.isLevel, belowRel_erase rel,
      ofRels_erase rest]

theorem belowFrameBound_erase : ∀ bound : FrameBound,
    depthAll (belowFrameBound bound.erase) = depthAll (belowFrameBound bound)
  | ⟨_, value, _⟩ => by simp [FrameBound.erase, belowFrameBound, ofOption_erase value]

theorem belowFrame_erase : ∀ frame : Option Frame,
    depthAll (belowFrame (Frame.eraseOption frame)) = depthAll (belowFrame frame)
  | none => rfl
  | some ⟨_, start, none, _, _⟩ => by
    simp [Frame.eraseOption, Frame.erase, FrameBound.eraseOption, belowFrame,
      belowFrameBound_erase start]
  | some ⟨_, start, some stop, _, _⟩ => by
    simp [Frame.eraseOption, Frame.erase, FrameBound.eraseOption, belowFrame,
      depthAll_append, belowFrameBound_erase start, belowFrameBound_erase stop]

theorem belowWindowSpec_erase : ∀ spec : WindowSpec,
    depthAll (belowWindowSpec spec.erase) = depthAll (belowWindowSpec spec)
  | ⟨_, partitionBy, orderBy, frame, _⟩ => by
    simp [WindowSpec.erase, belowWindowSpec, depthAll_append, ofExprs_erase partitionBy,
      ofSortKeys_erase orderBy, belowFrame_erase frame]

theorem ofWindows_erase : ∀ windows : List WindowDef,
    depthAll (ofWindows (WindowDef.eraseAll windows)) = depthAll (ofWindows windows)
  | [] => rfl
  | ⟨_, spec, _⟩ :: rest => by
    simp [WindowDef.eraseAll, ofWindows, depth_plain, Node.isLevel,
      belowWindowSpec_erase spec, ofWindows_erase rest]

theorem belowSelect_erase : ∀ select : Select,
    depthAll (belowSelect select.erase) = depthAll (belowSelect select)
  | ⟨_, targets, sources, selection, groupBy, having, windows, _⟩ => by
    simp [Select.erase, belowSelect, depthAll_append, ofTargets_erase targets,
      ofRels_erase sources, ofOption_erase selection, belowGroupBy_erase groupBy,
      ofOption_erase having, ofWindows_erase windows]

theorem belowGroupBy_erase : ∀ groupBy : Option GroupClause,
    depthAll (belowGroupBy (GroupClause.eraseOption groupBy)) = depthAll (belowGroupBy groupBy)
  | none => rfl
  | some ⟨_, groupings, _⟩ => by
    simp [GroupClause.eraseOption, belowGroupBy, ofExprs_erase groupings]

theorem ofCtes_erase : ∀ ctes : List Cte,
    depthAll (ofCtes (Cte.eraseAll ctes)) = depthAll (ofCtes ctes)
  | [] => rfl
  | ⟨_, _, query, _⟩ :: rest => by
    simp [Cte.eraseAll, ofCtes, depthAll, depth_plain, Node.isLevel, belowQuery_erase query,
      ofCtes_erase rest]

theorem belowWith_erase : ∀ withClause : Option WithClause,
    depthAll (belowWith (WithClause.eraseOption withClause)) = depthAll (belowWith withClause)
  | none => rfl
  | some ⟨_, ctes, _⟩ => by simp [WithClause.eraseOption, belowWith, ofCtes_erase ctes]

theorem belowFetch_erase : ∀ fetch : Option Fetch,
    depthAll (belowFetch (Fetch.eraseOption fetch)) = depthAll (belowFetch fetch)
  | none => rfl
  | some ⟨_, count, _, _, _⟩ => by simp [Fetch.eraseOption, belowFetch, ofOption_erase count]

theorem belowQuery_erase : ∀ query : Query,
    depthAll (belowQuery query.erase) = depthAll (belowQuery query)
  | ⟨withClause, body, orderBy, offset, fetch, _⟩ => by
    simp [Query.erase, belowQuery, depthAll_append, depthAll, depth_plain, Node.isLevel,
      belowWith_erase withClause, belowRel_erase body, ofSortKeys_erase orderBy,
      ofOption_erase offset, belowFetch_erase fetch]

end

theorem ofColumnDef_erase (column : ColumnDef) :
    (ofColumnDef column.erase).depth = (ofColumnDef column).depth := by
  obtain ⟨name, dataType, default, constraints, collation, span⟩ := column
  cases default with
  | none => rfl
  | some value =>
    cases value with
    | user | null => rfl
    | expr value =>
      simp [ColumnDef.erase, ColumnDefault.erase, ofColumnDef, belowDefault, ofExpr, depth_plain,
        depthAll, Node.isLevel, belowExpr_erase]

theorem ofColumnDefs_erase : ∀ columns : List ColumnDef,
    depthAll ((columns.map ColumnDef.erase).map ofColumnDef) =
      depthAll (columns.map ofColumnDef)
  | [] => rfl
  | column :: rest => by
    simpa [depthAll, ofColumnDef_erase] using congrArg _ (ofColumnDefs_erase rest)

/-- The depth of a statement is that of the erased statement. -/
theorem ofStatement_erase (statement : Statement) :
    (ofStatement statement.erase).depth = (ofStatement statement).depth := by
  cases statement with
  | create definition =>
    have columns := ofColumnDefs_erase definition.columns
    simpa [Statement.erase, Create.erase, ofStatement, depth_plain, depthAll, Node.isLevel]
      using columns
  | insert insertion =>
    obtain ⟨table, columns, overriding, source, span⟩ := insertion
    cases source <;>
      simp [Statement.erase, InsertSource.erase, ofStatement, ofQuery, depth_plain, depthAll,
        Node.isLevel, belowQuery_erase]
  | delete deletion =>
    obtain ⟨table, only, selection, span⟩ := deletion
    cases selection <;>
      simp [Statement.erase, Expr.eraseOption, ofStatement, ofExpr, depth_plain, depthAll,
        Node.isLevel, belowExpr_erase]
  | select query span =>
    simp [Statement.erase, ofStatement, ofQuery, depth_plain, depthAll, Node.isLevel,
      belowQuery_erase]

end Outline

/-! ## Operands -/

/-- Whether a query is bare does not hang on its places. -/
theorem Query.isBare_erase (query : Query) : query.erase.isBare = query.isBare := by
  obtain ⟨withClause, body, orderBy, offset, fetch, span⟩ := query
  have withs : (WithClause.eraseOption withClause).isNone = withClause.isNone := by
    rcases withClause with _ | ⟨recursive, ctes, span⟩ <;> rfl
  have fetches : (Fetch.eraseOption fetch).isNone = fetch.isNone := by
    rcases fetch with _ | ⟨kind, count, percent, ties, span⟩ <;> rfl
  have offsets : (Expr.eraseOption offset).isNone = offset.isNone := by cases offset <;> rfl
  simp [Query.isBare, Query.erase, withs, fetches, offsets, SortKey.eraseAll_eq_map]

theorem Query.operand_erase (query : Query) : query.operand.erase = query.erase.operand := by
  rw [Query.operand, Query.operand, Query.isBare_erase]
  cases query
  split <;> rfl

/-! ## Elements of table definitions -/

/-- An element of a table definition without its places. -/
def TableElement.erase : TableElement → TableElement
  | .column it => .column it.erase
  | .constraint it => .constraint it.erase

/-- Elements are told apart in the same way when they are erased. -/
theorem Create.ofElements_erase (name : QualifiedName) (temporary : Option Temporary)
    (onCommit : Option OnCommit) (elements : List TableElement) (span : Span) :
    (Create.ofElements name temporary onCommit elements span).erase =
      Create.ofElements name temporary onCommit (elements.map TableElement.erase) default := by
  have columns (elements : List TableElement) :
      (Create.ofElements name temporary onCommit elements span).columns.map ColumnDef.erase =
        (Create.ofElements name temporary onCommit (elements.map TableElement.erase)
          default).columns := by
    induction elements with
    | nil => rfl
    | cons element elements ih =>
      cases element <;> simpa [Create.ofElements, TableElement.erase] using ih
  have constraints (elements : List TableElement) :
      (Create.ofElements name temporary onCommit elements span).constraints.map
          TableConstraint.erase =
        (Create.ofElements name temporary onCommit (elements.map TableElement.erase)
          default).constraints := by
    induction elements with
    | nil => rfl
    | cons element elements ih =>
      cases element <;> simpa [Create.ofElements, TableElement.erase] using ih
  rw [Create.erase, columns, constraints]
  rfl

end CanonicalSql
