import CanonicalSql.Proofs.Lockstep.Expr

/-!
# Queries side by side

The rules of grouping, windows, sources and queries, and with them all levels of the recursive
rules (`Phrases.within_moves`).
-/
namespace CanonicalSql

namespace Move

variable (m : Move)

theorem on_eraseGroupingSets : m.on GroupingSet.eraseAll = List.map (m.on GroupingSet.erase) := by
  rw [← m.on_map]
  exact congrArg m.on (funext GroupingSet.eraseAll_eq_map)

theorem on_eraseWindows : m.on WindowDef.eraseAll = List.map (m.on WindowDef.erase) := by
  rw [← m.on_map]
  exact congrArg m.on (funext WindowDef.eraseAll_eq_map)

theorem on_eraseRels : m.on Rel.eraseAll = List.map (m.on Rel.erase) := by
  rw [← m.on_map]
  exact congrArg m.on (funext Rel.eraseAll_eq_map)

theorem on_eraseCtes : m.on Cte.eraseAll = List.map (m.on Cte.erase) := by
  rw [← m.on_map]
  exact congrArg m.on (funext Cte.eraseAll_eq_map)

/-- The place of a relation moves with it. -/
theorem span_rel (rel : Rel) : (m.on Rel.erase rel).span = m.span rel.span := by
  obtain ⟨_ | _⟩ := m
  · cases rel with
    | select select => cases select; rfl
    | query query => cases query; rfl
    | _ => rfl
  · rfl

end Move

namespace Parse

variable {m : Move} {phrases : Phrases}

/-! ## Grouping -/

theorem opensList_moves : Moves m id opensList opensList :=
  (atSign_moves _).next fun _ => .ite (fun _ => peek_moves.next fun _ => .pure rfl)
    fun _ => .pure rfl

section

variable (below : phrases.Moves m)
include below

theorem groupedColumns_moves :
    Moves m (m.on Expr.eraseAll) (groupedColumns phrases) (groupedColumns phrases) :=
  (atSign_moves _).next fun _ => .ite (fun _ => .pure (by obtain ⟨_ | _⟩ := m <;> rfl))
    fun _ => below.expressions

theorem longerColumns_moves (columns : List Expr) (start : Span) : Moves m (m.on Expr.eraseAll)
    (longerColumns phrases columns start)
    (longerColumns phrases (m.on Expr.eraseAll columns) (m.span start)) := by
  rw [m.on_eraseAll]
  match columns with
  | [] | _ :: _ :: _ => exact .pure rfl
  | [first] =>
    refine operatorPower_moves.next fun _ => .ite (fun _ => ?_) fun _ => .pure rfl
    exact (nested_moves (operators_moves below first 0 start)).bind fun expr => .pure rfl

theorem groupingSet_moves :
    Moves m (m.on GroupingSet.erase) (groupingSet phrases) (groupingSet phrases) := by
  refine here_moves.bind fun start => opensList_moves.next fun _ => .ite (fun _ => ?_) fun _ => ?_
  · refine advance_moves.next fun _ => (groupedColumns_moves below).bind fun columns => ?_
    refine (expectSign_moves _).next fun _ => ?_
    refine (longerColumns_moves below columns start).bind fun columns => ?_
    exact (spanFrom_moves start).bind fun span => .pure (by obtain ⟨_ | _⟩ := m <;> rfl)
  · refine below.expression.bind fun expr => ?_
    exact (spanFrom_moves start).bind fun span => .pure (by obtain ⟨_ | _⟩ := m <;> rfl)

theorem groupingSetList_moves :
    Moves m (m.on GroupingSet.eraseAll) (groupingSetList phrases) (groupingSetList phrases) := by
  rw [m.on_eraseGroupingSets]
  exact advance_moves.next fun _ => parenthesized_moves (commaSeparated_moves (groupingSet_moves below))

theorem groupingSetsMembers_moves :
    Moves m (m.on Expr.eraseAll) (groupingSetsMembers phrases) (groupingSetsMembers phrases) := by
  rw [m.on_eraseAll]
  exact advance_moves.next fun _ => advance_moves.next fun _ =>
    nested_moves (parenthesized_moves (commaSeparated_moves below.groupingElement))

theorem groupingElement_moves :
    Moves m (m.on Expr.erase) (groupingElement phrases) (groupingElement phrases) := by
  refine here_moves.bind fun start => (atWordBefore_moves _ _).next fun _ =>
    .ite (fun _ => ?_) fun _ => (atWordBefore_moves _ _).next fun _ => .ite (fun _ => ?_) fun _ =>
      (atWordBefore_moves _ _).next fun _ => .ite (fun _ => ?_) fun _ => ?_
  · refine (groupingSetList_moves below).bind fun sets => ?_
    exact (spanFrom_moves start).bind fun span => .pure (by obtain ⟨_ | _⟩ := m <;> rfl)
  · refine (groupingSetList_moves below).bind fun sets => ?_
    exact (spanFrom_moves start).bind fun span => .pure (by obtain ⟨_ | _⟩ := m <;> rfl)
  · refine (groupingSetsMembers_moves below).bind fun sets => ?_
    exact (spanFrom_moves start).bind fun span => .pure (by obtain ⟨_ | _⟩ := m <;> rfl)
  · exact (groupingSet_moves below).bind fun set => .pure (by obtain ⟨_ | _⟩ := m <;> rfl)

theorem groupClause_moves :
    Moves m (m.on GroupClause.eraseOption) (groupClause phrases) (groupClause phrases) := by
  refine here_moves.bind fun start => (takeWord_moves _).next fun _ => .ite (fun _ => ?_) fun _ => ?_
  · refine (expectWord_moves _).next fun _ => setQuantifier_moves.next fun quantifier => ?_
    have groupings := commaSeparated_moves (groupingElement_moves below)
    rw [← m.on_eraseAll] at groupings
    refine groupings.bind fun groupings => (spanFrom_moves start).bind fun span => ?_
    exact .pure (by obtain ⟨_ | _⟩ := m <;> rfl)
  · exact .pure (by obtain ⟨_ | _⟩ := m <;> rfl)

end

/-! ## Windows -/

theorem boundDirection_moves : Moves m id boundDirection boundDirection :=
  (takeWord_moves _).next fun _ => .ite (fun _ => .pure rfl) fun _ =>
    (takeWord_moves _).next fun _ => .ite (fun _ => .pure rfl) fun _ => unexpected_moves _ _

theorem frameExclusion_moves : Moves m id frameExclusion frameExclusion := by
  refine word?_moves.next fun word => ?_
  split
  all_goals first
    | exact advance_moves.next fun _ => .pure rfl
    | exact advance_moves.next fun _ => (expectWord_moves _).next fun _ => .pure rfl
    | exact unexpected_moves _ _

theorem optionalExclusion_moves : Moves m id optionalExclusion optionalExclusion :=
  (takeWord_moves _).next fun _ => .ite (fun _ => frameExclusion_moves.next fun _ => .pure rfl)
    fun _ => .pure rfl

theorem frameUnit_moves : Moves m id frameUnit frameUnit :=
  (takeWord_moves _).next fun _ => .ite (fun _ => .pure rfl) fun _ =>
    (takeWord_moves _).next fun _ => .ite (fun _ => .pure rfl) fun _ =>
      (takeWord_moves _).next fun _ => .ite (fun _ => .pure rfl) fun _ => .pure rfl

theorem existingWindow_moves : Moves m id existingWindow existingWindow :=
  kind_moves.next fun _ => .ite (fun _ => identifier_moves.next fun _ => .pure rfl)
    fun _ => .pure rfl

section

variable (below : phrases.Moves m)
include below

theorem frameBound_moves :
    Moves m (m.on FrameBound.erase) (frameBound phrases) (frameBound phrases) := by
  refine here_moves.bind fun start => (takeWord_moves _).next fun _ => .ite (fun _ => ?_) fun _ => ?_
  · refine boundDirection_moves.next fun kind => ?_
    exact (spanFrom_moves start).bind fun span => .pure (by obtain ⟨_ | _⟩ := m <;> rfl)
  refine (atWordBefore_moves _ _).next fun _ => .ite (fun _ => ?_) fun _ => ?_
  · refine advance_moves.next fun _ => advance_moves.next fun _ => ?_
    exact (spanFrom_moves start).bind fun span => .pure (by obtain ⟨_ | _⟩ := m <;> rfl)
  · refine below.expression.bind fun value => boundDirection_moves.next fun kind => ?_
    exact (spanFrom_moves start).bind fun span => .pure (by obtain ⟨_ | _⟩ := m <;> rfl)

theorem frameBounds_moves :
    Moves m (Prod.map (m.on FrameBound.erase) (m.on FrameBound.eraseOption)) (frameBounds phrases)
      (frameBounds phrases) := by
  refine (takeWord_moves _).next fun _ => .ite (fun _ => ?_) fun _ => ?_
  · refine (frameBound_moves below).bind fun first => (expectWord_moves _).next fun _ => ?_
    exact (frameBound_moves below).bind fun last => .pure (by obtain ⟨_ | _⟩ := m <;> rfl)
  · exact (frameBound_moves below).bind fun first => .pure (by obtain ⟨_ | _⟩ := m <;> rfl)

theorem frame_moves : Moves m (m.on Frame.eraseOption) (frame phrases) (frame phrases) := by
  refine here_moves.bind fun start => frameUnit_moves.next fun unit => ?_
  split
  · exact .pure (by obtain ⟨_ | _⟩ := m <;> rfl)
  · refine (frameBounds_moves below).bind fun (first, last) => ?_
    refine optionalExclusion_moves.next fun exclusion => ?_
    exact (spanFrom_moves start).bind fun span => .pure (by obtain ⟨_ | _⟩ := m <;> rfl)

theorem partitionBy_moves :
    Moves m (m.on Expr.eraseAll) (partitionBy phrases) (partitionBy phrases) :=
  (takeWord_moves _).next fun _ => .ite
    (fun _ => (expectWord_moves _).next fun _ => below.expressions)
    fun _ => .pure (by obtain ⟨_ | _⟩ := m <;> rfl)

theorem windowSpec_moves :
    Moves m (m.on WindowSpec.erase) (windowSpec phrases) (windowSpec phrases) := by
  refine here_moves.bind fun start => (expectSign_moves _).next fun _ => ?_
  refine existingWindow_moves.next fun existing => (partitionBy_moves below).bind fun parts => ?_
  refine (orderBy_moves below).bind fun keys => (frame_moves below).bind fun frame => ?_
  refine (expectSign_moves _).next fun _ => (spanFrom_moves start).bind fun span => ?_
  exact .pure (by obtain ⟨_ | _⟩ := m <;> rfl)

theorem windowDef_moves :
    Moves m (m.on WindowDef.erase) (windowDef phrases) (windowDef phrases) := by
  refine here_moves.bind fun start => identifier_moves.next fun name => ?_
  refine (expectWord_moves _).next fun _ => (windowSpec_moves below).bind fun spec => ?_
  exact (spanFrom_moves start).bind fun span => .pure (by obtain ⟨_ | _⟩ := m <;> rfl)

theorem windows_moves : Moves m (m.on WindowDef.eraseAll) (windows phrases) (windows phrases) := by
  rw [m.on_eraseWindows]
  exact (takeWord_moves _).next fun _ => .ite
    (fun _ => commaSeparated_moves (windowDef_moves below)) fun _ => .pure rfl

end

/-! ## Sources -/

theorem withAlias_moves (relation : Rel) (start : Span) : Moves m (m.on Rel.erase)
    (withAlias relation start) (withAlias (m.on Rel.erase relation) (m.span start)) := by
  refine optionalAlias_moves.next fun name => ?_
  cases name with
  | none => exact .pure rfl
  | some name =>
    refine optionalNames_moves.next fun columns => ?_
    exact (spanFrom_moves start).bind fun span => .pure (by obtain ⟨_ | _⟩ := m <;> rfl)

theorem namedTable_moves : Moves m (m.on Rel.erase) namedTable namedTable :=
  here_moves.bind fun start => qualifiedName_moves.next fun name =>
    (spanFrom_moves start).bind fun span => .pure (by obtain ⟨_ | _⟩ := m <;> rfl)

theorem joinWords_moves : Moves m id joinWords joinWords := by
  refine word?_moves.next fun word => ?_
  split
  all_goals first
    | exact advance_moves.next fun _ => (takeWord_moves _).next fun _ => .pure rfl
    | exact advance_moves.next fun _ => .pure rfl
    | exact .pure rfl

theorem joinKind_moves : Moves m id joinKind joinKind :=
  joinWords_moves.next fun _ => (expectWord_moves _).next fun _ => .pure rfl

theorem startsJoin_moves : Moves m id startsJoin startsJoin :=
  kind_moves.next fun _ => .pure rfl

section

variable (below : phrases.Moves m)
include below

theorem longerTableQuery_moves (first : Rel) (start : Span) : Moves m (m.on Rel.erase)
    (longerTableQuery phrases first start)
    (longerTableQuery phrases (m.on Rel.erase first) (m.span start)) := by
  have longer (operand : Rel) : Moves m (m.on Rel.erase)
      (do
        let body ← phrases.setOperations operand 0
        return .query (← queryTail phrases none body start))
      (do
        let body ← phrases.setOperations (m.on Rel.erase operand) 0
        return .query (← queryTail phrases none body (m.span start))) := by
    refine (below.setOperations operand 0).bind fun body => ?_
    have tail := queryTail_moves below none body start
    rw [m.on_no_with] at tail
    exact tail.bind fun _ => .pure (by obtain ⟨_ | _⟩ := m <;> rfl)
  cases first with
  | query query =>
    have whole := longer query.operand
    rw [m.on_operand] at whole
    obtain ⟨_ | _⟩ := m <;> exact whole
  | select | values | setOp =>
    have whole := longer
    obtain ⟨_ | _⟩ := m <;> exact whole _
  | _ => obtain ⟨_ | _⟩ := m <;> exact unexpected_moves _ _

theorem enclosedTable_moves (start : Span) : Moves m (m.on Rel.erase)
    (enclosedTable phrases start) (enclosedTable phrases (m.span start)) := by
  refine startsQuery_moves.next fun _ => .ite (fun _ => ?_) fun _ => ?_
  · exact below.query.bind fun query => .pure (by obtain ⟨_ | _⟩ := m <;> rfl)
  refine (atSign_moves _).next fun _ => .ite (fun _ => ?_) fun _ => ?_
  · refine below.tablePrimary.bind fun first => continuesQuery_moves.next fun _ => ?_
    exact .ite (fun _ => longerTableQuery_moves below first start) fun _ => below.joins first
  · exact below.tablePrimary.bind fun first => below.joins first

theorem parenthesizedTable_moves : Moves m (m.on Rel.erase) (parenthesizedTable phrases)
    (parenthesizedTable phrases) :=
  here_moves.bind fun start => (expectSign_moves _).next fun _ =>
    (enclosedTable_moves below start).bind fun _ => (expectSign_moves _).next fun _ => .pure rfl

theorem tablePrimary_moves :
    Moves m (m.on Rel.erase) (tablePrimary phrases) (tablePrimary phrases) := by
  have factor : Moves m (m.on Rel.erase) (tableFactor phrases) (tableFactor phrases) :=
    (atSign_moves _).next fun _ => .ite
      (fun _ => nested_moves (parenthesizedTable_moves below)) fun _ => namedTable_moves
  exact here_moves.bind fun start => factor.bind fun relation => withAlias_moves relation start

theorem joinCondition_moves :
    Moves m (m.on JoinCondition.erase) (joinCondition phrases) (joinCondition phrases) := by
  refine (takeWord_moves _).next fun _ => .ite (fun _ => ?_) fun _ => ?_
  · exact below.expression.bind fun _ => .pure (by obtain ⟨_ | _⟩ := m <;> rfl)
  refine (takeWord_moves _).next fun _ => .ite (fun _ => ?_) fun _ => unexpected_moves _ _
  exact names_moves.next fun _ => .pure (by obtain ⟨_ | _⟩ := m <;> rfl)

theorem join_moves (left : Rel) : Moves m (m.on Rel.erase) (join phrases left)
    (join phrases (m.on Rel.erase left)) := by
  have span : Moves m m.span (spanFrom left.span) (spanFrom (m.on Rel.erase left).span) := by
    rw [m.span_rel]
    exact spanFrom_moves _
  refine (takeWord_moves _).next fun _ => .ite (fun _ => ?_) fun _ => ?_
  · refine (expectWord_moves _).next fun _ => (tablePrimary_moves below).bind fun right => ?_
    exact span.bind fun span => .pure (by obtain ⟨_ | _⟩ := m <;> rfl)
  refine (takeWord_moves _).next fun natural => joinKind_moves.next fun kind => ?_
  refine (tablePrimary_moves below).bind fun right => .ite (fun _ => ?_) fun _ => ?_
  · exact span.bind fun span => .pure (by obtain ⟨_ | _⟩ := m <;> rfl)
  · refine (below.joins right).bind fun right => (joinCondition_moves below).bind fun condition => ?_
    exact span.bind fun span => .pure (by obtain ⟨_ | _⟩ := m <;> rfl)

theorem joins_moves (left : Rel) : Moves m (m.on Rel.erase) (joins phrases left)
    (joins phrases (m.on Rel.erase left)) := by
  have step (done : Rel × Nat) : Moves m (Option.map (Prod.map (m.on Rel.erase) id))
      (joinStep phrases done) (joinStep phrases (Prod.map (m.on Rel.erase) id done)) := by
    obtain ⟨left, levels⟩ := done
    exact startsJoin_moves.next fun _ => .ite
      (fun _ => enter_moves.next fun _ => (join_moves below left).bind fun _ => .pure rfl)
      fun _ => .pure rfl
  exact (loop_moves _ step (left, 0)).bind fun (_, levels) => (leave_moves levels).next fun _ =>
    .pure rfl

theorem source_moves : Moves m (m.on Rel.erase) (source phrases) (source phrases) :=
  (tablePrimary_moves below).bind fun left => joins_moves below left

/-! ## Projections and operands -/

theorem target_moves : Moves m (m.on Expr.erase) (target phrases) (target phrases) := by
  refine here_moves.bind fun start => below.expression.bind fun expr => ?_
  refine optionalAlias_moves.next fun name => ?_
  cases name with
  | none => exact .pure rfl
  | some name =>
    exact (spanFrom_moves start).bind fun span => .pure (by obtain ⟨_ | _⟩ := m <;> rfl)

theorem sources_moves : Moves m (m.on Rel.eraseAll) (sources phrases) (sources phrases) := by
  rw [m.on_eraseRels]
  exact (takeWord_moves _).next fun _ => .ite
    (fun _ => commaSeparated_moves (source_moves below)) fun _ => .pure rfl

theorem select_moves : Moves m (m.on Select.erase) (select phrases) (select phrases) := by
  have targets := commaSeparated_moves (target_moves below)
  rw [← m.on_eraseAll] at targets
  refine here_moves.bind fun start => (expectWord_moves _).next fun _ => ?_
  refine setQuantifier_moves.next fun quantifier => targets.bind fun targets => ?_
  refine (sources_moves below).bind fun sources => ?_
  refine (below.optionalClause .WHERE).bind fun selection => ?_
  refine (groupClause_moves below).bind fun grouping => ?_
  refine (below.optionalClause .HAVING).bind fun having => ?_
  refine (windows_moves below).bind fun windows => (spanFrom_moves start).bind fun span => ?_
  exact .pure (by obtain ⟨_ | _⟩ := m <;> rfl)

theorem values_moves : Moves m (m.on Rel.erase) (values phrases) (values phrases) := by
  refine here_moves.bind fun start => (expectWord_moves _).next fun _ => ?_
  refine below.expressions.bind fun rows => (spanFrom_moves start).bind fun span => ?_
  exact .pure (by obtain ⟨_ | _⟩ := m <;> rfl)

theorem queryPrimary_moves :
    Moves m (m.on Rel.erase) (queryPrimary phrases) (queryPrimary phrases) := by
  have table : Moves m (m.on Rel.erase) wholeTable wholeTable :=
    here_moves.bind fun start => (expectWord_moves _).next fun _ =>
      qualifiedName_moves.next fun name => (spanFrom_moves start).bind fun span =>
        .pure (by obtain ⟨_ | _⟩ := m <;> rfl)
  refine kind_moves.next fun kind => ?_
  split
  · exact (select_moves below).bind fun select => .pure (by obtain ⟨_ | _⟩ := m <;> rfl)
  · exact values_moves below
  · exact table
  · exact (parenthesized_moves below.query).bind fun query => .pure (m.on_operand query)
  · exact unexpected_moves _ _

/-! ## Queries -/

theorem setOperationStep_moves (least : Nat) (done : Rel × Nat) :
    Moves m (Option.map (Prod.map (m.on Rel.erase) id)) (setOperationStep phrases least done)
      (setOperationStep phrases least (Prod.map (m.on Rel.erase) id done)) := by
  obtain ⟨left, levels⟩ := done
  refine kind_moves.next fun kind => ?_
  split
  · exact .pure rfl
  refine .ite (fun _ => .pure rfl) fun _ => enter_moves.next fun _ => advance_moves.next fun _ => ?_
  refine setQuantifier_moves.next fun quantifier => (queryPrimary_moves below).bind fun first => ?_
  refine (below.setOperations first _).bind fun right => ?_
  have span : Moves m m.span (spanFrom left.span) (spanFrom (m.on Rel.erase left).span) := by
    rw [m.span_rel]
    exact spanFrom_moves _
  exact span.bind fun span => .pure (by obtain ⟨_ | _⟩ := m <;> rfl)

theorem setOperations_moves (left : Rel) (least : Nat) : Moves m (m.on Rel.erase)
    (setOperations phrases left least) (setOperations phrases (m.on Rel.erase left) least) :=
  (loop_moves _ (setOperationStep_moves below least) (left, 0)).bind fun (_, levels) =>
    (leave_moves levels).next fun _ => .pure rfl

theorem cte_moves : Moves m (m.on Cte.erase) (cte phrases) (cte phrases) := by
  refine here_moves.bind fun start => identifier_moves.next fun name => ?_
  refine optionalNames_moves.next fun columns => (expectWord_moves _).next fun _ => ?_
  refine (parenthesized_moves below.query).bind fun query => ?_
  exact (spanFrom_moves start).bind fun span => .pure (by obtain ⟨_ | _⟩ := m <;> rfl)

theorem withClause_moves :
    Moves m (m.on WithClause.eraseOption) (withClause phrases) (withClause phrases) := by
  have ctes := commaSeparated_moves (cte_moves below)
  rw [← m.on_eraseCtes] at ctes
  refine here_moves.bind fun start => (takeWord_moves _).next fun _ => .ite (fun _ => ?_) fun _ => ?_
  · refine (takeWord_moves _).next fun recursive => ctes.bind fun ctes => ?_
    exact (spanFrom_moves start).bind fun span => .pure (by obtain ⟨_ | _⟩ := m <;> rfl)
  · exact .pure m.on_no_with

theorem query_moves : Moves m (m.on Query.erase) (query phrases) (query phrases) := by
  refine nested_moves (here_moves.bind fun start => (withClause_moves below).bind fun withClause => ?_)
  refine (queryPrimary_moves below).bind fun first => ?_
  exact (setOperations_moves below first 0).bind fun body => queryTail_moves below withClause body start

end

end Parse

namespace Phrases

open Parse

variable {m : Move}

/-- Rules whose lower level moves move themselves. -/
theorem Moves.above {phrases : Phrases} (below : phrases.Moves m) : phrases.above.Moves m where
  operand := operand_moves below
  query := query_moves below
  setOperations := setOperations_moves below
  tablePrimary := tablePrimary_moves below
  joins := joins_moves below
  groupingElement := groupingElement_moves below

/-- All levels of the recursive rules do after the move what they do before it. -/
theorem within_moves (bound : Nat) : (within bound).Moves m := by
  induction bound with
  | zero =>
    exact ⟨fun _ => throw_moves _ _, throw_moves _ _, fun _ _ => throw_moves _ _, throw_moves _ _,
      fun _ => throw_moves _ _, throw_moves _ _⟩
  | succ bound ih => exact ih.above

end Phrases

end CanonicalSql
