import CanonicalSql.Proofs.Steps.Expr

/-!
# How queries are read

The rest of the rules that refer back to one another. Each is built of basic steps if the ones
below are, so the recursive rules of all levels are; and two of different levels are built alike.
-/
namespace CanonicalSql.Parse

variable {phrases phrases' : Phrases}

/-! ## Grouping -/

theorem opensList_balanced : Balanced opensList opensList :=
  .ifs (atSign_balanced _) (peek_balanced.map _) (.pure _)

section

variable (below : phrases.Balanced phrases')
include below

theorem groupedColumns_balanced :
    Balanced (groupedColumns phrases) (groupedColumns phrases') :=
  .ifs (atSign_balanced _) (.pure _) below.expressions

theorem longerColumns_balanced (columns : List Expr) (start : Span) :
    Balanced (longerColumns phrases columns start) (longerColumns phrases' columns start) := by
  unfold longerColumns
  split
  · apply operatorPower_balanced.bind
    intro power
    exact .ite ((nested_balanced (operators_balanced below _ 0 start)).map _) (.pure _)
  · exact .pure _

theorem groupingSet_balanced : Balanced (groupingSet phrases) (groupingSet phrases') := by
  apply here_balanced.bind
  intro start
  apply Balanced.ifs opensList_balanced
  · apply advance_balanced.andThen
    apply (groupedColumns_balanced below).bind
    intro columns
    apply (expectSign_balanced _).andThen
    apply (longerColumns_balanced below columns start).bind
    intro columns
    exact .spanned start
  · apply below.expression.bind
    intro expr
    exact .spanned start

theorem groupingSetList_balanced :
    Balanced (groupingSetList phrases) (groupingSetList phrases') :=
  advance_balanced.andThen
    (parenthesized_balanced (commaSeparated_balanced (groupingSet_balanced below)))

theorem groupingSetsMembers_balanced :
    Balanced (groupingSetsMembers phrases) (groupingSetsMembers phrases') :=
  advance_balanced.andThen (advance_balanced.andThen
    (nested_balanced (parenthesized_balanced (commaSeparated_balanced below.groupingElement))))

theorem groupingElement_balanced :
    Balanced (groupingElement phrases) (groupingElement phrases') := by
  apply here_balanced.bind
  intro start
  apply Balanced.ifs (atWordBefore_balanced _ _)
  · apply (groupingSetList_balanced below).bind
    intro sets
    exact .spanned start
  apply Balanced.ifs (atWordBefore_balanced _ _)
  · apply (groupingSetList_balanced below).bind
    intro sets
    exact .spanned start
  apply Balanced.ifs (atWordBefore_balanced _ _)
  · apply (groupingSetsMembers_balanced below).bind
    intro sets
    exact .spanned start
  · exact (groupingSet_balanced below).map _

theorem groupClause_balanced : Balanced (groupClause phrases) (groupClause phrases') := by
  apply here_balanced.bind
  intro start
  apply Balanced.ifs (takeWord_balanced _) _ (.pure _)
  apply (expectWord_balanced _).andThen
  apply setQuantifier_balanced.bind
  intro quantifier
  apply (commaSeparated_balanced (groupingElement_balanced below)).bind
  intro groupings
  exact .spanned start

/-! ## Sources -/

omit below in
theorem withAlias_balanced (relation : Rel) (start : Span) :
    Balanced (withAlias relation start) (withAlias relation start) := by
  apply optionalAlias_balanced.bind
  intro found
  split
  · apply optionalNames_balanced.bind
    intro columns
    exact .spanned start
  · exact .pure _

theorem longerTableQuery_balanced (first : Rel) (start : Span) :
    Balanced (longerTableQuery phrases first start) (longerTableQuery phrases' first start) := by
  apply Balanced.ite _ (unexpected_balanced _)
  apply (below.setOperations _ 0).bind
  intro body
  exact (queryTail_balanced below none body start).map _

theorem enclosedTable_balanced (start : Span) :
    Balanced (enclosedTable phrases start) (enclosedTable phrases' start) := by
  apply Balanced.ifs startsQuery_balanced (below.query.map _)
  apply Balanced.ifs (atSign_balanced _)
  · apply below.tablePrimary.bind
    intro first
    exact .ifs continuesQuery_balanced (longerTableQuery_balanced below first start)
      (below.joins first)
  · exact below.tablePrimary.bind below.joins

theorem parenthesizedTable_balanced :
    Balanced (parenthesizedTable phrases) (parenthesizedTable phrases') := by
  apply here_balanced.bind
  intro start
  apply (expectSign_balanced _).andThen
  apply (enclosedTable_balanced below start).bind
  intro relation
  exact (expectSign_balanced _).andThen (.pure _)

omit below in
theorem namedTable_balanced : Balanced namedTable namedTable := by
  apply here_balanced.bind
  intro start
  apply qualifiedName_balanced.bind
  intro name
  exact .spanned start

theorem tableFactor_balanced : Balanced (tableFactor phrases) (tableFactor phrases') :=
  .ifs (atSign_balanced _) (nested_balanced (parenthesizedTable_balanced below))
    namedTable_balanced

theorem tablePrimary_balanced : Balanced (tablePrimary phrases) (tablePrimary phrases') := by
  apply here_balanced.bind
  intro start
  apply (tableFactor_balanced below).bind
  intro relation
  exact withAlias_balanced relation start

omit below in
theorem joinWords_balanced : Balanced joinWords joinWords := by
  have outer (kind : JoinKind) : Balanced (do
      advance
      let _ ← takeWord .OUTER
      return kind) (do
      advance
      let _ ← takeWord .OUTER
      return kind) :=
    advance_balanced.andThen ((takeWord_balanced _).andThen (.pure _))
  apply word?_balanced.bind
  intro word
  split
  · exact advance_balanced.andThen (.pure _)
  · exact outer .left
  · exact outer .right
  · exact outer .full
  · exact .pure _

omit below in
theorem joinKind_balanced : Balanced joinKind joinKind := by
  apply joinWords_balanced.bind
  intro kind
  exact (expectWord_balanced _).andThen (.pure _)

theorem joinCondition_balanced :
    Balanced (joinCondition phrases) (joinCondition phrases') := by
  apply Balanced.ifs (takeWord_balanced _) (below.expression.map _)
  exact .ifs (takeWord_balanced _) (names_balanced.map _) (unexpected_balanced _)

theorem join_balanced (left : Rel) : Balanced (join phrases left) (join phrases' left) := by
  apply Balanced.ifs (takeWord_balanced _)
  · apply (expectWord_balanced _).andThen
    apply (tablePrimary_balanced below).bind
    intro right
    exact .spanned _
  apply (takeWord_balanced _).bind
  intro natural
  apply joinKind_balanced.bind
  intro kind
  apply (tablePrimary_balanced below).bind
  intro right
  apply Balanced.ite (.spanned _)
  apply (below.joins right).bind
  intro right
  apply (joinCondition_balanced below).bind
  intro condition
  exact .spanned _

omit below in
theorem startsJoin_balanced : Balanced startsJoin startsJoin := kind_balanced.map _

/-- A join enters one level, which is counted. -/
theorem joinStep_built (up : Nat) (done : Rel × Nat) :
    Built (up + done.2) (Built.afterRound (fun next => up + next.2) done)
      (joinStep phrases done) (joinStep phrases' done) := by
  obtain ⟨left, levels⟩ := done
  apply Built.next startsJoin_balanced
  intro starts
  refine .ite ?_ (.pure rfl)
  apply Built.bind (.enter _)
  intro _
  apply Built.bind (join_balanced below left _)
  intro joined
  exact .pure rfl

theorem joins_balanced (left : Rel) : Balanced (joins phrases left) (joins phrases' left) :=
  levels_balanced (v := (left, 0)) (joinStep_built below) rfl

theorem source_balanced : Balanced (source phrases) (source phrases') :=
  (tablePrimary_balanced below).bind (joins_balanced below)

/-! ## Windows -/

omit below in
theorem boundDirection_balanced : Balanced boundDirection boundDirection := by
  apply Balanced.ifs (takeWord_balanced _) (.pure _)
  exact .ifs (takeWord_balanced _) (.pure _) (unexpected_balanced _)

theorem frameBound_balanced : Balanced (frameBound phrases) (frameBound phrases') := by
  apply here_balanced.bind
  intro start
  apply Balanced.ifs (takeWord_balanced _)
  · apply boundDirection_balanced.bind
    intro kind
    exact .spanned start
  apply Balanced.ifs (atWordBefore_balanced _ _)
  · exact advance_balanced.andThen (advance_balanced.andThen (.spanned start))
  apply below.expression.bind
  intro value
  apply boundDirection_balanced.bind
  intro kind
  exact .spanned start

omit below in
theorem frameExclusion_balanced : Balanced frameExclusion frameExclusion := by
  apply word?_balanced.bind
  intro word
  split
  · exact advance_balanced.andThen ((expectWord_balanced _).andThen (.pure _))
  · exact advance_balanced.andThen (.pure _)
  · exact advance_balanced.andThen (.pure _)
  · exact advance_balanced.andThen ((expectWord_balanced _).andThen (.pure _))
  · exact unexpected_balanced _

theorem frameBounds_balanced : Balanced (frameBounds phrases) (frameBounds phrases') := by
  apply Balanced.ifs (takeWord_balanced _) _ ((frameBound_balanced below).map _)
  apply (frameBound_balanced below).bind
  intro first
  exact (expectWord_balanced _).andThen ((frameBound_balanced below).map _)

omit below in
theorem optionalExclusion_balanced : Balanced optionalExclusion optionalExclusion :=
  .ifs (takeWord_balanced _) (frameExclusion_balanced.map _) (.pure _)

omit below in
theorem frameUnit_balanced : Balanced frameUnit frameUnit := by
  apply Balanced.ifs (takeWord_balanced _) (.pure _)
  apply Balanced.ifs (takeWord_balanced _) (.pure _)
  exact .ifs (takeWord_balanced _) (.pure _) (.pure _)

theorem frame_balanced : Balanced (frame phrases) (frame phrases') := by
  apply here_balanced.bind
  intro start
  apply frameUnit_balanced.bind
  intro unit
  split
  · exact .pure _
  apply (frameBounds_balanced below).bind
  intro bounds
  apply optionalExclusion_balanced.bind
  intro exclusion
  exact .spanned start

omit below in
theorem existingWindow_balanced : Balanced existingWindow existingWindow := by
  apply kind_balanced.bind
  intro kind
  exact .ite (identifier_balanced.map _) (.pure _)

theorem partitionBy_balanced : Balanced (partitionBy phrases) (partitionBy phrases') :=
  .ifs (takeWord_balanced _) ((expectWord_balanced _).andThen below.expressions) (.pure _)

theorem windowSpec_balanced : Balanced (windowSpec phrases) (windowSpec phrases') := by
  apply here_balanced.bind
  intro start
  apply (expectSign_balanced _).andThen
  apply existingWindow_balanced.bind
  intro existing
  apply (partitionBy_balanced below).bind
  intro parts
  apply (orderBy_balanced below).bind
  intro keys
  apply (frame_balanced below).bind
  intro frame
  exact (expectSign_balanced _).andThen (.spanned start)

theorem windowDef_balanced : Balanced (windowDef phrases) (windowDef phrases') := by
  apply here_balanced.bind
  intro start
  apply identifier_balanced.bind
  intro name
  apply (expectWord_balanced _).andThen
  apply (windowSpec_balanced below).bind
  intro spec
  exact .spanned start

theorem windows_balanced : Balanced (windows phrases) (windows phrases') :=
  .ifs (takeWord_balanced _) (commaSeparated_balanced (windowDef_balanced below)) (.pure _)

/-! ## Projections -/

theorem target_balanced : Balanced (target phrases) (target phrases') := by
  apply here_balanced.bind
  intro start
  apply below.expression.bind
  intro expr
  apply optionalAlias_balanced.bind
  intro found
  split
  · exact .spanned start
  · exact .pure _

theorem sources_balanced : Balanced (sources phrases) (sources phrases') :=
  .ifs (takeWord_balanced _) (commaSeparated_balanced (source_balanced below)) (.pure _)

theorem select_balanced : Balanced (select phrases) (select phrases') := by
  apply here_balanced.bind
  intro start
  apply (expectWord_balanced _).andThen
  apply setQuantifier_balanced.bind
  intro quantifier
  apply (commaSeparated_balanced (target_balanced below)).bind
  intro targets
  apply (sources_balanced below).bind
  intro sources
  apply (below.optionalClause _).bind
  intro selection
  apply (groupClause_balanced below).bind
  intro grouping
  apply (below.optionalClause _).bind
  intro having
  apply (windows_balanced below).bind
  intro windows
  exact .spanned start

theorem values_balanced : Balanced (values phrases) (values phrases') := by
  apply here_balanced.bind
  intro start
  apply (expectWord_balanced _).andThen
  apply below.expressions.bind
  intro rows
  exact .spanned start

omit below in
theorem wholeTable_balanced : Balanced wholeTable wholeTable := by
  apply here_balanced.bind
  intro start
  apply (expectWord_balanced _).andThen
  apply qualifiedName_balanced.bind
  intro name
  exact .spanned start

theorem queryPrimary_balanced : Balanced (queryPrimary phrases) (queryPrimary phrases') := by
  apply kind_balanced.bind
  intro kind
  split
  · exact (select_balanced below).map _
  · exact values_balanced below
  · exact wholeTable_balanced
  · exact (parenthesized_balanced below.query).map _
  · exact unexpected_balanced _

/-! ## Set operations and queries -/

/-- A set operation enters one level, which is counted. -/
theorem setOperationStep_built (least : Nat) (up : Nat) (done : Rel × Nat) :
    Built (up + done.2) (Built.afterRound (fun next => up + next.2) done)
      (setOperationStep phrases least done) (setOperationStep phrases' least done) := by
  obtain ⟨left, levels⟩ := done
  apply Built.next kind_balanced
  intro kind
  split
  · exact .pure rfl
  refine .ite (.pure rfl) ?_
  apply Built.bind (.enter _)
  intro _
  apply Built.next advance_balanced
  intro _
  apply Built.next setQuantifier_balanced
  intro quantifier
  apply Built.next (queryPrimary_balanced below)
  intro first
  apply Built.next (below.setOperations first _)
  intro right
  apply Built.next (spanFrom_balanced left.span)
  intro span
  exact .pure rfl

theorem setOperations_balanced (left : Rel) (least : Nat) :
    Balanced (setOperations phrases left least) (setOperations phrases' left least) :=
  levels_balanced (v := (left, 0)) (setOperationStep_built below least) rfl

theorem cte_balanced : Balanced (cte phrases) (cte phrases') := by
  apply here_balanced.bind
  intro start
  apply identifier_balanced.bind
  intro name
  apply optionalNames_balanced.bind
  intro columns
  apply (expectWord_balanced _).andThen
  apply (parenthesized_balanced below.query).bind
  intro query
  exact .spanned start

theorem withClause_balanced : Balanced (withClause phrases) (withClause phrases') := by
  apply here_balanced.bind
  intro start
  apply Balanced.ifs (takeWord_balanced _) _ (.pure _)
  apply (takeWord_balanced _).bind
  intro recursive
  apply (commaSeparated_balanced (cte_balanced below)).bind
  intro ctes
  exact .spanned start

theorem queryBody_balanced : Balanced (queryBody phrases) (queryBody phrases') := by
  apply here_balanced.bind
  intro start
  apply (withClause_balanced below).bind
  intro withClause
  apply (queryPrimary_balanced below).bind
  intro first
  apply (setOperations_balanced below first 0).bind
  intro body
  exact queryTail_balanced below withClause body start

theorem query_balanced : Balanced (query phrases) (query phrases') :=
  nested_balanced (queryBody_balanced below)

end

end CanonicalSql.Parse

namespace CanonicalSql.Phrases

open Parse

variable {phrases phrases' : Phrases}

theorem Balanced.above (below : phrases.Balanced phrases') :
    phrases.above.Balanced phrases'.above where
  operand := operand_balanced below
  query := query_balanced below
  setOperations := setOperations_balanced below
  tablePrimary := tablePrimary_balanced below
  joins := joins_balanced below
  groupingElement := groupingElement_balanced below

/-- The rules that read nothing are built like any others as far as they go, which is nowhere. -/
theorem exhausted_balanced (phrases : Phrases) : exhausted.Balanced phrases where
  operand _ _ := .halted _
  query _ := .halted _
  setOperations _ _ _ := .halted _
  tablePrimary _ := .halted _
  joins _ _ := .halted _
  groupingElement _ := .halted _

/-- What is built like something may be cut short. -/
theorem Balanced.outlasted (given : phrases.Balanced phrases') : phrases.Balanced exhausted where
  operand least up := .outlasted (given.operand least up)
  query up := .outlasted (given.query up)
  setOperations left least up := .outlasted (given.setOperations left least up)
  tablePrimary up := .outlasted (given.tablePrimary up)
  joins left up := .outlasted (given.joins left up)
  groupingElement up := .outlasted (given.groupingElement up)

/-- The rules of two levels of recursion are built alike. The induction is on the first level. -/
theorem within_balanced (bound bound' : Nat) : (within bound).Balanced (within bound') := by
  induction bound generalizing bound' with
  | zero => exact exhausted_balanced _
  | succ bound ih =>
    cases bound' with
    | zero => exact (ih bound).above.outlasted
    | succ bound' => exact (ih bound').above

end CanonicalSql.Phrases
