import CanonicalSql.Grammar.Query
import CanonicalSql.Proofs.Steps.Basic

/-!
# How expressions are read

The rules of expressions and of what they are made of are built of basic steps if the rules that
they refer back to are.
-/
namespace CanonicalSql

/-- The recursive rules are built alike, and come back to the level at which they began. -/
structure Phrases.Balanced (phrases phrases' : Phrases) : Prop where
  operand : ∀ least, Parse.Balanced (phrases.operand least) (phrases'.operand least)
  query : Parse.Balanced phrases.query phrases'.query
  setOperations : ∀ left least,
    Parse.Balanced (phrases.setOperations left least) (phrases'.setOperations left least)
  tablePrimary : Parse.Balanced phrases.tablePrimary phrases'.tablePrimary
  joins : ∀ left, Parse.Balanced (phrases.joins left) (phrases'.joins left)
  groupingElement : Parse.Balanced phrases.groupingElement phrases'.groupingElement

open Parse

variable {phrases phrases' : Phrases}

namespace Phrases.Balanced

variable (below : phrases.Balanced phrases')
include below

theorem expression : Parse.Balanced phrases.expression phrases'.expression :=
  nested_balanced (below.operand 0)

theorem expressions : Parse.Balanced phrases.expressions phrases'.expressions :=
  commaSeparated_balanced below.expression

theorem optionalClause (word : Keyword) :
    Parse.Balanced (phrases.optionalClause word) (phrases'.optionalClause word) :=
  .ifs (takeWord_balanced word) (below.expression.map _) (.pure _)

end Phrases.Balanced

namespace Parse

/-! ## The tail of a query -/

theorem sortOrder_balanced : Balanced sortOrder sortOrder :=
  .ifs (takeWord_balanced _) (.pure _) ((takeWord_balanced _).andThen (.pure _))

theorem nullOrder_balanced : Balanced nullOrder nullOrder := by
  apply Balanced.ifs (takeWord_balanced _) _ (.pure _)
  exact .ifs (takeWord_balanced _) (.pure _) ((expectWord_balanced _).andThen (.pure _))

theorem takeRows_balanced : Balanced takeRows takeRows :=
  .ifs (takeWord_balanced _) (.pure _) (takeWord_balanced _)

theorem expectRows_balanced : Balanced expectRows expectRows :=
  .ifs (takeWord_balanced _) (.pure _) (expectWord_balanced _)

theorem fetchKind_balanced : Balanced fetchKind fetchKind := by
  apply Balanced.ifs (takeWord_balanced _) (.pure _)
  exact .ifs (takeWord_balanced _) (.pure _) (unexpected_balanced _)

theorem withTies_balanced : Balanced withTies withTies := by
  apply Balanced.ifs (takeWord_balanced _) (.pure _)
  apply Balanced.ifs (takeWord_balanced _) _ (unexpected_balanced _)
  exact (expectWord_balanced _).andThen (.pure _)

section

variable (below : phrases.Balanced phrases')
include below

theorem sortKey_balanced : Balanced (sortKey phrases) (sortKey phrases') := by
  apply here_balanced.bind
  intro start
  apply below.expression.bind
  intro expr
  apply sortOrder_balanced.bind
  intro order
  apply nullOrder_balanced.bind
  intro nulls
  exact .spanned start

theorem orderBy_balanced : Balanced (orderBy phrases) (orderBy phrases') := by
  apply Balanced.ifs (takeWord_balanced _) _ (.pure _)
  exact (expectWord_balanced _).andThen (commaSeparated_balanced (sortKey_balanced below))

theorem offset_balanced : Balanced (offset phrases) (offset phrases') := by
  apply Balanced.ifs (takeWord_balanced _) _ (.pure _)
  apply below.expression.bind
  intro count
  exact takeRows_balanced.andThen (.pure _)

theorem fetchCount_balanced : Balanced (fetchCount phrases) (fetchCount phrases') := by
  apply Balanced.ifs (atWord_balanced _) (.pure _)
  exact .ifs (atWord_balanced _) (.pure _) (below.expression.map _)

theorem fetch_balanced : Balanced (fetch phrases) (fetch phrases') := by
  apply here_balanced.bind
  intro start
  apply Balanced.ifs (takeWord_balanced _) _ (.pure _)
  apply fetchKind_balanced.bind
  intro kind
  apply (fetchCount_balanced below).bind
  intro count
  apply (takeWord_balanced _).bind
  intro percent
  apply expectRows_balanced.andThen
  apply withTies_balanced.bind
  intro ties
  exact .spanned start

theorem queryTail_balanced (withClause : Option WithClause) (body : Rel) (start : Span) :
    Balanced (queryTail phrases withClause body start)
      (queryTail phrases' withClause body start) := by
  apply (orderBy_balanced below).bind
  intro keys
  apply (offset_balanced below).bind
  intro skipped
  apply (fetch_balanced below).bind
  intro fetched
  exact .spanned start

theorem reopened_balanced (query : Query) (start : Span) :
    Balanced (reopened phrases query start) (reopened phrases' query start) := by
  apply (below.setOperations query.operand 0).bind
  intro body
  exact queryTail_balanced below none body start

end

/-! ## Names, aggregates and parentheses -/

theorem columnPart_balanced (parts : List Name × Bool) :
    Balanced (columnPart parts) (columnPart parts) := by
  obtain ⟨parts, _ | _⟩ := parts
  · apply Balanced.ifs (takeSign_balanced _) _ (.pure _)
    exact .ifs (takeSign_balanced _) (.pure _) (identifier_balanced.map _)
  · exact .pure _

theorem column_balanced : Balanced column column := by
  apply here_balanced.bind
  intro start
  apply identifier_balanced.bind
  intro first
  apply (Balanced.loop columnPart_balanced _).bind
  intro parts
  apply Balanced.ite (.spanned start)
  exact .ifs (atSign_balanced _) (fail_balanced rfl) (.spanned start)

section

variable (below : phrases.Balanced phrases')
include below

theorem aggregateArgument_balanced :
    Balanced (aggregateArgument phrases) (aggregateArgument phrases') := by
  apply setQuantifier_balanced.bind
  intro quantifier
  exact below.expression.map _

theorem whereCondition_balanced :
    Balanced (whereCondition phrases) (whereCondition phrases') :=
  (expectWord_balanced _).andThen below.expression

theorem aggregateFilter_balanced :
    Balanced (aggregateFilter phrases) (aggregateFilter phrases') := by
  apply Balanced.ifs (atWordBefore_balanced _ _) _ (.pure _)
  apply advance_balanced.andThen
  exact (parenthesized_balanced (whereCondition_balanced below)).map _

theorem aggregate_balanced (function : AggregateFunction) :
    Balanced (aggregate phrases function) (aggregate phrases' function) := by
  apply here_balanced.bind
  intro start
  apply advance_balanced.andThen
  apply (parenthesized_balanced (aggregateArgument_balanced below)).bind
  intro found
  apply (aggregateFilter_balanced below).bind
  intro filter
  exact .spanned start

theorem rowValues_balanced : Balanced (rowValues phrases) (rowValues phrases') :=
  .ifs (atSign_balanced _) (.pure _) below.expressions

theorem afterFirst_balanced (start : Span) (first : Expr) :
    Balanced (afterFirst phrases start first) (afterFirst phrases' start first) := by
  apply Balanced.ifs (atSign_balanced _)
  · apply advance_balanced.andThen
    apply below.expressions.bind
    intro rest
    exact (expectSign_balanced _).andThen (.spanned start)
  · exact (expectSign_balanced _).andThen (.pure _)

theorem inParentheses_balanced : Balanced (inParentheses phrases) (inParentheses phrases') := by
  apply here_balanced.bind
  intro start
  apply (expectSign_balanced _).andThen
  apply Balanced.ifs startsQuery_balanced
  · apply below.query.bind
    intro query
    exact (expectSign_balanced _).andThen (.spanned start)
  apply below.expression.bind
  intro first
  split
  -- a subquery may be the first operand of a longer query
  · apply Balanced.ifs continuesQuery_balanced
    · apply (reopened_balanced below _ start).bind
      intro longer
      exact (expectSign_balanced _).andThen (.spanned start)
    · exact afterFirst_balanced below start _
  · exact afterFirst_balanced below start _

/-! ## Leading parts -/

omit below in
theorem wordAsColumn_balanced (word : Keyword) :
    Balanced (wordAsColumn word) (wordAsColumn word) :=
  .ite (unexpected_balanced _) column_balanced

theorem aggregateOrColumn_balanced (word : Keyword) :
    Balanced (aggregateOrColumn phrases word) (aggregateOrColumn phrases' word) := by
  unfold aggregateOrColumn
  split
  · apply peek_balanced.bind
    intro next
    exact .ite (aggregate_balanced below _) (wordAsColumn_balanced word)
  · exact wordAsColumn_balanced word

theorem afterWord_balanced (word : Keyword) :
    Balanced (afterWord phrases word) (afterWord phrases' word) := by
  have test (make : Span → Query → Span → Expr) (start : Span) :
      Balanced (do
        advance
        let query ← parenthesized phrases.query
        return make start query (← spanFrom start)) (do
        advance
        let query ← parenthesized phrases'.query
        return make start query (← spanFrom start)) := by
    apply advance_balanced.andThen
    apply (parenthesized_balanced below.query).bind
    intro query
    exact .spanned start
  apply here_balanced.bind
  intro start
  split
  · exact advance_balanced.andThen (.pure _)
  split
  · exact advance_balanced.andThen (.pure _)
  · exact test (fun _ query span => .existence query span) start
  · exact test (fun _ query span => .uniqueness query span) start
  · apply advance_balanced.andThen
    apply (parenthesized_balanced (rowValues_balanced below)).bind
    intro values
    exact .spanned start
  · exact aggregateOrColumn_balanced below _

theorem primary_balanced : Balanced (primary phrases) (primary phrases') := by
  apply here_balanced.bind
  intro start
  apply kind_balanced.bind
  intro kind
  split
  · exact advance_balanced.andThen (.pure _)
  · exact advance_balanced.andThen (.pure _)
  · exact advance_balanced.andThen (.pure _)
  · exact advance_balanced.andThen (.pure _)
  · exact inParentheses_balanced below
  · exact afterWord_balanced below _
  · exact column_balanced
  · exact unexpected_balanced _

theorem leading_balanced : Balanced (leading phrases) (leading phrases') := by
  apply here_balanced.bind
  intro start
  apply kind_balanced.bind
  intro kind
  split
  · next op power _ =>
    apply advance_balanced.andThen
    apply (nested_balanced (below.operand power)).bind
    intro operand
    exact .spanned start
  · exact primary_balanced below

/-! ## Predicates -/

omit below in
theorem negated_balanced (operand : Expr) (start : Span) :
    Balanced (negated operand start) (negated operand start) :=
  .spanned start

omit below in
theorem testedValue_balanced : Balanced testedValue testedValue := by
  apply word?_balanced.bind
  intro word
  split
  · exact advance_balanced.andThen (.pure _)
  · exact advance_balanced.andThen (.pure _)
  · exact advance_balanced.andThen (.pure _)
  · exact advance_balanced.andThen (.pure _)
  · exact unexpected_balanced _

omit below in
theorem isTest_balanced (left : Expr) (start : Span) :
    Balanced (isTest left start) (isTest left start) := by
  apply (expectWord_balanced _).andThen
  apply (takeWord_balanced _).bind
  intro negative
  apply testedValue_balanced.bind
  intro value
  apply (spanFrom_balanced start).bind
  intro span
  exact .ite (negated_balanced _ start) (.pure _)

omit below in
theorem symmetric_balanced : Balanced symmetric symmetric :=
  .ifs (takeWord_balanced _) (.pure _) ((takeWord_balanced _).andThen (.pure _))

omit below in
theorem listedValues_balanced (opening : Span) (values : List Expr) :
    Balanced (listedValues opening values) (listedValues opening values) :=
  here_balanced.map _

theorem inRows_balanced (opening : Span) :
    Balanced (inRows phrases opening) (inRows phrases' opening) := by
  apply Balanced.ifs startsQuery_balanced (below.query.map _)
  apply here_balanced.bind
  intro start
  apply below.expressions.bind
  intro values
  split
  · apply Balanced.ifs continuesQuery_balanced
    · exact (reopened_balanced below _ start).map _
    · exact listedValues_balanced opening _
  · exact listedValues_balanced opening _

theorem likeEscape_balanced : Balanced (likeEscape phrases) (likeEscape phrases') :=
  .ifs (takeWord_balanced _) ((below.operand _).map _) (.pure _)

theorem predicate_balanced (left : Expr) (start : Span) :
    Balanced (predicate phrases left start) (predicate phrases' left start) := by
  apply word?_balanced.bind
  intro word
  split
  · apply advance_balanced.andThen
    apply symmetric_balanced.bind
    intro symmetric
    apply (below.operand _).bind
    intro low
    apply (expectWord_balanced _).andThen
    apply (below.operand _).bind
    intro high
    exact .spanned start
  · apply advance_balanced.andThen
    apply here_balanced.bind
    intro opening
    apply (expectSign_balanced _).andThen
    apply (inRows_balanced below opening).bind
    intro rows
    exact (expectSign_balanced _).andThen (.spanned start)
  · apply advance_balanced.andThen
    apply (below.operand _).bind
    intro pattern
    apply (likeEscape_balanced below).bind
    intro escape
    exact .spanned start
  · exact unexpected_balanced _

/-! ## Operators that follow -/

omit below in
theorem operatorPower_balanced : Balanced operatorPower operatorPower :=
  .ifs (atWord_balanced _) (peek_balanced.map _) (kind_balanced.map _)

theorem binary_balanced (left : Expr) (power : Nat) (start : Span) :
    Balanced (binary phrases left power start) (binary phrases' left power start) := by
  apply kind_balanced.bind
  intro kind
  split
  · apply advance_balanced.andThen
    apply (below.operand power).bind
    intro right
    exact .spanned start
  · exact unexpected_balanced _

theorem applied_balanced (left : Expr) (power : Nat) (start : Span) :
    Balanced (applied phrases left power start) (applied phrases' left power start) := by
  apply word?_balanced.bind
  intro word
  split
  · apply advance_balanced.andThen
    apply qualifiedName_balanced.bind
    intro collation
    exact .spanned start
  · exact isTest_balanced left start
  · apply advance_balanced.andThen
    apply (predicate_balanced below left start).bind
    intro test
    exact negated_balanced test start
  · exact predicate_balanced below left start
  · exact predicate_balanced below left start
  · exact predicate_balanced below left start
  · exact binary_balanced below left power start

/-- A round enters one level, which is counted. -/
theorem operatorStep_built (least : Nat) (start : Span) (up : Nat) (done : Applied) :
    Built (up + done.levels) (Built.afterRound (fun next => up + next.levels) done)
      (operatorStep phrases least start done) (operatorStep phrases' least start done) := by
  apply Built.next operatorPower_balanced
  intro power
  split
  · exact .pure rfl
  refine .ite (.pure rfl) ?_
  apply Built.ite
  · apply Built.next kind_balanced
    intro kind
    exact fail_built rfl
  apply Built.bind (.enter _)
  intro _
  apply Built.bind (applied_balanced below _ _ start _)
  intro left
  exact .pure rfl

theorem operators_balanced (left : Expr) (least : Nat) (start : Span) :
    Balanced (operators phrases left least start) (operators phrases' left least start) :=
  levels_balanced (operatorStep_built below least start) rfl

theorem operand_balanced (least : Nat) :
    Balanced (operand phrases least) (operand phrases' least) := by
  apply here_balanced.bind
  intro start
  apply (leading_balanced below).bind
  intro left
  exact operators_balanced below left least start

end

end Parse

end CanonicalSql
