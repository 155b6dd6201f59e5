import CanonicalSql.Grammar.Query
import CanonicalSql.Proofs.EraseKeeps
import CanonicalSql.Proofs.Lockstep.Basic

/-!
# Expressions side by side

The rules of expressions and of what they are made of, each of which moves if the rules that it
refers back to do.
-/
namespace CanonicalSql

/-- The recursive rules do after the move what they do before it. -/
structure Phrases.Moves (m : Move) (phrases : Phrases) : Prop where
  operand : ∀ least,
    Parse.Moves m (m.on Expr.erase) (phrases.operand least) (phrases.operand least)
  query : Parse.Moves m (m.on Query.erase) phrases.query phrases.query
  setOperations : ∀ left least, Parse.Moves m (m.on Rel.erase) (phrases.setOperations left least)
    (phrases.setOperations (m.on Rel.erase left) least)
  tablePrimary : Parse.Moves m (m.on Rel.erase) phrases.tablePrimary phrases.tablePrimary
  joins : ∀ left, Parse.Moves m (m.on Rel.erase) (phrases.joins left)
    (phrases.joins (m.on Rel.erase left))
  groupingElement :
    Parse.Moves m (m.on Expr.erase) phrases.groupingElement phrases.groupingElement

namespace Move

variable (m : Move)

theorem on_eraseAll : m.on Expr.eraseAll = List.map (m.on Expr.erase) := by
  rw [← m.on_map]
  exact congrArg m.on (funext Expr.eraseAll_eq_map)

theorem on_eraseOption (value : Option Expr) :
    m.on Expr.eraseOption value = value.map (m.on Expr.erase) := by
  cases value <;> obtain ⟨_ | _⟩ := m <;> rfl

@[simp] theorem on_no_with : m.on WithClause.eraseOption none = none := by
  obtain ⟨_ | _⟩ := m <;> rfl

/-- A query in parentheses stands for the same operand after the move. -/
theorem on_operand (query : Query) :
    m.on Rel.erase query.operand = (m.on Query.erase query).operand := by
  obtain ⟨_ | _⟩ := m
  · exact query.operand_erase
  · rfl

/-- Operators read so far, after the move. -/
def applied (done : Parse.Applied) : Parse.Applied :=
  { done with left := m.on Expr.erase done.left }

end Move

variable {m : Move} {phrases : Phrases}

namespace Phrases.Moves

open Parse

variable (below : phrases.Moves m)
include below

theorem expression : Parse.Moves m (m.on Expr.erase) phrases.expression phrases.expression :=
  nested_moves (below.operand 0)

theorem expressions :
    Parse.Moves m (m.on Expr.eraseAll) phrases.expressions phrases.expressions := by
  rw [m.on_eraseAll]
  exact commaSeparated_moves below.expression

theorem optionalClause (word : Keyword) : Parse.Moves m (m.on Expr.eraseOption)
    (phrases.optionalClause word) (phrases.optionalClause word) :=
  (takeWord_moves word).next fun _ => .ite
    (fun _ => below.expression.bind fun expr => .pure (m.on_eraseOption (some expr)))
    fun _ => .pure (m.on_eraseOption none)

end Phrases.Moves

namespace Parse

/-! ## The tail of a query -/

theorem sortOrder_moves : Moves m id sortOrder sortOrder :=
  (takeWord_moves _).next fun _ => .ite (fun _ => .pure rfl) fun _ =>
    (takeWord_moves _).next fun _ => .pure rfl

theorem nullOrder_moves : Moves m id nullOrder nullOrder := by
  refine (takeWord_moves _).next fun _ => .ite (fun _ => ?_) fun _ => .pure rfl
  exact (takeWord_moves _).next fun _ => .ite (fun _ => .pure rfl) fun _ =>
    (expectWord_moves _).next fun _ => .pure rfl

theorem takeRows_moves : Moves m id takeRows takeRows :=
  (takeWord_moves _).next fun _ => .ite (fun _ => .pure rfl) fun _ => takeWord_moves _

theorem expectRows_moves : Moves m id expectRows expectRows :=
  (takeWord_moves _).next fun _ => .ite (fun _ => .pure rfl) fun _ => expectWord_moves _

theorem fetchKind_moves : Moves m id fetchKind fetchKind :=
  (takeWord_moves _).next fun _ => .ite (fun _ => .pure rfl) fun _ =>
    (takeWord_moves _).next fun _ => .ite (fun _ => .pure rfl) fun _ => unexpected_moves _ _

theorem withTies_moves : Moves m id withTies withTies := by
  refine (takeWord_moves _).next fun _ => .ite (fun _ => .pure rfl) fun _ => ?_
  refine (takeWord_moves _).next fun _ => .ite (fun _ => ?_) fun _ => unexpected_moves _ _
  exact (expectWord_moves _).next fun _ => .pure rfl

section

variable (below : phrases.Moves m)
include below

theorem sortKey_moves : Moves m (m.on SortKey.erase) (sortKey phrases) (sortKey phrases) := by
  refine here_moves.bind fun start => below.expression.bind fun expr => ?_
  refine sortOrder_moves.next fun order => nullOrder_moves.next fun nulls => ?_
  exact (spanFrom_moves start).bind fun span => .pure (by obtain ⟨_ | _⟩ := m <;> rfl)

theorem orderBy_moves : Moves m (m.on SortKey.eraseAll) (orderBy phrases) (orderBy phrases) := by
  have eraseAll : m.on SortKey.eraseAll = List.map (m.on SortKey.erase) := by
    rw [← m.on_map]
    exact congrArg m.on (funext SortKey.eraseAll_eq_map)
  rw [eraseAll]
  exact (takeWord_moves _).next fun _ => .ite
    (fun _ => (expectWord_moves _).next fun _ => commaSeparated_moves (sortKey_moves below))
    fun _ => .pure rfl

theorem offset_moves : Moves m (m.on Expr.eraseOption) (offset phrases) (offset phrases) :=
  (takeWord_moves _).next fun _ => .ite
    (fun _ => below.expression.bind fun count => takeRows_moves.next fun _ =>
      .pure (m.on_eraseOption (some count)))
    fun _ => .pure (m.on_eraseOption none)

theorem fetchCount_moves :
    Moves m (m.on Expr.eraseOption) (fetchCount phrases) (fetchCount phrases) := by
  refine (atWord_moves _).next fun _ => .ite (fun _ => .pure (m.on_eraseOption none)) fun _ => ?_
  refine (atWord_moves _).next fun _ => .ite (fun _ => .pure (m.on_eraseOption none)) fun _ => ?_
  exact below.expression.bind fun count => .pure (m.on_eraseOption (some count))

theorem fetch_moves : Moves m (m.on Fetch.eraseOption) (fetch phrases) (fetch phrases) := by
  refine here_moves.bind fun start => (takeWord_moves _).next fun _ => .ite (fun _ => ?_) fun _ => ?_
  · refine fetchKind_moves.next fun kind => (fetchCount_moves below).bind fun count => ?_
    refine (takeWord_moves _).next fun percent => expectRows_moves.next fun _ => ?_
    refine withTies_moves.next fun ties => (spanFrom_moves start).bind fun span => .pure ?_
    obtain ⟨_ | _⟩ := m <;> rfl
  · exact .pure (by obtain ⟨_ | _⟩ := m <;> rfl)

theorem queryTail_moves (withClause : Option WithClause) (body : Rel) (start : Span) :
    Moves m (m.on Query.erase) (queryTail phrases withClause body start)
      (queryTail phrases (m.on WithClause.eraseOption withClause) (m.on Rel.erase body)
        (m.span start)) := by
  refine (orderBy_moves below).bind fun keys => (offset_moves below).bind fun skipped => ?_
  refine (fetch_moves below).bind fun fetched => (spanFrom_moves start).bind fun span => .pure ?_
  obtain ⟨_ | _⟩ := m <;> rfl

theorem reopened_moves (query : Query) (start : Span) :
    Moves m (m.on Query.erase) (reopened phrases query start)
      (reopened phrases (m.on Query.erase query) (m.span start)) := by
  unfold reopened
  rw [← m.on_operand]
  refine (below.setOperations query.operand 0).bind fun body => ?_
  simpa only [m.on_no_with] using queryTail_moves below none body start

end

/-! ## Names, aggregates and parentheses -/

theorem column_moves : Moves m (m.on Expr.erase) column column := by
  have part (done : List Name × Bool) : Moves m id (columnPart done) (columnPart done) := by
    obtain ⟨parts, _ | _⟩ := done
    · refine (takeSign_moves _).next fun _ => .ite (fun _ => ?_) fun _ => .pure rfl
      exact (takeSign_moves _).next fun _ => .ite (fun _ => .pure rfl) fun _ =>
        identifier_moves.next fun _ => .pure rfl
    · exact .pure rfl
  refine here_moves.bind fun start => identifier_moves.next fun first => ?_
  refine (loop_moves_id part _).next fun (parts, star) => .ite (fun _ => ?_) fun _ => ?_
  · exact (spanFrom_moves start).bind fun span => .pure (by obtain ⟨_ | _⟩ := m <;> rfl)
  · refine (atSign_moves _).next fun _ => .ite (fun _ => fail_moves _ _) fun _ => ?_
    exact (spanFrom_moves start).bind fun span => .pure (by obtain ⟨_ | _⟩ := m <;> rfl)

theorem wordAsColumn_moves (word : Keyword) :
    Moves m (m.on Expr.erase) (wordAsColumn word) (wordAsColumn word) :=
  .ite (fun _ => unexpected_moves _ _) fun _ => column_moves

section

variable (below : phrases.Moves m)
include below

theorem aggregateArgument_moves : Moves m (Prod.map id (m.on Expr.erase))
    (aggregateArgument phrases) (aggregateArgument phrases) :=
  setQuantifier_moves.next fun _ => below.expression.bind fun _ => .pure rfl

theorem whereCondition_moves :
    Moves m (m.on Expr.erase) (whereCondition phrases) (whereCondition phrases) :=
  (expectWord_moves _).next fun _ => below.expression

theorem aggregateFilter_moves :
    Moves m (m.on Expr.eraseOption) (aggregateFilter phrases) (aggregateFilter phrases) := by
  refine (atWordBefore_moves _ _).next fun _ => .ite (fun _ => advance_moves.next fun _ => ?_)
    fun _ => .pure (m.on_eraseOption none)
  exact (parenthesized_moves (whereCondition_moves below)).bind fun filter =>
    .pure (m.on_eraseOption (some filter))

theorem aggregate_moves (function : AggregateFunction) :
    Moves m (m.on Expr.erase) (aggregate phrases function) (aggregate phrases function) := by
  refine here_moves.bind fun start => advance_moves.next fun _ => ?_
  refine (parenthesized_moves (aggregateArgument_moves below)).bind fun (quantifier, argument) => ?_
  refine (aggregateFilter_moves below).bind fun filter => (spanFrom_moves start).bind fun span => ?_
  exact .pure (by obtain ⟨_ | _⟩ := m <;> rfl)

theorem rowValues_moves :
    Moves m (m.on Expr.eraseAll) (rowValues phrases) (rowValues phrases) :=
  (atSign_moves _).next fun _ => .ite (fun _ => .pure (by obtain ⟨_ | _⟩ := m <;> rfl))
    fun _ => below.expressions

theorem afterFirst_moves (start : Span) (first : Expr) :
    Moves m (m.on Expr.erase) (afterFirst phrases start first)
      (afterFirst phrases (m.span start) (m.on Expr.erase first)) := by
  refine (atSign_moves _).next fun _ => .ite (fun _ => advance_moves.next fun _ => ?_) fun _ => ?_
  · refine below.expressions.bind fun rest => (expectSign_moves _).next fun _ => ?_
    exact (spanFrom_moves start).bind fun span => .pure (by obtain ⟨_ | _⟩ := m <;> rfl)
  · exact (expectSign_moves _).next fun _ => .pure rfl

theorem inParentheses_moves :
    Moves m (m.on Expr.erase) (inParentheses phrases) (inParentheses phrases) := by
  refine here_moves.bind fun start => (expectSign_moves _).next fun _ => ?_
  refine startsQuery_moves.next fun _ => .ite (fun _ => ?_) fun _ => ?_
  · refine below.query.bind fun query => (expectSign_moves _).next fun _ => ?_
    exact (spanFrom_moves start).bind fun span => .pure (by obtain ⟨_ | _⟩ := m <;> rfl)
  · refine below.expression.bind fun first => ?_
    have rest := afterFirst_moves below start first
    cases first with
    | subquery query span =>
      have moved : m.on Expr.erase (.subquery query span) =
          .subquery (m.on Query.erase query) (m.span span) := by obtain ⟨_ | _⟩ := m <;> rfl
      rw [moved] at rest ⊢
      refine continuesQuery_moves.next fun _ => .ite (fun _ => ?_) fun _ => rest
      refine (reopened_moves below query start).bind fun longer => ?_
      refine (expectSign_moves _).next fun _ => (spanFrom_moves start).bind fun span => ?_
      exact .pure (by obtain ⟨_ | _⟩ := m <;> rfl)
    | _ => obtain ⟨_ | _⟩ := m <;> exact rest

/-! ## Leading parts -/

theorem aggregateOrColumn_moves (word : Keyword) : Moves m (m.on Expr.erase)
    (aggregateOrColumn phrases word) (aggregateOrColumn phrases word) := by
  unfold aggregateOrColumn
  split
  · exact peek_moves.next fun _ => .ite (fun _ => aggregate_moves below _)
      fun _ => wordAsColumn_moves word
  · exact wordAsColumn_moves word

theorem afterWord_moves (word : Keyword) :
    Moves m (m.on Expr.erase) (afterWord phrases word) (afterWord phrases word) := by
  refine here_moves.bind fun start => ?_
  split
  · exact advance_moves.next fun _ => .pure (by obtain ⟨_ | _⟩ := m <;> rfl)
  split
  · exact advance_moves.next fun _ => .pure (by obtain ⟨_ | _⟩ := m <;> rfl)
  · refine advance_moves.next fun _ => (parenthesized_moves below.query).bind fun query => ?_
    exact (spanFrom_moves start).bind fun span => .pure (by obtain ⟨_ | _⟩ := m <;> rfl)
  · refine advance_moves.next fun _ => (parenthesized_moves below.query).bind fun query => ?_
    exact (spanFrom_moves start).bind fun span => .pure (by obtain ⟨_ | _⟩ := m <;> rfl)
  · refine advance_moves.next fun _ => (parenthesized_moves (rowValues_moves below)).bind fun _ => ?_
    exact (spanFrom_moves start).bind fun span => .pure (by obtain ⟨_ | _⟩ := m <;> rfl)
  · exact aggregateOrColumn_moves below _

theorem primary_moves : Moves m (m.on Expr.erase) (primary phrases) (primary phrases) := by
  refine here_moves.bind fun start => kind_moves.next fun kind => ?_
  split
  · exact advance_moves.next fun _ => .pure (by obtain ⟨_ | _⟩ := m <;> rfl)
  · exact advance_moves.next fun _ => .pure (by obtain ⟨_ | _⟩ := m <;> rfl)
  · exact advance_moves.next fun _ => .pure (by obtain ⟨_ | _⟩ := m <;> rfl)
  · exact advance_moves.next fun _ => .pure (by obtain ⟨_ | _⟩ := m <;> rfl)
  · exact inParentheses_moves below
  · exact afterWord_moves below _
  · exact column_moves
  · exact unexpected_moves _ _

theorem leading_moves : Moves m (m.on Expr.erase) (leading phrases) (leading phrases) := by
  refine here_moves.bind fun start => kind_moves.next fun kind => ?_
  split
  · refine advance_moves.next fun _ => (nested_moves (below.operand _)).bind fun operand => ?_
    exact (spanFrom_moves start).bind fun span => .pure (by obtain ⟨_ | _⟩ := m <;> rfl)
  · exact primary_moves below

/-! ## Predicates -/

end

theorem negated_moves (operand : Expr) (start : Span) : Moves m (m.on Expr.erase)
    (negated operand start) (negated (m.on Expr.erase operand) (m.span start)) :=
  (spanFrom_moves start).bind fun span => .pure (by obtain ⟨_ | _⟩ := m <;> rfl)

theorem testedValue_moves : Moves m id testedValue testedValue := by
  refine word?_moves.next fun word => ?_
  split
  all_goals first
    | exact advance_moves.next fun _ => .pure rfl
    | exact unexpected_moves _ _

theorem isTest_moves (left : Expr) (start : Span) : Moves m (m.on Expr.erase)
    (isTest left start) (isTest (m.on Expr.erase left) (m.span start)) := by
  refine (expectWord_moves _).next fun _ => (takeWord_moves _).next fun negative => ?_
  refine testedValue_moves.next fun value => (spanFrom_moves start).bind fun span => ?_
  have ends {test test' : Expr} (moved : m.on Expr.erase test = test') :
      Moves m (m.on Expr.erase) (if negative then negated test start else Pure.pure test)
        (if negative then negated test' (m.span start) else Pure.pure test') := by
    subst moved
    exact .ite (fun _ => negated_moves _ start) fun _ => .pure rfl
  cases value with
  | none => exact ends (by obtain ⟨_ | _⟩ := m <;> rfl)
  | some value => exact ends (by obtain ⟨_ | _⟩ := m <;> rfl)

theorem symmetric_moves : Moves m id symmetric symmetric :=
  (takeWord_moves _).next fun _ => .ite (fun _ => .pure rfl) fun _ =>
    (takeWord_moves _).next fun _ => .pure rfl

theorem listedValues_moves (opening : Span) (values : List Expr) : Moves m (m.on Rel.erase)
    (listedValues opening values) (listedValues (m.span opening) (m.on Expr.eraseAll values)) :=
  here_moves.bind fun span => .pure (by obtain ⟨_ | _⟩ := m <;> rfl)

theorem operatorPower_moves : Moves m id operatorPower operatorPower :=
  (atWord_moves _).next fun _ => .ite (fun _ => peek_moves.next fun _ => .pure rfl)
    fun _ => kind_moves.next fun _ => .pure rfl

section

variable (below : phrases.Moves m)
include below

theorem inRows_moves (opening : Span) :
    Moves m (m.on Rel.erase) (inRows phrases opening) (inRows phrases (m.span opening)) := by
  have query {p q : Parse Query} (read : Moves m (m.on Query.erase) p q) :
      Moves m (m.on Rel.erase) (Rel.query <$> p) (Rel.query <$> q) :=
    read.bind fun _ => .pure (by obtain ⟨_ | _⟩ := m <;> rfl)
  refine startsQuery_moves.next fun _ => .ite (fun _ => query below.query) fun _ => ?_
  refine here_moves.bind fun start => below.expressions.bind fun values => ?_
  have listed := listedValues_moves (m := m) opening values
  match values with
  | [] => obtain ⟨_ | _⟩ := m <;> exact listed
  | first :: _ :: _ => cases first <;> obtain ⟨_ | _⟩ := m <;> exact listed
  | [first] =>
    cases first with
    | subquery rows span =>
      have moved : m.on Expr.eraseAll [.subquery rows span] =
          [.subquery (m.on Query.erase rows) (m.span span)] := by obtain ⟨_ | _⟩ := m <;> rfl
      rw [moved] at listed ⊢
      exact continuesQuery_moves.next fun _ => .ite
        (fun _ => query (reopened_moves below rows start)) fun _ => listed
    | _ => obtain ⟨_ | _⟩ := m <;> exact listed

theorem likeEscape_moves :
    Moves m (m.on Expr.eraseOption) (likeEscape phrases) (likeEscape phrases) :=
  (takeWord_moves _).next fun _ => .ite
    (fun _ => (below.operand _).bind fun escape => .pure (m.on_eraseOption (some escape)))
    fun _ => .pure (m.on_eraseOption none)

theorem predicate_moves (left : Expr) (start : Span) : Moves m (m.on Expr.erase)
    (predicate phrases left start)
    (predicate phrases (m.on Expr.erase left) (m.span start)) := by
  refine word?_moves.next fun word => ?_
  split
  · refine advance_moves.next fun _ => symmetric_moves.next fun symmetric => ?_
    refine (below.operand _).bind fun low => (expectWord_moves _).next fun _ => ?_
    refine (below.operand _).bind fun high => (spanFrom_moves start).bind fun span => ?_
    exact .pure (by obtain ⟨_ | _⟩ := m <;> rfl)
  · refine advance_moves.next fun _ => here_moves.bind fun opening => ?_
    refine (expectSign_moves _).next fun _ => (inRows_moves below opening).bind fun rows => ?_
    refine (expectSign_moves _).next fun _ => (spanFrom_moves start).bind fun span => ?_
    exact .pure (by obtain ⟨_ | _⟩ := m <;> rfl)
  · refine advance_moves.next fun _ => (below.operand _).bind fun pattern => ?_
    refine (likeEscape_moves below).bind fun escape => (spanFrom_moves start).bind fun span => ?_
    exact .pure (by obtain ⟨_ | _⟩ := m <;> rfl)
  · exact unexpected_moves _ _

/-! ## Operators that follow -/

theorem binary_moves (left : Expr) (power : Nat) (start : Span) : Moves m (m.on Expr.erase)
    (binary phrases left power start)
    (binary phrases (m.on Expr.erase left) power (m.span start)) := by
  refine kind_moves.next fun kind => ?_
  split
  · refine advance_moves.next fun _ => (below.operand _).bind fun right => ?_
    exact (spanFrom_moves start).bind fun span => .pure (by obtain ⟨_ | _⟩ := m <;> rfl)
  · exact unexpected_moves _ _

theorem applied_moves (left : Expr) (power : Nat) (start : Span) : Moves m (m.on Expr.erase)
    (applied phrases left power start)
    (applied phrases (m.on Expr.erase left) power (m.span start)) := by
  refine word?_moves.next fun word => ?_
  split
  · refine advance_moves.next fun _ => qualifiedName_moves.next fun collation => ?_
    exact (spanFrom_moves start).bind fun span => .pure (by obtain ⟨_ | _⟩ := m <;> rfl)
  · exact isTest_moves left start
  · exact advance_moves.next fun _ => (predicate_moves below left start).bind fun test =>
      negated_moves test start
  all_goals first
    | exact predicate_moves below left start
    | exact binary_moves below left power start

theorem operatorStep_moves (least : Nat) (start : Span) (done : Applied) :
    Moves m (Option.map m.applied) (operatorStep phrases least start done)
      (operatorStep phrases least (m.span start) (m.applied done)) := by
  refine operatorPower_moves.next fun power => ?_
  split
  · exact .pure rfl
  refine .ite (fun _ => .pure rfl) fun _ => .ite (fun _ => ?_) fun _ => ?_
  · exact kind_moves.next fun _ => fail_moves _ _
  · exact enter_moves.next fun _ => (applied_moves below done.left _ start).bind fun _ => .pure rfl

theorem operators_moves (left : Expr) (least : Nat) (start : Span) : Moves m (m.on Expr.erase)
    (operators phrases left least start)
    (operators phrases (m.on Expr.erase left) least (m.span start)) :=
  (loop_moves m.applied (operatorStep_moves below least start) ⟨left, 0, false⟩).bind fun done =>
    (leave_moves done.levels).next fun _ => .pure rfl

theorem operand_moves (least : Nat) :
    Moves m (m.on Expr.erase) (operand phrases least) (operand phrases least) :=
  here_moves.bind fun start => (leading_moves below).bind fun left =>
    operators_moves below left least start

end

end Parse

end CanonicalSql
