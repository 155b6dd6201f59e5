import CanonicalSql.Grammar.Grouping
import CanonicalSql.Proofs.Image.Tail

/-!
# Expressions that are read

Every rule for expressions gives a well-formed value, and the rules of `GROUP BY` give
well-formed grouping elements, if the phrases that they refer back to are well formed.
-/
namespace CanonicalSql.Parse

variable {limit : Nat} {phrases : Phrases}

/-! ## Names and aggregates -/

theorem columnPart_yields (parts : List Name × Bool)
    (proper : parts.1 ≠ [] ∧ ∀ part ∈ parts.1, part.Proper) :
    Yields limit (columnPart parts)
      fun next => ∀ it ∈ next, it.1 ≠ [] ∧ ∀ part ∈ it.1, part.Proper := by
  obtain ⟨parts, star⟩ := parts
  cases star with
  | true => exact .pure (by simp)
  | false =>
    refine (takeSign_yields _).bind fun _ _ => .ite (fun _ => ?_) fun _ => .pure (by simp)
    refine (takeSign_yields _).bind fun _ _ => .ite (fun _ => .pure ?_) fun _ => ?_
    · rintro it ⟨⟩
      exact proper
    · refine identifier_yields.bind fun last properLast => .pure ?_
      rintro it ⟨⟩
      refine ⟨by simp, fun part member => ?_⟩
      rcases List.mem_append.mp member with member | member
      · exact proper.2 part member
      · rw [List.mem_singleton.mp member]
        exact properLast

theorem column_yields : Yields limit column (Expr.Formed .value) := by
  refine here_yields.bind fun start _ => identifier_yields.bind fun first proper => ?_
  have single : (([first], false) : List Name × Bool).1 ≠ [] ∧
      ∀ part ∈ (([first], false) : List Name × Bool).1, part.Proper := by
    simpa using proper
  refine (Yields.loop columnPart_yields single).bind fun parts all => ?_
  have name := QualifiedName.ofParts_proper all
  refine .ite (fun _ => (spanFrom_yields _).bind fun _ _ => .pure ?_) fun _ => ?_
  · simpa [Expr.Formed] using name
  refine (atSign_yields _).bind fun _ _ => .ite (fun _ => fail_yields _ _) fun _ => ?_
  refine (spanFrom_yields _).bind fun _ _ => .pure ?_
  simpa [Expr.Formed] using name

theorem aggregateArgument_yields (forms : phrases.Forms limit) :
    Yields limit (aggregateArgument phrases) fun argument => argument.2.Formed .value :=
  setQuantifier_yields.bind fun _ _ => (expression_yields forms).bind fun _ formed =>
    .pure formed

theorem whereCondition_yields (forms : phrases.Forms limit) :
    Yields limit (whereCondition phrases) (Expr.Formed .value) :=
  (expectWord_yields _).bind fun _ _ => expression_yields forms

theorem aggregateFilter_yields (forms : phrases.Forms limit) :
    Yields limit (aggregateFilter phrases) Expr.OptionFormed := by
  refine (atWordBefore_yields _ _).bind fun _ _ => .ite (fun _ => ?_) fun _ => .pure trivial
  exact advance_yields.bind fun _ _ =>
    (whereCondition_yields forms).parenthesized.bind fun _ formed => .pure formed

theorem aggregate_yields (forms : phrases.Forms limit) (function : AggregateFunction) :
    Yields limit (aggregate phrases function) (Expr.Formed .value) := by
  refine here_yields.bind fun start _ => advance_yields.bind fun _ _ => ?_
  refine (aggregateArgument_yields forms).parenthesized.bind fun argument formed => ?_
  refine (aggregateFilter_yields forms).bind fun filter formedFilter => ?_
  exact (spanFrom_yields _).bind fun _ _ => .pure ⟨nofun, formed, formedFilter⟩

/-! ## Parentheses -/

theorem rowValues_yields (forms : phrases.Forms limit) :
    Yields limit (rowValues phrases) (Expr.AllFormed .value) :=
  (atSign_yields _).bind fun _ _ => .ite (fun _ => .pure trivial)
    fun _ => (expressions_yields forms).mono fun _ all => all.2

theorem afterFirst_yields (forms : phrases.Forms limit) (start : Span) {first : Expr}
    (formed : first.Formed .value) :
    Yields limit (afterFirst phrases start first) (Expr.Formed .value) := by
  refine (atSign_yields _).bind fun _ _ => .ite (fun _ => ?_) fun _ => ?_
  · refine advance_yields.bind fun _ _ => (expressions_yields forms).bind fun rest all => ?_
    refine (expectSign_yields _).bind fun _ _ => (spanFrom_yields _).bind fun _ _ => ?_
    exact .pure ⟨nofun, formed, all.2⟩
  · exact (expectSign_yields _).bind fun _ _ => .pure formed

/-- A query that begins here is well formed and more than a query in parentheses. -/
theorem startedQuery_yieldsAt (forms : phrases.Forms limit) :
    YieldsAt limit (isQueryStart · = true) phrases.query fun query => query.Formed ∧ ¬ query.Wraps :=
  (forms.query.at _).and forms.startedQuery

theorem inParentheses_yields (forms : phrases.Forms limit) :
    Yields limit (inParentheses phrases) (Expr.Formed .value) := by
  refine here_yields.bind fun start _ => (expectSign_yields _).bind fun _ _ => ?_
  refine startsQuery_looks.bind fun kind => ?_
  cases starts : isQueryStart kind with
  | true =>
    refine ((startedQuery_yieldsAt forms).here starts).bind ?_
    rintro query ⟨formed, proper⟩
    refine (expectSign_yields _).bind fun _ _ => (spanFrom_yields _).bind fun _ _ => ?_
    exact .pure ⟨nofun, formed, proper⟩
  | false =>
    refine Yields.at ?_ _
    refine (expression_yields forms).bind fun first formed => ?_
    split
    · next query span =>
      refine continuesQuery_looks.bind fun kind => ?_
      cases continues : isQueryNext kind with
      | true =>
        refine ((reopened_yieldsAt forms formed.2.1 start).here continues).bind ?_
        rintro longer ⟨formedLonger, proper⟩
        refine (expectSign_yields _).bind fun _ _ => (spanFrom_yields _).bind fun _ _ => ?_
        exact .pure ⟨nofun, formedLonger, proper⟩
      | false => exact (afterFirst_yields forms start formed).at _
    · exact afterFirst_yields forms start formed

/-! ## Leading parts -/

theorem wordAsColumn_yields (word : Keyword) :
    Yields limit (wordAsColumn word) (Expr.Formed .value) :=
  .ite (fun _ => unexpected_yields _ _) fun _ => column_yields

theorem aggregateOrColumn_yields (forms : phrases.Forms limit) (word : Keyword) :
    Yields limit (aggregateOrColumn phrases word) (Expr.Formed .value) := by
  unfold aggregateOrColumn
  split
  · refine peek_yields.bind fun _ _ => .ite (fun _ => aggregate_yields forms _) fun _ => ?_
    exact wordAsColumn_yields word
  · exact wordAsColumn_yields word

theorem afterWord_yields (forms : phrases.Forms limit) (word : Keyword) :
    Yields limit (afterWord phrases word) (Expr.Formed .value) := by
  refine here_yields.bind fun start _ => ?_
  split
  · exact advance_yields.bind fun _ _ => .pure nofun
  split
  · exact advance_yields.bind fun _ _ => .pure nofun
  · refine advance_yields.bind fun _ _ => forms.query.parenthesized.bind fun query formed => ?_
    exact (spanFrom_yields _).bind fun _ _ => .pure ⟨nofun, formed⟩
  · refine advance_yields.bind fun _ _ => forms.query.parenthesized.bind fun query formed => ?_
    exact (spanFrom_yields _).bind fun _ _ => .pure ⟨nofun, formed⟩
  · refine advance_yields.bind fun _ _ =>
      (rowValues_yields forms).parenthesized.bind fun values all => ?_
    exact (spanFrom_yields _).bind fun _ _ => .pure ⟨nofun, all⟩
  · exact aggregateOrColumn_yields forms _

theorem primary_yields (forms : phrases.Forms limit) :
    Yields limit (primary phrases) (Expr.Formed .value) := by
  refine here_yields.bind fun start _ => kind_yields.bind fun kind lexical => ?_
  split
  · cases lexical with
    | integer nonnegative bounded =>
      exact advance_yields.bind fun _ _ => .pure ⟨nofun, nonnegative, bounded⟩
  · cases lexical with
    | float finite positive =>
      exact advance_yields.bind fun _ _ => .pure ⟨nofun, finite, positive⟩
  · cases lexical with
    | string holds => exact advance_yields.bind fun _ _ => .pure ⟨nofun, holds⟩
  · exact advance_yields.bind fun _ _ => .pure ⟨nofun, nofun⟩
  · exact inParentheses_yields forms
  · exact afterWord_yields forms _
  · exact column_yields
  · exact unexpected_yields _ _

theorem leading_yields (forms : phrases.Forms limit) :
    Yields limit (leading phrases) (Expr.Formed .value) := by
  refine here_yields.bind fun start _ => kind_yields.bind fun kind _ => ?_
  split
  · refine advance_yields.bind fun _ _ => (forms.operand _).nested.bind fun operand formed => ?_
    exact (spanFrom_yields _).bind fun _ _ => .pure ⟨nofun, formed⟩
  · exact primary_yields forms

/-! ## Predicates -/

theorem negated_yields {operand : Expr} (formed : operand.Formed .value) (start : Span) :
    Yields limit (negated operand start) (Expr.Formed .value) :=
  (spanFrom_yields _).bind fun _ _ => .pure ⟨nofun, formed⟩

theorem testedValue_yields : Yields limit testedValue fun _ => True := by
  refine word?_yields.bind fun word _ => ?_
  split
  · exact advance_yields.bind fun _ _ => .pure trivial
  · exact advance_yields.bind fun _ _ => .pure trivial
  · exact advance_yields.bind fun _ _ => .pure trivial
  · exact advance_yields.bind fun _ _ => .pure trivial
  · exact unexpected_yields _ _

theorem isTest_yields {left : Expr} (formed : left.Formed .value) (start : Span) :
    Yields limit (isTest left start) (Expr.Formed .value) := by
  refine (expectWord_yields _).bind fun _ _ => (takeWord_yields _).bind fun negative _ => ?_
  refine testedValue_yields.bind fun value _ => (spanFrom_yields _).bind fun span _ => ?_
  cases value with
  | none =>
    have test : (Expr.isNull left span).Formed .value := ⟨nofun, formed⟩
    exact .ite (fun _ => negated_yields test start) fun _ => .pure test
  | some value =>
    have test : (Expr.isTruth left value span).Formed .value := ⟨nofun, formed⟩
    exact .ite (fun _ => negated_yields test start) fun _ => .pure test

theorem symmetric_yields : Yields limit symmetric fun _ => True := by
  refine (takeWord_yields _).bind fun _ _ => .ite (fun _ => .pure trivial) fun _ => ?_
  exact (takeWord_yields _).bind fun _ _ => .pure trivial

theorem listedValues_yields (opening : Span) {values : List Expr}
    (formed : values ≠ [] ∧ Expr.AllFormed .value values) :
    Yields limit (listedValues opening values) (Rel.Formed .members) :=
  here_yields.bind fun _ _ => .pure ⟨nofun, formed.1, formed.2⟩

theorem inRows_yields (forms : phrases.Forms limit) (opening : Span) :
    Yields limit (inRows phrases opening) (Rel.Formed .members) := by
  refine startsQuery_looks.bind fun kind => ?_
  cases starts : isQueryStart kind with
  | true =>
    refine ((startedQuery_yieldsAt forms).here starts).bind ?_
    rintro query ⟨formed, proper⟩
    exact .pure ⟨formed, proper⟩
  | false =>
    refine Yields.at ?_ _
    refine here_yields.bind fun start _ => (expressions_yields forms).bind fun values all => ?_
    split
    · next query span =>
      refine continuesQuery_looks.bind fun kind => ?_
      cases continues : isQueryNext kind with
      | true =>
        refine ((reopened_yieldsAt forms all.2.1.2.1 start).here continues).bind ?_
        rintro longer ⟨formed, proper⟩
        exact .pure ⟨formed, proper⟩
      | false => exact (listedValues_yields opening all).at _
    · exact listedValues_yields opening all

theorem likeEscape_yields (forms : phrases.Forms limit) :
    Yields limit (likeEscape phrases) Expr.OptionFormed :=
  (takeWord_yields _).bind fun _ _ => .ite (fun _ => (forms.operand _).bind fun _ formed =>
    .pure formed) fun _ => .pure trivial

theorem predicate_yields (forms : phrases.Forms limit) {left : Expr} (formed : left.Formed .value)
    (start : Span) : Yields limit (predicate phrases left start) (Expr.Formed .value) := by
  refine word?_yields.bind fun word _ => ?_
  split
  · refine advance_yields.bind fun _ _ => symmetric_yields.bind fun _ _ => ?_
    refine (forms.operand _).bind fun low formedLow => (expectWord_yields _).bind fun _ _ => ?_
    refine (forms.operand _).bind fun high formedHigh => (spanFrom_yields _).bind fun _ _ => ?_
    exact .pure ⟨nofun, formed, formedLow, formedHigh⟩
  · refine advance_yields.bind fun _ _ => here_yields.bind fun opening _ => ?_
    refine (expectSign_yields _).bind fun _ _ => ?_
    refine (inRows_yields forms opening).bind fun rows formedRows => ?_
    refine (expectSign_yields _).bind fun _ _ => (spanFrom_yields _).bind fun _ _ => ?_
    exact .pure ⟨nofun, formed, formedRows⟩
  · refine advance_yields.bind fun _ _ => (forms.operand _).bind fun pattern formedPattern => ?_
    refine (likeEscape_yields forms).bind fun escape formedEscape => ?_
    exact (spanFrom_yields _).bind fun _ _ =>
      .pure ⟨nofun, formed, formedPattern, formedEscape⟩
  · exact unexpected_yields _ _

/-! ## Operators that follow -/

theorem operatorPower_yields : Yields limit operatorPower fun _ => True := by
  refine (atWord_yields _).bind fun _ _ => .ite (fun _ => ?_) fun _ => ?_
  · exact peek_yields.bind fun _ _ => .pure trivial
  · exact kind_yields.bind fun _ _ => .pure trivial

theorem binary_yields (forms : phrases.Forms limit) {left : Expr} (formed : left.Formed .value)
    (power : Nat) (start : Span) :
    Yields limit (binary phrases left power start) (Expr.Formed .value) := by
  refine kind_yields.bind fun kind _ => ?_
  split
  · refine advance_yields.bind fun _ _ => (forms.operand _).bind fun right formedRight => ?_
    exact (spanFrom_yields _).bind fun _ _ => .pure ⟨nofun, formed, formedRight⟩
  · exact unexpected_yields _ _

theorem applied_yields (forms : phrases.Forms limit) {left : Expr} (formed : left.Formed .value)
    (power : Nat) (start : Span) :
    Yields limit (applied phrases left power start) (Expr.Formed .value) := by
  refine word?_yields.bind fun word _ => ?_
  split
  · refine advance_yields.bind fun _ _ => qualifiedName_yields.bind fun _ proper => ?_
    exact (spanFrom_yields _).bind fun _ _ => .pure ⟨nofun, formed, proper⟩
  · exact isTest_yields formed start
  · refine advance_yields.bind fun _ _ =>
      (predicate_yields forms formed start).bind fun _ test => ?_
    exact negated_yields test start
  · exact predicate_yields forms formed start
  · exact predicate_yields forms formed start
  · exact predicate_yields forms formed start
  · exact binary_yields forms formed power start

/-- An operator keeps the expression well formed. -/
theorem operatorStep_yields (forms : phrases.Forms limit) (least : Nat) (start : Span)
    (done : Applied) (formed : done.left.Formed .value) :
    Yields limit (operatorStep phrases least start done)
      fun next => ∀ it ∈ next, it.left.Formed .value := by
  refine operatorPower_yields.bind fun power _ => ?_
  split
  · exact .pure (by simp)
  refine .ite (fun _ => .pure (by simp)) fun _ => .ite (fun _ => ?_) fun _ => ?_
  · exact kind_yields.bind fun _ _ => fail_yields _ _
  · refine enter_yields.bind fun _ _ => (applied_yields forms formed _ start).bind fun _ next => ?_
    exact .pure (by simpa using next)

theorem operators_yields (forms : phrases.Forms limit) {left : Expr} (formed : left.Formed .value)
    (least : Nat) (start : Span) :
    Yields limit (operators phrases left least start) (Expr.Formed .value) := by
  refine (Yields.loop (operatorStep_yields forms least start) ?_).bind fun done holds => ?_
  · exact formed
  · exact (leave_yields _).bind fun _ _ => .pure holds

theorem operand_yields (forms : phrases.Forms limit) (least : Nat) :
    Yields limit (operand phrases least) (Expr.Formed .value) :=
  here_yields.bind fun start _ => (leading_yields forms).bind fun _ formed =>
    operators_yields forms formed least start

/-! ## Grouping -/

theorem opensList_yields : Yields limit opensList fun _ => True :=
  (atSign_yields _).bind fun _ _ => .ite (fun _ => peek_yields.bind fun _ _ => .pure trivial)
    fun _ => .pure trivial

theorem groupedColumns_yields (forms : phrases.Forms limit) :
    Yields limit (groupedColumns phrases) (Expr.AllFormed .value) :=
  rowValues_yields forms

theorem longerColumns_yields (forms : phrases.Forms limit) {columns : List Expr}
    (all : Expr.AllFormed .value columns) (start : Span) :
    Yields limit (longerColumns phrases columns start) (Expr.AllFormed .value) := by
  unfold longerColumns
  split
  · refine operatorPower_yields.bind fun _ _ => .ite (fun _ => ?_) fun _ => .pure all
    refine (operators_yields forms all.1 0 start).nested.bind fun expr formed => ?_
    exact .pure ⟨formed, trivial⟩
  · exact .pure all

theorem groupingSet_yields (forms : phrases.Forms limit) :
    Yields limit (groupingSet phrases) GroupingSet.Formed := by
  refine here_yields.bind fun start _ => opensList_yields.bind fun _ _ => ?_
  refine .ite (fun _ => ?_) fun _ => ?_
  · refine advance_yields.bind fun _ _ => (groupedColumns_yields forms).bind fun columns all => ?_
    refine (expectSign_yields _).bind fun _ _ => ?_
    refine (longerColumns_yields forms all start).bind fun longer allLonger => ?_
    exact (spanFrom_yields _).bind fun _ _ => .pure allLonger
  · refine (expression_yields forms).bind fun expr formed => ?_
    exact (spanFrom_yields _).bind fun _ _ => .pure ⟨formed, trivial⟩

theorem groupingSetList_yields (forms : phrases.Forms limit) :
    Yields limit (groupingSetList phrases) fun sets => sets ≠ [] ∧ GroupingSet.AllFormed sets := by
  refine advance_yields.bind fun _ _ =>
    (groupingSet_yields forms).commaSeparated.parenthesized.mono ?_
  rintro sets ⟨nonempty, all⟩
  exact ⟨nonempty, GroupingSet.allFormed_iff.mpr all⟩

theorem groupingSetsMembers_yields (forms : phrases.Forms limit) :
    Yields limit (groupingSetsMembers phrases)
      fun sets => sets ≠ [] ∧ Expr.AllFormed .grouping sets := by
  refine advance_yields.bind fun _ _ => advance_yields.bind fun _ _ =>
    forms.groupingElement.commaSeparated.parenthesized.nested.mono ?_
  rintro sets ⟨nonempty, all⟩
  exact ⟨nonempty, Expr.allFormed_iff.mpr all⟩

theorem groupingElement_yields (forms : phrases.Forms limit) :
    Yields limit (groupingElement phrases) (Expr.Formed .grouping) := by
  refine here_yields.bind fun start _ => ?_
  refine (atWordBefore_yields _ _).bind fun _ _ => .ite (fun _ => ?_) fun _ => ?_
  · refine (groupingSetList_yields forms).bind fun sets all => ?_
    exact (spanFrom_yields _).bind fun _ _ => .pure ⟨rfl, all.1, all.2⟩
  refine (atWordBefore_yields _ _).bind fun _ _ => .ite (fun _ => ?_) fun _ => ?_
  · refine (groupingSetList_yields forms).bind fun sets all => ?_
    exact (spanFrom_yields _).bind fun _ _ => .pure ⟨rfl, all.1, all.2⟩
  refine (atWordBefore_yields _ _).bind fun _ _ => .ite (fun _ => ?_) fun _ => ?_
  · refine (groupingSetsMembers_yields forms).bind fun sets all => ?_
    exact (spanFrom_yields _).bind fun _ _ => .pure ⟨rfl, all.1, all.2⟩
  · exact (groupingSet_yields forms).bind fun _ formed => .pure ⟨rfl, formed⟩

theorem groupClause_yields (forms : phrases.Forms limit) :
    Yields limit (groupClause phrases) GroupClause.OptionFormed := by
  refine here_yields.bind fun start _ => (takeWord_yields _).bind fun _ _ => ?_
  refine .ite (fun _ => ?_) fun _ => .pure trivial
  refine (expectWord_yields _).bind fun _ _ => setQuantifier_yields.bind fun _ _ => ?_
  refine (groupingElement_yields forms).commaSeparated.bind fun groupings all => ?_
  exact (spanFrom_yields _).bind fun _ _ =>
    .pure ⟨all.1, Expr.allFormed_iff.mpr all.2⟩

end CanonicalSql.Parse
