import CanonicalSql.Grammar.Precedence
import CanonicalSql.Grammar.Tail
import CanonicalSql.Proofs.Image.Basic

/-!
# Tails of queries that are read

The rules for sort keys and for the tail of a query give well-formed trees if the phrases
that they refer back to do. `Phrases.Forms` says what is asked of these phrases. Some of
its fields look at the current token: a query that begins with a keyword is not merely
another query in parentheses, and neither is one that goes on after a first operand
(`longer_yieldsAt`). On them rests that no subquery consists of parentheses alone.
-/
namespace CanonicalSql

/-- The phrases give well-formed trees. -/
structure Phrases.Forms (limit : Nat) (phrases : Phrases) : Prop where
  operand : ∀ least, Parse.Yields limit (phrases.operand least) (Expr.Formed .value)
  query : Parse.Yields limit phrases.query Query.Formed
  /-- A query that begins with a keyword has a body or a clause of its own. -/
  startedQuery :
    Parse.YieldsAt limit (Parse.isQueryStart · = true) phrases.query (¬ Query.Wraps ·)
  setOperations : ∀ left least, left.Formed .operand →
    Parse.Yields limit (phrases.setOperations left least) (Rel.Formed .operand)
  /-- Where a set operator follows, it is applied. -/
  setOperationsApplied : ∀ left,
    Parse.YieldsAt limit (fun kind => (SetOperator.ofKind? kind).isSome)
      (phrases.setOperations left 0) fun body => ∀ query, body ≠ .query query
  /-- Where no set operator follows, nothing is read. -/
  setOperationsIdle : ∀ left s body s', SetOperator.ofKind? s.current.kind = none →
    phrases.setOperations left 0 s = .ok body s' → s' = s
  tablePrimary : Parse.Yields limit phrases.tablePrimary (Rel.Formed .source)
  joins : ∀ left, left.Formed .source →
    Parse.Yields limit (phrases.joins left) (Rel.Formed .source)
  groupingElement : Parse.Yields limit phrases.groupingElement (Expr.Formed .grouping)

namespace Parse

variable {limit : Nat} {phrases : Phrases}

/-! ## Lists of expressions -/

theorem expression_yields (forms : phrases.Forms limit) :
    Yields limit phrases.expression (Expr.Formed .value) :=
  (forms.operand 0).nested

theorem expressions_yields (forms : phrases.Forms limit) :
    Yields limit phrases.expressions fun exprs => exprs ≠ [] ∧ Expr.AllFormed .value exprs := by
  refine (expression_yields forms).commaSeparated.mono ?_
  rintro exprs ⟨nonempty, all⟩
  exact ⟨nonempty, Expr.allFormed_iff.mpr all⟩

theorem optionalClause_yields (forms : phrases.Forms limit) (word : Keyword) :
    Yields limit (phrases.optionalClause word) Expr.OptionFormed := by
  refine (takeWord_yields _).bind fun _ _ => .ite (fun _ => ?_) fun _ => .pure trivial
  exact (expression_yields forms).bind fun _ formed => .pure formed

/-! ## The tail of a query -/

theorem sortOrder_yields : Yields limit sortOrder fun _ => True := by
  refine (takeWord_yields _).bind fun _ _ => .ite (fun _ => .pure trivial) fun _ => ?_
  exact (takeWord_yields _).bind fun _ _ => .pure trivial

theorem nullOrder_yields : Yields limit nullOrder fun _ => True := by
  refine (takeWord_yields _).bind fun _ _ => .ite (fun _ => ?_) fun _ => .pure trivial
  refine (takeWord_yields _).bind fun _ _ => .ite (fun _ => .pure trivial) fun _ => ?_
  exact (expectWord_yields _).bind fun _ _ => .pure trivial

theorem sortKey_yields (forms : phrases.Forms limit) : Yields limit (sortKey phrases) SortKey.Formed := by
  refine here_yields.bind fun _ _ => (expression_yields forms).bind fun expr formed => ?_
  refine sortOrder_yields.bind fun _ _ => nullOrder_yields.bind fun _ _ => ?_
  exact (spanFrom_yields _).bind fun _ _ => .pure formed

/-- After `ORDER BY` there is a key at least. -/
theorem sortKeys_yields (forms : phrases.Forms limit) :
    Yields limit (do expectWord .BY; commaSeparated (sortKey phrases))
      fun keys => keys ≠ [] ∧ SortKey.AllFormed keys := by
  refine (expectWord_yields _).bind fun _ _ =>
    (sortKey_yields forms).commaSeparated.mono ?_
  rintro keys ⟨nonempty, all⟩
  exact ⟨nonempty, SortKey.allFormed_iff.mpr all⟩

theorem orderBy_yields (forms : phrases.Forms limit) :
    Yields limit (orderBy phrases) SortKey.AllFormed := by
  refine (takeWord_yields _).bind fun _ _ => .ite (fun _ => ?_) fun _ => .pure trivial
  exact (sortKeys_yields forms).mono fun _ keys => keys.2

theorem takeRows_yields : Yields limit takeRows fun _ => True :=
  (takeWord_yields _).bind fun _ _ =>
    .ite (fun _ => .pure trivial) fun _ => takeWord_yields _

theorem expectRows_yields : Yields limit expectRows fun _ => True :=
  (takeWord_yields _).bind fun _ _ =>
    .ite (fun _ => .pure trivial) fun _ => expectWord_yields _

theorem offset_yields (forms : phrases.Forms limit) : Yields limit (offset phrases) Expr.OptionFormed := by
  refine (takeWord_yields _).bind fun _ _ => .ite (fun _ => ?_) fun _ => .pure trivial
  refine (expression_yields forms).bind fun _ formed => ?_
  exact takeRows_yields.bind fun _ _ => .pure formed

theorem fetchKind_yields : Yields limit fetchKind fun _ => True := by
  refine (takeWord_yields _).bind fun _ _ => .ite (fun _ => .pure trivial) fun _ => ?_
  refine (takeWord_yields _).bind fun _ _ => .ite (fun _ => .pure trivial) fun _ => ?_
  exact unexpected_yields _ _

theorem withTies_yields : Yields limit withTies fun _ => True := by
  refine (takeWord_yields _).bind fun _ _ => .ite (fun _ => .pure trivial) fun _ => ?_
  refine (takeWord_yields _).bind fun _ _ => .ite (fun _ => ?_) fun _ => unexpected_yields _ _
  exact (expectWord_yields _).bind fun _ _ => .pure trivial

/-- Before `ROW` and `ROWS` there is no count. -/
theorem fetchCount_idle :
    Idle (fun kind => kind = .keyword .ROW ∨ kind = .keyword .ROWS) (fetchCount phrases)
      none := by
  have atRow : Idle (· = .keyword .ROW) (fetchCount phrases) none := by
    refine (atWord_idle .ROW).andThen ?_
    exact Idle.pure
  have atRows : Idle (· = .keyword .ROWS) (fetchCount phrases) none := by
    refine ((atWord_idle_of_ne .ROW).mono ?_).andThen ((atWord_idle .ROWS).andThen ?_)
    · rintro kind rfl
      exact nofun
    · exact Idle.pure
  intro s here
  rcases here with row | rows
  · exact atRow s row
  · exact atRows s rows

/-- Elsewhere there is one. -/
theorem fetchCount_yieldsAt (forms : phrases.Forms limit) :
    YieldsAt limit (fun kind => ¬ (kind = .keyword .ROW ∨ kind = .keyword .ROWS))
      (fetchCount phrases) fun count => Expr.OptionFormed count ∧ count.isSome := by
  have counted : Yields limit (do return some (← phrases.expression))
      fun count => Expr.OptionFormed count ∧ count.isSome :=
    (expression_yields forms).bind fun _ formed => .pure ⟨formed, rfl⟩
  refine (atWord_looks _).bindAt fun kind other => ?_
  rw [decide_eq_false (fun row => other (.inl row))]
  refine (atWord_looks _).bindAt fun kind' same => ?_
  rw [same, decide_eq_false (fun rows => other (.inr rows))]
  exact counted.at _

theorem fetch_yields (forms : phrases.Forms limit) : Yields limit (fetch phrases) Fetch.OptionFormed := by
  refine here_yields.bind fun start _ => (takeWord_yields _).bind fun _ _ => ?_
  refine .ite (fun _ => ?_) fun _ => .pure trivial
  refine fetchKind_yields.bind fun kind _ => ?_
  -- whether a percentage may follow is decided by the token before the count
  refine .byToken (fun kind => kind = .keyword .ROW ∨ kind = .keyword .ROWS) ?_ ?_
  · refine fetchCount_idle.bind (((takeWord_idle .PERCENT).mono ?_).bind (Yields.at ?_ _))
    · rintro kind (rfl | rfl)
      · exact nofun
      · exact nofun
    · refine expectRows_yields.bind fun _ _ => withTies_yields.bind fun _ _ => ?_
      exact (spanFrom_yields _).bind fun _ _ => .pure ⟨trivial, nofun⟩
  · refine (fetchCount_yieldsAt forms).bind fun count formed => ?_
    refine (takeWord_yields _).bind fun percent _ => expectRows_yields.bind fun _ _ => ?_
    refine withTies_yields.bind fun _ _ => (spanFrom_yields _).bind fun _ _ => ?_
    exact .pure ⟨formed.1, fun _ => formed.2⟩

/-- A well-formed query may stand as an operand, for a bare one is no more than its
body. -/
theorem operand_formed {query : Query} (formed : query.Formed) :
    query.operand.Formed .operand := by
  unfold Query.operand
  split
  · exact (Query.formed_iff.mp formed).2.1
  · next clauses =>
    simp only [Rel.Formed]
    exact ⟨formed, by simpa using clauses⟩

theorem queryTail_yields (forms : phrases.Forms limit) {withClause : Option WithClause} {body : Rel}
    (start : Span) (formedWith : WithClause.OptionFormed withClause)
    (formedBody : body.Formed .operand) :
    Yields limit (queryTail phrases withClause body start) Query.Formed := by
  refine (orderBy_yields forms).bind fun keys formedKeys => ?_
  refine (offset_yields forms).bind fun skipped formedOffset => ?_
  refine (fetch_yields forms).bind fun fetched formedFetch => ?_
  exact (spanFrom_yields _).bind fun _ _ =>
    .pure ⟨formedWith, formedBody, formedKeys, formedOffset, formedFetch⟩

/-- The body and the `WITH` clause of a query are those that its tail is read for. -/
theorem queryTail_keeps (forms : phrases.Forms limit) (withClause : Option WithClause) (body : Rel)
    (start : Span) :
    Yields limit (queryTail phrases withClause body start)
      fun query => query.withClause = withClause ∧ query.body = body := by
  refine (orderBy_yields forms).bind fun keys _ => (offset_yields forms).bind fun skipped _ => ?_
  refine (fetch_yields forms).bind fun fetched _ => ?_
  exact (spanFrom_yields _).bind fun _ _ => .pure ⟨rfl, rfl⟩

theorem orderBy_idle : Idle (· ≠ .keyword .ORDER) (orderBy phrases) [] :=
  (takeWord_idle .ORDER).andThen Idle.pure

theorem offset_idle : Idle (· ≠ .keyword .OFFSET) (offset phrases) none :=
  (takeWord_idle .OFFSET).andThen Idle.pure

/-! ### Tails that are there

Where a clause of the tail begins, the query is not bare; where a set operator stands, its
body is a set operation. In both cases it is more than a query in parentheses. -/

theorem orderBy_yieldsAt (forms : phrases.Forms limit) :
    YieldsAt limit (· = .keyword .ORDER) (orderBy phrases) (· ≠ []) := by
  refine (takeWord_yieldsAt .ORDER).bind fun taken yes => ?_
  rw [yes]
  exact (sortKeys_yields forms).mono fun _ keys => keys.1

theorem offset_yieldsAt (forms : phrases.Forms limit) :
    YieldsAt limit (· = .keyword .OFFSET) (offset phrases) (· ≠ none) := by
  refine (takeWord_yieldsAt .OFFSET).bind fun taken yes => ?_
  rw [yes]
  refine (expression_yields forms).bind fun count _ => ?_
  exact takeRows_yields.bind fun _ _ => .pure nofun

theorem fetch_yieldsAt (forms : phrases.Forms limit) :
    YieldsAt limit (· = .keyword .FETCH) (fetch phrases) (· ≠ none) := by
  refine here_still.bindAt fun start => (takeWord_yieldsAt .FETCH).bind fun taken yes => ?_
  rw [yes]
  refine fetchKind_yields.bind fun kind _ => ?_
  have counted : Yields limit (fetchCount phrases) fun _ => True :=
    .byToken (fun kind => kind = .keyword .ROW ∨ kind = .keyword .ROWS)
      (fun s sound here a s' run => by
        rw [fetchCount_idle s here] at run
        cases run
        exact ⟨sound, trivial⟩)
      ((fetchCount_yieldsAt forms).mono fun _ _ => trivial)
  refine counted.bind fun count _ => (takeWord_yields _).bind fun percent _ => ?_
  refine expectRows_yields.bind fun _ _ => withTies_yields.bind fun _ _ => ?_
  exact (spanFrom_yields _).bind fun _ _ => .pure nofun

/-- What goes on with a query and is no set operator is a clause of its tail. -/
theorem tail_of_next {kind : Kind} (next : isQueryNext kind = true)
    (other : SetOperator.ofKind? kind = none) :
    kind = .keyword .ORDER ∨ kind = .keyword .OFFSET ∨ kind = .keyword .FETCH := by
  unfold isQueryNext at next
  split at next <;> simp_all [SetOperator.ofKind?]

/-- Where a clause of the tail begins, the query is not bare. -/
theorem queryTail_yieldsAt (forms : phrases.Forms limit) (withClause : Option WithClause)
    (body : Rel) (start : Span) :
    YieldsAt limit (fun kind => kind = .keyword .ORDER ∨ kind = .keyword .OFFSET ∨
        kind = .keyword .FETCH)
      (queryTail phrases withClause body start) fun query => query.isBare = false := by
  have rest (keys : List SortKey) (skipped : Option Expr) (fetched : Option Fetch)
      (present : keys ≠ [] ∨ skipped ≠ none ∨ fetched ≠ none) :
      Yields limit (do return Query.mk withClause body keys skipped fetched (← spanFrom start))
        fun query => query.isBare = false := by
    refine (spanFrom_yields _).bind fun span _ => .pure ?_
    cases keys <;> cases skipped <;> cases fetched <;> simp_all [Query.isBare]
  have skippedAny : Yields limit (offset phrases) fun _ => True :=
    (offset_yields forms).mono fun _ _ => trivial
  have fetchedAny : Yields limit (fetch phrases) fun _ => True :=
    (fetch_yields forms).mono fun _ _ => trivial
  intro s sound here
  -- the clause that begins here is present; those in front of it take nothing
  rcases here with order | offset | fetch
  · have atOrder : YieldsAt limit (· = .keyword .ORDER)
        (queryTail phrases withClause body start) fun query => query.isBare = false := by
      refine (orderBy_yieldsAt forms).bind fun keys some => ?_
      refine skippedAny.bind fun skipped _ => fetchedAny.bind fun fetched _ => ?_
      exact rest keys skipped fetched (.inl some)
    exact atOrder s sound order
  · have atOffset : YieldsAt limit (· = .keyword .OFFSET)
        (queryTail phrases withClause body start) fun query => query.isBare = false := by
      refine Idle.bind (orderBy_idle.mono ?_) ((offset_yieldsAt forms).bind fun skipped some => ?_)
      · rintro kind rfl
        exact nofun
      · exact fetchedAny.bind fun fetched _ => rest [] skipped fetched (.inr (.inl some))
    exact atOffset s sound offset
  · have atFetch : YieldsAt limit (· = .keyword .FETCH)
        (queryTail phrases withClause body start) fun query => query.isBare = false := by
      refine Idle.bind (orderBy_idle.mono ?_) (Idle.bind (offset_idle.mono ?_) ?_)
      · rintro kind rfl
        exact nofun
      · rintro kind rfl
        exact nofun
      · exact (fetch_yieldsAt forms).bind fun fetched some =>
          rest [] none fetched (.inr (.inr some))
    exact atFetch s sound fetch

/-- An operand that a set operator or a clause follows becomes more than a query in
parentheses. -/
theorem longer_yieldsAt (forms : phrases.Forms limit) {left : Rel} (formed : left.Formed .operand)
    (start : Span) :
    YieldsAt limit (isQueryNext · = true)
      (do let body ← phrases.setOperations left 0; queryTail phrases none body start)
      fun longer => longer.Formed ∧ ¬ longer.Wraps := by
  refine YieldsAt.and (Yields.at ?_ _) ?_
  · exact (forms.setOperations left 0 formed).bind fun body formedBody =>
      queryTail_yields forms start trivial formedBody
  · intro s sound next longer s' run
    obtain ⟨body, middle, ran, run⟩ := ok_of_bind run
    obtain ⟨soundMiddle, -⟩ := forms.setOperations left 0 formed s sound body middle ran
    obtain ⟨soundEnd, -, sameBody⟩ :=
      queryTail_keeps forms none body start middle soundMiddle longer s' run
    refine ⟨soundEnd, ?_⟩
    rintro ⟨bare, inner, isQuery⟩
    cases applied : SetOperator.ofKind? s.current.kind with
    | some op =>
      have notQuery := forms.setOperationsApplied left s sound (by simp [applied]) body
        middle ran
      exact notQuery.2 inner (sameBody.symm.trans isQuery)
    | none =>
      -- nothing has been read since the clause was in sight
      rw [forms.setOperationsIdle left s body middle applied ran] at run
      have tail := queryTail_yieldsAt forms none body start s sound
        (tail_of_next next applied) longer s' run
      exact absurd bare (by simp [tail.2])

/-- A query that is taken up again after its closing parenthesis becomes more than a query
in parentheses. -/
theorem reopened_yieldsAt (forms : phrases.Forms limit) {query : Query} (formed : query.Formed)
    (start : Span) :
    YieldsAt limit (isQueryNext · = true) (reopened phrases query start)
      fun longer => longer.Formed ∧ ¬ longer.Wraps :=
  longer_yieldsAt forms (operand_formed formed) start

end Parse

end CanonicalSql
