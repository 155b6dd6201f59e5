import CanonicalSql.Proofs.Failing.Predicate
import CanonicalSql.Proofs.Failing.Source
import CanonicalSql.Proofs.Subqueries

/-!
# Failing queries in parentheses

A query may stand in parentheses in an expression, behind `IN` and in the place of a table. What
fails in a query that begins with a word fails there as it does in the query. A query that begins
with a parenthesis is not read as a query there: its first operand is read on its own, and the
query is taken up again behind it (`FailsFurther.enclosed`).
-/
namespace CanonicalSql

open Parse

variable {tokens : List Token} {failure : Failure} {row mid rest : List Kind}
  {limit depth more : Nat}

/-! ## What begins a query -/

namespace Parse

/-- Queries begin with a word or a parenthesis, and there is no name behind the parenthesis. -/
def OpensQuery (row : List Kind) : Prop :=
  isQueryStart (lead row) = true ∨
    lead row = .symbol .leftParen ∧ (lead (row.drop 1)).name? = none

theorem name?_of_isQueryStart {kind : Kind} (starts : isQueryStart kind = true) :
    kind.name? = none := by
  unfold isQueryStart at starts
  split at starts <;> first | rfl | cases starts

theorem OpensQuery.name? (opens : OpensQuery row) : (lead row).name? = none := by
  rcases opens with starts | ⟨isParen, -⟩
  · exact name?_of_isQueryStart starts
  · rw [isParen]
    rfl

theorem OpensQuery.nonempty (opens : OpensQuery row) : row ≠ [] := by
  rintro rfl
  rcases opens with starts | ⟨isParen, -⟩
  · cases starts
  · cases isParen

/-- What is read as a query begins like one. -/
theorem Gives.query_opens {levels : Nat} {query : Query} {left : List Kind}
    (gives : Gives (Phrases.within levels).query row query left) : OpensQuery row := by
  rcases gives.query_cases with starts | ⟨mid, begins⟩
  · exact .inl starts
  obtain ⟨operand, -⟩ := begins
  refine .inr ⟨rfl, ?_⟩
  rcases operand.query_cases with starts | ⟨mid, begins⟩
  · exact name?_of_isQueryStart starts
  · obtain ⟨-, -⟩ := begins
    rfl

end Parse

theorem Parse.isNegatable_of_isQueryNext {kind : Kind} (next : isQueryNext kind = true) :
    isNegatable kind = false := by
  unfold isQueryNext at next
  split at next <;> first | rfl | cases next

theorem Parse.isJoint_of_isQueryNext {kind : Kind} (next : isQueryNext kind = true) :
    isJoint kind = false := by
  unfold isQueryNext at next
  split at next <;> first | rfl | cases next

/-! ## Queries in parentheses -/

/-- Behind an opening parenthesis the row fails in each place where a query in parentheses may
stand. -/
structure FailsEnclosed (tokens : List Token) (failure : Failure) (row : List Kind) : Prop where
  primary : FailsPrimary tokens failure (.symbol .leftParen :: row)
  rows : FailsPredicate tokens failure (.keyword .IN :: .symbol .leftParen :: row)
  table : FailsTable tokens failure (.symbol .leftParen :: row)

/-- Where a query is expected, the step fails within the row. -/
structure FailsQuery (tokens : List Token) (failure : Failure) (row : List Kind) : Prop where
  opens : OpensQuery row
  enclosed : lead row = .symbol .leftParen → FailsEnclosed tokens failure row
  fails : ∀ {limit depth more : Nat}, 8 * row.length + 15 ≤ more →
    depth + 2 * row.length + 1 ≤ capOf limit →
    Fails tokens failure limit depth (query (Phrases.within more)) row

namespace FailsQuery

theorem query (given : FailsQuery tokens failure row) (enough : 8 * row.length + 16 ≤ more)
    (room : depth + 2 * row.length + 1 ≤ capOf limit) :
    Fails tokens failure limit depth (Phrases.within more).query row := by
  obtain ⟨more, rfl⟩ : ∃ fewer, more = fewer + 1 := ⟨more - 1, by omega⟩
  exact given.fails (by omega) room

/-- A query that begins with a word is read as a query in all these places. -/
theorem enclosed_of_word (given : FailsQuery tokens failure row)
    (starts : isQueryStart (lead row) = true) : FailsEnclosed tokens failure row where
  primary.opens := rfl
  primary.noPrefix := rfl
  primary.fails {limit depth more} enough room := by
    rw [List.length_cons] at enough room
    refine .still here_still fun _ => .look kind_looks ?_
    refine .still here_still fun _ => .expectSign (.look startsQuery_looks ?_)
    rw [if_pos starts]
    exact (given.query (by omega) (by omega)).bind
  rows.opens := ⟨by simp, rfl⟩
  rows.fails {limit depth more} found start enough room := by
    simp only [List.length_cons] at enough room
    refine .look word?_looks (.advance (by simp) (.still here_still fun _ => .expectSign (.bind ?_)))
    refine .look startsQuery_looks ?_
    rw [if_pos starts]
    exact (given.query (by omega) (by omega)).bind
  table.noQuery := rfl
  table.nonempty := by simp
  table.fails {limit depth more} enough room := by
    rw [List.length_cons] at enough room
    refine .still here_still fun start => Fails.bind (.look (atSign_looks _) ?_)
    refine .nested (by omega) (.still here_still fun _ => .expectSign (Fails.bind ?_))
    refine .look startsQuery_looks ?_
    rw [if_pos starts]
    exact (given.query (by omega) (by omega)).bind

/-- A query in parentheses, whatever it begins with. -/
theorem inPlaces (given : FailsQuery tokens failure row) : FailsEnclosed tokens failure row := by
  rcases given.opens with starts | ⟨isParen, -⟩
  · exact given.enclosed_of_word starts
  · exact given.enclosed isParen

/-- The query of a test. -/
theorem test (given : FailsQuery tokens failure row) {word : Keyword}
    (isTest : word = .EXISTS ∨ word = .UNIQUE) :
    FailsPrimary tokens failure (.keyword word :: .symbol .leftParen :: row) where
  opens := by rcases isTest with rfl | rfl <;> rfl
  noPrefix := by rcases isTest with rfl | rfl <;> rfl
  fails {limit depth more} enough room := by
    simp only [List.length_cons] at enough room
    have query : Fails tokens failure limit depth (parenthesized (Phrases.within more).query)
        (.symbol .leftParen :: row) := .expectSign (given.query (by omega) (by omega)).bind
    refine .still here_still fun _ => .look kind_looks ?_
    rcases isTest with rfl | rfl <;>
      exact .still here_still fun _ => .advance (by simp) query.bind

end FailsQuery

/-- In more parentheses it is an expression in parentheses, the first value of a list, or a table in
parentheses. -/
theorem FailsEnclosed.enclosed (given : FailsEnclosed tokens failure row) :
    FailsEnclosed tokens failure (.symbol .leftParen :: row) where
  primary := given.primary.operand.enclosed
  rows := by
    have before : ∀ other ∈ ([] : List (List Kind)), ∃ e, Takes wholeExpression other e := nofun
    exact given.primary.operand.listed before
  table := given.table.source.enclosed

/-! ## Queries that are taken up again -/

/-- Behind its first operand, a query goes on with the row and fails within it. The levels of
recursion must be enough for the tokens of the operand too. -/
structure FailsFurther (tokens : List Token) (failure : Failure) (levels : Nat) (first : Rel)
    (row : List Kind) : Prop where
  next : isQueryNext (lead row) = true
  fails : ∀ {limit depth more fewer : Nat} {found : Rel} (withClause : Option WithClause)
    (start : Span), found.erase = first.erase → levels ≤ more → levels ≤ fewer →
    depth + 2 * row.length ≤ capOf limit →
    Fails tokens failure limit depth (do
      let body ← setOperations (Phrases.within fewer) found 0
      queryTail (Phrases.within more) withClause body start) row

namespace FailsFurther

variable {first : Query} {inner : List Kind} {levels fewer : Nat}

theorem reopened (given : FailsFurther tokens failure levels first.operand row) {found : Query}
    (same : found.operand.erase = first.operand.erase) (enough : levels + 1 ≤ more)
    (room : depth + 2 * row.length ≤ capOf limit) (start : Span) :
    Fails tokens failure limit depth (reopened (Phrases.within more) found start) row := by
  obtain ⟨more, rfl⟩ : ∃ fewer, more = fewer + 1 := ⟨more - 1, by omega⟩
  exact given.fails none start same (by omega) (by omega) room

section

variable
  (given : FailsFurther tokens failure levels first.operand (mid ++ rest))
  (operand : Gives (Phrases.within fewer).query inner first (.symbol .rightParen :: mid))
  (few : fewer ≤ 8 * inner.length + 24) (next : isQueryNext (lead rest) = true)
include given operand few next

/-- The operand in parentheses is an expression of its own, and the query goes on behind it. -/
theorem reads_operand (enough : 8 * inner.length + 25 ≤ more)
    (room : depth + 2 * (inner.length + 1) + 1 ≤ capOf limit) :
    Reads limit True (Phrases.within more).expression depth (.symbol .leftParen :: (inner ++ rest))
      (IsSubquery fun found => found.operand.erase = first.operand.erase) depth (mid ++ rest) :=
  ReadsSubquery.expression (inParentheses_operand fewer) operand (isNegatable_of_isQueryNext next)
    (isJoint_of_isQueryNext next) (by omega) room (Kind.isQuiet_of_isQueryNext given.next)

variable (low : levels ≤ 8 * (inner ++ rest).length + 23)
include low

theorem primary : FailsPrimary tokens failure
    (.symbol .leftParen :: .symbol .leftParen :: (inner ++ rest)) where
  opens := rfl
  noPrefix := rfl
  fails {limit depth more} enough room := by
    have shorter := operand.operand_length
    rw [List.length_append] at low
    simp only [List.length_cons, List.length_append] at enough room
    refine .still here_still fun _ => .look kind_looks ?_
    refine .still here_still fun start => .expectSign (.look startsQuery_looks ?_)
    refine .after (given.reads_operand operand few next (by omega) (by omega)) (fun i placed => ?_)
      fun found isSubquery => ?_
    · have course : (Phrases.within more).From tokens i := Phrases.within_from
        (by simp only [List.length_cons, List.length_append]; omega) placed.ge
      exact (expression_runs course.here).passes
    obtain ⟨query, span, rfl, same⟩ := isSubquery
    refine .look continuesQuery_looks ?_
    rw [given.next, if_pos rfl]
    exact (given.reopened same (by omega) (by rw [List.length_append]; omega) start).bind

theorem rows : FailsPredicate tokens failure
    (.keyword .IN :: .symbol .leftParen :: .symbol .leftParen :: (inner ++ rest)) where
  opens := ⟨by simp, rfl⟩
  fails {limit depth more} found start enough room := by
    have shorter := operand.operand_length
    rw [List.length_append] at low
    simp only [List.length_cons, List.length_append] at enough room
    refine .look word?_looks (.advance (by simp) (.still here_still fun _ => .expectSign (.bind ?_)))
    refine .look startsQuery_looks (.still here_still fun start => ?_)
    have one : Reads limit True (Phrases.within more).expression depth
        (.symbol .leftParen :: (inner ++ rest))
        (IsSubquery fun found => found.operand.erase = first.operand.erase) depth (mid ++ rest) :=
      given.reads_operand operand few next (by omega) (by omega)
    refine .after (one.single (Kind.ne_of_isQueryNext given.next rfl)) (fun i placed => ?_)
      fun values isOne => ?_
    · have course : (Phrases.within more).From tokens i := Phrases.within_from
        (by simp only [List.length_cons, List.length_append]; omega) placed.ge
      exact (expressions_runs course).passes
    obtain ⟨_, rfl, query, span, rfl, same⟩ := isOne
    refine .look continuesQuery_looks ?_
    rw [given.next, if_pos rfl]
    exact (given.reopened same (by omega) (by rw [List.length_append]; omega) start).bind

theorem table : FailsTable tokens failure
    (.symbol .leftParen :: .symbol .leftParen :: (inner ++ rest)) where
  noQuery := rfl
  nonempty := by simp
  fails {limit depth more} enough room := by
    have shorter := operand.operand_length
    rw [List.length_append] at low
    simp only [List.length_cons, List.length_append] at enough room
    refine .still here_still fun start => Fails.bind (.look (atSign_looks _) ?_)
    refine .nested (by omega) (.still here_still fun start => .expectSign (Fails.bind ?_))
    refine .look startsQuery_looks (.look (atSign_looks _) ?_)
    have reads : Reads limit True (Phrases.within more).tablePrimary (depth + 1)
        (.symbol .leftParen :: (inner ++ rest))
        (IsQuery fun found => found.operand.erase = first.operand.erase) (depth + 1) (mid ++ rest) :=
      ReadsTableQuery.tablePrimary (enclosedTable_operand fewer) operand
        (isNegatable_of_isQueryNext next) (isJoint_of_isQueryNext next) (by omega) (by omega)
        (.of_isQueryNext given.next)
    refine .after reads (fun i placed => ?_) fun found isQuery => ?_
    · have course : (Phrases.within more).From tokens i := Phrases.within_from
        (by simp only [List.length_cons, List.length_append]; omega) placed.ge
      exact course.here.tablePrimary.passes
    obtain ⟨query, rfl, same⟩ := isQuery
    refine .look continuesQuery_looks ?_
    rw [given.next, if_pos rfl, longerTableQuery_eq]
    exact (given.reopened same (by omega) (by rw [List.length_append]; omega) start).bind

/-- The operand in parentheses is read as a subquery or a table, and what is behind it fails when
the query is taken up again. -/
theorem enclosed : FailsEnclosed tokens failure (.symbol .leftParen :: (inner ++ rest)) :=
  ⟨given.primary operand few next low, given.rows operand few next low,
    given.table operand few next low⟩

end

end FailsFurther

end CanonicalSql
