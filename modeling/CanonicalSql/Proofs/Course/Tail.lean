import CanonicalSql.Grammar.Tail
import CanonicalSql.Proofs.Course.Basic

/-!
# The course of the tail of a query

What a rule reads lies behind what was read before it. `Phrases.Course` says this of the phrases
that the rules refer back to, at a given token. Most rules take a token before they call any of
them, so that nothing is asked of the phrases but at later tokens (`Phrases.From`); the elements
of `GROUP BY` alone begin with an expression at once.
-/
namespace CanonicalSql

namespace Phrases

/-- What the phrases read from the `i`-th token on lies there in good order. -/
structure Course (tokens : List Token) (i : Nat) (phrases : Phrases) : Prop where
  operand : ∀ least, Parse.Runs tokens i (phrases.operand least)
    fun j expr => Laid tokens i j [.ofExpr expr]
  query : Parse.Runs tokens i phrases.query fun j query => Laid tokens i j [.ofQuery query]
  setOperations : ∀ a left least, Laid tokens a i [.ofRel left] →
    Parse.Runs tokens i (phrases.setOperations left least)
      fun j body => Laid tokens a j [.ofRel body]
  tablePrimary : Parse.Runs tokens i phrases.tablePrimary
    fun j relation => Laid tokens i j [.ofRel relation]
  joins : ∀ a left, Laid tokens a i [.ofRel left] →
    Parse.Runs tokens i (phrases.joins left) fun j joined => Laid tokens a j [.ofRel joined]

/-- So does an element of `GROUP BY`. -/
structure FullCourse (tokens : List Token) (i : Nat) (phrases : Phrases) : Prop
    extends phrases.Course tokens i where
  groupingElement : Parse.Runs tokens i phrases.groupingElement
    fun j expr => Laid tokens i j [.ofExpr expr]

/-- The phrases read in good order from the `i`-th token on. -/
def From (tokens : List Token) (i : Nat) (phrases : Phrases) : Prop :=
  ∀ k, i ≤ k → phrases.FullCourse tokens k

theorem From.later {tokens : List Token} {i k : Nat} {phrases : Phrases}
    (course : phrases.From tokens i) (past : i ≤ k) : phrases.From tokens k :=
  fun m further => course m (Nat.le_trans past further)

theorem From.here {tokens : List Token} {i : Nat} {phrases : Phrases}
    (course : phrases.From tokens i) : phrases.Course tokens i :=
  (course i (Nat.le_refl i)).toCourse

end Phrases

namespace Parse

variable {tokens : List Token} {i a b : Nat} {phrases : Phrases}

/-! ## Lists of expressions -/

theorem expression_runs (course : phrases.Course tokens i) :
    Runs tokens i phrases.expression fun j expr => Laid tokens i j [.ofExpr expr] :=
  (course.operand 0).nested

theorem expressions_runs (course : phrases.From tokens i) :
    Runs tokens i phrases.expressions fun j exprs =>
      i < j ∧ Laid tokens i j (Extent.ofExprs exprs) := by
  refine (Runs.commaSeparated fun k past => expression_runs (course.later past).here).mono ?_
  intro exprs j _ laid
  rw [Extent.ofExprs_eq_map]
  exact laid

theorem optionalClause_runs (course : phrases.From tokens (i + 1)) (word : Keyword) :
    Runs tokens i (phrases.optionalClause word) fun j clause =>
      Laid tokens i j (Extent.ofOption clause) := by
  refine .takeWord ?_ (.pure (.nil (Nat.le_refl i)))
  exact (expression_runs course.here).bind fun expr j _ laid =>
    .pure (laid.mono (Nat.le_succ i) (Nat.le_refl j))

/-! ## The tail of a query -/

theorem sortOrder_runs : Passes tokens i sortOrder :=
  .takeWord (.pure trivial) (.takeWord (.pure trivial) (.pure trivial))

theorem nullOrder_runs : Passes tokens i nullOrder :=
  .takeWord (.takeWord (.pure trivial) (.expectWord (.pure trivial))) (.pure trivial)

theorem sortKey_runs (course : phrases.Course tokens i) :
    Runs tokens i (sortKey phrases) fun j key => Laid tokens i j [Extent.ofSortKey key] := by
  refine .here fun start begins => (expression_runs course).bind fun expr j _ laid => ?_
  refine sortOrder_runs.andThen fun order m past => nullOrder_runs.andThen fun nulls n further => ?_
  have some := laid.lt
  exact .spanFrom begins (by omega) fun span covers =>
    .pure (.node covers (laid.mono (Nat.le_refl i) (by omega)))

theorem orderBy_runs (course : phrases.From tokens (i + 1)) :
    Runs tokens i (orderBy phrases) fun j keys => Laid tokens i j (Extent.ofSortKeys keys) := by
  refine .takeWord (.expectWord ?_) (.pure (.nil (Nat.le_refl i)))
  refine (Runs.commaSeparated fun k past => sortKey_runs (course.later (by omega)).here).mono ?_
  intro keys j _ laid
  rw [Extent.ofSortKeys_eq_map]
  exact laid.2.mono (by omega) (Nat.le_refl j)

theorem takeRows_runs : Passes tokens i takeRows :=
  .takeWord (.pure trivial) ((takeWord_runs _).mono fun _ _ _ _ => trivial)

theorem expectRows_runs : Passes tokens i expectRows :=
  .takeWord (.pure trivial) ((expectWord_runs _).mono fun _ _ _ _ => trivial)

theorem offset_runs (course : phrases.From tokens (i + 1)) :
    Runs tokens i (offset phrases) fun j count => Laid tokens i j (Extent.ofOption count) := by
  refine .takeWord ?_ (.pure (.nil (Nat.le_refl i)))
  refine (expression_runs course.here).bind fun count j _ laid => ?_
  exact takeRows_runs.andThen fun _ m past => .pure (laid.mono (by omega) past)

theorem fetchKind_runs : Passes tokens i fetchKind :=
  .takeWord (.pure trivial) (.takeWord (.pure trivial) (unexpected_runs _))

theorem fetchCount_runs (course : phrases.Course tokens i) :
    Runs tokens i (fetchCount phrases) fun j count => Laid tokens i j (Extent.ofOption count) := by
  refine .look (atWord_looks _) (.ite (fun _ => .pure (.nil (Nat.le_refl i))) fun _ => ?_)
  refine .look (atWord_looks _) (.ite (fun _ => .pure (.nil (Nat.le_refl i))) fun _ => ?_)
  exact (expression_runs course).bind fun _ _ _ laid => .pure laid

theorem withTies_runs : Passes tokens i withTies :=
  .takeWord (.pure trivial) (.takeWord (.expectWord (.pure trivial)) (unexpected_runs _))

theorem fetch_runs (course : phrases.From tokens (i + 1)) :
    Runs tokens i (fetch phrases) fun j fetched => Laid tokens i j (Extent.ofFetch fetched) := by
  refine .here fun start begins => .takeWord ?_ (.pure (.nil (Nat.le_refl i)))
  refine fetchKind_runs.andThen fun kind j past => ?_
  refine (fetchCount_runs (course.later past).here).bind fun count m further laid => ?_
  refine ((takeWord_runs _).mono fun _ _ _ _ => trivial).andThen fun percent n _ => ?_
  refine expectRows_runs.andThen fun _ o _ => withTies_runs.andThen fun ties p _ => ?_
  exact .spanFrom begins (by omega) fun span covers =>
    .pure (.node covers (laid.mono (by omega) (by omega)))

/-- The clauses of a tail lie behind what was read of the query before. -/
theorem queryTail_runs (course : phrases.From tokens (i + 1)) {withClause : Option WithClause}
    {body : Rel} {start : Span} (begins : Covers tokens a b start) (past : b ≤ i)
    (laid : Laid tokens a i (Extent.ofWith withClause ++ [Extent.ofRel body])) :
    Runs tokens i (queryTail phrases withClause body start)
      fun j query => Laid tokens a j [.ofQuery query] := by
  refine (orderBy_runs course).bind fun keys j _ laidKeys => ?_
  refine (offset_runs (course.later (by omega))).bind fun skipped m _ laidOffset => ?_
  refine (fetch_runs (course.later (by omega))).bind fun fetched n _ laidFetch => ?_
  exact .spanFrom begins (by omega) fun span covers =>
    .pure (.node covers (((laid.append laidKeys).append laidOffset).append laidFetch))

/-- A query as an operand lies where the query does. -/
theorem operand_laid {query : Query} (laid : Laid tokens a i [.ofQuery query]) :
    Laid tokens a i [.ofRel query.operand] := by
  unfold Query.operand
  split
  · cases query
    exact laid.of_mem_parts (by simp [Extent.ofQuery, Extent.parts])
  · exact laid

theorem reopened_runs (course : phrases.From tokens i) {query : Query} {start : Span}
    (begins : Covers tokens a b start) (past : b ≤ i) (laid : Laid tokens a i [.ofQuery query]) :
    Runs tokens i (reopened phrases query start) fun j longer => Laid tokens a j [.ofQuery longer] := by
  refine (course.here.setOperations a _ 0 (operand_laid laid)).bind fun body j further laidBody => ?_
  exact queryTail_runs (course.later (by omega)) begins (by omega) laidBody

end Parse

end CanonicalSql
