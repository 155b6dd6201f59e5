import CanonicalSql.Proofs.Elsewhere.Basic

/-!
# Recursive rules and tails of queries elsewhere

What is asked of the recursive rules below a level (`Phrases.Repeats`), and the rules of the tail
of a query.
-/
namespace CanonicalSql

/-- What follows goes on with no operand that is read with the power, nor with the pattern at its
end. -/
structure Closes (least : Nat) (kinds : List Kind) : Prop extends Ends least kinds where
  escape : lead kinds ≠ .keyword .ESCAPE

/-- What follows goes on with no set operation that is read with the power. -/
structure ClosesBody (least : Nat) (kinds : List Kind) : Prop where
  past : Past 6 kinds
  power : ∀ op power, SetOperator.ofKind? (lead kinds) = some (op, power) → power.left < least

/-- What follows goes on with no joined tables. -/
structure ClosesJoins (kinds : List Kind) : Prop extends EndsSource kinds where
  noJoin : Parse.isJoinStart (lead kinds) = false
  condition : Closes 0 kinds

theorem Closes.weaken {least more : Nat} {kinds : List Kind} (closes : Closes least kinds)
    (less : least ≤ more) : Closes more kinds where
  toEnds := ⟨closes.toStops, fun power isAhead => Nat.lt_of_lt_of_le (closes.power power isAhead) less⟩
  escape := closes.escape

namespace Past

variable {rank : Nat} {kinds : List Kind}

theorem closes (past : Past (rank + 1) kinds) (least : Nat) : Closes least kinds where
  toEnds := .of_quiet past.quiet
  escape := past.ne (Nat.succ_pos rank)

/-- No query begins. -/
theorem noQuery (past : Past (rank + 1) kinds) : Parse.isQueryStart (lead kinds) = false := by
  unfold Past at past
  generalize lead kinds = kind at past
  unfold Parse.isQueryStart
  split <;> first | rfl | exact absurd past (Nat.not_succ_le_zero rank)

theorem noNext (past : Past 10 kinds) : Parse.isQueryNext (lead kinds) = false := by
  unfold Past at past
  generalize lead kinds = kind at past
  unfold Parse.isQueryNext
  split <;> first | rfl | exact absurd past (by decide)

theorem closesJoins (past : Past (rank + 1) kinds) : ClosesJoins kinds where
  toEndsSource := .of_past past
  noJoin := past.noJoin
  condition := past.closes 0

theorem closesBody (past : Past 7 kinds) (least : Nat) : ClosesBody least kinds where
  past := past.mono (by omega)
  power op power isOperator := by
    rw [past.noOperator] at isOperator
    cases isOperator

end Past

open Parse in
/-- What each recursive rule reads to the end of a row it reads elsewhere. An operand may end in
that of `NOT`, which has the power 5 only, whatever the power with which the whole is read. -/
structure Phrases.Repeats (phrases phrases' : Phrases) (rest : List Kind) : Prop where
  operand : ∀ least row, Parse.Repeats rest (Closes (min least 5) rest)
    (2 * row.length) (Keyed Expr.erase) (phrases.operand least) (phrases'.operand least) row
  query : ∀ row, Parse.Repeats rest (Past 10 rest) (2 * row.length + 1)
    (Keyed Query.erase) phrases.query phrases'.query row
  setOperations : ∀ left left' least row, Keyed Rel.erase left left' →
    Parse.Repeats rest (ClosesBody least rest) (2 * row.length)
      (Keyed Rel.erase) (phrases.setOperations left least) (phrases'.setOperations left' least) row
  tablePrimary : ∀ row, Parse.Repeats rest (EndsSource rest) (2 * row.length)
    (Keyed Rel.erase) phrases.tablePrimary phrases'.tablePrimary row
  joins : ∀ left left' row, Keyed Rel.erase left left' →
    Parse.Repeats rest (ClosesJoins rest) (2 * row.length)
      (Keyed Rel.erase) (phrases.joins left) (phrases'.joins left') row
  groupingElement : ∀ row, Parse.Repeats rest (Closes 0 rest) (2 * row.length + 1)
    (Keyed Expr.erase) phrases.groupingElement phrases'.groupingElement row

/-- The recursive rules refuse the end of the input, as far as they must begin with a token. -/
structure Phrases.Shuns (phrases : Phrases) : Prop where
  operand : ∀ least, Parse.Refuses (phrases.operand least)
  query : Parse.Refuses phrases.query
  tablePrimary : Parse.Refuses phrases.tablePrimary
  groupingElement : Parse.Refuses phrases.groupingElement

theorem Phrases.Shuns.expression {phrases : Phrases} (shuns : phrases.Shuns) :
    Parse.Refuses phrases.expression :=
  .nested (shuns.operand 0)

namespace Parse

variable {phrases phrases' : Phrases} {rest row : List Kind} {ends : Prop} {need : Nat}

theorem keyed_map {α γ : Type} {key : α → γ} {as bs : List α}
    (agree : List.Forall₂ (Keyed key) as bs) : bs.map key = as.map key := by
  induction agree with
  | nil => rfl
  | cons same _ ih => rw [List.map_cons, List.map_cons, same, ih]

section

variable (below : phrases.Repeats phrases' rest)
include below

theorem expression_repeats (row : List Kind) : Repeats rest (Closes 0 rest) (2 * row.length + 1)
    (Keyed Expr.erase) phrases.expression phrases'.expression row :=
  nested_repeats (below.operand 0 row |>.within (by simp) (Nat.le_refl _))

theorem expressions_repeats (stops : ends → lead rest ≠ .symbol .comma)
    (closes : ends → Closes 0 rest) (row : List Kind) :
    Repeats rest ends (2 * row.length + 1) (Keyed Expr.eraseAll) phrases.expressions
      phrases'.expressions row := by
  refine (commaSeparated_repeats ends row 1 stops closes fun left _ => expression_repeats below left).alike ?_
  intro these those agree
  rw [Keyed, Expr.eraseAll_eq_map, Expr.eraseAll_eq_map, keyed_map agree]

theorem optionalClause_repeats {word : Keyword} (noNot : word ≠ .NOT)
    (other : ends → lead rest ≠ .keyword word) (closes : ends → Closes 0 rest) (row : List Kind) :
    Repeats rest ends (2 * row.length + 1) (Keyed Expr.eraseOption) (phrases.optionalClause word)
      (phrases'.optionalClause word) row := by
  refine .takeWord noNot (.inl other) (fun left isRow => ?_) fun _ => .done rfl
  subst isRow
  refine .bind ((expression_repeats below left).within closes ?_) id fun e e' more same _ =>
    .done ?_
  · simp only [List.length_cons]
    omega
  · exact congrArg some same

end

/-! ## The tail of a query -/

theorem sortOrder_repeats (noDesc : ends → lead rest ≠ .keyword .DESC)
    (noAsc : ends → lead rest ≠ .keyword .ASC) :
    Repeats rest ends need Eq sortOrder sortOrder row :=
  .takeWord (by simp) (.inl noDesc) (fun _ _ => .done rfl) fun _ =>
    .takeWord (by simp) (.inl noAsc) (fun _ _ => .done rfl) fun _ => .done rfl

theorem nullOrder_repeats (noNulls : ends → lead rest ≠ .keyword .NULLS) :
    Repeats rest ends need Eq nullOrder nullOrder row := by
  refine .takeWord (by simp) (.inl noNulls) (fun _ _ => ?_) fun _ => .done rfl
  refine .takeWord (by simp) (.inr ((Refuses.expectWord _).bind _)) (fun _ _ => .done rfl) fun _ => ?_
  exact .expectWord (by simp) fun _ _ => .done rfl

theorem takeRows_repeats (noRow : ends → lead rest ≠ .keyword .ROW)
    (noRows : ends → lead rest ≠ .keyword .ROWS) :
    Repeats rest ends need Eq takeRows takeRows row :=
  .takeWord (by simp) (.inl noRow) (fun _ _ => .done rfl) fun _ => takeWord_repeats (by simp) noRows

theorem expectRows_repeats : Repeats rest ends need Eq expectRows expectRows row :=
  .takeWord (by simp) (.inr (Refuses.expectWord _)) (fun _ _ => .done rfl) fun _ =>
    expectWord_repeats (by simp)

theorem fetchKind_repeats : Repeats rest ends need Eq fetchKind fetchKind row :=
  .takeWord (by simp) (.inr (.takeWord (.unexpected _))) (fun _ _ => .done rfl) fun _ =>
    .takeWord (by simp) (.inr (.unexpected _)) (fun _ _ => .done rfl) fun _ => .unexpected _

theorem withTies_repeats : Repeats rest ends need Eq withTies withTies row :=
  .takeWord (by simp) (.inr (.takeWord (.unexpected _))) (fun _ _ => .done rfl) fun _ =>
    .takeWord (by simp) (.inr (.unexpected _)) (fun _ _ => .expectWord (by simp) fun _ _ => .done rfl)
      fun _ => .unexpected _

theorem expectRows_refuses : Refuses expectRows := .takeWord (.expectWord _)

theorem fetchCount_refuses (shuns : phrases.Shuns) : Refuses (fetchCount phrases) :=
  .look (atWord_looks _) (.look (atWord_looks _) (shuns.expression.bind _))

section

variable (below : phrases.Repeats phrases' rest)
include below

theorem sortKey_repeats (closes : ends → Closes 0 rest)
    (noOrder : ends → ∀ word ∈ [Keyword.DESC, .ASC, .NULLS], lead rest ≠ .keyword word)
    (row : List Kind) :
    Repeats rest ends (2 * row.length + 1) (Keyed SortKey.erase) (sortKey phrases)
      (sortKey phrases') row := by
  refine .still here_still here_still fun start start' => ?_
  refine .bind (expression_repeats below row) closes fun e e' _ same _ => ?_
  refine .bind (sortOrder_repeats (noOrder · _ (by simp)) (noOrder · _ (by simp))) id
    fun order _ _ same₁ _ => ?_
  refine .bind (nullOrder_repeats (noOrder · _ (by simp))) id fun nulls _ _ same₂ _ => ?_
  refine .still (spanFrom_still _) (spanFrom_still _) fun _ _ => .done ?_
  rw [Keyed, SortKey.erase, SortKey.erase, same, same₁, same₂]

theorem orderBy_repeats (row : List Kind) :
    Repeats rest (Past 8 rest) (2 * row.length) (Keyed SortKey.eraseAll) (orderBy phrases)
      (orderBy phrases') row := by
  refine .takeWord (by simp) (.inl (·.ne (by decide))) (fun left isRow => ?_) fun _ => .done rfl
  refine .expectWord (by simp) fun left' isLeft => ?_
  have noOrder (past : Past 8 rest) (word : Keyword) (isOrder : word ∈ [Keyword.DESC, .ASC, .NULLS]) :
      lead rest ≠ .keyword word := by
    refine past.ne ?_
    simp only [List.mem_cons, List.not_mem_nil, or_false] at isOrder
    rcases isOrder with rfl | rfl | rfl <;> decide
  have keys := commaSeparated_repeats (Past 8 rest) left' 1 (·.ne (by decide)) id
    fun left _ => sortKey_repeats below (·.closes 0) noOrder left
  refine (keys.within id ?_).alike fun these those agree => ?_
  · rw [isRow, isLeft, List.length_cons, List.length_cons]
    omega
  · rw [Keyed, SortKey.eraseAll_eq_map, SortKey.eraseAll_eq_map, keyed_map agree]

theorem offset_repeats (past : ends → Past 9 rest) (noRows : ends → lead rest ≠ .keyword .ROWS)
    (row : List Kind) :
    Repeats rest ends (2 * row.length) (Keyed Expr.eraseOption) (offset phrases) (offset phrases')
      row := by
  refine .takeWord (by simp) (.inl fun holds => (past holds).ne (by decide)) (fun left isRow => ?_)
    fun _ => .done rfl
  refine .bind ((expression_repeats below left).within (fun holds => (past holds).closes 0) ?_) id
    fun e e' _ same _ => ?_
  · rw [isRow, List.length_cons]
    omega
  refine .bind (takeRows_repeats (fun holds => (past holds).ne (by decide)) noRows) id
    fun _ _ _ _ _ => ?_
  exact .done (congrArg some same)

theorem fetchCount_repeats (row : List Kind) :
    Repeats rest False (2 * row.length + 1) (Keyed Expr.eraseOption) (fetchCount phrases)
      (fetchCount phrases') row := by
  refine .look (atWord_looks _) (fun _ => False.elim) (.ite (fun _ => .done rfl) fun _ => ?_)
  refine .look (atWord_looks _) (fun _ => False.elim) (.ite (fun _ => .done rfl) fun _ => ?_)
  exact .bind (expression_repeats below row) False.elim fun e e' _ same _ =>
    .done (congrArg some same)

theorem fetch_repeats (shuns : phrases.Shuns) (row : List Kind) :
    Repeats rest (Past 10 rest) (2 * row.length) (Keyed Fetch.eraseOption) (fetch phrases)
      (fetch phrases') row := by
  refine .still here_still here_still fun start start' => ?_
  refine .takeWord (by simp) (.inl (·.ne (by decide))) (fun left isRow => ?_) fun _ => .done rfl
  refine .inside fetchKind_repeats (fun _ => (fetchCount_refuses shuns).bind _)
    fun kind _ left' same few => ?_
  subst same
  refine .inside ((fetchCount_repeats below left').within id ?_) (fun _ => .takeWord (expectRows_refuses.bind _))
    fun count count' _ same _ => ?_
  · rw [isRow, List.length_cons]
    omega
  refine .takeWord (by simp) (.inr (expectRows_refuses.bind _)) ?_ ?_
  all_goals
    intros
    refine .after expectRows_repeats fun _ _ _ _ _ => ?_
    refine .after withTies_repeats fun ties _ _ same₁ _ => ?_
    refine .still (spanFrom_still _) (spanFrom_still _) fun _ _ => .done ?_
    rw [Keyed, Fetch.eraseOption, Fetch.eraseOption, same, same₁]

theorem queryTail_repeats (shuns : phrases.Shuns) {withClause withClause' : Option WithClause}
    {body body' : Rel} {start start' : Span}
    (same : Keyed WithClause.eraseOption withClause withClause') (same₁ : Keyed Rel.erase body body')
    (row : List Kind) :
    Repeats rest (Past 10 rest) (2 * row.length) (Keyed Query.erase)
      (queryTail phrases withClause body start) (queryTail phrases' withClause' body' start') row := by
  refine .bind (orderBy_repeats below row) (·.mono (by omega)) fun keys keys' left same₂ few => ?_
  have skipped := offset_repeats below (fun past : Past 10 rest => past.mono (by omega))
    (·.ne (by decide)) left
  refine .bind (skipped.within id (by omega)) id fun count count' left' same₃ few' => ?_
  refine .bind ((fetch_repeats below shuns left').within id (by omega)) id
    fun fetched fetched' _ same₄ _ => ?_
  refine .still (spanFrom_still _) (spanFrom_still _) fun _ _ => .done ?_
  rw [Keyed, Query.erase, Query.erase, same, same₁, same₂, same₃, same₄]

theorem reopened_repeats (shuns : phrases.Shuns) {query query' : Query} {start start' : Span}
    (same : Keyed Query.erase query query') (row : List Kind) :
    Repeats rest (Past 10 rest) (2 * row.length) (Keyed Query.erase)
      (reopened phrases query start) (reopened phrases' query' start') row := by
  have operand : Keyed Rel.erase query.operand query'.operand := by
    rw [Keyed, Query.operand_erase, same, ← Query.operand_erase]
  refine .bind (below.setOperations _ _ 0 row operand) ?_ fun body body' left same₁ few => ?_
  · exact fun past => Past.closesBody (past.mono (by omega)) 0
  · exact (queryTail_repeats below shuns rfl same₁ left).within id (by omega)

end

end Parse

end CanonicalSql
