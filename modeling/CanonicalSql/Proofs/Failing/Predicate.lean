import CanonicalSql.Proofs.Failing.Expr

/-!
# Failing operators

What fails on the right of an operator, or within a predicate, makes the operand fail that the
operator would go on with.
-/
namespace CanonicalSql

open Parse

variable {tokens : List Token} {failure : Failure} {row rest : List Kind}
  {limit depth more tier : Nat}

/-- The right operand of an operator. -/
theorem FailsOperand.binary {op : BinaryOp} (given : FailsOperand tokens failure (op.tier + 1) row) :
    FailsOperator tokens failure op.tier (op.kind :: row) where
  ahead := op.ahead row
  fails {limit depth more} found start enough room := by
    rw [List.length_cons] at enough room
    obtain ⟨more, rfl⟩ : ∃ fewer, more = fewer + 1 := ⟨more - 1, by omega⟩
    have inner : Fails tokens failure limit depth
        (Parse.binary (Phrases.within (more + 1)) found (2 * op.tier) start) (op.kind :: row) := by
      refine .look kind_looks ?_
      rw [lead_cons, id, op.ofKind?_kind]
      refine .advance (by cases op <;> simp [BinaryOp.kind]) ?_
      exact (given.fails (by omega) (by omega) (by omega)).bind
    refine .look word?_looks ?_
    cases op <;> exact inner

/-- A predicate fails behind the word that it begins with. -/
structure FailsPredicate (tokens : List Token) (failure : Failure) (row : List Kind) : Prop where
  opens : row ≠ [] ∧ isNegatable (lead row) = true
  fails : ∀ {limit depth more : Nat} (found : Expr) (start : Span), 8 * row.length + 15 ≤ more →
    depth + 2 * row.length ≤ capOf limit + 1 →
    Fails tokens failure limit depth (predicate (Phrases.within more) found start) row

theorem FailsPredicate.operator (given : FailsPredicate tokens failure row) (negative : Bool) :
    FailsOperator tokens failure 4 (Expr.notIf negative ++ row) := by
  obtain ⟨nonempty, opens⟩ := given.opens
  obtain ⟨kind, others, rfl⟩ := List.exists_cons_of_ne_nil nonempty
  rw [lead_cons] at opens
  refine ⟨Expr.predicate_ahead negative opens others,
    fun {limit depth more} found start enough room => ?_⟩
  rw [List.length_append] at enough room
  have fails : Fails tokens failure limit depth (predicate (Phrases.within more) found start)
      (kind :: others) := given.fails found start (by omega) (by omega)
  refine .look word?_looks ?_
  cases negative with
  | false =>
    unfold isNegatable at opens
    split at opens
    case h_4 => cases opens
    all_goals exact fails
  | true => exact .advance (by simp) fails.bind

theorem FailsOperand.predicateOperand (given : FailsOperand tokens failure 5 row)
    (enough : 8 * row.length + 16 ≤ more) (room : depth + 2 * row.length ≤ capOf limit) :
    Fails tokens failure limit depth (predicateOperand (Phrases.within more)) row := by
  obtain ⟨more, rfl⟩ : ∃ fewer, more = fewer + 1 := ⟨more - 1, by omega⟩
  exact given.fails (by decide) (by omega) room

/-- A value of a list behind `IN`. -/
theorem FailsOperand.listed (given : FailsOperand tokens failure 0 row) {rows : List (List Kind)}
    (each : ∀ other ∈ rows, ∃ e, Takes wholeExpression other e) :
    FailsPredicate tokens failure
      (.keyword .IN :: .symbol .leftParen :: (beforeCommas rows ++ row)) where
  opens := ⟨by simp, rfl⟩
  fails {limit depth more} found start enough room := by
    simp only [List.length_cons] at enough room
    refine .look word?_looks (.advance (by simp) (.still here_still fun _ => .expectSign (.bind ?_)))
    refine .look startsQuery_looks ?_
    rw [noQuery_of_opensExpression (beforeCommas_opens (opens_of_takes each) given.opens),
      if_neg (by simp)]
    exact .still here_still fun _ => (given.expressions each (by omega) (by omega)).bind

/-- The lower bound of `BETWEEN`. -/
theorem FailsOperand.low (given : FailsOperand tokens failure 5 row) {isSymmetric : Bool}
    {words : List Kind} (spelled : words ∈ Expr.symmetrySpellings isSymmetric) :
    FailsPredicate tokens failure (.keyword .BETWEEN :: (words ++ row)) where
  opens := ⟨by simp, rfl⟩
  fails {limit depth more} found start enough room := by
    rw [List.length_cons, List.length_append] at enough room
    refine .look word?_looks (.advance (by simp) ?_)
    refine .step (Expr.symmetric_spelled spelled given.opens) (fun _ _ => symmetric_runs) ?_
    exact (given.predicateOperand (by omega) (by omega)).bind

/-- The upper bound of `BETWEEN`. -/
theorem FailsOperand.high (given : FailsOperand tokens failure 5 row) {isSymmetric : Bool}
    {words lowRow : List Kind} {low : Expr} (spelled : words ∈ Expr.symmetrySpellings isSymmetric)
    (first : low.ReadsOperand 5 lowRow) :
    FailsPredicate tokens failure
      (.keyword .BETWEEN :: (words ++ (lowRow ++ .keyword .AND :: row))) where
  opens := ⟨by simp, rfl⟩
  fails {limit depth more} found start enough room := by
    simp only [List.length_cons, List.length_append] at enough room
    refine .look word?_looks (.advance (by simp) ?_)
    refine .step (Expr.symmetric_spelled spelled ?_) (fun _ _ => symmetric_runs) ?_
    · rw [lead_append_of_ne_nil first.nonempty]
      exact first.opens
    have isAnd : Power.ahead (.keyword .AND :: row) = some (.ofTier 2) := rfl
    have reads : Reads limit True (Parse.predicateOperand (Phrases.within more)) depth
        (lowRow ++ .keyword .AND :: row) (fun e => e.erase = low.erase) depth
        (.keyword .AND :: row) := by
      refine first.predicateOperand (by omega) (by omega) (.of_ahead isAnd (by decide) (by decide))
        fun power isAhead => ?_
      cases isAnd.symm.trans isAhead
      decide
    refine .after reads (fun i placed => ?_) fun _ _ => .expectWord ?_
    · have course : (Phrases.within more).From tokens i :=
        Phrases.within_from (by rw [List.length_append, List.length_cons]; omega) placed.ge
      exact (predicateOperand_runs course.here).passes
    · exact (given.predicateOperand (by omega) (by omega)).bind

/-- The pattern of `LIKE`. -/
theorem FailsOperand.pattern (given : FailsOperand tokens failure 5 row) :
    FailsPredicate tokens failure (.keyword .LIKE :: row) where
  opens := ⟨by simp, rfl⟩
  fails {limit depth more} found start enough room := by
    rw [List.length_cons] at enough room
    exact .look word?_looks (.advance (by simp) (given.predicateOperand (by omega) (by omega)).bind)

/-- What `ESCAPE` gives. -/
theorem FailsOperand.escape (given : FailsOperand tokens failure 5 row) {patternRow : List Kind}
    {pattern : Expr} (first : pattern.ReadsOperand 5 patternRow) :
    FailsPredicate tokens failure (.keyword .LIKE :: (patternRow ++ .keyword .ESCAPE :: row)) where
  opens := ⟨by simp, rfl⟩
  fails {limit depth more} found start enough room := by
    simp only [List.length_cons, List.length_append] at enough room
    refine .look word?_looks (.advance (by simp) ?_)
    have reads : Reads limit True (Parse.predicateOperand (Phrases.within more)) depth
        (patternRow ++ .keyword .ESCAPE :: row) (fun e => e.erase = pattern.erase) depth
        (.keyword .ESCAPE :: row) :=
      first.predicateOperand (by omega) (by omega) (.of_quiet rfl rfl (.inl (by decide)))
        fun power isAhead => absurd ((Ends.of_quiet rfl).power power isAhead) (Nat.not_lt_zero _)
    refine .after reads (fun i placed => ?_) fun _ _ => .bind (.takeWord ?_)
    · have course : (Phrases.within more).From tokens i :=
        Phrases.within_from (by rw [List.length_append, List.length_cons]; omega) placed.ge
      exact (predicateOperand_runs course.here).passes
    · exact (given.predicateOperand (by omega) (by omega)).bind

end CanonicalSql
