import CanonicalSql.Proofs.Failing.Predicate

/-!
# Comparisons and predicates that chain

`Expr.ComparisonText` says which rows of tokens apply a comparison or a predicate to operands of
higher tiers, and `Chains` which tokens may not stand behind one. The operand that such a row would
be fails at the first of these tokens (`Expr.ComparisonText.fails`): the loop that has taken the
comparison is the one that sees them, for the operands of the comparison ask for higher powers.
-/
namespace CanonicalSql

open Parse

/-- The rows behind `IN (`, wherever the parenthesis stands, with as many levels as the tokens left
may need. -/
def Parse.wholeRows : Parse Rel := do inRows (← Phrases.forState) default

/-- A comparison or a predicate applied to operands of higher tiers. It is `closed` if it ends with
a token of its own, and open if it ends with an operand. -/
inductive Expr.ComparisonText : (closed : Bool) → List Kind → Prop
  | comparison (op : BinaryOp) {left right : Expr} {row other : List Kind}
    (isComparison : op.tier = 4) (first : OperatorText IsPrimary 5 left row)
    (second : OperatorText IsPrimary 5 right other) : ComparisonText false (row ++ op.kind :: other)
  | tested (negative : Bool) (value : Option TruthValue) {left : Expr} {row : List Kind}
    (first : OperatorText IsPrimary 5 left row) :
    ComparisonText true (row ++ .keyword .IS :: (notIf negative ++ [.keyword (testedWord value)]))
  | between (negative symmetric : Bool) {words : List Kind} {left low high : Expr}
    {row lowRow highRow : List Kind} (spelled : words ∈ symmetrySpellings symmetric)
    (first : OperatorText IsPrimary 5 left row) (second : OperatorText IsPrimary 5 low lowRow)
    (third : OperatorText IsPrimary 5 high highRow) :
    ComparisonText false (row ++ (notIf negative ++ .keyword .BETWEEN ::
      (words ++ (lowRow ++ .keyword .AND :: highRow))))
  | within (negative : Bool) {left : Expr} {rel : Rel} {row rows : List Kind}
    (first : OperatorText IsPrimary 5 left row) (takes : Takes wholeRows rows rel) :
    ComparisonText true (row ++ (notIf negative ++ .keyword .IN :: .symbol .leftParen ::
      (rows ++ [.symbol .rightParen])))
  | like (negative : Bool) {left pattern : Expr} {row patternRow : List Kind}
    (escape : Option (Expr × List Kind)) (first : OperatorText IsPrimary 5 left row)
    (second : OperatorText IsPrimary 5 pattern patternRow)
    (third : ∀ it ∈ escape, OperatorText IsPrimary 5 it.1 it.2) :
    ComparisonText false (row ++ (notIf negative ++ .keyword .LIKE ::
      (patternRow ++ escapeRow escape)))

/-- An operator that may not follow a comparison or a predicate without parentheses. Behind an open
one, the operators of higher tiers go on with its last operand. -/
inductive Chains : (closed : Bool) → List Kind → Prop
  | comparison {closed : Bool} (op : BinaryOp) (others : List Kind) (isComparison : op.tier = 4) :
    Chains closed (op.kind :: others)
  | test {closed : Bool} (others : List Kind) : Chains closed (.keyword .IS :: others)
  | predicate {closed : Bool} (negative : Bool) {kind : Kind} (others : List Kind)
    (isPredicate : isNegatable kind = true) : Chains closed (Expr.notIf negative ++ kind :: others)
  | tighter (op : BinaryOp) (others : List Kind) (tight : 5 ≤ op.tier) :
    Chains true (op.kind :: others)
  | collate (others : List Kind) : Chains true (.keyword .COLLATE :: others)

/-- The failure names the first of the tokens behind as an operator that may not follow, and its
place. -/
def Failure.IsChained (tokens : List Token) (behind : List Kind) (failure : Failure) : Prop :=
  ∃ token, tokens[tokens.length - (behind.length + 1)]? = some token ∧
    failure = .grammatical ⟨.chained (lead behind), token.span⟩

variable {tokens : List Token} {failure : Failure} {row behind : List Kind} {closed : Bool}
  {limit depth more : Nat}

/-- What may not follow has a power that a comparison would have, and behind an open one no
higher one. -/
theorem Chains.ahead (chains : Chains closed behind) :
    ∃ tier, Power.ahead behind = some (.ofTier tier) ∧ 4 ≤ tier ∧ (closed = false → tier = 4) := by
  cases chains with
  | comparison op others isComparison =>
    exact ⟨op.tier, op.ahead others, isComparison.ge, fun _ => isComparison⟩
  | test others => exact ⟨4, rfl, Nat.le_refl 4, fun _ => rfl⟩
  | predicate negative others isPredicate =>
    exact ⟨4, Expr.predicate_ahead negative isPredicate others, Nat.le_refl 4, fun _ => rfl⟩
  | tighter op others tight =>
    refine ⟨op.tier, op.ahead others, by omega, ?_⟩
    intro isOpen
    cases isOpen
  | collate others =>
    refine ⟨9, rfl, by decide, ?_⟩
    intro isOpen
    cases isOpen

/-- Behind a comparison the loop refuses an operator that it would take behind another one. -/
theorem Failure.IsChained.step (isChained : failure.IsChained tokens behind) {tier least : Nat}
    (isAhead : Power.ahead behind = some (.ofTier tier)) (high : 4 ≤ tier) (low : least ≤ 7)
    {phrases : Phrases} {start : Span} {done : Applied} (flag : done.afterComparison = true) :
    Fails tokens failure limit depth (operatorStep phrases least start done) behind := by
  refine .step operatorPower_reads (fun i _ => operatorPower_runs) ?_
  have strong : ¬ (Power.ofTier tier).left < least := by
    change ¬ 2 * tier - 1 < least
    omega
  have chains : (done.afterComparison &&
      decide (Power.comparison.left ≤ (Power.ofTier tier).left)) = true := by
    have tight : Power.comparison.left ≤ (Power.ofTier tier).left := by
      change 7 ≤ 2 * tier - 1
      omega
    simp [flag, tight]
  rw [isAhead]
  dsimp only
  rw [if_neg strong, if_pos chains]
  refine .look kind_looks fun s i shows stands => ⟨s, ?_⟩
  obtain ⟨token, isToken, rfl⟩ := isChained
  have placed := shows.placed stands
  rw [show tokens.length - (behind.length + 1) = i by omega, stands.current] at isToken
  cases isToken
  rfl

/-- Behind an operand the row is read as a comparison or a predicate, up to what stands behind. -/
structure ComparesBefore (behind row : List Kind) : Prop where
  nonempty : row ≠ []
  ahead : Power.ahead (row ++ behind) = some (.ofTier 4)
  reads : ∀ {limit depth more : Nat} (found : Expr) (start : Span), 8 * row.length + 15 ≤ more →
    depth + 2 * row.length ≤ capOf limit + 1 →
    Reads limit True (applied (Phrases.within more) found 8 start) depth (row ++ behind)
      (fun _ => True) depth behind

theorem Expr.ReadsOperator.comparesBefore
    (given : ∀ left, ∃ expr, ReadsOperator 4 left expr row)
    (isAhead : Power.ahead behind = some (.ofTier 4)) : ComparesBefore behind row where
  nonempty := by
    obtain ⟨expr, operator⟩ := given default
    rintro rfl
    cases operator.ahead []
  ahead := by
    obtain ⟨expr, operator⟩ := given default
    exact operator.ahead behind
  reads found start enough room := by
    obtain ⟨expr, operator⟩ := given found
    have ends : EndsTier 4 behind := .of_ahead isAhead (Nat.le_refl 4) (by decide)
    exact (operator.reads rfl enough room ends).weaken fun _ _ => trivial

theorem ComparesBefore.tested (negative : Bool) (value : Option TruthValue) (behind : List Kind) :
    ComparesBefore behind
      (.keyword .IS :: (Expr.notIf negative ++ [.keyword (Expr.testedWord value)])) where
  nonempty := by simp
  ahead := rfl
  reads _ start _ _ :=
    (Expr.tested_reads negative value rfl default default start 8).weaken fun _ _ => trivial

theorem ComparesBefore.within (negative : Bool) {rows : List Kind} {rel : Rel}
    (takes : Takes wholeRows rows rel) (behind : List Kind) :
    ComparesBefore behind (Expr.notIf negative ++ .keyword .IN :: .symbol .leftParen ::
      (rows ++ [.symbol .rightParen])) where
  nonempty := by simp
  ahead := by
    rw [List.append_assoc]
    exact Expr.predicate_ahead negative rfl _
  reads {limit depth more} found start enough room := by
    simp only [List.length_append, List.length_cons] at enough room
    simp only [List.append_assoc, List.cons_append, List.nil_append]
    refine Expr.applied_predicate negative rfl ?_ fun _ _ => id
    refine word?_looks.reads.step (advance_reads.after fun _ _ => .still here_still fun opening => ?_)
    refine (expectSign_reads _).step ?_
    have again : Repeats (.symbol .rightParen :: behind) True (2 * rows.length + 1) (Keyed Rel.erase)
        wholeRows (inRows (Phrases.within more) opening) rows :=
      .forState (inRows_repeats (Phrases.within_repeats (by omega) _) (Phrases.within_shuns _)
        (fun _ => Past.close behind) default opening rows)
    refine (again.reads takes trivial rfl (by omega)).after fun _ _ => (expectSign_reads _).step ?_
    exact .still (spanFrom_still start) fun _ => .pure trivial trivial

/-- One round takes the comparison, and the next one refuses what stands behind. -/
theorem ReadsLeft.chained {other : List Kind} (left : ReadsLeft 4 row (other ++ behind))
    (compares : ComparesBefore behind other) (isChained : failure.IsChained tokens behind)
    {tier : Nat} (isAhead : Power.ahead behind = some (.ofTier tier)) (high : 4 ≤ tier) :
    FailsRounds tokens failure 4 (row ++ (other ++ behind)) where
  opens := by
    rw [lead_append_of_ne_nil (nonempty_of_opens left.opens)]
    exact left.opens
  reads {more} enough := by
    have some := List.length_pos_iff.mpr compares.nonempty
    simp only [List.length_append] at enough
    obtain ⟨first, others, up, last, few, fewer, free, reads, leads⟩ :=
      left.reads (show 8 * row.length + 16 ≤ more by omega)
    simp only [List.length_append]
    refine ⟨first, others ++ (other ++ behind), by simp only [List.length_append]; omega,
      fun limit depth room => reads limit depth (by omega),
      fun {limit depth least a b i found start} strong room same covers past laid placed => ?_⟩
    simp only [List.length_append] at room placed
    have rounds : Leads limit (operatorStep (Phrases.within more) least start)
        (SameApplied ⟨first, 0, false⟩) depth (others ++ (other ++ behind))
        (fun done => done.afterComparison = true) (depth + up + 1) behind := by
      refine (leads limit depth start least strong (by omega)).trans ?_
      refine .one (by rw [List.length_append]; omega) fun done isLast => ?_
      refine operatorPower_reads.step ?_
      rw [compares.ahead]
      have strong : ¬ (Power.ofTier 4).left < least := by
        change ¬ 7 < least
        omega
      dsimp only
      rw [if_neg strong, if_neg (by simp [free done isLast (Nat.le_refl 4)])]
      refine (enter_reads (by omega)).step ?_
      exact (compares.reads done.left start (by omega) (by omega)).after fun e _ =>
        .pure trivial ⟨_, rfl, rfl⟩
    exact rounds.operators_fail same (by simp only [List.length_append]; omega) covers past laid
      (by simp only [List.length_append]; omega)
      fun done flag => isChained.step isAhead high strong flag

/-- Where a comparison is written and what may not stand behind it does, the operand fails there. -/
theorem Expr.ComparisonText.fails (text : ComparisonText closed row) (chains : Chains closed behind)
    (isChained : failure.IsChained tokens behind) :
    FailsRounds tokens failure 4 (row ++ behind) := by
  obtain ⟨tier, isAhead, high, isOpen⟩ := chains.ahead
  have fails {left : Expr} {row other : List Kind} (first : OperatorText IsPrimary 5 left row)
      (compares : ComparesBefore behind other) :
      FailsRounds tokens failure 4 (row ++ other ++ behind) := by
    rw [List.append_assoc]
    exact (ReadsLeft.of_text first compares.ahead (by decide) (by decide)
      fun _ => Nat.le_refl 5).chained compares isChained isAhead high
  cases text with
  | comparison op isComparison first second =>
    obtain rfl := isOpen rfl
    have right := second.readsOperand
    rw [← show op.tier + 1 = 5 by rw [isComparison]] at right
    have operator (left : Expr) := binary_operator right left default
    rw [isComparison] at operator
    exact fails first (ReadsOperator.comparesBefore (fun left => ⟨_, operator left⟩) isAhead)
  | tested negative value first => exact fails first (.tested negative value behind)
  | between negative symmetric spelled first second third =>
    obtain rfl := isOpen rfl
    exact fails first (ReadsOperator.comparesBefore (fun left => ⟨_,
      (between_predicate spelled second.readsOperand third.readsOperand left default).operator negative
        default⟩) isAhead)
  | within negative first takes => exact fails first (.within negative takes behind)
  | like negative escape first second third =>
    obtain rfl := isOpen rfl
    exact fails first (ReadsOperator.comparesBefore (fun left => ⟨_,
      (like_predicate second.readsOperand (fun it isEscape => (third it isEscape).readsOperand) left
        default).operator negative default⟩) isAhead)

end CanonicalSql
