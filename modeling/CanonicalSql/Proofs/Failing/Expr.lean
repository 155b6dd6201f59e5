import CanonicalSql.Proofs.Failing.Clauses
import CanonicalSql.Proofs.Precedence

/-!
# Failing expressions

What fails where an operand is expected makes the expressions fail that begin with it, or that have
other operands and operators before it.
-/
namespace CanonicalSql

namespace Parse

/-! ## What begins an expression -/

section

variable {row left : List Kind} {phrases : Phrases} {e : Expr}

theorem Gives.afterWord_opens {word : Keyword} (gives : Gives (afterWord phrases word) row e left) :
    (Kind.keyword word).opensExpression = true := by
  obtain ⟨s, t, -, -, run⟩ := gives
  cases word <;> first | rfl | cases run

theorem Gives.primary_opens (gives : Gives (primary phrases) row e left) :
    (lead row).opensExpression = true ∧ UnaryOp.ofKind? (lead row) = none := by
  obtain ⟨start, gives⟩ := gives.still here_still
  have gives := gives.step fun _ _ => kind_reads
  split at gives
  case h_6 word isWord =>
    have opens := gives.afterWord_opens
    rw [isWord]
    refine ⟨opens, ?_⟩
    by_cases isNot : word = .NOT
    · subst isNot
      obtain ⟨s, t, -, -, run⟩ := gives
      cases run
    · unfold UnaryOp.ofKind?
      split <;> simp_all
  case h_8 =>
    obtain ⟨s, t, -, -, run⟩ := gives
    cases run
  all_goals
    next isKind =>
      rw [isKind]
      exact ⟨rfl, rfl⟩

theorem Gives.leading_opens (gives : Gives (leading phrases) row e left) :
    (lead row).opensExpression = true := by
  obtain ⟨start, gives⟩ := gives.still here_still
  have gives := gives.step fun _ _ => kind_reads
  split at gives
  · next op power isOp =>
    generalize lead row = kind at isOp
    unfold UnaryOp.ofKind? at isOp
    split at isOp <;> first | rfl | cases isOp
  · exact gives.primary_opens.1

theorem Gives.operand_opens {levels least : Nat}
    (gives : Gives (operand (Phrases.within levels) least) row e left) :
    (lead row).opensExpression = true := by
  obtain ⟨start, gives⟩ := gives.still here_still
  have again : (Phrases.within levels).Repeats (Phrases.within levels) [] :=
    Phrases.within_repeats (Nat.le_refl levels) []
  obtain ⟨first, mid, isFirst, -⟩ :=
    gives.split (leading_repeats again (Phrases.within_shuns levels)
      (fun impossible : False => impossible.elim) row)
  exact isFirst.leading_opens

theorem Takes.operand_opens {least : Nat} (takes : Takes (operandOfPower least) row e) :
    (lead row).opensExpression = true :=
  Gives.operand_opens (Gives.forState takes)

theorem Gives.expression_opens {levels : Nat}
    (gives : Gives (Phrases.within (levels + 1)).expression row e left) :
    (lead row).opensExpression = true :=
  gives.nested.operand_opens

theorem Takes.expression_opens (takes : Takes wholeExpression row e) :
    (lead row).opensExpression = true :=
  Gives.expression_opens takes.within

theorem nonempty_of_opens (opens : (lead row).opensExpression = true) : row ≠ [] := by
  rintro rfl
  cases opens

end

end Parse

/-! ## Failing expressions -/

open Parse

variable {tokens : List Token} {failure : Failure}

/-- Where an operand of the tier is expected, the step fails within the row. -/
structure FailsOperand (tokens : List Token) (failure : Failure) (tier : Nat) (row : List Kind) :
    Prop where
  opens : (lead row).opensExpression = true
  fails : ∀ {limit depth more least : Nat}, least ≤ 2 * tier - 1 → 8 * row.length + 15 ≤ more →
    depth + 2 * row.length ≤ capOf limit →
    Fails tokens failure limit depth (operand (Phrases.within more) least) row

/-- Where a leading part without operators in front is expected, the step fails within the row. -/
structure FailsPrimary (tokens : List Token) (failure : Failure) (row : List Kind) : Prop where
  opens : (lead row).opensExpression = true
  noPrefix : UnaryOp.ofKind? (lead row) = none
  fails : ∀ {limit depth more : Nat}, 8 * row.length + 15 ≤ more →
    depth + 2 * row.length ≤ capOf limit →
    Fails tokens failure limit depth (primary (Phrases.within more)) row

/-- An operator of the tier is ahead, and what it takes on its right fails. -/
structure FailsOperator (tokens : List Token) (failure : Failure) (tier : Nat) (row : List Kind) :
    Prop where
  ahead : Power.ahead row = some (.ofTier tier)
  fails : ∀ {limit depth more : Nat} (found : Expr) (start : Span), 8 * row.length + 15 ≤ more →
    depth + 2 * row.length ≤ capOf limit + 1 →
    Fails tokens failure limit depth (applied (Phrases.within more) found (2 * tier) start) row

/-- The row begins with a leading part, and what is read behind it with operators of the tier at
least fails. -/
structure FailsRounds (tokens : List Token) (failure : Failure) (tier : Nat) (row : List Kind) :
    Prop where
  opens : (lead row).opensExpression = true
  reads : ∀ {more : Nat}, 8 * row.length + 15 ≤ more → ∃ (first : Expr) (others : List Kind),
    others.length ≤ row.length ∧
    (∀ limit depth, depth + 2 * row.length ≤ capOf limit →
      Reads limit True (leading (Phrases.within more)) depth row (Keyed Expr.erase first) depth others) ∧
    ∀ {limit depth least a b i : Nat} {found : Expr} {start : Span}, least ≤ 2 * tier - 1 →
      depth + 2 * others.length ≤ capOf limit → Keyed Expr.erase first found →
      Covers tokens a b start → b ≤ i → Laid tokens a i [.ofExpr found] →
      i + others.length + 1 = tokens.length →
      Fails tokens failure limit depth (operators (Phrases.within more) found least start) others

/-- In front of `rest` the row is read as a leading part and operators behind it, and an operator
of the tier may go on with it. -/
structure ReadsLeft (tier : Nat) (row rest : List Kind) : Prop where
  opens : (lead row).opensExpression = true
  reads : ∀ {more : Nat}, 8 * row.length + 16 ≤ more →
    ∃ (first : Expr) (others : List Kind) (up : Nat) (last : Applied → Prop),
      others.length ≤ row.length ∧ up ≤ others.length ∧
      (∀ done, last done → 4 ≤ tier → done.afterComparison = false) ∧
      (∀ limit depth, depth + 2 * row.length ≤ capOf limit →
        Reads limit True (leading (Phrases.within more)) depth (row ++ rest) (Keyed Expr.erase first)
          depth (others ++ rest)) ∧
      ∀ limit depth start least, least ≤ 2 * tier - 1 → depth + 2 * others.length ≤ capOf limit →
        Leads limit (operatorStep (Phrases.within more) least start) (SameApplied ⟨first, 0, false⟩)
          depth (others ++ rest) last (depth + up) rest

variable {row rest : List Kind} {limit depth more tier : Nat}

theorem Parse.operatorPower_runs {i : Nat} : Passes tokens i operatorPower := by
  have whole : Runs tokens i (operatorPower >>= pure) fun _ _ => True :=
    .operatorPower fun _ => .pure trivial
  rwa [bind_pure] at whole

/-- The operators behind a leading part fail if some rounds of them lead to one that fails. -/
theorem Parse.Leads.operators_fail {least depth' a b i : Nat} {mid : List Kind} {first found : Expr}
    {start : Span} {last : Applied → Prop}
    (leads : Leads limit (operatorStep (Phrases.within more) least start)
      (SameApplied ⟨first, 0, false⟩) depth mid last depth' rest)
    (same : Keyed Expr.erase first found) (enough : 2 * mid.length + 4 ≤ more)
    (covers : Covers tokens a b start) (past : b ≤ i) (laid : Laid tokens a i [.ofExpr found])
    (placed : i + mid.length + 1 = tokens.length)
    (fails : ∀ done, last done →
      Fails tokens failure limit depth' (operatorStep (Phrases.within more) least start done) rest) :
    Fails tokens failure limit depth (operators (Phrases.within more) found least start) mid := by
  intro s j shows stands
  obtain rfl : i = j := by
    have here := shows.placed stands
    omega
  have course : (Phrases.within more).From tokens i := Phrases.within_from enough placed.ge
  have rounds : Rounds tokens i (operatorStep (Phrases.within more) least start)
      fun j done => Laid tokens a j [.ofExpr done.left] :=
    operatorStep_rounds (course.later (Nat.le_succ i)) covers past least
  obtain ⟨t, ran⟩ :=
    leads.fails rounds fails (v := ⟨found, 0, false⟩) ⟨same, rfl, rfl⟩ laid shows stands
  exact ⟨t, bind_error ran⟩

theorem FailsRounds.weaken {weaker : Nat} (given : FailsRounds tokens failure tier row)
    (less : weaker ≤ tier) : FailsRounds tokens failure weaker row where
  opens := given.opens
  reads enough := by
    obtain ⟨first, others, few, isLeading, fails⟩ := given.reads enough
    exact ⟨first, others, few, isLeading, fun strong => fails (by omega)⟩

/-- An operand fails if what is behind its leading part does. -/
theorem FailsRounds.operand (given : FailsRounds tokens failure tier row) :
    FailsOperand tokens failure tier row where
  opens := given.opens
  fails {limit depth more least} strong enough room := by
    obtain ⟨first, others, few, isLeading, fails⟩ := given.reads enough
    have runs (i : Nat) (placed : i + row.length + 1 = tokens.length) :
        Runs tokens i (leading (Phrases.within more)) fun j e => Laid tokens i j [.ofExpr e] := by
      have course : (Phrases.within more).From tokens i := Phrases.within_from (by omega) placed.ge
      exact leading_runs (course.later (Nat.le_succ i))
    refine .here fun i start placed covers => ?_
    refine .afterRuns (isLeading limit depth room) runs fun j k found same behind laid isFound => ?_
    obtain rfl : i = j := by omega
    exact fails strong (by omega) isFound covers laid.lt laid behind

/-- Where an operator fails, so does the round that applies it. -/
theorem FailsOperator.step (given : FailsOperator tokens failure tier rest) {least : Nat}
    {start : Span} {done : Applied} (strong : least ≤ 2 * tier - 1) (free : 4 ≤ tier → done.afterComparison = false)
    (enough : 8 * rest.length + 15 ≤ more) (room : depth + 2 * rest.length ≤ capOf limit)
    (more' : depth < capOf limit) :
    Fails tokens failure limit depth (operatorStep (Phrases.within more) least start done) rest := by
  refine .step operatorPower_reads (fun i _ => operatorPower_runs) ?_
  rw [given.ahead]
  have strong : ¬ (Power.ofTier tier).left < least := by
    change ¬ 2 * tier - 1 < least
    omega
  have noChain : ¬ (done.afterComparison &&
      decide (Power.comparison.left ≤ (Power.ofTier tier).left)) = true := by
    by_cases high : 4 ≤ tier
    · simp [free high]
    · have weak : ¬ Power.comparison.left ≤ (Power.ofTier tier).left := by
        change ¬ 7 ≤ 2 * tier - 1
        omega
      simp [weak]
  dsimp only
  rw [if_neg strong, if_neg noChain]
  exact .enter more' (given.fails _ start enough (by omega)).bind

/-- An operator that fails makes the operand fail that it would go on with. -/
theorem ReadsLeft.fails {weaker : Nat} (given : ReadsLeft tier row rest)
    (operator : FailsOperator tokens failure tier rest) (tight : weaker ≤ tier) :
    FailsRounds tokens failure weaker (row ++ rest) where
  opens := by
    rw [lead_append_of_ne_nil (nonempty_of_opens given.opens)]
    exact given.opens
  reads {more} enough := by
    have some : rest ≠ [] := by
      rintro rfl
      cases operator.ahead
    have some := List.length_pos_iff.mpr some
    rw [List.length_append] at enough
    obtain ⟨first, others, up, last, few, fewer, free, reads, leads⟩ :=
      given.reads (show 8 * row.length + 16 ≤ more by omega)
    simp only [List.length_append]
    refine ⟨first, others ++ rest, by rw [List.length_append]; omega, fun limit depth room =>
      reads limit depth (by omega),
    fun {limit depth least a b i found start} strong room same covers past laid placed => ?_⟩
    rw [List.length_append] at room placed
    refine (leads limit depth start least (by omega) (by omega)).operators_fail same
      (by rw [List.length_append]; omega) covers past laid (by rw [List.length_append]; omega)
      fun done isLast => ?_
    exact operator.step (by omega) (free done isLast) (by omega) (by omega) (by omega)

/-! ### Left operands -/

/-- A leading part without operators in front, with as many levels as an expression of the tokens
left would leave to it. -/
def Parse.wholePrimary : Parse Expr := do primary (.within (Phrases.boundFor (← get) - 1))

/-- The row is read as a leading part without operators in front. -/
def Expr.IsPrimary (expr : Expr) (row : List Kind) : Prop := Takes wholePrimary row expr

theorem Expr.IsPrimary.readsPrimary {expr : Expr} (isPrimary : expr.IsPrimary row) :
    expr.ReadsPrimary row := by
  obtain ⟨opens, noPrefix⟩ :
      (lead row).opensExpression = true ∧ UnaryOp.ofKind? (lead row) = none := by
    obtain ⟨_, gives⟩ := Gives.still isPrimary fun s => ⟨_, rfl⟩
    exact gives.primary_opens
  have noNot : lead row ≠ .keyword .NOT := by
    intro isNot
    rw [isNot] at noPrefix
    cases noPrefix
  refine ⟨nonempty_of_opens opens, opens, noPrefix,
    fun {limit depth more rest} enough room stops apart => ?_⟩
  have again : Repeats rest (Stops rest) (2 * row.length) (Keyed Expr.erase) wholePrimary
      (primary (Phrases.within more)) row :=
    .belowState (primary_repeats (Phrases.within_repeats enough rest) (Phrases.within_shuns _) id
      noNot)
  exact again.reads isPrimary stops apart room

/-- A text of a tier is read where an operand of the tier is expected. -/
theorem Expr.OperatorText.readsOperand {tier : Nat} {expr : Expr}
    (text : OperatorText IsPrimary tier expr row) : expr.ReadsOperand tier row := by
  obtain ⟨first, begin, others, rounds, rfl, given⟩ :=
    text.reads fun _ _ isPrimary => isPrimary.readsPrimary
  exact given.operand

/-- The row may stand on the left of an operator of the tier. -/
inductive IsLeft (tier : Nat) (row : List Kind) : Prop
  /-- A text of the tier that the operator asks for there. -/
  | text {leftTier : Nat} {left : Expr} (given : Expr.OperatorText Expr.IsPrimary leftTier left row)
    (lower : tier ≤ leftTier) (noChain : 4 ≤ tier → 5 ≤ leftTier)
  /-- Whatever is read in full with the power of `AND` or `OR`. -/
  | takes {left : Expr} (weak : tier ≤ 2) (takes : Takes (operandOfPower (2 * tier - 1)) row left)

theorem ReadsLeft.of_text {leftTier : Nat} {left : Expr}
    (text : Expr.OperatorText Expr.IsPrimary leftTier left row)
    (isAhead : Power.ahead rest = some (.ofTier tier)) (some : 1 ≤ tier) (lower : tier ≤ leftTier)
    (noChain : 4 ≤ tier → 5 ≤ leftTier) : ReadsLeft tier row rest := by
  obtain ⟨first, begin, others, rounds, rfl, given⟩ :=
    text.reads fun _ _ isPrimary => isPrimary.readsPrimary
  have ends : EndsTier leftTier rest := .of_ahead isAhead lower (some.trans lower)
  have taken := List.length_pos_iff.mpr given.nonempty
  have lengths : (begin ++ others).length = begin.length + others.length := List.length_append
  refine ⟨by rw [lead_append_of_ne_nil given.nonempty]; exact given.opens, fun {more} enough => ?_⟩
  refine ⟨first, others, rounds, left.IsApplied leftTier rounds, by omega,
    given.few, fun done isDone high => isDone.free (noChain high), fun limit depth room => ?_,
    fun limit depth start least strong room => ?_⟩
  · rw [List.append_assoc]
    exact given.leading (by omega) (by omega) ends
  · exact fun done s same => given.operators (by omega) (by omega) room ends done s
      ⟨same.left, same.levels, same.afterComparison⟩

theorem ReadsLeft.of_takes {e : Expr} (takes : Takes (operandOfPower (2 * tier - 1)) row e)
    (isAhead : Power.ahead rest = some (.ofTier tier)) (some : 1 ≤ tier) (weak : tier ≤ 2) :
    ReadsLeft tier row rest where
  opens := takes.operand_opens
  reads {more} enough := by
    have low : 2 * tier - 1 < min (2 * tier - 1 + 1) 5 := by omega
    obtain ⟨op, others, rfl, rfl⟩ := BinaryOp.of_ahead isAhead weak
    have closes : Closes (min (2 * op.tier - 1 + 1) 5) (op.kind :: others) := by
      refine ⟨⟨.of_ahead isAhead, fun power isOther => ?_⟩, by cases op <;> simp [BinaryOp.kind]⟩
      cases isAhead.symm.trans isOther
      exact low
    have noPredicate : isNegatable (lead (op.kind :: others)) = false := by cases op <;> rfl
    obtain ⟨first, behind, up, last, few, fewer, reads, leads⟩ :=
      takes.operand_leads enough closes noPredicate (isJoint_of_ahead isAhead)
    exact ⟨first, behind, up, SameApplied last, few, fewer, fun _ _ high => absurd high (by omega),
      reads, leads⟩

theorem IsLeft.reads (given : IsLeft tier row) (isAhead : Power.ahead rest = some (.ofTier tier))
    (some : 1 ≤ tier) : ReadsLeft tier row rest := by
  cases given with
  | text given lower noChain => exact .of_text given isAhead some lower noChain
  | takes weak takes => exact .of_takes takes isAhead some weak

/-! ### Leading parts -/

theorem FailsOperand.weaken {weaker : Nat} (given : FailsOperand tokens failure tier row)
    (less : weaker ≤ tier) : FailsOperand tokens failure weaker row :=
  ⟨given.opens, fun strong enough room => given.fails (by omega) enough room⟩

theorem FailsOperand.of_leading (opens : (lead row).opensExpression = true)
    (fails : ∀ {limit depth more : Nat}, 8 * row.length + 15 ≤ more →
      depth + 2 * row.length ≤ capOf limit →
      Fails tokens failure limit depth (leading (Phrases.within more)) row) :
    FailsOperand tokens failure tier row :=
  ⟨opens, fun _ enough room => .still here_still fun _ => (fails enough room).bind⟩

theorem FailsPrimary.operand (given : FailsPrimary tokens failure row) :
    FailsOperand tokens failure tier row :=
  .of_leading given.opens fun enough room => .still here_still fun _ => .look kind_looks (by
    rw [id, given.noPrefix]
    exact given.fails enough room)

/-- The operand of an operator in front. -/
theorem FailsOperand.unary {op : UnaryOp} (given : FailsOperand tokens failure op.tier row) :
    FailsOperand tokens failure tier (op.kind :: row) := by
  refine .of_leading (by cases op <;> rfl) fun {limit depth more} enough room => ?_
  rw [List.length_cons] at enough room
  obtain ⟨more, rfl⟩ : ∃ fewer, more = fewer + 1 := ⟨more - 1, by omega⟩
  refine .still here_still fun _ => .look kind_looks ?_
  rw [lead_cons, id, op.ofKind?_kind]
  refine .advance (by cases op <;> simp [UnaryOp.kind]) ?_
  exact (Fails.nested (by omega) (given.fails (Nat.le_refl _) (by omega) (by omega))).bind

theorem FailsOperand.expression (given : FailsOperand tokens failure 0 row)
    (enough : 8 * row.length + 16 ≤ more) (room : depth + 2 * row.length + 1 ≤ capOf limit) :
    Fails tokens failure limit depth (Phrases.within more).expression row := by
  obtain ⟨more, rfl⟩ : ∃ fewer, more = fewer + 1 := ⟨more - 1, by omega⟩
  exact .nested (by omega) (given.fails (Nat.zero_le _) (by omega) (by omega))

/-- The first expression in parentheses. -/
theorem FailsOperand.enclosed (given : FailsOperand tokens failure 0 row) :
    FailsPrimary tokens failure (.symbol .leftParen :: row) where
  opens := rfl
  noPrefix := rfl
  fails {limit depth more} enough room := by
    rw [List.length_cons] at enough room
    refine .still here_still fun _ => .look kind_looks ?_
    refine .still here_still fun _ => .expectSign (.look startsQuery_looks ?_)
    rw [noQuery_of_opensExpression given.opens, if_neg (by simp)]
    exact (given.expression (by omega) (by omega)).bind

/-! ### Lists -/

/-- A list begins with its first item. -/
theorem beforeCommas_opens {rows : List (List Kind)}
    (each : ∀ other ∈ rows, (lead other).opensExpression = true)
    (opens : (lead row).opensExpression = true) :
    (lead (beforeCommas rows ++ row)).opensExpression = true := by
  cases rows with
  | nil => exact opens
  | cons first rows =>
    have first := each first List.mem_cons_self
    rw [beforeCommas_cons, lead_append_of_ne_nil (nonempty_of_opens first)]
    exact first

theorem opens_of_takes {rows : List (List Kind)}
    (each : ∀ other ∈ rows, ∃ e, Takes wholeExpression other e) :
    ∀ other ∈ rows, (lead other).opensExpression = true := by
  intro other member
  obtain ⟨e, takes⟩ := each other member
  exact takes.expression_opens

/-- An expression of a list. -/
theorem FailsOperand.expressions (given : FailsOperand tokens failure 0 row)
    {rows : List (List Kind)} (each : ∀ other ∈ rows, ∃ e, Takes wholeExpression other e)
    (enough : 8 * (beforeCommas rows ++ row).length + 16 ≤ more)
    (room : depth + 2 * (beforeCommas rows ++ row).length + 1 ≤ capOf limit) :
    Fails tokens failure limit depth (Phrases.within more).expressions (beforeCommas rows ++ row) := by
  refine expression_item.commaSeparated each (nonempty_of_opens given.opens) (by omega) (by omega)
    (given.expression ?_ ?_) <;>
  · rw [List.length_append] at enough room
    omega

/-- A value of a row in parentheses, behind the first one. -/
theorem FailsOperand.rowValue (given : FailsOperand tokens failure 0 row) {first : List Kind}
    {rows : List (List Kind)} (each : ∀ other ∈ first :: rows, ∃ e, Takes wholeExpression other e) :
    FailsPrimary tokens failure (.symbol .leftParen :: (beforeCommas (first :: rows) ++ row)) where
  opens := rfl
  noPrefix := rfl
  fails {limit depth more} enough room := by
    rw [beforeCommas_cons] at enough room ⊢
    have lengths : (first ++ .symbol .comma :: (beforeCommas rows ++ row)).length =
        first.length + (.symbol .comma :: (beforeCommas rows ++ row)).length := List.length_append
    rw [List.length_cons] at enough room lengths
    obtain ⟨e, takes⟩ := each first List.mem_cons_self
    have opens := takes.expression_opens
    refine .still here_still fun _ => .look kind_looks ?_
    refine .still here_still fun start => .expectSign (.look startsQuery_looks ?_)
    rw [lead_append_of_ne_nil (nonempty_of_opens opens), noQuery_of_opensExpression opens,
      if_neg (by simp)]
    have begins : Reads limit True (Phrases.within more).expression depth
        (first ++ .symbol .comma :: (beforeCommas rows ++ row)) (fun e' => e'.erase = e.erase) depth
        (.symbol .comma :: (beforeCommas rows ++ row)) :=
      takes.expression (by omega) ⟨.of_quiet rfl, by simp⟩ rfl (by omega)
    refine .after begins (fun i placed => ?_) fun found _ => ?_
    · have course : (Phrases.within more).From tokens i := Phrases.within_from (by omega) placed.ge
      exact (expression_runs course.here).passes
    have behind (found : Expr) : Fails tokens failure limit depth
        (afterFirst (Phrases.within more) start found)
        (.symbol .comma :: (beforeCommas rows ++ row)) :=
      .look (atSign_looks _) (.advance (by simp) (given.expressions
        (fun other member => each other (List.mem_cons_of_mem _ member)) (by omega) (by omega)).bind)
    split
    · exact .look continuesQuery_looks (behind _)
    · exact behind _

/-- A value of a row behind `ROW`. -/
theorem FailsOperand.wordedRow (given : FailsOperand tokens failure 0 row) {rows : List (List Kind)}
    (each : ∀ other ∈ rows, ∃ e, Takes wholeExpression other e) :
    FailsPrimary tokens failure
      (.keyword .ROW :: .symbol .leftParen :: (beforeCommas rows ++ row)) where
  opens := rfl
  noPrefix := rfl
  fails {limit depth more} enough room := by
    simp only [List.length_cons] at enough room
    have noClose : lead (beforeCommas rows ++ row) ≠ .symbol .rightParen :=
      Kind.ne_of_opensExpression (beforeCommas_opens (opens_of_takes each) given.opens) rfl
    refine .still here_still fun _ => .look kind_looks ?_
    refine .still here_still fun _ => .advance (by simp) (Fails.bind (.expectSign (.bind ?_)))
    refine .look (atSign_looks _) ?_
    rw [if_neg (by simpa using noClose)]
    exact given.expressions each (by omega) (by omega)

/-! ### Aggregates -/

/-- What begins with the name of an aggregate function and a parenthesis is a call of it. -/
theorem Parse.Fails.call {function : AggregateFunction} {others : List Kind}
    (fails : Fails tokens failure limit depth (aggregate (Phrases.within more) function)
      (.keyword function.word :: .symbol .leftParen :: others)) :
    Fails tokens failure limit depth (primary (Phrases.within more))
      (.keyword function.word :: .symbol .leftParen :: others) := by
  have free : function.word.isReserved = false := by cases function <;> rfl
  refine .still here_still fun _ => .look kind_looks ?_
  change Fails tokens failure limit depth (afterWord (Phrases.within more) function.word) _
  rw [Expr.afterWord_free _ free]
  refine .still here_still fun _ => ?_
  unfold aggregateOrColumn
  rw [AggregateFunction.ofWord?_word]
  exact .peek fails

/-- The argument of an aggregate function. -/
theorem FailsOperand.argument (given : FailsOperand tokens failure 0 row)
    (function : AggregateFunction) (quantifier : Option SetQuantifier) :
    FailsPrimary tokens failure (.keyword function.word :: .symbol .leftParen ::
      (Piece.kinds (Canonical.ofQuantifier quantifier) ++ row)) where
  opens := by cases function <;> rfl
  noPrefix := by cases function <;> rfl
  fails {limit depth more} enough room := by
    simp only [List.length_cons, List.length_append] at enough room
    refine .call (.still here_still fun _ => .advance (by simp) (Fails.bind (.expectSign (.bind ?_))))
    refine .step (setQuantifier_reads quantifier (Kind.ne_of_opensExpression given.opens rfl)
      (Kind.ne_of_opensExpression given.opens rfl)) (fun _ _ => setQuantifier_runs) ?_
    exact (given.expression (by omega) (by omega)).bind

/-- The condition of an aggregate function, behind its argument. -/
theorem FailsOperand.filter (given : FailsOperand tokens failure 0 row)
    (function : AggregateFunction) (quantifier : Option SetQuantifier) {argument : List Kind}
    {e : Expr} (takes : Takes wholeExpression argument e) :
    FailsPrimary tokens failure (.keyword function.word :: .symbol .leftParen ::
      (Piece.kinds (Canonical.ofQuantifier quantifier) ++ (argument ++ .symbol .rightParen ::
        .keyword .FILTER :: .symbol .leftParen :: .keyword .WHERE :: row))) where
  opens := by cases function <;> rfl
  noPrefix := by cases function <;> rfl
  fails {limit depth more} enough room := by
    simp only [List.length_cons, List.length_append] at enough room
    have opens := takes.expression_opens
    rw [← lead_append_of_ne_nil (nonempty_of_opens opens) (.symbol .rightParen ::
      .keyword .FILTER :: .symbol .leftParen :: .keyword .WHERE :: row)] at opens
    refine .call (.still here_still fun _ => .advance (by simp) ?_)
    have inside : Reads limit True (aggregateArgument (Phrases.within more)) depth
        (Piece.kinds (Canonical.ofQuantifier quantifier) ++ (argument ++ .symbol .rightParen ::
          .keyword .FILTER :: .symbol .leftParen :: .keyword .WHERE :: row)) (fun _ => True) depth
        (.symbol .rightParen :: .keyword .FILTER :: .symbol .leftParen :: .keyword .WHERE :: row) := by
      refine (setQuantifier_reads quantifier (Kind.ne_of_opensExpression opens rfl)
        (Kind.ne_of_opensExpression opens rfl)).step ?_
      exact (takes.expression (by omega) ⟨.of_quiet rfl, by simp⟩ rfl (by omega)).after
        fun _ _ => .pure trivial trivial
    refine .after (Reads.parenthesized inside) (fun i placed => ?_) fun found _ => ?_
    · simp only [List.length_cons, List.length_append] at placed
      have course : (Phrases.within more).From tokens (i + 1) :=
        fun k past => (Phrases.within_course more k).2 (by omega)
      have whole : Runs tokens i (parenthesized (aggregateArgument (Phrases.within more)))
          fun _ _ => True :=
        parenthesized_runs ((aggregateArgument_runs course).mono fun _ _ _ _ => trivial)
      exact whole.passes
    · refine Fails.bind (.wordBefore rfl (.advance (by simp) (Fails.bind ?_)))
      exact .expectSign (Fails.bind (.expectWord (given.expression (by omega) (by omega))))

end CanonicalSql
