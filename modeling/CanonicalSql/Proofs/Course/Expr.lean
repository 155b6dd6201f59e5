import CanonicalSql.Grammar.Expr
import CanonicalSql.Proofs.Course.Tail

/-!
# The course of expressions

The operands of an operator lie on both sides of it, and the stretch of the whole runs from where
the leftmost operand was begun, which may be a parenthesis in front of it. The list after `IN` is
the one node whose stretch reaches beyond the tokens that were taken for it: it runs up to the
closing parenthesis, which is in sight and is taken next.
-/
namespace CanonicalSql

/-- A stretch that runs from an earlier token up to one that is in sight. -/
theorem Covers.mergeBack {tokens : List Token} {failure : Option LexError} {a i : Nat}
    {opening closing : Span} (opens : Covers tokens a (a + 1) opening)
    (closes : Covers tokens i (i + 1) closing) (flows : Flows tokens failure) (before : a < i)
    (proper : kindAt tokens i ≠ .endOfInput) : Covers tokens a (i + 1) (closing.merge opening) := by
  obtain ⟨first, first', -, isFirst, isFirst', rfl⟩ := opens
  obtain ⟨last, last', -, isLast, isLast', rfl⟩ := closes
  obtain rfl : first = first' := Option.some.inj (isFirst.symm.trans isFirst')
  obtain rfl : last = last' := Option.some.inj (isLast.symm.trans isLast')
  have later := flows.later isFirst isLast before
  have inRange := (List.getElem?_eq_some_iff.mp isLast).1
  have someFirst := flows.proper first (List.mem_of_getElem? isFirst)
    (flows.kind_ne isFirst (by omega))
  have someLast := flows.proper last (List.mem_of_getElem? isLast) (by
    rw [kindAt, isLast] at proper
    exact proper)
  refine ⟨first, last, by omega, isFirst, isLast, ?_⟩
  simp only [Span.merge]
  rw [if_neg (by omega), if_pos (by omega)]

namespace Parse

variable {tokens : List Token} {i a b : Nat} {phrases : Phrases} {start : Span} {left : Expr}

/-! ## Names, aggregates and parentheses -/

theorem column_runs : Runs tokens i column fun j expr => Laid tokens i j [.ofExpr expr] := by
  refine .here fun start begins => .identifier fun first => ?_
  have rounds : Rounds tokens (i + 1) columnPart fun j _ => i < j := by
    rintro k ⟨parts, star⟩ past some
    cases star with
    | true => exact .pure ⟨fun _ => some, by simp⟩
    | false =>
      refine .takeSign rfl (fun _ => ?_) (.pure ⟨fun _ => some, by simp⟩)
      refine .takeSign rfl (fun _ => .pure ⟨by simp, fun _ _ => ⟨by omega, by omega⟩⟩) ?_
      exact .identifier fun part => .pure ⟨by simp, fun _ _ => ⟨by omega, by omega⟩⟩
  refine (rounds.loop (Nat.lt_succ_self i)).bind fun found j _ some => ?_
  obtain ⟨parts, star⟩ := found
  have leaf {f : Span → Expr} (isLeaf : ∀ span, Extent.ofExpr (f span) = .node span []) :
      Runs tokens j (do return f (← spanFrom start))
        fun j expr => Laid tokens i j [.ofExpr expr] :=
    .spanFrom begins some fun span covers => .pure (isLeaf span ▸ .leaf covers)
  refine .ite (fun _ => leaf fun _ => rfl) fun _ => ?_
  exact .look (atSign_looks _) (.ite (fun _ => fail_runs _) fun _ => leaf fun _ => rfl)

theorem aggregateArgument_runs (course : phrases.From tokens i) :
    Runs tokens i (aggregateArgument phrases) fun j found => Laid tokens i j [.ofExpr found.2] := by
  refine setQuantifier_runs.andThen fun quantifier j past => ?_
  exact (expression_runs (course.later past).here).bind fun argument m _ laid =>
    .pure (laid.mono past (Nat.le_refl m))

theorem whereCondition_runs (course : phrases.From tokens (i + 1)) :
    Runs tokens i (whereCondition phrases) fun j expr => Laid tokens i j [.ofExpr expr] :=
  .expectWord ((expression_runs course.here).mono fun _ _ _ laid =>
    laid.mono (Nat.le_succ i) (Nat.le_refl _))

theorem aggregateFilter_runs (course : phrases.From tokens (i + 1)) :
    Runs tokens i (aggregateFilter phrases)
      fun j filter => Laid tokens i j (Extent.ofOption filter) := by
  refine .atWordBefore (fun here _ => ?_) (.pure (.nil (Nat.le_refl i)))
  refine .advance (by rw [here]; rfl) ?_
  have condition : Runs tokens (i + 1) (parenthesized (whereCondition phrases))
      fun j expr => Laid tokens i j [.ofExpr expr] :=
    parenthesized_runs ((whereCondition_runs (course.later (by omega))).mono fun _ _ _ laid =>
      laid.mono (by omega) (by omega))
  exact condition.bind fun _ _ _ laid => .pure laid

theorem aggregate_runs (course : phrases.From tokens (i + 1)) (function : AggregateFunction)
    (named : (kindAt tokens i).endsStatement = false) :
    Runs tokens i (aggregate phrases function) fun j expr => Laid tokens i j [.ofExpr expr] := by
  refine .here fun start begins => .advance named ?_
  have argument : Runs tokens (i + 1) (parenthesized (aggregateArgument phrases))
      fun j found => Laid tokens i j [.ofExpr found.2] :=
    parenthesized_runs ((aggregateArgument_runs (course.later (by omega))).mono fun _ _ _ laid =>
      laid.mono (by omega) (by omega))
  refine argument.bind fun found j past laidArgument => ?_
  obtain ⟨quantifier, argument⟩ := found
  refine (aggregateFilter_runs (course.later (by omega))).bind fun filter m _ laidFilter => ?_
  exact .spanFrom begins (by omega) fun span covers =>
    .pure (.node covers (laidArgument.append laidFilter))

theorem rowValues_runs (course : phrases.From tokens i) :
    Runs tokens i (rowValues phrases) fun j values => Laid tokens i j (Extent.ofExprs values) := by
  refine .look (atSign_looks _) (.ite (fun _ => .pure (.nil (Nat.le_refl i))) fun _ => ?_)
  exact (expressions_runs course).mono fun _ _ _ laid => laid.2

theorem afterFirst_runs (course : phrases.From tokens (i + 1)) (begins : Covers tokens a b start)
    (past : b ≤ i) {first : Expr} (laid : Laid tokens a i [.ofExpr first]) :
    Runs tokens i (afterFirst phrases start first) fun j expr => Laid tokens a j [.ofExpr expr] := by
  refine .look (atSign_looks _) (.ite (fun comma => ?_) fun _ => ?_)
  · refine .advance (by rw [of_decide_eq_true comma]; rfl) ?_
    refine (expressions_runs course).bind fun rest j further laidRest => .expectSign rfl ?_
    refine .spanFrom begins (by omega) fun span covers => .pure (.node covers ?_)
    exact laid.append (laidRest.2.mono (by omega) (by omega))
  · exact .expectSign rfl (.pure (laid.mono (Nat.le_refl a) (by omega)))

theorem inParentheses_runs (course : phrases.From tokens (i + 1)) :
    Runs tokens i (inParentheses phrases) fun j expr => Laid tokens i j [.ofExpr expr] := by
  refine .here fun start begins => .expectSign rfl (.look startsQuery_looks (.ite (fun _ => ?_) fun _ => ?_))
  · refine course.here.query.bind fun query j past laid => .expectSign rfl ?_
    exact .spanFrom begins (by omega) fun span covers =>
      .pure (.node covers (laid.mono (by omega) (by omega)))
  · refine (expression_runs course.here).bind fun found j past laid => ?_
    have laid : Laid tokens i j [.ofExpr found] := laid.mono (by omega) (Nat.le_refl j)
    split
    · next query span laid =>
      refine .look continuesQuery_looks (.ite (fun _ => ?_) fun _ => ?_)
      · have inner : Laid tokens i j [.ofQuery query] :=
          laid.of_mem_parts (by simp [Extent.ofExpr, Extent.parts])
        refine (reopened_runs (course.later past) begins past inner).bind
          fun longer m further laidLonger => .expectSign rfl ?_
        exact .spanFrom begins (by omega) fun span covers =>
          .pure (.node covers (laidLonger.mono (by omega) (by omega)))
      · exact afterFirst_runs (course.later (by omega)) begins past laid
    · exact afterFirst_runs (course.later (by omega)) begins past laid

/-! ## Leading parts -/

theorem wordAsColumn_runs (word : Keyword) :
    Runs tokens i (wordAsColumn word) fun j expr => Laid tokens i j [.ofExpr expr] :=
  .ite (fun _ => unexpected_runs _) fun _ => column_runs

theorem aggregateOrColumn_runs (course : phrases.From tokens (i + 1)) (word : Keyword)
    (named : (kindAt tokens i).endsStatement = false) :
    Runs tokens i (aggregateOrColumn phrases word)
      fun j expr => Laid tokens i j [.ofExpr expr] := by
  unfold aggregateOrColumn
  split
  · exact .peek (.ite (fun _ => aggregate_runs course _ named) fun _ => wordAsColumn_runs _)
  · exact wordAsColumn_runs _

theorem parenthesizedQuery_runs (course : phrases.From tokens (i + 1)) :
    Runs tokens i (parenthesized phrases.query) fun j query => Laid tokens i j [.ofQuery query] :=
  parenthesized_runs (course.here.query.mono fun _ _ _ laid => laid.mono (by omega) (by omega))

theorem afterWord_runs (course : phrases.From tokens (i + 1)) (word : Keyword)
    (named : (kindAt tokens i).endsStatement = false) :
    Runs tokens i (afterWord phrases word) fun j expr => Laid tokens i j [.ofExpr expr] := by
  refine .here fun start begins => ?_
  have query {f : Query → Span → Expr}
      (isNode : ∀ query span, Extent.ofExpr (f query span) = .node span [.ofQuery query]) :
      Runs tokens (i + 1) (do let query ← parenthesized phrases.query
                              return f query (← spanFrom start))
        fun j expr => Laid tokens i j [.ofExpr expr] := by
    refine (parenthesizedQuery_runs (course.later (by omega))).bind fun query j past laid => ?_
    refine .spanFrom begins (by omega) fun span covers => .pure ?_
    rw [isNode]
    exact .node covers (laid.mono (by omega) (Nat.le_refl j))
  split
  · exact .advance named (.pure (.leaf begins))
  · split
    · exact .advance named (.pure (.leaf begins))
    · exact .advance named (query fun _ _ => rfl)
    · exact .advance named (query fun _ _ => rfl)
    · refine .advance named ?_
      have values : Runs tokens (i + 1) (parenthesized (rowValues phrases))
          fun j values => Laid tokens (i + 1) j (Extent.ofExprs values) :=
        parenthesized_runs ((rowValues_runs (course.later (by omega))).mono fun _ _ _ laid =>
          laid.mono (by omega) (by omega))
      refine values.bind fun values j past laid => ?_
      exact .spanFrom begins (by omega) fun span covers =>
        .pure (.node covers (laid.mono (by omega) (Nat.le_refl j)))
    · exact aggregateOrColumn_runs course _ named

theorem primary_runs (course : phrases.From tokens (i + 1)) :
    Runs tokens i (primary phrases) fun j expr => Laid tokens i j [.ofExpr expr] := by
  refine .here fun start begins => .look kind_looks ?_
  have leaf {expr : Expr} (isLeaf : Extent.ofExpr expr = .node start [])
      (some : (kindAt tokens i).endsStatement = false) :
      Runs tokens i (do advance; return expr) fun j expr => Laid tokens i j [.ofExpr expr] :=
    .advance some (.pure (isLeaf ▸ .leaf begins))
  split
  · next isKind => exact leaf rfl (congrArg Kind.endsStatement isKind)
  · next isKind => exact leaf rfl (congrArg Kind.endsStatement isKind)
  · next isKind => exact leaf rfl (congrArg Kind.endsStatement isKind)
  · next isKind => exact leaf rfl (congrArg Kind.endsStatement isKind)
  · exact inParentheses_runs course
  · next isKind => exact afterWord_runs course _ (congrArg Kind.endsStatement isKind)
  · exact column_runs
  · exact unexpected_runs _

theorem leading_runs (course : phrases.From tokens (i + 1)) :
    Runs tokens i (leading phrases) fun j expr => Laid tokens i j [.ofExpr expr] := by
  refine .here fun start begins => .look kind_looks ?_
  split
  · next op power isOp =>
    refine .advance (Kind.inner_of_some UnaryOp.ofKind? isOp rfl rfl) ?_
    refine (course.here.operand power).nested.bind fun operand j past laid => ?_
    exact .spanFrom begins (by omega) fun span covers =>
      .pure (.node covers (laid.mono (by omega) (Nat.le_refl j)))
  · exact primary_runs course

/-! ## Predicates -/

theorem negated_runs (begins : Covers tokens a b start) (past : b ≤ i) {operand : Expr}
    (laid : Laid tokens a i [.ofExpr operand]) :
    Runs tokens i (negated operand start) fun j expr => Laid tokens a j [.ofExpr expr] :=
  .spanFrom begins past fun _ covers => .pure (.node covers laid)

theorem testedValue_runs : Passes tokens i testedValue := by
  refine .look word?_looks ?_
  split
  · next isWord => exact .advanceWord isWord (.pure trivial)
  · next isWord => exact .advanceWord isWord (.pure trivial)
  · next isWord => exact .advanceWord isWord (.pure trivial)
  · next isWord => exact .advanceWord isWord (.pure trivial)
  · exact unexpected_runs _

theorem symmetric_runs : Passes tokens i symmetric :=
  .takeWord (.pure trivial) (.takeWord (.pure trivial) (.pure trivial))

/-- What follows an expression that lies from the `a`-th token on makes it a longer one. -/
def Extends (tokens : List Token) (a i : Nat) (p : Parse Expr) : Prop :=
  Runs tokens i p fun j expr => i < j ∧ Laid tokens a j [.ofExpr expr]

theorem isTest_runs (begins : Covers tokens a b start) (past : b ≤ i)
    (laid : Laid tokens a i [.ofExpr left]) : Extends tokens a i (isTest left start) := by
  refine .expectWord (((takeWord_runs _).mono fun _ _ _ _ => trivial).andThen fun negative j _ => ?_)
  refine testedValue_runs.andThen fun value m _ => ?_
  refine .spanFrom begins (by omega) fun span covers => ?_
  have laid : Laid tokens a m [.ofExpr left] := laid.mono (Nat.le_refl a) (by omega)
  have tested {test : Expr} (laid : Laid tokens a m [.ofExpr test]) :
      Runs tokens m (if negative then negated test start else return test)
        fun j expr => i < j ∧ Laid tokens a j [.ofExpr expr] := by
    refine .ite (fun _ => ?_) fun _ => .pure ⟨by omega, laid⟩
    exact (negated_runs begins (by omega) laid).mono fun _ _ _ laid => ⟨by omega, laid⟩
  cases value with
  | none => exact tested (.node covers laid)
  | some value => exact tested (.node covers laid)

theorem listedValues_runs {opening : Span} {values : List Expr} {o : Nat}
    (opens : Covers tokens o (o + 1) opening) (before : o < i)
    (laid : Laid tokens o i (Extent.ofExprs values)) :
    Runs tokens i (listedValues opening values) fun j rows =>
      kindAt tokens j = .symbol .rightParen → Laid tokens o (j + 1) [.ofRel rows] := by
  refine .flowing fun failure flows => .here fun closing closes => .pure fun isClosing => ?_
  have covers := opens.mergeBack closes flows before (by rw [isClosing]; simp)
  exact .node covers (laid.mono (Nat.le_refl o) (by omega))

theorem inRows_runs (course : phrases.From tokens i) {opening : Span} {o : Nat}
    (opens : Covers tokens o (o + 1) opening) (before : o < i) :
    Runs tokens i (inRows phrases opening) fun j rows =>
      kindAt tokens j = .symbol .rightParen → Laid tokens o (j + 1) [.ofRel rows] := by
  refine .look startsQuery_looks (.ite (fun _ => ?_) fun _ => .here fun start begins => ?_)
  · exact course.here.query.bind fun query j _ laid =>
      .pure fun _ => laid.mono (by omega) (by omega)
  · refine (expressions_runs course).bind fun values j past laid => ?_
    obtain ⟨some, laid⟩ := laid
    have listed : Runs tokens j (listedValues opening values) fun j rows =>
        kindAt tokens j = .symbol .rightParen → Laid tokens o (j + 1) [.ofRel rows] :=
      listedValues_runs opens (by omega) (laid.mono (by omega) (Nat.le_refl j))
    split
    · next query span =>
      refine .look continuesQuery_looks (.ite (fun _ => ?_) fun _ => listed)
      have inner : Laid tokens i j [.ofQuery query] :=
        laid.of_mem_parts (by simp [Extent.ofExpr, Extent.parts])
      exact (reopened_runs (course.later past) begins (by omega) inner).bind
        fun longer m _ laidLonger => .pure fun _ => laidLonger.mono (by omega) (by omega)
    · exact listed

theorem predicateOperand_runs (course : phrases.Course tokens i) :
    Runs tokens i (predicateOperand phrases) fun j expr => Laid tokens i j [.ofExpr expr] :=
  course.operand _

theorem likeEscape_runs (course : phrases.From tokens (i + 1)) :
    Runs tokens i (likeEscape phrases) fun j escape => Laid tokens i j (Extent.ofOption escape) := by
  refine .takeWord ?_ (.pure (.nil (Nat.le_refl i)))
  exact (predicateOperand_runs course.here).bind fun _ j _ laid =>
    .pure (laid.mono (by omega) (Nat.le_refl j))

theorem predicate_runs (course : phrases.From tokens (i + 1)) (begins : Covers tokens a b start)
    (past : b ≤ i) (laid : Laid tokens a i [.ofExpr left]) :
    Extends tokens a i (predicate phrases left start) := by
  refine .look word?_looks ?_
  split
  · next isWord =>
    refine .advanceWord isWord (symmetric_runs.andThen fun symmetric j _ => ?_)
    refine (predicateOperand_runs (course.later (by omega)).here).bind fun low m _ laidLow => ?_
    refine .expectWord ?_
    refine (predicateOperand_runs (course.later (by omega)).here).bind fun high n _ laidHigh => ?_
    refine .spanFrom begins (by omega) fun span covers => .pure ⟨by omega, .node covers ?_⟩
    have low := laid.append (laidLow.mono (i := i) (by omega) (Nat.le_refl m))
    exact low.append (laidHigh.mono (Nat.le_succ m) (Nat.le_refl n))
  · next isWord =>
    refine .advanceWord isWord (.here fun opening opens => .expectSign rfl ?_)
    refine (inRows_runs (course.later (by omega)) opens (by omega)).bind fun rows j _ laidRows => ?_
    refine (expectSign_runs rfl).bind fun _ m _ closes => ?_
    obtain ⟨rfl, isClosing⟩ := closes
    refine .spanFrom begins (by omega) fun span covers => .pure ⟨by omega, .node covers ?_⟩
    exact laid.append ((laidRows isClosing).mono (Nat.le_succ i) (Nat.le_refl _))
  · next isWord =>
    refine .advanceWord isWord ?_
    refine (predicateOperand_runs course.here).bind fun pattern j _ laidPattern => ?_
    refine (likeEscape_runs (course.later (by omega))).bind fun escape m _ laidEscape => ?_
    refine .spanFrom begins (by omega) fun span covers => .pure ⟨by omega, .node covers ?_⟩
    have pattern := laid.append (laidPattern.mono (Nat.le_succ i) (Nat.le_refl j))
    exact pattern.append laidEscape
  · exact unexpected_runs _

/-! ## Operators that follow -/

theorem Runs.operatorPower {β : Type} {f : Option Power → Parse β} {better : Nat → β → Prop}
    (next : ∀ power, Runs tokens i (f power) better) :
    Runs tokens i (operatorPower >>= f) better := by
  have first : Runs tokens i Parse.operatorPower fun j _ => j = i := by
    refine .look (atWord_looks _) (.ite (fun _ => ?_) fun _ => ?_)
    · exact .peek (.pure rfl)
    · exact .look kind_looks (.pure rfl)
  exact first.bind fun power j _ same => by
    rw [same]
    exact next power

theorem binary_runs (course : phrases.From tokens (i + 1)) (begins : Covers tokens a b start)
    (past : b ≤ i) (laid : Laid tokens a i [.ofExpr left]) (power : Nat) :
    Extends tokens a i (binary phrases left power start) := by
  refine .look kind_looks ?_
  split
  · next op isOp =>
    refine .advance (Kind.inner_of_some BinaryOp.ofKind? isOp rfl rfl) ?_
    refine (course.here.operand power).bind fun right j _ laidRight => ?_
    refine .spanFrom begins (by omega) fun span covers => .pure ⟨by omega, .node covers ?_⟩
    exact laid.append (laidRight.mono (Nat.le_succ i) (Nat.le_refl j))
  · exact unexpected_runs _

theorem applied_runs (course : phrases.From tokens (i + 1)) (begins : Covers tokens a b start)
    (past : b ≤ i) (laid : Laid tokens a i [.ofExpr left]) (power : Nat) :
    Extends tokens a i (applied phrases left power start) := by
  refine .look word?_looks ?_
  split
  · next isWord =>
    refine .advanceWord isWord (qualifiedName_runs.bind fun collation j _ some => ?_)
    exact .spanFrom begins (by omega) fun span covers =>
      .pure ⟨by omega, .node covers (laid.mono (Nat.le_refl a) (by omega))⟩
  · exact isTest_runs begins past laid
  · next isWord =>
    refine .advanceWord isWord ?_
    have laid : Laid tokens a (i + 1) [.ofExpr left] := laid.mono (Nat.le_refl a) (Nat.le_succ i)
    refine (predicate_runs (course.later (by omega)) begins (by omega) laid).bind
      fun test j _ laidTest => ?_
    exact (negated_runs begins (by omega) laidTest.2).mono fun _ _ _ laid => ⟨by omega, laid⟩
  · exact predicate_runs course begins past laid
  · exact predicate_runs course begins past laid
  · exact predicate_runs course begins past laid
  · exact binary_runs course begins past laid power

/-- Each operator takes the token that it is, and what it gives lies where it was begun. -/
theorem operatorStep_rounds (course : phrases.From tokens (i + 1)) (begins : Covers tokens a b start)
    (past : b ≤ i) (least : Nat) :
    Rounds tokens i (operatorStep phrases least start)
      fun j done => Laid tokens a j [.ofExpr done.left] := by
  intro k done further laid
  refine .operatorPower fun power => ?_
  cases power with
  | none => exact .pure ⟨fun _ => laid, by simp⟩
  | some power =>
    refine .ite (fun _ => .pure ⟨fun _ => laid, by simp⟩) fun _ => .ite (fun _ => ?_) fun _ => ?_
    · exact .look kind_looks (fail_runs _)
    · refine .enter ?_
      refine (applied_runs (course.later (by omega)) begins (by omega) laid _).bind
        fun expr j _ laidExpr => .pure ⟨by simp, ?_⟩
      rintro more ⟨⟩
      exact laidExpr

theorem operators_runs (course : phrases.From tokens (i + 1)) (begins : Covers tokens a b start)
    (past : b ≤ i) (laid : Laid tokens a i [.ofExpr left]) (least : Nat) :
    Runs tokens i (operators phrases left least start)
      fun j expr => Laid tokens a j [.ofExpr expr] :=
  ((operatorStep_rounds course begins past least).loop laid).bind fun _ _ _ laid =>
    .leave (.pure laid)

theorem operand_runs (course : phrases.From tokens (i + 1)) (least : Nat) :
    Runs tokens i (operand phrases least) fun j expr => Laid tokens i j [.ofExpr expr] := by
  refine .here fun start begins => (leading_runs course).bind fun left j _ laid => ?_
  have some := laid.lt
  exact operators_runs (course.later (by omega)) begins (by omega) laid least

end Parse

end CanonicalSql
