import CanonicalSql.Proofs.Elsewhere.Tail
import CanonicalSql.Proofs.Reading.Expr

/-!
# Expressions elsewhere

Names, aggregates, what stands in parentheses, and the operators that follow an expression.
-/
namespace CanonicalSql

theorem Kind.eq_of_word? {kind : Kind} {word : Keyword} (isWord : kind.word? = some word) :
    kind = .keyword word := by
  cases kind with
  | keyword other => exact congrArg Kind.keyword (Option.some.inj isWord)
  | _ => cases isWord

/-- What is the same as a subquery is one. -/
theorem Expr.eq_subquery {query : Query} {span : Span} {expr : Expr}
    (same : expr.erase = (Expr.subquery query span).erase) :
    ∃ query' span', expr = .subquery query' span' ∧ query'.erase = query.erase := by
  cases expr with
  | subquery query' span' => exact ⟨query', span', rfl, (Expr.subquery.inj same).1⟩
  | _ => cases same

/-- What is the same as a list of one expression is one. -/
theorem Expr.eq_single {expr : Expr} {exprs : List Expr}
    (same : Expr.eraseAll exprs = Expr.eraseAll [expr]) :
    ∃ expr', exprs = [expr'] ∧ expr'.erase = expr.erase := by
  match exprs with
  | [] => cases same
  | [expr'] => exact ⟨expr', rfl, (List.cons.inj same).1⟩
  | _ :: _ :: _ => exact absurd (List.cons.inj same).2 (List.cons_ne_nil _ _)

theorem Power.right_of_ofKind? {kind : Kind} {power : Power}
    (isPower : Power.ofKind? kind = some power) : power.right = power.left + 1 := by
  unfold Power.ofKind? at isPower
  split at isPower <;> first | (cases isPower; rfl) | cases isPower

theorem Power.right_of_ahead {kinds : List Kind} {power : Power}
    (isAhead : Power.ahead kinds = some power) : power.right = power.left + 1 := by
  unfold Power.ahead at isAhead
  split at isAhead
  · split at isAhead
    · cases isAhead
      rfl
    · cases isAhead
  · exact Power.right_of_ofKind? isAhead

/-- An operator is the same one in front of other tokens. -/
theorem Power.ahead_append_of_some {kinds rest : List Kind} {power : Power}
    (isAhead : Power.ahead kinds = some power) : Power.ahead (kinds ++ rest) = some power := by
  match kinds with
  | [] => cases isAhead
  | [kind] =>
    have other : kind ≠ .keyword .NOT := by
      rintro rfl
      cases isAhead
    simpa [Power.ahead, other] using isAhead
  | kind :: other :: more => exact isAhead

/-- The operators in front of an operand bind their operands with the powers 5 and 15. -/
theorem UnaryOp.power_le {kind : Kind} {op : UnaryOp} {power : Nat}
    (isOp : UnaryOp.ofKind? kind = some (op, power)) : 5 ≤ power := by
  unfold UnaryOp.ofKind? at isOp
  split at isOp <;> simp at isOp <;> omega

namespace Parse

variable {phrases phrases' : Phrases} {rest row : List Kind} {ends : Prop} {need : Nat}

/-- Elsewhere the same operator follows, unless the row has come to its end. -/
theorem Meets.ahead_append {left : List Kind} (meets : Meets rest ends left) (opens : row ≠ [])
    (shorter : left <:+ row) (last : left = [] → row.getLast? ≠ some (.keyword .NOT)) :
    Power.ahead (row ++ rest) = Power.ahead row := by
  match row with
  | [] => exact absurd rfl opens
  | [kind] =>
    by_cases isNot : kind = .keyword .NOT
    · subst isNot
      rcases List.suffix_cons_iff.mp shorter with rfl | none
      · have none : isNegatable .endOfInput = false := rfl
        simp [Power.ahead, meets.before rfl, none]
      · exact absurd rfl (last (List.suffix_nil.mp none))
    · simp [Power.ahead, isNot]
  | kind :: other :: more => rfl

/-! ## Names and aggregates -/

theorem column_repeats (stops : ends → Stops rest) :
    Repeats rest ends (2 * row.length) (Keyed Expr.erase) column column row := by
  have part (done done' : List Name × Bool) (left : List Kind) (same : done = done') :
      Repeats rest ends (2 * left.length + 0) (Option.Rel Eq) (columnPart done) (columnPart done')
        left := by
    subst same
    obtain ⟨parts, _ | _⟩ := done
    · refine .takeSign (.inl (stops · |>.dot)) (fun more _ => ?_) fun _ => .done .none
      refine .takeSign (.inr (Refuses.identifier.bind _)) (fun _ _ => .done (.some rfl)) fun _ => ?_
      exact .after identifier_repeats fun name _ _ same _ =>
        .done (.some (by rw [same]))
    · exact .done .none
  refine .still here_still here_still fun start start' => ?_
  refine .after identifier_repeats fun name _ left same few => ?_
  subst same
  refine .bind ((loop_repeats 0 rfl fun v w more same _ => part v w more same).within id
    (by omega)) id fun parts _ more same _ => ?_
  subst same
  refine .ite (fun _ => ?_) fun _ => ?_
  · exact .still (spanFrom_still _) (spanFrom_still _) fun _ _ => .done rfl
  · refine .look (atSign_looks _) (fun _ holds => by simp [(stops holds).paren]) (.ite
      (fun _ => .vacuous fun s a t _ run => by cases run) fun _ => ?_)
    exact .still (spanFrom_still _) (spanFrom_still _) fun _ _ => .done rfl

theorem wordAsColumn_repeats (stops : ends → Stops rest) (word : Keyword) (row : List Kind) :
    Repeats rest ends (2 * row.length) (Keyed Expr.erase) (wordAsColumn word) (wordAsColumn word)
      row :=
  .ite (fun _ => .unexpected _) fun _ => column_repeats stops

theorem primary_refuses : Refuses (primary phrases) :=
  .still here_still fun _ => .look kind_looks (.unexpected _)

theorem leading_refuses : Refuses (leading phrases) :=
  .still here_still fun _ => .look kind_looks primary_refuses

theorem afterFirst_refuses (start : Span) (first : Expr) : Refuses (afterFirst phrases start first) :=
  .look (atSign_looks _) ((Refuses.expectSign _).bind _)

section

variable (below : phrases.Repeats phrases' rest)
include below

theorem aggregateArgument_repeats (row : List Kind) :
    Repeats rest False (2 * row.length + 1)
      (fun one other => other.1 = one.1 ∧ other.2.erase = one.2.erase)
      (aggregateArgument phrases) (aggregateArgument phrases') row := by
  refine .bind (setQuantifier_repeats False.elim False.elim) id fun quantifier _ left same few => ?_
  exact .bind ((expression_repeats below left).within False.elim (by omega)) id
    fun e e' _ same₁ _ => .done ⟨same.symm, same₁⟩

theorem whereCondition_repeats (row : List Kind) :
    Repeats rest False (2 * row.length) (Keyed Expr.erase) (whereCondition phrases)
      (whereCondition phrases') row := by
  refine .expectWord (by simp) fun left isRow => (expression_repeats below left).within False.elim ?_
  rw [isRow, List.length_cons]
  omega

theorem aggregateFilter_repeats (stops : ends → Stops rest) (row : List Kind) :
    Repeats rest ends (2 * row.length) (Keyed Expr.eraseOption) (aggregateFilter phrases)
      (aggregateFilter phrases') row := by
  refine .atWordBefore (fun _ holds => (stops holds).filter) ?_ (fun more isRow _ => ?_)
    fun _ => .done rfl
  · exact fun _ meets => by simp [meets.ne (.symbol .leftParen) rfl]
  · subst isRow
    refine .advance (fun _ => .inl (by simp)) ?_
    refine .after (parenthesized_repeats fun left isMore => ?_)
      fun e e' _ same _ => .done (congrArg some same)
    refine (whereCondition_repeats below left).within id ?_
    rw [isMore, List.length_cons, List.length_cons]
    omega

theorem aggregate_repeats (stops : ends → Stops rest)
    (function : AggregateFunction) {word : Keyword} (other : word ≠ .NOT) (left : List Kind) :
    Repeats rest ends (2 * (left.length + 1)) (Keyed Expr.erase) (aggregate phrases function)
      (aggregate phrases' function) (.keyword word :: left) := by
  refine .still here_still here_still fun start start' => ?_
  refine .advance (fun _ => .inl (by simpa using other)) ?_
  refine .after (parenthesized_repeats fun inner isLeft =>
    (aggregateArgument_repeats below inner).within id ?_)
    fun (quantifier, argument) (quantifier', argument') more same few => ?_
  · rw [isLeft, List.length_cons]
    omega
  refine .bind ((aggregateFilter_repeats below stops more).within id (by omega)) id
    fun filter filter' _ same₁ _ => ?_
  refine .still (spanFrom_still _) (spanFrom_still _) fun _ _ => .done ?_
  obtain ⟨rfl, same⟩ := same
  simp only [Keyed] at same₁
  simp [Keyed, Expr.erase, same, same₁]

theorem rowValues_repeats (row : List Kind) :
    Repeats rest False (2 * row.length + 1) (Keyed Expr.eraseAll) (rowValues phrases)
      (rowValues phrases') row :=
  .look (atSign_looks _) (fun _ => False.elim) (.ite (fun _ => .done rfl)
    fun _ => expressions_repeats below False.elim False.elim row)

theorem afterFirst_repeats {start start' : Span} {first first' : Expr}
    (same : Keyed Expr.erase first first') (row : List Kind) :
    Repeats rest ends (2 * row.length) (Keyed Expr.erase) (afterFirst phrases start first)
      (afterFirst phrases' start' first') row := by
  refine .lookInside (atSign_looks _) (Refuses.expectSign _ |>.bind _) fun opens => .ite
    (fun isComma => ?_) fun _ => .expectSign fun _ _ => .done same
  obtain ⟨left, rfl⟩ := eq_cons_of_lead (of_decide_eq_true isComma) (by simp)
  refine .advance (fun _ => .inl (by simp)) ?_
  refine .inside ((expressions_repeats below False.elim False.elim left).within id ?_)
    (fun _ => (Refuses.expectSign _).bind _) fun these those _ same₁ _ => ?_
  · simp only [List.length_cons]
    omega
  refine .expectSign fun _ _ => .still (spanFrom_still _) (spanFrom_still _) fun _ _ => .done ?_
  simp only [Keyed] at same same₁
  simp [Keyed, Expr.erase, Expr.eraseAll, same, same₁]

theorem inParentheses_repeats (shuns : phrases.Shuns) (row : List Kind) :
    Repeats rest ends (2 * row.length) (Keyed Expr.erase) (inParentheses phrases)
      (inParentheses phrases') row := by
  refine .still here_still here_still fun start start' => .expectSign fun left isRow => ?_
  have few : left.length + 1 = row.length := by rw [isRow, List.length_cons]
  clear isRow
  have query_closes {p : Parse Query} {q : Parse Query} (inner : List Kind)
      (read : Repeats rest False (2 * inner.length + 1) (Keyed Query.erase) p q inner)
      (less : inner.length + 1 ≤ row.length) :
      Repeats rest ends (2 * row.length) (Keyed Expr.erase)
        (do let query ← p; expectSign .rightParen; return .subquery query (← spanFrom start))
        (do let query ← q; expectSign .rightParen; return .subquery query (← spanFrom start'))
        inner := by
    refine .inside (read.within id (by omega)) (fun _ => (Refuses.expectSign _).bind _)
      fun query query' _ same _ => ?_
    refine .expectSign fun _ _ => .still (spanFrom_still _) (spanFrom_still _) fun _ _ => .done ?_
    exact congrArg (Expr.subquery · default) same
  refine .lookInside startsQuery_looks ?_ fun opens => .ite (fun _ => ?_) fun _ => ?_
  · exact shuns.expression.bind _
  · exact query_closes left ((below.query left).within False.elim (Nat.le_refl _)) (by omega)
  · refine .inside ((expression_repeats below left).within False.elim (by omega)) (fun first => ?_)
      fun first first' more same fewer => ?_
    · split
      · exact .look continuesQuery_looks (afterFirst_refuses start _)
      · exact afterFirst_refuses start first
    · have ending {first first' : Expr} (same : Keyed Expr.erase first first') :
          Repeats rest ends (2 * row.length) (Keyed Expr.erase) (afterFirst phrases start first)
            (afterFirst phrases' start' first') more :=
        (afterFirst_repeats below same more).within id (by omega)
      split
      · next query span =>
        obtain ⟨query', span', rfl, same₁⟩ := Expr.eq_subquery same
        refine .lookInside continuesQuery_looks (afterFirst_refuses start _) fun opens =>
          .ite (fun _ => ?_) fun _ => ending same
        refine query_closes more ((reopened_repeats below shuns same₁ more).within False.elim
          (by omega)) (by omega)
      · next other =>
        split
        · next query span =>
          obtain ⟨query', span', rfl, -⟩ := Expr.eq_subquery same.symm
          exact absurd rfl (other query' span')
        · exact ending same

/-! ## Leading parts -/

theorem aggregateOrColumn_repeats (stops : ends → Stops rest) {word : Keyword}
    (other : word ≠ .NOT) (left : List Kind) :
    Repeats rest ends (2 * (left.length + 1)) (Keyed Expr.erase) (aggregateOrColumn phrases word)
      (aggregateOrColumn phrases' word) (.keyword word :: left) := by
  unfold aggregateOrColumn
  split
  · next function _ =>
    refine .sees (fun kinds => lead (kinds.drop 1)) (fun _ _ _ => peek_reads) ?_ (.ite
      (fun _ => aggregate_repeats below stops function other left)
      fun _ => wordAsColumn_repeats stops word (.keyword word :: left))
    intro more _ _ meets
    cases left with
    | nil => simp [meets.ne (.symbol .leftParen) rfl]
    | cons next more => rfl
  · exact wordAsColumn_repeats stops word (.keyword word :: left)

theorem afterWord_repeats (stops : ends → Stops rest) {word : Keyword}
    (other : word ≠ .NOT) (left : List Kind) :
    Repeats rest ends (2 * (left.length + 1)) (Keyed Expr.erase) (afterWord phrases word)
      (afterWord phrases' word) (.keyword word :: left) := by
  have taken {p q : Parse Expr} (next : Repeats rest ends (2 * (left.length + 1)) (Keyed Expr.erase)
      p q left) : Repeats rest ends (2 * (left.length + 1)) (Keyed Expr.erase)
      (do advance; p) (do advance; q) (.keyword word :: left) :=
    .advance (fun _ => .inl (by simpa using other)) next
  have query : Repeats rest ends (2 * (left.length + 1)) (Keyed Query.erase)
      (parenthesized phrases.query) (parenthesized phrases'.query) left := by
    refine parenthesized_repeats fun inner isLeft => (below.query inner).within False.elim ?_
    rw [isLeft, List.length_cons]
    omega
  refine .still here_still here_still fun start start' => ?_
  split
  · exact taken (.done rfl)
  split
  · exact taken (.done rfl)
  · refine taken (.bind query id fun query query' _ same _ => ?_)
    exact .still (spanFrom_still _) (spanFrom_still _) fun _ _ =>
      .done (congrArg (Expr.existence · default) same)
  · refine taken (.bind query id fun query query' _ same _ => ?_)
    exact .still (spanFrom_still _) (spanFrom_still _) fun _ _ =>
      .done (congrArg (Expr.uniqueness · default) same)
  · refine taken (.bind (parenthesized_repeats fun inner isLeft => ?_) id
      fun values values' _ same _ => .still (spanFrom_still _) (spanFrom_still _) fun _ _ =>
        .done (congrArg (Expr.row · default) same))
    refine (rowValues_repeats below inner).within id ?_
    rw [isLeft, List.length_cons]
    omega
  · exact aggregateOrColumn_repeats below stops other left

theorem primary_repeats (shuns : phrases.Shuns) (stops : ends → Stops rest)
    (noNot : lead row ≠ .keyword .NOT) :
    Repeats rest ends (2 * row.length) (Keyed Expr.erase) (primary phrases) (primary phrases')
      row := by
  refine .still here_still here_still fun start start' => ?_
  refine .lookInside kind_looks (Refuses.unexpected _) fun opens => ?_
  obtain ⟨kind, left, rfl⟩ := List.exists_cons_of_ne_nil opens
  have taken {value value' : Expr} (same : Keyed Expr.erase value value') :
      Repeats rest ends (2 * (left.length + 1)) (Keyed Expr.erase)
      (do advance; return value) (do advance; return value') (kind :: left) :=
    .advance (fun _ => .inl noNot) (.done same)
  rw [lead_cons, id_eq] at *
  split
  · exact taken rfl
  · exact taken rfl
  · exact taken rfl
  · exact taken rfl
  · exact inParentheses_repeats below shuns _
  · exact afterWord_repeats below stops (by simpa using noNot) left
  · exact column_repeats stops
  · exact .unexpected _

theorem leading_repeats (shuns : phrases.Shuns) (closes : ends → Closes 5 rest) (row : List Kind) :
    Repeats rest ends (2 * row.length) (Keyed Expr.erase) (leading phrases) (leading phrases')
      row := by
  refine .still here_still here_still fun start start' => ?_
  refine .lookInside kind_looks primary_refuses fun opens => ?_
  obtain ⟨kind, left, rfl⟩ := List.exists_cons_of_ne_nil opens
  rw [lead_cons, id_eq]
  split
  · next op power isOp =>
    have high := UnaryOp.power_le isOp
    refine .advance (fun _ => .inr ((Refuses.nested (shuns.operand power)).bind _)) ?_
    refine .bind ((nested_repeats (below.operand power left)).within (fun holds => ?_) ?_) id
      fun operand operand' _ same _ => ?_
    · exact (closes holds).weaken (by omega)
    · simp only [List.length_cons]
      omega
    · exact .still (spanFrom_still _) (spanFrom_still _) fun _ _ =>
        .done (congrArg (Expr.unary op · default) same)
  · next noOp =>
    refine primary_repeats below shuns (fun holds => (closes holds).toStops) ?_
    intro isNot
    rw [lead_cons] at isNot
    rw [isNot] at noOp
    cases noOp

end

/-! ## Predicates -/

theorem negated_repeats {operand operand' : Expr} {start start' : Span}
    (same : Keyed Expr.erase operand operand') :
    Repeats rest ends need (Keyed Expr.erase) (negated operand start) (negated operand' start') row :=
  .still (spanFrom_still _) (spanFrom_still _) fun _ _ =>
    .done (congrArg (Expr.unary .not · default) same)

theorem testedValue_repeats : Repeats rest ends need Eq testedValue testedValue row := by
  refine .lookInside word?_looks (Refuses.unexpected _) fun opens => ?_
  obtain ⟨kind, left, rfl⟩ := List.exists_cons_of_ne_nil opens
  rw [lead_cons]
  split
  case h_5 => exact .unexpected _
  all_goals
    next isWord =>
      exact .advance (fun _ => .inl (by simp [Kind.eq_of_word? isWord])) (.done rfl)

theorem testedValue_refuses : Refuses testedValue := .look word?_looks (.unexpected _)

theorem isTest_repeats {left left' : Expr} {start start' : Span}
    (same : Keyed Expr.erase left left') :
    Repeats rest ends need (Keyed Expr.erase) (isTest left start) (isTest left' start') row := by
  refine .expectWord (by simp) fun more _ => ?_
  have ending {test test' : Expr} (negative : Bool) (more : List Kind)
      (same : Keyed Expr.erase test test') : Repeats rest ends need (Keyed Expr.erase)
      (if negative then negated test start else return test)
      (if negative then negated test' start' else return test') more :=
    .ite (fun _ => negated_repeats same) fun _ => .done same
  refine .takeWordOr (.inr (testedValue_refuses.bind _)) (.inr (testedValue_refuses.bind _)) ?_ ?_
  all_goals
    intros
    refine .after testedValue_repeats fun value _ _ same₁ _ => ?_
    subst same₁
    refine .still (spanFrom_still _) (spanFrom_still _) fun span span' => ending _ _ ?_
    cases value with
    | none => exact congrArg (Expr.isNull · default) same
    | some value => exact congrArg (Expr.isTruth · value default) same

theorem symmetric_repeats : Repeats rest False need Eq symmetric symmetric row :=
  .takeWord (by simp) (.inl False.elim) (fun _ _ => .done rfl) fun _ =>
    .takeWord (by simp) (.inl False.elim) (fun _ _ => .done rfl) fun _ => .done rfl

theorem listedValues_repeats {opening opening' : Span} {values values' : List Expr}
    (same : Keyed Expr.eraseAll values values') :
    Repeats rest ends need (Keyed Rel.erase) (listedValues opening values)
      (listedValues opening' values') row :=
  .still here_still here_still fun _ _ => .done (congrArg (Rel.values · default) same)

theorem predicate_refuses (left : Expr) (start : Span) : Refuses (predicate phrases left start) :=
  .look word?_looks (.unexpected _)

section

variable (below : phrases.Repeats phrases' rest)
include below

theorem inRows_repeats (shuns : phrases.Shuns) (past : ends → Past 10 rest) (opening opening' : Span)
    (row : List Kind) :
    Repeats rest ends (2 * row.length + 1) (Keyed Rel.erase) (inRows phrases opening)
      (inRows phrases' opening') row := by
  have query {p q : Parse Query} {left : List Kind}
      (read : Repeats rest ends (2 * row.length + 1) (Keyed Query.erase) p q left) :
      Repeats rest ends (2 * row.length + 1) (Keyed Rel.erase) (Rel.query <$> p) (Rel.query <$> q)
        left :=
    .bind read id fun _ _ _ same _ => .done (congrArg Rel.query same)
  refine .look startsQuery_looks (fun _ holds => (past holds).noQuery) (.ite
    (fun _ => query ((below.query row).within past (Nat.le_refl _))) fun _ => ?_)
  refine .still here_still here_still fun start start' => ?_
  refine .bind (expressions_repeats below (fun holds => (past holds).ne (by decide))
    (fun holds => (past holds).closes 0) row) id fun values values' left same few => ?_
  split
  · next rows span =>
    obtain ⟨first', rfl, same₁⟩ := Expr.eq_single same
    obtain ⟨rows', span', rfl, same₂⟩ := Expr.eq_subquery same₁
    refine .look continuesQuery_looks (fun _ holds => (past holds).noNext) (.ite (fun _ => query ?_)
      fun _ => ?_)
    · exact (reopened_repeats below shuns same₂ left).within past (by omega)
    · exact listedValues_repeats same
  · next other =>
    split
    · next rows' span' =>
      obtain ⟨first, rfl, same₁⟩ := Expr.eq_single same.symm
      obtain ⟨rows, span, rfl, -⟩ := Expr.eq_subquery same₁
      exact absurd rfl (other rows span)
    · exact listedValues_repeats same

theorem likeEscape_repeats (closes : ends → Closes 5 rest) (row : List Kind) :
    Repeats rest ends (2 * row.length) (Keyed Expr.eraseOption) (likeEscape phrases)
      (likeEscape phrases') row := by
  refine .takeWord (by simp) (.inl (closes · |>.escape)) (fun left isRow => ?_) fun _ => .done rfl
  refine .bind ((below.operand 8 left).within closes ?_) id fun e e' _ same _ =>
    .done (congrArg some same)
  rw [isRow, List.length_cons]
  omega

theorem predicate_repeats (shuns : phrases.Shuns) {left left' : Expr} {start start' : Span}
    (same : Keyed Expr.erase left left') (closes : ends → Closes 5 rest) (row : List Kind) :
    Repeats rest ends (2 * row.length - 1) (Keyed Expr.erase) (predicate phrases left start)
      (predicate phrases' left' start') row := by
  refine .lookInside word?_looks (.unexpected _) fun opens => ?_
  obtain ⟨kind, more, rfl⟩ := List.exists_cons_of_ne_nil opens
  have kept {word : Keyword} (isWord : kind.word? = some word) (other : word ≠ .NOT) :
      kind ≠ .keyword .NOT := by
    simpa [Kind.eq_of_word? isWord] using other
  rw [lead_cons, List.length_cons]
  split
  · next isWord =>
    refine .advance (fun _ => .inl (kept isWord (by simp))) ?_
    refine .inside symmetric_repeats (fun _ => (shuns.operand _).bind _)
      fun symmetric _ more' same₁ few => ?_
    subst same₁
    refine .inside ((below.operand 8 more').within False.elim (by omega))
      (fun _ => (Refuses.expectWord _).bind _) fun low low' more₂ same₂ few₂ => ?_
    refine .expectWord (by simp) fun more₃ isMore₂ => ?_
    have few₃ : more₃.length + 1 = more₂.length := by rw [isMore₂, List.length_cons]
    refine .bind ((below.operand 8 more₃).within closes (by omega)) id
      fun high high' _ same₃ _ => ?_
    refine .still (spanFrom_still _) (spanFrom_still _) fun _ _ => .done ?_
    simp only [Keyed] at same same₂ same₃
    simp [Keyed, Expr.erase, same, same₂, same₃]
  · next isWord =>
    refine .advance (fun _ => .inl (kept isWord (by simp))) ?_
    refine .still here_still here_still fun opening opening' => .expectSign fun more' isMore => ?_
    have few : more'.length + 1 = more.length := by rw [isMore, List.length_cons]
    refine .inside ((inRows_repeats below shuns False.elim opening opening' more').within id (by omega))
      (fun _ => (Refuses.expectSign _).bind _) fun rows rows' _ same₁ _ => ?_
    refine .expectSign fun _ _ => .still (spanFrom_still _) (spanFrom_still _) fun _ _ => .done ?_
    simp only [Keyed] at same same₁
    simp [Keyed, Expr.erase, same, same₁]
  · next isWord =>
    refine .advance (fun _ => .inl (kept isWord (by simp))) ?_
    refine .bind ((below.operand 8 more).within closes (by omega)) id
      fun pattern pattern' more' same₁ few => ?_
    refine .bind ((likeEscape_repeats below closes more').within id (by omega)) id
      fun escape escape' _ same₂ _ => ?_
    refine .still (spanFrom_still _) (spanFrom_still _) fun _ _ => .done ?_
    simp only [Keyed] at same same₁ same₂
    simp [Keyed, Expr.erase, same, same₁, same₂]
  · exact .unexpected _

/-! ## Operators that follow -/

theorem binary_repeats (shuns : phrases.Shuns) {left left' : Expr} {power : Nat} {start start' : Span}
    (same : Keyed Expr.erase left left') (closes : ends → Closes (min power 5) rest)
    (row : List Kind) :
    Repeats rest ends (2 * row.length - 1) (Keyed Expr.erase) (binary phrases left power start)
      (binary phrases' left' power start') row := by
  refine .lookInside kind_looks (.unexpected _) fun opens => ?_
  obtain ⟨kind, more, rfl⟩ := List.exists_cons_of_ne_nil opens
  rw [lead_cons, id_eq, List.length_cons]
  split
  · next op isOp =>
    refine .advance (fun _ => .inr ((shuns.operand power).bind _)) ?_
    refine .bind ((below.operand power more).within closes (by omega)) id
      fun right right' _ same₁ _ => ?_
    refine .still (spanFrom_still _) (spanFrom_still _) fun _ _ => .done ?_
    simp only [Keyed] at same same₁
    simp [Keyed, Expr.erase, same, same₁]
  · exact .unexpected _

theorem applied_repeats (shuns : phrases.Shuns) {left left' : Expr} {power : Nat}
    {start start' : Span} (same : Keyed Expr.erase left left')
    (closes : ends → Closes (min power 5) rest) (row : List Kind) :
    Repeats rest ends (2 * row.length - 1) (Keyed Expr.erase) (applied phrases left power start)
      (applied phrases' left' power start') row := by
  have closes₅ (holds : ends) : Closes 5 rest := (closes holds).weaken (Nat.min_le_right _ _)
  refine .lookInside word?_looks (.look kind_looks (.unexpected _)) fun opens => ?_
  obtain ⟨kind, more, rfl⟩ := List.exists_cons_of_ne_nil opens
  rw [lead_cons]
  split
  · next isWord =>
    refine .advance (fun _ => .inl (by simp [Kind.eq_of_word? isWord])) ?_
    refine .bind ((qualifiedName_repeats fun holds => (closes holds).dot).within id ?_) id
      fun collation _ _ same₁ _ => ?_
    · simp only [List.length_cons]
      omega
    subst same₁
    exact .still (spanFrom_still _) (spanFrom_still _) fun _ _ =>
      .done (congrArg (Expr.collate · collation default) same)
  · exact isTest_repeats same
  · refine .advance (fun _ => .inr ((predicate_refuses left start).bind _)) ?_
    refine .bind ((predicate_repeats below shuns same closes₅ more).within id ?_) id
      fun test test' _ same₁ _ => negated_repeats same₁
    simp only [List.length_cons]
    omega
  · exact predicate_repeats below shuns same closes₅ _
  · exact predicate_repeats below shuns same closes₅ _
  · exact predicate_repeats below shuns same closes₅ _
  · exact binary_repeats below shuns same closes _

/-- How far the operators have been read, up to places. -/
structure SameApplied (done done' : Applied) : Prop where
  left : Keyed Expr.erase done.left done'.left
  levels : done'.levels = done.levels
  afterComparison : done'.afterComparison = done.afterComparison

theorem operatorStep_echoes (shuns : phrases.Shuns) {least : Nat} {start start' : Span}
    {done done' : Applied} (same : SameApplied done done')
    (closes : ends → Closes (min least 5) rest) (row : List Kind) :
    Echoes rest ends (2 * row.length + 0) (Again SameApplied Applied.levels 1 done) (risen 1)
      (operatorStep phrases least start done) (operatorStep phrases' least start' done') row := by
  refine .sees Power.ahead (fun _ _ _ => operatorPower_reads) ?_ ?_
  · intro left shorter last meets
    match row with
    | [] =>
      have closes := closes (meets.last (List.suffix_nil.mp shorter))
      cases isAhead : Power.ahead rest with
      | none => rw [List.nil_append, isAhead]; rfl
      | some power =>
        have weak : power.left < least := by
          have := closes.power power isAhead
          omega
        rw [List.nil_append, isAhead]
        exact if_pos weak
    | kind :: more => rw [meets.ahead_append (List.cons_ne_nil kind more) shorter last]
  · split
    · exact .pure .stop rfl
    · next power isAhead =>
      have opens : row ≠ [] := by
        rintro rfl
        cases isAhead
      have longer := List.length_pos_iff.mpr opens
      rw [same.afterComparison]
      refine .ite (fun _ => .pure .stop rfl) fun tight => .ite (fun _ => ?_) fun _ => ?_
      · exact .vacuous fun s a t _ run => by cases run
      · have right := Power.right_of_ahead isAhead
        have read : Repeats rest ends (2 * row.length - 1) (Keyed Expr.erase)
            (applied phrases done.left power.right start)
            (applied phrases' done'.left power.right start') row :=
          applied_repeats below shuns same.left (fun holds => (closes holds).weaken (by omega)) row
        have round : Repeats rest ends (2 * row.length - 1)
            (fun next next' => Again SameApplied Applied.levels 1 done next next' ∧ next.isSome = true)
            (do
              let left ← applied phrases done.left power.right start
              return some ⟨left, done.levels + 1, power = .comparison⟩)
            (do
              let left ← applied phrases' done'.left power.right start'
              return some ⟨left, done'.levels + 1, power = .comparison⟩) row :=
          .bind read id fun _ _ _ same₁ _ =>
            .done ⟨.more ⟨same₁, congrArg (· + 1) same.levels, rfl⟩ rfl, rfl⟩
        refine (Echoes.enter round).mono id (by omega) fun next next' given => ⟨given.1, ?_⟩
        rw [risen, if_pos given.2]

theorem operators_repeats (shuns : phrases.Shuns) {least : Nat} {left left' : Expr}
    {start start' : Span} (same : Keyed Expr.erase left left')
    (closes : ends → Closes (min least 5) rest) (row : List Kind) :
    Repeats rest ends (2 * row.length) (Keyed Expr.erase) (operators phrases left least start)
      (operators phrases' left' least start') row := by
  have rounds : Echoes rest ends (2 * row.length + 0) SameApplied Applied.levels
      (loop (operatorStep phrases least start) ⟨left, 0, false⟩)
      (loop (operatorStep phrases' least start') ⟨left', 0, false⟩) row :=
    loop_echoes 1 0 (by omega) ⟨same, rfl, rfl⟩ rfl fun v w left isSame _ =>
      operatorStep_echoes below shuns isSame closes left
  exact rounds.leaves fun done done' isSame => ⟨isSame.levels, isSame.left⟩

theorem operand_repeats (shuns : phrases.Shuns) (least : Nat) (row : List Kind) :
    Repeats rest (Closes (min least 5) rest) (2 * row.length) (Keyed Expr.erase)
      (operand phrases least) (operand phrases' least) row := by
  refine .still here_still here_still fun start start' => ?_
  refine .bind (leading_repeats below shuns (·.weaken (Nat.min_le_right _ _)) row) id
    fun left left' more same few => ?_
  exact (operators_repeats below shuns same id more).within id (by omega)

end

end Parse

end CanonicalSql
