import CanonicalSql.Proofs.Reading.Tail

/-!
# Reading leading parts

Names, literals, aggregates, rows and what stands in parentheses. An operator or a
predicate is always in parentheses of its own and is read between them as the rule `inner`
of the recursive rules says; a subquery is told by its first token, or it begins with an
operand in parentheses and is reopened.
-/
namespace CanonicalSql

/-! ## What stands in parentheses -/

/-- A tree that looks like a subquery without its places is one. -/
theorem Expr.eq_subquery_of_erase {expr : Expr} {query : Query} {span : Span}
    (same : expr.erase = (Expr.subquery query span).erase) :
    ∃ found place, expr = .subquery found place ∧ found.erase = query.erase := by
  cases expr with
  | subquery found place =>
    refine ⟨found, place, rfl, ?_⟩
    simpa [Expr.erase] using same
  | _ => simp [Expr.erase] at same

namespace Parse

variable {limit bound depth : Nat} {phrases : Phrases} {rest : List Kind}

/-! ## Columns -/

/-- The parts of a column after the first one. The induction is on the parts still to be
read. -/
theorem columnParts_loops (stops : lead rest ≠ .symbol .dot) (parts done : List Name) :
    Loops limit True columnPart (done, false) depth (Piece.dotRows parts ++ rest)
      (· = (done ++ parts, false)) depth rest := by
  induction parts generalizing done with
  | nil => exact .stop ((takeSign_no stops).step (.pure trivial rfl)) trivial (by simp)
  | cons part parts ih =>
    have text : Piece.dotRows (part :: parts) ++ rest =
        .symbol .dot :: .identifier part :: (Piece.dotRows parts ++ rest) := rfl
    rw [text]
    have round : Reads limit True (columnPart (done, false)) depth
        (.symbol .dot :: .identifier part :: (Piece.dotRows parts ++ rest))
        (fun next => ∃ them, next = some them ∧ them = (done ++ [part], false)) depth
        (Piece.dotRows parts ++ rest) :=
      (takeSign_yes .dot).step ((takeSign_no (by simp)).step
        ((identifier_reads part).step (.pure trivial ⟨_, rfl, rfl⟩)))
    refine .next round id (by simp only [List.length_cons]; omega) ?_
    rintro - them rfl
    simpa using ih (done ++ [part])

/-- As `columnParts_loops`, where an asterisk ends the name. -/
theorem starredParts_loops (parts done : List Name) :
    Loops limit True columnPart (done, false) depth
      (Piece.dotRows parts ++ .symbol .dot :: .symbol .star :: rest)
      (· = (done ++ parts, true)) depth rest := by
  induction parts generalizing done with
  | nil =>
    show Loops limit True columnPart (done, false) depth (.symbol .dot :: .symbol .star :: rest)
      (· = (done ++ [], true)) depth rest
    have round : Reads limit True (columnPart (done, false)) depth
        (.symbol .dot :: .symbol .star :: rest)
        (fun next => ∃ them, next = some them ∧ them = (done, true)) depth rest :=
      (takeSign_yes .dot).step ((takeSign_yes .star).step (.pure trivial ⟨_, rfl, rfl⟩))
    refine .next round id (by simp only [List.length_cons]; omega) ?_
    rintro - them rfl
    exact .stop (.pure trivial rfl) trivial (by simp)
  | cons part parts ih =>
    have text : Piece.dotRows (part :: parts) ++ .symbol .dot :: .symbol .star :: rest =
        .symbol .dot :: .identifier part ::
          (Piece.dotRows parts ++ .symbol .dot :: .symbol .star :: rest) := rfl
    rw [text]
    have round : Reads limit True (columnPart (done, false)) depth
        (.symbol .dot :: .identifier part ::
          (Piece.dotRows parts ++ .symbol .dot :: .symbol .star :: rest))
        (fun next => ∃ them, next = some them ∧ them = (done ++ [part], false)) depth
        (Piece.dotRows parts ++ .symbol .dot :: .symbol .star :: rest) :=
      (takeSign_yes .dot).step ((takeSign_no (by simp)).step
        ((identifier_reads part).step (.pure trivial ⟨_, rfl, rfl⟩)))
    refine .next round id (by simp only [List.length_cons]; omega) ?_
    rintro - them rfl
    simpa using ih (done ++ [part])

theorem column_reads (name : QualifiedName) (stops : Stops rest) :
    Reads limit True column depth (Piece.kinds (Piece.qualified name) ++ rest)
      (fun e => e.erase = .column name default) depth rest := by
  obtain ⟨part, parts, isParts⟩ := name.parts_eq_cons
  rw [Piece.kinds_qualified isParts]
  refine .still here_still fun start => (identifier_reads part).step ?_
  refine (columnParts_loops stops.dot parts [part]).loop.step ?_
  refine (atSign_no stops.paren).step (.still (spanFrom_still start) fun _ => ?_)
  rw [List.singleton_append, ← isParts, name.ofParts_parts]
  exact .pure trivial (by simp [Expr.erase])

theorem starred_reads (name : QualifiedName) :
    Reads limit True column depth
      (Piece.kinds (Piece.qualified name) ++ .symbol .dot :: .symbol .star :: rest)
      (fun e => e.erase = .asterisk (some name) default) depth rest := by
  obtain ⟨part, parts, isParts⟩ := name.parts_eq_cons
  rw [Piece.kinds_qualified isParts]
  refine .still here_still fun start => (identifier_reads part).step ?_
  refine (starredParts_loops parts [part]).loop.step (.still (spanFrom_still start) fun _ => ?_)
  rw [List.singleton_append, ← isParts, name.ofParts_parts]
  exact .pure trivial (by simp [Expr.erase])

/-! ## Aggregates -/

/-- The tokens of the filter of an aggregate. -/
theorem kinds_ofFilter (filter : Expr) :
    Piece.kinds (Canonical.ofFilter (some filter)) = .keyword .FILTER :: .symbol .leftParen ::
      .keyword .WHERE :: (filter.tokens ++ [.symbol .rightParen]) := by
  simp [Canonical.ofFilter]

theorem aggregateFilter_reads (reads : phrases.ReadBack limit bound) {filter : Option Expr}
    (formed : Expr.OptionFormed filter)
    (fits : 2 * (Piece.kinds (Canonical.ofFilter filter)).length ≤ bound)
    (room : depth + 2 * Outline.depthAll (Outline.ofOption filter) ≤ capOf limit + 1)
    (stops : lead rest ≠ .keyword .FILTER) :
    Reads limit (Outline.AllReadable (Outline.ofOption filter)) (aggregateFilter phrases) depth
      (Piece.kinds (Canonical.ofFilter filter) ++ rest)
      (fun e => Expr.eraseOption e = Expr.eraseOption filter) depth rest := by
  cases filter with
  | none =>
    exact (atWordBefore_no fun isFilter => absurd isFilter stops).step
      (.pure (by simp [Outline.ofOption]) rfl)
  | some filter =>
    rw [kinds_ofFilter] at fits ⊢
    simp only [List.length_cons, List.length_append] at fits
    simp only [Outline.ofOption, Outline.plain_expr, Outline.depthAll_cons] at room
    have condition : Reads limit (Outline.ofExpr filter).Readable
        (parenthesized (whereCondition phrases)) depth
        (.symbol .leftParen :: .keyword .WHERE :: (filter.tokens ++ .symbol .rightParen :: rest))
        (fun e => e.erase = filter.erase) depth rest :=
      .parenthesized <| (expectWord_reads .WHERE).step <|
        expression_reads reads formed (by omega) (by omega) rfl
    simp only [List.cons_append, List.append_assoc, List.nil_append]
    refine (atWordBefore_yes rfl).step (advance_reads.after fun _ _ => ?_)
    refine condition.bind ?_ fun holds e same => .pure ?_ ?_
    · simp [Outline.ofOption, Outline.plain_expr]
    · simpa [Outline.ofOption, Outline.plain_expr] using holds
    · simp [Expr.eraseOption, same]

/-- The name of an aggregate function calls it before a parenthesis. -/
theorem afterWord_aggregate (phrases : Phrases) (function : AggregateFunction) :
    afterWord phrases function.word = (do
      let _ ← here
      if (← peek) = .symbol .leftParen then aggregate phrases function
      else wordAsColumn function.word) := by
  cases function <;> rfl

theorem aggregate_reads (reads : phrases.ReadBack limit bound) {function : AggregateFunction}
    {quantifier : Option SetQuantifier} {argument : Expr} {filter : Option Expr} {span : Span}
    (formed : (Expr.aggregate function quantifier argument filter span).Formed .value)
    (fits : 2 * (Expr.aggregate function quantifier argument filter span).tokens.length ≤ bound)
    (room : depth + 2 * (Outline.ofExpr
      (.aggregate function quantifier argument filter span)).depth ≤ capOf limit + 2)
    (stops : Stops rest) :
    Reads limit (Outline.ofExpr (.aggregate function quantifier argument filter span)).Readable
      (aggregate phrases function) depth
      ((Expr.aggregate function quantifier argument filter span).tokens ++ rest)
      (fun e => e.erase = (Expr.aggregate function quantifier argument filter span).erase)
      depth rest := by
  have text : (Expr.aggregate function quantifier argument filter span).tokens =
      .keyword function.word :: .symbol .leftParen ::
        (Piece.kinds (Canonical.ofQuantifier quantifier) ++ (argument.tokens ++
          .symbol .rightParen :: Piece.kinds (Canonical.ofFilter filter))) := by
    simp [Expr.tokens, Canonical.ofExpr]
  rw [text] at fits ⊢
  simp only [List.length_cons, List.length_append] at fits
  rw [Outline.depth_ofExpr] at room
  simp only [Outline.belowExpr, Outline.depthAll_cons, Outline.depth_node_expr] at room
  have inside : Reads limit (Outline.ofExpr argument).Readable
      (parenthesized (aggregateArgument phrases)) depth
      (.symbol .leftParen :: (Piece.kinds (Canonical.ofQuantifier quantifier) ++
        (argument.tokens ++ .symbol .rightParen ::
          (Piece.kinds (Canonical.ofFilter filter) ++ rest))))
      (fun it => it.1 = quantifier ∧ it.2.erase = argument.erase) depth
      (Piece.kinds (Canonical.ofFilter filter) ++ rest) := by
    refine .parenthesized ?_
    refine (setQuantifier_reads quantifier ?_ ?_).step ?_
    · exact Expr.lead_ne formed.2.1 _ rfl (by simp)
    · exact Expr.lead_ne formed.2.1 _ rfl (by simp)
    · exact (expression_reads reads formed.2.1 (by omega) (by omega) rfl).bind id
        fun holds e same => .pure holds ⟨rfl, same⟩
  have readable : (Outline.ofExpr
      (.aggregate function quantifier argument filter span)).Readable ↔
      (Outline.ofExpr argument).Readable ∧ Outline.AllReadable (Outline.ofOption filter) := by
    rw [Outline.readable_ofExpr]
    simp [Node.isUnreadable, Outline.belowExpr]
  simp only [List.cons_append, List.append_assoc]
  rw [readable]
  refine .still here_still fun start => advance_reads.after fun _ _ => ?_
  refine inside.bind And.left fun holds it same => ?_
  obtain ⟨isQuantifier, e⟩ := it
  obtain ⟨rfl, sameArgument⟩ := same
  refine (aggregateFilter_reads reads formed.2.2 (by omega) (by omega) stops.filter).bind
    And.right fun filterHolds f sameFilter => ?_
  refine .still (spanFrom_still start) fun _ => .pure ⟨holds, filterHolds⟩ ?_
  simp [Expr.erase, sameArgument, sameFilter]

/-! ## Parentheses -/

/-- An operator or a predicate in its parentheses. -/
theorem enclosed_reads (reads : phrases.ReadBack limit bound) {expr : Expr} {row : List Kind}
    (formed : expr.Formed .value) (encloses : expr.Encloses row)
    (fits : 2 * row.length + 1 ≤ bound)
    (room : depth + 2 * (Outline.ofExpr expr).depth ≤ capOf limit + 2) :
    Reads limit (Outline.ofExpr expr).Readable (inParentheses phrases) depth
      (.symbol .leftParen :: (row ++ .symbol .rightParen :: rest))
      (fun e => e.erase = expr.erase) depth rest := by
  have level := encloses.two_le_depth
  have inside : Reads limit (Outline.ofExpr expr).Readable phrases.expression depth
      (row ++ .symbol .rightParen :: rest) (fun e => e.erase = expr.erase) depth
      (.symbol .rightParen :: rest) :=
    .nested (by omega) (reads.inner formed encloses fits (by omega))
  refine .still here_still fun start => (expectSign_reads _).step ?_
  refine (startsQuery_no (encloses.noQuery formed _)).step ?_
  refine inside.bind id fun holds e same => ?_
  have alone : Reads limit (Outline.ofExpr expr).Readable (afterFirst phrases start e) depth
      (.symbol .rightParen :: rest) (fun e => e.erase = expr.erase) depth rest :=
    (atSign_no (by simp)).step ((expectSign_reads _).step (.pure holds same))
  cases e with
  | subquery query span =>
    obtain ⟨found, place, rfl, -⟩ := Expr.eq_subquery_of_erase same.symm
    cases encloses with
    | after follows => cases follows
  | _ => exact alone

/-- The operand in parentheses that a query begins with is read as a subquery. -/
theorem firstOperand_reads (reads : phrases.ReadBack limit bound) {query : Query}
    (formed : query.Formed) (more : ¬ query.Wraps) (enclosed : query.beginsEnclosed = true)
    (fits : 2 * query.tokens.length + 1 ≤ bound)
    (room : depth + 2 * (Outline.ofQuery query).depth ≤ capOf limit + 1) :
    Reads limit (Outline.ofQuery query.body.firstOperand.enclosedQuery).Readable
      phrases.expression depth (query.tokens ++ rest)
      (fun e => ∃ found place, e = .subquery found place ∧
        found.erase = query.body.firstOperand.enclosedQuery.erase)
      depth (query.furtherTokens ++ rest) := by
  have text := Query.tokens_enclosed formed enclosed
  have lower := Query.firstOperand_depth enclosed
  have quiet := Kind.isQuiet_of_isQueryNext (Query.goesOn enclosed more rest)
  have operandFormed := Rel.firstOperand_formed (Query.formed_iff.mp formed).2.1
  generalize query.body.firstOperand = first at text lower operandFormed
  have firstFormed : (Expr.subquery first.enclosedQuery default).Formed .value :=
    ⟨by simp, Rel.enclosedQuery_formed operandFormed,
      Rel.enclosedQuery_not_wraps operandFormed⟩
  have firstText : (Expr.subquery first.enclosedQuery default).tokens =
      .symbol .leftParen :: (first.enclosedQuery.tokens ++ [Kind.symbol .rightParen]) := by
    simp [Expr.tokens, Canonical.ofExpr]
  have split : query.tokens = (Expr.subquery first.enclosedQuery default).tokens ++
      query.furtherTokens := by
    rw [text, firstText]
    simp
  have firstDepth : (Outline.ofExpr (.subquery first.enclosedQuery default)).depth =
      1 + (Outline.ofQuery first.enclosedQuery).depth := by
    rw [Outline.depth_ofExpr]
    simp [Outline.belowExpr, Outline.plain_query]
  rw [split, List.length_append] at fits
  rw [split, List.append_assoc]
  refine (expression_reads reads firstFormed (by omega) (by omega) quiet).mono ?_ fun e same => ?_
  · rw [Outline.readable_ofExpr]
    simp [Node.isUnreadable, Outline.belowExpr, Outline.plain_query]
  · exact Expr.eq_subquery_of_erase same

/-- A subquery. If its text begins with an operand in parentheses, that operand is read as
a subquery of its own, and what goes on from it follows. -/
theorem subquery_reads (reads : phrases.ReadBack limit bound) {query : Query} {span : Span}
    (formed : (Expr.subquery query span).Formed .value)
    (fits : 2 * query.tokens.length + 1 ≤ bound)
    (room : depth + 2 * (Outline.ofExpr (.subquery query span)).depth ≤ capOf limit + 2) :
    Reads limit (Outline.ofExpr (.subquery query span)).Readable (inParentheses phrases) depth
      (.symbol .leftParen :: (query.tokens ++ .symbol .rightParen :: rest))
      (fun e => e.erase = (Expr.subquery query span).erase) depth rest := by
  have level : (Outline.ofExpr (.subquery query span)).depth =
      1 + (Outline.ofQuery query).depth := by
    rw [Outline.depth_ofExpr]
    simp [Outline.belowExpr, Outline.plain_query]
  have readable : (Outline.ofExpr (.subquery query span)).Readable ↔
      (Outline.ofQuery query).Readable := by
    rw [Outline.readable_ofExpr]
    simp [Node.isUnreadable, Outline.belowExpr, Outline.plain_query]
  rw [readable]
  refine .still here_still fun start => (expectSign_reads _).step ?_
  cases enclosed : query.beginsEnclosed with
  | false =>
    refine (startsQuery_yes (query.starts formed.2.1 enclosed _)).step ?_
    refine (reads.query formed.2.1 fits (by omega) (Past.close _)).bind id
      fun holds q same => (expectSign_reads _).step ?_
    exact .still (spanFrom_still start) fun _ => .pure holds (by simp [Expr.erase, same])
  | true =>
    have starts : isQueryStart (lead (query.tokens ++ .symbol .rightParen :: rest)) = false := by
      rw [Query.tokens_enclosed formed.2.1 enclosed]
      rfl
    refine (startsQuery_no starts).step ?_
    refine (firstOperand_reads reads formed.2.1 formed.2.2 enclosed fits (by omega)).bind
      (fun all => ((Query.readable_enclosed enclosed).mp all).1) fun firstHolds e isFirst => ?_
    obtain ⟨found, place, rfl, same⟩ := isFirst
    have shorter : query.furtherTokens.length ≤ query.tokens.length := by
      rw [Query.tokens_enclosed formed.2.1 enclosed]
      simp only [List.length_cons, List.length_append]
      omega
    refine (continuesQuery_yes (Query.goesOn enclosed formed.2.2 _)).step ?_
    refine (reopened_reads reads formed.2.1 enclosed (by omega) (by omega) (Past.close _) same
      start).bind (fun all => ((Query.readable_enclosed enclosed).mp all).2)
      fun holds q same => (expectSign_reads _).step ?_
    refine .still (spanFrom_still start) fun _ => .pure ?_ (by simp [Expr.erase, same])
    exact (Query.readable_enclosed enclosed).mpr ⟨firstHolds, holds⟩

theorem rowValues_reads (reads : phrases.ReadBack limit bound) {values : List Expr}
    (formed : Expr.AllFormed .value values)
    (fits : 2 * (Piece.kinds (Piece.commaSeparated (Canonical.ofExprs values))).length + 1
      ≤ bound)
    (room : depth + 2 * Outline.depthAll (Outline.ofExprs values) ≤ capOf limit + 1) :
    Reads limit (Outline.AllReadable (Outline.ofExprs values)) (rowValues phrases) depth
      (Piece.kinds (Piece.commaSeparated (Canonical.ofExprs values)) ++
        .symbol .rightParen :: rest)
      (fun them => Expr.eraseAll them = Expr.eraseAll values) depth
      (.symbol .rightParen :: rest) := by
  cases values with
  | nil => exact (atSign_yes (by simp [Canonical.ofExprs])).step (.pure (by simp [Outline.ofExprs]) rfl)
  | cons value values =>
    have other : lead (Piece.kinds (Piece.commaSeparated (Canonical.ofExprs (value :: values))) ++
        .symbol .rightParen :: rest) ≠ .symbol .rightParen := by
      simp only [Canonical.ofExprs, Piece.kinds_commaSeparated_cons, List.append_assoc]
      exact Expr.lead_ne formed.1 _ rfl (by simp)
    exact (atSign_no other).step
      (expressions_reads reads (by simp) formed fits room (by simp) rfl)

/-! ## Leading parts -/

section

variable {span : Span}

/-- An asterisk, with or without the name of what it stands for. -/
theorem asterisk_reads (qualifier : Option QualifiedName) :
    Reads limit (Outline.ofExpr (.asterisk qualifier span)).Readable (primary phrases) depth
      ((Expr.asterisk qualifier span).tokens ++ rest)
      (fun e => e.erase = (Expr.asterisk qualifier span).erase) depth rest := by
  have readable : (Outline.ofExpr (.asterisk qualifier span)).Readable :=
    Outline.readable_ofExpr.mpr ⟨rfl, by simp [Outline.belowExpr]⟩
  refine .still here_still fun start => ?_
  cases qualifier with
  | none =>
    exact kind_reads.step (advance_reads.after fun _ _ => .pure readable (by simp [Expr.erase]))
  | some name =>
    have text : (Expr.asterisk (some name) span).tokens ++ rest =
        Piece.kinds (Piece.qualified name) ++ .symbol .dot :: .symbol .star :: rest := by
      simp [Expr.tokens, Canonical.ofExpr, Canonical.optional]
    obtain ⟨part, others, isName⟩ := Piece.lead_qualified name
      (.symbol .dot :: .symbol .star :: rest)
    rw [text]
    refine kind_reads.step ?_
    -- the token in front decides which rule reads, and it is the first part of the name
    rw [isName, lead_cons, ← isName]
    exact (starred_reads name).mono ⟨fun _ => readable, fun _ => trivial⟩
      fun e same => by simp [same, Expr.erase]

/-- A row of values behind the word `ROW`. -/
theorem wordedRow_reads (reads : phrases.ReadBack limit bound) {values : List Expr}
    (formed : (Expr.row values span).Formed .value)
    (fits : 2 * (Expr.row values span).tokens.length ≤ bound)
    (room : depth + 2 * (Outline.ofExpr (.row values span)).depth ≤ capOf limit + 2) :
    Reads limit (Outline.ofExpr (.row values span)).Readable (primary phrases) depth
      ((Expr.row values span).tokens ++ rest)
      (fun e => e.erase = (Expr.row values span).erase) depth rest := by
  have text : (Expr.row values span).tokens = .keyword .ROW :: .symbol .leftParen ::
      (Piece.kinds (Piece.commaSeparated (Canonical.ofExprs values)) ++
        [Kind.symbol .rightParen]) := by
    simp [Expr.tokens, Canonical.ofExpr]
  have readable : (Outline.ofExpr (.row values span)).Readable ↔
      Outline.AllReadable (Outline.ofExprs values) := by
    rw [Outline.readable_ofExpr]
    simp [Node.isUnreadable, Outline.belowExpr]
  rw [text] at fits ⊢
  simp only [List.length_cons, List.length_append] at fits
  rw [Outline.depth_ofExpr] at room
  simp only [Outline.belowExpr] at room
  simp only [List.cons_append, List.append_assoc, List.nil_append]
  rw [readable]
  refine .still here_still fun _ => kind_reads.step ?_
  refine .still here_still fun start => advance_reads.after fun _ _ => ?_
  refine (Reads.parenthesized (rowValues_reads reads formed.2 (by omega) (by omega))).bind id
    fun holds them same => .still (spanFrom_still start) fun _ => .pure holds ?_
  simp [Expr.erase, same]

end

/-- A value is read as a leading part, whatever operators follow. -/
theorem primary_reads (reads : phrases.ReadBack limit bound) {expr : Expr}
    (formed : expr.Formed .value) (fits : 2 * expr.tokens.length ≤ bound)
    (room : depth + 2 * (Outline.ofExpr expr).depth ≤ capOf limit + 2) (stops : Stops rest) :
    Reads limit (Outline.ofExpr expr).Readable (primary phrases) depth (expr.tokens ++ rest)
      (fun e => e.erase = expr.erase) depth rest := by
  have composite : ∀ {row}, expr.Encloses row →
      Reads limit (Outline.ofExpr expr).Readable (primary phrases) depth (expr.tokens ++ rest)
        (fun e => e.erase = expr.erase) depth rest := by
    intro row encloses
    rw [encloses.tokens_eq] at fits ⊢
    simp only [List.length_cons, List.length_append] at fits
    simp only [List.cons_append, List.append_assoc, List.nil_append]
    refine .still here_still fun start => kind_reads.step ?_
    exact enclosed_reads reads formed encloses (by omega) room
  cases expr with
  | integer value span | float value span | string value kind span =>
    refine .still here_still fun start => kind_reads.step (advance_reads.after fun _ _ => ?_)
    exact .pure (Outline.readable_ofExpr.mpr ⟨rfl, by simp [Outline.belowExpr]⟩) (by simp [Expr.erase])
  | null span =>
    refine .still here_still fun start => kind_reads.step ?_
    refine .still here_still fun start => advance_reads.after fun _ _ => ?_
    exact .pure (Outline.readable_ofExpr.mpr ⟨rfl, by simp [Outline.belowExpr]⟩) (by simp [Expr.erase])
  | truth value span =>
    have readable : (Outline.ofExpr (.truth value span)).Readable :=
      Outline.readable_ofExpr.mpr ⟨rfl, by simp [Outline.belowExpr]⟩
    refine .still here_still fun start => kind_reads.step ?_
    cases value <;>
      exact .still here_still fun start => advance_reads.after fun _ _ =>
        .pure readable (by simp [Expr.erase])
  | asterisk qualifier span => exact asterisk_reads qualifier
  | column name span =>
    have readable : (Outline.ofExpr (.column name span)).Readable :=
      Outline.readable_ofExpr.mpr ⟨rfl, by simp [Outline.belowExpr]⟩
    have text : (Expr.column name span).tokens = Piece.kinds (Piece.qualified name) := by
      simp [Expr.tokens, Canonical.ofExpr]
    obtain ⟨part, others, isName⟩ := Piece.lead_qualified name rest
    rw [text]
    refine .still here_still fun start => kind_reads.step ?_
    rw [isName, lead_cons, ← isName]
    exact (column_reads name stops).mono ⟨fun _ => readable, fun _ => trivial⟩
      fun e same => by simp [same, Expr.erase]
  | row values span => exact wordedRow_reads reads formed fits room
  | aggregate function quantifier argument filter span =>
    refine .still here_still fun _ => kind_reads.step ?_
    show Reads limit _ (afterWord phrases function.word) depth _ _ depth rest
    rw [afterWord_aggregate]
    refine .still here_still fun _ => peek_reads.step ?_
    rw [if_pos (by simp [Expr.tokens, Canonical.ofExpr])]
    exact aggregate_reads reads formed fits room stops
  | subquery query span =>
    have text : (Expr.subquery query span).tokens =
        .symbol .leftParen :: (query.tokens ++ [.symbol .rightParen]) := by
      simp [Expr.tokens, Canonical.ofExpr]
    rw [text] at fits ⊢
    simp only [List.length_cons, List.length_append] at fits
    simp only [List.cons_append, List.append_assoc, List.nil_append]
    refine .still here_still fun start => kind_reads.step ?_
    exact subquery_reads reads formed (by omega) room
  | unary op operand span => exact composite (.unary op operand span)
  | binary left op right span => exact composite (.after (.binary left op right span))
  | collate expr collation span => exact composite (.after (.collate expr collation span))
  | isTruth expr value span => exact composite (.after (.isTruth expr value span))
  | isNull expr span => exact composite (.after (.isNull expr span))
  | between expr low high symmetric span =>
    exact composite (.after (.between expr low high symmetric span))
  | within expr rows span => exact composite (.after (.within expr rows span))
  | like expr pattern escape span => exact composite (.after (.like expr pattern escape span))
  | existence query span => exact composite (.existence query span)
  | uniqueness query span => exact composite (.uniqueness query span)
  | named name expr span => exact absurd formed.1 (by simp)
  | sortKey key => exact formed.elim
  | groupingSet set => exact absurd formed.1 (by simp)
  | groupingSets sets span => exact absurd formed.1 (by simp)
  | rollup sets span => exact absurd formed.1 (by simp)
  | cube sets span => exact absurd formed.1 (by simp)

/-- No operator stands in front of a value without parentheses. -/
theorem noUnary {expr : Expr} (formed : expr.Formed .value) (more : List Kind) :
    UnaryOp.ofKind? (lead (expr.tokens ++ more)) = none := by
  unfold UnaryOp.ofKind?
  split
  · next isNot => exact absurd isNot (Expr.lead_ne formed more rfl (by simp))
  · next isMinus => exact absurd isMinus (Expr.lead_ne formed more rfl (by simp))
  · rfl

theorem leading_reads (reads : phrases.ReadBack limit bound) {expr : Expr}
    (formed : expr.Formed .value) (fits : 2 * expr.tokens.length ≤ bound)
    (room : depth + 2 * (Outline.ofExpr expr).depth ≤ capOf limit + 2) (stops : Stops rest) :
    Reads limit (Outline.ofExpr expr).Readable (leading phrases) depth (expr.tokens ++ rest)
      (fun e => e.erase = expr.erase) depth rest := by
  refine .still here_still fun start => kind_reads.step ?_
  rw [noUnary formed rest]
  exact primary_reads reads formed fits room stops

end Parse

end CanonicalSql
