import CanonicalSql.Proofs.Elsewhere.Whole

/-!
# Queries put together

What a query reads if its parts are read: a projection of targets and sources alone, a query that
is no more than its body, and a statement that is a query. Where a text is asked about as a part of
a statement, the rest of the statement is one of these.
-/
namespace CanonicalSql

namespace Parse

variable {limit depth bound : Nat} {accepts needed : Prop} {phrases : Phrases}
  {row kinds mid rest : List Kind}

/-- A projection without clauses behind its sources. -/
def projection (targets : List Expr) (sources : List Rel) (span : Span) : Select :=
  ⟨none, targets, sources, none, none, none, [], span⟩

/-- A query without clauses. -/
def bareQuery (body : Rel) (span : Span) : Query := ⟨none, body, [], none, none, span⟩

theorem projection_reads {goodTargets : List Expr → Prop} {goodSources : List Rel → Prop}
    (noAll : lead row ≠ .keyword .ALL) (noDistinct : lead row ≠ .keyword .DISTINCT)
    (targets : Reads limit needed (commaSeparated (target phrases)) depth row goodTargets depth mid)
    (needs : accepts → needed)
    (sources : needed → Reads limit accepts (sources phrases) depth mid goodSources depth rest)
    (past : Past 6 rest) :
    Reads limit accepts (select phrases) depth (.keyword .SELECT :: row)
      (fun s => ∃ targets sources span, s = projection targets sources span ∧ goodTargets targets ∧
        goodSources sources) depth rest := by
  refine .still here_still fun start => (expectWord_reads .SELECT).step ?_
  have noQuantifier : Reads limit True setQuantifier depth row (· = none) depth row :=
    (takeWord_no noAll).step ((takeWord_no noDistinct).step (.pure trivial rfl))
  refine noQuantifier.step (targets.bind needs fun isNeeded found isGood => ?_)
  refine (sources isNeeded).bind id fun holds others areGood => ?_
  have noClause {word : Keyword} (low : (Kind.keyword word).rank < 6) :
      Reads limit True (phrases.optionalClause word) depth rest (· = none) depth rest :=
    (takeWord_no (past.ne low)).step (.pure trivial rfl)
  have noGroups : Reads limit True (groupClause phrases) depth rest (· = none) depth rest :=
    .still here_still fun _ => (takeWord_no (past.ne (by decide))).step (.pure trivial rfl)
  have noWindows : Reads limit True (windows phrases) depth rest (· = []) depth rest :=
    (takeWord_no (past.ne (by decide))).step (.pure trivial rfl)
  refine (noClause (by decide)).step (noGroups.step ((noClause (by decide)).step ?_))
  refine noWindows.step (.still (spanFrom_still start) fun span => ?_)
  exact .pure holds ⟨found, others, span, rfl, isGood, areGood⟩

/-- One target, and nothing behind it. -/
theorem single_target_reads {good : Expr → Prop} (noAll : lead row ≠ .keyword .ALL)
    (noDistinct : lead row ≠ .keyword .DISTINCT)
    (expression : Reads limit accepts phrases.expression depth row good depth rest)
    (past : Past 6 rest) :
    Reads limit accepts (select phrases) depth (.keyword .SELECT :: row)
      (fun s => ∃ expr span, s = projection [expr] [] span ∧ good expr) depth rest := by
  have alone : Reads limit accepts (target phrases) depth row good depth rest := by
    refine .still here_still fun start => expression.bind id fun holds expr isGood => ?_
    exact (optionalAlias_none (past.ne (by decide)) past.noName).step (.pure holds isGood)
  have none : Reads limit True (sources phrases) depth rest (· = []) depth rest :=
    (takeWord_no (past.ne (by decide))).step (.pure trivial rfl)
  refine (projection_reads noAll noDistinct (alone.single (past.ne (by decide))) id
    (fun holds => none.mono ⟨fun _ => holds, fun _ => trivial⟩ fun _ => id) past).mono Iff.rfl ?_
  rintro _ ⟨targets, sources, span, rfl, ⟨expr, rfl, isGood⟩, rfl⟩
  exact ⟨expr, span, rfl, isGood⟩

/-- All columns of one source. -/
theorem all_columns_reads (reads : phrases.ReadBack limit bound) (fits : 3 ≤ bound)
    (room : depth < capOf limit) {good : Rel → Prop}
    (source : Reads limit accepts (source phrases) depth row good depth rest) (past : Past 6 rest) :
    Reads limit accepts (select phrases) depth (.keyword .SELECT :: .symbol .star ::
        .keyword .FROM :: row)
      (fun s => ∃ star item span, s = projection [star] [item] span ∧
        star.erase = .asterisk none default ∧ good item) depth rest := by
  have star : Reads limit (Outline.ofExpr (.asterisk none default)).Readable (target phrases) depth
      (.symbol .star :: .keyword .FROM :: row)
      (fun e => e.erase = .asterisk none default) depth (.keyword .FROM :: row) :=
    target_reads reads (by simp [Expr.Formed]) fits
      (by
        have level : (Outline.ofExpr (.asterisk none default)).depth = 1 := by decide
        omega) rfl (by simp) rfl
  have readable : (Outline.ofExpr (.asterisk none default)).Readable := by
    rw [Outline.readable_ofExpr]
    simp [Outline.belowExpr, Node.isUnreadable]
  have item : Reads limit accepts (sources phrases) depth (.keyword .FROM :: row)
      (fun items => ∃ item, items = [item] ∧ good item) depth rest :=
    (takeWord_yes .FROM).step (source.single (past.ne (by decide)))
  refine (projection_reads (by simp) (by simp) (star.single (by simp)) (fun _ => readable)
    (fun _ => item) past).mono Iff.rfl ?_
  rintro _ ⟨targets, sources, span, rfl, ⟨star, rfl, isStar⟩, item, rfl, isGood⟩
  exact ⟨star, item, span, rfl, isStar, isGood⟩

/-! ## Queries -/

/-- The clauses behind the body of a query. -/
def tailClauses (phrases : Phrases) : Parse (List SortKey × Option Expr × Option Fetch) := do
  let keys ← orderBy phrases
  let skipped ← offset phrases
  let fetched ← fetch phrases
  return (keys, skipped, fetched)

theorem queryTail_eq (phrases : Phrases) (withClause : Option WithClause) (body : Rel)
    (start : Span) :
    queryTail phrases withClause body start = (do
      let (keys, skipped, fetched) ← tailClauses phrases
      return ⟨withClause, body, keys, skipped, fetched, ← spanFrom start⟩) := by
  simp only [queryTail, tailClauses, bind_assoc, pure_bind]

/-- Where no clause follows, none is read. -/
theorem noClauses_reads (noOrder : lead rest ≠ .keyword .ORDER)
    (noOffset : lead rest ≠ .keyword .OFFSET) (noFetch : lead rest ≠ .keyword .FETCH) :
    Reads limit True (tailClauses phrases) depth rest (· = ([], none, none)) depth rest := by
  have keys : Reads limit True (orderBy phrases) depth rest (· = []) depth rest :=
    (takeWord_no noOrder).step (.pure trivial rfl)
  have skipped : Reads limit True (offset phrases) depth rest (· = none) depth rest :=
    (takeWord_no noOffset).step (.pure trivial rfl)
  have fetched : Reads limit True (fetch phrases) depth rest (· = none) depth rest :=
    .still here_still fun _ => (takeWord_no noFetch).step (.pure trivial rfl)
  exact keys.step (skipped.step (fetched.step (.pure trivial rfl)))

theorem noTail_reads (past : Past 10 rest) (withClause : Option WithClause) (body : Rel)
    (start : Span) :
    Reads limit True (queryTail phrases withClause body start) depth rest
      (fun q => ∃ span, q = ⟨withClause, body, [], none, none, span⟩) depth rest := by
  rw [queryTail_eq]
  refine (noClauses_reads (past.ne (by decide)) (past.ne (by decide)) (past.ne (by decide))).step ?_
  exact .still (spanFrom_still start) fun span => .pure trivial ⟨span, rfl⟩

/-- No query that begins with another token has a `WITH` clause. -/
theorem noWith_reads (noWith : lead row ≠ .keyword .WITH) :
    Reads limit True (withClause phrases) depth row (· = none) depth row :=
  .still here_still fun _ => (takeWord_no noWith).step (.pure trivial rfl)

/-- A query that is no more than its body, which is one operand. -/
theorem bareQuery_reads (room : depth < capOf limit) {good : Rel → Prop}
    (noWith : lead row ≠ .keyword .WITH)
    (body : Reads limit accepts (queryPrimary phrases) (depth + 1) row good (depth + 1) rest)
    (past : Past 10 rest) :
    Reads limit accepts (query phrases) depth row
      (fun q => ∃ rel span, q = bareQuery rel span ∧ good rel) depth rest := by
  refine .nested room (.still here_still fun start => (noWith_reads noWith).step ?_)
  refine body.bind id fun holds rel isGood => ?_
  refine (noSetOperation_reads (past.mono (by omega)).noOperator rel).step ?_
  refine (noTail_reads past none rel start).mono ⟨fun _ => holds, fun _ => trivial⟩ ?_
  rintro _ ⟨span, rfl⟩
  exact ⟨rel, span, rfl, isGood⟩

/-- A projection is an operand. -/
theorem select_operand_reads {good : Select → Prop}
    (projection : Reads limit accepts (select phrases) depth (.keyword .SELECT :: row) good depth
      rest) :
    Reads limit accepts (queryPrimary phrases) depth (.keyword .SELECT :: row)
      (fun rel => ∃ s, rel = .select s ∧ good s) depth rest :=
  kind_reads.step (projection.bind id fun holds s isGood => .pure holds ⟨s, rfl, isGood⟩)

/-- A statement that is a query. -/
theorem query_statement_reads {good : Query → Prop}
    (starts : isQueryStart (lead row) = true ∨ lead row = .symbol .leftParen)
    (whole : Reads limit accepts wholeQuery 0 row good 0 rest) :
    Reads limit accepts bareStatement 0 row
      (fun it => ∃ query span, it = .select query span ∧ good query) 0 rest := by
  refine bareStatement_select starts (.still here_still fun start => ?_)
  refine whole.bind id fun holds query isGood => .still (spanFrom_still start) fun span => ?_
  exact .pure holds ⟨query, span, rfl, isGood⟩

/-- A whole query is read with as many levels of recursion as its tokens may need. -/
theorem wholeQuery_of_query {good : Query → Prop} (levels : bound + 1 = 8 * row.length + 16)
    (inner : Reads limit accepts (query (Phrases.within bound)) depth row good depth rest) :
    Reads limit accepts wholeQuery depth row good depth rest := by
  refine .forState ?_
  rw [← levels]
  exact inner

/-- A statement that selects one value. -/
theorem value_statement_reads {good : Expr → Prop} (room : 1 ≤ capOf limit)
    (noAll : lead row ≠ .keyword .ALL) (noDistinct : lead row ≠ .keyword .DISTINCT)
    (expression : Reads limit accepts (Phrases.within (8 * row.length + 23)).expression 1 row good 1
      rest) (past : Past 10 rest) :
    Reads limit accepts bareStatement 0 (.keyword .SELECT :: row)
      (fun it => ∃ expr targetSpan span span', it = .select
        (bareQuery (.select (projection [expr] [] targetSpan)) span) span' ∧ good expr) 0 rest := by
  have select := single_target_reads noAll noDistinct expression (past.mono (by omega))
  have whole := bareQuery_reads room (by simp) (select_operand_reads select) past
  have levels : 8 * row.length + 23 + 1 = 8 * (.keyword .SELECT :: row : List Kind).length + 16 := by
    rw [List.length_cons]
    omega
  refine (query_statement_reads (.inl rfl) (wholeQuery_of_query levels whole)).mono Iff.rfl ?_
  rintro _ ⟨_, span', rfl, _, span, rfl, _, rfl, expr, targetSpan, rfl, isGood⟩
  exact ⟨expr, targetSpan, span, span', rfl, isGood⟩

/-- A statement that selects all columns of one source. -/
theorem source_statement_reads {good : Rel → Prop} (room : 2 ≤ capOf limit)
    (item : Reads limit accepts (source (Phrases.within (8 * row.length + 39))) 1 row good 1 rest)
    (past : Past 10 rest) :
    Reads limit accepts bareStatement 0
      (.keyword .SELECT :: .symbol .star :: .keyword .FROM :: row)
      (fun it => ∃ star item targetSpan span span', it = .select
        (bareQuery (.select (projection [star] [item] targetSpan)) span) span' ∧
          star.erase = .asterisk none default ∧ good item) 0 rest := by
  have select := all_columns_reads (phrases_reads limit _) (by omega) (by omega) item
    (past.mono (by omega))
  have whole := bareQuery_reads (by omega) (by simp) (select_operand_reads select) past
  have levels : 8 * row.length + 39 + 1 =
      8 * (.keyword .SELECT :: .symbol .star :: .keyword .FROM :: row : List Kind).length + 16 := by
    simp only [List.length_cons]
    omega
  refine (query_statement_reads (.inl rfl) (wholeQuery_of_query levels whole)).mono Iff.rfl ?_
  rintro _ ⟨_, span', rfl, _, span, rfl, _, rfl, star, item, targetSpan, rfl, isStar, isGood⟩
  exact ⟨star, item, targetSpan, span, span', rfl, isStar, isGood⟩

end Parse

end CanonicalSql
