import CanonicalSql.Proofs.Reading.Phrases

/-!
# Reading the tail of a query

`ORDER BY`, `OFFSET` and `FETCH` are read back clause by clause, each told by its keyword.
There is one exception: a row as the count of `FETCH` is always refused, since the word
`ROW` that it begins with is taken for the end of the clause.

A query whose text begins with an operand in parentheses is first read as that operand, and
then gone on with (`reopened_reads`).
-/
namespace CanonicalSql.Parse

variable {limit bound depth : Nat} {phrases : Phrases} {rest : List Kind}

/-! ## Sort keys -/

theorem sortOrder_reads (order : SortOrder) :
    Reads limit True sortOrder depth (.keyword order.word :: rest) (· = order) depth rest := by
  cases order with
  | ascending =>
    exact (takeWord_no (by simp [SortOrder.word])).step
      ((takeWord_yes .ASC).after fun _ _ => .pure trivial rfl)
  | descending => exact (takeWord_yes .DESC).step (.pure trivial rfl)

theorem nullOrder_reads (nulls : NullOrder) (stops : lead rest ≠ .keyword .NULLS) :
    Reads limit True nullOrder depth (Piece.kinds (Canonical.ofNullOrder nulls) ++ rest)
      (· = nulls) depth rest := by
  cases nulls with
  | unspecified => exact (takeWord_no stops).step (.pure trivial rfl)
  | first =>
    exact (takeWord_yes .NULLS).step ((takeWord_yes .FIRST).step (.pure trivial rfl))
  | last =>
    show Reads limit True nullOrder depth (.keyword .NULLS :: .keyword .LAST :: rest)
      (· = .last) depth rest
    exact (takeWord_yes .NULLS).step ((takeWord_no (by simp)).step
      ((expectWord_reads .LAST).step (.pure trivial rfl)))

theorem sortKey_reads (reads : phrases.ReadBack limit bound) {key : SortKey}
    (formed : key.Formed)
    (fits : 2 * (Piece.kinds (Canonical.ofSortKey key)).length + 1 ≤ bound)
    (room : depth + 2 * (Outline.ofExpr key.expr).depth ≤ capOf limit + 1)
    (stops : lead rest ≠ .keyword .NULLS) :
    Reads limit (Outline.ofExpr key.expr).Readable (sortKey phrases) depth
      (Piece.kinds (Canonical.ofSortKey key) ++ rest) (fun k => k.erase = key.erase) depth
      rest := by
  obtain ⟨expr, order, nulls, span⟩ := key
  have text : Piece.kinds (Canonical.ofSortKey ⟨expr, order, nulls, span⟩) ++ rest =
      expr.tokens ++ .keyword order.word ::
        (Piece.kinds (Canonical.ofNullOrder nulls) ++ rest) := by
    simp [Canonical.ofSortKey]
  have shorter : expr.tokens.length ≤
      (Piece.kinds (Canonical.ofSortKey ⟨expr, order, nulls, span⟩)).length := by
    simp [Canonical.ofSortKey]
  rw [text]
  refine .still here_still fun start => ?_
  refine (expression_reads reads formed (by omega) room ?_).bind id fun holds e same => ?_
  · cases order <;> rfl
  · refine (sortOrder_reads order).step ((nullOrder_reads nulls stops).step ?_)
    exact .still (spanFrom_still start) fun _ => .pure holds (by simp [SortKey.erase, same])

theorem orderBy_reads (reads : phrases.ReadBack limit bound) {keys : List SortKey}
    (formed : SortKey.AllFormed keys)
    (fits : 2 * ((Canonical.clause [.ORDER, .BY] (Canonical.ofSortKeys keys)).flatMap
      Piece.kinds).length ≤ bound + 1)
    (room : depth + 2 * Outline.depthAll (Outline.ofSortKeys keys) ≤ capOf limit + 1)
    (past : Past 8 rest) :
    Reads limit (Outline.AllReadable (Outline.ofSortKeys keys)) (orderBy phrases) depth
      ((Canonical.clause [.ORDER, .BY] (Canonical.ofSortKeys keys)).flatMap Piece.kinds ++ rest)
      (fun them => SortKey.eraseAll them = SortKey.eraseAll keys) depth rest := by
  rw [Canonical.ofSortKeys_eq_map] at fits ⊢
  cases keys with
  | nil => exact (takeWord_no (past.ne (by decide))).step (.pure (by simp [Outline.ofSortKeys]) rfl)
  | cons key keys =>
    have text : (Canonical.clause [.ORDER, .BY] ((key :: keys).map Canonical.ofSortKey)).flatMap
        Piece.kinds = .keyword .ORDER :: .keyword .BY ::
          Piece.kinds (Piece.commaSeparated ((key :: keys).map Canonical.ofSortKey)) := by
      simp [Canonical.clause]
    rw [text] at fits ⊢
    simp only [List.length_cons] at fits
    refine (takeWord_yes .ORDER).step ((expectWord_reads .BY).step ?_)
    have items : Reads limit (∀ it ∈ key :: keys, (Outline.ofExpr it.expr).Readable)
        (commaSeparated (sortKey phrases)) depth
        (Piece.kinds (Piece.commaSeparated ((key :: keys).map Canonical.ofSortKey)) ++ rest)
        (fun them => them.map SortKey.erase = (key :: keys).map SortKey.erase) depth rest := by
      refine Reads.list (by simp) (past.ne (by decide)) fun it member more after => ?_
      have shorter := Piece.length_item_le Canonical.ofSortKey member
      have lower := Outline.depth_le_ofSortKeys member
      refine sortKey_reads reads (SortKey.allFormed_iff.mp formed it member) (by omega)
        (by omega) ?_
      rcases after with comma | rfl
      · rw [comma]
        simp
      · exact past.ne (by decide)
    refine items.mono Outline.allReadable_ofSortKeys.symm fun them same => ?_
    rw [SortKey.eraseAll_eq_map, SortKey.eraseAll_eq_map, same]

/-! ## Offset and fetch -/

theorem takeRows_reads :
    Reads limit True takeRows depth (.keyword .ROWS :: rest) (· = true) depth rest :=
  (takeWord_no (by simp)).step (takeWord_yes .ROWS)

theorem expectRows_reads :
    Reads limit True expectRows depth (.keyword .ROWS :: rest) (· = ()) depth rest :=
  (takeWord_no (by simp)).step (expectWord_reads .ROWS)

theorem offset_reads (reads : phrases.ReadBack limit bound) {count : Option Expr}
    (formed : Expr.OptionFormed count)
    (fits : 2 * ((Canonical.ofOffset count).flatMap Piece.kinds).length ≤ bound + 1)
    (room : depth + 2 * Outline.depthAll (Outline.ofOption count) ≤ capOf limit + 1)
    (past : Past 9 rest) :
    Reads limit (Outline.AllReadable (Outline.ofOption count)) (offset phrases) depth
      ((Canonical.ofOffset count).flatMap Piece.kinds ++ rest)
      (fun e => Expr.eraseOption e = Expr.eraseOption count) depth rest := by
  cases count with
  | none =>
    exact (takeWord_no (past.ne (by decide))).step (.pure (by simp [Outline.ofOption]) rfl)
  | some count =>
    have text : (Canonical.ofOffset (some count)).flatMap Piece.kinds ++ rest =
        .keyword .OFFSET :: (count.tokens ++ .keyword .ROWS :: rest) := by
      simp [Canonical.ofOffset]
    have shorter : count.tokens.length + 2 ≤
        ((Canonical.ofOffset (some count)).flatMap Piece.kinds).length := by
      simp [Canonical.ofOffset]
    simp only [Outline.ofOption, Outline.plain_expr, Outline.depthAll_cons] at room
    rw [text]
    refine (takeWord_yes .OFFSET).step ?_
    refine (expression_reads reads formed (by omega) (by omega) rfl).bind ?_ ?_
    · simp [Outline.ofOption, Outline.plain_expr]
    · intro holds e same
      refine takeRows_reads.step (.pure ?_ ?_)
      · simpa [Outline.ofOption, Outline.plain_expr] using holds
      · simp [Expr.eraseOption, same]

theorem fetchKind_reads (kind : FetchKind) :
    Reads limit True fetchKind depth (.keyword kind.word :: rest) (· = kind) depth rest := by
  cases kind with
  | first => exact (takeWord_yes .FIRST).step (.pure trivial rfl)
  | next =>
    exact (takeWord_no (by simp [FetchKind.word])).step
      ((takeWord_yes .NEXT).step (.pure trivial rfl))

theorem withTies_reads (ties : Bool) :
    Reads limit True withTies depth
      ((if ties then [.keyword .WITH, .keyword .TIES] else [.keyword .ONLY]) ++ rest)
      (· = ties) depth rest := by
  cases ties with
  | false => exact (takeWord_yes .ONLY).step (.pure trivial rfl)
  | true =>
    exact (takeWord_no (by simp)).step ((takeWord_yes .WITH).step
      ((expectWord_reads .TIES).step (.pure trivial rfl)))

theorem takePercent_reads (percent : Bool) (stops : lead rest ≠ .keyword .PERCENT) :
    Reads limit True (takeWord .PERCENT) depth
      (Piece.kinds (Canonical.when percent (Piece.after [Piece.word .PERCENT])) ++ rest)
      (· = percent) depth rest := by
  cases percent with
  | false => exact takeWord_no stops
  | true => exact takeWord_yes .PERCENT

theorem fetchCount_reads (reads : phrases.ReadBack limit bound) {count : Option Expr}
    (formed : Expr.OptionFormed count) (noRow : count.any Expr.isRow = false)
    (fits : 2 * (Piece.kinds (Canonical.ofCount count)).length + 1 ≤ bound)
    (room : depth + 2 * Outline.depthAll (Outline.ofOption count) ≤ capOf limit + 1)
    (absent : count = none → lead rest = .keyword .ROWS)
    (quiet : (lead rest).isQuiet = true) :
    Reads limit (Outline.AllReadable (Outline.ofOption count)) (fetchCount phrases) depth
      (Piece.kinds (Canonical.ofCount count) ++ rest)
      (fun e => Expr.eraseOption e = Expr.eraseOption count) depth rest := by
  cases count with
  | none =>
    have rows := absent rfl
    exact (atWord_no (by simp [Canonical.ofCount, rows])).step
      ((atWord_yes (by simpa [Canonical.ofCount] using rows)).step
        (.pure (by simp [Outline.ofOption]) rfl))
  | some count =>
    have text : Piece.kinds (Canonical.ofCount (some count)) = count.tokens := by
      simp [Canonical.ofCount]
    rw [text] at fits ⊢
    simp only [Outline.ofOption, Outline.plain_expr, Outline.depthAll_cons] at room
    refine (atWord_no (Expr.lead_ne_row formed noRow rest)).step ?_
    refine (atWord_no (Expr.lead_ne formed rest rfl (by simp))).step ?_
    refine (expression_reads reads formed fits (by omega) quiet).bind ?_ ?_
    · simp [Outline.ofOption, Outline.plain_expr]
    · intro holds e same
      exact .pure (by simpa [Outline.ofOption, Outline.plain_expr] using holds)
        (by simp [Expr.eraseOption, same])

/-- The word `ROW` that a row begins with ends the clause, and neither `ONLY` nor `WITH`
follows it. -/
theorem rowCount_refused {accepts : Prop} (fails : ¬ accepts) {good : Option Fetch → Prop}
    (kind : FetchKind) (more : List Kind) :
    Reads limit accepts (fetch phrases) depth
      (.keyword .FETCH :: .keyword kind.word :: .keyword .ROW :: .symbol .leftParen :: more)
      good depth rest := by
  refine .still here_still fun start => (takeWord_yes .FETCH).step ?_
  refine (fetchKind_reads kind).step ?_
  refine ((atWord_yes (lead_cons _ _)).step (.pure trivial rfl) :
    Reads limit True (fetchCount phrases) depth (.keyword .ROW :: .symbol .leftParen :: more)
      (· = none) depth (.keyword .ROW :: .symbol .leftParen :: more)).step ?_
  refine (takeWord_no (by simp)).step ?_
  refine ((takeWord_yes .ROW).step (.pure trivial rfl) :
    Reads limit True expectRows depth (.keyword .ROW :: .symbol .leftParen :: more)
      (· = ()) depth (.symbol .leftParen :: more)).step ?_
  refine Reads.refused ?_ fails
  exact (takeWord_no (by simp)).step ((takeWord_no (by simp)).step (unexpected_reads id _))

/-- No `FETCH` clause counts a row, and nothing below it has a shape that is refused. -/
def fetchReadable (fetched : Option Fetch) : Prop :=
  (fetched.any fun it => it.count.any Expr.isRow) = false ∧
    Outline.AllReadable (Outline.belowFetch fetched)

theorem fetch_reads (reads : phrases.ReadBack limit bound) {fetched : Option Fetch}
    (formed : Fetch.OptionFormed fetched)
    (fits : 2 * ((Canonical.ofFetch fetched).flatMap Piece.kinds).length ≤ bound + 1)
    (room : depth + 2 * Outline.depthAll (Outline.belowFetch fetched) ≤ capOf limit + 1)
    (past : Past 10 rest) :
    Reads limit (fetchReadable fetched) (fetch phrases) depth
      ((Canonical.ofFetch fetched).flatMap Piece.kinds ++ rest)
      (fun it => Fetch.eraseOption it = Fetch.eraseOption fetched) depth rest := by
  rcases fetched with _ | ⟨kind, count, percent, ties, span⟩
  · refine .still here_still fun start => (takeWord_no (past.ne (by decide))).step ?_
    exact .pure ⟨rfl, by simp [Outline.belowFetch]⟩ rfl
  · have text : (Canonical.ofFetch (some ⟨kind, count, percent, ties, span⟩)).flatMap
        Piece.kinds ++ rest = .keyword .FETCH :: .keyword kind.word ::
          (Piece.kinds (Canonical.ofCount count) ++
            (Piece.kinds (Canonical.when percent (Piece.after [Piece.word .PERCENT])) ++
              .keyword .ROWS ::
                ((if ties then [Kind.keyword .WITH, .keyword .TIES] else [Kind.keyword .ONLY]) ++
                  rest))) := by
      cases ties <;> simp [Canonical.ofFetch]
    have shorter : (Piece.kinds (Canonical.ofCount count)).length + 3 ≤
        ((Canonical.ofFetch (some ⟨kind, count, percent, ties, span⟩)).flatMap
          Piece.kinds).length := by
      cases ties <;> simp [Canonical.ofFetch]
    rw [text]
    -- a row as the count is taken for the word `ROW` behind no count at all
    cases isRow : count.any Expr.isRow with
    | true =>
      have fails : ¬ fetchReadable (some ⟨kind, count, percent, ties, span⟩) := by
        rintro ⟨noRow, -⟩
        rw [Option.any_some, isRow] at noRow
        cases noRow
      cases count with
      | none => cases isRow
      | some count =>
        cases count with
        | row values rowSpan => exact rowCount_refused fails kind _
        | _ => cases isRow
    | false =>
      refine .still here_still fun start => (takeWord_yes .FETCH).step ?_
      refine (fetchKind_reads kind).step ?_
      refine (fetchCount_reads reads formed.1 isRow (by omega) room ?_ ?_).bind And.right ?_
      · rintro rfl
        cases percent with
        | false => rfl
        | true => exact absurd (formed.2 rfl) (by simp)
      · cases percent <;> rfl
      · intro holds e same
        refine (takePercent_reads percent (by simp)).step (expectRows_reads.step ?_)
        refine (withTies_reads ties).step (.still (spanFrom_still start) fun _ => ?_)
        exact .pure ⟨isRow, holds⟩ (by simp [Fetch.eraseOption, same])

/-! ## The whole tail -/

/-- The tail of a query completes it, once its body has been read. -/
theorem queryTail_reads (reads : phrases.ReadBack limit bound) {query : Query}
    (formed : query.Formed) (fits : 2 * query.tailTokens.length ≤ bound + 1)
    (room : depth + 2 * (Outline.ofQuery query).depth ≤ capOf limit + 3)
    (past : Past 10 rest) {withClause : Option WithClause} {body : Rel}
    (sameWith : WithClause.eraseOption withClause = WithClause.eraseOption query.withClause)
    (sameBody : body.erase = query.body.erase) (start : Span) :
    Reads limit query.TailReadable (queryTail phrases withClause body start) depth
      (query.tailTokens ++ rest) (fun q => q.erase = query.erase) depth rest := by
  obtain ⟨-, -, keysFormed, offsetFormed, fetchFormed⟩ := Query.formed_iff.mp formed
  rw [Query.depth_eq] at room
  simp only [Query.tailTokens, Query.tail, List.flatMap_append, List.length_append] at fits
  simp only [Query.tailTokens, Query.tail, List.flatMap_append, List.append_assoc]
  have afterOffset : Past 9 ((Canonical.ofFetch query.fetch).flatMap Piece.kinds ++ rest) := by
    rcases query.fetch with _ | ⟨kind, count, percent, ties, span⟩
    · exact past.mono (by omega)
    · exact Nat.le_refl 9
  have afterKeys : Past 8 ((Canonical.ofOffset query.offset).flatMap Piece.kinds ++
      ((Canonical.ofFetch query.fetch).flatMap Piece.kinds ++ rest)) := by
    cases query.offset with
    | none => exact afterOffset.mono (by omega)
    | some count => exact Nat.le_refl 8
  refine (orderBy_reads reads keysFormed (by omega) (by omega) afterKeys).bind
    Query.TailReadable.orderBy fun keysHold keys sameKeys => ?_
  refine (offset_reads reads offsetFormed (by omega) (by omega) afterOffset).bind
    Query.TailReadable.offset fun offsetHolds count sameCount => ?_
  refine (fetch_reads reads fetchFormed (by omega) (by omega) past).bind
    (fun tail => ⟨tail.noRow, tail.fetch⟩) fun fetchHolds fetched sameFetch => ?_
  refine .still (spanFrom_still start) fun span => .pure ?_ ?_
  · exact ⟨fetchHolds.1, keysHold, offsetHolds, fetchHolds.2⟩
  · obtain ⟨withs, body, orderBy, offset, fetch, span⟩ := query
    simp [Query.erase, sameWith, sameBody, sameKeys, sameCount, sameFetch]

/-- The tail of a query begins no set operation. -/
theorem past_tailTokens (query : Query) (past : Past 10 rest) :
    Past 7 (query.tailTokens ++ rest) := by
  obtain ⟨withClause, body, orderBy, offset, fetch, span⟩ := query
  cases orderBy with
  | cons key keys => exact Nat.le_refl 7
  | nil =>
    cases offset with
    | some count => exact (Nat.le_succ 7 : 7 ≤ 8)
    | none =>
      rcases fetch with _ | ⟨kind, count, percent, ties, fetchSpan⟩
      · exact past.mono (by omega)
      · exact (by decide : 7 ≤ 9)

/-- What follows the operand in parentheses that a query begins with completes the query. -/
theorem reopened_reads (reads : phrases.ReadBack limit bound) {query found : Query}
    (formed : query.Formed) (enclosed : query.beginsEnclosed = true)
    (fits : 2 * query.furtherTokens.length + 1 ≤ bound)
    (room : depth + 2 * (Outline.ofQuery query).depth ≤ capOf limit + 1)
    (past : Past 10 rest)
    (same : found.erase = query.body.firstOperand.enclosedQuery.erase) (start : Span) :
    Reads limit (query.body.FurtherReadable ∧ query.TailReadable)
      (reopened phrases found start) depth (query.furtherTokens ++ rest)
      (fun q => q.erase = query.erase) depth rest := by
  have bodyFormed := (Query.formed_iff.mp formed).2.1
  have sameOperand := Rel.operand_of_enclosed (Rel.firstOperand_formed bodyFormed) same
  have noWith : query.withClause = none := by
    simp only [Query.beginsEnclosed, Bool.and_eq_true, Option.isNone_iff_eq_none] at enclosed
    exact enclosed.1
  have lower := Query.depth_eq query
  simp only [Query.furtherTokens, List.length_append] at fits
  rw [Query.furtherTokens, List.append_assoc]
  refine (reads.setOperations bodyFormed sameOperand (by omega) (by omega)
    (past_tailTokens query past)).bind And.left fun holds body sameBody => ?_
  refine (queryTail_reads reads formed (by omega) (by omega) past (by rw [noWith]) sameBody
    start).mono ⟨fun tail => ⟨holds, tail⟩, And.right⟩ fun _ isSame => isSame

end CanonicalSql.Parse
