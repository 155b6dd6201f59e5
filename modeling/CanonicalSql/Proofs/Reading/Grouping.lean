import CanonicalSql.Proofs.Reading.Expr

/-!
# Reading grouping elements

A parenthesis opens a list of columns unless a query follows it. The only column of a
grouping set stands without parentheses of its own, so that those of an operator or a
predicate are taken for the list: what is between them is read all the same, and no
operator follows. A subquery that begins with an operand in parentheses is refused there,
since that operand is taken for the only column of the list.
-/
namespace CanonicalSql

namespace Outline

theorem allReadable_belowGroupingSets {sets : List GroupingSet} :
    AllReadable (belowGroupingSets sets) ↔ ∀ set ∈ sets, AllReadable (belowGroupingSet set) := by
  induction sets with
  | nil => simp [belowGroupingSets]
  | cons set rest ih => simp [belowGroupingSets, ih]

theorem depth_le_belowGroupingSets {set : GroupingSet} {sets : List GroupingSet}
    (member : set ∈ sets) :
    depthAll (belowGroupingSet set) ≤ depthAll (belowGroupingSets sets) := by
  induction sets with
  | nil => cases member
  | cons other rest ih =>
    simp only [belowGroupingSets, depthAll_append]
    rcases List.mem_cons.mp member with rfl | member
    · omega
    · have := ih member
      omega

end Outline

namespace Parse

variable {limit bound depth : Nat} {phrases : Phrases} {rest : List Kind}

/-! ## Opening a list -/

theorem opensList_yes {kinds : List Kind} (other : isQueryStart (lead kinds) = false) :
    Reads limit True opensList depth (.symbol .leftParen :: kinds) (· = true) depth
      (.symbol .leftParen :: kinds) := by
  refine (atSign_yes (lead_cons _ _)).step (peek_reads.step (.pure trivial ?_))
  show (!isQueryStart (lead kinds)) = true
  rw [other]
  rfl

theorem opensList_query {kinds : List Kind} (starts : isQueryStart (lead kinds) = true) :
    Reads limit True opensList depth (.symbol .leftParen :: kinds) (· = false) depth
      (.symbol .leftParen :: kinds) := by
  refine (atSign_yes (lead_cons _ _)).step (peek_reads.step (.pure trivial ?_))
  show (!isQueryStart (lead kinds)) = false
  rw [starts]
  rfl

theorem opensList_no {kinds : List Kind} (other : lead kinds ≠ .symbol .leftParen) :
    Reads limit True opensList depth kinds (· = false) depth kinds :=
  (atSign_no other).step (.pure trivial rfl)

/-- No operator follows the columns of a list. -/
theorem longerColumns_reads (quiet : (lead rest).isQuiet = true) (columns : List Expr)
    (start : Span) :
    Reads limit True (longerColumns phrases columns start) depth rest (· = columns) depth
      rest := by
  unfold longerColumns
  split
  · refine operatorPower_reads.step ?_
    rw [Power.ahead, if_neg (Kind.ne_of_isQuiet quiet rfl), Kind.ofKind?_of_isQuiet quiet]
    exact .pure trivial rfl
  · exact .pure trivial rfl

/-! ## Grouping sets -/

/-- The columns between the parentheses of a list, and what follows them. -/
theorem listedColumns_reads {accepts : Prop} {kinds : List Kind} {columns : List Expr}
    (opens : isQueryStart (lead kinds) = false) (quiet : (lead rest).isQuiet = true)
    (list : Reads limit accepts (groupedColumns phrases) depth kinds
      (fun them => Expr.eraseAll them = Expr.eraseAll columns) depth
      (.symbol .rightParen :: rest)) (span : Span) :
    Reads limit accepts (groupingSet phrases) depth (.symbol .leftParen :: kinds)
      (fun set => set.erase = (GroupingSet.mk columns span).erase) depth rest := by
  refine .still here_still fun start => (opensList_yes opens).step ?_
  refine advance_reads.after fun _ _ => list.bind id fun holds them same => ?_
  refine (expectSign_reads _).step ((longerColumns_reads quiet them start).step ?_)
  exact .still (spanFrom_still start) fun _ => .pure holds (by simp [GroupingSet.erase, same])

/-- The only column of a grouping set where it opens no list. -/
theorem plainColumn_reads (reads : phrases.ReadBack limit bound) {column : Expr}
    (formed : column.Formed .value) (fits : 2 * column.tokens.length + 1 ≤ bound)
    (room : depth + 2 * (Outline.ofExpr column).depth ≤ capOf limit + 1)
    (quiet : (lead rest).isQuiet = true)
    (opens : Reads limit True opensList depth (column.tokens ++ rest) (· = false) depth
      (column.tokens ++ rest)) (span : Span) :
    Reads limit (Outline.ofExpr column).Readable (groupingSet phrases) depth
      (column.tokens ++ rest) (fun set => set.erase = (GroupingSet.mk [column] span).erase)
      depth rest := by
  refine .still here_still fun start => opens.step ?_
  refine (expression_reads reads formed fits room quiet).bind id fun holds e same => ?_
  refine .still (spanFrom_still start) fun _ => .pure holds ?_
  simp [GroupingSet.erase, Expr.eraseAll, same]

/-- A subquery that begins with an operand in parentheses is refused as the only column of
a grouping set. -/
theorem enclosedColumn_refused (reads : phrases.ReadBack limit bound) {query : Query}
    {accepts : Prop} (fails : ¬ accepts) (formed : query.Formed) (wraps : ¬ query.Wraps)
    (enclosed : query.beginsEnclosed = true) (fits : 2 * query.tokens.length + 1 ≤ bound)
    (room : depth + 2 * (Outline.ofQuery query).depth ≤ capOf limit + 1)
    {good : GroupingSet → Prop} (more : List Kind) :
    Reads limit accepts (groupingSet phrases) depth
      (.symbol .leftParen :: (query.tokens ++ more)) good depth rest := by
  have text := Query.tokens_enclosed formed enclosed
  have goesOn := Query.goesOn enclosed wraps more
  have opens : isQueryStart (lead (query.tokens ++ more)) = false := by
    rw [text]
    rfl
  refine .still here_still fun start => (opensList_yes opens).step ?_
  refine advance_reads.after fun _ _ => ?_
  have notClosed : lead (query.tokens ++ more) ≠ .symbol .rightParen := by
    rw [text]
    simp
  have columns : Reads limit
      (Outline.ofQuery query.body.firstOperand.enclosedQuery).Readable (groupedColumns phrases)
      depth (query.tokens ++ more) (fun _ => True) depth (query.furtherTokens ++ more) := by
    refine (atSign_no notClosed).step ?_
    exact ((firstOperand_reads reads formed wraps enclosed fits room).single
      (Kind.ne_of_isQueryNext goesOn rfl)).mono Iff.rfl fun _ _ => trivial
  refine columns.bind (fun holds => absurd holds fails) fun _ _ _ => ?_
  exact Reads.refused (expectSign_refuses id (Kind.ne_of_isQueryNext goesOn rfl)) fails

/-- A list of no column, or of more than one. -/
theorem columnList_reads (reads : phrases.ReadBack limit bound) {columns : List Expr}
    (formed : Expr.AllFormed .value columns)
    (fits : 2 * (Piece.kinds (Piece.commaSeparated (Canonical.ofExprs columns))).length + 1
      ≤ bound)
    (room : depth + 2 * Outline.depthAll (Outline.ofExprs columns) ≤ capOf limit + 1)
    (quiet : (lead rest).isQuiet = true) (span : Span) :
    Reads limit (Outline.AllReadable (Outline.ofExprs columns)) (groupingSet phrases) depth
      (.symbol .leftParen :: (Piece.kinds (Piece.commaSeparated (Canonical.ofExprs columns)) ++
        .symbol .rightParen :: rest))
      (fun set => set.erase = (GroupingSet.mk columns span).erase) depth rest := by
  have opens : isQueryStart (lead
      (Piece.kinds (Piece.commaSeparated (Canonical.ofExprs columns)) ++
        .symbol .rightParen :: rest)) = false := by
    cases columns with
    | nil => rfl
    | cons column others =>
      simp only [Canonical.ofExprs, Piece.kinds_commaSeparated_cons, List.append_assoc]
      exact Expr.noQuery formed.1 _
  exact listedColumns_reads opens quiet (rowValues_reads reads formed fits room) span

/-- A single column, which stands without parentheses of its own. -/
theorem singleColumn_reads (reads : phrases.ReadBack limit bound) {column : Expr} {span : Span}
    (formed : column.Formed .value) (fits : 2 * column.tokens.length + 1 ≤ bound)
    (room : depth + 2 * (Outline.ofExpr column).depth ≤ capOf limit + 1)
    (quiet : (lead rest).isQuiet = true) :
    Reads limit ((GroupingSet.mk [column] span).isUnreadable = false ∧
        (Outline.ofExpr column).Readable)
      (groupingSet phrases) depth (column.tokens ++ rest)
      (fun set => set.erase = (GroupingSet.mk [column] span).erase) depth rest := by
  have plain : (GroupingSet.mk [column] span).isUnreadable = false →
      Reads limit True opensList depth (column.tokens ++ rest) (· = false) depth
        (column.tokens ++ rest) →
      Reads limit ((GroupingSet.mk [column] span).isUnreadable = false ∧
          (Outline.ofExpr column).Readable)
        (groupingSet phrases) depth (column.tokens ++ rest)
        (fun set => set.erase = (GroupingSet.mk [column] span).erase) depth rest :=
    fun noShape opens => (plainColumn_reads reads formed fits room quiet opens span).mono
      ⟨fun holds => ⟨noShape, holds⟩, And.right⟩ fun _ same => same
  -- the column may begin with a parenthesis around its first operand, be a query in parentheses,
  -- or begin with another token; only the second kind can be unreadable
  rcases Expr.encloses_or formed with ⟨row, encloses⟩ | ⟨query, place, rfl⟩ | noParen
  · have level := encloses.two_le_depth
    have noShape : (GroupingSet.mk [column] span).isUnreadable = false := by
      cases encloses with
      | after follows => cases follows <;> rfl
      | _ => rfl
    rw [encloses.tokens_eq] at fits ⊢
    simp only [List.length_cons, List.length_append] at fits
    simp only [List.cons_append, List.append_assoc, List.nil_append]
    have inside : Reads limit (Outline.ofExpr column).Readable phrases.expression depth
        (row ++ .symbol .rightParen :: rest) (fun e => e.erase = column.erase) depth
        (.symbol .rightParen :: rest) :=
      .nested (by omega) (reads.inner formed encloses (by omega) (by omega))
    have list : Reads limit (Outline.ofExpr column).Readable (groupedColumns phrases) depth
        (row ++ .symbol .rightParen :: rest)
        (fun them => Expr.eraseAll them = Expr.eraseAll [column]) depth
        (.symbol .rightParen :: rest) := by
      refine (atSign_no (encloses.lead_ne_rightParen formed _)).step ?_
      refine (inside.single (by simp)).mono Iff.rfl fun them isSingle => ?_
      obtain ⟨e, rfl, same⟩ := isSingle
      simp [Expr.eraseAll, same]
    exact (listedColumns_reads (encloses.noQuery formed _) quiet list span).mono
      ⟨fun holds => ⟨noShape, holds⟩, And.right⟩ fun _ same => same
  · have text : (Expr.subquery query place).tokens =
        .symbol .leftParen :: (query.tokens ++ [Kind.symbol .rightParen]) := by
      simp [Expr.tokens, Canonical.ofExpr]
    cases enclosed : query.beginsEnclosed with
    | false =>
      refine plain enclosed ?_
      rw [text, List.cons_append, List.append_assoc]
      exact opensList_query (query.starts formed.2.1 enclosed _)
    | true =>
      -- a query that begins with a query in parentheses is not read here, and the tree says so
      have fails : ¬ ((GroupingSet.mk [.subquery query place] span).isUnreadable = false ∧
          (Outline.ofExpr (.subquery query place)).Readable) := by
        rintro ⟨noShape, -⟩
        rw [GroupingSet.isUnreadable, enclosed] at noShape
        cases noShape
      rw [text] at fits ⊢
      simp only [List.length_cons, List.length_append] at fits
      rw [Outline.depth_ofExpr] at room
      simp only [Outline.belowExpr, Outline.plain_query, Outline.depthAll_cons] at room
      rw [List.cons_append, List.append_assoc]
      exact enclosedColumn_refused reads fails formed.2.1 formed.2.2 enclosed (by omega)
        (by omega) _
  · refine plain ?_ (opensList_no (noParen rest))
    cases column with
    | subquery query place =>
      exact absurd (by simp [Expr.tokens, Canonical.ofExpr]) (noParen [])
    | _ => rfl

theorem groupingSet_reads (reads : phrases.ReadBack limit bound) {set : GroupingSet}
    (formed : set.Formed)
    (fits : 2 * (Piece.kinds (Canonical.ofGroupingSet set)).length + 1 ≤ bound)
    (room : depth + 2 * Outline.depthAll (Outline.belowGroupingSet set) ≤ capOf limit + 1)
    (quiet : (lead rest).isQuiet = true) :
    Reads limit (set.isUnreadable = false ∧ Outline.AllReadable (Outline.belowGroupingSet set))
      (groupingSet phrases) depth (Piece.kinds (Canonical.ofGroupingSet set) ++ rest)
      (fun found => found.erase = set.erase) depth rest := by
  obtain ⟨columns, span⟩ := set
  have listed : Piece.kinds (Canonical.ofGroupingSet ⟨columns, span⟩) = .symbol .leftParen ::
        (Piece.kinds (Piece.commaSeparated (Canonical.ofExprs columns)) ++
          [Kind.symbol .rightParen]) →
      (GroupingSet.mk columns span).isUnreadable = false →
      Reads limit ((GroupingSet.mk columns span).isUnreadable = false ∧
          Outline.AllReadable (Outline.belowGroupingSet ⟨columns, span⟩))
        (groupingSet phrases) depth
        (Piece.kinds (Canonical.ofGroupingSet ⟨columns, span⟩) ++ rest)
        (fun found => found.erase = (GroupingSet.mk columns span).erase) depth rest := by
    intro text noShape
    rw [text] at fits ⊢
    simp only [List.length_cons, List.length_append] at fits
    simp only [List.cons_append, List.append_assoc, List.nil_append]
    exact (columnList_reads reads formed (by omega) room quiet span).mono
      ⟨fun all => ⟨noShape, all⟩, And.right⟩ fun _ same => same
  rcases columns with _ | ⟨column, _ | ⟨second, others⟩⟩
  · exact listed (by simp [Canonical.ofGroupingSet, Canonical.ofExprs, Canonical.ofGrouping]) rfl
  · have text : Piece.kinds (Canonical.ofGroupingSet ⟨[column], span⟩) = column.tokens := by
      simp [Canonical.ofGroupingSet, Canonical.ofExprs, Canonical.ofGrouping]
    rw [text] at fits ⊢
    simp only [Outline.belowGroupingSet, Outline.ofExprs, Outline.plain_expr,
      Outline.depthAll_cons] at room
    simp only [Outline.belowGroupingSet, Outline.ofExprs, Outline.plain_expr,
      Outline.allReadable_cons, Outline.allReadable_nil, and_true]
    exact singleColumn_reads reads formed.1 fits (by omega) quiet
  · refine listed ?_ (by cases column <;> rfl)
    simp [Canonical.ofGroupingSet, Canonical.ofExprs, Canonical.ofGrouping]

/-- The grouping sets of `ROLLUP` or `CUBE`, after the keyword. -/
theorem groupingSetList_reads (reads : phrases.ReadBack limit bound) {sets : List GroupingSet}
    {word : Keyword} (nonempty : sets ≠ []) (formed : GroupingSet.AllFormed sets)
    (fits : 2 * (Piece.kinds (Piece.commaSeparated (Canonical.ofGroupingSets sets))).length + 1
      ≤ bound)
    (room : depth + 2 * Outline.depthAll (Outline.belowGroupingSets sets) ≤ capOf limit + 1) :
    Reads limit ((sets.any GroupingSet.isUnreadable) = false ∧
        Outline.AllReadable (Outline.belowGroupingSets sets))
      (groupingSetList phrases) depth
      (.keyword word :: .symbol .leftParen ::
        (Piece.kinds (Piece.commaSeparated (Canonical.ofGroupingSets sets)) ++
          .symbol .rightParen :: rest))
      (fun them => GroupingSet.eraseAll them = GroupingSet.eraseAll sets) depth rest := by
  rw [Canonical.ofGroupingSets_eq_map] at fits ⊢
  have items : Reads limit (∀ set ∈ sets, set.isUnreadable = false ∧
      Outline.AllReadable (Outline.belowGroupingSet set))
      (commaSeparated (groupingSet phrases)) depth
      (Piece.kinds (Piece.commaSeparated (sets.map Canonical.ofGroupingSet)) ++
        .symbol .rightParen :: rest)
      (fun them => them.map GroupingSet.erase = sets.map GroupingSet.erase) depth
      (.symbol .rightParen :: rest) := by
    refine Reads.list nonempty (by simp) fun set member more after => ?_
    have shorter := Piece.length_item_le Canonical.ofGroupingSet member
    have lower := Outline.depth_le_belowGroupingSets member
    exact groupingSet_reads reads (GroupingSet.allFormed_iff.mp formed set member) (by omega)
      (by omega) (test_after_item after rfl rfl)
  refine advance_reads.after fun _ _ => (Reads.parenthesized items).mono ?_ fun them same => ?_
  · rw [Outline.allReadable_belowGroupingSets]
    simp [forall_and]
  · rw [GroupingSet.eraseAll_eq_map, GroupingSet.eraseAll_eq_map, same]

/-! ## Grouping elements -/

/-- A grouping set begins with none of the words that begin other grouping elements. -/
theorem lead_groupingSet {set : GroupingSet} (formed : set.Formed) (more : List Kind) {word : Keyword}
    (closed : (Kind.keyword word).opensValue = false) (noRow : word ≠ .ROW) :
    lead (Piece.kinds (Canonical.ofGroupingSet set) ++ more) ≠ .keyword word := by
  obtain ⟨columns, span⟩ := set
  rcases columns with _ | ⟨column, _ | ⟨second, others⟩⟩
  · simp [Canonical.ofGroupingSet, Canonical.ofExprs, Canonical.ofGrouping]
  · have text : Piece.kinds (Canonical.ofGroupingSet ⟨[column], span⟩) = column.tokens := by
      simp [Canonical.ofGroupingSet, Canonical.ofExprs, Canonical.ofGrouping]
    rw [text]
    exact Expr.lead_ne formed.1 more closed (by simpa using noRow)
  · simp [Canonical.ofGroupingSet, Canonical.ofExprs, Canonical.ofGrouping]

theorem groupingSets_reads (reads : phrases.ReadBack limit bound) {sets : List Expr}
    (nonempty : sets ≠ []) (formed : Expr.AllFormed .grouping sets)
    (fits : 2 * (Piece.kinds (Piece.commaSeparated (Canonical.ofExprs sets))).length + 2 ≤ bound)
    (room : depth + 2 * Outline.depthAll (Outline.ofExprs sets) + 1 ≤ capOf limit) :
    Reads limit (Outline.AllReadable (Outline.ofExprs sets)) (groupingSetsMembers phrases) depth
      (.keyword .GROUPING :: .keyword .SETS :: .symbol .leftParen ::
        (Piece.kinds (Piece.commaSeparated (Canonical.ofExprs sets)) ++
          .symbol .rightParen :: rest))
      (fun them => Expr.eraseAll them = Expr.eraseAll sets) depth rest := by
  rw [Canonical.ofExprs_eq_map] at fits ⊢
  have items : Reads limit (∀ set ∈ sets, (Outline.ofExpr set).Readable)
      (commaSeparated phrases.groupingElement) (depth + 1)
      (Piece.kinds (Piece.commaSeparated (sets.map Canonical.ofExpr)) ++
        .symbol .rightParen :: rest)
      (fun them => them.map Expr.erase = sets.map Expr.erase) (depth + 1)
      (.symbol .rightParen :: rest) := by
    refine Reads.list nonempty (by simp) fun set member more after => ?_
    have shorter : set.tokens.length ≤ _ := Piece.length_item_le Canonical.ofExpr member
    have lower := Outline.depth_le_ofExprs member
    exact reads.groupingElement (Expr.allFormed_iff.mp formed set member) (by omega)
      (by omega) (test_after_item after rfl rfl)
  refine advance_reads.after fun _ _ => advance_reads.after fun _ _ => ?_
  refine (Reads.nested (by omega) (Reads.parenthesized items)).mono
    Outline.allReadable_ofExprs.symm fun them same => ?_
  rw [Expr.eraseAll_eq_map, Expr.eraseAll_eq_map, same]

theorem groupingElement_reads (reads : phrases.ReadBack limit bound) {expr : Expr}
    (formed : expr.Formed .grouping) (fits : 2 * expr.tokens.length + 1 ≤ bound)
    (room : depth + 2 * (Outline.ofExpr expr).depth ≤ capOf limit + 1)
    (quiet : (lead rest).isQuiet = true) :
    Reads limit (Outline.ofExpr expr).Readable (groupingElement phrases) depth
      (expr.tokens ++ rest) (fun e => e.erase = expr.erase) depth rest := by
  rw [Outline.depth_ofExpr] at room
  rw [Outline.readable_ofExpr]
  cases expr with
  | groupingSet set =>
    have text : (Expr.groupingSet set).tokens = Piece.kinds (Canonical.ofGroupingSet set) := by
      simp [Expr.tokens, Canonical.ofExpr]
    rw [text] at fits ⊢
    simp only [Outline.belowExpr] at room
    -- a set has no word of its own, so that the three shapes with one are ruled out first
    have notWord : ∀ {word : Keyword} {next : Kind → Bool},
        (Kind.keyword word).opensValue = false → word ≠ .ROW →
        Reads limit True (atWordBefore word next) depth
          (Piece.kinds (Canonical.ofGroupingSet set) ++ rest) (· = false) depth
          (Piece.kinds (Canonical.ofGroupingSet set) ++ rest) :=
      fun closed noRow => atWordBefore_no fun isWord =>
        absurd isWord (lead_groupingSet formed.2 rest closed noRow)
    refine .still here_still fun start => (notWord rfl (by simp)).step ?_
    refine (notWord rfl (by simp)).step ((notWord rfl (by simp)).step ?_)
    refine (groupingSet_reads reads formed.2 fits (by omega) quiet).bind id
      fun holds found same => .pure holds (by simp [Expr.erase, same])
  | groupingSets sets span =>
    have text : (Expr.groupingSets sets span).tokens = .keyword .GROUPING :: .keyword .SETS ::
        .symbol .leftParen :: (Piece.kinds (Piece.commaSeparated (Canonical.ofExprs sets)) ++
          [.symbol .rightParen]) := by
      simp [Expr.tokens, Canonical.ofExpr]
    rw [text] at fits ⊢
    simp only [List.length_cons, List.length_append] at fits
    simp only [Outline.belowExpr] at room
    simp only [List.cons_append, List.append_assoc, List.nil_append]
    refine .still here_still fun start => (atWordBefore_no (by simp)).step ?_
    refine (atWordBefore_no (by simp)).step ((atWordBefore_yes (by simp)).step ?_)
    refine (groupingSets_reads reads formed.2.1 formed.2.2 (by omega) (by omega)).bind And.right
      fun holds them same => .still (spanFrom_still start) fun _ => ?_
    exact .pure ⟨rfl, holds⟩ (by simp [Expr.erase, same])
  | rollup sets span =>
    have text : (Expr.rollup sets span).tokens = .keyword .ROLLUP :: .symbol .leftParen ::
        (Piece.kinds (Piece.commaSeparated (Canonical.ofGroupingSets sets)) ++
          [.symbol .rightParen]) := by
      simp [Expr.tokens, Canonical.ofExpr]
    rw [text] at fits ⊢
    simp only [List.length_cons, List.length_append] at fits
    simp only [Outline.belowExpr] at room
    simp only [List.cons_append, List.append_assoc, List.nil_append]
    refine .still here_still fun start => (atWordBefore_yes (by simp)).step ?_
    refine (groupingSetList_reads reads formed.2.1 formed.2.2 (by omega) (by omega)).bind id
      fun holds them same => .still (spanFrom_still start) fun _ => ?_
    exact .pure holds (by simp [Expr.erase, same])
  | cube sets span =>
    have text : (Expr.cube sets span).tokens = .keyword .CUBE :: .symbol .leftParen ::
        (Piece.kinds (Piece.commaSeparated (Canonical.ofGroupingSets sets)) ++
          [.symbol .rightParen]) := by
      simp [Expr.tokens, Canonical.ofExpr]
    rw [text] at fits ⊢
    simp only [List.length_cons, List.length_append] at fits
    simp only [Outline.belowExpr] at room
    simp only [List.cons_append, List.append_assoc, List.nil_append]
    refine .still here_still fun start => (atWordBefore_no (by simp)).step ?_
    refine (atWordBefore_yes (by simp)).step ?_
    refine (groupingSetList_reads reads formed.2.1 formed.2.2 (by omega) (by omega)).bind id
      fun holds them same => .still (spanFrom_still start) fun _ => ?_
    exact .pure holds (by simp [Expr.erase, same])
  | _ => simp [Expr.Formed] at formed

/-! ## The clause -/

theorem kinds_ofGroupBy (quantifier : Option SetQuantifier) (groupings : List Expr)
    (span : Span) :
    (Canonical.ofGroupBy (some ⟨quantifier, groupings, span⟩)).flatMap Piece.kinds =
      .keyword .GROUP :: .keyword .BY :: (Piece.kinds (Canonical.ofQuantifier quantifier) ++
        Piece.kinds (Piece.commaSeparated (Canonical.ofExprs groupings))) := by
  simp [Canonical.ofGroupBy]

/-- No grouping element begins like a quantifier. -/
theorem lead_grouping {expr : Expr} (formed : expr.Formed .grouping) (more : List Kind)
    (quantifier : SetQuantifier) :
    lead (expr.tokens ++ more) ≠ .keyword quantifier.word := by
  cases expr with
  | groupingSet set =>
    have text : (Expr.groupingSet set).tokens = Piece.kinds (Canonical.ofGroupingSet set) := by
      simp [Expr.tokens, Canonical.ofExpr]
    rw [text]
    cases quantifier <;> exact lead_groupingSet formed.2 more rfl (by decide)
  | groupingSets | rollup | cube =>
    cases quantifier <;> simp [Expr.tokens, Canonical.ofExpr, SetQuantifier.word]
  | _ => simp [Expr.Formed] at formed

theorem groupClause_reads (reads : phrases.ReadBack limit bound) {clause : Option GroupClause}
    (formed : GroupClause.OptionFormed clause)
    (fits : 2 * ((Canonical.ofGroupBy clause).flatMap Piece.kinds).length ≤ bound + 1)
    (room : depth + 2 * Outline.depthAll (Outline.belowGroupBy clause) ≤ capOf limit + 1)
    (past : Past 4 rest) :
    Reads limit (Outline.AllReadable (Outline.belowGroupBy clause)) (groupClause phrases) depth
      ((Canonical.ofGroupBy clause).flatMap Piece.kinds ++ rest)
      (fun it => GroupClause.eraseOption it = GroupClause.eraseOption clause) depth rest := by
  rcases clause with _ | ⟨quantifier, groupings, span⟩
  · refine .still here_still fun start => (takeWord_no (past.ne (by decide))).step ?_
    exact .pure (by simp [Outline.belowGroupBy]) rfl
  · rw [kinds_ofGroupBy] at fits ⊢
    simp only [List.length_cons, List.length_append] at fits
    simp only [Outline.belowGroupBy] at room ⊢
    have noQuantifier : ∀ other : SetQuantifier,
        lead (Piece.kinds (Piece.commaSeparated (Canonical.ofExprs groupings)) ++ rest) ≠
          .keyword other.word := by
      intro other
      obtain ⟨first, others, rfl⟩ := List.exists_cons_of_ne_nil formed.1
      simp only [Canonical.ofExprs, Piece.kinds_commaSeparated_cons, List.append_assoc]
      exact lead_grouping formed.2.1 _ other
    have items : Reads limit (∀ expr ∈ groupings, (Outline.ofExpr expr).Readable)
        (commaSeparated (groupingElement phrases)) depth
        (Piece.kinds (Piece.commaSeparated (groupings.map Canonical.ofExpr)) ++ rest)
        (fun them => them.map Expr.erase = groupings.map Expr.erase) depth rest := by
      refine Reads.list formed.1 (past.ne (by decide)) fun expr member more after => ?_
      have shorter : expr.tokens.length ≤ _ := Piece.length_item_le Canonical.ofExpr member
      have lower := Outline.depth_le_ofExprs member
      rw [← Canonical.ofExprs_eq_map] at shorter
      exact groupingElement_reads reads (Expr.allFormed_iff.mp formed.2 expr member)
        (by omega) (by omega) (test_after_item after rfl past.quiet)
    rw [← Canonical.ofExprs_eq_map] at items
    simp only [List.cons_append, List.append_assoc]
    refine .still here_still fun start => (takeWord_yes .GROUP).step ?_
    refine (expectWord_reads .BY).step ?_
    refine (setQuantifier_reads quantifier (noQuantifier .all) (noQuantifier .distinct)).step ?_
    refine items.bind Outline.allReadable_ofExprs.mp fun holds them same => ?_
    refine .still (spanFrom_still start) fun _ => .pure (Outline.allReadable_ofExprs.mpr holds) ?_
    simp [GroupClause.eraseOption, Expr.eraseAll_eq_map, same]

end Parse

end CanonicalSql
