import CanonicalSql.Proofs.Reading.Grouping
import CanonicalSql.Proofs.Reading.Source
import CanonicalSql.Proofs.Reading.Window

/-!
# Reading queries

A projection is read clause by clause, a body operand by operand, and a query with what
stands before and after its body. With this each recursive rule reads back what canonical
text writes for it, at every level of recursion (`phrases_reads`).
-/
namespace CanonicalSql

/-- A target without a name is a value. -/
theorem Expr.value_of_target {expr : Expr} (formed : expr.Formed .target)
    (other : ∀ name inner span, expr ≠ .named name inner span) : expr.Formed .value := by
  cases expr with
  | named name inner span => exact absurd rfl (other name inner span)
  | sortKey key => exact formed.elim
  | truth | null => exact (by simp : Expr.Role.value ≠ .grouping)
  | groupingSet | groupingSets | rollup | cube => exact absurd formed.1 (by simp)
  | _ => exact ⟨by simp, formed.2⟩

namespace Outline

theorem allReadable_ofCtes {ctes : List Cte} :
    AllReadable (ofCtes ctes) ↔ ∀ cte ∈ ctes, (ofQuery cte.query).Readable := by
  induction ctes with
  | nil => simp [ofCtes]
  | cons cte rest ih =>
    obtain ⟨name, columns, query, span⟩ := cte
    simp [ofCtes, ih, plain_query]
    simp [plain, readable_node, Node.isUnreadable]

theorem depth_le_ofCtes {cte : Cte} {ctes : List Cte} (member : cte ∈ ctes) :
    (ofQuery cte.query).depth ≤ depthAll (ofCtes ctes) := by
  induction ctes with
  | nil => cases member
  | cons other rest ih =>
    obtain ⟨name, columns, query, span⟩ := other
    simp only [ofCtes, depthAll_cons, depthAll_nil, depth_plain (.cte _), Node.isLevel, plain_query]
    rcases List.mem_cons.mp member with rfl | member
    · simp only
      omega
    · have := ih member
      omega

end Outline

namespace Parse

variable {limit bound depth : Nat} {phrases : Phrases} {rest : List Kind}

/-! ## Projections -/

theorem target_reads (reads : phrases.ReadBack limit bound) {expr : Expr}
    (formed : expr.Formed .target) (fits : 2 * expr.tokens.length + 1 ≤ bound)
    (room : depth + 2 * (Outline.ofExpr expr).depth ≤ capOf limit + 1)
    (quiet : (lead rest).isQuiet = true) (notAs : lead rest ≠ .keyword .AS)
    (noName : (lead rest).isIdentifier = false) :
    Reads limit (Outline.ofExpr expr).Readable (target phrases) depth (expr.tokens ++ rest)
      (fun e => e.erase = expr.erase) depth rest := by
  have alone : expr.Formed .value →
      Reads limit (Outline.ofExpr expr).Readable (target phrases) depth (expr.tokens ++ rest)
        (fun e => e.erase = expr.erase) depth rest := by
    intro isValue
    refine .still here_still fun start => ?_
    refine (expression_reads reads isValue fits room quiet).bind id fun holds e same => ?_
    exact (optionalAlias_none notAs noName).step (.pure holds same)
  cases expr with
  | named name inner span =>
    have text : (Expr.named name inner span).tokens =
        inner.tokens ++ [.keyword .AS, .identifier name] := by
      simp [Expr.tokens, Canonical.ofExpr]
    have level := Outline.depth_ofExpr (.named name inner span)
    simp only [Outline.belowExpr, Outline.plain_expr, Outline.depthAll_cons] at level
    rw [text] at fits ⊢
    simp only [List.length_append, List.length_cons] at fits
    rw [List.append_assoc, Outline.readable_ofExpr]
    refine .still here_still fun start => ?_
    refine (expression_reads reads formed.2.2 (by omega) (by omega) rfl).bind ?_
      fun holds e same => (optionalAlias_reads name).step ?_
    · simp [Outline.belowExpr, Outline.plain_expr]
    · refine .still (spanFrom_still start) fun _ => .pure ⟨rfl, ?_⟩ (by simp [Expr.erase, same])
      simpa [Outline.belowExpr, Outline.plain_expr] using holds
  | _ => exact alone (Expr.value_of_target formed (by simp))

theorem targets_reads (reads : phrases.ReadBack limit bound) {targets : List Expr}
    (nonempty : targets ≠ []) (formed : Expr.AllFormed .target targets)
    (fits : 2 * (Piece.kinds (Piece.commaSeparated (Canonical.ofExprs targets))).length + 1
      ≤ bound)
    (room : depth + 2 * Outline.depthAll (Outline.ofTargets targets) ≤ capOf limit + 1)
    (past : Past 1 rest) :
    Reads limit (Outline.AllReadable (Outline.ofTargets targets))
      (commaSeparated (target phrases)) depth
      (Piece.kinds (Piece.commaSeparated (Canonical.ofExprs targets)) ++ rest)
      (fun them => Expr.eraseAll them = Expr.eraseAll targets) depth rest := by
  rw [Canonical.ofExprs_eq_map] at fits ⊢
  have items : Reads limit (∀ expr ∈ targets, (Outline.ofExpr expr).Readable)
      (commaSeparated (target phrases)) depth
      (Piece.kinds (Piece.commaSeparated (targets.map Canonical.ofExpr)) ++ rest)
      (fun them => them.map Expr.erase = targets.map Expr.erase) depth rest := by
    refine Reads.list nonempty (past.ne (by decide)) fun expr member more after => ?_
    have shorter : expr.tokens.length ≤ _ := Piece.length_item_le Canonical.ofExpr member
    have lower := Outline.depth_le_ofTargets member
    have exprFormed := Expr.allFormed_iff.mp formed expr member
    rcases after with comma | rfl
    · exact target_reads reads exprFormed (by omega) (by omega) (by rw [comma]; rfl)
        (by simp [comma]) (by rw [comma]; rfl)
    · exact target_reads reads exprFormed (by omega) (by omega) past.quiet
        (past.ne (by decide)) past.noName
  refine items.mono Outline.allReadable_ofTargets.symm fun them same => ?_
  rw [Expr.eraseAll_eq_map, Expr.eraseAll_eq_map, same]

theorem sources_reads (reads : phrases.ReadBack limit bound) {rels : List Rel}
    (formed : Rel.AllFormed rels)
    (fits : 2 * ((Canonical.clause [.FROM] (Canonical.ofSources rels)).flatMap
      Piece.kinds).length ≤ bound + 1)
    (room : depth + 2 * Outline.depthAll (Outline.ofRels rels) ≤ capOf limit + 1)
    (past : Past 2 rest) :
    Reads limit (Outline.AllReadable (Outline.ofRels rels)) (sources phrases) depth
      ((Canonical.clause [.FROM] (Canonical.ofSources rels)).flatMap Piece.kinds ++ rest)
      (fun them => Rel.eraseAll them = Rel.eraseAll rels) depth rest := by
  rw [Canonical.ofSources_eq_map] at fits ⊢
  cases rels with
  | nil => exact (takeWord_no (past.ne (by decide))).step (.pure (by simp [Outline.ofRels]) rfl)
  | cons rel rels =>
    have text : (Canonical.clause [.FROM] ((rel :: rels).map (Canonical.ofRel .source))).flatMap
        Piece.kinds = .keyword .FROM :: Piece.kinds (Piece.commaSeparated
          ((rel :: rels).map (Canonical.ofRel .source))) := by
      simp [Canonical.clause]
    rw [text] at fits ⊢
    simp only [List.length_cons] at fits
    refine (takeWord_yes .FROM).step ?_
    have items : Reads limit (∀ it ∈ rel :: rels, (Outline.ofRel it).Readable)
        (commaSeparated (source phrases)) depth
        (Piece.kinds (Piece.commaSeparated ((rel :: rels).map (Canonical.ofRel .source))) ++ rest)
        (fun them => them.map Rel.erase = (rel :: rels).map Rel.erase) depth rest := by
      refine Reads.list (by simp) (past.ne (by decide)) fun it member more after => ?_
      have shorter : (it.tokens .source).length ≤ _ :=
        Piece.length_item_le (Canonical.ofRel .source) member
      have lower := Outline.depth_le_ofRels member
      have itFormed := Rel.allFormed_iff.mp formed it member
      rcases after with comma | rfl
      · exact source_reads reads itFormed (by omega) (by omega)
          ⟨by simp [comma], by simp [comma], by simp [comma], by rw [comma]; rfl⟩
          (by rw [comma]; rfl)
      · exact source_reads reads itFormed (by omega) (by omega) (.of_past past) past.noJoin
    refine items.mono Outline.allReadable_ofRels.symm fun them same => ?_
    rw [Rel.eraseAll_eq_map, Rel.eraseAll_eq_map, same]

/-- No target begins like a quantifier. -/
theorem lead_target {expr : Expr} (formed : expr.Formed .target) (more : List Kind)
    (quantifier : SetQuantifier) :
    lead (expr.tokens ++ more) ≠ .keyword quantifier.word := by
  have notWord : ∀ {value : Expr} {others : List Kind}, value.Formed .value →
      lead (value.tokens ++ others) ≠ .keyword quantifier.word := by
    intro value others isValue
    cases quantifier <;> exact Expr.lead_ne isValue others rfl (by decide)
  cases expr with
  | named name inner span =>
    have text : (Expr.named name inner span).tokens =
        inner.tokens ++ [.keyword .AS, .identifier name] := by
      simp [Expr.tokens, Canonical.ofExpr]
    rw [text, List.append_assoc]
    exact notWord formed.2.2
  | _ => exact notWord (Expr.value_of_target formed (by simp))

theorem kinds_ofSelect (quantifier : Option SetQuantifier) (targets : List Expr)
    (sources : List Rel) (selection : Option Expr) (groupBy : Option GroupClause)
    (having : Option Expr) (windows : List WindowDef) (span : Span) :
    Piece.kinds (Canonical.ofSelect
        ⟨quantifier, targets, sources, selection, groupBy, having, windows, span⟩) =
      .keyword .SELECT :: (Piece.kinds (Canonical.ofQuantifier quantifier) ++
        (Piece.kinds (Piece.commaSeparated (Canonical.ofExprs targets)) ++
          ((Canonical.clause [.FROM] (Canonical.ofSources sources)).flatMap Piece.kinds ++
            ((Canonical.ofClause .WHERE selection).flatMap Piece.kinds ++
              ((Canonical.ofGroupBy groupBy).flatMap Piece.kinds ++
                ((Canonical.ofClause .HAVING having).flatMap Piece.kinds ++
                  (Canonical.clause [.WINDOW] (Canonical.ofWindows windows)).flatMap
                    Piece.kinds)))))) := by
  simp [Canonical.ofSelect]

/-- An optional clause is over where the next one begins. -/
theorem past_clause (rank : Nat) (word : Keyword) (expr : Option Expr)
    (ranked : (Kind.keyword word).rank = rank) (past : Past (rank + 1) rest) :
    Past rank ((Canonical.ofClause word expr).flatMap Piece.kinds ++ rest) := by
  cases expr with
  | none => exact past.mono (by omega)
  | some expr => exact Nat.le_of_eq ranked.symm

theorem past_windows (windows : List WindowDef) (past : Past 6 rest) :
    Past 5 ((Canonical.clause [.WINDOW] (Canonical.ofWindows windows)).flatMap Piece.kinds ++
      rest) := by
  rcases windows with _ | ⟨⟨name, spec, span⟩, others⟩
  · exact past.mono (by omega)
  · exact Nat.le_refl 5

theorem past_groupBy (groupBy : Option GroupClause) (past : Past 4 rest) :
    Past 3 ((Canonical.ofGroupBy groupBy).flatMap Piece.kinds ++ rest) := by
  rcases groupBy with _ | ⟨quantifier, groupings, span⟩
  · exact past.mono (by omega)
  · exact Nat.le_refl 3

theorem past_sources (sources : List Rel) (past : Past 2 rest) :
    Past 1 ((Canonical.clause [.FROM] (Canonical.ofSources sources)).flatMap Piece.kinds ++
      rest) := by
  cases sources with
  | nil => exact past.mono (by omega)
  | cons rel rels => exact Nat.le_refl 1

theorem select_reads (reads : phrases.ReadBack limit bound) {select : Select}
    (formed : select.Formed)
    (fits : 2 * (Piece.kinds (Canonical.ofSelect select)).length ≤ bound)
    (room : depth + 2 * Outline.depthAll (Outline.belowSelect select) ≤ capOf limit + 1)
    (past : Past 6 rest) :
    Reads limit (Outline.AllReadable (Outline.belowSelect select)) (Parse.select phrases) depth
      (Piece.kinds (Canonical.ofSelect select) ++ rest) (fun s => s.erase = select.erase) depth
      rest := by
  obtain ⟨quantifier, targets, sources, selection, groupBy, having, windows, span⟩ := select
  obtain ⟨nonempty, targetsFormed, sourcesFormed, selectionFormed, groupFormed, havingFormed,
    windowsFormed⟩ := formed
  rw [kinds_ofSelect] at fits ⊢
  simp only [List.length_cons, List.length_append] at fits
  simp only [Outline.belowSelect, Outline.depthAll_append] at room
  simp only [List.cons_append, List.append_assoc, Outline.belowSelect,
    Outline.allReadable_append]
  -- any clause may be missing, so what stands behind one is known from the last to the first
  have afterHaving := past_windows windows past
  have afterGroup := past_clause 4 .HAVING having rfl afterHaving
  have afterSelection := past_groupBy groupBy afterGroup
  have afterSources := past_clause 2 .WHERE selection rfl afterSelection
  have afterTargets := past_sources sources afterSources
  have noQuantifier : ∀ (other : SetQuantifier) more,
      lead (Piece.kinds (Piece.commaSeparated (Canonical.ofExprs targets)) ++ more) ≠
        .keyword other.word := by
    intro other more
    obtain ⟨first, others, rfl⟩ := List.exists_cons_of_ne_nil nonempty
    simp only [Canonical.ofExprs, Piece.kinds_commaSeparated_cons, List.append_assoc]
    exact lead_target targetsFormed.1 _ other
  refine .still here_still fun start => (expectWord_reads .SELECT).step ?_
  refine (setQuantifier_reads quantifier (noQuantifier .all _) (noQuantifier .distinct _)).step ?_
  refine (targets_reads reads nonempty targetsFormed (by omega) (by omega) afterTargets).bind
    (fun all => all.1) fun targetsHold them sameTargets => ?_
  refine (sources_reads reads sourcesFormed (by omega) (by omega) afterSources).bind
    (fun all => all.2.1) fun sourcesHold rels sameSources => ?_
  refine (optionalClause_reads reads selectionFormed (by omega) (by omega)
    (afterSelection.ne (by decide)) afterSelection.quiet).bind
    (fun all => all.2.2.1) fun selectionHolds e sameSelection => ?_
  refine (groupClause_reads reads groupFormed (by omega) (by omega) afterGroup).bind
    (fun all => all.2.2.2.1) fun groupHolds clause sameGroup => ?_
  refine (optionalClause_reads reads havingFormed (by omega) (by omega)
    (afterHaving.ne (by decide)) afterHaving.quiet).bind
    (fun all => all.2.2.2.2.1) fun havingHolds h sameHaving => ?_
  refine (windows_reads reads windowsFormed (by omega) (by omega) past).bind
    (fun all => all.2.2.2.2.2) fun windowsHold found sameWindows => ?_
  refine .still (spanFrom_still start) fun _ => .pure ?_ ?_
  · exact ⟨targetsHold, sourcesHold, selectionHolds, groupHolds, havingHolds, windowsHold⟩
  · simp [Select.erase, sameTargets, sameSources, sameSelection, sameGroup, sameHaving,
      sameWindows]

/-! ## Operands and set operations -/

/-- An operand of a set operation, or a body without one. -/
theorem queryPrimary_reads (reads : phrases.ReadBack limit bound) {rel : Rel}
    (formed : rel.Formed .operand) (fits : 2 * (rel.tokens .operand).length ≤ bound)
    (room : depth + 2 * (Outline.ofRel rel).depth ≤ capOf limit)
    (roomEnclosed : rel.isEnclosed = true →
      depth + 2 * (Outline.ofQuery rel.enclosedQuery).depth ≤ capOf limit + 1)
    (past : Past 6 rest) :
    Reads limit (Outline.ofRel rel).Readable (queryPrimary phrases) depth
      (rel.tokens .operand ++ rest) (fun r => r.erase = rel.erase) depth rest := by
  have level := Outline.depth_ofRel rel
  have enclosed : rel.isEnclosed = true →
      Reads limit (Outline.ofRel rel).Readable (queryPrimary phrases) depth
        (rel.tokens .operand ++ rest) (fun r => r.erase = rel.erase) depth rest := by
    intro isEnclosed
    have more := roomEnclosed isEnclosed
    rw [Rel.tokens_enclosed isEnclosed] at fits ⊢
    simp only [List.length_cons, List.length_append] at fits
    simp only [List.cons_append, List.append_assoc, List.nil_append]
    have inside := Rel.enclosedQuery_formed formed
    refine kind_reads.step ?_
    refine (Reads.parenthesized (reads.query inside (by omega) more (Past.close _))).bind
      Rel.enclosedQuery_readable.mpr fun holds q same => ?_
    exact .pure (Rel.enclosedQuery_readable.mp holds) (Rel.operand_of_enclosed formed same)
  cases rel with
  | select select =>
    have text : (Rel.select select).tokens .operand = Piece.kinds (Canonical.ofSelect select) := by
      simp [Rel.tokens, Canonical.ofRel, Canonical.asSource, Canonical.Place.isSource]
    simp only [Outline.belowRel, Outline.depthAll_cons, Outline.depth_plain] at level
    rw [text] at fits ⊢
    have here : lead (Piece.kinds (Canonical.ofSelect select) ++ rest) = .keyword .SELECT := by
      obtain ⟨quantifier, targets, sources, selection, groupBy, having, windows, span⟩ := select
      rw [kinds_ofSelect]
      rfl
    have readable : (Outline.ofRel (.select select)).Readable ↔
        Outline.AllReadable (Outline.belowSelect select) := by
      rw [Outline.readable_ofRel]
      simp [Outline.belowRel, Outline.plain, Outline.readable_node, Node.isUnreadable]
    rw [readable]
    refine kind_reads.step ?_
    rw [here]
    exact (select_reads reads formed.2 fits (by omega) past).bind id
      fun holds s same => .pure holds (by simp [Rel.erase, same])
  | values rows span =>
    have text : (Rel.values rows span).tokens .operand = .keyword .VALUES ::
        Piece.kinds (Piece.commaSeparated (Canonical.ofExprs rows)) := by
      simp [Rel.tokens, Canonical.ofRel, Canonical.asSource, Canonical.Place.isSource]
    simp only [Outline.belowRel] at level
    rw [text] at fits ⊢
    simp only [List.length_cons] at fits
    rw [Outline.readable_ofRel]
    refine kind_reads.step (.still here_still fun start => (expectWord_reads .VALUES).step ?_)
    refine (expressions_reads reads formed.2.1 formed.2.2 (by omega) (by omega)
      (past.ne (by decide)) past.quiet).bind id fun holds them same => ?_
    exact .still (spanFrom_still start) fun _ => .pure holds (by simp [Rel.erase, same])
  | table name span =>
    have text : (Rel.table name span).tokens .operand =
        .keyword .TABLE :: Piece.kinds (Piece.qualified name) := by
      simp [Rel.tokens, Canonical.ofRel, Canonical.Place.isSource]
    rw [text, Outline.readable_ofRel]
    refine kind_reads.step (.still here_still fun start => (expectWord_reads .TABLE).step ?_)
    refine (qualifiedName_reads name (past.ne (by decide))).step ?_
    refine .still (spanFrom_still start) fun _ => .pure ?_ (by simp [Rel.erase])
    simp [Outline.belowRel, Outline.plain, Outline.readable_node, Node.isUnreadable]
  | setOp => exact enclosed rfl
  | query => exact enclosed rfl
  | join | named => simp [Rel.Formed] at formed

/-- Before what begins no set operation there is no round. -/
theorem setOperationStep_none {least : Nat} (other : SetOperator.ofKind? (lead rest) = none)
    (done : Rel × Nat) :
    Reads limit True (setOperationStep phrases least done) depth rest (· = none) depth rest := by
  refine kind_reads.step ?_
  rw [other]
  exact .pure trivial rfl

theorem noSetOperation_reads {least : Nat} (other : SetOperator.ofKind? (lead rest) = none)
    (left : Rel) :
    Reads limit True (setOperations phrases left least) depth rest (· = left) depth rest := by
  have rounds : Loops limit True (setOperationStep phrases least) (left, 0) depth rest
      (· = (left, 0)) depth rest :=
    .stop (setOperationStep_none other _) trivial rfl
  exact rounds.loop.step ((leave_reads 0).step (.pure trivial rfl))

/-- The operand after a set operator, within the level that the operation counts. -/
theorem setOperationStep_reads (reads : phrases.ReadBack limit bound) {op : SetOperator}
    {quantifier : Option SetQuantifier} {found left right : Rel} (same : found.erase = left.erase)
    (formed : right.Formed .operand)
    (fits : 2 * (Piece.kinds (Canonical.ofQuantifier quantifier) ++
      right.tokens .operand).length + 1 ≤ bound)
    (room : depth + 2 * (Outline.ofRel right).depth + 2 ≤ capOf limit) (past : Past 7 rest) :
    Reads limit (Outline.ofRel right).Readable (setOperationStep phrases 0 (found, 0)) depth
      (.keyword op.word ::
        (Piece.kinds (Canonical.ofQuantifier quantifier) ++ (right.tokens .operand ++ rest)))
      (fun next => ∃ done, next = some done ∧ done.2 = 1 ∧
        done.1.erase = .setOp op quantifier left.erase right.erase default)
      (depth + 1) rest := by
  have lower := right.enclosedQuery_depth
  have opens := Rel.opens formed rest
  simp only [List.length_append] at fits
  obtain ⟨power, isOp⟩ : ∃ power, SetOperator.ofKind? (.keyword op.word) = some (op, power) := by
    cases op <;> exact ⟨_, rfl⟩
  refine kind_reads.step ?_
  rw [lead_cons, isOp]
  refine (enter_reads (by omega)).step (advance_reads.after fun _ _ => ?_)
  refine (setQuantifier_reads quantifier (Kind.ne_of_opensOperand opens rfl)
    (Kind.ne_of_opensOperand opens rfl)).step ?_
  refine (queryPrimary_reads reads formed (by omega) (by omega) (fun _ => by omega)
    (past.mono (by omega))).bind id fun holds r sameRight => ?_
  refine (reads.noSetOperation (by omega) past).step (.still (spanFrom_still _) fun _ => ?_)
  exact .pure holds ⟨_, rfl, rfl, by simp [Rel.erase, same, sameRight]⟩

/-- The set operation after the first operand of a body, if there is one. -/
theorem setOperations_reads (reads : phrases.ReadBack limit bound) {body found : Rel}
    (formed : body.Formed .operand) (same : found.erase = body.firstOperand.erase)
    (fits : 2 * body.furtherTokens.length ≤ bound)
    (room : depth + 2 * (Outline.ofRel body).depth ≤ capOf limit) (past : Past 7 rest) :
    Reads limit body.FurtherReadable (setOperations phrases found 0) depth
      (body.furtherTokens ++ rest) (fun r => r.erase = body.erase) depth rest := by
  cases body with
  | setOp op quantifier left right span =>
    have level := Outline.depth_ofRel (.setOp op quantifier left right span)
    simp only [Outline.belowRel, Outline.plain_rel, Outline.depthAll_cons] at level
    simp only [Rel.furtherTokens, List.length_cons, List.length_append] at fits
    have text : (Rel.setOp op quantifier left right span).furtherTokens ++ rest =
        .keyword op.word :: (Piece.kinds (Canonical.ofQuantifier quantifier) ++
          (right.tokens .operand ++ rest)) := by
      simp [Rel.furtherTokens]
    rw [text]
    have rounds : Loops limit (Outline.ofRel right).Readable (setOperationStep phrases 0)
        (found, 0) depth (.keyword op.word ::
          (Piece.kinds (Canonical.ofQuantifier quantifier) ++ (right.tokens .operand ++ rest)))
        (fun done => done.2 = 1 ∧
          done.1.erase = .setOp op quantifier left.erase right.erase default)
        (depth + 1) rest := by
      refine .next (setOperationStep_reads reads same formed.2.2 ?_ (by omega) past) id ?_
        fun holds done isDone => .stop (setOperationStep_none past.noOperator done) holds isDone
      · simp only [List.length_append]
        omega
      · simp only [List.length_append, List.length_cons]
        omega
    refine rounds.loop.bind id fun holds done isDone => ?_
    obtain ⟨joined, levels⟩ := done
    obtain ⟨rfl, isSetOp⟩ := isDone
    refine (leave_reads 1).step (.pure holds ?_)
    rw [isSetOp]
    simp [Rel.erase]
  | _ =>
    refine (noSetOperation_reads past.noOperator found).mono ⟨fun _ => trivial, fun _ => trivial⟩ ?_
    rintro it rfl
    exact same

/-! ## Whole queries -/

theorem cte_reads (reads : phrases.ReadBack limit bound) {cte : Cte} (formed : cte.query.Formed)
    (fits : 2 * (Piece.kinds (Canonical.ofCte cte)).length ≤ bound)
    (room : depth + 2 * (Outline.ofQuery cte.query).depth ≤ capOf limit + 1) :
    Reads limit (Outline.ofQuery cte.query).Readable (Parse.cte phrases) depth
      (Piece.kinds (Canonical.ofCte cte) ++ rest) (fun it => it.erase = cte.erase) depth rest := by
  have text : Piece.kinds (Canonical.ofCte cte) = .identifier cte.name ::
      (Piece.kinds (Canonical.when (!cte.columns.isEmpty) (Piece.names cte.columns)) ++
        .keyword .AS :: .symbol .leftParen :: (cte.query.tokens ++ [Kind.symbol .rightParen])) := by
    simp [Canonical.ofCte, Canonical.withColumns]
  rw [text] at fits ⊢
  simp only [List.length_cons, List.length_append] at fits
  simp only [List.cons_append, List.append_assoc, List.nil_append]
  refine .still here_still fun start => (identifier_reads cte.name).step ?_
  refine (optionalNames_reads cte.columns (by simp)).step ((expectWord_reads .AS).step ?_)
  refine (Reads.parenthesized (reads.query formed (by omega) room (Past.close _))).bind id
    fun holds q same => .still (spanFrom_still start) fun _ => .pure holds ?_
  simp [Cte.erase, same]

theorem withClause_reads (reads : phrases.ReadBack limit bound) {clause : Option WithClause}
    (formed : WithClause.OptionFormed clause)
    (fits : 2 * ((Canonical.ofWith clause).flatMap Piece.kinds).length ≤ bound)
    (room : depth + 2 * Outline.depthAll (Outline.belowWith clause) ≤ capOf limit + 1)
    (notWith : lead rest ≠ .keyword .WITH) (stops : lead rest ≠ .symbol .comma) :
    Reads limit (Outline.AllReadable (Outline.belowWith clause)) (Parse.withClause phrases) depth
      ((Canonical.ofWith clause).flatMap Piece.kinds ++ rest)
      (fun it => WithClause.eraseOption it = WithClause.eraseOption clause) depth rest := by
  refine .still here_still fun start => ?_
  rcases clause with _ | ⟨recursive, ctes, span⟩
  · exact (takeWord_no notWith).step (.pure (by simp [Outline.belowWith]) rfl)
  · have text : (Canonical.ofWith (some ⟨recursive, ctes, span⟩)).flatMap Piece.kinds =
        .keyword .WITH :: ((if recursive then [Kind.keyword .RECURSIVE] else []) ++
          Piece.kinds (Piece.commaSeparated (ctes.map Canonical.ofCte))) := by
      rw [← Canonical.ofCtes_eq_map]
      cases recursive <;> simp [Canonical.ofWith, Canonical.when]
    rw [text] at fits ⊢
    simp only [List.length_cons, List.length_append] at fits
    simp only [Outline.belowWith] at room ⊢
    simp only [List.cons_append, List.append_assoc]
    have items : Reads limit (∀ cte ∈ ctes, (Outline.ofQuery cte.query).Readable)
        (commaSeparated (Parse.cte phrases)) depth
        (Piece.kinds (Piece.commaSeparated (ctes.map Canonical.ofCte)) ++ rest)
        (fun them => them.map Cte.erase = ctes.map Cte.erase) depth rest := by
      refine Reads.list formed.1 stops fun cte member more after => ?_
      have shorter := Piece.length_item_le Canonical.ofCte member
      have lower := Outline.depth_le_ofCtes member
      exact cte_reads reads (Cte.allFormed_iff.mp formed.2 cte member).2.2 (by omega) (by omega)
    have takesRecursive : Reads limit True (takeWord .RECURSIVE) depth
        ((if recursive then [Kind.keyword .RECURSIVE] else []) ++
          (Piece.kinds (Piece.commaSeparated (ctes.map Canonical.ofCte)) ++ rest))
        (· = recursive) depth
        (Piece.kinds (Piece.commaSeparated (ctes.map Canonical.ofCte)) ++ rest) := by
      obtain ⟨cte, others, rfl⟩ := List.exists_cons_of_ne_nil formed.1
      exact takeWord_mark recursive fun _ => by simp [Canonical.ofCte, Canonical.withColumns]
    refine (takeWord_yes .WITH).step (takesRecursive.step ?_)
    refine items.bind Outline.allReadable_ofCtes.mp fun holds them same => ?_
    refine .still (spanFrom_still start) fun _ => .pure (Outline.allReadable_ofCtes.mpr holds) ?_
    simp [WithClause.eraseOption, Cte.eraseAll_eq_map, same]

theorem queryBody_reads (reads : phrases.ReadBack limit bound) {query : Query}
    (formed : query.Formed) (fits : 2 * query.tokens.length ≤ bound)
    (room : depth + 2 * (Outline.ofQuery query).depth ≤ capOf limit + 2) (past : Past 10 rest) :
    Reads limit (Outline.ofQuery query).Readable (queryBody phrases) depth
      (query.tokens ++ rest) (fun q => q.erase = query.erase) depth rest := by
  obtain ⟨withFormed, bodyFormed, -⟩ := Query.formed_iff.mp formed
  have level := Query.depth_eq query
  have firstFormed := Rel.firstOperand_formed bodyFormed
  have firstLower := query.body.firstOperand_depth
  have afterBody := past_tailTokens query past
  have afterFirst : Past 6 (query.body.furtherTokens ++ (query.tailTokens ++ rest)) := by
    cases query.body with
    | setOp op quantifier left right span => cases op <;> exact Nat.le_refl 6
    | _ => exact afterBody.mono (by omega)
  have opens := Rel.opens firstFormed (query.body.furtherTokens ++ (query.tailTokens ++ rest))
  have text : query.tokens = (Canonical.ofWith query.withClause).flatMap Piece.kinds ++
      (query.body.firstOperand.tokens .operand ++
        (query.body.furtherTokens ++ query.tailTokens)) := by
    rw [Query.tokens_eq, Rel.tokens_body bodyFormed, List.append_assoc]
  rw [text] at fits ⊢
  simp only [List.length_append] at fits
  simp only [List.append_assoc]
  refine .still here_still fun start => ?_
  refine (withClause_reads reads withFormed (by omega) (by omega)
    (Kind.ne_of_opensOperand opens rfl) (Kind.ne_of_opensOperand opens rfl)).bind
    (fun all => (Query.readable_iff.mp all).1) fun withHolds clause sameWith => ?_
  refine (queryPrimary_reads reads firstFormed (by omega) (by omega) ?_ afterFirst).bind
    (fun all => (Rel.readable_operands.mp (Query.readable_iff.mp all).2.1).1)
    fun firstHolds first sameFirst => ?_
  · intro enclosed
    have enclosedLower := Rel.enclosedQuery_depth_le enclosed
    omega
  refine (setOperations_reads reads bodyFormed sameFirst (by omega) (by omega) afterBody).bind
    (fun all => (Rel.readable_operands.mp (Query.readable_iff.mp all).2.1).2)
    fun furtherHolds body sameBody => ?_
  refine (queryTail_reads reads formed (by omega) (by omega) past sameWith sameBody start).mono
    ⟨fun tail => ?_, fun all => (Query.readable_iff.mp all).2.2⟩ fun _ same => same
  exact Query.readable_iff.mpr
    ⟨withHolds, Rel.readable_operands.mpr ⟨firstHolds, furtherHolds⟩, tail⟩

theorem query_reads (reads : phrases.ReadBack limit bound) {query : Query}
    (formed : query.Formed) (fits : 2 * query.tokens.length ≤ bound)
    (room : depth + 2 * (Outline.ofQuery query).depth ≤ capOf limit + 1) (past : Past 10 rest) :
    Reads limit (Outline.ofQuery query).Readable (Parse.query phrases) depth
      (query.tokens ++ rest) (fun q => q.erase = query.erase) depth rest := by
  have level := Query.depth_eq query
  have bodyLevel := Outline.depth_ofRel query.body
  exact .nested (by omega) (queryBody_reads reads formed fits (by omega) past)

/-! ## All levels -/

/-- The rules of one level read back what those below read back, and one token more. -/
theorem above_reads (reads : phrases.ReadBack limit bound) :
    phrases.above.ReadBack limit (bound + 1) where
  operand formed fits room ends := operand_reads reads formed (by omega) room ends
  inner formed encloses fits room := inner_reads reads formed encloses (by omega) room
  query formed fits room past := query_reads reads formed (by omega) room past
  noSetOperation _ past := noSetOperation_reads past.noOperator _
  setOperations formed same fits room past :=
    setOperations_reads reads formed same (by omega) room past
  tablePrimary formed fits room ends := tablePrimary_reads reads formed (by omega) room ends
  noJoin _ other := noJoin_reads _ other
  join same formed fits room := joins_reads reads same formed (by omega) room
  groupingElement formed fits room quiet :=
    groupingElement_reads reads formed (by omega) room quiet

/-- Each recursive rule reads back what canonical text writes for it, as far as the text
fits into the bound. -/
theorem phrases_reads (limit : Nat) : ∀ bound, (Phrases.within bound).ReadBack limit bound
  | 0 => exhausted_reads
  | bound + 1 => above_reads (phrases_reads limit bound)

end Parse

end CanonicalSql
