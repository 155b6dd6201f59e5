import CanonicalSql.Proofs.Reading.Tokens

/-!
# What the recursive rules read

`Phrases.ReadBack limit bound phrases` says of each recursive rule that it reads back what
canonical text writes for it, as far as the text fits into the bound and the depth of the
tree leaves room below the cap. It is shown level by level: the rules above have it if the
rules below have it at a smaller bound, and the rules that read nothing have it at the
bound zero, into which no text fits.
-/
namespace CanonicalSql

/-! ## The recursive rules -/

open Parse in
/-- Each recursive rule reads back what canonical text writes for it, as far as the text
fits into the bound and the depth of the tree leaves room below the cap.

`operand` reads a value up to what ends it, and `inner` is the same rule between the
parentheses of an operator or a predicate. The rules that go on from a first operand or a
first relation read one step further, or nothing. -/
structure Phrases.ReadBack (limit bound : Nat) (phrases : Phrases) : Prop where
  operand : ∀ {expr : Expr} {depth least : Nat} {rest : List Kind}, expr.Formed .value →
    2 * expr.tokens.length + 1 ≤ bound →
    depth + 2 * (Outline.ofExpr expr).depth ≤ capOf limit + 2 → Ends least rest →
    Reads limit (Outline.ofExpr expr).Readable (phrases.operand least) depth
      (expr.tokens ++ rest) (fun e => e.erase = expr.erase) depth rest
  inner : ∀ {expr : Expr} {row : List Kind} {depth : Nat} {rest : List Kind},
    expr.Formed .value → expr.Encloses row → 2 * row.length + 1 ≤ bound →
    depth + 2 * (Outline.ofExpr expr).depth ≤ capOf limit + 3 →
    Reads limit (Outline.ofExpr expr).Readable (phrases.operand 0) depth
      (row ++ .symbol .rightParen :: rest) (fun e => e.erase = expr.erase) depth
      (.symbol .rightParen :: rest)
  query : ∀ {query : Query} {depth : Nat} {rest : List Kind}, query.Formed →
    2 * query.tokens.length + 1 ≤ bound →
    depth + 2 * (Outline.ofQuery query).depth ≤ capOf limit + 1 → Past 10 rest →
    Reads limit (Outline.ofQuery query).Readable phrases.query depth (query.tokens ++ rest)
      (fun q => q.erase = query.erase) depth rest
  noSetOperation : ∀ {left : Rel} {depth least : Nat} {rest : List Kind}, 1 ≤ bound →
    Past 7 rest →
    Reads limit True (phrases.setOperations left least) depth rest (· = left) depth rest
  setOperations : ∀ {body found : Rel} {depth : Nat} {rest : List Kind},
    body.Formed .operand → found.erase = body.firstOperand.erase →
    2 * body.furtherTokens.length + 1 ≤ bound →
    depth + 2 * (Outline.ofRel body).depth ≤ capOf limit → Past 7 rest →
    Reads limit body.FurtherReadable (phrases.setOperations found 0) depth
      (body.furtherTokens ++ rest) (fun r => r.erase = body.erase) depth rest
  tablePrimary : ∀ {rel : Rel} {depth : Nat} {rest : List Kind}, rel.Formed .source →
    2 * (rel.tokens .source).length + 1 ≤ bound →
    depth + 2 * (Outline.ofRel rel).depth ≤ capOf limit + 1 → EndsSource rest →
    Reads limit (Outline.ofRel rel).Readable phrases.tablePrimary depth
      (rel.tokens .source ++ rest) (fun r => r.erase = rel.erase) depth rest
  noJoin : ∀ {left : Rel} {depth : Nat} {rest : List Kind}, 1 ≤ bound →
    isJoinStart (lead rest) = false →
    Reads limit True (phrases.joins left) depth rest (· = left) depth rest
  join : ∀ {kind : JoinKind} {natural : Bool} {condition : JoinCondition} {span : Span}
    {found left right : Rel} {depth : Nat} {rest : List Kind}, found.erase = left.erase →
    (Rel.join kind natural condition left right span).Formed .source →
    2 * (Piece.kinds (Canonical.ofJoinWords kind natural condition) ++
      (right.tokens .source ++ Piece.kinds (Canonical.ofCondition condition))).length + 1
      ≤ bound →
    depth + 2 * (Outline.ofRel (.join kind natural condition left right span)).depth
      ≤ capOf limit + 2 →
    Reads limit
      ((Outline.ofRel right).Readable ∧ Outline.AllReadable (Outline.belowCondition condition))
      (phrases.joins found) depth
      (Piece.kinds (Canonical.ofJoinWords kind natural condition) ++
        (right.tokens .source ++ (Piece.kinds (Canonical.ofCondition condition) ++
          .symbol .rightParen :: rest)))
      (fun r => r.erase = .join kind natural condition.erase left.erase right.erase default)
      depth (.symbol .rightParen :: rest)
  groupingElement : ∀ {expr : Expr} {depth : Nat} {rest : List Kind}, expr.Formed .grouping →
    2 * expr.tokens.length + 2 ≤ bound →
    depth + 2 * (Outline.ofExpr expr).depth ≤ capOf limit + 1 →
    (lead rest).isQuiet = true →
    Reads limit (Outline.ofExpr expr).Readable phrases.groupingElement depth
      (expr.tokens ++ rest) (fun e => e.erase = expr.erase) depth rest

namespace Parse

variable {limit bound depth : Nat} {phrases : Phrases} {rest : List Kind}

/-- Into the bound zero no text fits. -/
theorem exhausted_reads : Phrases.exhausted.ReadBack limit 0 where
  operand _ fits := absurd fits (Nat.not_succ_le_zero _)
  inner _ _ fits := absurd fits (Nat.not_succ_le_zero _)
  query _ fits := absurd fits (Nat.not_succ_le_zero _)
  noSetOperation fits := absurd fits (Nat.not_succ_le_zero _)
  setOperations _ _ fits := absurd fits (Nat.not_succ_le_zero _)
  tablePrimary _ fits := absurd fits (Nat.not_succ_le_zero _)
  noJoin fits := absurd fits (Nat.not_succ_le_zero _)
  join _ _ fits := absurd fits (Nat.not_succ_le_zero _)
  groupingElement _ fits := absurd fits (Nat.not_succ_le_zero _)

theorem expression_reads (reads : phrases.ReadBack limit bound) {expr : Expr}
    (formed : expr.Formed .value) (fits : 2 * expr.tokens.length + 1 ≤ bound)
    (room : depth + 2 * (Outline.ofExpr expr).depth ≤ capOf limit + 1)
    (quiet : (lead rest).isQuiet = true) :
    Reads limit (Outline.ofExpr expr).Readable phrases.expression depth (expr.tokens ++ rest)
      (fun e => e.erase = expr.erase) depth rest := by
  have level := Outline.depth_ofExpr expr
  exact .nested (by omega) (reads.operand formed fits (by omega) (.of_quiet quiet))

theorem expressions_reads (reads : phrases.ReadBack limit bound) {exprs : List Expr}
    (nonempty : exprs ≠ []) (formed : Expr.AllFormed .value exprs)
    (fits : 2 * (Piece.kinds (Piece.commaSeparated (Canonical.ofExprs exprs))).length + 1 ≤ bound)
    (room : depth + 2 * Outline.depthAll (Outline.ofExprs exprs) ≤ capOf limit + 1)
    (stops : lead rest ≠ .symbol .comma) (quiet : (lead rest).isQuiet = true) :
    Reads limit (Outline.AllReadable (Outline.ofExprs exprs)) phrases.expressions depth
      (Piece.kinds (Piece.commaSeparated (Canonical.ofExprs exprs)) ++ rest)
      (fun them => Expr.eraseAll them = Expr.eraseAll exprs) depth rest := by
  rw [Canonical.ofExprs_eq_map] at fits ⊢
  have items : Reads limit (∀ expr ∈ exprs, (Outline.ofExpr expr).Readable)
      (commaSeparated phrases.expression) depth
      (Piece.kinds (Piece.commaSeparated (exprs.map Canonical.ofExpr)) ++ rest)
      (fun them => them.map Expr.erase = exprs.map Expr.erase) depth rest := by
    refine Reads.list nonempty stops fun expr member more after => ?_
    have shorter : expr.tokens.length ≤ _ := Piece.length_item_le Canonical.ofExpr member
    have lower := Outline.depth_le_ofExprs member
    exact expression_reads reads (Expr.allFormed_iff.mp formed expr member) (by omega)
      (by omega) (test_after_item after rfl quiet)
  refine items.mono Outline.allReadable_ofExprs.symm fun them same => ?_
  rw [Expr.eraseAll_eq_map, Expr.eraseAll_eq_map, same]

/-- A clause of a keyword and an expression is told by its keyword. -/
theorem optionalClause_reads (reads : phrases.ReadBack limit bound) {expr : Option Expr}
    {word : Keyword} (formed : Expr.OptionFormed expr)
    (fits : 2 * ((Canonical.ofClause word expr).flatMap Piece.kinds).length ≤ bound + 1)
    (room : depth + 2 * Outline.depthAll (Outline.ofOption expr) ≤ capOf limit + 1)
    (other : lead rest ≠ .keyword word) (quiet : (lead rest).isQuiet = true) :
    Reads limit (Outline.AllReadable (Outline.ofOption expr)) (phrases.optionalClause word) depth
      ((Canonical.ofClause word expr).flatMap Piece.kinds ++ rest)
      (fun e => Expr.eraseOption e = Expr.eraseOption expr) depth rest := by
  cases expr with
  | none => exact (takeWord_no other).step (.pure (by simp [Outline.ofOption]) rfl)
  | some expr =>
    have text : (Canonical.ofClause word (some expr)).flatMap Piece.kinds ++ rest =
        .keyword word :: (expr.tokens ++ rest) := by
      simp [Canonical.ofClause]
    have length : ((Canonical.ofClause word (some expr)).flatMap Piece.kinds).length =
        expr.tokens.length + 1 := by
      simp [Canonical.ofClause]
    simp only [Outline.ofOption, Outline.plain_expr, Outline.depthAll_cons] at room
    rw [text]
    refine (takeWord_yes word).step ?_
    refine (expression_reads reads formed (by omega) (by omega) quiet).bind ?_ ?_
    · simp [Outline.ofOption, Outline.plain_expr]
    · intro holds e same
      exact .pure (by simpa [Outline.ofOption, Outline.plain_expr] using holds)
        (by simp [Expr.eraseOption, same])

end Parse

end CanonicalSql
