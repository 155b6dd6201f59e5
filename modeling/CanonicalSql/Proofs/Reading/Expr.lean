import CanonicalSql.Proofs.Reading.Primary

/-!
# Reading operators and predicates

Between the parentheses of an operator or a predicate its first operand is read as a
leading part. The operator that follows is told by its token, takes the operand on its left
and reads the rest, and the closing parenthesis ends it.
-/
namespace CanonicalSql

namespace Parse

variable {limit bound depth : Nat} {phrases : Phrases} {rest kinds : List Kind}

/-! ## Operators that do not follow -/

theorem operatorPower_reads :
    Reads limit True operatorPower depth kinds (· = Power.ahead kinds) depth kinds := by
  rcases Classical.em (lead kinds = .keyword .NOT) with isNot | other
  · refine (atWord_yes isNot).step (peek_reads.step (.pure trivial ?_))
    rw [Power.ahead, if_pos isNot]
  · refine (atWord_no other).step (kind_reads.step (.pure trivial ?_))
    rw [Power.ahead, if_neg other]

/-- Before what ends the operand there is no round. -/
theorem operatorStep_none {least : Nat}
    (weak : ∀ power, Power.ahead rest = some power → power.left < least) (start : Span)
    (done : Applied) :
    Reads limit True (operatorStep phrases least start done) depth rest (· = none) depth rest := by
  refine operatorPower_reads.step ?_
  cases isAhead : Power.ahead rest with
  | none => exact .pure trivial rfl
  | some power =>
    show Reads limit True (if power.left < least then pure none else _) depth rest (· = none)
      depth rest
    rw [if_pos (weak power isAhead)]
    exact .pure trivial rfl

theorem operators_none {least : Nat}
    (weak : ∀ power, Power.ahead rest = some power → power.left < least) (left : Expr)
    (start : Span) :
    Reads limit True (operators phrases left least start) depth rest (· = left) depth rest := by
  have rounds : Loops limit True (operatorStep phrases least start) ⟨left, 0, false⟩ depth rest
      (· = ⟨left, 0, false⟩) depth rest :=
    .stop (operatorStep_none weak start _) trivial rfl
  exact rounds.loop.step ((leave_reads 0).step (.pure trivial rfl))

/-- A value that is followed by what ends it. -/
theorem operand_reads (reads : phrases.ReadBack limit bound) {expr : Expr} {least : Nat}
    (formed : expr.Formed .value) (fits : 2 * expr.tokens.length ≤ bound)
    (room : depth + 2 * (Outline.ofExpr expr).depth ≤ capOf limit + 2) (ends : Ends least rest) :
    Reads limit (Outline.ofExpr expr).Readable (operand phrases least) depth
      (expr.tokens ++ rest) (fun e => e.erase = expr.erase) depth rest := by
  refine .still here_still fun start => ?_
  refine (leading_reads reads formed fits room ends.toStops).bind id fun holds e same => ?_
  exact (operators_none ends.power e start).mono ⟨fun _ => holds, fun _ => trivial⟩ fun a isLeft => by
    rw [isLeft, same]

/-! ## Predicates -/

theorem testedValue_reads (value : TruthValue) :
    Reads limit True testedValue depth (.keyword value.word :: rest) (· = some value) depth
      rest := by
  refine word?_looks.reads.step ?_
  cases value <;> exact advance_reads.after fun _ _ => .pure trivial rfl

theorem testedNull_reads :
    Reads limit True testedValue depth (.keyword .NULL :: rest) (· = none) depth rest :=
  word?_looks.reads.step (advance_reads.after fun _ _ => .pure trivial rfl)

theorem isTruth_reads (left : Expr) (value : TruthValue) (start : Span) :
    Reads limit True (isTest left start) depth (.keyword .IS :: .keyword value.word :: rest)
      (fun e => e.erase = .isTruth left.erase value default) depth rest := by
  refine (expectWord_reads .IS).step ((takeWord_no ?_).step ?_)
  · cases value <;> simp [TruthValue.word]
  · refine (testedValue_reads value).step (.still (spanFrom_still start) fun span => ?_)
    exact .pure trivial (by simp [Expr.erase])

theorem isNull_reads (left : Expr) (start : Span) :
    Reads limit True (isTest left start) depth (.keyword .IS :: .keyword .NULL :: rest)
      (fun e => e.erase = .isNull left.erase default) depth rest := by
  refine (expectWord_reads .IS).step ((takeWord_no (by simp)).step ?_)
  refine testedNull_reads.step (.still (spanFrom_still start) fun span => ?_)
  exact .pure trivial (by simp [Expr.erase])

theorem symmetric_reads (isSymmetric : Bool) (notSymmetric : lead rest ≠ .keyword .SYMMETRIC)
    (notAsymmetric : lead rest ≠ .keyword .ASYMMETRIC) :
    Reads limit True symmetric depth
      ((if isSymmetric then [.keyword .SYMMETRIC] else []) ++ rest) (· = isSymmetric) depth
      rest := by
  cases isSymmetric with
  | true => exact (takeWord_yes .SYMMETRIC).step (.pure trivial rfl)
  | false =>
    exact (takeWord_no notSymmetric).step ((takeWord_no notAsymmetric).step (.pure trivial rfl))

/-- What may follow an operand of a predicate. -/
theorem ends_predicate {kind : Kind} (closes : kind.isQuiet = true ∨ kind = .keyword .AND)
    (more : List Kind) : Ends Power.comparison.right (kind :: more) := by
  rcases closes with quiet | rfl
  · exact .of_quiet quiet
  · refine ⟨⟨by simp, by simp, by simp⟩, ?_⟩
    rintro power ⟨⟩
    exact (by decide : 3 < 8)

theorem likeEscape_reads (reads : phrases.ReadBack limit bound) {escape : Option Expr}
    (formed : Expr.OptionFormed escape)
    (fits : 2 * (Piece.kinds (Canonical.ofEscape escape)).length ≤ bound)
    (room : depth + 2 * Outline.depthAll (Outline.ofOption escape) ≤ capOf limit + 2) :
    Reads limit (Outline.AllReadable (Outline.ofOption escape)) (likeEscape phrases) depth
      (Piece.kinds (Canonical.ofEscape escape) ++ .symbol .rightParen :: rest)
      (fun e => Expr.eraseOption e = Expr.eraseOption escape) depth
      (.symbol .rightParen :: rest) := by
  cases escape with
  | none => exact (takeWord_no (by simp [Canonical.ofEscape])).step (.pure (by simp [Outline.ofOption]) rfl)
  | some escape =>
    have text : Piece.kinds (Canonical.ofEscape (some escape)) =
        .keyword .ESCAPE :: escape.tokens := by
      simp [Canonical.ofEscape]
    rw [text] at fits ⊢
    simp only [List.length_cons] at fits
    simp only [Outline.ofOption, Outline.plain_expr, Outline.depthAll_cons] at room
    refine (takeWord_yes .ESCAPE).step ?_
    refine (reads.operand formed (by omega) (by omega) (.of_quiet rfl)).bind ?_ ?_
    · simp [Outline.ofOption, Outline.plain_expr]
    · intro holds e same
      exact .pure (by simpa [Outline.ofOption, Outline.plain_expr] using holds)
        (by simp [Expr.eraseOption, same])

/-- Values or a query between the parentheses after `IN`. -/
theorem inRows_reads (reads : phrases.ReadBack limit bound) {rows : Rel}
    (formed : rows.Formed .members) (fits : 2 * (rows.tokens .members).length + 1 ≤ bound)
    (room : depth + 2 * (Outline.ofRel rows).depth ≤ capOf limit + 3) (opening : Span) :
    Reads limit (Outline.ofRel rows).Readable (inRows phrases opening) depth
      (rows.tokens .members ++ .symbol .rightParen :: rest) (fun r => r.erase = rows.erase) depth
      (.symbol .rightParen :: rest) := by
  rw [Outline.depth_ofRel] at room
  rw [Outline.readable_ofRel]
  cases rows with
  | values values span =>
    have text : (Rel.values values span).tokens .members =
        Piece.kinds (Piece.commaSeparated (Canonical.ofExprs values)) := by
      simp [Rel.tokens, Canonical.ofRel]
    rw [text] at fits ⊢
    simp only [Outline.belowRel] at room ⊢
    have noQuery : isQueryStart (lead
        (Piece.kinds (Piece.commaSeparated (Canonical.ofExprs values)) ++
          .symbol .rightParen :: rest)) = false := by
      obtain ⟨value, others, rfl⟩ := List.exists_cons_of_ne_nil formed.2.1
      simp only [Canonical.ofExprs, Piece.kinds_commaSeparated_cons, List.append_assoc]
      exact Expr.noQuery formed.2.2.1 _
    refine (startsQuery_no noQuery).step (.still here_still fun start => ?_)
    refine (expressions_reads reads formed.2.1 formed.2.2 fits (by omega) (by simp) rfl).bind id
      fun holds them same => ?_
    have listed : ∀ found, Expr.eraseAll found = Expr.eraseAll values →
        Reads limit (Outline.AllReadable (Outline.ofExprs values)) (listedValues opening found)
          depth (.symbol .rightParen :: rest)
          (fun r => r.erase = (Rel.values values span).erase) depth
          (.symbol .rightParen :: rest) :=
      fun found same => .still here_still fun _ => .pure holds (by simp [Rel.erase, same])
    split
    · exact (continuesQuery_no rfl).step (listed _ same)
    · exact listed _ same
  | query query =>
    have text : (Rel.query query).tokens .members = query.tokens := by
      simp [Rel.tokens, Canonical.ofRel, Canonical.parenthesizedWhen]
    have wraps : ¬ query.Wraps := by simpa using formed.2
    rw [text] at fits ⊢
    simp only [Outline.belowRel, Outline.plain_query, Outline.depthAll_cons] at room
    simp only [Outline.belowRel, Outline.plain_query, Outline.allReadable_cons,
      Outline.allReadable_nil, and_true]
    -- the query may begin with an operand in parentheses, which is at first taken for the first
    -- value of a list
    cases enclosed : query.beginsEnclosed with
    | false =>
      refine (startsQuery_yes (query.starts formed.1 enclosed _)).step ?_
      exact (reads.query formed.1 fits (by omega) (Past.close _)).bind id
        fun holds q same => .pure holds (by simp [Rel.erase, same])
    | true =>
      have starts : isQueryStart (lead (query.tokens ++ .symbol .rightParen :: rest)) = false := by
        rw [Query.tokens_enclosed formed.1 enclosed]
        rfl
      have goesOn := Query.goesOn enclosed wraps (.symbol .rightParen :: rest)
      have shorter : query.furtherTokens.length ≤ query.tokens.length := by
        rw [Query.tokens_enclosed formed.1 enclosed]
        simp only [List.length_cons, List.length_append]
        omega
      refine (startsQuery_no starts).step (.still here_still fun start => ?_)
      refine ((firstOperand_reads reads formed.1 wraps enclosed fits (by omega)).single
        (Kind.ne_of_isQueryNext goesOn rfl)).bind
        (fun all => ((Query.readable_enclosed enclosed).mp all).1) fun firstHolds them isFirst => ?_
      obtain ⟨-, rfl, found, place, rfl, same⟩ := isFirst
      refine (continuesQuery_yes goesOn).step ?_
      refine (reopened_reads reads formed.1 enclosed (by omega) (by omega) (Past.close _) same
        start).bind (fun all => ((Query.readable_enclosed enclosed).mp all).2)
        fun holds q same => .pure ?_ (by simp [Rel.erase, same])
      exact (Query.readable_enclosed enclosed).mpr ⟨firstHolds, holds⟩
  | table | select | setOp | join | named => simp [Rel.Formed] at formed

/-! ## Operators that follow -/

theorem binary_reads (reads : phrases.ReadBack limit bound) {left right found : Expr}
    {op : BinaryOp} {span : Span} (formed : (Expr.binary left op right span).Formed .value)
    (same : found.erase = left.erase) (firstHolds : (Outline.ofExpr left).Readable)
    (fits : 2 * right.tokens.length + 1 ≤ bound)
    (room : depth + 2 * (Outline.ofExpr (.binary left op right span)).depth ≤ capOf limit + 4)
    (power : Nat) (start : Span) :
    Reads limit (Outline.ofExpr (.binary left op right span)).Readable
      (applied phrases found power start) depth
      (op.kind :: (right.tokens ++ .symbol .rightParen :: rest))
      (fun e => e.erase = (Expr.binary left op right span).erase) depth
      (.symbol .rightParen :: rest) := by
  rw [Outline.depth_ofExpr] at room
  rw [Outline.readable_ofExpr]
  simp only [Outline.belowExpr, Outline.plain_expr, Outline.depthAll_cons] at room
  have applies : Reads limit ((Node.expr (.binary left op right span)).isUnreadable = false ∧
      Outline.AllReadable (Outline.belowExpr (.binary left op right span)))
      (binary phrases found power start) depth
      (op.kind :: (right.tokens ++ .symbol .rightParen :: rest))
      (fun e => e.erase = (Expr.binary left op right span).erase) depth
      (.symbol .rightParen :: rest) := by
    refine kind_reads.step ?_
    rw [lead_cons, op.ofKind?_kind]
    refine advance_reads.after fun _ _ => ?_
    refine (reads.operand formed.2.2 fits (by omega) (.of_quiet rfl)).bind ?_ fun holds e same' => ?_
    · rintro ⟨-, below⟩
      simp only [Outline.belowExpr, Outline.plain_expr, Outline.allReadable_cons] at below
      exact below.2.1
    · refine .still (spanFrom_still start) fun _ => .pure ⟨rfl, ?_⟩ ?_
      · simp [Outline.belowExpr, Outline.plain_expr, firstHolds, holds]
      · simp [Expr.erase, same, same']
  refine word?_looks.reads.step ?_
  cases op <;> exact applies

theorem between_reads (reads : phrases.ReadBack limit bound) {expr low high found : Expr}
    {isSymmetric : Bool} {span : Span}
    (formed : (Expr.between expr low high isSymmetric span).Formed .value)
    (same : found.erase = expr.erase) (firstHolds : (Outline.ofExpr expr).Readable)
    (fits : 2 * (low.tokens.length + high.tokens.length) + 1 ≤ bound)
    (room : depth + 2 * (Outline.ofExpr (.between expr low high isSymmetric span)).depth
      ≤ capOf limit + 4) (power : Nat) (start : Span) :
    Reads limit (Outline.ofExpr (.between expr low high isSymmetric span)).Readable
      (applied phrases found power start) depth
      (.keyword .BETWEEN :: ((if isSymmetric then [.keyword .SYMMETRIC] else []) ++
        (low.tokens ++ .keyword .AND :: (high.tokens ++ .symbol .rightParen :: rest))))
      (fun e => e.erase = (Expr.between expr low high isSymmetric span).erase) depth
      (.symbol .rightParen :: rest) := by
  have readable : (Outline.ofExpr (.between expr low high isSymmetric span)).Readable ↔
      (Outline.ofExpr expr).Readable ∧ (Outline.ofExpr low).Readable ∧
        (Outline.ofExpr high).Readable := by
    rw [Outline.readable_ofExpr]
    simp [Node.isUnreadable, Outline.belowExpr, Outline.plain_expr]
  rw [Outline.depth_ofExpr] at room
  simp only [Outline.belowExpr, Outline.plain_expr, Outline.depthAll_cons] at room
  rw [readable]
  obtain ⟨-, exprFormed, lowFormed, highFormed⟩ := formed
  refine word?_looks.reads.step (word?_looks.reads.step (advance_reads.after fun _ _ => ?_))
  refine (symmetric_reads isSymmetric ?_ ?_).step ?_
  · exact Expr.lead_ne lowFormed _ rfl (by simp)
  · exact Expr.lead_ne lowFormed _ rfl (by simp)
  · refine (reads.operand lowFormed (by omega) (by omega) (ends_predicate (.inr rfl) _)).bind
      (fun all => all.2.1) fun lowHolds l sameLow => (expectWord_reads .AND).step ?_
    refine (reads.operand highFormed (by omega) (by omega) (ends_predicate (.inl rfl) _)).bind
      (fun all => all.2.2) fun highHolds h sameHigh => ?_
    refine .still (spanFrom_still start) fun _ => .pure ⟨firstHolds, lowHolds, highHolds⟩ ?_
    simp [Expr.erase, same, sameLow, sameHigh]

theorem within_reads (reads : phrases.ReadBack limit bound) {expr found : Expr} {rows : Rel}
    {span : Span} (formed : (Expr.within expr rows span).Formed .value)
    (same : found.erase = expr.erase) (firstHolds : (Outline.ofExpr expr).Readable)
    (fits : 2 * (rows.tokens .members).length + 1 ≤ bound)
    (room : depth + 2 * (Outline.ofExpr (.within expr rows span)).depth ≤ capOf limit + 4)
    (power : Nat) (start : Span) :
    Reads limit (Outline.ofExpr (.within expr rows span)).Readable
      (applied phrases found power start) depth
      (.keyword .IN :: .symbol .leftParen :: (rows.tokens .members ++
        .symbol .rightParen :: .symbol .rightParen :: rest))
      (fun e => e.erase = (Expr.within expr rows span).erase) depth
      (.symbol .rightParen :: rest) := by
  have readable : (Outline.ofExpr (.within expr rows span)).Readable ↔
      (Outline.ofExpr expr).Readable ∧ (Outline.ofRel rows).Readable := by
    rw [Outline.readable_ofExpr]
    simp [Node.isUnreadable, Outline.belowExpr, Outline.plain_expr, Outline.plain_rel]
  rw [Outline.depth_ofExpr] at room
  simp only [Outline.belowExpr, Outline.plain_expr, Outline.plain_rel,
    Outline.depthAll_cons] at room
  rw [readable]
  refine word?_looks.reads.step (word?_looks.reads.step (advance_reads.after fun _ _ => ?_))
  refine .still here_still fun opening => (expectSign_reads _).step ?_
  refine (inRows_reads reads formed.2.2 fits (by omega) opening).bind And.right
    fun holds r sameRows => (expectSign_reads _).step ?_
  refine .still (spanFrom_still start) fun _ => .pure ⟨firstHolds, holds⟩ ?_
  simp [Expr.erase, same, sameRows]

theorem like_reads (reads : phrases.ReadBack limit bound) {expr pattern found : Expr}
    {escape : Option Expr} {span : Span}
    (formed : (Expr.like expr pattern escape span).Formed .value)
    (same : found.erase = expr.erase) (firstHolds : (Outline.ofExpr expr).Readable)
    (fits : 2 * (pattern.tokens.length + (Piece.kinds (Canonical.ofEscape escape)).length) + 1
      ≤ bound)
    (room : depth + 2 * (Outline.ofExpr (.like expr pattern escape span)).depth
      ≤ capOf limit + 4) (power : Nat) (start : Span) :
    Reads limit (Outline.ofExpr (.like expr pattern escape span)).Readable
      (applied phrases found power start) depth
      (.keyword .LIKE :: (pattern.tokens ++ (Piece.kinds (Canonical.ofEscape escape) ++
        .symbol .rightParen :: rest)))
      (fun e => e.erase = (Expr.like expr pattern escape span).erase) depth
      (.symbol .rightParen :: rest) := by
  have readable : (Outline.ofExpr (.like expr pattern escape span)).Readable ↔
      (Outline.ofExpr expr).Readable ∧ (Outline.ofExpr pattern).Readable ∧
        Outline.AllReadable (Outline.ofOption escape) := by
    rw [Outline.readable_ofExpr]
    simp [Node.isUnreadable, Outline.belowExpr, Outline.plain_expr]
  have escapeOrEnd : ∀ more, Ends Power.comparison.right
      (Piece.kinds (Canonical.ofEscape escape) ++ .symbol .rightParen :: more) := by
    intro more
    cases escape with
    | none => exact ends_predicate (.inl rfl) _
    | some escape => exact ends_predicate (.inl rfl) _
  rw [Outline.depth_ofExpr] at room
  simp only [Outline.belowExpr, Outline.plain_expr, Outline.depthAll_cons,
    Outline.depthAll_append] at room
  rw [readable]
  refine word?_looks.reads.step (word?_looks.reads.step (advance_reads.after fun _ _ => ?_))
  refine (reads.operand formed.2.2.1 (by omega) (by omega) (escapeOrEnd rest)).bind
    (fun all => all.2.1) fun patternHolds p samePattern => ?_
  refine (likeEscape_reads reads formed.2.2.2 (by omega) (by omega)).bind
    (fun all => all.2.2) fun escapeHolds e sameEscape => ?_
  refine .still (spanFrom_still start) fun _ =>
    .pure ⟨firstHolds, patternHolds, escapeHolds⟩ ?_
  simp [Expr.erase, same, samePattern, sameEscape]

/-- What follows the first operand of an operator or a predicate, up to the closing
parenthesis. -/
theorem applied_reads (reads : phrases.ReadBack limit bound) {expr first found : Expr}
    {more : List Kind} (follows : expr.Follows first more) (formed : expr.Formed .value)
    (same : found.erase = first.erase) (firstHolds : (Outline.ofExpr first).Readable)
    (fits : 2 * more.length ≤ bound + 1)
    (room : depth + 2 * (Outline.ofExpr expr).depth ≤ capOf limit + 4) (start : Span) :
    ∃ power, Power.ahead (more ++ .symbol .rightParen :: rest) = some power ∧
      Reads limit (Outline.ofExpr expr).Readable (applied phrases found power.right start) depth
        (more ++ .symbol .rightParen :: rest) (fun e => e.erase = expr.erase) depth
        (.symbol .rightParen :: rest) := by
  have readable : ∀ {below}, Outline.belowExpr expr = below →
      (Node.expr expr).isUnreadable = false → Outline.AllReadable below →
      (Outline.ofExpr expr).Readable := by
    rintro below rfl noShape all
    exact Outline.readable_ofExpr.mpr ⟨noShape, all⟩
  cases follows with
  | binary _ op right span =>
    simp only [List.length_cons] at fits
    obtain ⟨power, isPower⟩ : ∃ power, Power.ahead (op.kind ::
        (right.tokens ++ .symbol .rightParen :: rest)) = some power := by
      cases op <;> exact ⟨_, rfl⟩
    exact ⟨power, isPower, binary_reads reads formed same firstHolds (by omega) room _ start⟩
  | between _ low high symmetric span =>
    simp only [List.length_cons, List.length_append] at fits
    simp only [List.cons_append, List.append_assoc]
    exact ⟨.comparison, rfl,
      between_reads reads formed same firstHolds (by omega) room _ start⟩
  | within _ rows span =>
    simp only [List.length_cons, List.length_append] at fits
    simp only [List.cons_append, List.append_assoc, List.nil_append]
    exact ⟨.comparison, rfl, within_reads reads formed same firstHolds (by omega) room _ start⟩
  | like _ pattern escape span =>
    simp only [List.length_cons, List.length_append] at fits
    simp only [List.cons_append, List.append_assoc]
    exact ⟨.comparison, rfl, like_reads reads formed same firstHolds (by omega) room _ start⟩
  | isTruth _ value span =>
    refine ⟨.comparison, rfl, word?_looks.reads.step ?_⟩
    refine (isTruth_reads found value start).mono ⟨fun _ => ?_, fun _ => trivial⟩ ?_
    · exact readable rfl rfl (by simpa [Outline.belowExpr, Outline.plain_expr] using firstHolds)
    · intro e same'
      rw [same', same]
      simp [Expr.erase]
  | isNull _ span =>
    refine ⟨.comparison, rfl, word?_looks.reads.step ?_⟩
    refine (isNull_reads found start).mono ⟨fun _ => ?_, fun _ => trivial⟩ ?_
    · exact readable rfl rfl (by simpa [Outline.belowExpr, Outline.plain_expr] using firstHolds)
    · intro e same'
      rw [same', same]
      simp [Expr.erase]
  | collate _ collation span =>
    refine ⟨⟨17, 18⟩, rfl, word?_looks.reads.step (advance_reads.after fun _ _ => ?_)⟩
    refine (qualifiedName_reads collation (by simp)).step ?_
    refine .still (spanFrom_still start) fun _ => .pure ?_ (by simp [Expr.erase, same])
    exact readable rfl rfl (by simpa [Outline.belowExpr, Outline.plain_expr] using firstHolds)

/-- One operator, after which the closing parenthesis follows. -/
theorem operators_once {accepts : Prop} {power : Power} {left : Expr} {good : Expr → Prop}
    {start : Span} (isAhead : Power.ahead kinds = some power) (room : depth < capOf limit)
    (shorter : rest.length + 1 < kinds.length)
    (round : Reads limit accepts (applied phrases left power.right start) (depth + 1) kinds good
      (depth + 1) (.symbol .rightParen :: rest)) :
    Reads limit accepts (operators phrases left 0 start) depth kinds good depth
      (.symbol .rightParen :: rest) := by
  have first : Reads limit accepts (operatorStep phrases 0 start ⟨left, 0, false⟩) depth kinds
      (fun next => ∃ done, next = some done ∧ done.levels = 1 ∧ good done.left) (depth + 1)
      (.symbol .rightParen :: rest) := by
    refine operatorPower_reads.step ?_
    rw [isAhead]
    refine (enter_reads room).step (round.bind id fun holds e isGood => ?_)
    exact .pure holds ⟨_, rfl, rfl, isGood⟩
  have rounds : Loops limit accepts (operatorStep phrases 0 start) ⟨left, 0, false⟩ depth kinds
      (fun done => done.levels = 1 ∧ good done.left) (depth + 1)
      (.symbol .rightParen :: rest) :=
    .next first id shorter fun holds done isDone =>
      .stop (operatorStep_none (Ends.of_quiet rfl).power start done) holds isDone
  refine rounds.loop.bind id fun holds done isDone => ?_
  rw [isDone.1]
  exact (leave_reads 1).step (.pure holds isDone.2)

theorem prefixed_reads (reads : phrases.ReadBack limit bound) {op : UnaryOp} {operand : Expr}
    {span : Span} (formed : (Expr.unary op operand span).Formed .value)
    (fits : 2 * operand.tokens.length + 1 ≤ bound)
    (room : depth + 2 * (Outline.ofExpr (.unary op operand span)).depth ≤ capOf limit + 3) :
    Reads limit (Outline.ofExpr (.unary op operand span)).Readable (leading phrases) depth
      (op.kind :: (operand.tokens ++ .symbol .rightParen :: rest))
      (fun e => e.erase = (Expr.unary op operand span).erase) depth
      (.symbol .rightParen :: rest) := by
  have level := Outline.depth_ofExpr operand
  have readable : (Outline.ofExpr (.unary op operand span)).Readable ↔
      (Outline.ofExpr operand).Readable := by
    rw [Outline.readable_ofExpr]
    simp [Node.isUnreadable, Outline.belowExpr, Outline.plain_expr]
  obtain ⟨power, isOp⟩ : ∃ power, UnaryOp.ofKind? op.kind = some (op, power) := by
    cases op <;> exact ⟨_, rfl⟩
  rw [Outline.depth_ofExpr] at room
  simp only [Outline.belowExpr, Outline.plain_expr, Outline.depthAll_cons] at room
  rw [readable]
  refine .still here_still fun start => kind_reads.step ?_
  rw [lead_cons, isOp]
  refine advance_reads.after fun _ _ => ?_
  have value : Reads limit (Outline.ofExpr operand).Readable (nested (phrases.operand power))
      depth (operand.tokens ++ .symbol .rightParen :: rest) (fun e => e.erase = operand.erase)
      depth (.symbol .rightParen :: rest) :=
    .nested (by omega) (reads.operand formed.2 fits (by omega) (.of_quiet rfl))
  refine value.bind id fun holds e same => .still (spanFrom_still start) fun _ => ?_
  exact .pure holds (by simp [Expr.erase, same])

/-- A test of a query, from the word `EXISTS` or `UNIQUE` on. -/
theorem test_reads (reads : phrases.ReadBack limit bound) {expr : Expr} {query : Query}
    {make : Query → Span → Expr} {word : Keyword} (below : Outline.belowExpr expr = [.ofQuery query])
    (noShape : (Node.expr expr).isUnreadable = false)
    (makes : ∀ found span, found.erase = query.erase → (make found span).erase = expr.erase)
    (formed : query.Formed) (fits : 2 * query.tokens.length + 1 ≤ bound)
    (room : depth + 2 * (Outline.ofExpr expr).depth ≤ capOf limit + 3) (start : Span) :
    Reads limit (Outline.ofExpr expr).Readable
      (do advance; let query ← parenthesized phrases.query; return make query (← spanFrom start))
      depth
      (.keyword word :: .symbol .leftParen :: (query.tokens ++ .symbol .rightParen ::
        .symbol .rightParen :: rest))
      (fun e => e.erase = expr.erase) depth (.symbol .rightParen :: rest) := by
  rw [Outline.depth_ofExpr, below, Outline.depthAll_cons] at room
  have readable : (Outline.ofExpr expr).Readable ↔ (Outline.ofQuery query).Readable := by
    rw [Outline.readable_ofExpr, below]
    simp [noShape]
  rw [readable]
  refine advance_reads.after fun _ _ => ?_
  refine (Reads.parenthesized (reads.query formed fits (by omega) (Past.close _))).bind id
    fun holds q same => ?_
  exact .still (spanFrom_still start) fun _ => .pure holds (makes q _ same)

/-- The rule for operands between the parentheses of an operator or a predicate. -/
theorem inner_reads (reads : phrases.ReadBack limit bound) {expr : Expr} {row : List Kind}
    (formed : expr.Formed .value) (encloses : expr.Encloses row) (fits : 2 * row.length ≤ bound)
    (room : depth + 2 * (Outline.ofExpr expr).depth ≤ capOf limit + 3) :
    Reads limit (Outline.ofExpr expr).Readable (operand phrases 0) depth
      (row ++ .symbol .rightParen :: rest) (fun e => e.erase = expr.erase) depth
      (.symbol .rightParen :: rest) := by
  have level := encloses.two_le_depth
  have alone : ∀ {p : Parse Expr} {start : Span},
      Reads limit (Outline.ofExpr expr).Readable p depth (row ++ .symbol .rightParen :: rest)
        (fun e => e.erase = expr.erase) depth (.symbol .rightParen :: rest) →
      Reads limit (Outline.ofExpr expr).Readable (do operators phrases (← p) 0 start) depth
        (row ++ .symbol .rightParen :: rest) (fun e => e.erase = expr.erase) depth
        (.symbol .rightParen :: rest) := by
    intro p start first
    refine first.bind id fun holds e same => ?_
    exact (operators_none (Ends.of_quiet rfl).power e start).mono ⟨fun _ => holds, fun _ => trivial⟩
      fun a isLeft => by rw [isLeft, same]
  refine .still here_still fun start => ?_
  cases encloses with
  | unary op operand span =>
    simp only [List.length_cons] at fits
    exact alone (prefixed_reads reads formed (by omega) room)
  | existence query span =>
    simp only [List.length_cons, List.length_append] at fits
    simp only [List.cons_append, List.append_assoc, List.nil_append] at alone ⊢
    refine alone (.still here_still fun _ => kind_reads.step ?_)
    refine .still here_still fun _ => kind_reads.step (.still here_still fun start => ?_)
    exact test_reads reads rfl rfl (fun _ _ same => by simp [Expr.erase, same]) formed.2 (by omega)
      room start
  | uniqueness query span =>
    simp only [List.length_cons, List.length_append] at fits
    simp only [List.cons_append, List.append_assoc, List.nil_append] at alone ⊢
    refine alone (.still here_still fun _ => kind_reads.step ?_)
    refine .still here_still fun _ => kind_reads.step (.still here_still fun start => ?_)
    exact test_reads reads rfl rfl (fun _ _ same => by simp [Expr.erase, same]) formed.2 (by omega)
      room start
  | @after _ first more follows =>
    have lower := follows.first_depth
    simp only [List.length_append] at fits
    rw [List.append_assoc]
    refine (leading_reads reads (follows.first_formed formed) (by omega) (by omega)
      (follows.stops _)).bind follows.first_readable fun firstHolds found same => ?_
    obtain ⟨power, isAhead, round⟩ := applied_reads reads follows formed same firstHolds
      (by omega) (by omega : depth + 1 + 2 * (Outline.ofExpr expr).depth ≤ capOf limit + 4) start
    have nonempty := follows.nonempty
    refine operators_once isAhead (by omega) ?_ round
    simp only [List.length_append, List.length_cons]
    omega

end Parse

end CanonicalSql
