import CanonicalSql.Proofs.Distinct.Projection
import CanonicalSql.Proofs.Distinct.Source

/-!
# Queries told apart

An operand of a set operation is told by its first token, and what is between parentheses there is
read as a query. A body goes on with a set operator or it does not, and the clauses of a query are
told by their order. With this every part of a tree is told from others of its sort, by recursion
along the tree (`Expr.apart`, `Rel.apart`, `Query.distinct`).
-/
namespace CanonicalSql

/-! ## Operands -/

namespace Rel

variable {rel other : Rel}

/-- No other operand has a row with which the same text begins. -/
def DistinctOperand (rel : Rel) : Prop :=
  ∀ other : Rel, other.Formed .operand →
    Agree (Past 6) (rel.tokens .operand) (other.tokens .operand) (rel.erase = other.erase)

/-- No other body of a query has a row with which the same text begins. -/
def DistinctBody (rel : Rel) : Prop :=
  ∀ other : Rel, other.Formed .operand →
    Agree (Past 7) (rel.tokens .body) (other.tokens .body) (rel.erase = other.erase)

/-- The token with which an operand begins. -/
def opening : Rel → Kind
  | .select _ => .keyword .SELECT
  | .values .. => .keyword .VALUES
  | .table .. => .keyword .TABLE
  | _ => .symbol .leftParen

theorem lead_operand (formed : rel.Formed .operand) (rest : List Kind) :
    lead (rel.tokens .operand ++ rest) = rel.opening := by
  cases rel with
  | select select =>
    obtain ⟨quantifier, targets, sources, selection, groupBy, having, windows, span⟩ := select
    simp [tokens, Canonical.ofRel, Canonical.asSource, Canonical.Place.isSource,
      Canonical.ofSelect, opening]
  | values rows span =>
    simp [tokens, Canonical.ofRel, Canonical.asSource, Canonical.Place.isSource, opening]
  | table name span => simp [tokens, Canonical.ofRel, Canonical.Place.isSource, opening]
  | setOp | query =>
    rw [tokens_enclosed rfl]
    rfl
  | join | named => simp [Formed] at formed

theorem opening_eq {rest rest' : List Kind} (formed : rel.Formed .operand)
    (formed' : other.Formed .operand)
    (eq : rel.tokens .operand ++ rest = other.tokens .operand ++ rest') :
    rel.opening = other.opening := by
  rw [← lead_operand formed rest, eq, lead_operand formed' rest']

theorem table_distinctOperand {name : QualifiedName} {span : Span}
    (formed : (Rel.table name span).Formed .operand) : (Rel.table name span).DistinctOperand := by
  intro other formed' rest rest' past past' eq
  have same := opening_eq formed formed' eq
  have text (name : QualifiedName) (span : Span) : (Rel.table name span).tokens .operand =
      .keyword .TABLE :: Piece.kinds (Piece.qualified name) := by
    simp [tokens, Canonical.ofRel, Canonical.Place.isSource]
  cases other with
  | table name' span' =>
    rw [text, text] at eq
    obtain ⟨rfl, left⟩ := (Piece.qualified_agree name name').tail (.of_lead past.stops.dot)
      (.of_lead past'.stops.dot) eq
    exact ⟨rfl, left⟩
  | _ => cases same

theorem select_distinctOperand {select : Select} (formed : (Rel.select select).Formed .operand)
    (distinct : select.Distinct) : (Rel.select select).DistinctOperand := by
  intro other formed' rest rest' past past' eq
  have same := opening_eq formed formed' eq
  have text (select : Select) : (Rel.select select).tokens .operand = select.tokens := by
    simp [tokens, Canonical.ofRel, Canonical.asSource, Canonical.Place.isSource]
  cases other with
  | select select' =>
    rw [text, text] at eq
    obtain ⟨sameSelect, left⟩ := distinct select' formed'.2 past past' eq
    exact ⟨by rw [erase, erase, sameSelect], left⟩
  | _ => cases same

theorem values_distinctOperand {rows : List Expr} {span : Span}
    (formed : (Rel.values rows span).Formed .operand) (distinct : ∀ row ∈ rows, row.Distinct) :
    (Rel.values rows span).DistinctOperand := by
  intro other formed' rest rest' past past' eq
  have same := opening_eq formed formed' eq
  have text (rows : List Expr) (span : Span) : (Rel.values rows span).tokens .operand =
      .keyword .VALUES :: Piece.kinds (Piece.commaSeparated (rows.map Canonical.ofExpr)) := by
    simp [tokens, Canonical.ofRel, Canonical.asSource, Canonical.Place.isSource,
      Canonical.ofExprs_eq_map]
  cases other with
  | values rows' span' =>
    have list := list_agree formed.2.1 formed'.2.1 Stops.comma fun row member row' member' =>
      distinct row member row' (Expr.allFormed_iff.mp formed'.2.2 row' member')
    rw [text, text] at eq
    obtain ⟨sameRows, left⟩ := list.tail ⟨past.stops, past.ne (by decide)⟩
      ⟨past'.stops, past'.ne (by decide)⟩ eq
    refine ⟨?_, left⟩
    rw [erase, erase, Expr.eraseAll_eq_map, Expr.eraseAll_eq_map, sameRows]
  | _ => cases same

/-- An operand in parentheses is told by the query that is written between them. -/
theorem enclosed_distinctOperand (formed : rel.Formed .operand) (enclosed : rel.isEnclosed = true)
    (distinct : rel.enclosedQuery.Distinct) : rel.DistinctOperand := by
  intro other formed' rest rest' past past' eq
  have same := opening_eq formed formed' eq
  have enclosed' : other.isEnclosed = true := by
    cases rel with
    | setOp | query =>
      cases other with
      | setOp | query => rfl
      | join | named => simp [Formed] at formed'
      | _ => cases same
    | _ => cases enclosed
  rw [tokens_enclosed enclosed, tokens_enclosed enclosed'] at eq
  have inside := (distinct other.enclosedQuery (enclosedQuery_formed formed')).mono
    (fun _ => Closed.past) id
  obtain ⟨sameQuery, left⟩ := inside.parenthesized past past' eq
  refine ⟨?_, left⟩
  rw [← operand_of_enclosed formed rfl, operand_of_enclosed formed' sameQuery]

/-! ## Bodies -/

theorem plain_or (body : Rel) :
    (∃ op quantifier left right span, body = .setOp op quantifier left right span) ∨
      body.firstOperand = body ∧ body.furtherTokens = [] := by
  cases body with
  | setOp op quantifier left right span => exact .inl ⟨op, quantifier, left, right, span, rfl⟩
  | _ => exact .inr ⟨rfl, rfl⟩

theorem tokens_plain (formed : rel.Formed .operand) (first : rel.firstOperand = rel)
    (noMore : rel.furtherTokens = []) : rel.tokens .body = rel.tokens .operand := by
  rw [tokens_body formed, first, noMore, List.append_nil]

theorem past_setOperator (op : SetOperator) (rest : List Kind) :
    Past 6 (.keyword op.word :: rest) ∧ ¬ Past 7 (.keyword op.word :: rest) := by
  cases op <;> exact ⟨Nat.le_refl 6, Nat.lt_irrefl 6⟩

theorem distinctBody_of_operand (formed : rel.Formed .operand) (first : rel.firstOperand = rel)
    (noMore : rel.furtherTokens = []) (distinct : rel.DistinctOperand) : rel.DistinctBody := by
  intro other formed' rest rest' past past' eq
  rw [tokens_plain formed first noMore] at eq
  rcases plain_or other with ⟨op, quantifier, left, right, span, rfl⟩ | ⟨first', noMore'⟩
  · rw [tokens_body formed', List.append_assoc] at eq
    have follows := past_setOperator op
      (Piece.kinds (Canonical.ofQuantifier quantifier) ++ right.tokens .operand ++ rest')
    obtain ⟨-, rfl⟩ := distinct left formed'.2.1 (past.mono (by omega)) follows.1 eq
    exact absurd past follows.2
  · rw [tokens_plain formed' first' noMore'] at eq
    exact distinct other formed' (past.mono (by omega)) (past'.mono (by omega)) eq

theorem setOp_distinctBody {op : SetOperator} {quantifier : Option SetQuantifier}
    {left right : Rel} {span : Span}
    (formed : (Rel.setOp op quantifier left right span).Formed .operand)
    (leftDistinct : left.DistinctOperand) (rightDistinct : right.DistinctOperand) :
    (Rel.setOp op quantifier left right span).DistinctBody := by
  intro other formed' rest rest' past past' eq
  rw [tokens_body formed, List.append_assoc] at eq
  have follows := past_setOperator op
    (Piece.kinds (Canonical.ofQuantifier quantifier) ++ right.tokens .operand ++ rest)
  rcases plain_or other with ⟨op', quantifier', left', right', span', rfl⟩ | ⟨first', noMore'⟩
  · rw [tokens_body formed', List.append_assoc] at eq
    have follows' := past_setOperator op'
      (Piece.kinds (Canonical.ofQuantifier quantifier') ++ right'.tokens .operand ++ rest')
    obtain ⟨sameLeft, eq⟩ := leftDistinct left' formed'.2.1 follows.1 follows'.1 eq
    have noQuantifier {right : Rel} (formed : right.Formed .operand) (mark : SetQuantifier)
        (rest : List Kind) : lead (right.tokens .operand ++ rest) ≠ .keyword mark.word := by
      cases mark <;> exact Kind.ne_of_opensOperand (opens formed rest) rfl
    have operands := quantified_agree quantifier quantifier' (rightDistinct right' formed'.2.2)
      (noQuantifier formed.2.2) (noQuantifier formed'.2.2)
    obtain ⟨⟨isWord, rfl, sameRight⟩, same⟩ :=
      operands.cons (past.mono (by omega)) (past'.mono (by omega)) eq
    have sameOp : op = op' := by cases op <;> cases op' <;> first | rfl | cases isWord
    exact ⟨by rw [erase, erase, sameOp, sameLeft, sameRight], same⟩
  · rw [tokens_plain formed' first' noMore'] at eq
    obtain ⟨-, rfl⟩ := leftDistinct other formed' follows.1 (past'.mono (by omega)) eq
    exact absurd past' follows.2

/-! ## Rows after `IN` -/

theorem tokens_values_members (rows : List Expr) (span : Span) :
    (Rel.values rows span).tokens .members =
      Piece.kinds (Piece.commaSeparated (rows.map Canonical.ofExpr)) := by
  simp [tokens, Canonical.ofRel, Canonical.ofExprs_eq_map]

theorem tokens_query_members (query : Query) :
    (Rel.query query).tokens .members = query.tokens := by
  simp [tokens, Canonical.ofRel, Canonical.parenthesizedWhen]

/-- A list of values is no query: after its first value there is a comma or the end. -/
theorem values_ne_query {rows : List Expr} {query : Query} {rest rest' : List Kind}
    (nonempty : rows ≠ []) (formed : Expr.AllFormed .value rows) (queryFormed : query.Formed)
    (more : ¬ query.Wraps) (closed : Closed rest) :
    Piece.kinds (Piece.commaSeparated (rows.map Canonical.ofExpr)) ++ rest ≠
      query.tokens ++ rest' := by
  intro eq
  obtain ⟨first, others, rfl⟩ := List.exists_cons_of_ne_nil nonempty
  rw [List.map_cons, Piece.kinds_commaSeparated_cons, List.append_assoc] at eq
  have goesOn := Expr.goesOn_of_query formed.1 queryFormed more eq
  cases others with
  | nil =>
    have goesOn : Parse.isQueryNext (lead rest) = true := goesOn
    rw [closed] at goesOn
    cases goesOn
  | cons second others => cases goesOn

theorem values_distinctMembers {rows : List Expr} {span : Span}
    (formed : (Rel.values rows span).Formed .members) (distinct : ∀ row ∈ rows, row.Distinct) :
    (Rel.values rows span).DistinctMembers := by
  intro other formed'
  rw [tokens_values_members]
  cases other with
  | values rows' span' =>
    rw [tokens_values_members]
    refine (list_agree formed.2.1 formed'.2.1 Stops.comma fun row member row' member' =>
      distinct row member row' (Expr.allFormed_iff.mp formed'.2.2 row' member')).mono ?_ ?_
    · intro rest closed
      exact ⟨closed.stops, closed.past.ne (by decide)⟩
    · intro same
      rw [erase, erase, Expr.eraseAll_eq_map, Expr.eraseAll_eq_map, same]
  | query query =>
    have more : ¬ query.Wraps := by simpa using formed'.2
    rw [tokens_query_members]
    intro rest rest' closed _ eq
    exact absurd eq (values_ne_query formed.2.1 formed.2.2 formed'.1 more closed)
  | join | table | named | select | setOp => simp [Formed] at formed'

theorem query_distinctMembers {query : Query} (formed : (Rel.query query).Formed .members)
    (distinct : query.Distinct) : (Rel.query query).DistinctMembers := by
  intro other formed'
  have more : ¬ query.Wraps := by simpa using formed.2
  rw [tokens_query_members]
  cases other with
  | values rows' span' =>
    rw [tokens_values_members]
    intro rest rest' _ closed eq
    exact absurd eq.symm (values_ne_query formed'.2.1 formed'.2.2 formed.1 more closed)
  | query query' =>
    rw [tokens_query_members]
    refine (distinct query' formed'.1).mono (fun _ => Closed.past) fun same => ?_
    rw [erase, erase, same]
  | join | table | named | select | setOp => simp [Formed] at formed'

end Rel

/-! ## The clauses of a query -/

theorem Cte.agree {cte cte' : Cte} (formed' : cte'.query.Formed) (distinct : cte.query.Distinct) :
    Agree (fun _ => True) (Piece.kinds (Canonical.ofCte cte)) (Piece.kinds (Canonical.ofCte cte'))
      (cte.erase = cte'.erase) := by
  have text (cte : Cte) : Piece.kinds (Canonical.ofCte cte) = .identifier cte.name ::
      (Piece.kinds (Canonical.when (!cte.columns.isEmpty) (Piece.names cte.columns)) ++
        .keyword .AS :: .symbol .leftParen :: (cte.query.tokens ++ [Kind.symbol .rightParen])) := by
    simp [Canonical.ofCte, Canonical.withColumns]
  have queries : Agree (fun _ => True) _ _ _ :=
    ((distinct cte'.query formed').mono (fun _ => Closed.past) id).parenthesized
  rw [text, text]
  refine ((columns_agree cte.columns cte'.columns).append queries.tail (fun _ _ => ?_)
    fun _ _ => ?_).cons.mono (fun _ => id) ?_
  · simp
  · simp
  · rintro ⟨sameName, sameColumns, sameQuery⟩
    rw [Cte.erase, Cte.erase, Kind.identifier.inj sameName, sameColumns, sameQuery]

/-- What may follow a `WITH` clause, or stand in place of one. -/
def EndsWith (rest : List Kind) : Prop := (lead rest).opensOperand = true

theorem WithClause.agree {clause clause' : Option WithClause}
    (formed : WithClause.OptionFormed clause) (formed' : WithClause.OptionFormed clause')
    (distinct : ∀ it ∈ clause, ∀ cte ∈ it.ctes, cte.query.Distinct) :
    Agree EndsWith ((Canonical.ofWith clause).flatMap Piece.kinds)
      ((Canonical.ofWith clause').flatMap Piece.kinds)
      (WithClause.eraseOption clause = WithClause.eraseOption clause') := by
  have text (clause : Option WithClause) : (Canonical.ofWith clause).flatMap Piece.kinds =
      clause.elim [] fun it => .keyword .WITH ::
        ((if it.recursive then [Kind.keyword .RECURSIVE] else []) ++
          Piece.kinds (Piece.commaSeparated (it.ctes.map Canonical.ofCte))) := by
    rcases clause with _ | ⟨recursive, ctes, span⟩
    · rfl
    · cases recursive <;> simp [Canonical.ofWith, Canonical.ofCtes_eq_map, Canonical.when]
  have each : ∀ it ∈ clause, ∀ it' ∈ clause', Agree EndsWith
      ((if it.recursive then [Kind.keyword .RECURSIVE] else []) ++
        Piece.kinds (Piece.commaSeparated (it.ctes.map Canonical.ofCte)))
      ((if it'.recursive then [Kind.keyword .RECURSIVE] else []) ++
        Piece.kinds (Piece.commaSeparated (it'.ctes.map Canonical.ofCte)))
      ((it.recursive, it.ctes.map Cte.erase) = (it'.recursive, it'.ctes.map Cte.erase)) := by
    rintro ⟨recursive, ctes, span⟩ rfl ⟨recursive', ctes', span'⟩ rfl
    -- the first token behind `WITH` tells the two sorts of clause
    have marks : Agree (fun rest => lead rest ≠ .keyword .RECURSIVE)
        (if recursive then [Kind.keyword .RECURSIVE] else [])
        (if recursive' then [Kind.keyword .RECURSIVE] else []) (recursive = recursive') := by
      intro rest rest' other other' eq
      cases recursive <;> cases recursive'
      · exact ⟨rfl, eq⟩
      · exact absurd (congrArg lead eq) other
      · exact absurd (congrArg lead eq).symm other'
      · exact ⟨rfl, (List.cons.inj eq).2⟩
    have list := list_agree formed.1 formed'.1 (fun _ => trivial) fun one member other member' =>
      Cte.agree (Cte.allFormed_iff.mp formed'.2 other member').2.2 (distinct _ rfl one member)
    have noMark {ctes : List Cte} (nonempty : ctes ≠ []) (rest : List Kind) :
        lead (Piece.kinds (Piece.commaSeparated (ctes.map Canonical.ofCte)) ++ rest) ≠
          .keyword .RECURSIVE := by
      obtain ⟨first, others, rfl⟩ := List.exists_cons_of_ne_nil nonempty
      simp [Canonical.ofCte, Canonical.withColumns]
    refine (marks.append list (fun rest _ => noMark formed.1 rest)
      fun rest _ => noMark formed'.1 rest).mono ?_ ?_
    · intro rest opens
      exact ⟨trivial, Kind.ne_of_opensOperand opens rfl⟩
    · rintro ⟨rfl, same⟩
      exact congrArg _ same
  rw [text, text]
  refine (option_agree each).mono ?_ fun same => ?_
  · intro rest opens
    exact ⟨opens, Kind.ne_of_opensOperand opens rfl⟩
  · rcases clause with _ | ⟨recursive, ctes, span⟩
    · rcases clause' with _ | ⟨recursive', ctes', span'⟩
      · rfl
      · cases same
    · rcases clause' with _ | ⟨recursive', ctes', span'⟩
      · cases same
      · obtain ⟨rfl, sameCtes⟩ := Prod.mk.inj (Option.some.inj same)
        simp only [WithClause.eraseOption, Cte.eraseAll_eq_map] at sameCtes ⊢
        rw [sameCtes]

theorem Expr.offset_clauses {count count' : Option Expr} (formed' : OptionFormed count')
    (distinct : ∀ it ∈ count, it.Distinct) :
    Clauses 8 9 ((Canonical.ofOffset count).flatMap Piece.kinds)
      ((Canonical.ofOffset count').flatMap Piece.kinds) (eraseOption count = eraseOption count') := by
  have text (count : Option Expr) : (Canonical.ofOffset count).flatMap Piece.kinds =
      count.elim [] fun it => .keyword .OFFSET :: (it.tokens ++ [Kind.keyword .ROWS]) := by
    cases count <;> simp [Canonical.ofOffset, tokens]
  have isRank : (Kind.keyword .OFFSET).rank = 8 := rfl
  rw [text, text, eraseOption_eq_map, eraseOption_eq_map]
  refine .option isRank fun it member it' member' => ?_
  have counts := distinct it member it' (optionFormed_iff.mp formed' it' member')
  have rows : ∀ rest, Stops ([Kind.keyword .ROWS] ++ rest) := fun _ => .of_quiet rfl
  exact (counts.append (.token _ _) (fun rest _ => rows rest) fun rest _ => rows rest).mono
    (fun _ => id) And.left

/-! ## `FETCH` -/

namespace Fetch

/-- The tokens of a `FETCH` clause after its count. -/
def furtherTokens (fetch : Fetch) : List Kind :=
  Piece.kinds (Canonical.when fetch.percent (Piece.after [Piece.word .PERCENT])) ++
    .keyword .ROWS ::
      (if fetch.withTies then [.keyword .WITH, .keyword .TIES] else [.keyword .ONLY])

theorem kinds_ofFetch (fetch : Option Fetch) :
    (Canonical.ofFetch fetch).flatMap Piece.kinds = fetch.elim [] fun it => .keyword .FETCH ::
      .keyword it.kind.word :: (Piece.kinds (Canonical.ofCount it.count) ++ it.furtherTokens) := by
  rcases fetch with _ | ⟨kind, count, percent, withTies, span⟩
  · rfl
  · cases percent <;> cases withTies <;> simp [Canonical.ofFetch, furtherTokens, Canonical.when]

/-- What follows the count of a `FETCH` clause. -/
def EndsCount (rest : List Kind) : Prop :=
  lead rest = .keyword .ROWS ∨ lead rest = .keyword .PERCENT

theorem EndsCount.stops {rest : List Kind} (ends : EndsCount rest) : Stops rest := by
  rcases ends with isRows | isPercent
  · exact .of_quiet (by rw [isRows]; rfl)
  · exact .of_quiet (by rw [isPercent]; rfl)

theorem furtherTokens_endsCount (fetch : Fetch) (rest : List Kind) :
    EndsCount (fetch.furtherTokens ++ rest) := by
  obtain ⟨kind, count, percent, withTies, span⟩ := fetch
  cases percent
  · exact .inl rfl
  · exact .inr rfl

theorem count_agree {count count' : Option Expr} (formed : Expr.OptionFormed count)
    (formed' : Expr.OptionFormed count') (distinct : ∀ it ∈ count, it.Distinct) :
    Agree EndsCount (Piece.kinds (Canonical.ofCount count)) (Piece.kinds (Canonical.ofCount count'))
      (Expr.eraseOption count = Expr.eraseOption count') := by
  have text (count : Expr) : Piece.kinds (Canonical.ofCount (some count)) = count.tokens := by
    simp [Canonical.ofCount]
  have noCount {count : Expr} (formed : count.Formed .value) (rest : List Kind) :
      ¬ EndsCount (count.tokens ++ rest) := by
    rintro (isRows | isPercent)
    · exact Expr.lead_ne formed rest rfl (by simp) isRows
    · exact Expr.lead_ne formed rest rfl (by simp) isPercent
  cases count with
  | none =>
    cases count' with
    | none => exact Agree.nil.mono (fun _ _ => trivial) fun _ => rfl
    | some count' =>
      rw [text]
      rintro _ rest' ends _ rfl
      exact absurd ends (noCount formed' rest')
  | some count =>
    rw [text]
    cases count' with
    | none =>
      rintro rest _ _ ends rfl
      exact absurd ends (noCount formed rest)
    | some count' =>
      rw [text]
      exact (distinct count rfl count' formed').mono (fun _ => EndsCount.stops) (congrArg some)

theorem further_agree (fetch fetch' : Fetch) :
    Agree (fun _ => True) fetch.furtherTokens fetch'.furtherTokens
      (fetch.percent = fetch'.percent ∧ fetch.withTies = fetch'.withTies) := by
  have percents := Parse.agree_of_reads 0 0 (fun _ => Parse.takePercent_reads fetch.percent)
    fun _ => Parse.takePercent_reads fetch'.percent
  have ties : Agree (fun _ => True) _ _ _ :=
    Parse.agree_of_reads 0 0 (fun _ _ => Parse.withTies_reads fetch.withTies)
      fun _ _ => Parse.withTies_reads fetch'.withTies
  exact percents.append ties.tail (fun _ _ => by simp) fun _ _ => by simp

theorem clauses {fetch fetch' : Option Fetch} (formed : Fetch.OptionFormed fetch)
    (formed' : Fetch.OptionFormed fetch')
    (distinct : ∀ it ∈ fetch, ∀ count ∈ it.count, count.Distinct) :
    Clauses 9 10 ((Canonical.ofFetch fetch).flatMap Piece.kinds)
      ((Canonical.ofFetch fetch').flatMap Piece.kinds)
      (Fetch.eraseOption fetch = Fetch.eraseOption fetch') := by
  have each : ∀ it ∈ fetch, ∀ it' ∈ fetch', Agree (Past (9 + 1))
      (.keyword it.kind.word :: (Piece.kinds (Canonical.ofCount it.count) ++ it.furtherTokens))
      (.keyword it'.kind.word :: (Piece.kinds (Canonical.ofCount it'.count) ++ it'.furtherTokens))
      (Fetch.eraseOption (some it) = Fetch.eraseOption (some it')) := by
    rintro ⟨kind, count, percent, withTies, span⟩ rfl ⟨kind', count', percent', withTies', span'⟩ rfl
    have counts := count_agree formed.1 formed'.1 (distinct _ rfl)
    have further := further_agree ⟨kind, count, percent, withTies, span⟩
      ⟨kind', count', percent', withTies', span'⟩
    refine (counts.append further (fun rest _ => furtherTokens_endsCount _ rest)
      fun rest _ => furtherTokens_endsCount _ rest).cons.mono (fun _ _ => trivial) ?_
    rintro ⟨sameKind, sameCount, rfl, rfl⟩
    have sameKind : kind = kind' := by cases kind <;> cases kind' <;> first | rfl | cases sameKind
    simp only [eraseOption, sameKind, sameCount]
  have isRank : (Kind.keyword .FETCH).rank = 9 := rfl
  rw [kinds_ofFetch, kinds_ofFetch]
  refine (Clauses.option isRank each).mono (Nat.le_refl 9) fun same => ?_
  cases fetch with
  | none =>
    cases fetch' with
    | none => rfl
    | some it' => cases same
  | some it =>
    cases fetch' with
    | none => cases same
    | some it' => exact Option.some.inj same

end Fetch

/-! ## Whole queries -/

namespace Query

/-- The parts of a query are told from others of their sort. -/
structure PartsDistinct (query : Query) : Prop where
  ctes : ∀ clause ∈ query.withClause, ∀ cte ∈ clause.ctes, cte.query.Distinct
  body : query.body.DistinctBody
  keys : ∀ key ∈ query.orderBy, key.expr.Distinct
  offset : ∀ count ∈ query.offset, count.Distinct
  fetch : ∀ it ∈ query.fetch, ∀ count ∈ it.count, count.Distinct

theorem distinct_of {query : Query} (formed : query.Formed) (parts : query.PartsDistinct) :
    query.Distinct := by
  intro other formed'
  obtain ⟨withFormed, bodyFormed, -, -, fetchFormed⟩ := formed_iff.mp formed
  obtain ⟨withFormed', bodyFormed', keysFormed', offsetFormed', fetchFormed'⟩ :=
    formed_iff.mp formed'
  have opens {body : Rel} (formed : body.Formed .operand) (rest : List Kind) :
      EndsWith (body.tokens .body ++ rest) := by
    rw [Rel.tokens_body formed, List.append_assoc]
    exact Rel.opens (Rel.firstOperand_formed formed) _
  have bodies := (WithClause.agree withFormed withFormed' parts.ctes).append
    (parts.body other.body bodyFormed') (fun rest _ => opens bodyFormed rest)
    fun rest _ => opens bodyFormed' rest
  have tails := (SortKey.clauses keysFormed' parts.keys).append
    ((Expr.offset_clauses offsetFormed' parts.offset).append
      (Fetch.clauses fetchFormed fetchFormed' parts.fetch))
  have text (query : Query) : query.tokens =
      ((Canonical.ofWith query.withClause).flatMap Piece.kinds ++ query.body.tokens .body) ++
        ((Canonical.clause [.ORDER, .BY] (Canonical.ofSortKeys query.orderBy)).flatMap Piece.kinds ++
          ((Canonical.ofOffset query.offset).flatMap Piece.kinds ++
            (Canonical.ofFetch query.fetch).flatMap Piece.kinds)) := by
    rw [tokens_eq, tailTokens, tail, List.flatMap_append, List.flatMap_append, List.append_assoc]
  rw [text, text]
  refine (tails.after bodies).mono (fun _ => id) ?_
  rintro ⟨⟨sameWith, sameBody⟩, sameKeys, sameOffset, sameFetch⟩
  obtain ⟨withClause, body, orderBy, offset, fetch, span⟩ := query
  obtain ⟨withClause', body', orderBy', offset', fetch', span'⟩ := other
  simp only at sameWith sameBody sameKeys sameOffset sameFetch
  rw [erase, erase, sameWith, sameBody, sameKeys, sameOffset, sameFetch]

end Query

end CanonicalSql
