import CanonicalSql.Grammar.Query
import CanonicalSql.Proofs.EraseKeeps
import CanonicalSql.Proofs.Formed
import CanonicalSql.Proofs.Readable
import CanonicalSql.Proofs.Reading.Names

/-!
# Tokens of canonical trees

What the canonical texts of expressions, relations and queries look like from outside, as
far as the grammar can tell by one token.

What follows an expression must not go on with it. In canonical text that is told by the
next token alone (`Ends`), and the clauses of a query come in a fixed order, so that each
absent clause is told by the rank of the token that stands in its place (`Past`).

A query may begin with an operand in parentheses of its own. Such a text is read in two
parts, the operand and what goes on from it, and the parts are named here.
-/
namespace CanonicalSql

open Canonical (Place)

/-! ## Tokens of trees -/

/-- The tokens of the canonical text of an expression. -/
abbrev Expr.tokens (expr : Expr) : List Kind := Piece.kinds (Canonical.ofExpr expr)

/-- The tokens of the canonical text of a relation at a place. -/
abbrev Rel.tokens (place : Place) (rel : Rel) : List Kind :=
  Piece.kinds (Canonical.ofRel place rel)

/-- The tokens of the canonical text of a query. -/
abbrev Query.tokens (query : Query) : List Kind := Piece.kinds (Canonical.ofQuery query)

/-! ## The end of an expression -/

/-- What follows goes on with no name, calls no function and filters no aggregate. -/
structure Stops (kinds : List Kind) : Prop where
  dot : lead kinds ≠ .symbol .dot
  paren : lead kinds ≠ .symbol .leftParen
  filter : lead kinds ≠ .keyword .FILTER

/-- The power of what follows an expression, if it is an operator. -/
def Power.ahead (kinds : List Kind) : Option Power :=
  if lead kinds = .keyword .NOT then
    if Parse.isNegatable (lead (kinds.drop 1)) then some comparison else none
  else ofKind? (lead kinds)

/-- What follows goes on with no operand that is read with the power. -/
structure Ends (least : Nat) (kinds : List Kind) : Prop extends Stops kinds where
  power : ∀ power, Power.ahead kinds = some power → power.left < least

/-- Whether the token ends every expression before it. -/
def Kind.isQuiet : Kind → Bool
  | .symbol .dot | .symbol .leftParen | .keyword .FILTER | .keyword .NOT => false
  | kind => (Power.ofKind? kind).isNone

theorem Kind.ne_of_isQuiet {kind other : Kind} (quiet : kind.isQuiet = true)
    (loud : other.isQuiet = false) : kind ≠ other := by
  rintro rfl
  rw [quiet] at loud
  cases loud

theorem Kind.ofKind?_of_isQuiet {kind : Kind} (quiet : kind.isQuiet = true) :
    Power.ofKind? kind = none := by
  unfold Kind.isQuiet at quiet
  split at quiet
  · cases quiet
  · cases quiet
  · cases quiet
  · cases quiet
  · exact Option.isNone_iff_eq_none.mp quiet

theorem Stops.of_quiet {kinds : List Kind} (quiet : (lead kinds).isQuiet = true) :
    Stops kinds where
  dot := Kind.ne_of_isQuiet quiet rfl
  paren := Kind.ne_of_isQuiet quiet rfl
  filter := Kind.ne_of_isQuiet quiet rfl

theorem Ends.of_quiet {least : Nat} {kinds : List Kind} (quiet : (lead kinds).isQuiet = true) :
    Ends least kinds where
  toStops := .of_quiet quiet
  power := by
    intro power isAhead
    rw [Power.ahead, if_neg (Kind.ne_of_isQuiet quiet rfl),
      Kind.ofKind?_of_isQuiet quiet] at isAhead
    cases isAhead

/-! ## The beginning of an expression -/

/-- Whether the text of a value other than a row may begin with the token. -/
def Kind.opensValue : Kind → Bool
  | .integer _ | .float _ | .string .. | .identifier _ | .symbol .star | .symbol .leftParen
  | .keyword .TRUE | .keyword .FALSE | .keyword .UNKNOWN | .keyword .NULL => true
  | .keyword word => (AggregateFunction.ofWord? word).isSome
  | _ => false

/-- The text of a value begins as such texts may: that of a row, and no other, begins with
the word `ROW`. -/
theorem Expr.opens {expr : Expr} (formed : expr.Formed .value) (more : List Kind) :
    (lead (expr.tokens ++ more)).opensValue = true ∨
      expr.isRow = true ∧ lead (expr.tokens ++ more) = .keyword .ROW := by
  cases expr with
  | asterisk qualifier span =>
    cases qualifier with
    | none => exact .inl rfl
    | some name =>
      obtain ⟨part, others, text⟩ := Piece.lead_qualified name
        (.symbol .dot :: .symbol .star :: more)
      have same : (Expr.asterisk (some name) span).tokens ++ more =
          Piece.kinds (Piece.qualified name) ++ .symbol .dot :: .symbol .star :: more := by
        simp [Expr.tokens, Canonical.ofExpr, Canonical.optional]
      rw [same, text]
      exact .inl rfl
  | column name span =>
    obtain ⟨part, others, text⟩ := Piece.lead_qualified name more
    rw [Expr.tokens, Canonical.ofExpr, text]
    exact .inl rfl
  | truth value span => cases value <;> exact .inl rfl
  | row values span => exact .inr ⟨rfl, rfl⟩
  | named name expr span => exact absurd formed.1 (by simp)
  | sortKey key => exact formed.elim
  | groupingSet set => exact absurd formed.1 (by simp)
  | groupingSets sets span => exact absurd formed.1 (by simp)
  | rollup sets span => exact absurd formed.1 (by simp)
  | cube sets span => exact absurd formed.1 (by simp)
  | aggregate function quantifier argument filter span => cases function <;> exact .inl rfl
  | _ => exact .inl rfl

theorem Expr.lead_ne {expr : Expr} (formed : expr.Formed .value) (more : List Kind)
    {kind : Kind} (closed : kind.opensValue = false) (noRow : kind ≠ .keyword .ROW) :
    lead (expr.tokens ++ more) ≠ kind := by
  rintro rfl
  rcases Expr.opens formed more with opens | ⟨-, isRow⟩
  · rw [opens] at closed
    cases closed
  · exact noRow isRow

/-- No query begins with a value. -/
theorem Expr.noQuery {expr : Expr} (formed : expr.Formed .value) (more : List Kind) :
    Parse.isQueryStart (lead (expr.tokens ++ more)) = false := by
  unfold Parse.isQueryStart
  split
  · next isSelect => exact absurd isSelect (Expr.lead_ne formed more rfl (by simp))
  · next isValues => exact absurd isValues (Expr.lead_ne formed more rfl (by simp))
  · next isTable => exact absurd isTable (Expr.lead_ne formed more rfl (by simp))
  · next isWith => exact absurd isWith (Expr.lead_ne formed more rfl (by simp))
  · rfl

theorem Expr.lead_ne_row {expr : Expr} (formed : expr.Formed .value)
    (other : expr.isRow = false) (more : List Kind) :
    lead (expr.tokens ++ more) ≠ .keyword .ROW := by
  intro isRow
  rcases Expr.opens formed more with opens | ⟨row, -⟩
  · rw [isRow] at opens
    cases opens
  · rw [row] at other
    cases other

/-! ## Operators and predicates -/

/-- An operator or a predicate after its first operand: the operand, and the tokens that
follow it. -/
inductive Expr.Follows : Expr → Expr → List Kind → Prop
  | binary (left : Expr) (op : BinaryOp) (right : Expr) (span : Span) :
    Follows (.binary left op right span) left (op.kind :: right.tokens)
  | collate (expr : Expr) (collation : QualifiedName) (span : Span) :
    Follows (.collate expr collation span) expr
      (.keyword .COLLATE :: Piece.kinds (Piece.qualified collation))
  | isTruth (expr : Expr) (value : TruthValue) (span : Span) :
    Follows (.isTruth expr value span) expr [.keyword .IS, .keyword value.word]
  | isNull (expr : Expr) (span : Span) :
    Follows (.isNull expr span) expr [.keyword .IS, .keyword .NULL]
  | between (expr low high : Expr) (symmetric : Bool) (span : Span) :
    Follows (.between expr low high symmetric span) expr
      (.keyword .BETWEEN :: ((if symmetric then [.keyword .SYMMETRIC] else []) ++
        (low.tokens ++ .keyword .AND :: high.tokens)))
  | within (expr : Expr) (rows : Rel) (span : Span) :
    Follows (.within expr rows span) expr
      (.keyword .IN :: .symbol .leftParen :: (rows.tokens .members ++ [.symbol .rightParen]))
  | like (expr pattern : Expr) (escape : Option Expr) (span : Span) :
    Follows (.like expr pattern escape span) expr
      (.keyword .LIKE :: (pattern.tokens ++ Piece.kinds (Canonical.ofEscape escape)))

/-- The tokens of an operator or a predicate between its parentheses. -/
inductive Expr.Encloses : Expr → List Kind → Prop
  | unary (op : UnaryOp) (operand : Expr) (span : Span) :
    Encloses (.unary op operand span) (op.kind :: operand.tokens)
  | existence (query : Query) (span : Span) :
    Encloses (.existence query span)
      (.keyword .EXISTS :: .symbol .leftParen :: (query.tokens ++ [.symbol .rightParen]))
  | uniqueness (query : Query) (span : Span) :
    Encloses (.uniqueness query span)
      (.keyword .UNIQUE :: .symbol .leftParen :: (query.tokens ++ [.symbol .rightParen]))
  | after {expr first : Expr} {more : List Kind} (follows : expr.Follows first more) :
    Encloses expr (first.tokens ++ more)

namespace Expr.Follows

variable {expr first : Expr} {more : List Kind}

theorem tokens_eq (follows : expr.Follows first more) :
    expr.tokens = .symbol .leftParen :: (first.tokens ++ more ++ [.symbol .rightParen]) := by
  cases follows with
  | between _ low high symmetric span => cases symmetric <;> simp [tokens, Canonical.ofExpr]
  | _ => simp [tokens, Canonical.ofExpr]

theorem first_formed (follows : expr.Follows first more) (formed : expr.Formed .value) :
    first.Formed .value := by
  cases follows with
  | binary | between | within | like | collate => exact formed.2.1
  | isTruth | isNull => exact formed.2

theorem first_depth (follows : expr.Follows first more) :
    1 + (Outline.ofExpr first).depth ≤ (Outline.ofExpr expr).depth := by
  rw [Outline.depth_ofExpr expr]
  cases follows <;>
  · simp only [Outline.belowExpr, Outline.plain_expr, Outline.depthAll_cons, List.cons_append]
    omega

theorem first_readable (follows : expr.Follows first more)
    (readable : (Outline.ofExpr expr).Readable) : (Outline.ofExpr first).Readable := by
  have below := (Outline.readable_ofExpr.mp readable).2
  cases follows <;>
  · simp only [Outline.belowExpr, Outline.plain_expr, Outline.allReadable_cons,
      List.cons_append] at below
    exact below.1

theorem nonempty (follows : expr.Follows first more) : 0 < more.length := by
  cases follows <;> simp

/-- An operator goes on with no name, calls no function and filters no aggregate. -/
theorem stops (follows : expr.Follows first more) (rest : List Kind) : Stops (more ++ rest) := by
  cases follows with
  | binary _ op right span => cases op <;> exact ⟨by simp [BinaryOp.kind], by simp [BinaryOp.kind],
      by simp [BinaryOp.kind]⟩
  | _ => exact ⟨by simp, by simp, by simp⟩

end Expr.Follows

namespace Expr.Encloses

variable {expr : Expr} {row : List Kind}

theorem tokens_eq (encloses : expr.Encloses row) :
    expr.tokens = .symbol .leftParen :: (row ++ [.symbol .rightParen]) := by
  cases encloses with
  | after follows => exact follows.tokens_eq
  | _ => simp [tokens, Canonical.ofExpr]

/-- There is an operand below an operator or a predicate, or a query. -/
theorem two_le_depth (encloses : expr.Encloses row) : 2 ≤ (Outline.ofExpr expr).depth := by
  cases encloses with
  | existence query span | uniqueness query span =>
    rw [Outline.depth_ofExpr]
    have level := Outline.depth_ofQuery query
    simp only [Outline.belowExpr, Outline.plain_query, Outline.depthAll_cons]
    omega
  | unary op operand span =>
    rw [Outline.depth_ofExpr]
    have level := Outline.depth_ofExpr operand
    simp only [Outline.belowExpr, Outline.plain_expr, Outline.depthAll_cons]
    omega
  | @after _ first _ follows =>
    have level := Outline.depth_ofExpr first
    have lower := follows.first_depth
    omega

/-- No query begins between the parentheses. -/
theorem noQuery (encloses : expr.Encloses row) (formed : expr.Formed .value)
    (more : List Kind) : Parse.isQueryStart (lead (row ++ more)) = false := by
  cases encloses with
  | unary op operand span => cases op <;> rfl
  | existence | uniqueness => rfl
  | after follows =>
    rw [List.append_assoc]
    exact Expr.noQuery (follows.first_formed formed) _

/-- There is something between the parentheses. -/
theorem lead_ne_rightParen (encloses : expr.Encloses row) (formed : expr.Formed .value)
    (more : List Kind) : lead (row ++ more) ≠ .symbol .rightParen := by
  cases encloses with
  | unary op operand span => cases op <;> simp [UnaryOp.kind]
  | existence | uniqueness => simp
  | after follows =>
    rw [List.append_assoc]
    exact Expr.lead_ne (follows.first_formed formed) _ rfl (by simp)

end Expr.Encloses

/-- The text of a value that begins with a parenthesis is that of an operator or a
predicate, or of a subquery. -/
theorem Expr.encloses_or {expr : Expr} (formed : expr.Formed .value) :
    (∃ row, expr.Encloses row) ∨ (∃ query span, expr = .subquery query span) ∨
      ∀ more, lead (expr.tokens ++ more) ≠ .symbol .leftParen := by
  cases expr with
  | unary op operand span => exact .inl ⟨_, .unary op operand span⟩
  | binary left op right span => exact .inl ⟨_, .after (.binary left op right span)⟩
  | collate expr collation span => exact .inl ⟨_, .after (.collate expr collation span)⟩
  | isTruth expr value span => exact .inl ⟨_, .after (.isTruth expr value span)⟩
  | isNull expr span => exact .inl ⟨_, .after (.isNull expr span)⟩
  | between expr low high symmetric span =>
    exact .inl ⟨_, .after (.between expr low high symmetric span)⟩
  | within expr rows span => exact .inl ⟨_, .after (.within expr rows span)⟩
  | like expr pattern escape span => exact .inl ⟨_, .after (.like expr pattern escape span)⟩
  | existence query span => exact .inl ⟨_, .existence query span⟩
  | uniqueness query span => exact .inl ⟨_, .uniqueness query span⟩
  | subquery query span => exact .inr (.inl ⟨query, span, rfl⟩)
  | asterisk qualifier span =>
    refine .inr (.inr fun more => ?_)
    cases qualifier with
    | none => simp [tokens, Canonical.ofExpr, Canonical.optional]
    | some name =>
      obtain ⟨part, others, text⟩ := Piece.lead_qualified name
        (.symbol .dot :: .symbol .star :: more)
      simp [tokens, Canonical.ofExpr, Canonical.optional, text]
  | column name span =>
    refine .inr (.inr fun more => ?_)
    obtain ⟨part, others, text⟩ := Piece.lead_qualified name more
    simp [tokens, Canonical.ofExpr, text]
  | named name expr span => exact absurd formed.1 (by simp)
  | sortKey key => exact formed.elim
  | groupingSet set => exact absurd formed.1 (by simp)
  | groupingSets sets span => exact absurd formed.1 (by simp)
  | rollup sets span => exact absurd formed.1 (by simp)
  | cube sets span => exact absurd formed.1 (by simp)
  | _ => exact .inr (.inr fun more => by simp [tokens, Canonical.ofExpr])

/-! ## The order of clauses -/

/-- The rank of a token among those that begin the clauses of a projection, of a query and
of a window. What ends them all has the greatest rank, and other tokens have none. -/
def Kind.rank : Kind → Nat
  | .keyword .FROM => 1
  | .keyword .WHERE => 2
  | .keyword .GROUP => 3
  | .keyword .HAVING => 4
  | .keyword .WINDOW => 5
  | .keyword .UNION | .keyword .INTERSECT | .keyword .EXCEPT | .keyword .PARTITION => 6
  | .keyword .ORDER => 7
  | .keyword .OFFSET => 8
  | .keyword .FETCH | .keyword .ROWS | .keyword .RANGE | .keyword .GROUPS => 9
  | .symbol .rightParen | .endOfInput => 10
  | _ => 0

/-- The clauses up to the rank are over. -/
def Past (rank : Nat) (kinds : List Kind) : Prop := rank ≤ (lead kinds).rank

theorem Kind.isQuiet_of_rank {kind : Kind} (ranked : 1 ≤ kind.rank) : kind.isQuiet = true := by
  unfold Kind.rank at ranked
  split at ranked <;> first | rfl | omega

namespace Past

variable {rank : Nat} {kinds : List Kind}

theorem quiet (past : Past (rank + 1) kinds) : (lead kinds).isQuiet = true :=
  Kind.isQuiet_of_rank (Nat.le_trans (by omega) past)

theorem ne (past : Past rank kinds) {kind : Kind} (low : kind.rank < rank) :
    lead kinds ≠ kind := by
  intro same
  rw [Past, same] at past
  omega

theorem noName (past : Past (rank + 1) kinds) : (lead kinds).isIdentifier = false := by
  unfold Past at past
  generalize lead kinds = kind at past
  cases kind with
  | identifier name => exact absurd past (Nat.not_succ_le_zero rank)
  | _ => rfl

theorem close (kinds : List Kind) : Past 10 (.symbol .rightParen :: kinds) := Nat.le_refl 10

/-- No join follows. -/
theorem noJoin (past : Past (rank + 1) kinds) : Parse.isJoinStart (lead kinds) = false := by
  unfold Past at past
  generalize lead kinds = kind at past
  unfold Parse.isJoinStart
  split <;> first | rfl | exact absurd past (Nat.not_succ_le_zero rank)

theorem mono {fewer : Nat} (past : Past rank kinds) (less : fewer ≤ rank) :
    Past fewer kinds :=
  Nat.le_trans less past

/-- No set operation follows. -/
theorem noOperator (past : Past 7 kinds) : SetOperator.ofKind? (lead kinds) = none := by
  unfold Past at past
  generalize lead kinds = kind at past
  unfold SetOperator.ofKind?
  split
  · exact absurd past (by decide)
  · exact absurd past (by decide)
  · exact absurd past (by decide)
  · rfl

end Past

/-- What may follow a source that has its alias or needs none. -/
structure EndsSource (kinds : List Kind) : Prop where
  dot : lead kinds ≠ .symbol .dot
  paren : lead kinds ≠ .symbol .leftParen
  noAs : lead kinds ≠ .keyword .AS
  noName : (lead kinds).isIdentifier = false

theorem EndsSource.of_past {rank : Nat} {kinds : List Kind} (past : Past (rank + 1) kinds) :
    EndsSource kinds where
  dot := past.ne (Nat.succ_pos rank)
  paren := past.ne (Nat.succ_pos rank)
  noAs := past.ne (Nat.succ_pos rank)
  noName := past.noName

/-! ## Operands of set operations -/

/-- The operand that the text of a query body begins with. -/
def Rel.firstOperand : Rel → Rel
  | .setOp _ _ left _ _ => left
  | body => body

/-- The tokens of a query body after its first operand. -/
def Rel.furtherTokens : Rel → List Kind
  | .setOp op quantifier _ right _ =>
    .keyword op.word :: (Piece.kinds (Canonical.ofQuantifier quantifier) ++ right.tokens .operand)
  | _ => []

/-- Whether an operand of a set operation may begin with the token. -/
def Kind.opensOperand : Kind → Bool
  | .keyword .SELECT | .keyword .VALUES | .keyword .TABLE | .symbol .leftParen => true
  | _ => false

theorem Kind.ne_of_opensOperand {kind other : Kind} (opens : kind.opensOperand = true)
    (closed : other.opensOperand = false) : kind ≠ other := by
  rintro rfl
  rw [opens] at closed
  cases closed

theorem Rel.opens {rel : Rel} (formed : rel.Formed .operand) (more : List Kind) :
    (lead (rel.tokens .operand ++ more)).opensOperand = true := by
  cases rel with
  | join kind natural condition left right span => exact absurd formed.1 (by simp)
  | named name columns relation span => exact absurd formed.1 (by simp)
  | select select =>
    obtain ⟨quantifier, targets, sources, selection, groupBy, having, windows, _⟩ := select
    simp [tokens, Canonical.ofRel, Canonical.asSource, Place.isSource, Canonical.ofSelect,
      Kind.opensOperand]
  | values rows span =>
    simp [tokens, Canonical.ofRel, Canonical.asSource, Place.isSource, Kind.opensOperand]
  | table name span =>
    simp [tokens, Canonical.ofRel, Place.isSource, Kind.opensOperand]
  | setOp op quantifier left right span =>
    simp [tokens, Canonical.ofRel, Canonical.parenthesizedWhen, Kind.opensOperand]
  | query query =>
    simp [tokens, Canonical.ofRel, Canonical.parenthesizedWhen, Kind.opensOperand]

/-- The operand after the first one has no shape whose text is refused. -/
def Rel.FurtherReadable : Rel → Prop
  | .setOp _ _ _ right _ => (Outline.ofRel right).Readable
  | _ => True

theorem Rel.beginsEnclosed_eq (body : Rel) : body.beginsEnclosed = body.firstOperand.isEnclosed := by
  cases body <;> rfl

theorem Rel.tokens_body {body : Rel} (formed : body.Formed .operand) :
    body.tokens .body = body.firstOperand.tokens .operand ++ body.furtherTokens := by
  cases body with
  | join kind natural condition left right span => exact absurd formed.1 (by simp)
  | named name columns relation span => exact absurd formed.1 (by simp)
  | setOp op quantifier left right span =>
    simp [Rel.tokens, Canonical.ofRel, Canonical.parenthesizedWhen, Rel.firstOperand,
      Rel.furtherTokens]
  | _ =>
    simp [Rel.tokens, Canonical.ofRel, Canonical.asSource, Canonical.parenthesizedWhen,
      Place.isSource, Rel.firstOperand, Rel.furtherTokens]

theorem Rel.firstOperand_formed {body : Rel} (formed : body.Formed .operand) :
    body.firstOperand.Formed .operand := by
  cases body with
  | setOp op quantifier left right span => exact formed.2.1
  | _ => exact formed

theorem Rel.firstOperand_depth (body : Rel) :
    (Outline.ofRel body.firstOperand).depth ≤ (Outline.ofRel body).depth := by
  cases body with
  | setOp op quantifier left right span =>
    rw [Rel.firstOperand, Outline.depth_ofRel (.setOp op quantifier left right span)]
    simp only [Outline.belowRel, Outline.plain_rel, Outline.depthAll_cons]
    omega
  | _ => exact Nat.le_refl _

theorem Rel.readable_operands {body : Rel} :
    (Outline.ofRel body).Readable ↔
      (Outline.ofRel body.firstOperand).Readable ∧ body.FurtherReadable := by
  cases body with
  | setOp op quantifier left right span =>
    rw [Outline.readable_ofRel]
    simp [Outline.belowRel, Outline.plain_rel, Rel.firstOperand, Rel.FurtherReadable]
  | _ => simp [Rel.firstOperand, Rel.FurtherReadable]

/-- The query that is written between the parentheses of an operand. -/
def Rel.enclosedQuery : Rel → Query
  | .query inner => inner
  | body => ⟨none, body, [], none, none, default⟩

/-! ## Clauses of a query -/

/-- The rows of pieces after the body of a query. -/
def Query.tail (query : Query) : List (List Piece) :=
  Canonical.clause [.ORDER, .BY] (Canonical.ofSortKeys query.orderBy) ++
    (Canonical.ofOffset query.offset ++ Canonical.ofFetch query.fetch)

/-- The tokens after the body of a query. -/
abbrev Query.tailTokens (query : Query) : List Kind := query.tail.flatMap Piece.kinds

theorem Query.tokens_eq (query : Query) :
    query.tokens = (Canonical.ofWith query.withClause).flatMap Piece.kinds ++
      (query.body.tokens .body ++ query.tailTokens) := by
  obtain ⟨withClause, body, orderBy, offset, fetch, span⟩ := query
  simp [Query.tokens, Canonical.ofQuery, Query.tailTokens, Query.tail]

/-- No clause after the body of the query has a shape whose text is refused. -/
structure Query.TailReadable (query : Query) : Prop where
  noRow : (Node.query query).isUnreadable = false
  orderBy : Outline.AllReadable (Outline.ofSortKeys query.orderBy)
  offset : Outline.AllReadable (Outline.ofOption query.offset)
  fetch : Outline.AllReadable (Outline.belowFetch query.fetch)

theorem Query.readable_iff {query : Query} :
    (Outline.ofQuery query).Readable ↔
      Outline.AllReadable (Outline.belowWith query.withClause) ∧
        (Outline.ofRel query.body).Readable ∧ query.TailReadable := by
  rw [Outline.readable_ofQuery]
  obtain ⟨withClause, body, orderBy, offset, fetch, span⟩ := query
  simp only [Outline.belowQuery, Outline.plain_rel, Outline.allReadable_append,
    Outline.allReadable_cons, Outline.allReadable_nil, and_true]
  constructor
  · rintro ⟨noRow, ⟨⟨⟨withs, body⟩, keys⟩, offset⟩, fetch⟩
    exact ⟨withs, body, noRow, keys, offset, fetch⟩
  · rintro ⟨withs, body, noRow, keys, offset, fetch⟩
    exact ⟨noRow, ⟨⟨⟨withs, body⟩, keys⟩, offset⟩, fetch⟩

theorem Query.depth_eq (query : Query) :
    (Outline.ofQuery query).depth =
      1 + max (Outline.depthAll (Outline.belowWith query.withClause))
        (max (Outline.ofRel query.body).depth
          (max (Outline.depthAll (Outline.ofSortKeys query.orderBy))
            (max (Outline.depthAll (Outline.ofOption query.offset))
              (Outline.depthAll (Outline.belowFetch query.fetch))))) := by
  obtain ⟨withClause, body, orderBy, offset, fetch, span⟩ := query
  rw [Outline.depth_ofQuery]
  simp only [Outline.belowQuery, Outline.plain_rel, Outline.depthAll_append,
    Outline.depthAll_cons, Outline.depthAll_nil]
  omega

/-! ## Queries that begin with an operand in parentheses -/

namespace Rel

variable {rel : Rel}

theorem tokens_enclosed (enclosed : rel.isEnclosed = true) :
    rel.tokens .operand =
      .symbol .leftParen :: (rel.enclosedQuery.tokens ++ [.symbol .rightParen]) := by
  cases rel with
  | setOp op quantifier left right span =>
    simp [tokens, enclosedQuery, Query.tokens, Canonical.ofQuery, Canonical.ofRel,
      Canonical.parenthesizedWhen, Canonical.ofWith, Canonical.clause, Canonical.ofOffset,
      Canonical.ofFetch, Canonical.ofSortKeys]
  | query inner =>
    simp [tokens, enclosedQuery, Query.tokens, Canonical.ofRel, Canonical.parenthesizedWhen]
  | _ => cases enclosed

theorem enclosedQuery_formed (formed : rel.Formed .operand) : rel.enclosedQuery.Formed := by
  cases rel with
  | query inner => exact formed.1
  | _ =>
    rw [Query.formed_iff]
    exact ⟨trivial, formed, trivial, trivial, trivial⟩

theorem enclosedQuery_not_wraps (formed : rel.Formed .operand) : ¬ rel.enclosedQuery.Wraps := by
  rintro ⟨isBare, inner, isQuery⟩
  cases rel with
  | query inner =>
    have notBare : inner.isBare = false := formed.2
    rw [enclosedQuery] at isBare
    rw [notBare] at isBare
    cases isBare
  | _ => cases isQuery

theorem enclosedQuery_depth (rel : Rel) :
    (Outline.ofQuery rel.enclosedQuery).depth ≤ 1 + (Outline.ofRel rel).depth := by
  cases rel with
  | query inner =>
    rw [Outline.depth_ofRel]
    simp only [Outline.belowRel, Outline.plain_query, Outline.depthAll_cons, enclosedQuery]
    omega
  | _ =>
    rw [Query.depth_eq]
    simp [enclosedQuery, Outline.belowWith, Outline.ofSortKeys, Outline.ofOption,
      Outline.belowFetch]

theorem enclosedQuery_readable :
    (Outline.ofQuery rel.enclosedQuery).Readable ↔ (Outline.ofRel rel).Readable := by
  cases rel with
  | query inner =>
    rw [Outline.readable_ofRel]
    simp [Outline.belowRel, Outline.plain_query, enclosedQuery]
  | _ =>
    rw [Query.readable_iff]
    constructor
    · rintro ⟨-, body, -⟩
      exact body
    · intro body
      exact ⟨by simp [enclosedQuery, Outline.belowWith], body, rfl,
        by simp [enclosedQuery, Outline.ofSortKeys], by simp [enclosedQuery, Outline.ofOption],
        by simp [enclosedQuery, Outline.belowFetch]⟩

end Rel

/-- A query that is read where an operand is written in parentheses stands for that
operand. -/
theorem Rel.operand_of_enclosed {rel : Rel} (formed : rel.Formed .operand) {query : Query}
    (same : query.erase = rel.enclosedQuery.erase) : query.operand.erase = rel.erase := by
  rw [Query.operand_erase, same, ← Query.operand_erase]
  cases rel with
  | query inner =>
    have notBare : inner.isBare = false := formed.2
    simp [enclosedQuery, Query.operand, notBare]
  | _ => rfl

/-- The tokens of a query after the operand in parentheses that it begins with. -/
abbrev Query.furtherTokens (query : Query) : List Kind :=
  query.body.furtherTokens ++ query.tailTokens

theorem Query.tokens_enclosed {query : Query} (formed : query.Formed)
    (enclosed : query.beginsEnclosed = true) :
    query.tokens = .symbol .leftParen :: (query.body.firstOperand.enclosedQuery.tokens ++
      .symbol .rightParen :: query.furtherTokens) := by
  simp only [Query.beginsEnclosed, Bool.and_eq_true, Option.isNone_iff_eq_none,
    Rel.beginsEnclosed_eq] at enclosed
  rw [Query.tokens_eq, Rel.tokens_body (Query.formed_iff.mp formed).2.1,
    Rel.tokens_enclosed enclosed.2, enclosed.1]
  simp [Canonical.ofWith]

/-- A query that is more than a pair of parentheses goes on after an operand in
parentheses that it begins with. -/
theorem Query.goesOn {query : Query} (enclosed : query.beginsEnclosed = true)
    (more : ¬ query.Wraps) (rest : List Kind) :
    Parse.isQueryNext (lead (query.furtherTokens ++ rest)) = true := by
  obtain ⟨withClause, body, orderBy, offset, fetch, span⟩ := query
  simp only [Query.beginsEnclosed, Bool.and_eq_true, Option.isNone_iff_eq_none] at enclosed
  obtain ⟨rfl, enclosed⟩ := enclosed
  cases body with
  | setOp op quantifier left right span => cases op <;> rfl
  | query inner =>
    cases orderBy with
    | cons key keys => rfl
    | nil =>
      cases offset with
      | some count => rfl
      | none =>
        rcases fetch with _ | ⟨kind, count, percent, ties, fetchSpan⟩
        · exact absurd ⟨rfl, inner, rfl⟩ more
        · rfl
  | _ => cases enclosed

/-- The operand in parentheses that a body begins with is no deeper than the body, though
it is read as a query. -/
theorem Rel.enclosedQuery_depth_le {body : Rel} (enclosed : body.firstOperand.isEnclosed = true) :
    (Outline.ofQuery body.firstOperand.enclosedQuery).depth ≤ (Outline.ofRel body).depth := by
  have lower := body.firstOperand.enclosedQuery_depth
  have level := Outline.depth_ofRel body
  cases body with
  | setOp op quantifier left right span =>
    simp only [firstOperand, Outline.belowRel, Outline.plain_rel,
      Outline.depthAll_cons] at level lower ⊢
    omega
  | query inner =>
    simp only [firstOperand, enclosedQuery, Outline.belowRel, Outline.plain_query,
      Outline.depthAll_cons] at level ⊢
    omega
  | _ => cases enclosed

/-- The operand in parentheses that a query begins with is less deep than the query. -/
theorem Query.firstOperand_depth {query : Query} (enclosed : query.beginsEnclosed = true) :
    1 + (Outline.ofQuery query.body.firstOperand.enclosedQuery).depth ≤
      (Outline.ofQuery query).depth := by
  simp only [Query.beginsEnclosed, Bool.and_eq_true, Option.isNone_iff_eq_none,
    Rel.beginsEnclosed_eq] at enclosed
  have lower := Rel.enclosedQuery_depth_le enclosed.2
  have level := Query.depth_eq query
  omega

/-- A query whose text begins with no parenthesis is told by its first token. -/
theorem Query.starts {query : Query} (formed : query.Formed)
    (plain : query.beginsEnclosed = false) (more : List Kind) :
    Parse.isQueryStart (lead (query.tokens ++ more)) = true := by
  rw [Query.tokens_eq]
  obtain ⟨withClause, body, orderBy, offset, fetch, span⟩ := query
  rcases withClause with _ | ⟨recursive, ctes, withSpan⟩
  · have bodyFormed := (Query.formed_iff.mp formed).2.1
    simp only [Query.beginsEnclosed, Rel.beginsEnclosed_eq, Option.isNone_none,
      Bool.true_and] at plain
    rw [Rel.tokens_body bodyFormed]
    have firstFormed := Rel.firstOperand_formed bodyFormed
    generalize body.firstOperand = first at plain firstFormed
    cases first with
    | join kind natural condition left right span => exact absurd firstFormed.1 (by simp)
    | named name columns relation span => exact absurd firstFormed.1 (by simp)
    | select select =>
      obtain ⟨quantifier, targets, sources, selection, groupBy, having, windows, _⟩ := select
      simp [Canonical.ofWith, Rel.tokens, Canonical.ofRel, Canonical.asSource, Place.isSource,
        Canonical.ofSelect, Parse.isQueryStart]
    | values rows span =>
      simp [Canonical.ofWith, Rel.tokens, Canonical.ofRel, Canonical.asSource, Place.isSource,
        Parse.isQueryStart]
    | table name span =>
      simp [Canonical.ofWith, Rel.tokens, Canonical.ofRel, Place.isSource, Parse.isQueryStart]
    | setOp | query => cases plain
  · simp [Canonical.ofWith, Parse.isQueryStart]

theorem Kind.ne_of_isQueryNext {kind other : Kind} (next : Parse.isQueryNext kind = true)
    (ends : Parse.isQueryNext other = false) : kind ≠ other := by
  rintro rfl
  rw [next] at ends
  cases ends

theorem Kind.isQuiet_of_isQueryNext {kind : Kind} (next : Parse.isQueryNext kind = true) :
    kind.isQuiet = true := by
  unfold Parse.isQueryNext at next
  split at next <;> first | rfl | cases next

theorem EndsSource.of_isQueryNext {kinds : List Kind}
    (goesOn : Parse.isQueryNext (lead kinds) = true) : EndsSource kinds where
  dot := Kind.ne_of_isQueryNext goesOn rfl
  paren := Kind.ne_of_isQueryNext goesOn rfl
  noAs := Kind.ne_of_isQueryNext goesOn rfl
  noName := by
    generalize lead kinds = kind at goesOn
    cases kind with
    | identifier name => cases goesOn
    | _ => rfl

theorem Query.readable_enclosed {query : Query} (enclosed : query.beginsEnclosed = true) :
    (Outline.ofQuery query).Readable ↔
      (Outline.ofQuery query.body.firstOperand.enclosedQuery).Readable ∧
        query.body.FurtherReadable ∧ query.TailReadable := by
  simp only [Query.beginsEnclosed, Bool.and_eq_true, Option.isNone_iff_eq_none] at enclosed
  rw [Query.readable_iff, Rel.readable_operands, Rel.enclosedQuery_readable, enclosed.1]
  simp [Outline.belowWith, and_assoc]

end CanonicalSql
