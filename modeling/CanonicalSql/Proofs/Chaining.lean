import CanonicalSql.Proofs.Failing.Chained
import CanonicalSql.Proofs.Failing.Definition
import CanonicalSql.Proofs.Failing.Grouping
import CanonicalSql.Proofs.Failing.Window

/-!
# Comparisons and predicates do not chain

`Slot.Begins` says which rows of tokens lead from the beginning of a statement to a place where a
comparison or a predicate may stand. There is a case for each place of the grammar where an
expression is expected, in queries with all their clauses, in deletions and in the default values of
columns, and for each way in which what is around it may begin. Whatever fails at such a place makes
the whole fail (`Slot.Begins.fails`), and a comparison with another operator behind it does
(`Statement.parse_chained`).

A few places are told by the tokens that stand there: the words `ROW`, `UNBOUNDED` and `CURRENT ROW`
may be no expressions, `NULL` may be a default value of its own, and a parenthesis in `GROUP BY` may
open a list of columns. What is asked there of the tokens is no more than that the grammar expects an
expression and nothing else, and so the tokens behind the row are a parameter of `Slot.Begins`.
-/
namespace CanonicalSql

open Parse

/-- What may be expected at a place. -/
inductive Slot
  /-- An operand of the tier at least. -/
  | operand (tier : Nat)
  /-- An operand of the tier at least, that is, a leading part and the operators behind it. -/
  | rounds (tier : Nat)
  /-- A leading part without operators in front. -/
  | primary
  /-- An operator of the tier and what it takes on its right. -/
  | operator (tier : Nat)
  /-- A predicate, behind its left operand and `NOT`. -/
  | predicate
  /-- One table. -/
  | table
  /-- Joined tables. -/
  | source
  /-- A join, behind the tables on its left. -/
  | join
  /-- An element of `GROUP BY` that no word begins. -/
  | groupingSet
  /-- An element of `GROUP BY`. -/
  | grouping
  /-- The sort keys behind a query or in a window, with `ORDER BY`. -/
  | order
  /-- A bound of the frame of a window. -/
  | bound
  /-- A window, behind its parenthesis. -/
  | window
  /-- An operand of a set operation. -/
  | term
  /-- Set operations of the tier at least. -/
  | body (tier : Nat)
  /-- What stands behind the body of a query. -/
  | tail
  /-- A query behind its `WITH` clause. -/
  | unprefixed
  | query
  /-- A column of a table. -/
  | element
  | statement

namespace Slot

/-- Where the place is, the step that reads it fails within the row. -/
def Fails (tokens : List Token) (failure : Failure) (row : List Kind) : Slot → Prop
  | operand tier => FailsOperand tokens failure tier row
  | rounds tier => FailsRounds tokens failure tier row
  | primary => FailsPrimary tokens failure row
  | operator tier => FailsOperator tokens failure tier row
  | predicate => FailsPredicate tokens failure row
  | table => FailsTable tokens failure row
  | source => FailsSource tokens failure row
  | join => FailsJoin tokens failure row
  | groupingSet => FailsGroupingSet tokens failure row
  | grouping => FailsGrouping tokens failure row
  | order => FailsOrder tokens failure row
  | bound => FailsBound tokens failure row
  | window => FailsWindow tokens failure row
  | term => FailsTerm tokens failure row
  | body tier => FailsBody tokens failure tier row
  | tail => FailsTail tokens failure row
  | unprefixed => FailsUnprefixed tokens failure row
  | query => FailsQuery tokens failure row
  | element => FailsElement tokens failure row
  | statement => FailsStatement tokens failure row

/-- The row begins what is expected at the place, and behind it, in front of `rest`, an operand is
expected in which a comparison or a predicate may stand without parentheses. -/
inductive Begins (rest : List Kind) : Slot → List Kind → Prop
  | here {tier : Nat} (loose : tier ≤ 4) : Begins rest (.rounds tier) []
  /-- Behind an operand of a higher tier, or of the same one, and its operator. -/
  | behind {tier weaker : Nat} {row front : List Kind} (left : IsLeft tier row)
    (tight : weaker ≤ tier) (inner : Begins rest (.operator tier) front) :
    Begins rest (.rounds weaker) (row ++ front)
  | rounds {tier : Nat} {front : List Kind} (inner : Begins rest (.rounds tier) front) :
    Begins rest (.operand tier) front
  /-- As the leading part of an operand. -/
  | primary {tier : Nat} {front : List Kind} (inner : Begins rest .primary front) :
    Begins rest (.operand tier) front
  /-- Behind an operator in front. -/
  | unary {tier : Nat} {front : List Kind} (op : UnaryOp)
    (inner : Begins rest (.operand op.tier) front) : Begins rest (.operand tier) (op.kind :: front)
  | binary {front : List Kind} (op : BinaryOp) (inner : Begins rest (.operand (op.tier + 1)) front) :
    Begins rest (.operator op.tier) (op.kind :: front)
  | predicate {front : List Kind} (negative : Bool) (inner : Begins rest .predicate front) :
    Begins rest (.operator 4) (Expr.notIf negative ++ front)
  | enclosed {front : List Kind} (inner : Begins rest (.operand 0) front) :
    Begins rest .primary (.symbol .leftParen :: front)
  /-- A value of a row behind the first one. -/
  | rowValue {first front : List Kind} {rows : List (List Kind)}
    (each : ∀ other ∈ first :: rows, ∃ e, Takes wholeExpression other e)
    (inner : Begins rest (.operand 0) front) :
    Begins rest .primary (.symbol .leftParen :: (beforeCommas (first :: rows) ++ front))
  | wordedRow {front : List Kind} {rows : List (List Kind)}
    (each : ∀ other ∈ rows, ∃ e, Takes wholeExpression other e)
    (inner : Begins rest (.operand 0) front) :
    Begins rest .primary (.keyword .ROW :: .symbol .leftParen :: (beforeCommas rows ++ front))
  | argument {front : List Kind} (function : AggregateFunction) (quantifier : Option SetQuantifier)
    (inner : Begins rest (.operand 0) front) :
    Begins rest .primary (.keyword function.word :: .symbol .leftParen ::
      (Piece.kinds (Canonical.ofQuantifier quantifier) ++ front))
  /-- The condition of an aggregate function. -/
  | filter {argument front : List Kind} {e : Expr} (function : AggregateFunction)
    (quantifier : Option SetQuantifier) (takes : Takes wholeExpression argument e)
    (inner : Begins rest (.operand 0) front) :
    Begins rest .primary (.keyword function.word :: .symbol .leftParen ::
      (Piece.kinds (Canonical.ofQuantifier quantifier) ++ (argument ++ .symbol .rightParen ::
        .keyword .FILTER :: .symbol .leftParen :: .keyword .WHERE :: front)))
  | subquery {front : List Kind} (inner : Begins rest .query front) :
    Begins rest .primary (.symbol .leftParen :: front)
  /-- `EXISTS` and `UNIQUE`. -/
  | test {front : List Kind} {word : Keyword} (isTest : word = .EXISTS ∨ word = .UNIQUE)
    (inner : Begins rest .query front) :
    Begins rest .primary (.keyword word :: .symbol .leftParen :: front)
  /-- A value behind `IN`. -/
  | listed {front : List Kind} {rows : List (List Kind)}
    (each : ∀ other ∈ rows, ∃ e, Takes wholeExpression other e)
    (inner : Begins rest (.operand 0) front) :
    Begins rest .predicate (.keyword .IN :: .symbol .leftParen :: (beforeCommas rows ++ front))
  /-- A query behind `IN`. -/
  | within {front : List Kind} (inner : Begins rest .query front) :
    Begins rest .predicate (.keyword .IN :: .symbol .leftParen :: front)
  | low {front words : List Kind} {isSymmetric : Bool}
    (spelled : words ∈ Expr.symmetrySpellings isSymmetric) (inner : Begins rest (.operand 5) front) :
    Begins rest .predicate (.keyword .BETWEEN :: (words ++ front))
  | high {front words row : List Kind} {isSymmetric : Bool} {low : Expr}
    (spelled : words ∈ Expr.symmetrySpellings isSymmetric)
    (text : Expr.OperatorText Expr.IsPrimary 5 low row) (inner : Begins rest (.operand 5) front) :
    Begins rest .predicate (.keyword .BETWEEN :: (words ++ (row ++ .keyword .AND :: front)))
  | pattern {front : List Kind} (inner : Begins rest (.operand 5) front) :
    Begins rest .predicate (.keyword .LIKE :: front)
  | escape {front row : List Kind} {pattern : Expr}
    (text : Expr.OperatorText Expr.IsPrimary 5 pattern row) (inner : Begins rest (.operand 5) front) :
    Begins rest .predicate (.keyword .LIKE :: (row ++ .keyword .ESCAPE :: front))
  /-- A query in the place of a table. -/
  | derived {front : List Kind} (inner : Begins rest .query front) :
    Begins rest .table (.symbol .leftParen :: front)
  /-- Joined tables in parentheses. -/
  | joined {front : List Kind} (inner : Begins rest .source front) :
    Begins rest .table (.symbol .leftParen :: front)
  | table {front : List Kind} (inner : Begins rest .table front) : Begins rest .source front
  | source {front row : List Kind} {item : Rel} (takes : Takes wholeSource row item)
    (inner : Begins rest .join front) : Begins rest .source (row ++ front)
  | cross {front : List Kind} (inner : Begins rest .table front) :
    Begins rest .join (.keyword .CROSS :: .keyword .JOIN :: front)
  | natural {front : List Kind} {kind : JoinKind} {words : List Keyword}
    (spelled : words ∈ kind.spellings) (inner : Begins rest .table front) :
    Begins rest .join (.keyword .NATURAL :: (words.map .keyword ++ .keyword .JOIN :: front))
  /-- The right operand of a join that has a condition. -/
  | right {front : List Kind} {kind : JoinKind} {words : List Keyword}
    (spelled : words ∈ kind.spellings) (inner : Begins rest .source front) :
    Begins rest .join (words.map .keyword ++ .keyword .JOIN :: front)
  | on {front row : List Kind} {kind : JoinKind} {words : List Keyword} {right : Rel}
    (spelled : words ∈ kind.spellings) (takes : Takes wholeSource row right)
    (inner : Begins rest (.operand 0) front) :
    Begins rest .join (words.map .keyword ++ .keyword .JOIN :: (row ++ .keyword .ON :: front))
  | target {front : List Kind} {rows : List (List Kind)} (quantifier : Option SetQuantifier)
    (each : ∀ other ∈ rows, ∃ e, Takes wholeTarget other e)
    (inner : Begins rest (.operand 0) front) :
    Begins rest .term (.keyword .SELECT ::
      (Piece.kinds (Canonical.ofQuantifier quantifier) ++ (beforeCommas rows ++ front)))
  /-- A source behind `FROM`. -/
  | sources {front row : List Kind} {rows : List (List Kind)}
    (takes : ∃ found, Takes (do selectTargets (← Phrases.forState)) row found)
    (each : ∀ other ∈ rows, ∃ r, Takes wholeSource other r) (inner : Begins rest .source front) :
    Begins rest .term (row ++ .keyword .FROM :: (beforeCommas rows ++ front))
  /-- The condition behind `WHERE`. -/
  | selection {front row : List Kind}
    (takes : ∃ found, Takes (do selectSources (← Phrases.forState)) row found)
    (inner : Begins rest (.operand 0) front) : Begins rest .term (row ++ .keyword .WHERE :: front)
  /-- An element behind `GROUP BY`. -/
  | grouped {front row : List Kind} {rows : List (List Kind)}
    (takes : ∃ found, Takes (do selectSelection (← Phrases.forState)) row found)
    (quantifier : Option SetQuantifier) (each : ∀ other ∈ rows, ∃ e, Takes wholeGrouping other e)
    (inner : Begins rest .grouping front) :
    Begins rest .term (row ++ .keyword .GROUP :: .keyword .BY ::
      (Piece.kinds (Canonical.ofQuantifier quantifier) ++ (beforeCommas rows ++ front)))
  | having {front row : List Kind}
    (takes : ∃ found, Takes (do selectGrouping (← Phrases.forState)) row found)
    (inner : Begins rest (.operand 0) front) : Begins rest .term (row ++ .keyword .HAVING :: front)
  /-- A window behind `WINDOW`. -/
  | windows {front row : List Kind} {rows : List (List Kind)} {kind : Kind} {name : Name}
    (takes : ∃ found, Takes (do selectHaving (← Phrases.forState)) row found)
    (each : ∀ other ∈ rows, ∃ window, Takes wholeWindow other window)
    (spells : kind.name? = some name) (inner : Begins rest .window front) :
    Begins rest .term (row ++ .keyword .WINDOW ::
      (beforeCommas rows ++ kind :: .keyword .AS :: .symbol .leftParen :: front))
  | values {front : List Kind} {rows : List (List Kind)}
    (each : ∀ other ∈ rows, ∃ e, Takes wholeExpression other e)
    (inner : Begins rest (.operand 0) front) :
    Begins rest .term (.keyword .VALUES :: (beforeCommas rows ++ front))
  /-- An expression that is a grouping set of its own. -/
  | groupingSet {front : List Kind} (inner : Begins rest (.operand 0) front)
    (plain : opensColumns (front ++ rest) = false) : Begins rest .groupingSet front
  /-- A column of a list. -/
  | groupedColumn {front : List Kind} {rows : List (List Kind)}
    (each : ∀ other ∈ rows, ∃ e, Takes wholeExpression other e)
    (inner : Begins rest (.operand 0) front) :
    Begins rest .groupingSet (.symbol .leftParen :: (beforeCommas rows ++ front))
  /-- Behind the parenthesis with which an expression begins. It holds one column. -/
  | behindColumn {front column others : List Kind} {e : Expr} (inner : Begins rest (.rounds 0) front)
    (takes : Takes wholeExpression column e)
    (opens : front ++ rest = .symbol .leftParen :: (column ++ .symbol .rightParen :: others)) :
    Begins rest .groupingSet front
  | grouping {front : List Kind} (inner : Begins rest .groupingSet front)
    (alone : opensSets (front ++ rest) = false) : Begins rest .grouping front
  /-- A grouping set of `ROLLUP` or `CUBE`. -/
  | listedSet {front : List Kind} {word : Keyword} {rows : List (List Kind)}
    (isList : word = .ROLLUP ∨ word = .CUBE)
    (each : ∀ other ∈ rows, ∃ set, Takes wholeGroupingSet other set)
    (inner : Begins rest .groupingSet front) :
    Begins rest .grouping (.keyword word :: .symbol .leftParen :: (beforeCommas rows ++ front))
  /-- A member of `GROUPING SETS`. -/
  | member {front : List Kind} {rows : List (List Kind)}
    (each : ∀ other ∈ rows, ∃ e, Takes wholeGrouping other e) (inner : Begins rest .grouping front) :
    Begins rest .grouping (.keyword .GROUPING :: .keyword .SETS :: .symbol .leftParen ::
      (beforeCommas rows ++ front))
  | sortKey {front : List Kind} {rows : List (List Kind)}
    (each : ∀ other ∈ rows, ∃ key, Takes wholeSortKey other key)
    (inner : Begins rest (.operand 0) front) :
    Begins rest .order (.keyword .ORDER :: .keyword .BY :: (beforeCommas rows ++ front))
  | partition {front row : List Kind} {rows : List (List Kind)}
    (takes : ∃ found, Takes (do windowBase (← Phrases.forState)) row found)
    (each : ∀ other ∈ rows, ∃ e, Takes wholeExpression other e)
    (inner : Begins rest (.operand 0) front) :
    Begins rest .window (row ++ .keyword .PARTITION :: .keyword .BY :: (beforeCommas rows ++ front))
  | windowOrder {front row : List Kind}
    (takes : ∃ found, Takes (do windowPartition (← Phrases.forState)) row found)
    (inner : Begins rest .order front) : Begins rest .window (row ++ front)
  | frame {front row words : List Kind}
    (takes : ∃ found, Takes (do windowOrder (← Phrases.forState)) row found) (unit : FrameUnit)
    (opens : OpensBound words) (inner : Begins rest .bound front) :
    Begins rest .window (row ++ .keyword unit.word :: (words ++ front))
  /-- The distance of a bound. -/
  | bound {front : List Kind} (inner : Begins rest (.operand 0) front)
    (noUnbounded : lead (front ++ rest) ≠ .keyword .UNBOUNDED)
    (noCurrent : lead (front ++ rest) = .keyword .CURRENT →
      lead ((front ++ rest).drop 1) ≠ .keyword .ROW) : Begins rest .bound front
  /-- A query in parentheses. -/
  | term {front : List Kind} (inner : Begins rest .query front) :
    Begins rest .term (.symbol .leftParen :: front)
  | body {front : List Kind} (tier : Nat) (inner : Begins rest .term front) :
    Begins rest (.body tier) front
  /-- Behind a body and a set operator. -/
  | setOp {tier : Nat} {front row : List Kind} {op : SetOperator} {left : Rel}
    (quantifier : Option SetQuantifier) (takes : Takes (bodyOfPower (2 * op.tier - 1)) row left)
    (tight : tier ≤ op.tier) (inner : Begins rest (.body (op.tier + 1)) front) :
    Begins rest (.body tier) (row ++ .keyword op.word ::
      (Piece.kinds (Canonical.ofQuantifier quantifier) ++ front))
  | orderTail {front : List Kind} (inner : Begins rest .order front) : Begins rest .tail front
  | offset {front row : List Kind}
    (takes : ∃ keys, Takes (do orderBy (← Phrases.forState)) row keys)
    (inner : Begins rest (.operand 0) front) : Begins rest .tail (row ++ .keyword .OFFSET :: front)
  | fetch {front row : List Kind}
    (takes : ∃ found, Takes (do orderOffset (← Phrases.forState)) row found) (kind : FetchKind)
    (inner : Begins rest (.operand 0) front) (noRow : lead (front ++ rest) ≠ .keyword .ROW)
    (noRows : lead (front ++ rest) ≠ .keyword .ROWS) :
    Begins rest .tail (row ++ .keyword .FETCH :: .keyword kind.word :: front)
  | unprefixed {front : List Kind} (inner : Begins rest (.body 0) front) :
    Begins rest .unprefixed front
  | tail {front row : List Kind} {body : Rel} (takes : Takes (bodyOfPower 0) row body)
    (inner : Begins rest .tail front) : Begins rest .unprefixed (row ++ front)
  | query {front : List Kind} (inner : Begins rest .unprefixed front) : Begins rest .query front
  /-- The query of a common table expression. -/
  | cte {opening front : List Kind} (opens : OpensCte opening) (inner : Begins rest .query front) :
    Begins rest .query (opening ++ front)
  | behindWith {opening row front : List Kind} {found : Query} (opens : OpensCte opening)
    (takes : Takes wholeQuery row found) (inner : Begins rest .unprefixed front) :
    Begins rest .query (opening ++ (row ++ .symbol .rightParen :: front))
  /-- The default value of a column, behind other clauses. -/
  | element {front row : List Kind} {column : ColumnDef} (takes : Takes columnHead row column)
    (noDefault : column.default = none) (inner : Begins rest (.operand 0) front)
    (goesOn : lead (front ++ rest) = .keyword .NULL →
      continuesDefault (lead ((front ++ rest).drop 1)) = true) :
    Begins rest .element (row ++ .keyword .DEFAULT :: front)
  | statement {front : List Kind} (inner : Begins rest .query front) : Begins rest .statement front
  /-- The query that an insertion takes its rows from. -/
  | insert {opening front : List Kind} (opens : OpensInsert opening)
    (inner : Begins rest .query front) : Begins rest .statement (opening ++ front)
  /-- The condition of a deletion. -/
  | delete {front row : List Kind} {table : QualifiedName} (only : Bool)
    (spelled : table.IsSpelled row) (first : only = false → lead row ≠ .keyword .ONLY)
    (inner : Begins rest (.operand 0) front) :
    Begins rest .statement (.keyword .DELETE :: .keyword .FROM ::
      ((if only then [.keyword .ONLY] else []) ++ (row ++ .keyword .WHERE :: front)))
  | create {front words row : List Kind} {table : QualifiedName} {rows : List (List Kind)}
    (takes : ∃ scope, Takes temporary words scope) (spelled : table.IsSpelled row)
    (each : ∀ other ∈ rows, ∃ element, Takes tableElement other element)
    (inner : Begins rest .element front) :
    Begins rest .statement (.keyword .CREATE :: (words ++ .keyword .TABLE ::
      (row ++ .symbol .leftParen :: (beforeCommas rows ++ front))))

variable {tokens : List Token} {failure : Failure} {rest front : List Kind} {slot : Slot}

theorem Begins.tier_pos {tier : Nat} (begins : (operator tier).Begins rest front) : 1 ≤ tier := by
  cases begins with
  | binary op inner => exact op.tier_pos
  | predicate negative inner => decide

/-- What fails where the row leads to makes what is expected at the place fail. -/
theorem Begins.fails (begins : slot.Begins rest front) (given : FailsRounds tokens failure 4 rest) :
    slot.Fails tokens failure (front ++ rest) := by
  induction begins with
  | here loose => exact given.weaken loose
  | behind left tight inner ih =>
    have operator : FailsOperator tokens failure _ _ := ih
    rw [List.append_assoc]
    exact (left.reads operator.ahead inner.tier_pos).fails operator tight
  | rounds _ ih => exact FailsRounds.operand ih
  | primary _ ih => exact FailsPrimary.operand ih
  | unary op _ ih => exact FailsOperand.unary ih
  | binary op _ ih => exact FailsOperand.binary ih
  | predicate negative _ ih =>
    rw [List.append_assoc]
    exact FailsPredicate.operator ih negative
  | enclosed _ ih => exact FailsOperand.enclosed ih
  | rowValue each _ ih =>
    rw [List.cons_append, List.append_assoc]
    exact FailsOperand.rowValue ih each
  | wordedRow each _ ih =>
    rw [List.cons_append, List.cons_append, List.append_assoc]
    exact FailsOperand.wordedRow ih each
  | argument function quantifier _ ih =>
    rw [List.cons_append, List.cons_append, List.append_assoc]
    exact FailsOperand.argument ih function quantifier
  | filter function quantifier takes _ ih =>
    simp only [List.cons_append, List.append_assoc]
    exact FailsOperand.filter ih function quantifier takes
  | subquery _ ih => exact (FailsQuery.inPlaces ih).primary
  | test isTest _ ih => exact FailsQuery.test ih isTest
  | listed each _ ih =>
    rw [List.cons_append, List.cons_append, List.append_assoc]
    exact FailsOperand.listed ih each
  | within _ ih => exact (FailsQuery.inPlaces ih).rows
  | low spelled _ ih =>
    rw [List.cons_append, List.append_assoc]
    exact FailsOperand.low ih spelled
  | high spelled text _ ih =>
    simp only [List.cons_append, List.append_assoc]
    exact FailsOperand.high ih spelled text.readsOperand
  | pattern _ ih => exact FailsOperand.pattern ih
  | escape text _ ih =>
    simp only [List.cons_append, List.append_assoc]
    exact FailsOperand.escape ih text.readsOperand
  | derived _ ih => exact (FailsQuery.inPlaces ih).table
  | joined _ ih => exact FailsSource.enclosed ih
  | table _ ih => exact FailsTable.source ih
  | source takes _ ih =>
    rw [List.append_assoc]
    exact FailsJoin.source ih takes
  | cross _ ih => exact FailsTable.cross ih
  | natural spelled _ ih =>
    simp only [List.cons_append, List.append_assoc]
    exact FailsTable.natural ih spelled
  | right spelled _ ih =>
    simp only [List.cons_append, List.append_assoc]
    exact FailsSource.right ih spelled
  | on spelled takes _ ih =>
    simp only [List.cons_append, List.append_assoc]
    exact FailsOperand.on ih spelled takes
  | target quantifier each _ ih =>
    simp only [List.cons_append, List.append_assoc]
    exact FailsOperand.target ih quantifier each
  | sources takes each _ ih =>
    simp only [List.cons_append, List.append_assoc]
    exact FailsSource.sources ih takes each
  | selection takes _ ih =>
    rw [List.append_assoc]
    exact FailsOperand.selection ih takes
  | grouped takes quantifier each _ ih =>
    simp only [List.cons_append, List.append_assoc]
    exact FailsGrouping.grouped ih takes quantifier each
  | having takes _ ih =>
    rw [List.append_assoc]
    exact FailsOperand.having ih takes
  | windows takes each spells _ ih =>
    simp only [List.cons_append, List.append_assoc]
    exact FailsWindow.windows ih takes each spells
  | values each _ ih =>
    rw [List.cons_append, List.append_assoc]
    exact FailsOperand.values ih each
  | groupingSet _ plain ih => exact FailsOperand.groupingSet ih plain
  | groupedColumn each _ ih =>
    rw [List.cons_append, List.append_assoc]
    exact FailsOperand.groupedColumn ih each
  | behindColumn _ takes opens ih => exact FailsRounds.groupingSet ih takes opens
  | grouping _ alone ih => exact FailsGroupingSet.grouping ih alone
  | listedSet isList each _ ih =>
    rw [List.cons_append, List.cons_append, List.append_assoc]
    exact FailsGroupingSet.listed ih isList each
  | member each _ ih =>
    rw [List.cons_append, List.cons_append, List.cons_append, List.append_assoc]
    exact FailsGrouping.member ih each
  | sortKey each _ ih =>
    rw [List.cons_append, List.cons_append, List.append_assoc]
    exact FailsOperand.sortKey ih each
  | partition takes each _ ih =>
    simp only [List.cons_append, List.append_assoc]
    exact FailsOperand.partition ih takes each
  | windowOrder takes _ ih =>
    rw [List.append_assoc]
    exact FailsOrder.window ih takes
  | frame takes unit opens _ ih =>
    simp only [List.cons_append, List.append_assoc]
    exact FailsBound.frame ih takes unit opens
  | bound _ noUnbounded noCurrent ih => exact FailsOperand.bound ih noUnbounded noCurrent
  | term _ ih => exact FailsQuery.term ih
  | body tier _ ih => exact FailsTerm.body ih tier
  | setOp quantifier takes tight _ ih =>
    simp only [List.cons_append, List.append_assoc]
    exact FailsBody.setOp ih quantifier takes tight
  | orderTail _ ih => exact FailsOrder.tail ih
  | offset takes _ ih =>
    rw [List.append_assoc]
    exact FailsOperand.offset ih takes
  | fetch takes kind _ noRow noRows ih =>
    simp only [List.cons_append, List.append_assoc]
    exact FailsOperand.fetch ih takes kind noRow noRows
  | unprefixed _ ih => exact FailsBody.unprefixed ih
  | tail takes _ ih =>
    rw [List.append_assoc]
    exact FailsTail.unprefixed ih takes
  | query _ ih => exact FailsUnprefixed.query ih
  | cte opens _ ih =>
    rw [List.append_assoc]
    exact FailsQuery.cte ih opens
  | behindWith opens takes _ ih =>
    simp only [List.cons_append, List.append_assoc]
    exact FailsUnprefixed.behindWith ih opens takes
  | element takes noDefault _ goesOn ih =>
    rw [List.append_assoc]
    exact FailsOperand.element ih goesOn takes noDefault
  | statement _ ih => exact FailsQuery.statement ih
  | insert opens _ ih =>
    rw [List.append_assoc]
    exact FailsQuery.insert ih opens
  | delete only spelled first _ ih =>
    simp only [List.cons_append, List.append_assoc]
    exact FailsOperand.delete ih only spelled first
  | create takes spelled each _ ih =>
    simp only [List.cons_append, List.append_assoc]
    exact FailsElement.create ih takes spelled each

end Slot

namespace Statement

/-- Where a comparison or a predicate stands in a statement and an operator is behind it that may
not follow, the statement is not read, and the failure is at that operator. -/
theorem parse_chained {text : String} {closed : Bool} {front row behind : List Kind}
    (begins : Slot.statement.Begins (row ++ behind) front) (compares : Expr.ComparisonText closed row)
    (chains : Chains closed behind) (splits : Scan.Splits text.toList (front ++ (row ++ behind)))
    (holds : text.utf8ByteSize < 2 ^ 63) :
    ∃ operator, (Lexer.ofText text).stream.tokens[(front ++ row).length]? = some operator ∧
      operator.kind = lead behind ∧
      ∀ limit ≥ (front ++ (row ++ behind)).length + 1, ∃ error : ParseError,
        parse limit text = .error (.grammatical error) ∧ error.span = operator.span ∧
          error.cause.message = operator.kind.description ++
            " cannot follow a comparison or predicate without parentheses" := by
  have kinds := (Lexer.stream_of_splits splits).1
  have lengths := congrArg List.length kinds
  obtain ⟨kind, others, rfl⟩ : ∃ kind others, behind = kind :: others := by
    obtain ⟨tier, isAhead, -⟩ := chains.ahead
    cases behind with
    | nil => cases isAhead
    | cons kind others => exact ⟨kind, others, rfl⟩
  simp only [List.length_map, List.length_append, List.length_cons, List.length_nil] at lengths
  obtain ⟨operator, found⟩ : ∃ operator,
      (Lexer.ofText text).stream.tokens[(front ++ row).length]? = some operator :=
    ⟨_, List.getElem?_eq_getElem (by rw [List.length_append]; omega)⟩
  have isKind : operator.kind = kind := by
    have atPlace := congrArg (·[(front ++ row).length]?) kinds
    simp only [List.getElem?_map, found, ← List.append_assoc, Option.map_some] at atPlace
    simpa using atPlace
  have isChained : Failure.IsChained (Lexer.ofText text).stream.tokens (kind :: others)
      (.grammatical ⟨.chained kind, operator.span⟩) := by
    refine ⟨operator, ?_, rfl⟩
    rw [← found, List.length_append, lengths, List.length_cons]
    congr 1
    omega
  have fails :
      FailsStatement (Lexer.ofText text).stream.tokens _ (front ++ (row ++ kind :: others)) :=
    begins.fails (compares.fails chains isChained)
  refine ⟨operator, found, isKind, fun limit enough => ?_⟩
  exact ⟨_, fails.parse splits holds limit enough, rfl, by rw [isKind]; rfl⟩

/-- A test in parentheses under `NOT`, on the right of `AND`. -/
theorem parse_chained_concat :
    ∃ operator, (Lexer.ofText "DELETE FROM t WHERE x = 1 AND NOT (a IS NOT NULL || b)").stream.tokens[14]? =
        some operator ∧ operator.kind = .symbol .concat ∧
      ∀ limit ≥ 18, ∃ error : ParseError,
        parse limit "DELETE FROM t WHERE x = 1 AND NOT (a IS NOT NULL || b)" =
            .error (.grammatical error) ∧ error.span = operator.span ∧
          error.cause.message = operator.kind.description ++
            " cannot follow a comparison or predicate without parentheses" := by
  have splits : Scan.Splits "DELETE FROM t WHERE x = 1 AND NOT (a IS NOT NULL || b)".toList
      [.keyword .DELETE, .keyword .FROM, .identifier "t", .keyword .WHERE, .identifier "x",
        .symbol .equal, .integer 1, .keyword .AND, .keyword .NOT, .symbol .leftParen, .identifier "a",
        .keyword .IS, .keyword .NOT, .keyword .NULL, .symbol .concat, .identifier "b",
        .symbol .rightParen] :=
    (Scan.spaced_of_spaced? 80 (by decide +kernel)).splits
  -- A token that is read alone by evaluation.
  have primary (kind : Kind) {expr : Expr} (run : ∃ t : State, t.Faces [] ∧
      wholePrimary ⟨⟨kind, default⟩, default, [⟨.endOfInput, default⟩], none, false, 0, 0, 1⟩ =
        .ok expr t) {tier : Nat} : Expr.OperatorText Expr.IsPrimary tier expr [kind] := by
    obtain ⟨t, faces, run⟩ := run
    exact .atom ⟨_, t, ⟨_, _, ⟨rfl, rfl, rfl, rfl⟩⟩, faces, run⟩
  have column (tier : Nat) (name : Name) :
      Expr.OperatorText Expr.IsPrimary tier (.column ⟨[], name⟩ default) [.identifier name] :=
    primary _ ⟨_, ⟨_, _, ⟨rfl, rfl, rfl, rfl⟩⟩, rfl⟩
  have number (tier : Nat) (value : Int) :
      Expr.OperatorText Expr.IsPrimary tier (.integer value default) [.integer value] :=
    primary _ ⟨_, ⟨_, _, ⟨rfl, rfl, rfl, rfl⟩⟩, rfl⟩
  have equal : Expr.OperatorText Expr.IsPrimary 2 _ _ :=
    .binary .equal default (by decide) (column 5 "x") (number 5 1)
  have right (rest : List Kind) :
      (Slot.operand 3).Begins rest [.keyword .NOT, .symbol .leftParen] :=
    .unary .not (.primary (.enclosed (.rounds (.here (by decide)))))
  have condition (rest : List Kind) : (Slot.operand 0).Begins rest _ :=
    .rounds (.behind (.text equal (Nat.le_refl 2) nofun) (Nat.zero_le 2) (.binary .and (right rest)))
  have begins (rest : List Kind) := Slot.Begins.delete false
    (QualifiedName.isSpelled_qualified ⟨[], "t"⟩) (by decide) (condition rest)
  exact parse_chained (begins _) (.tested true none (column 5 "a"))
    (.tighter .concat [.identifier "b", .symbol .rightParen] (by decide)) splits (by decide +kernel)

end Statement

end CanonicalSql
