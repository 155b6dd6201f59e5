import CanonicalSql.Grammar.Grouping
import CanonicalSql.Grammar.Source
import CanonicalSql.Grammar.Window

/-!
# Queries

Projections, lists of values, set operations and the `WITH` clause.
-/
namespace CanonicalSql.Parse

/-- A target of a projection, under a name if an alias follows. -/
def target (phrases : Phrases) : Parse Expr := do
  let start ← here
  let expr ← phrases.expression
  match ← optionalAlias with
  | some name => return .named name expr (← spanFrom start)
  | none => return expr

/-- `FROM` with its sources, or nothing. -/
def sources (phrases : Phrases) : Parse (List Rel) := do
  if ← takeWord .FROM then commaSeparated (source phrases) else return []

/-- A projection. -/
def select (phrases : Phrases) : Parse Select := do
  let start ← here
  expectWord .SELECT
  let quantifier ← setQuantifier
  let targets ← commaSeparated (target phrases)
  let sources ← sources phrases
  let selection ← phrases.optionalClause .WHERE
  let grouping ← groupClause phrases
  let having ← phrases.optionalClause .HAVING
  let windows ← windows phrases
  return ⟨quantifier, targets, sources, selection, grouping, having, windows,
    ← spanFrom start⟩

/-- `VALUES` with its rows. -/
def values (phrases : Phrases) : Parse Rel := do
  let start ← here
  expectWord .VALUES
  let rows ← phrases.expressions
  return .values rows (← spanFrom start)

/-- `TABLE` with the name of a table. -/
def wholeTable : Parse Rel := do
  let start ← here
  expectWord .TABLE
  let name ← qualifiedName
  return .table name (← spanFrom start)

/-- An operand of a set operation. -/
def queryPrimary (phrases : Phrases) : Parse Rel := do
  match ← kind with
  | .keyword .SELECT => return .select (← select phrases)
  | .keyword .VALUES => values phrases
  | .keyword .TABLE => wholeTable
  -- the parentheses leave no trace around a query that is nothing but its body
  | .symbol .leftParen => return (← parenthesized phrases.query).operand
  | _ => unexpected "SELECT, VALUES, TABLE or '('"

/-- One more set operation, if one of the power at least follows; it enters a level. -/
def setOperationStep (phrases : Phrases) (least : Nat) :
    Rel × Nat → Parse (Option (Rel × Nat))
  | (left, levels) => do
    match SetOperator.ofKind? (← kind) with
    | none => return none
    | some (op, power) =>
      if power.left < least then return none
      else
        enter
        advance
        let quantifier ← setQuantifier
        let first ← queryPrimary phrases
        let right ← phrases.setOperations first power.right
        return some (.setOp op quantifier left right (← spanFrom left.span), levels + 1)

/-- The set operations of the power at least that follow `left`. -/
def setOperations (phrases : Phrases) (left : Rel) (least : Nat) : Parse Rel := do
  let (body, levels) ← loop (setOperationStep phrases least) (left, 0)
  leave levels
  return body

/-- A common table expression. -/
def cte (phrases : Phrases) : Parse Cte := do
  let start ← here
  let name ← identifier
  let columns ← optionalNames
  expectWord .AS
  let query ← parenthesized phrases.query
  return ⟨name, columns, query, ← spanFrom start⟩

/-- `WITH`, or nothing. -/
def withClause (phrases : Phrases) : Parse (Option WithClause) := do
  let start ← here
  if ← takeWord .WITH then
    let recursive ← takeWord .RECURSIVE
    let ctes ← commaSeparated (cte phrases)
    return some ⟨recursive, ctes, ← spanFrom start⟩
  else return none

/-- A query, within the level that it counts. -/
def queryBody (phrases : Phrases) : Parse Query := do
  let start ← here
  let withClause ← withClause phrases
  let first ← queryPrimary phrases
  let body ← setOperations phrases first 0
  queryTail phrases withClause body start

/-- A query, one level deeper. -/
def query (phrases : Phrases) : Parse Query :=
  nested (queryBody phrases)

end CanonicalSql.Parse

namespace CanonicalSql.Phrases

/-- The recursive rules, one level above `phrases`. -/
def above (phrases : Phrases) : Phrases where
  operand least := .operand phrases least
  query := .query phrases
  setOperations left least := .setOperations phrases left least
  tablePrimary := .tablePrimary phrases
  joins left := .joins phrases left
  groupingElement := .groupingElement phrases

/-- The recursive rules with `bound` levels of recursion. -/
def within : (bound : Nat) → Phrases
  | 0 => exhausted
  | bound + 1 => (within bound).above

/-- A bound on recursion that the tokens left cannot use up: between two rules that take
a token there are at most a few that take none. -/
def boundFor (s : State) : Nat := 8 * (s.ahead.length + 2)

/-- The recursive rules with as many levels as the tokens left may need. -/
def forState : Parse Phrases := return within (boundFor (← get))

end CanonicalSql.Phrases
