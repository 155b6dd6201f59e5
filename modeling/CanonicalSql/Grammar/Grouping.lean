import CanonicalSql.Grammar.Expr

/-!
# Grouping

The elements of `GROUP BY`. A parenthesis may open a list of columns or an expression that
merely begins with one, which is told by the operator after the closing parenthesis.
-/
namespace CanonicalSql.Parse

/-- Whether a parenthesis is the current token and opens anything but a query. -/
def opensList : Parse Bool := do
  if ← atSign .leftParen then return !isQueryStart (← peek) else return false

/-- The columns of a list after the opening parenthesis, of which there may be none. -/
def groupedColumns (phrases : Phrases) : Parse (List Expr) := do
  if ← atSign .rightParen then return [] else phrases.expressions

/-- The expression that a single column in parentheses goes on to be, if an operator
follows. -/
def longerColumns (phrases : Phrases) (columns : List Expr) (start : Span) :
    Parse (List Expr) := do
  match columns with
  | [first] =>
    -- the column was no column, but the first operand of the operator
    if (← operatorPower).isSome then
      let expr ← nested (operators phrases first 0 start)
      return [expr]
    else return [first]
  | columns => return columns

/-- `()`, `(a, b, …)` or a single expression. -/
def groupingSet (phrases : Phrases) : Parse GroupingSet := do
  let start ← here
  if ← opensList then
    advance
    let columns ← groupedColumns phrases
    expectSign .rightParen
    let columns ← longerColumns phrases columns start
    return ⟨columns, ← spanFrom start⟩
  else
    let expr ← phrases.expression
    return ⟨[expr], ← spanFrom start⟩

/-- The grouping sets of `ROLLUP` or `CUBE`. -/
def groupingSetList (phrases : Phrases) : Parse (List GroupingSet) := do
  advance
  parenthesized (commaSeparated (groupingSet phrases))

/-- The members of `GROUPING SETS`. -/
def groupingSetsMembers (phrases : Phrases) : Parse (List Expr) := do
  advance
  advance
  nested (parenthesized (commaSeparated phrases.groupingElement))

/-- `ROLLUP`, `CUBE`, `GROUPING SETS` or a grouping set. -/
def groupingElement (phrases : Phrases) : Parse Expr := do
  let start ← here
  if ← atWordBefore .ROLLUP (· = .symbol .leftParen) then
    let sets ← groupingSetList phrases
    return .rollup sets (← spanFrom start)
  else if ← atWordBefore .CUBE (· = .symbol .leftParen) then
    let sets ← groupingSetList phrases
    return .cube sets (← spanFrom start)
  else if ← atWordBefore .GROUPING (· = .keyword .SETS) then
    let sets ← groupingSetsMembers phrases
    return .groupingSets sets (← spanFrom start)
  else return .groupingSet (← groupingSet phrases)

/-- `GROUP BY`, or nothing. -/
def groupClause (phrases : Phrases) : Parse (Option GroupClause) := do
  let start ← here
  if ← takeWord .GROUP then
    expectWord .BY
    let quantifier ← setQuantifier
    let groupings ← commaSeparated (groupingElement phrases)
    return some ⟨quantifier, groupings, ← spanFrom start⟩
  else return none

end CanonicalSql.Parse
