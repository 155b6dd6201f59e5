import CanonicalSql.Grammar.Phrases

/-!
# The tail of a query

`ORDER BY`, `OFFSET` and `FETCH`, which apply to the result of a whole query.
-/
namespace CanonicalSql.Parse

/-- `ASC` or `DESC`, or nothing, which means `ASC`. -/
def sortOrder : Parse SortOrder := do
  if ← takeWord .DESC then return .descending
  else
    let _ ← takeWord .ASC
    return .ascending

/-- `NULLS FIRST` or `NULLS LAST`, or nothing. -/
def nullOrder : Parse NullOrder := do
  if ← takeWord .NULLS then
    if ← takeWord .FIRST then return .first
    else
      expectWord .LAST
      return .last
  else return .unspecified

/-- A sort key. -/
def sortKey (phrases : Phrases) : Parse SortKey := do
  let start ← here
  let expr ← phrases.expression
  let order ← sortOrder
  let nulls ← nullOrder
  return ⟨expr, order, nulls, ← spanFrom start⟩

/-- `ORDER BY` with its keys, or nothing. -/
def orderBy (phrases : Phrases) : Parse (List SortKey) := do
  if ← takeWord .ORDER then
    expectWord .BY
    commaSeparated (sortKey phrases)
  else return []

/-- Takes `ROW` or `ROWS` if it follows. -/
def takeRows : Parse Bool := do
  if ← takeWord .ROW then return true else takeWord .ROWS

/-- Takes `ROW` or `ROWS`, one of which must follow. -/
def expectRows : Parse Unit := do
  if ← takeWord .ROW then return () else expectWord .ROWS

/-- `OFFSET` with its count, or nothing. -/
def offset (phrases : Phrases) : Parse (Option Expr) := do
  if ← takeWord .OFFSET then
    let count ← phrases.expression
    let _ ← takeRows
    return some count
  else return none

/-- `FIRST` or `NEXT`. -/
def fetchKind : Parse FetchKind := do
  if ← takeWord .FIRST then return .first
  else if ← takeWord .NEXT then return .next
  else unexpected "FIRST or NEXT"

/-- The count of `FETCH`, or nothing. -/
def fetchCount (phrases : Phrases) : Parse (Option Expr) := do
  -- an expression may begin with `ROW` too, but not this one
  if ← atWord .ROW then return none
  else if ← atWord .ROWS then return none
  else return some (← phrases.expression)

/-- `ONLY` or `WITH TIES`. -/
def withTies : Parse Bool := do
  if ← takeWord .ONLY then return false
  else if ← takeWord .WITH then
    expectWord .TIES
    return true
  else unexpected "ONLY or WITH TIES"

/-- `FETCH`, or nothing. -/
def fetch (phrases : Phrases) : Parse (Option Fetch) := do
  let start ← here
  if ← takeWord .FETCH then
    let kind ← fetchKind
    let count ← fetchCount phrases
    let percent ← takeWord .PERCENT
    expectRows
    let ties ← withTies
    return some ⟨kind, count, percent, ties, ← spanFrom start⟩
  else return none

/-- The clauses after the body of a query that began at `start`. -/
def queryTail (phrases : Phrases) (withClause : Option WithClause) (body : Rel)
    (start : Span) : Parse Query := do
  let keys ← orderBy phrases
  let skipped ← offset phrases
  let fetched ← fetch phrases
  return ⟨withClause, body, keys, skipped, fetched, ← spanFrom start⟩

/-- Goes on with a query in parentheses that turned out to be the first operand of a
longer query, which began at `start`. -/
def reopened (phrases : Phrases) (query : Query) (start : Span) : Parse Query := do
  let body ← phrases.setOperations query.operand 0
  queryTail phrases none body start

end CanonicalSql.Parse
