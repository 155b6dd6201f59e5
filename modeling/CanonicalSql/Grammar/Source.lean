import CanonicalSql.Grammar.Tail

/-!
# The sources of a projection

Tables, queries and joins in `FROM`. Joins group from the left; the right operand of a
qualified join may be followed by further joins, each of which takes the nearest `ON` or
`USING` that is left.
-/
namespace CanonicalSql.Parse

/-- `relation`, under a name if an alias follows. -/
def withAlias (relation : Rel) (start : Span) : Parse Rel := do
  match ← optionalAlias with
  | some name =>
    let columns ← optionalNames
    return .named name columns relation (← spanFrom start)
  | none => return relation

/-- A query in parentheses of its own that is the first operand of a longer query. -/
def longerTableQuery (phrases : Phrases) (first : Rel) (start : Span) : Parse Rel := do
  if first.isQueryLike then
    let operand := match first with
      | .query query => query.operand
      | relation => relation
    let body ← phrases.setOperations operand 0
    return .query (← queryTail phrases none body start)
  else unexpected "')' or a join"

/-- What stands between parentheses in place of a table: a query, joined tables or a
longer query. The opening parenthesis was at `start`. -/
def enclosedTable (phrases : Phrases) (start : Span) : Parse Rel := do
  if ← startsQuery then return .query (← phrases.query)
  -- what the second parenthesis encloses may be a query, which more than joins can follow
  else if ← atSign .leftParen then
    let first ← phrases.tablePrimary
    if ← continuesQuery then longerTableQuery phrases first start
    else phrases.joins first
  else
    let first ← phrases.tablePrimary
    phrases.joins first

/-- A query, joined tables or a longer query, in parentheses. -/
def parenthesizedTable (phrases : Phrases) : Parse Rel := do
  let start ← here
  expectSign .leftParen
  let relation ← enclosedTable phrases start
  expectSign .rightParen
  return relation

/-- A table by its name. -/
def namedTable : Parse Rel := do
  let start ← here
  let name ← qualifiedName
  return .table name (← spanFrom start)

/-- A table or what stands in its place, without an alias. -/
def tableFactor (phrases : Phrases) : Parse Rel := do
  if ← atSign .leftParen then nested (parenthesizedTable phrases) else namedTable

/-- A table, or what stands in parentheses in its place, with its alias. -/
def tablePrimary (phrases : Phrases) : Parse Rel := do
  let start ← here
  let relation ← tableFactor phrases
  withAlias relation start

/-- `[INNER | LEFT [OUTER] | RIGHT [OUTER] | FULL [OUTER]]`, where nothing means `INNER`. -/
def joinWords : Parse JoinKind := do
  match ← word? with
  | some .INNER =>
    advance
    return .inner
  | some .LEFT =>
    advance
    let _ ← takeWord .OUTER
    return .left
  | some .RIGHT =>
    advance
    let _ ← takeWord .OUTER
    return .right
  | some .FULL =>
    advance
    let _ ← takeWord .OUTER
    return .full
  | _ => return .inner

/-- The kind of a join, and `JOIN`. -/
def joinKind : Parse JoinKind := do
  let kind ← joinWords
  expectWord .JOIN
  return kind

/-- `ON condition` or `USING (columns)`. -/
def joinCondition (phrases : Phrases) : Parse JoinCondition := do
  if ← takeWord .ON then return .onExpr (← phrases.expression)
  else if ← takeWord .USING then return .usingColumns (← names)
  else unexpected "ON or USING"

/-- One join with `left` as its left operand. -/
def join (phrases : Phrases) (left : Rel) : Parse Rel := do
  if ← takeWord .CROSS then
    expectWord .JOIN
    let right ← tablePrimary phrases
    return .join .inner false .absent left right (← spanFrom left.span)
  else
    let natural ← takeWord .NATURAL
    let kind ← joinKind
    let right ← tablePrimary phrases
    -- a natural join is complete here, and joins behind it belong to the loop around
    if natural then return .join kind true .absent left right (← spanFrom left.span)
    else
      -- the joins up to the condition belong to the right operand
      let right ← phrases.joins right
      let condition ← joinCondition phrases
      return .join kind false condition left right (← spanFrom left.span)

/-- Whether a token begins a join. -/
def isJoinStart : Kind → Bool
  | .keyword .JOIN | .keyword .INNER | .keyword .LEFT | .keyword .RIGHT | .keyword .FULL
  | .keyword .CROSS | .keyword .NATURAL => true
  | _ => false

/-- Whether the current token begins a join. -/
def startsJoin : Parse Bool := return isJoinStart (← kind)

/-- One more join, which enters a level. -/
def joinStep (phrases : Phrases) : Rel × Nat → Parse (Option (Rel × Nat))
  | (left, levels) => do
    if ← startsJoin then
      enter
      return some (← join phrases left, levels + 1)
    else return none

/-- The joins that follow `left`. -/
def joins (phrases : Phrases) (left : Rel) : Parse Rel := do
  let (joined, levels) ← loop (joinStep phrases) (left, 0)
  leave levels
  return joined

/-- A source with its joins. -/
def source (phrases : Phrases) : Parse Rel := do
  joins phrases (← tablePrimary phrases)

end CanonicalSql.Parse
