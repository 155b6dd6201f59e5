import CanonicalSql.Grammar.Precedence
import CanonicalSql.Grammar.Tail

/-!
# Expressions

An expression is a leading part, with operators in front of it or not, and the operators
that follow it as long as they bind tightly enough. Comparisons and predicates form one
tier that does not chain: after one of them no operator of the tier or above may follow.
-/
namespace CanonicalSql.Parse

/-! ## Names, aggregates and parentheses -/

/-- One more part of a column name, or the asterisk that ends it. -/
def columnPart : List Name × Bool → Parse (Option (List Name × Bool))
  | (_, true) => return none
  | (parts, false) => do
    if ← takeSign .dot then
      if ← takeSign .star then return some (parts, true)
      else return some (parts ++ [← identifier], false)
    else return none

/-- `a.b.c` or `a.b.*`. -/
def column : Parse Expr := do
  let start ← here
  let (parts, star) ← loop columnPart ([← identifier], false)
  if star then return .asterisk (some (.ofParts parts)) (← spanFrom start)
  else if ← atSign .leftParen then fail (.unsupportedCall parts)
  else return .column (.ofParts parts) (← spanFrom start)

/-- What an aggregate is applied to: a quantifier or none, and the argument. -/
def aggregateArgument (phrases : Phrases) : Parse (Option SetQuantifier × Expr) := do
  return (← setQuantifier, ← phrases.expression)

/-- `WHERE condition`. -/
def whereCondition (phrases : Phrases) : Parse Expr := do
  expectWord .WHERE
  phrases.expression

/-- `FILTER (WHERE condition)`, or nothing. -/
def aggregateFilter (phrases : Phrases) : Parse (Option Expr) := do
  if ← atWordBefore .FILTER (· = .symbol .leftParen) then
    advance
    return some (← parenthesized (whereCondition phrases))
  else return none

/-- `function(argument)`, the current token being the name of the function. -/
def aggregate (phrases : Phrases) (function : AggregateFunction) : Parse Expr := do
  let start ← here
  advance
  let (quantifier, argument) ← parenthesized (aggregateArgument phrases)
  let filter ← aggregateFilter phrases
  return .aggregate function quantifier argument filter (← spanFrom start)

/-- The values of a row after `ROW`, of which there may be none. -/
def rowValues (phrases : Phrases) : Parse (List Expr) := do
  if ← atSign .rightParen then return [] else phrases.expressions

/-- What follows the first expression in parentheses: the rest of a longer query, more
values of a row, or nothing. -/
def afterFirst (phrases : Phrases) (start : Span) (first : Expr) : Parse Expr := do
  if ← atSign .comma then
    advance
    let rest ← phrases.expressions
    expectSign .rightParen
    return .row (first :: rest) (← spanFrom start)
  else
    expectSign .rightParen
    return first

/-- A subquery, a row or an expression in parentheses. -/
def inParentheses (phrases : Phrases) : Parse Expr := do
  let start ← here
  expectSign .leftParen
  if ← startsQuery then
    let query ← phrases.query
    expectSign .rightParen
    return .subquery query (← spanFrom start)
  else
    match ← phrases.expression with
    -- the parentheses around a query may turn out to be those of the first operand of a longer
    -- one
    | .subquery query span =>
      if ← continuesQuery then
        let longer ← reopened phrases query start
        expectSign .rightParen
        return .subquery longer (← spanFrom start)
      else afterFirst phrases start (.subquery query span)
    | first => afterFirst phrases start first

/-! ## Leading parts -/

/-- The truth value that a keyword names. -/
def truthValue? : Keyword → Option TruthValue
  | .TRUE => some .true
  | .FALSE => some .false
  | .UNKNOWN => some .unknown
  | _ => none

/-- A keyword as a name, unless it is reserved. -/
def wordAsColumn (word : Keyword) : Parse Expr := do
  if word.isReserved then unexpected "expression" else column

/-- A keyword that may name an aggregate function, which it does before a parenthesis. -/
def aggregateOrColumn (phrases : Phrases) (word : Keyword) : Parse Expr := do
  match AggregateFunction.ofWord? word with
  | some function =>
    if (← peek) = .symbol .leftParen then aggregate phrases function
    else wordAsColumn word
  | none => wordAsColumn word

/-- An expression that begins with a keyword. -/
def afterWord (phrases : Phrases) (word : Keyword) : Parse Expr := do
  let start ← here
  match truthValue? word with
  | some value =>
    advance
    return .truth value start
  | none =>
    match word with
    | .NULL =>
      advance
      return .null start
    | .EXISTS =>
      advance
      let query ← parenthesized phrases.query
      return .existence query (← spanFrom start)
    | .UNIQUE =>
      advance
      let query ← parenthesized phrases.query
      return .uniqueness query (← spanFrom start)
    | .ROW =>
      advance
      let values ← parenthesized (rowValues phrases)
      return .row values (← spanFrom start)
    | word => aggregateOrColumn phrases word

/-- A leading part without operators in front. -/
def primary (phrases : Phrases) : Parse Expr := do
  let start ← here
  match ← kind with
  | .integer value =>
    advance
    return .integer value start
  | .float value =>
    advance
    return .float value start
  | .string value kind =>
    advance
    return .string value kind start
  | .symbol .star =>
    advance
    return .asterisk none start
  | .symbol .leftParen => inParentheses phrases
  | .keyword word => afterWord phrases word
  | .identifier _ => column
  | _ => unexpected "expression"

/-- A leading part, with the operators in front of it. -/
def leading (phrases : Phrases) : Parse Expr := do
  let start ← here
  match UnaryOp.ofKind? (← kind) with
  | some (op, power) =>
    advance
    let operand ← nested (phrases.operand power)
    return .unary op operand (← spanFrom start)
  | none => primary phrases

/-! ## Predicates -/

/-- `operand` under `NOT`. -/
def negated (operand : Expr) (start : Span) : Parse Expr := do
  return .unary .not operand (← spanFrom start)

/-- The value after `IS`; none stands for `NULL`. -/
def testedValue : Parse (Option TruthValue) := do
  match ← word? with
  | some .NULL =>
    advance
    return none
  | some .TRUE =>
    advance
    return some .true
  | some .FALSE =>
    advance
    return some .false
  | some .UNKNOWN =>
    advance
    return some .unknown
  | _ => unexpected "NULL, TRUE, FALSE or UNKNOWN"

/-- `IS [NOT] value` after `left`. -/
def isTest (left : Expr) (start : Span) : Parse Expr := do
  expectWord .IS
  let negative ← takeWord .NOT
  let value ← testedValue
  let span ← spanFrom start
  let test : Expr := match value with
    | none => .isNull left span
    | some value => .isTruth left value span
  if negative then negated test start else return test

/-- An operand of a predicate, which binds tighter than all predicates. -/
def predicateOperand (phrases : Phrases) : Parse Expr :=
  phrases.operand Power.comparison.right

/-- `SYMMETRIC` or `ASYMMETRIC`, or nothing. -/
def symmetric : Parse Bool := do
  if ← takeWord .SYMMETRIC then return true
  else
    let _ ← takeWord .ASYMMETRIC
    return false

/-- A list of values that was opened at `opening`; it ends where the closing parenthesis
does. -/
def listedValues (opening : Span) (values : List Expr) : Parse Rel := do
  return .values values ((← here).merge opening)

/-- The rows after `IN` and an opening parenthesis: a query, or a list of values. -/
def inRows (phrases : Phrases) (opening : Span) : Parse Rel := do
  if ← startsQuery then return .query (← phrases.query)
  else
    let start ← here
    match ← phrases.expressions with
    -- the only value may have been the first operand of a query; several values are a list for
    -- certain
    | [.subquery query span] =>
      if ← continuesQuery then return .query (← reopened phrases query start)
      else listedValues opening [.subquery query span]
    | values => listedValues opening values

/-- `ESCAPE` with its expression, or nothing. -/
def likeEscape (phrases : Phrases) : Parse (Option Expr) := do
  if ← takeWord .ESCAPE then return some (← predicateOperand phrases) else return none

/-- `BETWEEN`, `IN` or `LIKE` after `left`. -/
def predicate (phrases : Phrases) (left : Expr) (start : Span) : Parse Expr := do
  match ← word? with
  | some .BETWEEN =>
    advance
    let symmetric ← symmetric
    let low ← predicateOperand phrases
    expectWord .AND
    let high ← predicateOperand phrases
    return .between left low high symmetric (← spanFrom start)
  | some .IN =>
    advance
    let opening ← here
    expectSign .leftParen
    let rows ← inRows phrases opening
    expectSign .rightParen
    return .within left rows (← spanFrom start)
  | some .LIKE =>
    advance
    let pattern ← predicateOperand phrases
    let escape ← likeEscape phrases
    return .like left pattern escape (← spanFrom start)
  | _ => unexpected "BETWEEN, IN or LIKE"

/-! ## Operators that follow -/

/-- Whether a token begins a predicate that `NOT` can stand in front of. -/
def isNegatable : Kind → Bool
  | .keyword .BETWEEN | .keyword .IN | .keyword .LIKE => true
  | _ => false

/-- The power of the current token as an operator that follows an expression. -/
def operatorPower : Parse (Option Power) := do
  -- behind an expression `NOT` belongs to the predicate that it stands in front of
  if ← atWord .NOT then
    return if isNegatable (← peek) then some .comparison else none
  else return Power.ofKind? (← kind)

/-- An operator between two expressions, and its right operand. -/
def binary (phrases : Phrases) (left : Expr) (power : Nat) (start : Span) : Parse Expr := do
  match BinaryOp.ofKind? (← kind) with
  | some op =>
    advance
    let right ← phrases.operand power
    return .binary left op right (← spanFrom start)
  | none => unexpected "operator"

/-- The operator at the current token, applied to `left`. -/
def applied (phrases : Phrases) (left : Expr) (power : Nat) (start : Span) : Parse Expr := do
  match ← word? with
  | some .COLLATE =>
    advance
    let collation ← qualifiedName
    return .collate left collation (← spanFrom start)
  | some .IS => isTest left start
  | some .NOT =>
    advance
    let test ← predicate phrases left start
    negated test start
  | some .BETWEEN | some .IN | some .LIKE => predicate phrases left start
  | _ => binary phrases left power start

/-- How far the operators after an expression have been read. -/
structure Applied where
  /-- The expression so far. -/
  left : Expr
  /-- The levels entered, one for each operator. -/
  levels : Nat
  /-- Whether the last operator was a comparison or a predicate. -/
  afterComparison : Bool

/-- One more operator, if one of the power at least follows. -/
def operatorStep (phrases : Phrases) (least : Nat) (start : Span) (done : Applied) :
    Parse (Option Applied) := do
  match ← operatorPower with
  | none => return none
  | some power =>
    if power.left < least then return none
    -- comparisons and predicates do not chain: the loop has just made one, and here is another
    else if done.afterComparison && Power.comparison.left ≤ power.left then
      fail (.chained (← kind))
    else
      enter
      let left ← applied phrases done.left power.right start
      return some ⟨left, done.levels + 1, power = .comparison⟩

/-- The operators of the power at least that follow `left`. -/
def operators (phrases : Phrases) (left : Expr) (least : Nat) (start : Span) :
    Parse Expr := do
  let done ← loop (operatorStep phrases least start) ⟨left, 0, false⟩
  leave done.levels
  return done.left

/-- An expression made of operators that bind at least as tightly as the power. -/
def operand (phrases : Phrases) (least : Nat) : Parse Expr := do
  let start ← here
  let left ← leading phrases
  operators phrases left least start

end CanonicalSql.Parse
