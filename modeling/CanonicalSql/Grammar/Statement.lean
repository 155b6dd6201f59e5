import CanonicalSql.Depth
import CanonicalSql.Grammar.Definition

/-!
# Statements

A text is exactly one statement, with a semicolon after it or not. Its tree may not be
deeper than the limit, which is looked at when the whole text has been read.
-/
namespace CanonicalSql.Parse

/-- `OVERRIDING USER VALUE` or `OVERRIDING SYSTEM VALUE`, or nothing. -/
def overriding : Parse (Option Overriding) := do
  if ← takeWord .OVERRIDING then
    if ← takeWord .USER then
      expectWord .VALUE
      return some .userValue
    else
      expectWord .SYSTEM
      expectWord .VALUE
      return some .systemValue
  else return none

/-- The columns of an insertion. A parenthesis opens them only if a name follows it;
otherwise it opens a query. -/
def insertColumns : Parse (List Name) := do
  if ← atSign .leftParen then
    if (← peek).name?.isSome then names else return []
  else return []

/-- Where the rows of an insertion come from. -/
def insertSource : Parse InsertSource := do
  if ← takeWord .DEFAULT then
    expectWord .VALUES
    return .defaultValues
  else if ← startsQuery then return .query (← wholeQuery)
  else if ← atSign .leftParen then return .query (← wholeQuery)
  else unexpected "DEFAULT VALUES, VALUES or a query"

/-- `INSERT INTO`. -/
def insert : Parse Insert := do
  let start ← here
  expectWord .INSERT
  expectWord .INTO
  let table ← qualifiedName
  let columns ← insertColumns
  let overriding ← overriding
  let source ← insertSource
  return ⟨table, columns, overriding, source, ← spanFrom start⟩

/-- The condition of a deletion, or nothing. -/
def deleteCondition : Parse (Option Expr) := do
  if ← takeWord .WHERE then return some (← wholeExpression) else return none

/-- `DELETE FROM`. -/
def delete : Parse Delete := do
  let start ← here
  expectWord .DELETE
  expectWord .FROM
  let only ← takeWord .ONLY
  let table ← qualifiedName
  let selection ← deleteCondition
  return ⟨table, only, selection, ← spanFrom start⟩

/-- A query that is a statement. -/
def selectStatement : Parse Statement := do
  let start ← here
  let query ← wholeQuery
  return .select query (← spanFrom start)

/-- A statement, without what may follow it. -/
def bareStatement : Parse Statement := do
  match ← kind with
  | .keyword .CREATE => return .create (← create)
  | .keyword .INSERT => return .insert (← insert)
  | .keyword .DELETE => return .delete (← delete)
  | .keyword .SELECT | .keyword .VALUES | .keyword .TABLE | .keyword .WITH
  | .symbol .leftParen => selectStatement
  | _ => unexpected "CREATE, INSERT, DELETE, SELECT, VALUES, TABLE, WITH or '('"

/-- The end of the text, after a semicolon or not. -/
def endOfText : Parse Unit := do
  let _ ← takeSign .semicolon
  if (← kind) = .endOfInput then return () else unexpected "end of input"

/-- Refuses a tree that is too deep. -/
def checkDepth (statement : Statement) : Parse Unit := do
  let limit := (← get).limit
  match (Outline.ofStatement statement).firstBeyond limit with
  | some span => throw (.grammatical ⟨.tooDeep limit, span⟩)
  | none => return ()

/-- Looking at the depth of a tree is looking for the first node beyond the limit. -/
theorem checkDepth_eq (statement : Statement) (s : State) :
    checkDepth statement s = match (Outline.ofStatement statement).firstBeyond s.limit with
      | some span => .error (.grammatical ⟨.tooDeep s.limit, span⟩) s
      | none => .ok () s := by
  have limit : (get : Parse State) s = .ok s s := rfl
  rw [checkDepth, bind_ok limit]
  cases (Outline.ofStatement statement).firstBeyond s.limit <;> rfl

/-- A whole text. -/
def statement : Parse Statement := do
  let result ← bareStatement
  endOfText
  checkDepth result
  return result

end CanonicalSql.Parse

namespace CanonicalSql

/-- The state in which the reading of a stream begins, or the malformed token that is
found at once. -/
def State.ofStream (limit : Nat) (stream : TokenStream) : Except Failure State :=
  match stream.tokens, stream.failure with
  | first :: ahead, failure => .ok {
      current := first, previous := .point first.span.start, ahead, failure
      looked := false, taken := 0, depth := 0, limit }
  | [], some error => .error (.lexical error)
  | [], none => .error .exhausted

/-- The statement that a stream of tokens writes, within a limit on the depth of its tree,
and the number of tokens that were asked for to find out. -/
def TokenStream.statement (limit : Nat) (stream : TokenStream) :
    Except Failure Statement × Nat :=
  match State.ofStream limit stream with
  | .error failure => (.error failure, 1)
  | .ok start =>
    match Parse.statement start with
    | .ok statement last => (.ok statement, last.asked)
    | .error failure last => (.error failure, last.asked)

/-- The depth that trees may have if nothing else is asked for. -/
def defaultLimit : Nat := 48

namespace Statement

/-- The statement that a text writes, within a limit on the depth of its tree. -/
def parse (limit : Nat) (text : String) : Except Failure Statement :=
  ((Lexer.ofText text).stream.statement limit).1

end Statement

/-- Reads a statement from where the lexer stands, and moves the lexer over the tokens
that were asked for. -/
def Lexer.statement (limit : Nat) (lexer : Lexer) : Except Failure Statement × Lexer :=
  let (result, asked) := lexer.stream.statement limit
  (result, lexer.skip asked)

end CanonicalSql
