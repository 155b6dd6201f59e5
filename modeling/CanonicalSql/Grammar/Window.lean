import CanonicalSql.Grammar.Tail

/-!
# Windows

The definitions of the `WINDOW` clause: what a window is based on, its partition, its
order and its frame.
-/
namespace CanonicalSql.Parse

/-- The direction of a frame bound. -/
def boundDirection : Parse FrameBoundKind := do
  if ← takeWord .PRECEDING then return .preceding
  else if ← takeWord .FOLLOWING then return .following
  else unexpected "PRECEDING or FOLLOWING"

/-- `UNBOUNDED`, `CURRENT ROW` or an expression, with the direction where it has one. -/
def frameBound (phrases : Phrases) : Parse FrameBound := do
  let start ← here
  if ← takeWord .UNBOUNDED then
    let kind ← boundDirection
    return ⟨kind, none, ← spanFrom start⟩
  -- elsewhere `CURRENT` is a name with which a distance may begin
  else if ← atWordBefore .CURRENT (· = .keyword .ROW) then
    advance
    advance
    return ⟨.currentRow, none, ← spanFrom start⟩
  else
    let value ← phrases.expression
    let kind ← boundDirection
    return ⟨kind, some value, ← spanFrom start⟩

/-- What follows `EXCLUDE`. -/
def frameExclusion : Parse FrameExclusion := do
  match ← word? with
  | some .CURRENT =>
    advance
    expectWord .ROW
    return .currentRow
  | some .GROUP =>
    advance
    return .group
  | some .TIES =>
    advance
    return .ties
  | some .NO =>
    advance
    expectWord .OTHERS
    return .noOthers
  | _ => unexpected "CURRENT ROW, GROUP, TIES or NO OTHERS"

/-- The bounds of a frame: one, or two after `BETWEEN`. -/
def frameBounds (phrases : Phrases) : Parse (FrameBound × Option FrameBound) := do
  if ← takeWord .BETWEEN then
    let first ← frameBound phrases
    expectWord .AND
    return (first, some (← frameBound phrases))
  else return (← frameBound phrases, none)

/-- The exclusion of a frame, or nothing. -/
def optionalExclusion : Parse (Option FrameExclusion) := do
  if ← takeWord .EXCLUDE then return some (← frameExclusion) else return none

/-- The unit that a frame begins with, or nothing if no frame follows. -/
def frameUnit : Parse (Option FrameUnit) := do
  if ← takeWord .ROWS then return some .rows
  else if ← takeWord .RANGE then return some .range
  else if ← takeWord .GROUPS then return some .groups
  else return none

/-- A frame, or nothing. -/
def frame (phrases : Phrases) : Parse (Option Frame) := do
  let start ← here
  match ← frameUnit with
  | none => return none
  | some unit =>
    let (first, last) ← frameBounds phrases
    let exclusion ← optionalExclusion
    return some ⟨unit, first, last, exclusion, ← spanFrom start⟩

/-- The name of the window that another one is based on, or nothing. -/
def existingWindow : Parse (Option Name) := do
  if (← kind).isIdentifier then return some (← identifier) else return none

/-- `PARTITION BY` with its expressions, or nothing. -/
def partitionBy (phrases : Phrases) : Parse (List Expr) := do
  if ← takeWord .PARTITION then
    expectWord .BY
    phrases.expressions
  else return []

/-- The parenthesized body of a window definition. -/
def windowSpec (phrases : Phrases) : Parse WindowSpec := do
  let start ← here
  expectSign .leftParen
  let existing ← existingWindow
  let parts ← partitionBy phrases
  let keys ← orderBy phrases
  let frame ← frame phrases
  expectSign .rightParen
  return ⟨existing, parts, keys, frame, ← spanFrom start⟩

/-- `name AS (body)`. -/
def windowDef (phrases : Phrases) : Parse WindowDef := do
  let start ← here
  let name ← identifier
  expectWord .AS
  let spec ← windowSpec phrases
  return ⟨name, spec, ← spanFrom start⟩

/-- `WINDOW` with its definitions, or nothing. -/
def windows (phrases : Phrases) : Parse (List WindowDef) := do
  if ← takeWord .WINDOW then commaSeparated (windowDef phrases) else return []

end CanonicalSql.Parse
