import CanonicalSql.Grammar.Failure
import CanonicalSql.Token.Lexer
import CanonicalSql.Tree.Choice

/-!
# Reading tokens

The state of a reader and the steps that all rules of the grammar are made of. A rule
looks at the current token and at most at the one after it; it moves on token by token and
never back.

Recursion is limited twice over. The counter `depth` is what users limit: `nested` and
`enter` refuse to go deeper than the cap. Loops are bounded by the number of tokens that
are left, which no loop can use up, since each round takes one at least (`round`).
-/
namespace CanonicalSql

/-- The stream of tokens as seen from the current one. -/
structure State where
  /-- The token that is looked at. -/
  current : Token
  /-- The place of the token taken last. -/
  previous : Span
  /-- The tokens after the current one. -/
  ahead : List Token
  /-- The malformed token after all of them, if lexing failed. -/
  failure : Option LexError
  /-- Whether the token after the current one has been asked for. -/
  looked : Bool
  /-- How many tokens have been taken. The end of input counts each time. -/
  taken : Nat
  /-- How many levels of recursion have been entered and not left. -/
  depth : Nat
  /-- The greatest depth of tree that is allowed. -/
  limit : Nat

namespace State

/-- The number of tokens that have been asked for, the malformed one included. -/
def asked (s : State) : Nat := s.taken + 1 + (if s.looked then 1 else 0)

/-- The levels of recursion that may be entered: twice the depth allowed, which leaves
room for redundant parentheses, within the range of a 64-bit word. -/
def cap (s : State) : Nat := min (2 * s.limit) 0xffffffffffffffff

end State

/-- A step that reads tokens. -/
abbrev Parse := EStateM Failure State

namespace Parse

section

variable {α β : Type} {p : Parse α} {f : α → Parse β} {s t : State} {a : α} {b : β}
  {failure : Failure}

theorem bind_ok (run : p s = .ok a t) : (p >>= f) s = f a t := by
  show EStateM.bind p f s = f a t
  simp only [EStateM.bind, run]

theorem bind_error (run : p s = .error failure t) : (p >>= f) s = .error failure t := by
  show EStateM.bind p f s = .error failure t
  simp only [EStateM.bind, run]

/-- Where two steps succeed, the first one does, and then the second one. -/
theorem ok_of_bind (run : (p >>= f) s = .ok b t) :
    ∃ a middle, p s = .ok a middle ∧ f a middle = .ok b t := by
  cases first : p s with
  | ok a middle => exact ⟨a, middle, rfl, by rwa [bind_ok first] at run⟩
  | error failure middle =>
    rw [bind_error first] at run
    cases run

/-- Where two steps fail, the first one does, or the second one after it. -/
theorem error_of_bind (run : (p >>= f) s = .error failure t) :
    p s = .error failure t ∨ ∃ a middle, p s = .ok a middle ∧ f a middle = .error failure t := by
  cases first : p s with
  | ok a middle => exact .inr ⟨a, middle, rfl, by rwa [bind_ok first] at run⟩
  | error other middle =>
    rw [bind_error first] at run
    cases run
    exact .inl rfl

end

/-! ## Looking and taking -/

/-- Takes the current token. -/
def advance : Parse Unit := fun s =>
  match s.ahead, s.failure with
  | token :: rest, _ =>
    .ok () { s with
      current := token, previous := s.current.span, ahead := rest
      looked := false, taken := s.taken + 1 }
  | [], some error => .error (.lexical error) { s with looked := true }
  -- the end of input stays the current token
  | [], none => .ok () { s with previous := s.current.span, taken := s.taken + 1 }

/-- The kind of the token after the current one. -/
def peek : Parse Kind := fun s =>
  match s.ahead, s.failure with
  | token :: _, _ => .ok token.kind { s with looked := true }
  | [], some error => .error (.lexical error) { s with looked := true }
  | [], none => .ok .endOfInput s

/-- The kind of the current token. -/
def kind : Parse Kind := return (← get).current.kind

/-- The keyword that the current token is. -/
def word? : Parse (Option Keyword) := do
  match ← kind with
  | .keyword word => return some word
  | _ => return none

/-- The place of the current token. -/
def here : Parse Span := return (← get).current.span

/-- The stretch of text from `start` to the token taken last. -/
def spanFrom (start : Span) : Parse Span := return start.merge (← get).previous

/-- Fails at the current token. -/
def fail {α : Type} (cause : ParseCause) : Parse α := do
  throw (.grammatical ⟨cause, ← here⟩)

/-- Fails because the current token is not what is expected. -/
def unexpected {α : Type} (expected : String) : Parse α := do
  fail (.unexpected expected (← kind))

/-- Whether the current token is the sign. -/
def atSign (sign : Symbol) : Parse Bool := return (← kind) = .symbol sign

/-- Whether the current token is the keyword. -/
def atWord (word : Keyword) : Parse Bool := return (← kind) = .keyword word

/-- Whether the current token is the keyword and the next one is as asked. The next token
is looked at only after the keyword. -/
def atWordBefore (word : Keyword) (next : Kind → Bool) : Parse Bool := do
  if ← atWord word then return next (← peek) else return false

/-- Takes the sign if it is the current token. -/
def takeSign (sign : Symbol) : Parse Bool := do
  if ← atSign sign then
    advance
    return true
  else return false

/-- Takes the keyword if it is the current token. -/
def takeWord (word : Keyword) : Parse Bool := do
  if ← atWord word then
    advance
    return true
  else return false

/-- Takes the sign, which must be the current token. -/
def expectSign (sign : Symbol) : Parse Unit := do
  if ← atSign sign then advance else unexpected (Kind.symbol sign).description

/-- Takes the keyword, which must be the current token. -/
def expectWord (word : Keyword) : Parse Unit := do
  if ← atWord word then advance else unexpected word.spelling

/-- Takes a name. -/
def identifier : Parse Name := do
  match (← kind).name? with
  | some name =>
    advance
    return name
  | none => unexpected "identifier"

/-! ## Recursion -/

/-- Goes one level deeper, if the cap allows it. -/
def enter : Parse Unit := do
  let s ← get
  if s.depth < s.cap then set { s with depth := s.depth + 1 }
  else fail (.tooDeep s.limit)

/-- What `enter` does in a state. -/
theorem enter_run (s : State) : enter s =
    if s.depth < s.cap then .ok () { s with depth := s.depth + 1 }
    else .error (.grammatical ⟨.tooDeep s.limit, s.current.span⟩) s := by
  show (if s.depth < s.cap then set { s with depth := s.depth + 1 }
    else fail (.tooDeep s.limit) : Parse Unit) s = _
  by_cases below : s.depth < s.cap
  · rw [if_pos below, if_pos below]
    rfl
  · rw [if_neg below, if_neg below]
    rfl

/-- Comes back from levels that were entered. -/
def leave (levels : Nat) : Parse Unit :=
  modify fun s => { s with depth := s.depth - levels }

/-- Reads one level deeper. -/
def nested {α : Type} (inner : Parse α) : Parse α := do
  enter
  let result ← inner
  leave 1
  return result

/-- Repeats a step until it gives nothing, at most `bound` times. -/
def iterate {σ : Type} (step : σ → Parse (Option σ)) : (bound : Nat) → σ → Parse σ
  | 0, _ => throw .exhausted
  | bound + 1, value => do
    match ← step value with
    | some next => iterate step bound next
    | none => return value

/-- The number of tokens after the current one. -/
def remaining : Parse Nat := return (← get).ahead.length

/-- What a round of a loop gives, once fewer tokens remain than before it. A loop whose rounds
take none would go round in one place. -/
def moved {σ : Type} (before : Nat) : Option σ → Parse (Option σ)
  | some next => do
    if (← remaining) < before then return some next else throw .exhausted
  | none => return none

/-- One round of a loop. -/
def round {σ : Type} (step : σ → Parse (Option σ)) (value : σ) : Parse (Option σ) := do
  let before ← remaining
  moved before (← step value)

/-- Repeats a step until it gives nothing. The step must take a token whenever it gives
something. -/
def loop {σ : Type} (step : σ → Parse (Option σ)) (value : σ) : Parse σ := do
  -- more rounds than there are tokens to take, so that only the tokens end the loop
  iterate (round step) ((← remaining) + 2) value

/-! ## Lists and names -/

/-- One item after each comma that follows. -/
def itemAfterComma {α : Type} (item : Parse α) (items : List α) :
    Parse (Option (List α)) := do
  if ← takeSign .comma then return some (items ++ [← item]) else return none

/-- One or more items between commas. -/
def commaSeparated {α : Type} (item : Parse α) : Parse (List α) := do
  loop (itemAfterComma item) [← item]

/-- What stands between parentheses. -/
def parenthesized {α : Type} (inner : Parse α) : Parse α := do
  expectSign .leftParen
  let result ← inner
  expectSign .rightParen
  return result

/-- One more part of a dotted name. -/
def partAfterDot (parts : List Name) : Parse (Option (List Name)) := do
  if ← takeSign .dot then return some (parts ++ [← identifier]) else return none

/-- A name with what contains it in front: `a.b.c`. -/
def qualifiedName : Parse QualifiedName := do
  return .ofParts (← loop partAfterDot [← identifier])

/-- `(a, b, …)`. -/
def names : Parse (List Name) := parenthesized (commaSeparated identifier)

/-- `(a, b, …)`, or nothing. -/
def optionalNames : Parse (List Name) := do
  if ← atSign .leftParen then names else return []

/-- `ALL` or `DISTINCT`, or nothing. -/
def setQuantifier : Parse (Option SetQuantifier) := do
  if ← takeWord .ALL then return some .all
  else if ← takeWord .DISTINCT then return some .distinct
  else return none

/-- The name after `AS`, a bare name that is not spelled as a keyword, or nothing. -/
def optionalAlias : Parse (Option Name) := do
  if ← takeWord .AS then return some (← identifier)
  else if (← kind).isIdentifier then return some (← identifier)
  else return none

/-- Whether a token begins a query. -/
def isQueryStart : Kind → Bool
  | .keyword .SELECT | .keyword .VALUES | .keyword .TABLE | .keyword .WITH => true
  | _ => false

/-- Whether a token goes on with a query after its first operand. -/
def isQueryNext : Kind → Bool
  | .keyword .UNION | .keyword .INTERSECT | .keyword .EXCEPT | .keyword .ORDER
  | .keyword .OFFSET | .keyword .FETCH => true
  | _ => false

/-- Whether the current token begins a query. -/
def startsQuery : Parse Bool := return isQueryStart (← kind)

/-- Whether the current token goes on with a query after its first operand. -/
def continuesQuery : Parse Bool := return isQueryNext (← kind)

end Parse

end CanonicalSql
