import CanonicalSql.Token.Error
import CanonicalSql.Token.Kind

/-!
# Failures

The reasons for which a text is no statement: a malformed token, or a token that the
grammar does not allow where it stands.
-/
namespace CanonicalSql

/-- Why the tokens form no statement. -/
inductive ParseCause
  /-- Another token was found than the ones that may stand here. -/
  | unexpected (expected : String) (found : Kind)
  /-- An operator follows a comparison or a predicate, which do not chain. -/
  | chained (operator : Kind)
  /-- A function is called that is no aggregate function. -/
  | unsupportedCall (function : List Name)
  /-- The tree, or the recursion needed to read it, is deeper than allowed. -/
  | tooDeep (limit : Nat)
deriving DecidableEq, Repr, Inhabited

namespace ParseCause

/-- The message, without the place. -/
def message : ParseCause → String
  | .unexpected expected .endOfInput => "Unexpected end of input: expected " ++ expected
  | .unexpected expected found =>
    "Unexpected token: expected " ++ expected ++ ", found " ++ found.description
  | .chained operator =>
    operator.description ++
      " cannot follow a comparison or predicate without parentheses"
  | .unsupportedCall function =>
    "Unsupported function call: " ++ ".".intercalate function ++
      "; only aggregate functions may be called"
  | .tooDeep limit => "nesting depth limit of " ++ toString limit ++ " exceeded"

/-- What was expected, if a token was found instead of it. -/
def expected? : ParseCause → Option String
  | .unexpected expected _ => some expected
  | _ => none

/-- The token found instead of what was expected. -/
def found? : ParseCause → Option Kind
  | .unexpected _ found => some found
  | _ => none

end ParseCause

/-- A token that the grammar does not allow: why, and where. -/
structure ParseError where
  cause : ParseCause
  span : Span
deriving DecidableEq, Repr, Inhabited

/-- Why a text could not be read as a statement. -/
inductive Failure
  | lexical (error : LexError)
  | grammatical (error : ParseError)
  /-- The bound on recursion was used up. Bounds are chosen so that this does not
  happen. -/
  | exhausted
deriving DecidableEq, Repr, Inhabited

namespace Failure

/-- The place of the offending text. -/
def span : Failure → Span
  | .lexical error => error.span
  | .grammatical error => error.span
  | .exhausted => {}

/-- The message, without the place. -/
def message : Failure → String
  | .lexical error => error.cause.message
  | .grammatical error => error.cause.message
  | .exhausted => "recursion bound exhausted"

/-- What kind of failure it is. -/
def title : Failure → String
  | .lexical _ => "lex error"
  | .grammatical _ => "parse error"
  | .exhausted => "internal error"

/-- The message in full. -/
def text (failure : Failure) : String :=
  failure.title ++ ": " ++ failure.message ++ " at " ++ failure.span.text

end Failure

end CanonicalSql
