import CanonicalSql.Span

/-!
# Malformed tokens

The reasons for which a text cannot be split into tokens, and their messages.
-/
namespace CanonicalSql

/-- Why a stretch of text is no token. -/
inductive LexCause
  | unterminatedComment
  | unterminatedName
  | emptyName
  | unterminatedString
  | invalidEscape (c : Char)
  | invalidBits (value : String)
  | invalidHex (value : String)
  | integerOutOfRange
  | floatOutOfRange (numeral : String)
  | unexpectedCharacter (c : Char)
deriving DecidableEq, Repr, Inhabited

/-- The message, without the place. -/
def LexCause.message : LexCause → String
  | .unterminatedComment => "Unterminated block comment"
  | .unterminatedName => "Unterminated quoted identifier"
  | .emptyName => "Zero-length quoted identifier"
  | .unterminatedString => "Unterminated string literal"
  | .invalidEscape c => "Invalid escape sequence: \\" ++ c.toString
  | .invalidBits value => "Invalid bit string literal: B'" ++ value ++ "'"
  | .invalidHex value => "Invalid hex string literal: X'" ++ value ++ "'"
  | .integerOutOfRange => "Invalid integer: number too large to fit in target type"
  | .floatOutOfRange numeral => "Float literal out of range: " ++ numeral
  | .unexpectedCharacter c => "Unexpected character: " ++ c.toString

/-- A malformed token: why, and the text from its start to where reading stopped. -/
structure LexError where
  cause : LexCause
  span : Span
deriving DecidableEq, Repr, Inhabited

end CanonicalSql
